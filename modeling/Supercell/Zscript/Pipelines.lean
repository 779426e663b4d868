import Supercell.Zscript.Bitcode
import Supercell.Zscript.Dispatch

/-!
# Two ways to the compiler

The scripts of a module are compiled by `TARGET_ADD_ZSCRIPT`, for a server of
threads, or by `ZS_2_NATIVE_CODE`, for one on a GPU. For the same scripts, options
and architecture the compiler should be called alike. It never is: the first one
loses the architecture on the way to its command line, and leaves the files of
the API as they are.
-/

namespace Supercell

namespace Zscript

open CMake CMake.Scope Hashmap Options Sections

variable {dir tgt : String} {evalIf : Scope → List String → Except Stop Bool} {s t : Scope}
  {argn asked old : List String}

/-- A rule among others calls the compiler with some arguments and an output. -/
def Invokes (zcc args : List String) (rules : List BuildRule) : Prop :=
  ∃ c path, .custom c ∈ rules ∧ zcc ++ args ++ ["-o", path] ∈ c.commands

/-- **The arguments that are asked for**: the options, the architecture, and every
file by an absolute path. -/
def AsksFor (dir : String) (asked args : List String) : Prop :=
  ∃ arch paths, args = given asked "ZCC_OPTIONS" ++ ["--arch", arch] ++ paths ∧
    lowerCase arch = lowerCase (archOf asked) ∧
      List.Forall₂ (fun path f =>
        isAbsolute path = true ∧ absolutePath dir path = absolutePath dir f) paths (scriptsOf asked)

/-- **The compiler is called alike**, by the rules of one macro and of the
other. -/
def Alike (dir : String) (asked zcc : List String) (rules : List BuildRule) (zcc' : List String)
    (rules' : List BuildRule) : Prop :=
  ∃ args, AsksFor dir asked args ∧ Invokes zcc args rules ∧ Invokes zcc' args rules'

/-! ## What `TARGET_ADD_ZSCRIPT` lacks -/

/-- **The rule for bitcode has no room for the architecture**, whatever its words
are. -/
theorem not_invokes_bitcodeRule {path : String} {args : List String} (h : AsksFor dir asked args) :
    ¬ Invokes (s.expand "ZCC_BC") args [bitcodeRule s path asked] := by
  intro hinvokes
  obtain ⟨c, out, hc, hcommand⟩ := hinvokes
  obtain ⟨arch, paths, rfl, -, hpaths⟩ := h
  rw [List.mem_singleton] at hc
  injection hc with hc
  have hassoc : ["OUTPUT", path] ++ ("DEPENDS" :: scriptsOf asked ++
      ("DEPENDS" :: s.expand "ZCC_BC" ++ "COMMAND" :: bitcodeWords s path asked)) =
      "OUTPUT" :: (path :: "DEPENDS" :: scriptsOf asked ++ "DEPENDS" :: s.expand "ZCC_BC") ++
        "COMMAND" :: bitcodeWords s path asked := by simp
  let n := (s.expand "ZCC_BC").length + (given asked "ZCC_OPTIONS").length +
    (scriptsOf asked).length + 3
  have hbound : (s.expand "ZCC_BC" ++ (given asked "ZCC_OPTIONS" ++ ["--arch", arch] ++ paths) ++
      ["-o", out]).length ≤ n := by
    rw [hc, hassoc] at hcommand
    refine length_le_of_mem_commands ?_ ?_ hcommand
    · simp only [List.length_append, List.length_cons, n]
      omega
    · simp only [bitcodeWords, scriptsOf, List.length_append, List.length_cons, List.length_map,
        List.length_nil, n]
      omega
  have hlength := hpaths.length_eq
  simp only [List.length_append, List.length_cons, List.length_nil, n] at hbound
  omega

/-! ## What `ZS_2_NATIVE_CODE` makes of them -/

/-- The arguments of the compiler in the rule for the scripts. -/
def nativeArguments (dir : String) (asked : List String) : List String :=
  given asked "ZCC_OPTIONS" ++ ["--arch", archWord asked] ++
    (scriptsOf asked).map (absolutePath dir)

/-- **They are what is asked for.** -/
theorem asksFor_nativeArguments (h : NativeArgs asked) :
    AsksFor dir asked (nativeArguments dir asked) := by
  refine ⟨archWord asked, _, rfl, ?_, ?_⟩
  · rw [h.lowerCase_arch, archWord]
    split <;> decide
  · rw [List.forall₂_map_left_iff]
    refine List.forall₂_same.2 fun f _ => ⟨?_, absolutePath_absolutePath dir f⟩
    obtain ⟨cs, hcs⟩ := exists_absolutePath_eq dir f
    rw [isAbsolute, hcs]
    rfl

/-- **The rule for the scripts, section by section.** -/
theorem allBcRule_ruleScope (hs : NativeScope dir s) (h : NativeArgs asked) :
    allBcRule (ruleScope dir s asked) = .custom (addCustomCommand
      ("OUTPUT" :: [targetPath s asked ++ ".all.bc"] ++
        ("DEPENDS" :: (scriptsOf asked).map (absolutePath dir) ++
          ("DEPENDS" :: s.expand "ZCC_BC" ++
            ("COMMAND" :: (s.expand "CMAKE_COMMAND" ++
              ["-E", "remove", "-f", targetPath s asked ++ ".all.bc"]) ++
            ("COMMAND" :: (s.expand "ZCC_BC" ++ nativeArguments dir asked ++
              ["-o", targetPath s asked ++ ".all.bc"]) ++ [])))))) := by
  have htool : ∀ x ∈ toolVariables, (ruleScope dir s asked).expand x = s.expand x := by
    intro x hx
    rw [Scope.expand, Scope.expand, ruleScope_tool dir s asked x hx]
  have hfiles : (ruleScope dir s asked).expand "__zs_files" =
      (scriptsOf asked).map (absolutePath dir) := by
    rw [Scope.expand, ruleScope_files]
    refine pieces_joined_words fun w hw => ?_
    obtain ⟨f, hf, rfl⟩ := List.mem_map.1 hw
    exact (plain_absolutePath hs.source (h.files f (List.mem_append_right _ hf)).1).toWord
  have hoptions : (ruleScope dir s asked).expand "__zcc_options" = archOptions asked := by
    rw [Scope.expand, ruleScope_options]
    refine pieces_joined_words fun w hw => ?_
    rw [List.mem_append, List.mem_cons, List.mem_singleton] at hw
    rcases hw with hw | rfl | rfl
    · exact (h.plain w (NativeArgs.mem hw)).toWord
    · decide
    · exact (word_archWord asked).1
  have hout : (ruleScope dir s asked).expand "_output_ALL_BC" = [targetPath s asked ++ ".all.bc"] :=
    expand_of_value_eq (ruleScope_path dir s asked ("_output_ALL_BC", ".all.bc") (by decide))
      (plain_targetPath hs h (by decide)).toWord
  rw [allBcRule, removeCommand, zccWords, htool "ZCC_BC" (by decide),
    htool "CMAKE_COMMAND" (by decide), hout, hfiles, hoptions, nativeArguments]
  simp

/-- **The module's rules call the compiler as asked**, as long as no word is a
keyword of the custom command. -/
theorem invokes_registered (hs : NativeScope dir s) (h : NativeArgs asked)
    (hzcc : ∀ w ∈ s.expand "ZCC_BC" ++ s.expand "CMAKE_COMMAND", w ∉ customKeywords)
    (hoptions : ∀ o ∈ given asked "ZCC_OPTIONS", o ∉ customKeywords) :
    Invokes (s.expand "ZCC_BC") (nativeArguments dir asked) (registered dir s asked old) := by
  have hpath : targetPath s asked ++ ".all.bc" ∉ customKeywords := by
    refine notMem_customKeywords (.inl ?_)
    simp [targetPath]
  have hfiles : ∀ w ∈ (scriptsOf asked).map (absolutePath dir), w ∉ customKeywords := by
    intro w hw
    obtain ⟨f, -, rfl⟩ := List.mem_map.1 hw
    obtain ⟨cs, hcs⟩ := exists_absolutePath_eq dir f
    exact notMem_customKeywords (.inl (by rw [hcs]; exact List.mem_cons_self))
  have hremove : ∀ w ∈ s.expand "CMAKE_COMMAND" ++
      ["-E", "remove", "-f", targetPath s asked ++ ".all.bc"], w ∉ customKeywords := by
    simp only [List.forall_mem_append, List.forall_mem_cons]
    exact ⟨fun w hw => hzcc w (List.mem_append_right _ hw), by decide, by decide, by decide, hpath,
      List.forall_mem_nil _⟩
  have hcommand : ∀ w ∈ s.expand "ZCC_BC" ++ nativeArguments dir asked ++
      ["-o", targetPath s asked ++ ".all.bc"], w ∉ customKeywords := by
    simp only [nativeArguments, List.forall_mem_append, List.forall_mem_cons]
    refine ⟨⟨fun w hw => hzcc w (List.mem_append_left _ hw), ⟨hoptions, by decide, ?_,
      List.forall_mem_nil _⟩, hfiles⟩, by decide, hpath, List.forall_mem_nil _⟩
    rw [archWord]
    split <;> decide
  have hrule := allBcRule_ruleScope hs h
  rw [addCustomCommand, readCustomCommand_output (by simpa using hpath),
    readCustomCommand_depends hfiles,
    readCustomCommand_depends fun w hw => hzcc w (List.mem_append_left _ hw),
    readCustomCommand_command hremove, readCustomCommand_command hcommand,
    readCustomCommand] at hrule
  have hmem : allBcRule (ruleScope dir s asked) ∈ registered dir s asked old := by
    rw [registered, optRules]
    exact List.mem_append_left _ (List.mem_cons_of_mem _ List.mem_cons_self)
  rw [hrule] at hmem
  exact ⟨_, _, hmem, List.mem_append_right _ List.mem_cons_self⟩

/-! ## The two of them -/

/-- **The two macros never call the compiler alike** for the same scripts, options
and architecture. The rules of `ZS_2_NATIVE_CODE` do call it as asked, unless a
word is a keyword of the custom command. -/
theorem zccCommands_unlike (hs : NativeScope dir s)
    (hdir : s.value "CMAKE_CURRENT_SOURCE_DIR" = dir) (ht : NativeScope dir t)
    (hasked : NativeArgs asked) (hparen : "(" ∉ given asked "ZS_SRC_FILES")
    (h : BitcodeArgs addZscriptKeywords argn asked) (htgt : literal tgt = true)
    (hslash : '/' ∉ tgt.toList) (hold : t.Holds "__zs_all_file" old)
    (hflag : asksGpu asked = true ∨ t "ZCC_ARCH_GPU" = none ∨ t "ZCC_ARCH_GPU" = some "1") :
    Returns (targetAddZscript s tgt argn) fun r =>
      Returns (zs2NativeCode dir evalIf t asked) fun r' =>
        ¬ Alike dir asked (s.expand "ZCC_BC") r.2.1 (t.expand "ZCC_BC") r'.2 ∧
          ((∀ w ∈ t.expand "ZCC_BC" ++ t.expand "CMAKE_COMMAND", w ∉ customKeywords) →
            (∀ o ∈ given asked "ZCC_OPTIONS", o ∉ customKeywords) →
            ∃ args, AsksFor dir asked args ∧ Invokes (t.expand "ZCC_BC") args r'.2) := by
  have hclosed : Closed (s.value "CMAKE_CURRENT_SOURCE_DIR") :=
    (inert_closedFrom_of_not_specials (notMem_specials_of_literal (hdir ▸ hs.source))).2
  refine (targetAddZscript_returns hs hclosed hasked hparen h htgt hslash).mono fun r hr => ?_
  refine (zs2NativeCode_returns ht hasked hold hflag).mono fun r' hr' => ?_
  constructor
  · intro halike
    obtain ⟨args, hargs, hinvokes, -⟩ := halike
    rw [hr] at hinvokes
    exact not_invokes_bitcodeRule hargs hinvokes
  · intro hzcc hoptions
    refine ⟨nativeArguments dir asked, asksFor_nativeArguments hasked, ?_⟩
    rw [hr'.rules]
    exact invokes_registered ht hasked hzcc hoptions

/-- A directory with its sources in `/src`. -/
def serverScope : Scope :=
  ((moduleScope.assign "CMAKE_CURRENT_SOURCE_DIR" "/src").assign "ZCC_BC" "zcc").assign
    "CMAKE_COMMAND" "cmake"

theorem nativeScope_serverScope : NativeScope "/src" serverScope := by
  have hagree : AgreesOff ["CMAKE_CURRENT_SOURCE_DIR", "ZCC_BC", "CMAKE_COMMAND"] moduleScope
      serverScope :=
    (((AgreesOff.refl _ _).assign (by decide) _).assign (by decide) _).assign (by decide) _
  exact nativeScope_moduleScope.agreesOff hagree (by decide)

/-- The arguments of both macros. -/
def gameScripts : List String :=
  ["ZS_SRC_FILES", "main.zs", "ZS_API_FILES", "api.zs", "ZCC_ARCH", "GPU"]

theorem nativeArgs_gameScripts : NativeArgs ("TARGET_NAME" :: "game" :: gameScripts) := by
  constructor <;> decide +kernel

theorem bitcodeArgs_gameScripts :
    BitcodeArgs addZscriptKeywords gameScripts ("TARGET_NAME" :: "game" :: gameScripts) := by
  constructor <;> decide +kernel

theorem all_serverScope : serverScope.Holds "__zs_all_file" [] := Holds.of_eq_none (by decide)

theorem zccCommands_unlike_game :
    Returns (targetAddZscript serverScope "game" gameScripts) fun r =>
      Returns (zs2NativeCode "/src" refused serverScope ("TARGET_NAME" :: "game" :: gameScripts))
        fun r' =>
          ¬ Alike "/src" ("TARGET_NAME" :: "game" :: gameScripts) ["zcc"] r.2.1 ["zcc"] r'.2 :=
  (zccCommands_unlike nativeScope_serverScope rfl nativeScope_serverScope nativeArgs_gameScripts
    (by decide +kernel) bitcodeArgs_gameScripts (by decide) (by decide) all_serverScope
    (.inl (by decide +kernel))).mono fun _ hr => hr.mono fun _ hr' => hr'.1

/-- **Two commands for the same scripts**: the first one has no architecture, and the
file of the API by a relative path. -/
theorem targetAddZscript_losesArch :
    Returns (targetAddZscript serverScope "game" gameScripts) fun r =>
      Returns (zs2NativeCode "/src" refused serverScope ("TARGET_NAME" :: "game" :: gameScripts))
        fun r' =>
          r.2.1 = [.custom ⟨["/build/game.tmp.bc"], ["main.zs", "api.zs", "zcc"],
            [["zcc", "/src/main.zs", "api.zs", "-o", "/build/game.tmp.bc"]]⟩] ∧
          .custom ⟨["/build/game.all.bc"], ["/src/main.zs", "/src/api.zs", "zcc"],
            [["cmake", "-E", "remove", "-f", "/build/game.all.bc"],
              ["zcc", "--arch", "gpu", "/src/main.zs", "/src/api.zs", "-o",
                "/build/game.all.bc"]]⟩ ∈ r'.2 ∧
          ¬ Alike "/src" ("TARGET_NAME" :: "game" :: gameScripts) ["zcc"] r.2.1 ["zcc"] r'.2 := by
  have hasked := nativeArgs_gameScripts
  refine (targetAddZscript_returns nativeScope_serverScope (by decide) hasked (by decide +kernel)
    bitcodeArgs_gameScripts (by decide) (by decide)).mono fun r hr => ?_
  refine (zs2NativeCode_returns nativeScope_serverScope hasked all_serverScope
    (.inl (by decide +kernel))).mono fun r' hr' => ?_
  refine ⟨?_, ?_, fun halike => ?_⟩
  · rw [hr]
    decide +kernel
  · rw [hr'.rules]
    decide +kernel
  · obtain ⟨args, hargs, hinvokes, -⟩ := halike
    rw [hr] at hinvokes
    exact not_invokes_bitcodeRule hargs hinvokes

end Zscript

end Supercell
