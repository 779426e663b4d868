import Supercell.CMake.CustomCommand
import Supercell.Zscript.Sources

/-!
# Sources and options, encoded again

`FindZilliansCompiler.cmake`: `ZS_2_NATIVE_ADD` sorts its arguments and hands
them on to `ZS2OPT_C` as one list, the files, `ZCC_OPTIONS`, the options.
`ZS2OPT_C` divides that list with a parser of its own, which looks at the token
alone. What the first parser takes for an option is never the token, and no file
is either, so the second one finds the same two lists.
-/

namespace Supercell

namespace Zscript

open CMake CMake.Scope

/-! ## The macros -/

/-- One argument of `ZS2OPT_C`. -/
def optionRound (s : Scope) : Except Stop Scope :=
  if s.strequal "arg" "ZCC_OPTIONS" then return s.assign "_found_options" "TRUE"
  else if s.truthy "_found_options" then return s.listAppend "_options_" [s.value "arg"]
  else return s.listAppend "_FILE_NEED_TO_PARSE_" [s.value "arg"]

/-- The command that runs the compiler. -/
def allBcCommand (s : Scope) : CustomCommand :=
  addCustomCommand ("OUTPUT" :: s.expand "_output_ALL_BC" ++
    ("DEPENDS" :: s.expand "_FILE_NEED_TO_PARSE_" ++ ("DEPENDS" :: s.expand "ZCC_BC" ++
      ("COMMAND" :: (s.expand "ZCC_BC" ++ s.expand "_options_" ++ s.expand "_FILE_NEED_TO_PARSE_" ++
        "-o" :: s.expand "_output_ALL_BC")))))

/-- The passes of the optimiser. -/
def optPasses : List String :=
  ["-simplifycfg", "-instcombine", "-inline", "-globaldce", "-instcombine", "-simplifycfg",
    "-scalarrepl", "-mem2reg", "-verify", "-sccp", "-adce", "-licm", "-instcombine", "-dce",
    "-simplifycfg", "-deadargelim", "-globaldce", "-deadtypeelim", "-ipconstprop"]

/-- The command that runs the optimiser. -/
def optBcCommand (s : Scope) : CustomCommand :=
  addCustomCommand ("OUTPUT" :: s.expand "_output_OPT_BC" ++
    ("DEPENDS" :: s.expand "_output_ALL_BC" ++
      ("COMMAND" :: (pieces (s.value "LLVM_BINDIR" ++ "/opt") ++ optPasses ++ "-f" ::
        s.expand "_output_ALL_BC" ++ "-o" :: s.expand "_output_OPT_BC"))))

/-- The command that makes a C file of the bitcode. -/
def allCCommand (s : Scope) : CustomCommand :=
  addCustomCommand ("OUTPUT" :: s.expand "_all_C" ++ ("DEPENDS" :: s.expand "_output_OPT_BC" ++
    ("COMMAND" :: (pieces (s.value "LLVM_BINDIR" ++ "/llc") ++ s.expand "_output_OPT_BC" ++
      "-o" :: s.expand "_all_C" ++ ["-march=c"]))))

/-- **`ZS2OPT_C`**. -/
def zs2optC (s : Scope) (target output : String) (argn : List String) :
    Except Stop (Scope × List BuildRule) := do
  let path := s.value "CMAKE_CURRENT_BINARY_DIR" ++ "/" ++ target
  let s := s.assign output (path ++ ".zsall.c")
  let s := s.assign "_all_C" (path ++ ".zsall.c")
  let s := s.assign "_output_OPT_BC" (path ++ ".opt.bc")
  let s := s.assign "_output_ALL_BC" (path ++ ".all.bc")
  let s := s.assign "_found_options" "FALSE"
  let s := s.unset "_options_"
  let s := s.unset "_FILE_NEED_TO_PARSE_"
  let s ← foreach s "arg" (← s.evaluate (joined argn)) optionRound
  return (s, [.custom (allBcCommand s), .custom (optBcCommand s), .custom (allCCommand s)])

/-- The call of `ZS2OPT_C`, on the words that its arguments give. -/
def callZs2optC (s : Scope) : List String → Except Stop (Scope × List BuildRule)
  | target :: output :: argn => zs2optC s target output argn
  | _ => .error (.fatal "Macro invoked with incorrect arguments for macro named: ZS2OPT_C")

/-- **`ZS_2_NATIVE_ADD`**. -/
def zs2NativeAdd (s : Scope) (target type : String) (argn : List String) :
    Except Stop (Scope × List BuildRule) := do
  let s := s.assign "_zcc_options" "-b"
  let s ← zsGetSourcesAndOptions s "_ZS_SRC_FILES" "_NORMAL_SRC_FILES" "_zcc_options"
    (← s.evaluate (joined argn))
  let name ← s.evaluate target
  let (s, rules) ← callZs2optC s (name ++ ["_output_C"] ++ s.expand "_ZS_SRC_FILES" ++
    ["ZCC_OPTIONS"] ++ s.expand "_zcc_options")
  let s := s.listAppend "_NORMAL_SRC_FILES" [s.value "_output_C"]
  let type ← Scope.subject (← s.evaluate type)
  if s.strequal type "EXE" then
    return (s, rules ++ [.executable name (s.expand "_NORMAL_SRC_FILES")])
  else if s.strequal type "SHARED" then
    return (s, rules ++ [.shared name (s.expand "_NORMAL_SRC_FILES")])
  else return (s, rules)

/-! ## The second parser -/

variable {s t : Scope} {target type : String} {args files options : List String}

/-- The second parser has the classes of the first one, without zscript files. -/
def noZs : String → Bool := fun _ => false

/-- **The encoding is undone** where neither list has the token. -/
theorem classes_encoded (hfiles : "ZCC_OPTIONS" ∉ files) (hoptions : "ZCC_OPTIONS" ∉ options) :
    normalFiles noZs (files ++ ["ZCC_OPTIONS"] ++ options) = files ∧
      zccOptions noZs (files ++ ["ZCC_OPTIONS"] ++ options) = options := by
  have hall : ∀ f ∈ files, decide (f ≠ "ZCC_OPTIONS") = true := by
    intro f hf
    rw [decide_eq_true_eq]
    intro heq
    exact hfiles (heq ▸ hf)
  have hkept : options.filter (· ≠ "ZCC_OPTIONS") = options := by
    refine List.filter_eq_self.2 fun o ho => ?_
    rw [decide_eq_true_eq]
    intro heq
    exact hoptions (heq ▸ ho)
  rw [List.append_assoc, List.singleton_append]
  constructor
  · rw [normalFiles, List.takeWhile_append_of_pos hall, List.takeWhile_cons_of_neg (by simp),
      List.append_nil]
    simp [noZs]
  · rw [zccOptions, List.dropWhile_append_of_pos hall, List.dropWhile_cons_of_neg (by simp)]
    simpa [noZs] using hkept

/-- What the first parser takes for an option is not the token. -/
theorem token_notMem_zccOptions (isZs : String → Bool) :
    "ZCC_OPTIONS" ∉ zccOptions isZs args := by
  intro h
  simpa using (List.mem_filter.1 h).2

/-- A file of the source directory has a slash, or comes from a home directory. -/
theorem slash_or_tilde_mem_inSource (s : Scope) (a : String) :
    '/' ∈ (inSource s a).toList ∨ '~' ∈ (inSource s a).toList := by
  unfold inSource
  split
  · rename_i habsolute
    unfold isAbsolute at habsolute
    split at habsolute
    · rename_i c cs hcs
      rw [Bool.or_eq_true, decide_eq_true_eq, decide_eq_true_eq] at habsolute
      rcases habsolute with rfl | rfl
      · exact .inl (hcs ▸ List.mem_cons_self)
      · exact .inr (hcs ▸ List.mem_cons_self)
    · exact absurd habsolute Bool.false_ne_true
  · exact .inl (by simp)

/-- The token does not look like that. -/
theorem inSource_ne_token (s : Scope) (a : String) : inSource s a ≠ "ZCC_OPTIONS" := by
  intro h
  have hmem := slash_or_tilde_mem_inSource s a
  rw [h] at hmem
  exact absurd hmem (by decide)

/-- The variables that a round of `ZS2OPT_C` writes. -/
def optionWritten : List String := ["arg", "_found_options", "_options_", "_FILE_NEED_TO_PARSE_"]

/-- What stays true from argument to argument. -/
structure Divided (s t : Scope) (done : List String) : Prop where
  files : t.Holds "_FILE_NEED_TO_PARSE_" (normalFiles noZs done)
  options : t.Holds "_options_" (zccOptions noZs done)
  found : t "_found_options" = some (if "ZCC_OPTIONS" ∈ done then "TRUE" else "FALSE")
  frame : AgreesOff optionWritten s t

/-- **One argument is put behind the token or in front of it.** -/
theorem optionRound_returns {done : List String} {a : String} (hs : s "ZCC_OPTIONS" = none)
    (ha : Word a) (h : Divided s t done) :
    Returns (optionRound (t.assign "arg" a)) (Divided s · (done ++ [a])) := by
  let u := t.assign "arg" a
  have hu : AgreesOff ["arg"] t u := (AgreesOff.refl _ t).assign (by simp) _
  have hfiles := h.files.agreesOff hu (by decide)
  have hoptions := h.options.agreesOff hu (by decide)
  have hfound : u "_found_options" = some (if "ZCC_OPTIONS" ∈ done then "TRUE" else "FALSE") := by
    rw [hu _ (by decide), h.found]
  have hframe : AgreesOff optionWritten s u := h.frame.trans (hu.mono (by decide))
  have huarg : u "arg" = some a := assign_self _ _ _
  have htoken : u.strequal "arg" "ZCC_OPTIONS" = decide (a = "ZCC_OPTIONS") := by
    rw [strequal, deref_of_eq_some huarg,
      deref_of_eq_none ((hframe "ZCC_OPTIONS" (by decide)).trans hs), beq_eq_decide]
  have htruthy := truthy_found hfound
  obtain ⟨-, hnormalClass, hoptionsClass⟩ := @classes_append noZs done a
  have happend : ∀ x, AgreesOff [x] u (u.listAppend x [a]) := fun x =>
    (AgreesOff.refl _ u).listAppend (by simp) _
  unfold optionRound
  simp only [show t.assign "arg" a = u from rfl, htoken, htruthy, value_of_eq_some huarg]
  -- the token only sets the flag; a word is filed by the flag
  by_cases htok : a = "ZCC_OPTIONS"
  · have hv : AgreesOff ["_found_options"] u (u.assign "_found_options" "TRUE") :=
      (AgreesOff.refl _ u).assign (by simp) _
    rw [if_pos (decide_eq_true htok)]
    refine Returns.ok ⟨?_, ?_, ?_, hframe.trans (hv.mono (by decide))⟩
    · rw [hnormalClass, if_neg (by simp [htok]), List.append_nil]
      exact hfiles.agreesOff hv (by decide)
    · rw [hoptionsClass, if_neg (by simp [htok]), List.append_nil]
      exact hoptions.agreesOff hv (by decide)
    · rw [assign_self, if_pos (by simp [htok])]
  · have hfoundAppend : u "_found_options" =
        some (if "ZCC_OPTIONS" ∈ done ++ [a] then "TRUE" else "FALSE") := by
      rw [hfound]
      simp [Ne.symm htok]
    rw [if_neg (by simpa using htok)]
    by_cases hmem : "ZCC_OPTIONS" ∈ done
    · rw [if_pos (decide_eq_true hmem)]
      refine Returns.ok ⟨?_, ?_, ?_, hframe.trans ((happend _).mono (by decide))⟩
      · rw [hnormalClass, if_neg (by simp [hmem]), List.append_nil]
        exact hfiles.agreesOff (happend _) (by decide)
      · rw [hoptionsClass, if_pos ⟨rfl, htok, hmem⟩]
        exact hoptions.listAppend _ (by simpa using ha)
      · rw [happend _ _ (by decide), hfoundAppend]
    · rw [if_neg (by simpa using hmem)]
      refine Returns.ok ⟨?_, ?_, ?_, hframe.trans ((happend _).mono (by decide))⟩
      · rw [hnormalClass, if_pos ⟨rfl, htok, hmem⟩]
        exact hfiles.listAppend _ (by simpa using ha)
      · rw [hoptionsClass, if_neg (by simp [hmem]), List.append_nil]
        exact hoptions.agreesOff (happend _) (by decide)
      · rw [happend _ _ (by decide), hfoundAppend]

/-- **A list with one token is divided at it.** -/
theorem optionRounds_returns (hs : s "ZCC_OPTIONS" = none) (hfiles : "ZCC_OPTIONS" ∉ files)
    (hoptions : "ZCC_OPTIONS" ∉ options)
    (hwords : ∀ a ∈ files ++ ["ZCC_OPTIONS"] ++ options, Word a)
    (hstart : Divided s s []) :
    Returns (foreach s "arg" (files ++ ["ZCC_OPTIONS"] ++ options) optionRound) fun t =>
      t.Holds "_FILE_NEED_TO_PARSE_" files ∧ t.Holds "_options_" options ∧
        AgreesOff optionWritten s t := by
  obtain ⟨hnormalFiles, hzccOptions⟩ := classes_encoded hfiles hoptions
  refine foreach_returns (fun done t => Divided s t done) hstart ?_ ?_
  · intro done a rest t hitems ht
    exact optionRound_returns hs (hwords a (by rw [hitems]; simp)) ht
  · intro t ht
    have harg : AgreesOff ["arg"] t (t.assign "arg" (s.value "arg")) :=
      (AgreesOff.refl _ t).assign (by simp) _
    have hnormal := ht.files.agreesOff harg (by decide)
    have hzcc := ht.options.agreesOff harg (by decide)
    rw [hnormalFiles] at hnormal
    rw [hzccOptions] at hzcc
    exact ⟨hnormal, hzcc, ht.frame.trans (harg.mono (by decide))⟩

/-- The file that the compiler makes. -/
def allBc (s : Scope) (target : String) : String :=
  s.value "CMAKE_CURRENT_BINARY_DIR" ++ "/" ++ target ++ ".all.bc"

/-- **A command line that the build gets as it is given**: no word of it is a
keyword of `add_custom_command`. -/
structure CompilerCall (s : Scope) (target : String) (files options : List String) : Prop where
  files : ∀ f ∈ files, Plain f ∧ f ≠ "ZCC_OPTIONS" ∧ f ∉ customKeywords
  options : ∀ o ∈ options, Plain o ∧ o ≠ "ZCC_OPTIONS" ∧ o ∉ customKeywords
  compiler : ∀ w ∈ s.expand "ZCC_BC", w ∉ customKeywords
  undefined : s "ZCC_OPTIONS" = none
  closed : Closed (s.value "CMAKE_CURRENT_BINARY_DIR")
  target : Plain target

/-- The command that `ZS2OPT_C` has the compiler run by. -/
def compilerCommand (s : Scope) (target : String) (files options : List String) : CustomCommand where
  outputs := [allBc s target]
  depends := files ++ s.expand "ZCC_BC"
  commands := [s.expand "ZCC_BC" ++ options ++ files ++ ["-o", allBc s target]]

/-- **What `ZS2OPT_C` makes of a list with one token**: the words in front of it
are the files, and those behind it the options. -/
theorem zs2optC_returns (h : CompilerCall s target files options) :
    Returns (zs2optC s target "_output_C" (files ++ ["ZCC_OPTIONS"] ++ options)) fun r =>
      r.2 = [.custom (compilerCommand s target files options), .custom (optBcCommand r.1),
        .custom (allCCommand r.1)] := by
  have hfiles : "ZCC_OPTIONS" ∉ files := fun hmem => (h.files _ hmem).2.1 rfl
  have hoptions : "ZCC_OPTIONS" ∉ options := fun hmem => (h.options _ hmem).2.1 rfl
  have hplain : ∀ a ∈ files ++ ["ZCC_OPTIONS"] ++ options, Plain a := by
    intro a ha
    rw [List.mem_append, List.mem_append, List.mem_singleton] at ha
    rcases ha with (ha | rfl) | ha
    · exact (h.files a ha).1
    · decide
    · exact (h.options a ha).1
  -- the paths, and the lists emptied
  let path := s.value "CMAKE_CURRENT_BINARY_DIR" ++ "/" ++ target
  let u := (((((((s.assign "_output_C" (path ++ ".zsall.c")).assign "_all_C"
    (path ++ ".zsall.c")).assign "_output_OPT_BC" (path ++ ".opt.bc")).assign "_output_ALL_BC"
    (path ++ ".all.bc")).assign "_found_options" "FALSE").unset "_options_").unset
    "_FILE_NEED_TO_PARSE_")
  have hu : AgreesOff (["_output_C", "_all_C", "_output_OPT_BC", "_output_ALL_BC"] ++ optionWritten)
      s u := by
    have hbase := AgreesOff.refl
      (["_output_C", "_all_C", "_output_OPT_BC", "_output_ALL_BC"] ++ optionWritten) s
    have hpaths := (((hbase.assign (x := "_output_C") (by decide) (path ++ ".zsall.c")).assign
      (x := "_all_C") (by decide) (path ++ ".zsall.c")).assign (x := "_output_OPT_BC") (by decide)
      (path ++ ".opt.bc")).assign (x := "_output_ALL_BC") (by decide) (path ++ ".all.bc")
    exact ((hpaths.assign (x := "_found_options") (by decide) "FALSE").unset (x := "_options_")
      (by decide)).unset (x := "_FILE_NEED_TO_PARSE_") (by decide)
  have hevaluate : u.evaluate (joined (files ++ ["ZCC_OPTIONS"] ++ options)) =
      .ok (files ++ ["ZCC_OPTIONS"] ++ options) := evaluate_joined u hplain
  have hstart : Divided u u [] := by
    refine ⟨Holds.of_unset, ?_, ?_, AgreesOff.refl _ _⟩
    · exact Holds.of_eq_none ((unset_of_ne _ (by decide)).trans (unset_self _ _))
    · exact (unset_of_ne _ (by decide)).trans
        ((unset_of_ne _ (by decide)).trans (assign_self _ _ _))
  have hloop := optionRounds_returns ((hu _ (by decide)).trans h.undefined) hfiles hoptions
    (fun a ha => (hplain a ha).toWord) hstart
  unfold zs2optC
  show Returns (u.evaluate (joined (files ++ ["ZCC_OPTIONS"] ++ options)) >>= _) _
  rw [hevaluate, ok_bind]
  refine hloop.bind fun t ⟨hheld, hheldOptions, hframe⟩ => Returns.ok ?_
  have houtput : Word (allBc s target) := by
    refine ⟨fun hempty => ?_, ?_⟩
    · exact absurd (String.append_eq_empty_iff.1 hempty).2 (by decide)
    · exact ((h.closed.append (by decide)).append h.target.closed).append (by decide)
  have hvalue : u.value "_output_ALL_BC" = allBc s target := by
    refine value_of_eq_some ?_
    exact (unset_of_ne _ (by decide)).trans ((unset_of_ne _ (by decide)).trans
      ((assign_of_ne _ (by decide) _).trans (assign_self _ _ _)))
  have hallBc : t.expand "_output_ALL_BC" = [allBc s target] :=
    expand_of_value_eq ((hframe.value (by decide)).trans hvalue) houtput
  have hcompiler : t.expand "ZCC_BC" = s.expand "ZCC_BC" := by
    rw [Scope.expand, Scope.expand, hframe.value (by decide), hu.value (by decide)]
  have hkeyword : allBc s target ∉ customKeywords :=
    notMem_customKeywords (.inl (by simp [allBc]))
  -- no word is a keyword, so each section of the command is what was written
  have hcommand : allBcCommand t = compilerCommand s target files options := by
    rw [allBcCommand, hallBc, hcompiler, hheld.expand, hheldOptions.expand, compilerCommand]
    refine addCustomCommand_sections ?_ (fun w hw => (h.files w hw).2.2) h.compiler ?_
    · intro w hw
      exact List.mem_singleton.1 hw ▸ hkeyword
    · intro w hw
      rw [List.mem_append, List.mem_append, List.mem_append, List.mem_cons,
        List.mem_singleton] at hw
      rcases hw with ((hw | hw) | hw) | rfl | rfl
      · exact h.compiler w hw
      · exact (h.options w hw).2.2
      · exact (h.files w hw).2.2
      · decide
      · exact hkeyword
  rw [hcommand]

/-! ## Both parsers -/

/-- **A call of `ZS_2_NATIVE_ADD`** on plain words, which the scripts are in their
directory, too. None of the options is a keyword of `add_custom_command`. -/
structure NativeAddCall (s : Scope) (target type : String) (args : List String) : Prop where
  plain : ∀ a ∈ args, Plain a
  target : Plain target
  type : Plain type ∧ type ≠ "(" ∧ type ∉ unaryWords
  undefined : s ".zs" = none ∧ s "ZCC_OPTIONS" = none
  directories : Closed (s.value "CMAKE_CURRENT_SOURCE_DIR") ∧
    Closed (s.value "CMAKE_CURRENT_BINARY_DIR")
  scripts : ∀ a ∈ zsFiles hasZsExtension args, Plain (inSource s a)
  compiler : ∀ w ∈ s.expand "ZCC_BC", w ∉ customKeywords
  options : ∀ o ∈ zccOptions hasZsExtension args, o ∉ customKeywords

/-- The first parser, called with `-b` for an option that was there before. -/
def collect (s : Scope) (args : List String) : Except Stop Scope :=
  zsGetSourcesAndOptions (s.assign "_zcc_options" "-b") "_ZS_SRC_FILES" "_NORMAL_SRC_FILES"
    "_zcc_options" args

/-- What the first parser finds. -/
theorem collect_returns (h : NativeAddCall s target type args) :
    Returns (collect s args) fun t =>
      t.Holds "_zcc_options" ("-b" :: zccOptions hasZsExtension args) ∧
        t.Holds "_ZS_SRC_FILES" ((zsFiles hasZsExtension args).map (inSource s)) ∧
        AgreesOff (sourceWritten "_ZS_SRC_FILES" "_NORMAL_SRC_FILES" "_zcc_options") s t := by
  let u := s.assign "_zcc_options" "-b"
  have hu : AgreesOff ["_zcc_options"] s u := (AgreesOff.refl _ s).assign (by simp) _
  have hdir : u.value "CMAKE_CURRENT_SOURCE_DIR" = s.value "CMAKE_CURRENT_SOURCE_DIR" :=
    hu.value (by decide)
  have hinSource : inSource u = inSource s := by
    funext a
    rw [inSource, inSource, hdir]
  have hbefore : (s.assign "_zcc_options" (joined ["-b"])).Holds "_zcc_options" ["-b"] :=
    Holds.of_assign (by decide)
  rw [joined_singleton] at hbefore
  have hcall : SourceCall u "_ZS_SRC_FILES" "_NORMAL_SRC_FILES" "_zcc_options" ["-b"] args := by
    refine ⟨h.plain, ⟨?_, ?_⟩, hdir ▸ h.directories.1, by decide, by decide, by decide, hbefore⟩
    · exact (hu _ (by decide)).trans h.undefined.1
    · exact (hu _ (by decide)).trans h.undefined.2
  obtain ⟨t, ht, hsorted⟩ := zsGetSourcesAndOptions_returns hcall
  refine ⟨t, ht, hsorted.options, hinSource ▸ hsorted.zs_files, ?_⟩
  exact (hu.mono (by decide)).trans (zsGetSourcesAndOptions_agreesOff ht)

/-- What it finds can be encoded. -/
theorem NativeAddCall.compilerCall (h : NativeAddCall s target type args)
    (ht : AgreesOff (sourceWritten "_ZS_SRC_FILES" "_NORMAL_SRC_FILES" "_zcc_options") s t) :
    CompilerCall t target ((zsFiles hasZsExtension args).map (inSource s))
      ("-b" :: zccOptions hasZsExtension args) := by
  refine ⟨?_, ?_, ?_, ?_, ?_, h.target⟩
  · intro f hf
    obtain ⟨a, ha, rfl⟩ := List.mem_map.1 hf
    exact ⟨h.scripts a ha, inSource_ne_token s a,
      notMem_customKeywords (slash_or_tilde_mem_inSource s a)⟩
  · intro o ho
    rcases List.mem_cons.1 ho with rfl | ho
    · decide
    · refine ⟨?_, ?_, h.options o ho⟩
      · exact h.plain o ((List.dropWhile_sublist _).subset (List.mem_filter.1 ho).1)
      · intro heq
        exact token_notMem_zccOptions hasZsExtension (heq ▸ ho)
  · have hexpand : t.expand "ZCC_BC" = s.expand "ZCC_BC" := by
      rw [Scope.expand, Scope.expand, ht.value (by decide)]
    exact hexpand ▸ h.compiler
  · exact (ht _ (by decide)).trans h.undefined.2
  · rw [ht.value (by decide)]
    exact h.directories.2

/-- A caller that makes a library. -/
def nativeScope : Scope :=
  ((Scope.empty.assign "CMAKE_CURRENT_SOURCE_DIR" "/src").assign "CMAKE_CURRENT_BINARY_DIR"
    "/build").assign "ZCC_BC" "zcc"

end Zscript

end Supercell
