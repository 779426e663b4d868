import Supercell.CMake.Recipes
import Supercell.Zscript.Isolation
import Supercell.Zscript.Pipelines
import Mathlib.Data.List.Perm.Basic

/-!
# Building the scripts again

The three rules that a call of `ZS_2_NATIVE_CODE` registers for its scripts are
one chain: `zcc` makes bitcode of them, `opt` takes it over, and `llc` or
`zillians-llc` makes the source that is compiled. Each one removes its output
first, so nothing of an earlier build gets into the next one. For all calls of a
directory, however often files are edited and built in between, the generated
sources are those of a build from scratch. The programs of LLVM are the
exception: no rule declares them.
-/

namespace Supercell

namespace Zscript

open CMake CMake.Scope Options Builds

variable {Content : Type*} {p : Programs Content} {dir : String} {s t : Scope}
  {evalIf : Scope → List String → Except Stop Bool} {argn old : List String}
  {calls : List (List String)}

/-! ## The rules of one call -/

/-- The compiler of the last stage. -/
def lastCompiler (s : Scope) (argn : List String) : String :=
  if asksGpu argn then s.value "EXECUTABLE_OUTPUT_PATH" ++ "/zillians-llc"
  else s.value "LLVM_BINDIR" ++ "/llc"

/-- A rule that removes a file and makes it anew. -/
def remaking (cmake o : String) (depends words : List String) : CustomCommand :=
  ⟨[o], depends, [[cmake, "-E", "remove", "-f", o], words]⟩

/-- The rule that compiles the scripts. -/
def bitcodeCommand (dir : String) (s : Scope) (argn : List String) : CustomCommand :=
  remaking (s.value "CMAKE_COMMAND") (targetPath s argn ++ ".all.bc")
    ((scriptsOf argn).map (absolutePath dir) ++ [s.value "ZCC_BC"])
    (s.value "ZCC_BC" :: (nativeArguments dir argn ++ ["-o", targetPath s argn ++ ".all.bc"]))

/-- The rule that would optimise the bitcode. -/
def optimisedCommand (s : Scope) (argn : List String) : CustomCommand :=
  remaking (s.value "CMAKE_COMMAND") (targetPath s argn ++ ".opt.bc")
    [targetPath s argn ++ ".all.bc"]
    [s.value "LLVM_BINDIR" ++ "/opt", "-disable-opt", "-f", targetPath s argn ++ ".all.bc", "-o",
      targetPath s argn ++ ".opt.bc"]

/-- The rule that makes the source. -/
def generatedCommand (s : Scope) (argn : List String) : CustomCommand :=
  remaking (s.value "CMAKE_COMMAND") (generated s argn)
    ((targetPath s argn ++ ".opt.bc") :: if asksGpu argn then ["zillians-llc"] else [])
    [lastCompiler s argn, targetPath s argn ++ ".opt.bc", "-o", generated s argn,
      if asksGpu argn then "-march=cu" else "-march=\"c\""]

/-- The chain of a call. -/
def scriptCommands (dir : String) (s : Scope) (argn : List String) : List CustomCommand :=
  [bitcodeCommand dir s argn, optimisedCommand s argn, generatedCommand s argn]

/-- The programs, as they are called. -/
def toolWords (s : Scope) : List String :=
  [s.value "ZCC_BC", s.value "LLVM_BINDIR" ++ "/opt", s.value "LLVM_BINDIR" ++ "/llc",
    s.value "EXECUTABLE_OUTPUT_PATH" ++ "/zillians-llc"]

/-- **The programs of a directory**: each is one word, none is CMake, and what
stands behind `-o` is what they write. A word with a slash is no target. -/
structure Compilers (p : Programs Content) (s : Scope) : Prop where
  zcc : Word (s.value "ZCC_BC")
  cmake : Word (s.value "CMAKE_COMMAND")
  llvm : literal (s.value "LLVM_BINDIR") = true
  output : literal (s.value "EXECUTABLE_OUTPUT_PATH") = true
  no_keyword : s.value "ZCC_BC" ∉ customKeywords ∧ s.value "CMAKE_COMMAND" ∉ customKeywords
  named : s.value "CMAKE_COMMAND" = p.cmake
  other : ∀ w ∈ toolWords s, w ≠ p.cmake
  writes : ∀ w ∈ toolWords s, ∀ before o after, "-o" ∉ before → "-o" ∉ after →
    p.target (w :: (before ++ "-o" :: o :: after)) = some o
  file : ∀ w, '/' ∈ w.toList → p.file w = w

/-- The files that are made for some calls. -/
def madeFiles (s : Scope) (calls : List (List String)) : List String :=
  calls.flatMap fun argn =>
    [targetPath s argn ++ ".all.bc", targetPath s argn ++ ".opt.bc", generated s argn]

/-- **Calls for different targets**, none of which is made of what is made for
another one. -/
structure Apart (p : Programs Content) (dir : String) (s : Scope) (calls : List (List String)) :
    Prop where
  names : calls.Pairwise fun a b => targetOf a ≠ targetOf b
  scripts : ∀ argn ∈ calls, ∀ f ∈ scriptsOf argn, absolutePath dir f ∉ madeFiles s calls
  options : ∀ argn ∈ calls, ∀ o ∈ given argn "ZCC_OPTIONS",
    o ∉ madeFiles s calls ∧ o ∉ customKeywords ∧ o ≠ "-o"
  tools : ∀ w ∈ p.cmake :: p.file (s.value "ZCC_BC") :: p.file "zillians-llc" :: toolWords s,
    w ∉ madeFiles s calls

/-- A path below a literal directory is one word, and no keyword. -/
theorem word_below {directory name : String} (hdirectory : literal directory = true)
    (hname : literal name = true) (hslash : '/' ∈ name.toList) :
    Word (directory ++ name) ∧ directory ++ name ∉ customKeywords := by
  refine ⟨(plain_of_literal (fun hempty => ?_) ?_).toWord, notMem_customKeywords (.inl ?_)⟩
  · rw [(String.append_eq_empty_iff.1 hempty).2] at hslash
    exact absurd hslash (by decide)
  · rw [literal_append, hdirectory, hname]
    rfl
  · rw [String.toList_append]
    exact List.mem_append_right _ hslash

/-- **The rule of one stage, section by section.** -/
theorem addCustomCommand_remaking {cmake o : String} {depends more words : List String}
    (ho : o ∉ customKeywords) (hcmake : cmake ∉ customKeywords)
    (hdepends : ∀ w ∈ depends, w ∉ customKeywords) (hmore : ∀ w ∈ more, w ∉ customKeywords)
    (hwords : ∀ w ∈ words, w ∉ customKeywords) :
    addCustomCommand ("OUTPUT" :: [o] ++ ("DEPENDS" :: depends ++ ("DEPENDS" :: more ++
      ("COMMAND" :: [cmake, "-E", "remove", "-f", o] ++ ("COMMAND" :: words ++ []))))) =
        remaking cmake o (depends ++ more) words := by
  have hremove : ∀ w ∈ [cmake, "-E", "remove", "-f", o], w ∉ customKeywords := by
    simp only [List.forall_mem_cons]
    exact ⟨hcmake, by decide, by decide, by decide, ho, List.forall_mem_nil _⟩
  rw [addCustomCommand, readCustomCommand_output (by simpa using ho),
    readCustomCommand_depends hdepends, readCustomCommand_depends hmore,
    readCustomCommand_command hremove, readCustomCommand_command hwords, readCustomCommand]
  rfl

/-- The rule of one stage, with all that it depends on in one section. -/
theorem addCustomCommand_remaking' {cmake o : String} {depends words : List String}
    (ho : o ∉ customKeywords) (hcmake : cmake ∉ customKeywords)
    (hdepends : ∀ w ∈ depends, w ∉ customKeywords) (hwords : ∀ w ∈ words, w ∉ customKeywords) :
    addCustomCommand ("OUTPUT" :: [o] ++ ("DEPENDS" :: depends ++
      ("COMMAND" :: [cmake, "-E", "remove", "-f", o] ++ ("COMMAND" :: words ++ [])))) =
        remaking cmake o depends words := by
  have hremove : ∀ w ∈ [cmake, "-E", "remove", "-f", o], w ∉ customKeywords := by
    simp only [List.forall_mem_cons]
    exact ⟨hcmake, by decide, by decide, by decide, ho, List.forall_mem_nil _⟩
  rw [addCustomCommand, readCustomCommand_output (by simpa using ho),
    readCustomCommand_depends hdepends,
    readCustomCommand_command hremove, readCustomCommand_command hwords, readCustomCommand]
  rfl

/-- A file of a target is no keyword. -/
theorem targetPath_notMem (s : Scope) (argn : List String) (ext : String) :
    targetPath s argn ++ ext ∉ customKeywords := by
  refine notMem_customKeywords (.inl ?_)
  simp [targetPath]

theorem generated_notMem (s : Scope) (argn : List String) :
    generated s argn ∉ customKeywords := targetPath_notMem s argn _

/-- **What a call registers for its scripts.** -/
theorem optRules_eq (hs : NativeScope dir s) (h : NativeArgs argn) (htools : Compilers p s)
    (hoptions : ∀ o ∈ given argn "ZCC_OPTIONS", o ∉ customKeywords) :
    optRules (asksGpu argn) (ruleScope dir s argn) =
      [.custom (generatedCommand s argn), .custom (bitcodeCommand dir s argn),
        .custom (optimisedCommand s argn)] := by
  have htool : ∀ x ∈ toolVariables, (ruleScope dir s argn).expand x = s.expand x := by
    intro x hx
    rw [Scope.expand, Scope.expand, ruleScope_tool dir s argn x hx]
  have hzcc : s.expand "ZCC_BC" = [s.value "ZCC_BC"] := expand_of_value_eq rfl htools.zcc
  have hcmake : s.expand "CMAKE_COMMAND" = [s.value "CMAKE_COMMAND"] :=
    expand_of_value_eq rfl htools.cmake
  have hpath : ∀ e ∈ pathExtensions,
      (ruleScope dir s argn).expand e.1 = [targetPath s argn ++ e.2] := by
    intro e he
    have hliteral : ∀ q ∈ pathExtensions, literal q.2 = true := by decide
    exact expand_of_value_eq (ruleScope_path dir s argn e he)
      (plain_targetPath hs h (hliteral e he)).toWord
  have hcommand : (ruleScope dir s argn).expand "CMAKE_COMMAND" = [s.value "CMAKE_COMMAND"] :=
    (htool _ (by decide)).trans hcmake
  have hbitcode : allBcRule (ruleScope dir s argn) = .custom (bitcodeCommand dir s argn) := by
    have hfiles : ∀ w ∈ (scriptsOf argn).map (absolutePath dir), w ∉ customKeywords := by
      intro w hw
      obtain ⟨f, -, rfl⟩ := List.mem_map.1 hw
      obtain ⟨cs, hcs⟩ := exists_absolutePath_eq dir f
      exact notMem_customKeywords (.inl (by rw [hcs]; exact List.mem_cons_self))
    rw [allBcRule_ruleScope hs h, hzcc, hcmake]
    refine congrArg BuildRule.custom (addCustomCommand_remaking (targetPath_notMem s argn _)
      htools.no_keyword.2 hfiles (by simpa using htools.no_keyword.1) ?_)
    simp only [List.cons_append, List.nil_append, nativeArguments, List.forall_mem_append,
      List.forall_mem_cons]
    refine ⟨htools.no_keyword.1, ⟨⟨hoptions, by decide, ?_, List.forall_mem_nil _⟩, hfiles⟩,
      by decide, targetPath_notMem s argn _, List.forall_mem_nil _⟩
    rw [archWord]
    split <;> decide
  have hopt : optBcRule (ruleScope dir s argn) = .custom (optimisedCommand s argn) := by
    obtain ⟨hword, hkeyword⟩ := @word_below _ "/opt" htools.llvm (by decide) (by decide)
    rw [optBcRule, removeCommand, hcommand, ruleScope_tool dir s argn _ (by decide),
      hpath ("_output_OPT_BC", ".opt.bc") (by decide),
      hpath ("_output_ALL_BC", ".all.bc") (by decide), pieces_word hword]
    have hwords : ∀ w ∈ [s.value "LLVM_BINDIR" ++ "/opt", "-disable-opt", "-f",
        targetPath s argn ++ ".all.bc", "-o", targetPath s argn ++ ".opt.bc"],
        w ∉ customKeywords := by
      simp only [List.forall_mem_cons]
      exact ⟨hkeyword, by decide, by decide, targetPath_notMem s argn _, by decide,
        targetPath_notMem s argn _, List.forall_mem_nil _⟩
    have hdepends : ∀ w ∈ [targetPath s argn ++ ".all.bc"], w ∉ customKeywords := by
      simpa using targetPath_notMem s argn ".all.bc"
    rw [optimisedCommand, ← addCustomCommand_remaking' (targetPath_notMem s argn ".opt.bc")
      htools.no_keyword.2 hdepends hwords]
    simp
  rw [optRules, hbitcode, hopt]
  congr 1
  -- the last stage differs by the architecture
  have hopt' : ∀ w ∈ [targetPath s argn ++ ".opt.bc"], w ∉ customKeywords := by
    simpa using targetPath_notMem s argn ".opt.bc"
  have hline : ∀ compiler march, compiler ∉ customKeywords → march ∉ customKeywords →
      ∀ w ∈ [compiler, targetPath s argn ++ ".opt.bc", "-o", generated s argn, march],
        w ∉ customKeywords := by
    intro compiler march hcompiler hmarch
    simp only [List.forall_mem_cons]
    exact ⟨hcompiler, targetPath_notMem s argn _, by decide, generated_notMem s argn, hmarch,
      List.forall_mem_nil _⟩
  unfold generatedCommand lastCompiler
  cases hask : asksGpu argn with
  | true =>
    obtain ⟨hword, hkeyword⟩ := @word_below _ "/zillians-llc" htools.output (by decide) (by decide)
    have hgenerated : generated s argn = targetPath s argn ++ ".zsall.cu" := by
      rw [generated, if_pos hask]
    have hdepends : ∀ w ∈ [targetPath s argn ++ ".opt.bc", "zillians-llc"],
        w ∉ customKeywords := by
      simp only [List.forall_mem_cons]
      exact ⟨targetPath_notMem s argn _, by decide, List.forall_mem_nil _⟩
    rw [if_pos rfl, if_pos rfl, if_pos rfl, if_pos rfl, allCuRule, removeCommand, hcommand,
      ruleScope_tool dir s argn _ (by decide), hpath ("_all_CU", ".zsall.cu") (by decide),
      hpath ("_output_OPT_BC", ".opt.bc") (by decide), pieces_word hword,
      ← addCustomCommand_remaking' (generated_notMem s argn) htools.no_keyword.2 hdepends
        (hline _ _ hkeyword (by decide)), hgenerated]
    simp
  | false =>
    obtain ⟨hword, hkeyword⟩ := @word_below _ "/llc" htools.llvm (by decide) (by decide)
    have hgenerated : generated s argn = targetPath s argn ++ ".zsall.c" := by
      rw [generated, hask, if_neg Bool.false_ne_true]
    rw [if_neg Bool.false_ne_true, if_neg Bool.false_ne_true, if_neg Bool.false_ne_true,
      if_neg Bool.false_ne_true, allCRule, removeCommand, hcommand,
      ruleScope_tool dir s argn _ (by decide), hpath ("_all_C", ".zsall.c") (by decide),
      hpath ("_output_OPT_BC", ".opt.bc") (by decide), pieces_word hword,
      ← addCustomCommand_remaking' (generated_notMem s argn) htools.no_keyword.2 hopt'
        (hline _ _ hkeyword (by decide)), hgenerated]
    simp

/-! ## The rules of a directory -/

theorem customCommands_append (rules rules' : List BuildRule) :
    customCommands (rules ++ rules') = customCommands rules ++ customCommands rules' :=
  List.filterMap_append

/-- Modules are no custom commands. -/
theorem customCommands_module (cuda : Bool) (type target : String) (files sources : List String) :
    customCommands [moduleRule type target sources] = [] ∧
      customCommands (gpuRules cuda type target files) = [] := by
  have hmodule : ∀ sources, customCommands [moduleRule type target sources] = [] := by
    intro sources
    unfold moduleRule
    split <;> rfl
  refine ⟨hmodule sources, ?_⟩
  have hrest : gpuRules cuda type target files =
      (if cuda then [.ptx (cudaFiles files), .cudaLibrary [target ++ "-cuda"] (cudaFiles files)]
        else []) ++ ([moduleRule type target (cppFiles files)] ++
          [.link [target] [target ++ "-cuda"]]) := rfl
  rw [hrest, customCommands_append, customCommands_append, hmodule]
  cases cuda <;> rfl

/-- **The custom commands of a call** are its chain, whatever it finds. -/
theorem customCommands_registered (hs : NativeScope dir s) (h : NativeArgs argn)
    (htools : Compilers p s) (hoptions : ∀ o ∈ given argn "ZCC_OPTIONS", o ∉ customKeywords)
    (ht : AgreesOff nativeWritten s t) :
    customCommands (registered dir t argn old) = [generatedCommand s argn,
      bitcodeCommand dir s argn, optimisedCommand s argn] := by
  rw [registered, customCommands_append, optRules_of_agreesOff ht, optRules_eq hs h htools hoptions]
  split
  · rw [(customCommands_module _ _ _ _ []).2, List.append_nil]
    rfl
  · rw [(customCommands_module false _ _ [] _).1, List.append_nil]
    rfl

/-- **The custom commands of a run** are the chains of its calls. -/
theorem runCalls_commands (evalIf : Scope → List String → Except Stop Bool)
    (hs : NativeScope dir s) (htools : Compilers p s) (hcalls : ∀ argn ∈ calls, NativeArgs argn)
    (hoptions : ∀ argn ∈ calls, ∀ o ∈ given argn "ZCC_OPTIONS", o ∉ customKeywords)
    (ht : AgreesOff nativeWritten s t) (hold : t.Holds "__zs_all_file" old)
    (hflag : t "ZCC_ARCH_GPU" = none ∨ t "ZCC_ARCH_GPU" = some "1") :
    Returns (runCalls dir evalIf t calls) fun registrations =>
      customCommands registrations.flatten = calls.flatMap fun argn =>
        [generatedCommand s argn, bitcodeCommand dir s argn, optimisedCommand s argn] := by
  induction calls generalizing t old with
  | nil => exact Returns.ok rfl
  | cons argn calls ih =>
    have h := hcalls argn List.mem_cons_self
    obtain ⟨⟨u, rules⟩, hu, hdone⟩ := zs2NativeCode_returns (hs.later ht) h hold (.inr hflag)
    have hrules : rules = registered dir t argn old := hdone.rules
    have hflag' : u "ZCC_ARCH_GPU" = none ∨ u "ZCC_ARCH_GPU" = some "1" := by
      rw [show u "ZCC_ARCH_GPU" = _ from hdone.flag]
      split
      · exact .inr rfl
      · exact hflag
    obtain ⟨registrations, hrun, hcommands⟩ := ih
      (fun a ha => hcalls a (List.mem_cons_of_mem argn ha))
      (fun a ha => hoptions a (List.mem_cons_of_mem argn ha)) (ht.trans hdone.frame) hdone.all hflag'
    refine ⟨rules :: registrations, ?_, ?_⟩
    · rw [runCalls, hu, ok_bind]
      dsimp only
      rw [hrun, ok_bind, pure_eq_ok]
    · dsimp only
      rw [List.flatten_cons, customCommands_append, hcommands, hrules, List.flatMap_cons,
        customCommands_registered hs h htools (hoptions argn List.mem_cons_self) ht]

/-! ## Files of different targets -/

/-- The extensions of what is made for a target. -/
def madeExtensions : List String := [".all.bc", ".opt.bc", ".zsall.cu", ".zsall.c"]

/-- **Different files of targets have different names**: no extension ends
another one. -/
theorem targetPath_injective {argn' : List String} {e e' : String} (he : e ∈ madeExtensions)
    (he' : e' ∈ madeExtensions) (h : targetPath s argn ++ e = targetPath s argn' ++ e') :
    e = e' ∧ targetOf argn = targetOf argn' := by
  have hsuffix : e.toList <:+ e'.toList ∨ e'.toList <:+ e.toList := by
    have hpath : e.toList <:+ (targetPath s argn ++ e).toList := by
      rw [String.toList_append]
      exact List.suffix_append _ _
    refine List.suffix_or_suffix_of_suffix hpath ?_
    rw [h, String.toList_append]
    exact List.suffix_append _ _
  have hends : ∀ a ∈ madeExtensions, ∀ b ∈ madeExtensions, a.toList <:+ b.toList → a = b := by
    decide
  obtain rfl : e = e' := by
    rcases hsuffix with hsuffix | hsuffix
    · exact hends e he e' he' hsuffix
    · exact (hends e' he' e he hsuffix).symm
  refine ⟨rfl, ?_⟩
  rw [targetPath, targetPath] at h
  exact (String.append_right_inj _).1 ((String.append_left_inj _).1 h)

theorem exists_generated_eq (s : Scope) (argn : List String) :
    ∃ e ∈ madeExtensions, generated s argn = targetPath s argn ++ e ∧ e ≠ ".all.bc" ∧
      e ≠ ".opt.bc" := by
  cases hask : asksGpu argn with
  | true => exact ⟨".zsall.cu", by decide, by rw [generated, if_pos hask], by decide, by decide⟩
  | false =>
    exact ⟨".zsall.c", by decide, by rw [generated, hask, if_neg Bool.false_ne_true], by decide,
      by decide⟩

theorem mem_madeFiles {f : String} : f ∈ madeFiles s calls ↔
    ∃ argn ∈ calls, f = targetPath s argn ++ ".all.bc" ∨ f = targetPath s argn ++ ".opt.bc" ∨
      f = generated s argn := by
  unfold madeFiles
  rw [List.mem_flatMap]
  simp only [List.mem_cons, List.not_mem_nil, or_false]

/-- A file that is made is a path. -/
theorem slash_of_mem_madeFiles {f : String} (h : f ∈ madeFiles s calls) : '/' ∈ f.toList := by
  obtain ⟨argn, -, rfl | rfl | rfl⟩ := mem_madeFiles.1 h
  · simp [targetPath]
  · simp [targetPath]
  · simp [generated, targetPath]

/-- A command of a chain makes one file of the target. -/
theorem outputs_of_mem {c : CustomCommand} (hc : c ∈ scriptCommands dir s argn) :
    ∃ e ∈ madeExtensions, c.outputs = [targetPath s argn ++ e] := by
  simp only [scriptCommands, List.mem_cons, List.not_mem_nil, or_false] at hc
  obtain ⟨e, he, hgenerated, -, -⟩ := exists_generated_eq s argn
  rcases hc with rfl | rfl | rfl
  · exact ⟨".all.bc", by decide, rfl⟩
  · exact ⟨".opt.bc", by decide, rfl⟩
  · refine ⟨e, he, ?_⟩
    rw [← hgenerated]
    rfl

theorem mem_madeFiles_of_mem {c : CustomCommand} (hargn : argn ∈ calls)
    (hc : c ∈ scriptCommands dir s argn) : ∀ o ∈ c.outputs, o ∈ madeFiles s calls := by
  intro o ho
  refine mem_madeFiles.2 ⟨argn, hargn, ?_⟩
  simp only [scriptCommands, List.mem_cons, List.not_mem_nil, or_false] at hc
  rcases hc with rfl | rfl | rfl
  · exact .inl (List.mem_singleton.1 ho)
  · exact .inr (.inl (List.mem_singleton.1 ho))
  · exact .inr (.inr (List.mem_singleton.1 ho))

/-! ## The chains fit together -/

/-- **A chain remakes its files.** -/
theorem remakes_of_mem (htools : Compilers p s)
    (hoptions : ∀ o ∈ given argn "ZCC_OPTIONS", o ≠ "-o") {c : CustomCommand}
    (hc : c ∈ scriptCommands dir s argn) : ∃ o words, Remakes p c o words := by
  have hpath : ∀ ext, "-o" ≠ targetPath s argn ++ ext := by
    intro ext heq
    have hslash : '/' ∈ (targetPath s argn ++ ext).toList := by simp [targetPath]
    rw [← heq] at hslash
    exact absurd hslash (by decide)
  have hremakes : ∀ {w o : String} {depends : List String} (before after : List String),
      w ∈ toolWords s → "-o" ∉ before → "-o" ∉ after →
        Remakes p (remaking (s.value "CMAKE_COMMAND") o depends
          (w :: (before ++ "-o" :: o :: after))) o (w :: (before ++ "-o" :: o :: after)) := by
    intro w o depends before after hw hbefore hafter
    refine ⟨rfl, by rw [← htools.named]; rfl, fun x hx => ?_,
      htools.writes w hw before o after hbefore hafter⟩
    obtain rfl := Option.some.inj hx
    exact htools.other w hw
  have hlast : lastCompiler s argn ∈ toolWords s := by
    unfold lastCompiler
    split <;> simp [toolWords]
  simp only [scriptCommands, List.mem_cons, List.not_mem_nil, or_false] at hc
  rcases hc with rfl | rfl | rfl
  · refine ⟨_, _, hremakes _ _ (by simp [toolWords]) ?_ List.not_mem_nil⟩
    simp only [nativeArguments, List.mem_append, List.mem_cons, List.not_mem_nil, or_false, not_or]
    refine ⟨⟨fun h => hoptions _ h rfl, by decide, ?_⟩, fun h => ?_⟩
    · rw [archWord]
      split <;> decide
    · obtain ⟨f, -, hf⟩ := List.mem_map.1 h
      obtain ⟨cs, hcs⟩ := exists_absolutePath_eq dir f
      rw [hf] at hcs
      exact absurd (congrArg List.head? hcs) (by simp)
  · refine ⟨_, _, hremakes ["-disable-opt", "-f", targetPath s argn ++ ".all.bc"] _
      (by simp [toolWords]) ?_ List.not_mem_nil⟩
    simp only [List.mem_cons, List.not_mem_nil, or_false, not_or]
    exact ⟨by decide, by decide, hpath _⟩
  · refine ⟨_, _, hremakes [targetPath s argn ++ ".opt.bc"] _ hlast ?_ ?_⟩
    · simpa using hpath _
    · split <;> decide

/-- **What a chain is made of**: files that no chain makes, and the file of the
stage before. -/
theorem depends_of_mem (htools : Compilers p s) (hapart : Apart p dir s calls)
    (hargn : argn ∈ calls) {c : CustomCommand} (hc : c ∈ scriptCommands dir s argn) {i : String}
    (hi : i ∈ c.depends.map p.file) : i ∉ madeFiles s calls ∨
      c = optimisedCommand s argn ∧ i = targetPath s argn ++ ".all.bc" ∨
      c = generatedCommand s argn ∧ i = targetPath s argn ++ ".opt.bc" := by
  have hfile : ∀ ext, p.file (targetPath s argn ++ ext) = targetPath s argn ++ ext := fun ext =>
    htools.file _ (by simp [targetPath])
  obtain ⟨w, hw, rfl⟩ := List.mem_map.1 hi
  simp only [scriptCommands, List.mem_cons, List.not_mem_nil, or_false] at hc
  rcases hc with rfl | rfl | rfl
  · refine .inl ?_
    simp only [bitcodeCommand, remaking, List.mem_append, List.mem_singleton] at hw
    rcases hw with hw | rfl
    · obtain ⟨f, hf, rfl⟩ := List.mem_map.1 hw
      obtain ⟨cs, hcs⟩ := exists_absolutePath_eq dir f
      rw [htools.file _ (by rw [hcs]; exact List.mem_cons_self)]
      exact hapart.scripts argn hargn f hf
    · exact hapart.tools _ (by simp)
  · simp only [optimisedCommand, remaking, List.mem_singleton] at hw
    subst hw
    exact .inr (.inl ⟨rfl, hfile _⟩)
  · simp only [generatedCommand, remaking, List.mem_cons] at hw
    rcases hw with rfl | hw
    · exact .inr (.inr ⟨rfl, hfile _⟩)
    · refine .inl ?_
      split at hw
      · obtain rfl := List.mem_singleton.1 hw
        exact hapart.tools _ (by simp)
      · exact absurd hw List.not_mem_nil

/-- **No chain makes what another one reads without declaring it.** -/
theorem undeclared_of_mem (htools : Compilers p s) (hapart : Apart p dir s calls)
    (hargn : argn ∈ calls) {c : CustomCommand} (hc : c ∈ scriptCommands dir s argn) {w : String}
    (hw : w ∈ c.undeclared p) : w ∉ madeFiles s calls := by
  have hfile : ∀ ext, p.file (targetPath s argn ++ ext) = targetPath s argn ++ ext := fun ext =>
    htools.file _ (by simp [targetPath])
  have htool : ∀ x ∈ s.value "CMAKE_COMMAND" :: toolWords s, x ∉ madeFiles s calls := by
    intro x hx
    refine hapart.tools x ?_
    rw [htools.named] at hx
    rcases List.mem_cons.1 hx with rfl | hx
    · exact List.mem_cons_self
    · exact List.mem_cons_of_mem _ (List.mem_cons_of_mem _ (List.mem_cons_of_mem _ hx))
  have hplain : ∀ x : String, '/' ∉ x.toList → x ∉ madeFiles s calls := fun x hx hmem =>
    hx (slash_of_mem_madeFiles hmem)
  have hlast : lastCompiler s argn ∈ toolWords s := by
    unfold lastCompiler
    split <;> simp [toolWords]
  rw [CustomCommand.undeclared, List.mem_filter, decide_eq_true_eq] at hw
  obtain ⟨hw, hdepends, hout⟩ := hw
  simp only [scriptCommands, List.mem_cons, List.not_mem_nil, or_false] at hc
  rcases hc with rfl | rfl | rfl
  · simp only [bitcodeCommand, remaking, nativeArguments, List.flatten_cons, List.flatten_nil,
      List.mem_append, List.mem_cons, List.not_mem_nil, or_false] at hw hout hdepends
    rcases hw with (rfl | rfl | rfl | rfl | rfl) | rfl | ((hw | rfl | rfl) | hw) | rfl | rfl
    · exact htool _ List.mem_cons_self
    · exact hplain _ (by decide)
    · exact hplain _ (by decide)
    · exact hplain _ (by decide)
    · exact absurd rfl hout
    · exact htool _ (by simp [toolWords])
    · exact (hapart.options argn hargn w hw).1
    · exact hplain _ (by decide)
    · refine hplain _ ?_
      rw [archWord]
      split <;> decide
    · obtain ⟨f, hf, rfl⟩ := List.mem_map.1 hw
      exact hapart.scripts argn hargn f hf
    · exact hplain _ (by decide)
    · exact absurd rfl hout
  · simp only [optimisedCommand, remaking, List.flatten_cons, List.flatten_nil, List.map_cons,
      List.map_nil, hfile, List.mem_append, List.mem_cons, List.not_mem_nil, or_false]
      at hw hout hdepends
    rcases hw with (rfl | rfl | rfl | rfl | rfl) | rfl | rfl | rfl | rfl | rfl | rfl
    · exact htool _ List.mem_cons_self
    · exact hplain _ (by decide)
    · exact hplain _ (by decide)
    · exact hplain _ (by decide)
    · exact absurd rfl hout
    · exact htool _ (by simp [toolWords])
    · exact hplain _ (by decide)
    · exact hplain _ (by decide)
    · exact absurd rfl hdepends
    · exact hplain _ (by decide)
    · exact absurd rfl hout
  · simp only [generatedCommand, remaking, List.flatten_cons, List.flatten_nil, List.map_cons,
      hfile, List.mem_append, List.mem_cons, List.not_mem_nil, or_false] at hw hout hdepends
    rcases hw with (rfl | rfl | rfl | rfl | rfl) | rfl | rfl | rfl | rfl | rfl
    · exact htool _ List.mem_cons_self
    · exact hplain _ (by decide)
    · exact hplain _ (by decide)
    · exact hplain _ (by decide)
    · exact absurd rfl hout
    · exact htool _ (List.mem_cons_of_mem _ hlast)
    · exact absurd (Or.inl rfl) hdepends
    · exact hplain _ (by decide)
    · exact absurd rfl hout
    · refine hplain _ ?_
      split <;> decide

/-- **One stage needs the one before it**, of its own target. -/
theorem needs_of_mem {a b : List String} (htools : Compilers p s) (hapart : Apart p dir s calls)
    (ha : a ∈ calls) (hb : b ∈ calls) {c c' : CustomCommand} (hc : c ∈ scriptCommands dir s a)
    (hc' : c' ∈ scriptCommands dir s b) {o : String} (ho : o ∈ c'.outputs)
    (hi : o ∈ c.depends.map p.file) : targetOf a = targetOf b ∧
      (c = optimisedCommand s a ∧ c'.outputs = [targetPath s b ++ ".all.bc"] ∨
        c = generatedCommand s a ∧ c'.outputs = [targetPath s b ++ ".opt.bc"]) := by
  obtain ⟨e, he, hout⟩ := outputs_of_mem hc'
  have hmade := mem_madeFiles_of_mem hb hc' o ho
  rw [hout] at ho ⊢
  obtain rfl := List.mem_singleton.1 ho
  rcases depends_of_mem htools hapart ha hc hi with hnot | ⟨rfl, heq⟩ | ⟨rfl, heq⟩
  · exact absurd hmade hnot
  · obtain ⟨rfl, hname⟩ := targetPath_injective he (by decide) heq
    exact ⟨hname.symm, .inl ⟨rfl, rfl⟩⟩
  · obtain ⟨rfl, hname⟩ := targetPath_injective he (by decide) heq
    exact ⟨hname.symm, .inr ⟨rfl, rfl⟩⟩

/-- The stages of a chain make different files. -/
theorem stages_ne (s : Scope) (argn : List String) :
    targetPath s argn ++ ".all.bc" ≠ targetPath s argn ++ ".opt.bc" ∧
      targetPath s argn ++ ".all.bc" ≠ generated s argn ∧
      targetPath s argn ++ ".opt.bc" ≠ generated s argn := by
  obtain ⟨e, he, hgenerated, hall, hopt⟩ := exists_generated_eq s argn
  rw [hgenerated]
  refine ⟨fun heq => ?_, fun heq => ?_, fun heq => ?_⟩
  · exact absurd (targetPath_injective (by decide) (by decide) heq).1 (by decide)
  · exact hall (targetPath_injective (by decide) he heq).1.symm
  · exact hopt (targetPath_injective (by decide) he heq).1.symm

/-- **The chains of a directory fit together**, one behind the other. -/
theorem arranged_scriptCommands [Inhabited Content] (htools : Compilers p s)
    (hapart : Apart p dir s calls) :
    Arranged ((calls.flatMap (scriptCommands dir s)).map fun c => c.toRule p) := by
  refine arranged_of_remakes (fun c hc => ?_) ?_ ?_ fun c hc o ho hi => ?_
  · obtain ⟨argn, hargn, hc⟩ := List.mem_flatMap.1 hc
    exact remakes_of_mem htools (fun o ho => (hapart.options argn hargn o ho).2.2) hc
  · refine List.pairwise_flatMap.2 ⟨fun argn _ => ?_, ?_⟩
    · obtain ⟨hallopt, hallgen, hoptgen⟩ := stages_ne s argn
      simp only [scriptCommands, bitcodeCommand, optimisedCommand, generatedCommand, remaking,
        List.pairwise_cons, List.mem_cons, List.not_mem_nil, or_false, forall_eq_or_imp, forall_eq]
      exact ⟨⟨hallopt, hallgen⟩, hoptgen, fun _ => False.elim, List.Pairwise.nil⟩
    · refine hapart.names.imp fun {a b} hne c hc c' hc' o ho ho' => ?_
      obtain ⟨e, he, hout⟩ := outputs_of_mem hc
      obtain ⟨e', he', hout'⟩ := outputs_of_mem hc'
      rw [hout, List.mem_singleton] at ho
      rw [hout', List.mem_singleton] at ho'
      exact hne (targetPath_injective he he' (ho.symm.trans ho')).2
  · refine List.pairwise_flatMap.2 ⟨fun argn hargn => ?_, ?_⟩
    · obtain ⟨hallopt, hallgen, hoptgen⟩ := stages_ne s argn
      have hlater : ∀ c ∈ scriptCommands dir s argn, ∀ c' ∈ scriptCommands dir s argn,
          ¬ (c = optimisedCommand s argn ∧ c'.outputs = [targetPath s argn ++ ".all.bc"] ∨
            c = generatedCommand s argn ∧ c'.outputs = [targetPath s argn ++ ".opt.bc"]) →
          ∀ o ∈ c'.outputs, o ∉ c.depends.map p.file :=
        fun c hc c' hc' hnot o ho hi => hnot (needs_of_mem htools hapart hargn hargn hc hc' ho hi).2
      have hne : bitcodeCommand dir s argn ≠ optimisedCommand s argn ∧
          bitcodeCommand dir s argn ≠ generatedCommand s argn ∧
          optimisedCommand s argn ≠ generatedCommand s argn :=
        ⟨fun h => hallopt (List.singleton_inj.1 (congrArg CustomCommand.outputs h)),
          fun h => hallgen (List.singleton_inj.1 (congrArg CustomCommand.outputs h)),
          fun h => hoptgen (List.singleton_inj.1 (congrArg CustomCommand.outputs h))⟩
      rw [scriptCommands, List.pairwise_cons, List.pairwise_cons]
      refine ⟨fun c' hc' => ?_, fun c' hc' => ?_, List.pairwise_singleton _ _⟩
      · refine hlater _ List.mem_cons_self c' (List.mem_cons_of_mem _ hc') ?_
        rintro (⟨h, -⟩ | ⟨h, -⟩)
        · exact hne.1 h
        · exact hne.2.1 h
      · obtain rfl := List.mem_singleton.1 hc'
        refine hlater _ (by simp [scriptCommands]) _ (by simp [scriptCommands]) ?_
        rintro (⟨-, h⟩ | ⟨h, -⟩)
        · exact hallgen (List.singleton_inj.1 h).symm
        · exact hne.2.2 h
    · refine hapart.names.imp_of_mem fun {a b} ha hb hne c hc c' hc' o ho hi => ?_
      exact hne (needs_of_mem htools hapart ha hb hc hc' ho hi).1
  · obtain ⟨argn, hargn, hc⟩ := List.mem_flatMap.1 hc
    obtain ⟨hallopt, hallgen, hoptgen⟩ := stages_ne s argn
    rcases (needs_of_mem htools hapart hargn hargn hc hc ho hi).2 with ⟨rfl, h⟩ | ⟨rfl, h⟩
    · exact hallopt (List.singleton_inj.1 h).symm
    · exact hoptgen (List.singleton_inj.1 h).symm

/-- **Builds of scripts are incremental.** What the calls of a directory register
for their scripts are chains that fit together in one order. However files are
edited and built, a build leaves in the generated sources what a build from
scratch makes of the scripts that are there. -/
theorem runCalls_incremental [Inhabited Content]
    (evalIf : Scope → List String → Except Stop Bool) (hp : p.Documented) (hs : NativeScope dir s)
    (hfresh : Fresh s) (hcalls : ∀ argn ∈ calls, NativeArgs argn) (htools : Compilers p s)
    (hapart : Apart p dir s calls) :
    Returns (runCalls dir evalIf s calls) fun registrations =>
      (customCommands registrations.flatten).Perm (calls.flatMap (scriptCommands dir s)) ∧
        Arranged ((calls.flatMap (scriptCommands dir s)).map fun c => c.toRule p) ∧
        Incremental p (customCommands registrations.flatten) := by
  have hrun := runCalls_commands evalIf hs htools hcalls
    (fun argn hargn o ho => (hapart.options argn hargn o ho).2.1) (AgreesOff.refl _ s)
    (Holds.of_eq_none hfresh.all) (.inl hfresh.gpu)
  refine hrun.mono fun registrations hregistrations => ?_
  have hperm : (customCommands registrations.flatten).Perm
      (calls.flatMap (scriptCommands dir s)) := by
    rw [hregistrations]
    refine List.Perm.flatMap_left calls fun argn _ => ?_
    exact @List.perm_append_comm _ [generatedCommand s argn]
      [bitcodeCommand dir s argn, optimisedCommand s argn]
  have hmem : ∀ c ∈ customCommands registrations.flatten, ∃ argn ∈ calls,
      c ∈ scriptCommands dir s argn := fun c hc =>
    List.mem_flatMap.1 (hperm.mem_iff.1 hc)
  refine ⟨hperm, arranged_scriptCommands htools hapart, incremental_of_remakes hp (fun c hc => ?_)
    fun c hc w hw c' hc' hout => ?_⟩
  · obtain ⟨argn, hargn, hc⟩ := hmem c hc
    exact remakes_of_mem htools (fun o ho => (hapart.options argn hargn o ho).2.2) hc
  · obtain ⟨a, ha, hca⟩ := hmem c hc
    obtain ⟨b, hb, hcb⟩ := hmem c' hc'
    exact undeclared_of_mem htools hapart ha hca hw (mem_madeFiles_of_mem hb hcb w hout)

/-- A directory with the programs of LLVM. -/
def scriptScope : Scope :=
  (serverScope.assign "LLVM_BINDIR" "/llvm/bin").assign "EXECUTABLE_OUTPUT_PATH" "/build/bin"

theorem nativeScope_scriptScope : NativeScope "/src" scriptScope := by
  have hagree : AgreesOff ["LLVM_BINDIR", "EXECUTABLE_OUTPUT_PATH"] serverScope scriptScope :=
    ((AgreesOff.refl _ _).assign (by decide) _).assign (by decide) _
  exact nativeScope_serverScope.agreesOff hagree (by decide)

/-- Programs that write down what they are given: their command line, and the
contents of the files on it. -/
def tracing : Programs (List String) where
  cmake := "cmake"
  file w := if w = "zillians-llc" then "/build/bin/zillians-llc" else w
  target words := ((words.tail.dropWhile (· != "-o")).tail).head?
  output words d := words ++ words.flatMap fun w => (d w).getD []

theorem documented_tracing : tracing.Documented := by
  refine ⟨fun line d d' h => ?_⟩
  have hflat : (line.flatMap fun w => (d w).getD []) = line.flatMap fun w => (d' w).getD [] :=
    List.flatMap_congr fun w hw => by rw [h w hw]
  exact congrArg (line ++ ·) hflat

theorem compilers_tracing : Compilers tracing scriptScope := by
  refine ⟨by decide, by decide, by decide, by decide, by decide, by decide, by decide, ?_, ?_⟩
  · intro w _ before o after hbefore _
    have hdrop : (before ++ "-o" :: o :: after).dropWhile (· != "-o") = "-o" :: o :: after := by
      rw [List.dropWhile_append_of_pos fun b hb => by
        rw [bne_iff_ne]
        rintro rfl
        exact hbefore hb]
      rfl
    exact congrArg (fun words : List String => words.tail.head?) hdrop
  · intro w hw
    refine if_neg ?_
    rintro rfl
    exact absurd hw (by decide)

/-- Two targets of one directory. -/
def twoTargets : List (List String) :=
  ["TARGET_NAME" :: "game" :: gameScripts,
    ["TARGET_NAME", "tools", "ZS_SRC_FILES", "tools.zs", "ZCC_ARCH", "cpu"]]

theorem runCalls_incremental_twoTargets :
    Returns (runCalls "/src" refused scriptScope twoTargets) fun registrations =>
      (customCommands registrations.flatten).Perm
          (twoTargets.flatMap (scriptCommands "/src" scriptScope)) ∧
        Arranged ((twoTargets.flatMap (scriptCommands "/src" scriptScope)).map
          fun c => c.toRule tracing) ∧
        Incremental tracing (customCommands registrations.flatten) := by
  refine runCalls_incremental refused documented_tracing nativeScope_scriptScope
    ⟨by decide, by decide⟩ (fun argn hargn => ?_) compilers_tracing ?_
  · rw [twoTargets, List.mem_cons, List.mem_singleton] at hargn
    rcases hargn with rfl | rfl
    · exact nativeArgs_gameScripts
    · constructor <;> decide +kernel
  · constructor <;> decide +kernel

end Zscript

end Supercell
