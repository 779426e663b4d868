import Supercell.CMake.CustomCommand
import Supercell.CMake.Path
import Supercell.Options.Keywords

/-!
# The string table rule

`FindZilliansCompiler.cmake`: `ZS2WS_STUB_STRING_TABLE` registers a rule that
generates a table of string literals. The compiler writes it to a file of its
own choice, and the commands behind it copy and remove files by three branches.
A disk holds the texts of files, and what file a path stands for is left open,
so that two paths may stand for one.
-/

namespace Supercell

namespace Zscript

open CMake CMake.Scope Options Hashmap Sections

/-! ## The macro -/

def stubKeywords : List String := ["OUTPUT_PATH", "ZS_SRC_FILES", "ZS_API_FILES", "OUTPUT", "DEPENDS"]

/-- The options, and the variables they are read into. -/
def stubVariables : List (String × String) :=
  [("OUTPUT_PATH", "_target"), ("ZS_SRC_FILES", "__zs_src_files"),
    ("ZS_API_FILES", "__zs_api_files"), ("OUTPUT", "__output"), ("DEPENDS", "__depends")]

/-- The file that the compiler writes into a directory. -/
def defaultFile (directory : String) : String := directory ++ "/StringTableStub.zs"

/-- `COMMAND ${ZCC_WS} -t "directory" inputs`. -/
def generateTable (s : Scope) (directory : String) (inputs : List String) : List String :=
  "COMMAND" :: (s.expand "ZCC_WS" ++ ["-t", directory] ++ inputs)

/-- `COMMAND ${CMAKE_COMMAND} -E operation args`. -/
def fileCommand (s : Scope) (operation : String) (args : List String) : List String :=
  "COMMAND" :: (s.expand "CMAKE_COMMAND" ++ ["-E", operation] ++ args)

/-- `ADD_CUSTOM_COMMAND(args)`, which takes no rule without an output. -/
def addRule (args : List String) : Except Stop CustomCommand :=
  if (addCustomCommand args).outputs = [] then
    .error (.rejected "Wrong syntax. A TARGET or OUTPUT must be specified.")
  else .ok (addCustomCommand args)

/-- The rule that the branches of the macro choose. -/
def tableRule (s : Scope) (directory : String) : Except Stop CustomCommand := do
  let depends := s.expand "__depends"
  let inputs := s.expand "__zs_src_files" ++ s.expand "__zs_api_files"
  let output := s.expand "__output"
  let default := s.expand "__default_stringtable_file"
  if s.numGreater "__number_of_depends" "0" then
    let comment := s.value "__depends" ++ " ==> " ++ s.value "__output"
    if s.strequal (← Scope.subject (s.expand "__zs_out_file_name")) "StringTableStub.zs" then
      addRule ("OUTPUT" :: output ++ (generateTable s directory (depends ++ inputs) ++
        ("DEPENDS" :: (s.expand "ZCC_WS" ++ depends ++ inputs) ++
          (fileCommand s "remove" depends ++ ["COMMENT", comment]))))
    else
      addRule ("OUTPUT" :: output ++ (generateTable s directory (depends ++ inputs) ++
        (fileCommand s "copy" (default ++ output) ++ (fileCommand s "remove" default ++
          (fileCommand s "remove" depends ++
            ("DEPENDS" :: (s.expand "ZCC_WS" ++ depends ++ inputs) ++ ["COMMENT", comment]))))))
  else
    addRule ("OUTPUT" :: output ++ (generateTable s directory inputs ++
      (fileCommand s "copy" (default ++ output) ++ (fileCommand s "remove" default ++
        ("DEPENDS" :: (s.expand "ZCC_WS" ++ inputs) ++
          ["COMMENT", "==> " ++ s.value "__output"])))))

/-- **`ZS2WS_STUB_STRING_TABLE`**. The directory of the target is made when the
macro runs. -/
def zs2wsStubStringTable (s : Scope) (argn : List String) :
    Except Stop (Scope × List CustomCommand) := do
  let s ← parseOptions s stubKeywords argn
  let s ← getOptions s stubVariables
  let s := s.listLength "__depends" "__number_of_depends"
  let s ← s.getFilenameComponent "__zs_out_file_name" fileName (s.expand "__output")
  let directory := s.value "CMAKE_CURRENT_BINARY_DIR" ++ "/" ++ s.value "_target"
  let s := s.assign "__default_stringtable_file" (defaultFile directory)
  let rule ← tableRule s directory
  return (s, [rule])

/-! ## The commands on a disk -/

section Disk

variable {File : Type} [DecidableEq File] (file : String → File)

/-- The texts of the files that are there. -/
abbrev Disk (File : Type) := File → Option String

/-- What the compiler makes of its inputs. -/
abbrev Compiler (File : Type) := List String → Disk File → String

/-- One command. The compiler reads its inputs and writes the default file, a
copy needs its source, and `-E remove` minds no file that is not there. -/
def runCommand (zcc : Compiler File) (disk : Disk File) : List String → Option (Disk File)
  | [_, "-E", "copy", source, destination] =>
    (disk (file source)).map fun text => Function.update disk (file destination) (some text)
  | _ :: "-E" :: "remove" :: paths =>
    some fun f => if f ∈ (paths.filter (· ≠ "-f")).map file then none else disk f
  | _ :: "-t" :: directory :: inputs =>
    if ∀ i ∈ inputs, (disk (file i)).isSome then
      some (Function.update disk (file (defaultFile directory)) (some (zcc inputs disk)))
    else none
  | _ => none

/-- Commands in order. -/
def runCommands (zcc : Compiler File) (disk : Disk File) (commands : List (List String)) :
    Option (Disk File) :=
  commands.foldlM (runCommand file zcc) disk

/-- **The rule leaves its output behind**, whatever the compiler makes of the
inputs and whatever is on the disk besides them: the output holds the table, and
the default file is gone unless it is the output. -/
def LeavesOutput (directory output : String) (inputs : List String)
    (rules : List CustomCommand) : Prop :=
  ∀ (zcc : Compiler File) (disk : Disk File), (∀ i ∈ inputs, (disk (file i)).isSome) →
    ∃ disk', runCommands file zcc disk (rules.flatMap CustomCommand.commands) = some disk' ∧
      disk' (file output) = some (zcc inputs disk) ∧
      (file output ≠ file (defaultFile directory) → disk' (file (defaultFile directory)) = none)

/-- The branches, on the words that the options hold. -/
def tableCommands (zcc cmake directory output : String) (depends inputs : List String) :
    List (List String) :=
  if depends = [] then
    [zcc :: "-t" :: directory :: inputs,
      [cmake, "-E", "copy", defaultFile directory, output],
      [cmake, "-E", "remove", defaultFile directory]]
  else if fileName output = "StringTableStub.zs" then
    [zcc :: "-t" :: directory :: (depends ++ inputs),
      cmake :: "-E" :: "remove" :: depends]
  else
    [zcc :: "-t" :: directory :: (depends ++ inputs),
      [cmake, "-E", "copy", defaultFile directory, output],
      [cmake, "-E", "remove", defaultFile directory],
      cmake :: "-E" :: "remove" :: depends]

variable {file} {zcc : Compiler File} {disk : Disk File} {program directory output : String}
  {depends inputs : List String}

/-- The default file does not pass for an option. -/
theorem defaultFile_ne (directory : String) : defaultFile directory ≠ "-f" := by
  intro h
  have hslash : '/' ∈ (defaultFile directory).toList := by simp [defaultFile]
  rw [h] at hslash
  exact absurd hslash (by decide)

theorem runCommand_generate (h : ∀ i ∈ inputs, (disk (file i)).isSome) :
    runCommand file zcc disk (program :: "-t" :: directory :: inputs) =
      some (Function.update disk (file (defaultFile directory)) (some (zcc inputs disk))) := by
  simp only [Option.isSome_iff_ne_none] at h
  simpa [runCommand] using h

theorem runCommand_copy {source destination text : String} (h : disk (file source) = some text) :
    runCommand file zcc disk [program, "-E", "copy", source, destination] =
      some (Function.update disk (file destination) (some text)) := by
  simp [runCommand, h]

theorem runCommand_remove (paths : List String) :
    runCommand file zcc disk (program :: "-E" :: "remove" :: paths) =
      some fun f => if f ∈ (paths.filter (· ≠ "-f")).map file then none else disk f := by
  simp [runCommand]

/-- The files that the dependencies are removed as. -/
def removedFiles (file : String → File) (depends : List String) : List File :=
  (depends.filter (· ≠ "-f")).map file

/-- The disk behind the commands: the dependencies are gone, and the table is in
the default file or in the output. -/
def tableDisk (file : String → File) (zcc : Compiler File) (disk : Disk File)
    (directory output : String) (depends inputs : List String) : Disk File := fun f =>
  if f ∈ removedFiles file depends then none
  else if depends ≠ [] ∧ fileName output = "StringTableStub.zs" then
    Function.update disk (file (defaultFile directory)) (some (zcc (depends ++ inputs) disk)) f
  else if f = file (defaultFile directory) then none
  else Function.update disk (file output) (some (zcc (depends ++ inputs) disk)) f

/-- **The commands run through**, in every branch. -/
theorem runCommands_tableCommands (cmake : String)
    (h : ∀ i ∈ depends ++ inputs, (disk (file i)).isSome) :
    runCommands file zcc disk (tableCommands program cmake directory output depends inputs) =
      some (tableDisk file zcc disk directory output depends inputs) := by
  -- a copy of the default file, and its removal
  have hcopied : ∀ inputs : List String, ∀ f : File,
      (if f ∈ ([defaultFile directory].filter (· ≠ "-f")).map file then none else
        Function.update (Function.update disk (file (defaultFile directory))
          (some (zcc inputs disk))) (file output) (some (zcc inputs disk)) f) =
      if f = file (defaultFile directory) then none
      else Function.update disk (file output) (some (zcc inputs disk)) f := by
    intro inputs f
    rw [List.filter_cons_of_pos (by simpa using defaultFile_ne directory), List.filter_nil,
      List.map_singleton]
    by_cases hf : f = file (defaultFile directory)
    · rw [if_pos (by simp [hf]), if_pos hf]
    · rw [if_neg (by simpa using hf), if_neg hf, Function.update_apply, Function.update_apply,
        Function.update_apply, if_neg hf]
  unfold tableCommands runCommands
  split
  · rename_i hnil
    subst hnil
    rw [List.nil_append] at h
    rw [List.foldlM_cons, runCommand_generate h, Option.bind_eq_bind, Option.bind_some,
      List.foldlM_cons, runCommand_copy (Function.update_self _ _ _), Option.bind_eq_bind,
      Option.bind_some, List.foldlM_cons, runCommand_remove, Option.bind_eq_bind, Option.bind_some,
      List.foldlM_nil]
    refine congrArg some (funext fun f => ?_)
    have hnone : f ∉ removedFiles file [] := by simp [removedFiles]
    rw [hcopied, tableDisk, if_neg hnone,
      if_neg (c := ([] : List String) ≠ [] ∧ _) (fun hbranch => hbranch.1 rfl), List.nil_append]
  · rename_i hne
    split
    · rename_i hname
      rw [List.foldlM_cons, runCommand_generate h, Option.bind_eq_bind, Option.bind_some,
        List.foldlM_cons, runCommand_remove, Option.bind_eq_bind, Option.bind_some,
        List.foldlM_nil]
      refine congrArg some (funext fun f => ?_)
      rw [tableDisk, if_pos (c := depends ≠ [] ∧ _) ⟨hne, hname⟩, removedFiles]
    · rename_i hname
      rw [List.foldlM_cons, runCommand_generate h, Option.bind_eq_bind, Option.bind_some,
        List.foldlM_cons, runCommand_copy (Function.update_self _ _ _), Option.bind_eq_bind,
        Option.bind_some, List.foldlM_cons, runCommand_remove, Option.bind_eq_bind,
        Option.bind_some, List.foldlM_cons, runCommand_remove, Option.bind_eq_bind,
        Option.bind_some, List.foldlM_nil]
      refine congrArg some (funext fun f => ?_)
      rw [hcopied, tableDisk, if_neg (c := depends ≠ [] ∧ _) (fun h => hname h.2), removedFiles]

omit [DecidableEq File] in
theorem notMem_removedFiles {f : File} :
    f ∉ removedFiles file depends ↔ ∀ d ∈ depends, d ≠ "-f" → file d ≠ f := by
  simp [removedFiles]

/-- **When the output is left behind**: the default file is the output exactly
in the branch that does not copy it, and no dependency is. -/
theorem leavesOutput_iff {rules : List CustomCommand} {cmake : String}
    (hrules : rules.flatMap CustomCommand.commands =
      tableCommands program cmake directory output depends inputs) :
    LeavesOutput file directory output (depends ++ inputs) rules ↔
      (file output = file (defaultFile directory) ↔
        depends ≠ [] ∧ fileName output = "StringTableStub.zs") ∧
      ∀ d ∈ depends, d ≠ "-f" → file d ≠ file output := by
  have hleaves : LeavesOutput file directory output (depends ++ inputs) rules ↔
      ∀ (zcc : Compiler File) (disk : Disk File),
        (∀ i ∈ depends ++ inputs, (disk (file i)).isSome) →
          tableDisk file zcc disk directory output depends inputs (file output) =
            some (zcc (depends ++ inputs) disk) ∧
          (file output ≠ file (defaultFile directory) →
            tableDisk file zcc disk directory output depends inputs
              (file (defaultFile directory)) = none) := by
    refine forall_congr' fun zcc => forall_congr' fun disk => forall_congr' fun h => ?_
    rw [hrules, runCommands_tableCommands cmake h]
    constructor
    · rintro ⟨disk', hdisk', htable⟩
      obtain rfl := Option.some.inj hdisk'
      exact htable
    · exact fun htable => ⟨_, rfl, htable⟩
  rw [hleaves, ← notMem_removedFiles]
  constructor
  · intro h
    -- a disk full of old texts
    obtain ⟨houtput, -⟩ := h (fun _ _ => "new") (fun _ => some "old") fun _ _ => rfl
    unfold tableDisk at houtput
    split at houtput
    · exact nomatch houtput
    · rename_i hkept
      refine ⟨?_, hkept⟩
      split at houtput
      · rename_i hbranch
        refine iff_of_true ?_ hbranch
        by_contra hne
        rw [Function.update_of_ne hne] at houtput
        exact absurd (Option.some.inj houtput) (by decide)
      · rename_i hbranch
        refine iff_of_false ?_ hbranch
        intro heq
        rw [if_pos heq] at houtput
        exact nomatch houtput
  · rintro ⟨hbranch, hkept⟩ zcc disk -
    unfold tableDisk
    rw [if_neg hkept]
    by_cases heq : file output = file (defaultFile directory)
    · rw [if_pos (hbranch.1 heq), heq, Function.update_self]
      exact ⟨rfl, fun hne => absurd rfl hne⟩
    · have hnot := mt hbranch.2 heq
      rw [if_neg hnot, if_neg heq, Function.update_self, if_neg hnot, if_pos rfl]
      exact ⟨rfl, fun _ => ite_self _⟩

end Disk

/-! ## Calls with plain arguments -/

/-- The variables that a call writes. -/
def stubScratch : List String :=
  parseVariables ++ (stubVariables.map Prod.snd ++ putScratch) ++
    ["__number_of_depends", "__zs_out_file_name", "__default_stringtable_file"]

/-- The dependencies, and the sources. -/
def stubDepends (argn : List String) : List String := part stubKeywords "default" argn "DEPENDS"

@[inherit_doc stubDepends]
def stubInputs (argn : List String) : List String :=
  part stubKeywords "default" argn "ZS_SRC_FILES" ++ part stubKeywords "default" argn "ZS_API_FILES"

/-- **A call of the macro** with one directory and one output, where no
condition reads a variable by the name of the output, and `ADD_CUSTOM_COMMAND` takes no
word for a keyword. -/
structure StubCall (s : Scope) (zcc cmake target output : String) (argn : List String) : Prop where
  call : KeywordCall s stubKeywords argn
  one_target : part stubKeywords "default" argn "OUTPUT_PATH" = [target]
  one_output : part stubKeywords "default" argn "OUTPUT" = [output]
  name : Word (fileName output) ∧ fileName output ∉ "(" :: unaryWords ++ stubScratch
  no_keyword : ∀ w ∈ zcc :: cmake :: output :: (stubDepends argn ++ stubInputs argn),
    w ∉ customKeywords
  undefined : s (fileName output) = none ∧ s "StringTableStub.zs" = none
  compiler : s "ZCC_WS" = some zcc ∧ Word zcc
  command : s "CMAKE_COMMAND" = some cmake ∧ Word cmake
  closed : Closed (s.value "CMAKE_CURRENT_BINARY_DIR")

/-- The directory of the target. -/
def tableDirectory (s : Scope) (target : String) : String :=
  s.value "CMAKE_CURRENT_BINARY_DIR" ++ "/" ++ target

variable {s : Scope} {zcc cmake target output : String} {argn : List String}

/-- `COMMENT` and a text. -/
theorem readCustomCommand_comment {comment : String} (h : comment ∉ customKeywords)
    (keyword : String) (c : CustomCommand) :
    readCustomCommand keyword c ["COMMENT", comment] = c := by
  rw [readCustomCommand, if_neg (by decide), if_pos (by decide), ← List.append_nil [comment],
    readCustomCommand_words (by simpa using h), List.foldl_cons, List.foldl_nil,
    CustomCommand.push, if_neg (by decide), if_neg (by decide), if_neg (by decide),
    readCustomCommand]

/-- A text with an arrow in it is no keyword. -/
theorem notMem_customKeywords_arrow {text : String} (h : '>' ∈ text.toList) :
    text ∉ customKeywords :=
  fun hmem => (by decide : ∀ k ∈ customKeywords, '>' ∉ k.toList) text hmem h

theorem generateTable_eq (h : s.Holds "ZCC_WS" [zcc]) (directory : String) (inputs : List String) :
    generateTable s directory inputs = "COMMAND" :: (zcc :: "-t" :: directory :: inputs) := by
  rw [generateTable, h.expand]
  rfl

theorem fileCommand_eq (h : s.Holds "CMAKE_COMMAND" [cmake]) (operation : String)
    (args : List String) :
    fileCommand s operation args = "COMMAND" :: (cmake :: "-E" :: operation :: args) := by
  rw [fileCommand, h.expand]
  rfl

/-- **The branch of the rule**, on a scope that holds the options. -/
theorem tableRule_returns {directory : String} {depends src api : List String}
    (hdepends : s.Holds "__depends" depends) (hsrc : s.Holds "__zs_src_files" src)
    (hapi : s.Holds "__zs_api_files" api) (houtput : s.Holds "__output" [output])
    (hdefault : s.Holds "__default_stringtable_file" [defaultFile directory])
    (hnumber : s "__number_of_depends" = some (numeral depends.length))
    (hname : s.Holds "__zs_out_file_name" [fileName output])
    (hword : fileName output ∉ "(" :: unaryWords)
    (hquiet : Quiet s) (hundefined : s (fileName output) = none ∧ s "StringTableStub.zs" = none)
    (hzcc : s.Holds "ZCC_WS" [zcc]) (hcmake : s.Holds "CMAKE_COMMAND" [cmake])
    (hdirectory : '/' ∈ directory.toList)
    (hkeyword : ∀ w ∈ zcc :: cmake :: output :: (depends ++ (src ++ api)), w ∉ customKeywords) :
    Returns (tableRule s directory) fun rule => rule.outputs = [output] ∧
      rule.commands = tableCommands zcc cmake directory output depends (src ++ api) := by
  have hgreater : s.numGreater "__number_of_depends" "0" = decide (depends ≠ []) := by
    have hnum : s.numGreater "__number_of_depends" "0" = decide ((0 : ℤ) < depends.length) :=
      hquiet.numberless.numGreater hnumber 0
    rw [hnum, decide_eq_decide, ← List.length_pos_iff]
    omega
  rw [List.mem_cons, not_or] at hword
  have hsubject : Scope.subject (s.expand "__zs_out_file_name") = .ok (fileName output) := by
    rw [hname.expand, subject_eq hword.1 hword.2]
  have hequal : s.strequal (fileName output) "StringTableStub.zs" =
      decide (fileName output = "StringTableStub.zs") := by
    rw [strequal, deref_of_eq_none hundefined.1, deref_of_eq_none hundefined.2, beq_eq_decide]
  -- no section has a keyword in it
  simp only [List.forall_mem_cons, List.forall_mem_append] at hkeyword
  obtain ⟨hzccWord, hcmakeWord, houtputWord, hdependsWords, hsrcWords, hapiWords⟩ := hkeyword
  have hdefaultWord : defaultFile directory ∉ customKeywords :=
    notMem_customKeywords (.inl (by simp [defaultFile]))
  have hdirectoryWord : directory ∉ customKeywords := notMem_customKeywords (.inl hdirectory)
  have hgenerate : ∀ inputs, (∀ w ∈ inputs, w ∉ customKeywords) →
      ∀ w ∈ zcc :: "-t" :: directory :: inputs, w ∉ customKeywords := by
    intro inputs hinputs
    simp only [List.forall_mem_cons]
    exact ⟨hzccWord, by decide, hdirectoryWord, hinputs⟩
  have hremove : ∀ paths, (∀ w ∈ paths, w ∉ customKeywords) →
      ∀ w ∈ cmake :: "-E" :: "remove" :: paths, w ∉ customKeywords := by
    intro paths hpaths
    simp only [List.forall_mem_cons]
    exact ⟨hcmakeWord, by decide, by decide, hpaths⟩
  have hcopy : ∀ w ∈ [cmake, "-E", "copy", defaultFile directory, output], w ∉ customKeywords := by
    simp only [List.forall_mem_cons]
    exact ⟨hcmakeWord, by decide, by decide, hdefaultWord, houtputWord, by simp⟩
  have hout : ∀ w ∈ [output], w ∉ customKeywords := by simpa using houtputWord
  have hon : ∀ paths, (∀ w ∈ paths, w ∉ customKeywords) →
      ∀ w ∈ [zcc] ++ paths, w ∉ customKeywords := by
    intro paths hpaths
    simpa [hzccWord] using hpaths
  have hinputs : ∀ w ∈ src ++ api, w ∉ customKeywords :=
    List.forall_mem_append.2 ⟨hsrcWords, hapiWords⟩
  have hall : ∀ w ∈ depends ++ (src ++ api), w ∉ customKeywords :=
    List.forall_mem_append.2 ⟨hdependsWords, hinputs⟩
  have honAll : ∀ w ∈ [zcc] ++ depends ++ (src ++ api), w ∉ customKeywords := by
    rw [List.append_assoc]
    exact hon _ hall
  rw [tableRule]
  simp only [hgreater, hsubject, hequal, ok_bind, generateTable_eq hzcc, fileCommand_eq hcmake,
    hzcc.expand, hdepends.expand, hsrc.expand, hapi.expand, houtput.expand, hdefault.expand]
  unfold tableCommands
  by_cases hnil : depends = []
  · have hcomment : "==> " ++ s.value "__output" ∉ customKeywords :=
      notMem_customKeywords_arrow (by simp)
    rw [if_neg (by simpa using hnil), if_pos hnil, addRule, addCustomCommand,
      readCustomCommand_output hout, readCustomCommand_command (hgenerate _ hinputs),
      List.singleton_append, readCustomCommand_command hcopy,
      readCustomCommand_command (hremove _ (by simpa using hdefaultWord)),
      readCustomCommand_depends (hon _ hinputs), readCustomCommand_comment hcomment,
      if_neg (by simp)]
    exact Returns.ok ⟨rfl, rfl⟩
  · have hcomment : s.value "__depends" ++ " ==> " ++ s.value "__output" ∉ customKeywords :=
      notMem_customKeywords_arrow (by simp)
    rw [if_pos (by simpa using hnil), if_neg hnil]
    by_cases hstub : fileName output = "StringTableStub.zs"
    · rw [if_pos (by simpa using hstub), if_pos hstub, addRule, addCustomCommand,
        readCustomCommand_output hout, readCustomCommand_command (hgenerate _ hall),
        readCustomCommand_depends honAll, readCustomCommand_command (hremove _ hdependsWords),
        readCustomCommand_comment hcomment,
        if_neg (by simp)]
      exact Returns.ok ⟨rfl, rfl⟩
    · rw [if_neg (by simpa using hstub), if_neg hstub, addRule, addCustomCommand,
        readCustomCommand_output hout, readCustomCommand_command (hgenerate _ hall),
        List.singleton_append, readCustomCommand_command hcopy,
        readCustomCommand_command (hremove _ (by simpa using hdefaultWord)),
        readCustomCommand_command (hremove _ hdependsWords),
        readCustomCommand_depends honAll, readCustomCommand_comment hcomment,
        if_neg (by simp)]
      exact Returns.ok ⟨rfl, rfl⟩

/-- **The rule of a call**: its output, and the commands of its branch. -/
theorem zs2wsStubStringTable_returns (h : StubCall s zcc cmake target output argn) :
    Returns (zs2wsStubStringTable s argn) fun r => ∃ rule, r.2 = [rule] ∧ rule.outputs = [output] ∧
      rule.commands = tableCommands zcc cmake (tableDirectory s target) output
        (stubDepends argn) (stubInputs argn) := by
  rw [zs2wsStubStringTable]
  refine (parseOptions_returns h.call).bind ?_
  rintro t ⟨hparsed, ht⟩
  refine (getOptions_returns hparsed (by decide)).bind ?_
  rintro u ⟨hu, huparsed, hgot⟩
  have htarget := hu ("OUTPUT_PATH", "_target") (by decide)
  have hsrc := hu ("ZS_SRC_FILES", "__zs_src_files") (by decide)
  have hapi := hu ("ZS_API_FILES", "__zs_api_files") (by decide)
  have houtput := hu ("OUTPUT", "__output") (by decide)
  have hdepends := hu ("DEPENDS", "__depends") (by decide)
  rw [h.one_target] at htarget
  rw [h.one_output] at houtput
  dsimp only at htarget hsrc hapi houtput hdepends
  -- the three variables that the branches read besides the options
  let w := (u.listLength "__depends" "__number_of_depends").assign "__zs_out_file_name"
    (fileName output)
  let v := w.assign "__default_stringtable_file" (defaultFile (tableDirectory s target))
  have huw : AgreesOff ["__number_of_depends", "__zs_out_file_name"] u w :=
    ((AgreesOff.refl _ u).assign (by simp) _).assign (by simp) _
  have huv : AgreesOff ["__number_of_depends", "__zs_out_file_name",
      "__default_stringtable_file"] u v := (huw.mono (by simp)).assign (by simp) _
  have hv : AgreesOff stubScratch s v :=
    (ht.mono (by decide)).trans ((hgot.mono (by decide)).trans (huv.mono (by decide)))
  have hexpand : (u.listLength "__depends" "__number_of_depends").expand "__output" = [output] :=
    (houtput.toHolds.agreesOff ((AgreesOff.refl ["__number_of_depends"] u).assign (by simp) _)
      (by decide)).expand
  have hdirectory : w.value "CMAKE_CURRENT_BINARY_DIR" ++ "/" ++ w.value "_target" =
      tableDirectory s target := by
    rw [huw.value (by decide), huw.value (by decide), hgot.value (by decide), ht.value (by decide),
      htarget.text, joined_singleton, tableDirectory]
  -- the default file is a word, since no part of its path is open
  have hword : Word (defaultFile (tableDirectory s target)) := by
    have hplain : Plain target := h.call.plain target
      ((sublist_part argn "OUTPUT_PATH").subset (h.one_target ▸ List.mem_singleton_self target))
    refine ⟨?_, ((h.closed.append (by decide)).append hplain.closed).append (by decide)⟩
    exact fun hnil => absurd (String.append_eq_empty_iff.1 hnil).2 (by decide)
  have hcompiler : v.Holds "ZCC_WS" [zcc] :=
    ⟨by rw [joined_singleton, hv.value (by decide), value_of_eq_some h.compiler.1],
      by simpa using h.compiler.2⟩
  have hcommand : v.Holds "CMAKE_COMMAND" [cmake] :=
    ⟨by rw [joined_singleton, hv.value (by decide), value_of_eq_some h.command.1],
      by simpa using h.command.2⟩
  have hword' := h.name.2
  rw [List.mem_append, not_or] at hword'
  dsimp only
  rw [hexpand, getFilenameComponent, ok_bind]
  show Returns (tableRule (w.assign _ (defaultFile (w.value "CMAKE_CURRENT_BINARY_DIR" ++ "/" ++
    w.value "_target"))) (w.value "CMAKE_CURRENT_BINARY_DIR" ++ "/" ++ w.value "_target") >>=
      fun rule => _) _
  rw [hdirectory]
  refine (tableRule_returns (hdepends.toHolds.agreesOff huv (by decide))
    (hsrc.toHolds.agreesOff huv (by decide)) (hapi.toHolds.agreesOff huv (by decide))
    (houtput.toHolds.agreesOff huv (by decide)) ?_ ?_ ?_ hword'.1
    (h.call.quiet.agreesOff hv (by decide)) ?_ hcompiler hcommand (by simp [tableDirectory])
      h.no_keyword).bind ?_
  · exact ⟨by rw [joined_singleton]; exact value_assign_self _ _ _, by simpa using hword⟩
  · have hlength : (u.listLength "__depends" "__number_of_depends") "__number_of_depends" =
        some (numeral (part stubKeywords "default" argn "DEPENDS").length) := by
      rw [hdepends.toHolds.listLength, assign_self]
    exact (assign_of_ne w (by decide) _).trans ((assign_of_ne _ (by decide) _).trans hlength)
  · refine Holds.congr ⟨?_, by simpa using h.name.1⟩ (assign_of_ne _ (by decide) _)
    rw [value_assign_self, joined_singleton]
  · exact ⟨(hv _ hword'.2).trans h.undefined.1, (hv _ (by decide)).trans h.undefined.2⟩
  · rintro rule ⟨houtputs, hcommands⟩
    exact Returns.ok ⟨rule, rfl, houtputs, hcommands⟩

/-- **When the string table rule leaves its output behind**: the output is the
default file exactly where there are dependencies and the output has its name,
and no dependency is the output. -/
theorem zs2wsStubStringTable_leavesOutput_iff {File : Type} [DecidableEq File]
    (file : String → File) (h : StubCall s zcc cmake target output argn) :
    Returns (zs2wsStubStringTable s argn) fun r =>
      (LeavesOutput file (tableDirectory s target) output (stubDepends argn ++ stubInputs argn) r.2 ↔
        (file output = file (defaultFile (tableDirectory s target)) ↔
          stubDepends argn ≠ [] ∧ fileName output = "StringTableStub.zs") ∧
        ∀ d ∈ stubDepends argn, d ≠ "-f" → file d ≠ file output) := by
  refine (zs2wsStubStringTable_returns h).mono ?_
  rintro ⟨t, rules⟩ ⟨rule, rfl, -, hcommands⟩
  exact leavesOutput_iff (by rw [List.flatMap_singleton, hcommands])

/-! ## A directory -/

/-- A caller that knows its tools. -/
def stubScope : Scope :=
  ((Scope.empty.assign "ZCC_WS" "/bin/zcc").assign "CMAKE_COMMAND" "/bin/cmake").assign
    "CMAKE_CURRENT_BINARY_DIR" "/build"

/-- The call that makes a table of one script. -/
def stubArguments (output : String) : List String :=
  ["OUTPUT_PATH", "game", "OUTPUT", output, "ZS_SRC_FILES", "game.zs"]

theorem quiet_stubScope : Quiet stubScope := by
  have hundefined : ∀ x, x ∉ ["ZCC_WS", "CMAKE_COMMAND", "CMAKE_CURRENT_BINARY_DIR"] →
      stubScope x = none := by
    intro x hx
    simp only [List.mem_cons, List.not_mem_nil, or_false, not_or] at hx
    rw [stubScope, assign_of_ne _ hx.2.2, assign_of_ne _ hx.2.1, assign_of_ne _ hx.1]
    rfl
  refine fun x hx => hundefined x ?_
  intro hmem
  exact (by decide : ∀ x ∈ ["ZCC_WS", "CMAKE_COMMAND", "CMAKE_CURRENT_BINARY_DIR"], ¬ IsRead x) x
    hmem hx

theorem stubCall_stubScope {output : String}
    (hplain : ∀ a ∈ stubArguments output, Plain a ∧ a ∉ ["PARENT_SCOPE", "CACHE"])
    (houtput : part stubKeywords "default" (stubArguments output) "OUTPUT" = [output])
    (htarget : part stubKeywords "default" (stubArguments output) "OUTPUT_PATH" = ["game"])
    (hname : Word (fileName output) ∧ fileName output ∉ "(" :: unaryWords ++ stubScratch)
    (hkeyword : ∀ w ∈ "/bin/zcc" :: "/bin/cmake" :: output ::
      (stubDepends (stubArguments output) ++ stubInputs (stubArguments output)), w ∉ customKeywords)
    (hundefined : stubScope (fileName output) = none) :
    StubCall stubScope "/bin/zcc" "/bin/cmake" "game" output (stubArguments output) where
  call :=
    { quiet := quiet_stubScope
      default_undefined := by decide
      plain := fun a ha => (hplain a ha).1
      no_keyword := fun a ha => (hplain a ha).2
      plain_keywords := by decide
      nodup := by decide }
  one_target := htarget
  one_output := houtput
  name := hname
  no_keyword := hkeyword
  undefined := ⟨hundefined, by decide⟩
  compiler := by decide
  command := by decide
  closed := by decide

theorem leavesOutput_table :
    Returns (zs2wsStubStringTable stubScope (stubArguments "/build/table.zs")) fun r =>
      LeavesOutput id "/build/game" "/build/table.zs" ["game.zs"] r.2 :=
  (zs2wsStubStringTable_leavesOutput_iff id (stubCall_stubScope (by decide +kernel)
    (by decide +kernel) (by decide +kernel) (by decide +kernel) (by decide +kernel)
      (by decide +kernel))).mono fun _ h => h.2 (by decide +kernel)

/-- **The default file is removed** though it is the output: without
dependencies the table is copied onto itself, and removed. -/
theorem defaultFile_removed :
    Returns (zs2wsStubStringTable stubScope (stubArguments "/build/game/StringTableStub.zs"))
      fun r =>
        (∀ (zcc : Compiler String) (disk : Disk String), (disk "game.zs").isSome →
          ∃ disk', runCommands id zcc disk (r.2.flatMap CustomCommand.commands) = some disk' ∧
            disk' "/build/game/StringTableStub.zs" = none) ∧
        ¬ LeavesOutput id "/build/game" "/build/game/StringTableStub.zs" ["game.zs"] r.2 := by
  refine (zs2wsStubStringTable_returns (stubCall_stubScope (by decide +kernel)
    (by decide +kernel) (by decide +kernel) (by decide +kernel) (by decide +kernel)
      (by decide +kernel))).mono ?_
  rintro ⟨t, rules⟩ ⟨rule, rfl, -, hrule⟩
  have hcommands : [rule].flatMap CustomCommand.commands =
      tableCommands "/bin/zcc" "/bin/cmake" (tableDirectory stubScope "game")
        "/build/game/StringTableStub.zs" [] ["game.zs"] := by
    rw [List.flatMap_singleton, hrule,
      show stubDepends (stubArguments "/build/game/StringTableStub.zs") = [] by decide +kernel,
      show stubInputs (stubArguments "/build/game/StringTableStub.zs") = ["game.zs"] by
        decide +kernel]
  have hrun : ∀ (zcc : Compiler String) (disk : Disk String), (disk "game.zs").isSome →
      ∃ disk', runCommands id zcc disk (tableCommands "/bin/zcc" "/bin/cmake"
        (tableDirectory stubScope "game") "/build/game/StringTableStub.zs" [] ["game.zs"]) =
          some disk' ∧ disk' "/build/game/StringTableStub.zs" = none := by
    intro zcc disk hdisk
    exact ⟨_, runCommands_tableCommands "/bin/cmake" (by simpa using hdisk), rfl⟩
  refine ⟨fun zcc disk hdisk => hcommands ▸ hrun zcc disk hdisk, fun h => ?_⟩
  obtain ⟨disk', hdisk', houtput, -⟩ := h (fun _ _ => "new") (fun _ => some "old") fun _ _ => rfl
  obtain ⟨disk₂, hdisk₂, hnone⟩ := hrun (fun _ _ => "new") (fun _ => some "old") rfl
  rw [hcommands] at hdisk'
  obtain rfl := Option.some.inj (hdisk'.symm.trans hdisk₂)
  exact nomatch houtput.symm.trans hnone

end Zscript

end Supercell
