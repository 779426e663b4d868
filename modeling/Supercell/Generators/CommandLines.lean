import Supercell.CMake.Process
import Supercell.Generators.Names
import Supercell.Tests.Agreement

/-!
# Command lines through the runner scripts

The complex tests and the ThorPP macros hand a command line to a script as one
definition, the words with blanks between them, and the script divides it at the
blanks again. On the way CMake looks for keywords in the words of the rule, a shell
takes the quotes away, and `execute_process` looks for keywords of its own. A
command line comes out as it was put in exactly where none of this finds anything.
-/

namespace Supercell

namespace Generators

open CMake CMake.Scope Hashmap Options Sections Tests

variable {s : Scope} {argn ws : List String}

/-! ## `run.cmake` -/

/-- `execute_process(COMMAND words RESULT_VARIABLE __exit_code)`. -/
def executeWords (start : Process → Except Stop Outcome) (words : List String) :
    Except Stop Outcome := do
  start (← executeProcess ("COMMAND" :: words ++ ["RESULT_VARIABLE", "__exit_code"]))

/-- **`run.cmake` has one process started, with these words as its command**,
and goes on with what comes of it. -/
def Executes (c : RunnerCommand) (words : List String) : Prop :=
  c.script = .run ∧ ∃ u p, c.scope = .ok u ∧ p.commands = [words] ∧
    ∀ start, ∃ t, runTestProgram (executeWords start) u = (start p).map fun o => (t, o)

/-- A build target does, where its command line is whole. -/
def Delivers (target : TargetCommand) (words : List String) : Prop :=
  ∃ c, target = .whole c ∧ Executes c words

/-- The script starts what it decodes. -/
theorem executes_iff_process {u : Scope} {text : String} (h : u.value "TEST_PROG" = text) :
    (∃ p : Process, p.commands = [ws] ∧
        ∀ start, ∃ t, runTestProgram (executeWords start) u = (start p).map fun o => (t, o)) ↔
      ∃ p, executeProcess ("COMMAND" :: decoded text ++ ["RESULT_VARIABLE", "__exit_code"]) = .ok p ∧
        p.commands = [ws] := by
  cases hreplace : u.stringReplace ' ' ';' "TEST_PROG" (pieces text) with
  | error e =>
    have hrun : ∀ start, runTestProgram (executeWords start) u = .error e := by
      intro start
      rw [runTestProgram, Scope.expand, h, hreplace, error_bind]
    have hnil : pieces text = [] := by
      rw [stringReplace] at hreplace
      split at hreplace
      · assumption
      · cases hreplace
    refine iff_of_false ?_ ?_
    · rintro ⟨p, -, hp⟩
      obtain ⟨t, ht⟩ := hp fun _ => .ok ⟨0, "", ""⟩
      rw [hrun] at ht
      cases ht
    · rintro ⟨p, hp, -⟩
      rw [decoded, hnil] at hp
      cases hp
  | ok t =>
    obtain rfl := stringReplace_pieces hreplace
    have hrun : ∀ start, runTestProgram (executeWords start) u =
        executeProcess ("COMMAND" :: decoded text ++ ["RESULT_VARIABLE", "__exit_code"]) >>=
          fun p => (start p).map fun o =>
            (u.assign "TEST_PROG" (unblanked (String.join (pieces text))), o) := by
      intro start
      rw [runTestProgram, Scope.expand, h, hreplace, ok_bind, Scope.expand, value_assign_self,
        ← decoded, executeWords, bind_assoc]
      rfl
    constructor
    · rintro ⟨p, hcommands, hp⟩
      -- only the process in question gets an outcome
      obtain ⟨v, hv⟩ := hp fun q => if q = p then .ok ⟨0, "", ""⟩ else .error .endless
      rw [hrun, if_pos rfl, Except.map, bind_eq_ok_iff] at hv
      obtain ⟨q, hq, hqp⟩ := hv
      have heq : q = p := by
        by_contra hne
        rw [if_neg hne] at hqp
        cases hqp
      exact ⟨p, heq ▸ hq, hcommands⟩
    · rintro ⟨p, hp, hcommands⟩
      refine ⟨p, hcommands, fun start =>
        ⟨u.assign "TEST_PROG" (unblanked (String.join (pieces text))), ?_⟩⟩
      rw [hrun, hp, ok_bind]

/-! ## Complex tests -/

/-- **What the build target of a complex test executes.** -/
theorem executes_complexTarget_iff (hws : ∀ w ∈ ws, Word w) (hne : ws ≠ [])
    (expect : List String) : Executes (complexTarget s ws expect) ws ↔
      (∀ w ∈ ws, Deliverable w) ∧ definitionValue (" ".intercalate ws) = " ".intercalate ws := by
  have hnamed : Definition.Named "TEST_PROG" ":STRING" := by decide
  obtain ⟨u, hscope, hprogram⟩ : ∃ u, (complexTarget s ws expect).scope = .ok u ∧
      u.value "TEST_PROG" = definitionValue (" ".intercalate ws) := by
    rw [RunnerCommand.scope, complexTarget, runnerCommand, List.map_cons, quoted_joined hws,
      readDefinitions_word hnamed]
    unfold expectDefinitions
    split
    · exact ⟨_, rfl, value_assign_self _ _ _⟩
    · rw [List.map_singleton, readDefinitions_word (by decide +kernel)]
      exact ⟨_, rfl, (value_assign_of_ne _ (by decide +kernel) _).trans (value_assign_self _ _ _)⟩
  have hprocess := @executeProcess_decoded_iff ws "RESULT_VARIABLE" "__exit_code" (by decide) hws
    hne _ (definitionValue_sublist _)
  rw [← hprocess, ← executes_iff_process hprogram, Executes, hscope]
  constructor
  · rintro ⟨-, u', p, hu', hp⟩
    obtain rfl := Except.ok.inj hu'
    exact ⟨p, hp⟩
  · rintro ⟨p, hp⟩
    exact ⟨rfl, u, p, rfl, hp⟩

/-- Every definition behind the program's is shorter than the command line. -/
theorem length_text_lt {w v : String} {ds : List Definition} {d : Definition}
    (hw : w ≠ "") (hread : readDefinitions false (framed "" "\"" (w :: v :: ws)).tail = .ok ds)
    (hd : d ∈ ds) : d.text.length < (joined (w :: v :: ws)).length := by
  obtain ⟨u, hu, hlength⟩ := exists_word_of_mem_readDefinitions hread hd
  have hwlength : 0 < w.length := Nat.pos_of_ne_zero fun h => hw (String.length_eq_zero_iff.1 h)
  rw [joined_cons (List.cons_ne_nil v ws), String.length_append, String.length_append]
  rw [framed_cons_cons, List.tail_cons, List.mem_append, List.mem_singleton] at hu
  rcases hu with hu | rfl
  · have := length_joined_le (List.singleton_sublist.2 (List.dropLast_subset _ hu))
    rw [joined_singleton] at this
    omega
  · have := length_joined_le (List.singleton_sublist.2
      (List.getLast_mem (List.cons_ne_nil v ws)))
    rw [joined_singleton] at this
    rw [String.length_append, show "\"".length = 1 from rfl] at hlength
    omega

/-- **The copy of CTest never starts the program as it was given**: its quotes are
part of the words. -/
theorem not_executes_framed {c : RunnerCommand} (hws : ∀ w ∈ ws, Word w) (hne : ws ≠ [])
    (hc : c.arguments = framed "-DTEST_PROG:STRING=\"" "\"" ws) : ¬ Executes c ws := by
  rintro ⟨-, u, p, hscope, hp⟩
  obtain ⟨q, hq, hcommands⟩ := (executes_iff_process rfl).1 ⟨p, hp⟩
  obtain ⟨hdeliverable, hlength⟩ :=
    delivered_of_executeProcess (noCommand_option (by decide) _) hq hcommands
  have hnamed : Definition.Named "TEST_PROG" ":STRING" := by decide
  have hword : ∀ text, "-DTEST_PROG:STRING=\"" ++ text =
      (⟨"TEST_PROG", ":STRING", "\"" ++ text⟩ : Definition).word := by
    intro text
    rw [Definition.word, ← String.append_assoc]
    rfl
  rw [RunnerCommand.scope, hc] at hscope
  rcases ws with _ | ⟨w, _ | ⟨v, ws⟩⟩
  · exact hne rfl
  · -- a program without arguments is asked for with the quotes
    have hw := hws w List.mem_cons_self
    have hquoted : Word ("\"" ++ w ++ "\"") :=
      ⟨by simp, ((show Closed "\"" by decide).append hw.closed).append (by decide)⟩
    rw [framed, String.append_assoc, hword, readDefinitions_word hnamed, readDefinitions_nil] at hscope
    obtain rfl := Except.ok.inj hscope
    have hvalue : definitionValue ("\"" ++ (w ++ "\"")) = "\"" ++ w ++ "\"" := by
      rw [← String.append_assoc]
      refine definitionValue_eq_self fun c hc => ?_
      rw [String.toList_append, show "\"".toList = ['"'] from rfl, List.getLast?_concat] at hc
      rw [← Option.some.inj hc]
      decide
    have hprogram : (defined [⟨"TEST_PROG", ":STRING", "\"" ++ (w ++ "\"")⟩]).value "TEST_PROG" =
        " ".intercalate ["\"" ++ w ++ "\""] := by
      rw [String.intercalate_singleton, ← hvalue]
      exact value_assign_self _ _ _
    have hblank : ∀ v ∈ ["\"" ++ w ++ "\""], ' ' ∉ v.toList := by
      intro v hv
      rw [List.mem_singleton.1 hv]
      simpa using (hdeliverable w List.mem_cons_self).1
    have hkeyword : ∀ v ∈ ["\"" ++ w ++ "\""], v ∉ processKeywords := by
      intro v hv hmem
      rw [List.mem_singleton.1 hv] at hmem
      exact (by decide : ∀ k ∈ processKeywords, '"' ∉ k.toList) _ hmem (by simp)
    have hquotedWords : ∀ v ∈ ["\"" ++ w ++ "\""], Word v := by simpa using hquoted
    rw [hprogram, decoded_commandLine hquotedWords (List.cons_ne_nil _ _),
      (pieces_unblanked_iff hquotedWords).2 hblank,
      executeProcess_eq (by decide) (List.cons_ne_nil _ _) hkeyword] at hq
    rw [← Except.ok.inj hq] at hcommands
    have hsame := congrArg String.length (List.cons.inj (List.cons.inj hcommands).1).1
    rw [String.length_append, String.length_append, show "\"".length = 1 from rfl] at hsame
    omega
  · -- among several words, no definition is long enough
    have hw := (hws w List.mem_cons_self).nonempty
    rw [framed, hword, readDefinitions_word hnamed] at hscope
    cases hread : readDefinitions false (framed "" "\"" (v :: ws)) with
    | error e =>
      rw [hread] at hscope
      cases hscope
    | ok ds =>
      rw [hread] at hscope
      obtain rfl := Except.ok.inj hscope
      have hlater : ∀ d ∈ ds, d.text.length < (joined (w :: v :: ws)).length :=
        fun d hd => length_text_lt (w := w) hw (by rw [framed, List.tail_cons, hread]) hd
      have hshort : ((defined (⟨"TEST_PROG", ":STRING", "\"" ++ w⟩ :: ds)).value
          "TEST_PROG").length < (joined (w :: v :: ws)).length := by
        have hfirst : ("\"" ++ w).length < (joined (w :: v :: ws)).length := by
          have hv : 0 < v.length := Nat.pos_of_ne_zero fun h =>
            (hws v (by simp)).nonempty (String.length_eq_zero_iff.1 h)
          have hvs := length_joined_le
            (List.singleton_sublist.2 (show v ∈ v :: ws from List.mem_cons_self))
          rw [joined_singleton] at hvs
          rw [joined_cons (List.cons_ne_nil v ws), String.length_append, String.length_append,
            String.length_append, show "\"".length = 1 from rfl, show ";".length = 1 from rfl]
          omega
        cases hvalue : defined (⟨"TEST_PROG", ":STRING", "\"" ++ w⟩ :: ds) "TEST_PROG" with
        | none => simpa [Scope.value, hvalue] using Nat.zero_lt_of_lt hfirst
        | some text =>
          obtain ⟨d, hd, -, rfl⟩ := exists_mem_of_defined_eq_some hvalue
          have hle := (definitionValue_sublist d.text).length_le
          rw [String.length_toList, String.length_toList] at hle
          rw [Scope.value, hvalue, Option.getD_some]
          rcases List.mem_cons.1 hd with rfl | hd
          · exact hle.trans_lt hfirst
          · exact hle.trans_lt (hlater d hd)
      exact absurd hlength (Nat.not_le_of_lt hshort)

section Test

variable {p : Project} {target : String}

/-- **The command line of a complex test** is delivered by its build target exactly
where CMake, its shell and the script all leave it alone. -/
theorem zilliansAddComplexTest_delivers_iff (h : KeywordCall s complexKeywords argn)
    (htarget : Tests.option complexKeywords argn "TARGET" = [target])
    (hshell : Tests.option complexKeywords argn "SHELL" ≠ [])
    (hdepends : ∀ w ∈ Tests.option complexKeywords argn "DEPENDS", w ∉ targetKeywords) :
    let shell := Tests.option complexKeywords argn "SHELL"
    (∃ s' rules test build, zilliansAddComplexTest p s argn = .ok (s', rules) ∧
        Registered rules .run test build ∧ Delivers build shell) ↔
      (∀ w ∈ shell, Deliverable w) ∧
        definitionValue (" ".intercalate shell) = " ".intercalate shell ∧
          ¬ Torn (s.expand "CMAKE_COMMAND") shell := by
  intro shell
  have hws : ∀ w ∈ shell, Word w :=
    fun w hw => (h.plain w ((sublist_part _ _).subset hw)).toWord
  let depends := Tests.option complexKeywords argn "DEPENDS"
  let expect := Tests.option complexKeywords argn "EXPECT_FAIL"
  obtain ⟨herror, hok⟩ := zilliansAddComplexTest_returns p h htarget hshell
  have hwhole : (∃ c, complexTargetRead s shell depends expect = .ok c ∧
      c.commands = [complexTargetWords s shell expect]) ↔ ¬ Torn (s.expand "CMAKE_COMMAND") shell := by
    rw [complexTargetRead, addCustomTarget_command_iff (isDepends_dependsWords hdepends)
      (by simp [complexTargetWords, RunnerCommand.words]), Torn, ← exists_keyword_iff hws expect]
    simp
  rw [← and_assoc, ← executes_complexTarget_iff hws hshell expect, ← hwhole]
  constructor
  · rintro ⟨s', rules, test, build, hcall, hregistered, c, rfl, hexecutes⟩
    cases hread : complexTargetRead s shell depends expect with
    | error e => cases hcall.symm.trans (herror e hread)
    | ok read =>
      obtain ⟨r, hr, hrules⟩ := hok read hread
      obtain rfl := Except.ok.inj (hcall.symm.trans hr)
      obtain ⟨-, hbuild⟩ := hregistered.eq hrules
      rw [complexTargetCommand] at hbuild
      split at hbuild
      · rename_i hcommands
        obtain rfl := TargetCommand.whole.inj hbuild
        exact ⟨hexecutes, read, rfl, hcommands⟩
      · cases hbuild
  · rintro ⟨hexecutes, read, hread, hcommands⟩
    obtain ⟨⟨s', rules⟩, hcall, rfl⟩ := hok read hread
    refine ⟨s', _, _, _, hcall, ⟨⟨_, _, _, rfl⟩, rfl, fun c hc => ?_⟩, complexTarget s shell expect,
      if_pos hcommands, hexecutes⟩
    rw [complexTargetCommand, if_pos hcommands] at hc
    rw [← TargetCommand.whole.inj hc]
    rfl

/-- And never by its copy for CTest. -/
theorem not_executes_test (h : KeywordCall s complexKeywords argn)
    (htarget : Tests.option complexKeywords argn "TARGET" = [target])
    (hshell : Tests.option complexKeywords argn "SHELL" ≠ []) {s' : Scope} {rules : List Tests.Rule}
    {test : RunnerCommand} {build : TargetCommand}
    (hcall : zilliansAddComplexTest p s argn = .ok (s', rules))
    (hregistered : Registered rules .run test build) :
    ¬ Executes test (Tests.option complexKeywords argn "SHELL") := by
  obtain ⟨test', build', hregistered', harguments, -⟩ :=
    zilliansAddComplexTest_registers hcall (shellCall_option h htarget hshell)
  obtain ⟨n, d, rest, hrules⟩ := hregistered'.rules_eq
  obtain ⟨rfl, -⟩ := hregistered.eq hrules
  exact not_executes_framed (fun w hw => (h.plain w ((sublist_part _ _).subset hw)).toWord) hshell
    harguments

end Test

/-! ## `run_and_pipe_stdout_to_file.cmake` -/

/-- A text without semicolons is one argument, or none. -/
theorem length_pieces_le_one {text : String} (h : ';' ∉ text.toList) :
    (pieces text).length ≤ 1 := by
  by_cases hempty : text = ""
  · rw [hempty]
    decide
  · rw [pieces_of_semicolon_notMem hempty h, List.length_singleton]

/-- **`run_and_pipe_stdout_to_file.cmake`**, up to the process that it starts. -/
def runAndPipe (s : Scope) : Except Stop Process := do
  let s ← s.stringReplace ' ' ';' "__TEST_PROG_LIST" (s.expand "__TEST_PROG")
  executeProcess ("COMMAND" :: s.expand "__TEST_PROG_LIST" ++
    "OUTPUT_FILE" :: s.expand "__OUTPUT_FILE")

/-- The variables that the script starts with. -/
def PipeCommand.scope (c : PipeCommand) : Except Stop Scope := do
  return defined (← readDefinitions false c.arguments)

/-- **The script has one process started, with these words as its command.** -/
def Pipes (h : Handed) (words : List String) : Prop :=
  h.whole = true ∧ ∃ u p, h.command.scope = .ok u ∧ runAndPipe u = .ok p ∧ p.commands = [words]

/-- The script starts what it decodes. -/
theorem runAndPipe_iff {u : Scope} {text output : String} (h : u.value "__TEST_PROG" = text)
    (houtput : u.value "__OUTPUT_FILE" = output) (hone : (pieces output).length ≤ 1) :
    (∃ p, runAndPipe u = .ok p ∧ p.commands = [ws]) ↔
      ∃ p, executeProcess ("COMMAND" :: decoded text ++ "OUTPUT_FILE" :: pieces output) = .ok p ∧
        p.commands = [ws] := by
  cases hreplace : u.stringReplace ' ' ';' "__TEST_PROG_LIST" (pieces text) with
  | error e =>
    have hnil : pieces text = [] := by
      rw [stringReplace] at hreplace
      split at hreplace
      · assumption
      · cases hreplace
    refine iff_of_false ?_ ?_
    · rintro ⟨p, hp, -⟩
      rw [runAndPipe, Scope.expand, h, hreplace] at hp
      cases hp
    · rintro ⟨p, hp, -⟩
      rw [decoded, hnil] at hp
      rcases hpieces : pieces output with _ | ⟨v, _ | ⟨w, vs⟩⟩
      · rw [hpieces] at hp
        cases hp
      · rw [hpieces] at hp
        cases hp
      · rw [hpieces] at hone
        simp at hone
  | ok t =>
    obtain rfl := stringReplace_pieces hreplace
    rw [runAndPipe, Scope.expand, h, hreplace, ok_bind, Scope.expand, value_assign_self,
      Scope.expand, value_assign_of_ne _ (by decide), houtput, ← decoded]

/-- **The way of a ThorPP command line.** Without a name for the output the
script stops. -/
theorem pipes_iff {c : PipeCommand} (whole : Bool) (hws : ∀ w ∈ ws, Word w) (hne : ws ≠ [])
    (hprogram : c.program = joined ws) (houtput : ';' ∉ c.output.toList) :
    Pipes ⟨whole, c⟩ ws ↔ whole = true ∧ ((∀ w ∈ ws, Deliverable w) ∧
      definitionValue (" ".intercalate ws) = " ".intercalate ws) ∧ definitionValue c.output ≠ "" := by
  have hscope : c.scope = .ok (defined [⟨"__TEST_PROG", "", " ".intercalate ws⟩,
      ⟨"__OUTPUT_FILE", "", c.output⟩]) := by
    rw [PipeCommand.scope, PipeCommand.arguments, hprogram, quoted_joined hws,
      quoted_of_semicolon_notMem houtput,
      readDefinitions_word (show Definition.Named "__TEST_PROG" "" by decide),
      readDefinitions_word (show Definition.Named "__OUTPUT_FILE" "" by decide)]
    rfl
  have hvalue : ';' ∉ (definitionValue c.output).toList := fun h =>
    houtput ((definitionValue_sublist _).subset h)
  have hrun := @runAndPipe_iff ws (defined [⟨"__TEST_PROG", "", " ".intercalate ws⟩,
    ⟨"__OUTPUT_FILE", "", c.output⟩]) _ _
      ((value_assign_of_ne _ (show "__TEST_PROG" ≠ "__OUTPUT_FILE" by decide) _).trans
        (value_assign_self _ _ _)) (value_assign_self _ _ _) (length_pieces_le_one hvalue)
  rw [Pipes, hscope]
  refine and_congr_right fun _ => ?_
  have hall : (∃ u p, Except.ok (defined [⟨"__TEST_PROG", "", " ".intercalate ws⟩,
      ⟨"__OUTPUT_FILE", "", c.output⟩]) = (Except.ok u : Except Stop Scope) ∧
        runAndPipe u = .ok p ∧ p.commands = [ws]) ↔ ∃ p, runAndPipe (defined
          [⟨"__TEST_PROG", "", " ".intercalate ws⟩, ⟨"__OUTPUT_FILE", "", c.output⟩]) = .ok p ∧
            p.commands = [ws] := by
    constructor
    · rintro ⟨u, p, hu, hp⟩
      obtain rfl := Except.ok.inj hu
      exact ⟨p, hp⟩
    · rintro ⟨p, hp⟩
      exact ⟨_, p, rfl, hp⟩
  rw [hall, hrun]
  by_cases hempty : definitionValue c.output = ""
  · refine iff_of_false ?_ fun h => h.2 hempty
    show ¬ ∃ p, executeProcess ("COMMAND" :: decoded (definitionValue (" ".intercalate ws)) ++
      "OUTPUT_FILE" :: pieces (definitionValue c.output)) = .ok p ∧ p.commands = [ws]
    rw [hempty, show pieces "" = [] by decide]
    exact not_executeProcess_keyword (by decide) hws hne (definitionValue_sublist _)
  · rw [and_iff_left hempty]
    show (∃ p, executeProcess ("COMMAND" :: decoded (definitionValue (" ".intercalate ws)) ++
      "OUTPUT_FILE" :: pieces (definitionValue c.output)) = .ok p ∧ p.commands = [ws]) ↔ _
    rw [pieces_of_semicolon_notMem hempty hvalue]
    exact executeProcess_decoded_iff (by decide) hws hne (definitionValue_sublist _)

/-! ## The rules of the ThorPP macros -/

/-- **A command line for the script**: CMake's own path, a program's words, and a
file and a directory without semicolons. -/
structure PipeLine (c : PipeCommand) (path : String) (ws : List String) : Prop where
  cmake : c.cmake = [path]
  word_path : Word path
  slash_path : '/' ∈ path.toList
  program : c.program = joined ws
  words : ∀ w ∈ ws, Word w
  semicolon_output : ';' ∉ c.output.toList
  semicolon_directory : ';' ∉ c.directory.toList

namespace PipeLine

variable {c : PipeCommand} {path : String} {K : List String}

/-- The definition of the file, and what stands behind it. -/
def behind (c : PipeCommand) : List String :=
  [(⟨"__OUTPUT_FILE", "", "\"" ++ c.output ++ "\""⟩ : Definition).word, "-P",
    c.directory ++ "/run_and_pipe_stdout_to_file.cmake"]

theorem words_eq (h : PipeLine c path ws) :
    c.words = (path :: framed "-D__TEST_PROG=\"" "\"" ws) ++ behind c := by
  rw [c.words_eq h.semicolon_output h.semicolon_directory, h.cmake, h.program,
    definitionWords_quoted (by decide) h.words]
  rfl

/-- A word in front of the file's is one, whatever is behind it. -/
theorem word_front (h : PipeLine c path ws) :
    ∀ w ∈ path :: framed "-D__TEST_PROG=\"" "\"" ws, Word w := by
  intro w hw
  rcases List.mem_cons.1 hw with rfl | hw
  · exact h.word_path
  · exact word_of_mem_framed (by decide) (by decide) h.words w hw

/-- **`COMMAND ${cmd_string}` is these words** where the name of the file leaves no
bracket open. -/
theorem line_eq (h : PipeLine c path ws) (hclosed : Closed ("\"" ++ c.output ++ "\"")) :
    c.line = c.words := by
  have hfile : Word (⟨"__OUTPUT_FILE", "", "\"" ++ c.output ++ "\""⟩ : Definition).word :=
    ⟨by simp [Definition.word], (show Closed ("-D" ++ "__OUTPUT_FILE" ++ "" ++ "=") by
      decide).append hclosed⟩
  have hsplit : c.words = (path :: framed "-D__TEST_PROG=\"" "\"" ws ++
      [(⟨"__OUTPUT_FILE", "", "\"" ++ c.output ++ "\""⟩ : Definition).word, "-P"]) ++
        [c.directory ++ "/run_and_pipe_stdout_to_file.cmake"] := by
    rw [h.words_eq, behind]
    simp
  rw [PipeCommand.line, hsplit]
  refine pieces_joined_concat (fun w hw => ?_) (by simp) (by simpa using h.semicolon_directory)
  rcases List.mem_append.1 hw with hw | hw
  · exact h.word_front w hw
  rcases List.mem_cons.1 hw with rfl | hw
  · exact hfile
  · rw [List.mem_singleton.1 hw]
    decide

/-- Otherwise they are fewer. -/
theorem length_line_lt (h : PipeLine c path ws) (hopen : ¬ Closed ("\"" ++ c.output ++ "\"")) :
    c.line.length < c.words.length := by
  have hfile : ¬ Closed (⟨"__OUTPUT_FILE", "", "\"" ++ c.output ++ "\""⟩ : Definition).word := by
    have hfront : Closed ("-D" ++ "__OUTPUT_FILE" ++ "" ++ "=") := by decide
    rw [Definition.word, Closed, String.toList_append, closedFrom_append hfront]
    exact hopen
  rw [PipeCommand.line, h.words_eq, behind]
  refine length_pieces_joined_lt h.word_front hfile ?_ ?_ ?_ (List.cons_ne_nil _ _)
  · simpa [Definition.word] using h.semicolon_output
  · rw [Definition.word, ← String.append_assoc, String.toList_append,
      show "\"".toList = ['"'] from rfl, List.getLast?_concat]
    decide
  · intro w hw
    rcases List.mem_cons.1 hw with rfl | hw
    · decide
    · rw [List.mem_singleton.1 hw]
      simpa using h.semicolon_directory

/-- The path stays in front. -/
theorem exists_line_eq_cons (h : PipeLine c path ws) : ∃ line, c.line = path :: line := by
  rw [PipeCommand.line, h.words_eq, List.cons_append, joined_cons (by simp [framed_ne_nil]), pieces,
    cut_closed_append h.word_path.closed, emit_false, if_neg h.word_path.nonempty]
  exact ⟨_, rfl⟩

/-- **Keywords of a rule** can only be among the inner words of the program. -/
theorem exists_keyword_iff (h : PipeLine c path ws)
    (hK : ∀ k ∈ K, '/' ∉ k.toList ∧ '"' ∉ k.toList ∧ k ≠ "-P") :
    (∃ w ∈ c.words, w ∈ K) ↔ ∃ w ∈ ws.tail.dropLast, w ∈ K := by
  have hinner := @exists_mem_framed_iff "-D__TEST_PROG=\"" "\"" ws '"' K (by decide) (by decide)
    fun k hk => (hK k hk).2.1
  have hbehind : ∀ w ∈ behind c, w ∉ K := by
    intro w hw hmem
    obtain ⟨hslash, hquote, hne⟩ := hK w hmem
    simp only [behind, List.mem_cons, List.not_mem_nil, or_false] at hw
    rcases hw with rfl | rfl | rfl
    · exact hquote (by simp [Definition.word])
    · exact hne rfl
    · exact hslash (by simp)
  rw [h.words_eq, ← hinner]
  constructor
  · rintro ⟨w, hw, hmem⟩
    rcases List.mem_append.1 hw with hw | hw
    · rcases List.mem_cons.1 hw with rfl | hw
      · exact absurd h.slash_path (hK _ hmem).1
      · exact ⟨w, hw, hmem⟩
    · exact absurd hmem (hbehind w hw)
  · rintro ⟨w, hw, hmem⟩
    exact ⟨w, List.mem_append_left _ (List.mem_cons_of_mem _ hw), hmem⟩

/-- **A first command line as long as the words**: nothing was lost on the way. -/
theorem eq_of_length_le (h : PipeLine c path ws)
    (hlength : c.words.length ≤ (c.line.filter (· ∉ K)).length) :
    Closed ("\"" ++ c.output ++ "\"") ∧ ∀ w ∈ c.words, w ∉ K := by
  have hclosed : Closed ("\"" ++ c.output ++ "\"") := by
    by_contra hopen
    have hlt := h.length_line_lt hopen
    have hle := List.length_filter_le (fun w => decide (w ∉ K)) c.line
    omega
  refine ⟨hclosed, fun w hw => ?_⟩
  rw [h.line_eq hclosed] at hlength
  have hall := List.filter_sublist.eq_of_length_le hlength
  simpa using List.filter_eq_self.1 hall w hw

end PipeLine

section Rules

variable {c : PipeCommand} {path : String} {depends : List String} {command : Command}
  {commands : List Command} {comment : String}

theorem targetKeywords_facts :
    ∀ k ∈ targetKeywords, '/' ∉ k.toList ∧ '"' ∉ k.toList ∧ k ≠ "-P" := by decide

theorem customKeywords_facts :
    ∀ k ∈ customKeywords, '/' ∉ k.toList ∧ '"' ∉ k.toList ∧ k ≠ "-P" := by decide

/-- **A target runs the command line as it stands** exactly where the name of the file
leaves no bracket open, and no inner word of the program is a keyword. -/
theorem runsWhole_target_iff (h : PipeLine c path ws) {name : List String} (hname : name.tail = [])
    (hdepends : ∀ v ∈ depends, v ∉ targetKeywords) (hcomment : comment ∉ targetKeywords)
    (hbehind : ∀ {args}, ReadsOn args → ReadsOn (sections (command :: commands) ++ args)) :
    (Rule.target name depends (.pipe c :: command :: commands) comment).runsWhole c = true ↔
      Closed ("\"" ++ c.output ++ "\"") ∧ ∀ w ∈ ws.tail.dropLast, w ∉ targetKeywords := by
  obtain ⟨line, hline⟩ := h.exists_line_eq_cons
  have hpath : path ∉ targetKeywords := fun hmem =>
    (targetKeywords_facts path hmem).1 h.slash_path
  let after := command.line ++ sections commands ++ ["COMMENT", comment]
  have hsections : sections (command :: commands) ++ ["COMMENT", comment] = "COMMAND" :: after := by
    simp [sections, after]
  have hargs : name.tail ++ "DEPENDS" :: depends ++ sections (.pipe c :: command :: commands) ++
      ["COMMENT", comment] = "DEPENDS" :: depends ++ ("COMMAND" :: c.line ++ "COMMAND" :: after) := by
    rw [hname, ← hsections]
    simp [sections, Command.line]
  have hreads := hbehind (readsOn_comment hcomment)
  rw [hsections] at hreads
  have hkeywords := not_congr (h.exists_keyword_iff targetKeywords_facts)
  simp only [not_exists, not_and] at hkeywords
  rw [Rule.runsWhole, Rule.lines, hargs, ← hkeywords]
  constructor
  · intro hruns
    cases hread : addCustomTarget ("DEPENDS" :: depends ++
        ("COMMAND" :: c.line ++ "COMMAND" :: after)) with
    | error e =>
      rw [hread] at hruns
      cases hruns
    | ok read =>
      rw [hline] at hread
      obtain ⟨first, rest, hfirst, hlength⟩ := exists_first_addCustomTarget hdepends hpath hread
      rw [← hline] at hread hlength
      rw [hread] at hruns
      have hwords : first = c.words := by simpa [hfirst] using hruns
      exact h.eq_of_length_le (hwords ▸ hlength)
  · rintro ⟨hclosed, hclean⟩
    have hne : c.words ≠ [] := by simp [h.words_eq]
    rw [h.line_eq hclosed]
    obtain ⟨read, rest, hread, hcommands⟩ :=
      exists_addCustomTarget_command hdepends hclean hne hreads
    rw [hread]
    simp [hcommands]

/-- **A command does**, where the file is no keyword either. -/
theorem runsWhole_custom_iff (h : PipeLine c path ws) {output : String}
    (houtput : ';' ∉ output.toList) (hdepends : ∀ v ∈ depends, v ∉ customKeywords)
    (hcomment : comment ∉ customKeywords)
    (hbehind : ∀ {args}, NoOutput args → NoOutput (sections (command :: commands) ++ args)) :
    (Rule.custom (pieces output) depends (.pipe c :: command :: commands) comment).runsWhole c =
        true ↔
      (Closed ("\"" ++ c.output ++ "\"") ∧ ∀ w ∈ ws.tail.dropLast, w ∉ customKeywords) ∧
        output ≠ "" ∧ output ∉ customKeywords := by
  let last := "OUTPUT" :: pieces output ++ ["COMMENT", comment]
  let after := command.line ++ sections commands ++ last
  have hafter : sections (command :: commands) ++ last = "COMMAND" :: after := by
    simp [sections, after]
  have hargs : "DEPENDS" :: depends ++ sections (.pipe c :: command :: commands) ++
      "OUTPUT" :: pieces output ++ ["COMMENT", comment] =
        "DEPENDS" :: depends ++ ("COMMAND" :: c.line ++ "COMMAND" :: after) := by
    rw [← hafter]
    simp [sections, Command.line, last]
  have hkeywords := not_congr (h.exists_keyword_iff customKeywords_facts)
  simp only [not_exists, not_and] at hkeywords
  rw [Rule.runsWhole, Rule.lines, hargs, ← hkeywords]
  obtain ⟨first, rest, hfirst, hlength⟩ : ∃ first rest, (addCustomCommand ("DEPENDS" :: depends ++
      ("COMMAND" :: c.line ++ "COMMAND" :: after))).commands = first :: rest ∧
        first.length ≤ (c.line.filter (· ∉ customKeywords)).length :=
    exists_first_addCustomCommand hdepends
  by_cases hnone : (addCustomCommand ("DEPENDS" :: depends ++
      ("COMMAND" :: c.line ++ "COMMAND" :: after))).outputs = []
  · refine iff_of_false (by simp only [hnone, if_true]; exact Bool.false_ne_true) ?_
    rintro ⟨-, hne, hkeyword⟩
    rw [← hargs, pieces_of_semicolon_notMem hne houtput, List.append_assoc] at hnone
    exact outputs_addCustomCommand_ne_nil _ hkeyword hnone
  · simp only [hnone, if_false, hfirst, beq_iff_eq]
    constructor
    · rintro rfl
      obtain ⟨hclosed, hclean⟩ := h.eq_of_length_le hlength
      refine ⟨⟨hclosed, hclean⟩, ?_⟩
      by_contra hbad
      -- nothing is left behind `OUTPUT`
      have hall : ∀ v ∈ pieces output, v ∈ customKeywords := by
        intro v hv
        by_cases hempty : output = ""
        · rw [hempty, show pieces "" = [] by decide] at hv
          exact absurd hv List.not_mem_nil
        · rw [pieces_of_semicolon_notMem hempty houtput, List.mem_singleton] at hv
          rw [hv]
          by_contra hkeyword
          exact hbad ⟨hempty, hkeyword⟩
      have hlast : NoOutput last :=
        (noOutput_comment hcomment).output (length_pieces_le_one houtput) hall
      refine hnone ?_
      rw [← hafter, h.line_eq hclosed]
      exact outputs_addCustomCommand_eq_nil hdepends hclean (hbehind hlast)
    · rintro ⟨⟨hclosed, hclean⟩, -⟩
      rw [h.line_eq hclosed] at hfirst
      obtain ⟨ys, hcommands⟩ : ∃ ys, (addCustomCommand ("DEPENDS" :: depends ++
          ("COMMAND" :: c.words ++ "COMMAND" :: after))).commands = c.words :: ys :=
        exists_addCustomCommand_command hdepends hclean
      exact (List.cons.inj (hfirst.symm.trans hcommands)).1

/-! ### The other commands of a rule -/

/-- **Commands behind the first** that do no harm: the rule is read to its end, and
gets no output from them. -/
structure Passive (commands : List Command) : Prop where
  reads_on : ∀ {args}, ReadsOn args → ReadsOn (sections commands ++ args)
  no_output : ∀ {args}, NoOutput args → NoOutput (sections commands ++ args)

/-- What is no keyword of either rule. -/
theorem notMem_keywords {w : String} (h : '/' ∈ w.toList ∨ '.' ∈ w.toList ∨ w ∈ ["-E", "remove"]) :
    w ∉ targetKeywords ∧ w ∉ customKeywords := by
  have hall : ∀ k ∈ targetKeywords ++ customKeywords,
      '/' ∉ k.toList ∧ '.' ∉ k.toList ∧ k ∉ ["-E", "remove"] := by decide
  have hnone : w ∉ targetKeywords ++ customKeywords := by
    intro hmem
    obtain ⟨hslash, hdot, hword⟩ := hall w hmem
    rcases h with h | h | h
    · exact hslash h
    · exact hdot h
    · exact hword h
  rwa [List.mem_append, not_or] at hnone

theorem passive_nil : Passive [] := ⟨id, id⟩

/-- A command whose last word may be anything. -/
theorem Passive.cons {words last : List String} (h : Passive commands)
    (hwords : ∀ w ∈ words, '/' ∈ w.toList ∨ '.' ∈ w.toList ∨ w ∈ ["-E", "remove"])
    (hlast : last.length ≤ 1) : Passive (.words (words ++ last) :: commands) := by
  have hsections : ∀ args, sections (.words (words ++ last) :: commands) ++ args =
      "COMMAND" :: words ++ last ++ (sections commands ++ args) := by
    intro args
    simp [sections, Command.line]
  refine ⟨fun hargs => ?_, fun hargs => ?_⟩
  · rw [hsections]
    exact (h.reads_on hargs).command (fun w hw => (notMem_keywords (hwords w hw)).1) hlast
  · rw [hsections]
    exact (h.no_output hargs).command (fun w hw => (notMem_keywords (hwords w hw)).2) hlast

/-- The formatting of a file. -/
theorem Passive.formatLine {output : String} (h : Passive commands)
    (hscript : ';' ∉ (s.value "ZILLIANS_SCRIPT_PATH").toList) (houtput : ';' ∉ output.toList) :
    Passive (formatLine s output :: commands) := by
  rw [Generators.formatLine, pieces_of_semicolon_notMem (by simp) (by simpa using hscript)]
  refine h.cons (fun w hw => ?_) (length_pieces_le_one houtput)
  rw [List.mem_singleton.1 hw]
  exact .inl (by simp)

end Rules

/-! ## The macros -/

section ThorPP

variable {isThere : String → Bool} {location : String → String} {program : List String}
  {input output : String}

/-- **A call of a ThorPP macro with this program**, by one CMake, for one target if
any. -/
structure ProgramCall (isThere : String → Bool) (s : Scope) (argn program : List String) : Prop
    extends ThorppCall isThere s argn where
  program : s.Holds "THORPP_PROGRAM" program
  word_cmake : Word (s.value "CMAKE_COMMAND")
  slash_cmake : '/' ∈ (s.value "CMAKE_COMMAND").toList
  one_target : (given argn "TARGET").length ≤ 1

/-- The keywords of the rule that a file is wanted by. -/
def ruleKeywords (argn : List String) : List String :=
  if given argn "TARGET" = [] then customKeywords else targetKeywords

/-- **A name that a rule can be given for its file**: it leaves no bracket open, the
script gets some text for it, and it is no keyword where the file is an output. -/
structure Nameable (argn : List String) (output : String) : Prop where
  closed : Closed ("\"" ++ output ++ "\"")
  value : definitionValue output ≠ ""
  no_keyword : given argn "TARGET" = [] → output ∉ customKeywords

/-- **A command line that the script decodes**: each word can be delivered, and their
text is its own value as a definition. -/
structure Decodable (words : List String) : Prop where
  deliverable : ∀ w ∈ words, Deliverable w
  value : definitionValue (" ".intercalate words) = " ".intercalate words

theorem ProgramCall.pipeLine (h : ProgramCall isThere s argn program) (hws : ∀ w ∈ ws, Word w)
    (houtput : ';' ∉ output.toList) :
    PipeLine (pipeTo s ws output) (s.value "CMAKE_COMMAND") ws where
  cmake := pieces_word h.word_cmake
  word_path := h.word_cmake
  slash_path := h.slash_cmake
  program := rfl
  words := hws
  semicolon_output := houtput
  semicolon_directory := h.semicolon_script

/-- The name of the target for a file is one word. -/
theorem ProgramCall.tail_name (h : ProgramCall isThere s argn program)
    (hmem : input ∈ given argn "INPUT") (htarget : given argn "TARGET" ≠ []) :
    (pieces (joined (given argn "TARGET") ++ "_" ++ fileName input)).tail = [] := by
  obtain ⟨t, ht⟩ : ∃ t, given argn "TARGET" = [t] := by
    cases hgiven : given argn "TARGET" with
    | nil => exact absurd hgiven htarget
    | cons t ts =>
      have hone := h.one_target
      rw [hgiven, List.length_cons] at hone
      exact ⟨t, by rw [List.length_eq_zero_iff.1 (by omega : ts.length = 0)]⟩
  have hword : Word t := (h.call.plain t ((sublist_part _ _).subset (by
    rw [show part thorppKeywords "default" argn "TARGET" = [t] from ht]; simp))).toWord
  have hname : ';' ∉ ("_" ++ fileName input).toList := by
    simpa using notMem_fileName (h.semicolon_input input hmem)
  rw [ht, joined_singleton, String.append_assoc, pieces, String.toList_append,
    cut_append_of_closedFrom false hword.closed, cut_of_semicolon_notMem hname]
  unfold emit
  split <;> rfl

theorem pipes_pipeTo_iff (whole : Bool) (hws : ∀ w ∈ ws, Word w) (hne : ws ≠ [])
    (houtput : ';' ∉ output.toList) :
    Pipes ⟨whole, pipeTo s ws output⟩ ws ↔
      whole = true ∧ Decodable ws ∧ definitionValue output ≠ "" := by
  rw [Generators.pipes_iff whole hws hne rfl houtput]
  exact and_congr_right fun _ => and_congr_left fun _ =>
    ⟨fun h => ⟨h.1, h.2⟩, fun h => ⟨h.1, h.2⟩⟩

/-- **A rule with a file hands a command line on** exactly under these conditions. -/
theorem pipes_custom_iff (h : ProgramCall isThere s argn program) (hws : ∀ w ∈ ws, Word w)
    (hne : ws ≠ []) (houtput : ';' ∉ output.toList) {depends : List String}
    (hdepends : ∀ v ∈ depends, '/' ∈ v.toList ∨ '.' ∈ v.toList ∨ v ∈ ["-E", "remove"])
    {comment : String} (hcomment : '.' ∈ comment.toList) {commands : List Command}
    (hcommands : Passive commands) :
    List.Forall₂ Pipes (Rule.custom (pieces output) depends
        (.pipe (pipeTo s ws output) :: formatLine s output :: commands) comment).handsOn [ws] ↔
      Decodable ws ∧ (∀ w ∈ ws.tail.dropLast, w ∉ customKeywords) ∧
        Closed ("\"" ++ output ++ "\"") ∧ definitionValue output ≠ "" ∧ output ∉ customKeywords := by
  have hwhole := runsWhole_custom_iff (h.pipeLine hws houtput) houtput
    (fun v hv => (notMem_keywords (hdepends v hv)).2) (notMem_keywords (.inr (.inl hcomment))).2
    (hcommands.formatLine h.semicolon_script houtput).no_output
  rw [Rule.handsOn]
  simp only [Rule.commands, List.forall₂_cons, List.forall₂_nil_left_iff, and_true]
  rw [pipes_pipeTo_iff _ hws hne houtput, hwhole]
  constructor
  · rintro ⟨⟨⟨hclosed, hkeywords⟩, -, hkeyword⟩, hdecodable, hvalue⟩
    exact ⟨hdecodable, hkeywords, hclosed, hvalue, hkeyword⟩
  · rintro ⟨hdecodable, hkeywords, hclosed, hvalue, hkeyword⟩
    refine ⟨⟨⟨hclosed, hkeywords⟩, ?_, hkeyword⟩, hdecodable, hvalue⟩
    rintro rfl
    exact hvalue (by decide)

/-- **The rules for a wanted file hand a command line on** exactly under these
conditions. -/
theorem pipes_finalRules_iff (h : ProgramCall isThere s argn program)
    (hmem : input ∈ given argn "INPUT") (hws : ∀ w ∈ ws, Word w) (hne : ws ≠ [])
    (houtput : ';' ∉ output.toList) {depends : List String}
    (hdepends : ∀ v ∈ depends, '/' ∈ v.toList ∨ '.' ∈ v.toList ∨ v ∈ ["-E", "remove"])
    {commands : List Command} (hcommands : Passive commands) :
    List.Forall₂ Pipes ((finalRules argn input depends output
        (.pipe (pipeTo s ws output) :: formatLine s output :: commands)).flatMap Rule.handsOn)
        [ws] ↔
      Decodable ws ∧ (∀ w ∈ ws.tail.dropLast, w ∉ ruleKeywords argn) ∧ Nameable argn output := by
  rw [finalRules, ruleKeywords]
  by_cases htarget : given argn "TARGET" = []
  · rw [if_neg (not_not.2 htarget), if_pos htarget, List.flatMap_singleton,
      pipes_custom_iff h hws hne houtput hdepends (by simp) hcommands]
    refine and_congr_right fun _ => and_congr_right fun _ => ?_
    exact ⟨fun h => ⟨h.1, h.2.1, fun _ => h.2.2⟩, fun h => ⟨h.closed, h.value, h.no_keyword htarget⟩⟩
  · have hwhole := runsWhole_target_iff (h.pipeLine hws houtput) (h.tail_name hmem htarget)
      (fun v hv => (notMem_keywords (hdepends v hv)).1)
      (show "UsingThorPP.cmake: generating FINAL output " ++ output ∉ targetKeywords from
        (notMem_keywords (.inr (.inl (by simp)))).1)
      (hcommands.formatLine h.semicolon_script houtput).reads_on
    rw [if_pos htarget, if_neg htarget, List.flatMap_cons, List.flatMap_singleton, Rule.handsOn,
      Rule.handsOn]
    simp only [Rule.commands, List.append_nil, List.forall₂_cons, List.forall₂_nil_left_iff,
      and_true]
    rw [pipes_pipeTo_iff _ hws hne houtput, hwhole]
    constructor
    · rintro ⟨⟨hclosed, hkeywords⟩, hdecodable, hvalue⟩
      exact ⟨hdecodable, hkeywords, hclosed, hvalue, fun hnone => absurd hnone htarget⟩
    · rintro ⟨hdecodable, hkeywords, hclosed, hvalue, -⟩
      exact ⟨⟨hclosed, hkeywords⟩, hdecodable, hvalue⟩

/-- The words of a ThorPP command line. -/
theorem word_thorppWords (hprogram : ∀ w ∈ program, Word w) (hinput : Word input) :
    ∀ w ∈ thorppWords program input, Word w := by
  intro w hw
  simp only [thorppWords, List.mem_append] at hw
  rcases hw with ((hw | hw) | hw) | hw
  · exact hprogram w hw
  · exact (by decide : ∀ w ∈ ["--input"], Word w) w hw
  · exact List.mem_singleton.1 hw ▸ hinput
  · exact (by decide : ∀ w ∈ ["--from", "cpp", "--to", "cpp"], Word w) w hw

/-- Their text ends in `cpp`, and is its own value. -/
theorem decodable_thorppWords_iff :
    Decodable (thorppWords program input) ↔ ∀ w ∈ thorppWords program input, Deliverable w := by
  refine ⟨fun h => h.deliverable, fun h => ⟨h, definitionValue_eq_self fun c hc => ?_⟩⟩
  have hsplit : thorppWords program input =
      (program ++ ["--input"] ++ [input] ++ ["--from", "cpp", "--to"]) ++ ["cpp"] := by
    simp [thorppWords]
  rw [hsplit, String.intercalate_append_of_ne_nil (by simp) (by simp), String.intercalate_singleton,
    String.toList_append, show "cpp".toList = ['c', 'p'] ++ ['p'] from rfl, ← List.append_assoc,
    List.getLast?_concat] at hc
  rw [← Option.some.inj hc]
  decide

/-- An input is a word with a dot in it. -/
theorem ProgramCall.word (h : ProgramCall isThere s argn program) {i : String}
    (hi : i ∈ given argn "INPUT") : Word i ∧ '.' ∈ i.toList := by
  refine ⟨(h.call.plain i ((sublist_part _ _).subset hi)).toWord, ?_⟩
  have hextension := (h.accepted i hi).1
  have hname : '.' ∈ (fileName i).toList := by
    rw [← stem_append_extension, hextension]
    simp
  by_contra hnone
  exact notMem_fileName hnone hname

/-- Two parts that are as long as their counterparts. -/
theorem forall₂_append_iff {α β : Type} {R : α → β → Prop} {as as' : List α} {bs bs' : List β}
    (h : as.length = bs.length) :
    List.Forall₂ R (as ++ as') (bs ++ bs') ↔ List.Forall₂ R as bs ∧ List.Forall₂ R as' bs' := by
  induction as generalizing bs with
  | nil =>
    obtain rfl := List.length_eq_zero_iff.1 h.symm
    simp
  | cons a as ih =>
    obtain ⟨b, bs, rfl⟩ : ∃ b bs', bs = b :: bs' :=
      List.exists_cons_of_ne_nil (by rintro rfl; simp at h)
    rw [List.cons_append, List.cons_append, List.forall₂_cons, List.forall₂_cons,
      ih (Nat.succ.inj h), and_assoc]

/-- What is handed on, input by input. -/
theorem forall₂_flatMap_iff {α β γ : Type} {R : β → γ → Prop} {f : α → List β} {g : α → List γ}
    {xs : List α} (h : ∀ x ∈ xs, (f x).length = (g x).length) :
    List.Forall₂ R (xs.flatMap f) (xs.flatMap g) ↔ ∀ x ∈ xs, List.Forall₂ R (f x) (g x) := by
  induction xs with
  | nil => simp
  | cons x xs ih =>
    rw [List.flatMap_cons, List.flatMap_cons, forall₂_append_iff (h x List.mem_cons_self),
      List.forall_mem_cons]
    exact and_congr_right fun _ => ih fun y hy => h y (List.mem_cons_of_mem x hy)

/-- **The command lines of `zillians_add_thorpp_gen`.** -/
theorem zilliansAddThorppGen_pipes_iff (h : ProgramCall isThere s argn program) :
    Returns (zilliansAddThorppGen isThere s argn) fun r =>
      (List.Forall₂ Pipes (r.2.flatMap Rule.handsOn)
          ((given argn "INPUT").map (thorppWords program)) ↔
        ∀ i ∈ given argn "INPUT", (∀ w ∈ thorppWords program i, Deliverable w) ∧
          (∀ w ∈ (thorppWords program i).tail.dropLast, w ∉ ruleKeywords argn) ∧
            Nameable argn (outputName (outputPath s argn) i (outputExt argn))) := by
  refine (zilliansAddThorppGen_returns h.toThorppCall).mono fun r hr => ?_
  rw [hr, List.map_eq_flatMap, forall₂_flatMap_iff]
  · refine forall₂_congr fun i hi => ?_
    obtain ⟨hword, hdot⟩ := h.word hi
    rw [thorppRules, h.program.expand, ← decodable_thorppWords_iff]
    exact pipes_finalRules_iff h hi (word_thorppWords h.program.words hword) (by simp [thorppWords])
      (semicolon_notMem_outputName h.semicolon_path (h.semicolon_input i hi) h.semicolon_ext)
      (by simpa using .inr (.inl hdot)) passive_nil
  · intro i hi
    have hone := congrArg List.length (@written_thorppRules s argn i)
    rwa [List.length_map] at hone

/-- A name ends in what the extension was replaced by. -/
theorem exists_outputName_eq (path input replacement : String) :
    ∃ front, outputName path input replacement = front ++ replacement := by
  refine ⟨String.ofList (Replace.replaceAll lpPlaces replacement.toList
    (path ++ "/" ++ stem input).toList), ?_⟩
  rw [outputName, replaced, String.toList_append, show ".lp".toList = '.' :: ['l', 'p'] from rfl,
    Replace.replaceAll_append_cons (by decide) (by decide) (by decide), String.ofList_append,
    String.ofList_toList]

/-- The intermediate name. -/
theorem intermediate_facts {first front : String} (h : first = front ++ "_intermediate.cpp") :
    definitionValue first ≠ "" ∧ first ∉ customKeywords := by
  refine ⟨?_, (notMem_keywords (.inr (.inl (by simp [h])))).2⟩
  rw [definitionValue_eq_self fun c hc => ?_, h]
  · simp
  · rw [h, String.toList_append, show "_intermediate.cpp".toList =
      "_intermediate.cp".toList ++ ['p'] by decide, ← List.append_assoc, List.getLast?_concat] at hc
    rw [← Option.some.inj hc]
    decide

/-- The last command of the second pass. -/
theorem passive_cleanup (h : ProgramCall isThere s argn program) {generator first : String}
    (hgenerator : Word generator) (hslash : '/' ∈ generator.toList) (hfirst : ';' ∉ first.toList) :
    Passive [.words (s.expand "CMAKE_COMMAND" ++ ["-E", "remove"] ++ pieces generator ++
      pieces first)] := by
  rw [pieces_word hgenerator, Scope.expand, pieces_word h.word_cmake]
  refine passive_nil.cons (fun w hw => ?_) (length_pieces_le_one hfirst)
  simp only [List.cons_append, List.nil_append, List.mem_cons, List.not_mem_nil, or_false] at hw
  rcases hw with rfl | rfl | rfl | rfl
  · exact .inl h.slash_cmake
  · exact .inr (.inr (by decide))
  · exact .inr (.inr (by decide))
  · exact .inl hslash

/-- **The command lines of `zillians_add_two_pass_thorpp_gen`**, ThorPP's and the
generated program's. -/
theorem zilliansAddTwoPassThorppGen_pipes_iff (h : ProgramCall isThere s argn program)
    (hlocation : ∀ name, Word (location name) ∧ '/' ∈ (location name).toList) :
    Returns (zilliansAddTwoPassThorppGen isThere location s argn) fun r =>
      (List.Forall₂ Pipes (r.2.flatMap Rule.handsOn)
          ((given argn "INPUT").flatMap fun i =>
            [thorppWords program i, [generator location i]]) ↔
        ∀ i ∈ given argn "INPUT", ((∀ w ∈ thorppWords program i, Deliverable w) ∧
            (∀ w ∈ (thorppWords program i).tail.dropLast, w ∉ customKeywords) ∧
              Closed ("\"" ++ outputName (outputPath s argn) i "_intermediate.cpp" ++ "\"")) ∧
          Decodable [generator location i] ∧
            Nameable argn (outputName (outputPath s argn) i (outputExt argn))) := by
  refine (zilliansAddTwoPassThorppGen_returns h.toThorppCall).mono fun r hr => ?_
  rw [hr, forall₂_flatMap_iff]
  · refine forall₂_congr fun i hi => ?_
    obtain ⟨hword, hdot⟩ := h.word hi
    obtain ⟨front, hfront⟩ := exists_outputName_eq (outputPath s argn) i "_intermediate.cpp"
    have hsemicolon : ∀ {replacement : String}, ';' ∉ replacement.toList →
        ';' ∉ (outputName (outputPath s argn) i replacement).toList :=
      semicolon_notMem_outputName h.semicolon_path (h.semicolon_input i hi)
    rw [twoPassRules, List.flatMap_append, h.program.expand, List.flatMap_cons, List.flatMap_singleton]
    generalize hfirst : outputName (outputPath s argn) i "_intermediate.cpp" = first at hfront
    generalize houtput : outputName (outputPath s argn) i (outputExt argn) = output
    have hfirstSemicolon : ';' ∉ first.toList := hfirst ▸ hsemicolon (by decide)
    have houtputSemicolon : ';' ∉ output.toList := houtput ▸ hsemicolon h.semicolon_ext
    -- the intermediate name ends in its own suffix
    obtain ⟨hfirstValue, hfirstKeyword⟩ : definitionValue first ≠ "" ∧ first ∉ customKeywords :=
      intermediate_facts hfront
    have hgenerator : Word (generator location i) ∧ '/' ∈ (generator location i).toList :=
      hlocation _
    have hcleanup := passive_cleanup h hgenerator.1 hgenerator.2 hfirstSemicolon
    have hprogram : ∀ w ∈ [generator location i], Word w := by simpa using hgenerator.1
    have hdepends : ∀ v ∈ pieces (generator location i),
        '/' ∈ v.toList ∨ '.' ∈ v.toList ∨ v ∈ ["-E", "remove"] := by
      rw [pieces_word hgenerator.1]
      simpa using .inl hgenerator.2
    have hhead := pipes_custom_iff h (word_thorppWords h.program.words hword)
      (by simp [thorppWords]) hfirstSemicolon
      (show ∀ v ∈ [i], '/' ∈ v.toList ∨ '.' ∈ v.toList ∨ v ∈ ["-E", "remove"] by
        simpa using .inr (.inl hdot))
      (show '.' ∈ ("UsingThorPP.cmake: generating INTERMEDIATE generator " ++ output).toList by
        simp) passive_nil
    have hfinal := pipes_finalRules_iff h hi hprogram (List.cons_ne_nil _ _) houtputSemicolon
      hdepends hcleanup
    rw [show (Rule.executable ("gen_program_1_target_" ++ fileName i) (pieces first)).handsOn = []
        from rfl, List.append_nil, show [thorppWords program i, [generator location i]] =
          [thorppWords program i] ++ [[generator location i]] from rfl, forall₂_append_iff (by rfl),
      hhead, hfinal, decodable_thorppWords_iff]
    constructor
    · rintro ⟨⟨hdeliverable, hkeywords, hclosed, -⟩, hdecodable, -, hnameable⟩
      exact ⟨⟨hdeliverable, hkeywords, hclosed⟩, hdecodable, hnameable⟩
    · rintro ⟨⟨hdeliverable, hkeywords, hclosed⟩, hdecodable, hnameable⟩
      exact ⟨⟨hdeliverable, hkeywords, hclosed, hfirstValue, hfirstKeyword⟩, hdecodable,
        fun w hw => absurd hw List.not_mem_nil, hnameable⟩
  · intro i hi
    have hone := congrArg List.length (@written_twoPassRules s argn location i)
    rwa [List.length_map] at hone

/-- A directory in which ThorPP and the scripts were found. -/
def programScope : Scope :=
  ((thorppScope.assign "THORPP_PROGRAM" "/usr/bin/thorpp").assign "CMAKE_COMMAND"
    "/usr/bin/cmake").assign "ZILLIANS_SCRIPT_PATH" "/src/scripts"

theorem programCall_thorppArgs :
    ProgramCall (fun _ => true) programScope (thorppArgs "out") ["/usr/bin/thorpp"] := by
  have hquiet : Quiet programScope :=
    Quiet.agreesOff (s := Scope.empty)
      (N := ["THORPP_EXTENSION", "THORPP_PROGRAM", "CMAKE_COMMAND", "ZILLIANS_SCRIPT_PATH"])
      (fun _ _ => rfl) (((((AgreesOff.refl _ _).assign (by simp) _).assign (by simp) _).assign
        (by simp) _).assign (by simp) _) (by decide)
  exact ⟨⟨⟨hquiet, rfl, by decide, by decide, by decide, by decide⟩, rfl, by decide,
    .inl (by decide), by decide, by decide, by decide, by decide, by decide, by decide⟩,
    ⟨by decide, by decide⟩, by decide, by decide, by decide⟩

end ThorPP

end Generators

end Supercell
