import Supercell.Tests.Calls

/-!
# Tests that compare their output, side by side

`run_and_compare.cmake` runs the test program with its output going to
`OUTPUT_LOCATION`, and then compares that file with the expected one. Between
the two steps other tests may run. A system here is any number of tests, each
registered by `zillians_add_compare_output_test`, and a run any interleaving of
their steps; what a test reads back is what the last test to run before its
comparison has written, since the macro gives all of them one location. The copies
that CTest runs keep the quotes of the macro around it and have nowhere to write.
-/

namespace Supercell

namespace Tests

open CMake CMake.Scope Options

/-! ## `run_and_compare.cmake` -/

variable {File : Type} [DecidableEq File]

/-- The files on disk, with their texts. -/
abbrev Files (File : Type) := File → Option String

/-- A disk: the file that a path names, and the files that can be written. -/
structure Disk (File : Type) where
  resolve : String → File
  writable : File → Bool

/-- **The disk of a build**: `/tmp/output.txt` can be written, and no directory is
there for the path that has quotes around it. -/
structure Disk.Usual (disk : Disk File) : Prop where
  output : disk.writable (disk.resolve "/tmp/output.txt") = true
  quoted : disk.writable (disk.resolve "\"/tmp/output.txt\"") = false

/-- The first step of `run_and_compare.cmake`, up to the check of the exit
code. A process whose output file cannot be opened is not started, which the
script reads as an error too. -/
def runIntoFile (disk : Disk File) (execute : List String → Except Stop Outcome) (s : Scope)
    (files : Files File) : Except Stop Scope × Files File :=
  match s.expand "OUTPUT_LOCATION" with
  | [path] =>
    if disk.writable (disk.resolve path) then
      match execute (s.expand "TEST_PROG") with
      | .ok outcome =>
        let s := s.assign "has_error" (numeral outcome.exitCode)
        (if s.truthy "has_error" then .error (.fatal "test failed - nonzero error code returned")
          else .ok s, Function.update files (disk.resolve path) (some outcome.stdout))
      | .error e => (.error e, files)
    else (.error (.fatal "test failed - nonzero error code returned"), files)
  | _ => (.error (.rejected "execute_process"), files)

/-- `cmake -E compare_files`, on its arguments: whether both files are there
and have the same text. -/
def compareFiles (resolve : String → File) (files : Files File) : List String → Bool
  | [left, right] =>
    match files (resolve left), files (resolve right) with
    | some text, some text' => text == text'
    | _, _ => false
  | _ => false

/-- The second step: the comparison. -/
def compareOutput (resolve : String → File) (s : Scope) (files : Files File) : Except Stop Scope :=
  if compareFiles resolve files (s.expand "OUTPUT_LOCATION" ++ s.expand "EXPECTED_OUTPUT") then
    .ok (s.assign "compare_result" "0")
  else .error (.fatal "test failed - files differ")

/-- **`run_and_compare.cmake`**, with nothing in between. -/
def runAndCompare (disk : Disk File) (execute : List String → Except Stop Outcome)
    (s : Scope) (files : Files File) : Except Stop Scope :=
  match runIntoFile disk execute s files with
  | (.ok s, files) => compareOutput disk.resolve s files
  | (.error e, _) => .error e

/-! ## Systems of tests -/

/-- Who runs a command line. -/
inductive Copy where
  | ctest
  | build
  deriving DecidableEq, Repr

/-- Where its output goes, as the command line has it. -/
def Copy.location : Copy → List String
  | ctest => testLocation
  | build => buildLocation

/-- A command line that a call of the macro registers, for CTest or for the
build. -/
def RegisteredCompare (copy : Copy) (command : RunnerCommand) : Prop :=
  ∃ p s argv s' rules, zilliansAddCompareOutputTest p s argv = .ok (s', rules) ∧ ∃ name,
    match copy with
    | .ctest => .test name command ∈ rules
    | .build => ∃ depends, .target name depends (.whole command) ∈ rules

/-- **A registered test** and the outcome of its program. The program, the place for
the output and the expected file are an argument each. -/
structure CompareTest where
  copy : Copy
  command : RunnerCommand
  outcome : Outcome
  registered : RegisteredCompare copy command
  length_arguments : command.arguments.length = 3

/-- How far a test has come. -/
inductive Phase where
  | waiting
  | ran (s : Scope)
  | finished (passed : Bool)

/-- The verdict of a test that has one. -/
def Phase.verdict : Phase → Option Bool
  | finished b => some b
  | _ => none

theorem Phase.eq_finished {phase : Phase} {b : Bool} (h : phase.verdict = some b) :
    phase = .finished b := by
  cases phase with
  | waiting => exact nomatch h
  | ran s => exact nomatch h
  | finished c => exact congrArg finished (Option.some.inj h)

/-- The steps of the tests. -/
inductive Event (ι : Type) where
  | run (i : ι)
  | compare (i : ι)

variable {ι : Type} [DecidableEq ι]

/-- The state of a system. -/
structure SystemState (ι File : Type) where
  files : Files File
  phase : ι → Phase

/-- The state with new files and one test in a new phase. -/
def SystemState.move (st : SystemState ι File) (files : Files File) (i : ι) (phase : Phase) :
    SystemState ι File :=
  ⟨files, Function.update st.phase i phase⟩

omit [DecidableEq File] in
@[simp] theorem SystemState.move_files (st : SystemState ι File) (files : Files File) (i : ι)
    (phase : Phase) : (st.move files i phase).files = files := rfl

omit [DecidableEq File] in
@[simp] theorem SystemState.move_phase_self (st : SystemState ι File) (files : Files File) (i : ι)
    (phase : Phase) : (st.move files i phase).phase i = phase := Function.update_self _ _ _

omit [DecidableEq File] in
theorem SystemState.move_phase_of_ne (st : SystemState ι File) (files : Files File) {i j : ι}
    (h : j ≠ i) (phase : Phase) : (st.move files i phase).phase j = st.phase j :=
  Function.update_of_ne h _ _

/-- The outcome of a test's program, whatever the words of its command. -/
def CompareTest.execute (T : CompareTest) : List String → Except Stop Outcome :=
  fun _ => .ok T.outcome

/-- The first step of a test: the script starts with the definitions of its command
line. -/
def CompareTest.runStep (T : CompareTest) (disk : Disk File) (files : Files File) :
    Except Stop Scope × Files File :=
  match T.command.scope with
  | .ok s => runIntoFile disk T.execute s files
  | .error e => (.error e, files)

/-- **The verdict of a test alone.** -/
def CompareTest.alone (T : CompareTest) (disk : Disk File) (files : Files File) : Bool :=
  passes (do
    let s ← T.command.scope
    runAndCompare disk T.execute s files)

/-- The step a test takes, where it is the test's next one. -/
def systemStep (disk : Disk File) (T : ι → CompareTest) (st : SystemState ι File) :
    Event ι → Option (SystemState ι File)
  | .run i =>
    match st.phase i with
    | .waiting =>
      match (T i).runStep disk st.files with
      | (.ok s, files) => some (st.move files i (.ran s))
      | (.error _, files) => some (st.move files i (.finished false))
    | _ => none
  | .compare i =>
    match st.phase i with
    | .ran s =>
      some (st.move st.files i (.finished (passes (compareOutput disk.resolve s st.files))))
    | _ => none

/-- A run: each of the events is a test's next step. -/
def systemRun (disk : Disk File) (T : ι → CompareTest) :
    SystemState ι File → List (Event ι) → Option (SystemState ι File)
  | st, [] => some st
  | st, e :: es => (systemStep disk T st e).bind fun st' => systemRun disk T st' es

/-- No test has begun. -/
def SystemState.initial (files : Files File) : SystemState ι File := ⟨files, fun _ => .waiting⟩

/-- The test that has written the output file last when `i` compares, by the
order of the events; `w` is the one that had before them. Only the build's copies
write it. -/
def writerAt (T : ι → CompareTest) (i : ι) : Option ι → List (Event ι) → Option ι
  | w, [] => w
  | w, .run j :: es => writerAt T i (if (T j).copy = .build then some j else w) es
  | w, .compare j :: es => if j = i then w else writerAt T i w es

/-! ## What a test reads back -/

/-- The variables a test starts with. -/
def CompareTest.scope (T : CompareTest) : Scope := defined ((readDefinitions false
  T.command.arguments).toOption.getD [])

/-- The text of the test's expected file. -/
def CompareTest.expected (T : CompareTest) (resolve : String → File) (files : Files File) :
    Option String :=
  match T.scope.expand "EXPECTED_OUTPUT" with
  | [path] => files (resolve path)
  | _ => none

/-- The expected file is the one that the output goes to. -/
def CompareTest.Aliased (T : CompareTest) (resolve : String → File) : Prop :=
  ∃ path, T.scope.expand "EXPECTED_OUTPUT" = [path] ∧
    resolve path = resolve "/tmp/output.txt"

/-- Where the output of a copy goes. -/
def Copy.path : Copy → String
  | ctest => "\"/tmp/output.txt\""
  | build => "/tmp/output.txt"

/-- **What a test starts with**: the output of all the build's copies goes to one
file, that of CTest's to no file that could be there. -/
theorem CompareTest.scope_eq (T : CompareTest) : T.command.scope = .ok T.scope ∧
    T.scope.expand "OUTPUT_LOCATION" = [T.copy.path] := by
  obtain ⟨p, s, argv, s', rules, h, name, hmem⟩ := T.registered
  match argv, h with
  | _ :: _ :: argn, h =>
    obtain ⟨t, -, ht⟩ := bind_eq_ok_iff.1 h
    obtain ⟨u, -, hu⟩ := bind_eq_ok_iff.1 ht
    obtain ⟨-, rfl⟩ := Prod.mk.inj (Except.ok.inj hu)
    have hcommand : T.command.arguments = compareArguments u T.copy.location := by
      cases hcopy : T.copy with
      | ctest =>
        rw [hcopy] at hmem
        simp at hmem
        rw [hmem.2]
        rfl
      | build =>
        rw [hcopy] at hmem
        simp at hmem
        rw [hmem.2]
        rfl
    obtain ⟨program, ws, hprogram⟩ := @definitionWords_eq_cons "TEST_PROG" ":STRING"
      (u.value ("__location_" ++ u.value "__target")) (by decide)
    obtain ⟨expected, vs, hexpected⟩ := @definitionWords_eq_cons "EXPECTED_OUTPUT" ""
      (u.value "__expected_output") (by decide)
    have hlocation : T.copy.location = [(⟨"OUTPUT_LOCATION", "", T.copy.path⟩ : Definition).word] := by
      cases T.copy with
      | ctest => decide +kernel
      | build => decide +kernel
    -- three arguments leave room for nothing else
    rw [compareArguments, locationProgram, hprogram, hexpected, hlocation] at hcommand
    obtain ⟨rfl, rfl⟩ : ws = [] ∧ vs = [] := by
      have hlength := T.length_arguments
      rw [hcommand] at hlength
      simp at hlength
      exact ⟨List.eq_nil_of_length_eq_zero (by omega), List.eq_nil_of_length_eq_zero (by omega)⟩
    have hread : readDefinitions false T.command.arguments = .ok [⟨"TEST_PROG", ":STRING", program⟩,
        ⟨"OUTPUT_LOCATION", "", T.copy.path⟩, ⟨"EXPECTED_OUTPUT", "", expected⟩] := by
      rw [hcommand]
      simp only [List.cons_append, List.nil_append]
      rw [readDefinitions_word, readDefinitions_word, readDefinitions_word, readDefinitions_nil]
      · rfl
      · exact (by decide : Definition.Named "EXPECTED_OUTPUT" "")
      · exact (by decide : Definition.Named "OUTPUT_LOCATION" "")
      · exact (by decide : Definition.Named "TEST_PROG" ":STRING")
    refine ⟨?_, ?_⟩
    · rw [RunnerCommand.scope, CompareTest.scope, hread]
      rfl
    · have hvalue : T.scope.value "OUTPUT_LOCATION" = definitionValue T.copy.path := by
        rw [CompareTest.scope, hread]
        change Scope.value (((Scope.empty.assign "TEST_PROG" _).assign "OUTPUT_LOCATION" _).assign
          "EXPECTED_OUTPUT" _) "OUTPUT_LOCATION" = _
        rw [value_assign_of_ne _ (by decide), value_assign_self]
        rfl
      rw [Scope.expand, hvalue]
      cases T.copy with
      | ctest => decide +kernel
      | build => decide +kernel

section Steps

variable {disk : Disk File} (T : CompareTest)

/-- The scope a test compares in. -/
def CompareTest.ranScope (T : CompareTest) : Scope :=
  T.scope.assign "has_error" (numeral T.outcome.exitCode)

/-- **The first step of a registered test**: the build's copies write the output
file, and CTest's fail. -/
theorem CompareTest.runStep_eq (hdisk : disk.Usual) (files : Files File) :
    T.runStep disk files =
      (if T.copy = .build ∧ T.outcome.exitCode = 0 then .ok T.ranScope
        else .error (.fatal "test failed - nonzero error code returned"),
          if T.copy = .build then Function.update files (disk.resolve "/tmp/output.txt")
            (some T.outcome.stdout) else files) := by
  obtain ⟨hscope, hlocation⟩ := T.scope_eq
  have hcode : T.ranScope.truthy "has_error" = decide (T.outcome.exitCode ≠ 0) :=
    truthy_of_eq_numeral (assign_self _ _ _) (by decide)
  simp only [CompareTest.runStep, hscope, runIntoFile, hlocation, CompareTest.execute]
  rw [← CompareTest.ranScope, hcode]
  cases hcopy : T.copy with
  | ctest => simp [Copy.path, hdisk.quoted]
  | build => by_cases h0 : T.outcome.exitCode = 0 <;> simp [Copy.path, hdisk.output, h0]

/-- Alone, a test takes its two steps. -/
theorem CompareTest.alone_eq (disk : Disk File) (files : Files File) :
    T.alone disk files = passes (match T.runStep disk files with
      | (.ok s, files) => compareOutput disk.resolve s files
      | (.error e, _) => .error e) := by
  rw [CompareTest.alone, CompareTest.runStep, T.scope_eq.1]
  rfl

omit [DecidableEq File] in
/-- **The comparison** is of the two files as they are then. -/
theorem CompareTest.passes_compareOutput (hcopy : T.copy = .build) (files : Files File)
    {text : String} (hfile : files (disk.resolve "/tmp/output.txt") = some text) :
    passes (compareOutput disk.resolve T.ranScope files) = true ↔
      T.expected disk.resolve files = some text := by
  have hvalue : ∀ x ∈ ["OUTPUT_LOCATION", "EXPECTED_OUTPUT"],
      T.ranScope.expand x = T.scope.expand x := by
    intro x hx
    rw [Scope.expand, CompareTest.ranScope, value_assign_of_ne]
    · rfl
    · rintro rfl
      exact absurd hx (by decide)
  have hlocation : T.scope.expand "OUTPUT_LOCATION" = ["/tmp/output.txt"] := by
    rw [T.scope_eq.2, hcopy, Copy.path]
  rw [compareOutput, hvalue _ (by simp), hvalue _ (by simp), hlocation, CompareTest.expected]
  split <;> rename_i hequal
  · rw [passes_ok, eq_self_iff_true, true_iff]
    rcases hexpected : T.scope.expand "EXPECTED_OUTPUT" with _ | ⟨path, _ | ⟨q, qs⟩⟩
    · simp [hexpected, compareFiles] at hequal
    · cases hpath : files (disk.resolve path) with
      | none => simp [hexpected, compareFiles, hfile, hpath] at hequal
      | some text' =>
        simp only [hexpected, compareFiles, hfile, hpath, List.cons_append, List.nil_append,
          beq_iff_eq] at hequal
        simp [hpath, hequal]
    · simp [hexpected, compareFiles] at hequal
  · rw [passes_error, Bool.false_eq_true, false_iff]
    rcases hexpected : T.scope.expand "EXPECTED_OUTPUT" with _ | ⟨path, _ | ⟨q, qs⟩⟩
    · simp
    · rintro hpath
      exact hequal (by simp [hexpected, compareFiles, hfile, hpath])
    · simp

omit [DecidableEq File] in
/-- Writing the output changes the expected text only where the two are one
file. -/
theorem CompareTest.expected_eq (resolve : String → File) {files files' : Files File}
    (h : ∀ f, f ≠ resolve "/tmp/output.txt" → files' f = files f) :
    (T.Aliased resolve → T.expected resolve files' = files' (resolve "/tmp/output.txt")) ∧
      (¬ T.Aliased resolve → T.expected resolve files' = T.expected resolve files) := by
  refine ⟨?_, fun hnot => ?_⟩
  · rintro ⟨path, hpath, halias⟩
    rw [CompareTest.expected, hpath]
    exact congrArg files' halias
  · rw [CompareTest.expected, CompareTest.expected]
    split
    · rename_i path hpath
      exact h _ fun halias => hnot ⟨path, hpath, halias⟩
    · rfl

end Steps

/-! ## Runs -/

section Runs

variable {disk : Disk File} {T : ι → CompareTest} {files : Files File}

/-- **What holds of a system along a run**: only the output file has changed,
it has the text of the test that wrote it last, and the tests that have run and
not compared are the build's and exited with 0. -/
structure Runs (disk : Disk File) (T : ι → CompareTest) (files : Files File)
    (st : SystemState ι File) (w : Option ι) : Prop where
  others : ∀ f, f ≠ disk.resolve "/tmp/output.txt" → st.files f = files f
  written : ∀ j, w = some j →
    st.files (disk.resolve "/tmp/output.txt") = some (T j).outcome.stdout
  ran : ∀ i s, st.phase i = .ran s → s = (T i).ranScope ∧ (T i).copy = .build ∧
    (T i).outcome.exitCode = 0 ∧ w ≠ none

/-- **A test passes with what a given test has written**: it is the build's, its
program exits with 0, and the text is the expected one, or the expected file is the
output file itself. -/
def PassesWith (resolve : String → File) (T : ι → CompareTest) (files : Files File) (i : ι)
    (w : Option ι) : Prop :=
  (T i).copy = .build ∧ (T i).outcome.exitCode = 0 ∧ ((T i).Aliased resolve ∨
    ∃ j, w = some j ∧ (T i).expected resolve files = some (T j).outcome.stdout)

omit [DecidableEq ι] [DecidableEq File] in
/-- The verdict of a comparison, in a run. -/
theorem Runs.passes_compareOutput {st : SystemState ι File} {w : Option ι}
    (h : Runs disk T files st w) {i : ι} {s : Scope} (hs : st.phase i = .ran s) :
    passes (compareOutput disk.resolve s st.files) = true ↔
      PassesWith disk.resolve T files i w := by
  obtain ⟨rfl, hcopy, h0, hw⟩ := h.ran i s hs
  obtain ⟨j, rfl⟩ := Option.ne_none_iff_exists'.1 hw
  obtain ⟨haliased, hdistinct⟩ := (T i).expected_eq disk.resolve h.others
  rw [(T i).passes_compareOutput hcopy st.files (h.written j rfl), PassesWith]
  by_cases ha : (T i).Aliased disk.resolve
  · rw [haliased ha, h.written j rfl]
    simp [hcopy, h0, ha]
  · rw [hdistinct ha]
    simp [hcopy, h0, ha]

/-- What the two steps do. -/
theorem systemStep_run (hdisk : disk.Usual) {st st' : SystemState ι File} {j : ι} :
    systemStep disk T st (.run j) = some st' ↔ st.phase j = .waiting ∧
      st' = st.move (if (T j).copy = .build then Function.update st.files
          (disk.resolve "/tmp/output.txt") (some (T j).outcome.stdout) else st.files) j
            (if (T j).copy = .build ∧ (T j).outcome.exitCode = 0 then .ran (T j).ranScope
              else .finished false) := by
  cases hphase : st.phase j with
  | ran s => simp [systemStep, hphase]
  | finished b => simp [systemStep, hphase]
  | waiting =>
    simp only [systemStep, hphase, (T j).runStep_eq hdisk]
    by_cases h0 : (T j).copy = .build ∧ (T j).outcome.exitCode = 0
    · rw [if_pos h0, if_pos h0]
      simp [eq_comm]
    · rw [if_neg h0, if_neg h0]
      simp [eq_comm]

@[inherit_doc systemStep_run]
theorem systemStep_compare {st st' : SystemState ι File} {j : ι} :
    systemStep disk T st (.compare j) = some st' ↔ ∃ s, st.phase j = .ran s ∧
      st' = st.move st.files j (.finished (passes (compareOutput disk.resolve s st.files))) := by
  cases hphase : st.phase j with
  | ran s => simp [systemStep, hphase, eq_comm]
  | finished b => simp [systemStep, hphase]
  | waiting => simp [systemStep, hphase]

omit [DecidableEq ι] [DecidableEq File] in
/-- Before the first step nothing has been written. -/
theorem Runs.initial (files : Files File) :
    Runs disk T files (SystemState.initial (ι := ι) files) none where
  others _ _ := rfl
  written _ h := nomatch h
  ran _ _ h := nomatch h

/-- A test of the build that runs becomes the writer. -/
theorem Runs.run (hdisk : disk.Usual) {st st' : SystemState ι File} {w : Option ι} {j : ι}
    (h : Runs disk T files st w) (hstep : systemStep disk T st (.run j) = some st') :
    Runs disk T files st' (if (T j).copy = .build then some j else w) := by
  obtain ⟨-, rfl⟩ := (systemStep_run hdisk).1 hstep
  have hran : ∀ {w' : Option ι}, ((T j).copy = .build → w' ≠ none) → (w ≠ none → w' ≠ none) →
      ∀ files' i s, (st.move files' j (if (T j).copy = .build ∧ (T j).outcome.exitCode = 0 then
        .ran (T j).ranScope else .finished false)).phase i = .ran s →
          s = (T i).ranScope ∧ (T i).copy = .build ∧ (T i).outcome.exitCode = 0 ∧ w' ≠ none := by
    intro w' hbuild hkept files' i s hi
    by_cases hij : i = j
    · subst hij
      rw [SystemState.move_phase_self] at hi
      split at hi <;> rename_i h0
      · exact ⟨(Phase.ran.inj hi).symm, h0.1, h0.2, hbuild h0.1⟩
      · cases hi
    · rw [SystemState.move_phase_of_ne _ _ hij] at hi
      obtain ⟨hs, hcopy, hcode, hw⟩ := h.ran i s hi
      exact ⟨hs, hcopy, hcode, hkept hw⟩
  by_cases hcopy : (T j).copy = .build
  · rw [if_pos hcopy, if_pos hcopy]
    refine ⟨fun f hf => ?_, ?_, hran (fun _ => Option.some_ne_none _)
      (fun _ => Option.some_ne_none _) _⟩
    · exact (Function.update_of_ne hf _ _).trans (h.others f hf)
    · rintro k hk
      obtain rfl := Option.some.inj hk
      exact Function.update_self _ _ _
  · rw [if_neg hcopy, if_neg hcopy]
    exact ⟨h.others, h.written, hran (fun hbuild => absurd hbuild hcopy) id _⟩

/-- A comparison leaves the files alone. -/
theorem Runs.compare {st st' : SystemState ι File} {w : Option ι} {j : ι}
    (h : Runs disk T files st w) (hstep : systemStep disk T st (.compare j) = some st') :
    Runs disk T files st' w := by
  obtain ⟨s, -, rfl⟩ := systemStep_compare.1 hstep
  refine ⟨h.others, h.written, fun i s' hi => ?_⟩
  by_cases hij : i = j
  · subst hij
    rw [SystemState.move_phase_self] at hi
    exact nomatch hi
  · rw [SystemState.move_phase_of_ne _ _ hij] at hi
    exact h.ran i s' hi

/-- The verdict of a test stands. -/
theorem systemRun_finished (hdisk : disk.Usual) {es : List (Event ι)} {i : ι} {b : Bool} :
    ∀ {st st' : SystemState ι File}, systemRun disk T st es = some st' →
      st.phase i = .finished b → st'.phase i = .finished b := by
  induction es with
  | nil =>
    rintro st st' hrun hi
    obtain rfl := Option.some.inj hrun
    exact hi
  | cons e es ih =>
    rintro st st' hrun hi
    obtain ⟨u, hu, hrest⟩ := Option.bind_eq_some_iff.1 hrun
    refine ih hrest ?_
    cases e with
    | run j =>
      obtain ⟨hwaiting, rfl⟩ := (systemStep_run hdisk).1 hu
      have hij : i ≠ j := by
        rintro rfl
        exact nomatch hwaiting.symm.trans hi
      exact (SystemState.move_phase_of_ne _ _ hij _).trans hi
    | compare j =>
      obtain ⟨s, hran, rfl⟩ := systemStep_compare.1 hu
      have hij : i ≠ j := by
        rintro rfl
        exact nomatch hran.symm.trans hi
      exact (SystemState.move_phase_of_ne _ _ hij _).trans hi

/-- **The verdict a test comes to along a run** is the one that the writer
before its comparison gives it. -/
theorem Runs.verdict (hdisk : disk.Usual) {es : List (Event ι)} {i : ι} {b : Bool} :
    ∀ {st st' : SystemState ι File} {w : Option ι}, Runs disk T files st w →
      systemRun disk T st es = some st' → (∀ b, st.phase i ≠ .finished b) →
        st'.phase i = .finished b →
          (b = true ↔ PassesWith disk.resolve T files i (writerAt T i w es)) := by
  induction es with
  | nil =>
    rintro st st' w - hrun hnot hi
    obtain rfl := Option.some.inj hrun
    exact absurd hi (hnot b)
  | cons e es ih =>
    rintro st st' w h hrun hnot hi
    obtain ⟨u, hu, hrest⟩ := Option.bind_eq_some_iff.1 hrun
    cases e with
    | run j =>
      have hnext := h.run hdisk hu
      obtain ⟨hwaiting, rfl⟩ := (systemStep_run hdisk).1 hu
      rw [writerAt]
      by_cases hij : i = j
      · subst hij
        by_cases h0 : (T i).copy = .build ∧ (T i).outcome.exitCode = 0
        · refine ih hnext hrest (fun b => ?_) hi
          rw [SystemState.move_phase_self, if_pos h0]
          exact fun h => nomatch h
        · -- the first step fails, and with it the test, whatever is written later
          have hfinished := @systemRun_finished _ _ _ _ disk T hdisk es i false _ _ hrest
            (by rw [SystemState.move_phase_self, if_neg h0])
          obtain rfl := Phase.finished.inj (hi.symm.trans hfinished)
          exact iff_of_false Bool.false_ne_true fun hpasses => h0 ⟨hpasses.1, hpasses.2.1⟩
      · refine ih hnext hrest (fun b => ?_) hi
        rw [SystemState.move_phase_of_ne _ _ hij]
        exact hnot b
    | compare j =>
      have hnext := h.compare hu
      obtain ⟨s, hran, rfl⟩ := systemStep_compare.1 hu
      rw [writerAt]
      by_cases hij : j = i
      · subst hij
        have hfinished := @systemRun_finished _ _ _ _ disk T hdisk es j _ _ _ hrest
          (SystemState.move_phase_self _ _ _ _)
        obtain rfl := Phase.finished.inj (hi.symm.trans hfinished)
        rw [if_pos rfl]
        exact h.passes_compareOutput hran
      · rw [if_neg hij]
        refine ih hnext hrest (fun b => ?_) hi
        rw [SystemState.move_phase_of_ne _ _ (Ne.symm hij)]
        exact hnot b

/-- Alone, a test passes with what it has written itself. -/
theorem alone_iff (hdisk : disk.Usual) (i : ι) (files : Files File) :
    (T i).alone disk files = true ↔ PassesWith disk.resolve T files i (some i) := by
  rw [(T i).alone_eq, (T i).runStep_eq hdisk]
  by_cases h0 : (T i).copy = .build ∧ (T i).outcome.exitCode = 0
  · have hstep : systemStep disk T (SystemState.initial files) (.run i) = some _ :=
      (systemStep_run hdisk).2 ⟨rfl, rfl⟩
    have hruns := (Runs.initial files).run hdisk hstep
    simp only [if_pos h0.1, if_pos h0] at hruns
    rw [if_pos h0, if_pos h0.1]
    exact hruns.passes_compareOutput (SystemState.move_phase_self _ _ _ _)
  · rw [if_neg h0]
    exact iff_of_false Bool.false_ne_true fun hpasses => h0 ⟨hpasses.1, hpasses.2.1⟩

/-- **A test is undisturbed** in the order of the events: it is CTest's, its program
fails, its expected file is the output file, or what stands in the output file at its
comparison compares with the expected text as its own output does. -/
def Undisturbed (resolve : String → File) (T : ι → CompareTest) (files : Files File) (i : ι)
    (es : List (Event ι)) : Prop :=
  (T i).copy = .ctest ∨ (T i).outcome.exitCode ≠ 0 ∨ (T i).Aliased resolve ∨
    ((∃ j, writerAt T i none es = some j ∧
      (T i).expected resolve files = some (T j).outcome.stdout) ↔
        (T i).expected resolve files = some (T i).outcome.stdout)

/-- **The program does what is expected**: it exits with 0 and prints the expected
text. -/
def CompareTest.Meets (T : CompareTest) (resolve : String → File) (files : Files File) : Prop :=
  T.outcome.exitCode = 0 ∧ T.expected resolve files = some T.outcome.stdout

/-- **A test's verdict is the one it comes to alone exactly where it is
undisturbed.** Alone, a copy of the build passes exactly where its program does what
is expected, and a copy of CTest never does. -/
theorem verdict_alone_iff (disk : Disk File) (hdisk : disk.Usual) (T : ι → CompareTest)
    (files : Files File) (es : List (Event ι)) (st : SystemState ι File)
    (hrun : systemRun disk T (.initial files) es = some st) (i : ι) (b : Bool)
    (hfinished : st.phase i = .finished b) :
    (b = (T i).alone disk files ↔ Undisturbed disk.resolve T files i es) ∧
    (¬ (T i).Aliased disk.resolve →
      (((T i).alone disk files = true ↔ (T i).Meets disk.resolve files) ↔
        (T i).copy = .build ∨ ¬ (T i).Meets disk.resolve files)) := by
  have hverdict := (Runs.initial files).verdict hdisk hrun (fun _ => Phase.noConfusion) hfinished
  have halone : (T i).alone disk files = true ↔ PassesWith disk.resolve T files i (some i) :=
    alone_iff hdisk i files
  refine ⟨?_, fun hdistinct => ?_⟩
  · rw [Bool.eq_iff_iff, hverdict, halone, Undisturbed, PassesWith, PassesWith]
    cases hcopy : (T i).copy with
    | ctest => simp
    | build =>
      by_cases h0 : (T i).outcome.exitCode = 0
      · by_cases ha : (T i).Aliased disk.resolve
        · simp [h0, ha]
        · simp [h0, ha]
      · simp [h0]
  · have hpasses : PassesWith disk.resolve T files i (some i) ↔
        (T i).copy = .build ∧ (T i).Meets disk.resolve files := by
      rw [PassesWith, CompareTest.Meets]
      simp [hdistinct]
    rw [halone, hpasses]
    by_cases hcopy : (T i).copy = .build
    · simp [hcopy]
    · simp [hcopy]

end Runs

/-! ## Two tests -/

/-- A call in the project's directory registers its command line for the build. -/
theorem registeredCompare {target expect : String}
    (h : KeywordCall projectScope ["TARGET", "EXPECT"] ["TARGET", target, "EXPECT", expect])
    (htarget : option ["TARGET", "EXPECT"] ["TARGET", target, "EXPECT", expect] "TARGET" = [target])
    (hexpect : option ["TARGET", "EXPECT"] ["TARGET", target, "EXPECT", expect] "EXPECT" = [expect])
    (habsolute : isAbsolute expect = true) :
    RegisteredCompare .build
      (compareCommand binProject projectScope buildLocation target expect) := by
  obtain ⟨⟨s', rules⟩, hcall, hrules⟩ :=
    zilliansAddCompareOutputTest_returns binProject target expect h htarget
  refine ⟨binProject, projectScope, _, s', rules, hcall, "runtest-" ++ target, [target], ?_⟩
  rw [show rules = _ from hrules, hexpect, expectedText, joined_singleton, if_pos habsolute]
  exact List.mem_cons_of_mem _ List.mem_cons_self

/-- Two build targets that print what they are expected to, a letter each. -/
def letters : Bool → CompareTest
  | true => ⟨.build, compareCommand binProject projectScope buildLocation "a" "/a", ⟨0, "a", ""⟩,
      registeredCompare (keywordCall_projectScope (by decide) (by decide) (by decide) (by decide))
        (by decide) (by decide) (by decide), by decide +kernel⟩
  | false => ⟨.build, compareCommand binProject projectScope buildLocation "b" "/b", ⟨0, "b", ""⟩,
      registeredCompare (keywordCall_projectScope (by decide) (by decide) (by decide) (by decide))
        (by decide) (by decide) (by decide), by decide +kernel⟩

/-- The expected files. -/
def letterFiles : Files String :=
  fun path => if path = "/a" then some "a" else if path = "/b" then some "b" else none

/-- Each path is a file of its own, and those without quotes can be written. -/
def letterDisk : Disk String := ⟨id, fun path => '"' ∉ path.toList⟩

theorem letterDisk_usual : letterDisk.Usual := ⟨by decide, by decide⟩

/-- A run of the two and the verdict it gives the first one. -/
theorem letters_run (es : List (Event Bool)) (b : Bool)
    (h : ((systemRun letterDisk letters (.initial letterFiles) es).map fun st =>
      (st.phase true).verdict) = some (some b)) :
    ∃ st, systemRun letterDisk letters (.initial letterFiles) es = some st ∧
      st.phase true = .finished b := by
  obtain ⟨st, hst, hverdict⟩ := Option.map_eq_some_iff.1 h
  exact ⟨st, hst, Phase.eq_finished hverdict⟩

/-- One after the other, the first is undisturbed. -/
theorem verdict_alone_letters :
    let es : List (Event Bool) := [.run true, .compare true, .run false, .compare false]
    let alone := (letters true).alone letterDisk letterFiles
    (∃ st, systemRun letterDisk letters (.initial letterFiles) es = some st ∧
      st.phase true = .finished true) ∧
    (true = alone ↔ Undisturbed letterDisk.resolve letters letterFiles true es) ∧
    (¬ (letters true).Aliased letterDisk.resolve →
      ((alone = true ↔ (letters true).Meets letterDisk.resolve letterFiles) ↔
        (letters true).copy = .build ∨
          ¬ (letters true).Meets letterDisk.resolve letterFiles)) := by
  intro es alone
  obtain ⟨st, hrun, hphase⟩ := letters_run es true (by decide +kernel)
  exact ⟨⟨st, hrun, hphase⟩,
    verdict_alone_iff letterDisk letterDisk_usual letters letterFiles es st hrun true true hphase⟩

/-- **Side by side they disturb each other.** Both programs run before either
output is compared: the first test reads the second one's letter and fails,
though alone it passes. -/
theorem letters_disturbed :
    (∃ st, systemRun letterDisk letters (.initial letterFiles)
        [.run true, .run false, .compare true, .compare false] = some st ∧
      st.phase true = .finished false) ∧
    (letters true).alone letterDisk letterFiles = true ∧
      (letters true).Meets letterDisk.resolve letterFiles :=
  ⟨letters_run _ _ (by decide +kernel), by decide +kernel, rfl, by decide +kernel⟩

end Tests

end Supercell
