import Supercell.CMake.Definitions
import Supercell.CMake.Holds

/-!
# The runner scripts

A test runs through a CMake script, `run.cmake`, `run_and_match.cmake` or
`run_and_compare.cmake`, that starts with the `-D` definitions of its command
line, executes the test program and stops with an error where the test fails.
`RunnerCommand` is such a command line.

What a script finds out about the program is its outcome. How the words of
`TEST_PROG` end up as a process is `execute`, which may also refuse them; the
regular expressions of CMake are `matchall`. Neither is part of the repository
and the scripts are modelled for any of them.
-/

namespace Supercell

namespace Tests

open CMake

/-! ## Command lines -/

inductive Runner where
  | run
  | runAndMatch
  | runAndCompare
  deriving DecidableEq, Repr

def Runner.file : Runner → String
  | run => "run.cmake"
  | runAndMatch => "run_and_match.cmake"
  | runAndCompare => "run_and_compare.cmake"

/-- `cmake arguments -P directory/script`. -/
structure RunnerCommand where
  cmake : List String
  arguments : List String
  directory : String
  script : Runner
  deriving DecidableEq, Repr

/-- The words of the command line. -/
def RunnerCommand.words (c : RunnerCommand) : List String :=
  c.cmake ++ c.arguments ++ ["-P", c.directory ++ "/" ++ c.script.file]

/-- **The variables a script starts with.** -/
def RunnerCommand.scope (c : RunnerCommand) : Except Stop Scope := do
  return defined (← readDefinitions false c.arguments)

/-! ## The scripts -/

/-- How the test program ends, and what it prints. -/
structure Outcome where
  exitCode : ℤ
  stdout : String
  stderr : String
  deriving DecidableEq, Repr

variable (execute : List String → Except Stop Outcome)

/-- The first half of `run.cmake`: the shell command becomes a list and is
executed. -/
def runTestProgram (s : Scope) : Except Stop (Scope × Outcome) := do
  let s ← s.stringReplace ' ' ';' "TEST_PROG" (s.expand "TEST_PROG")
  let outcome ← execute (s.expand "TEST_PROG")
  return (s, outcome)

/-- **`run.cmake`**. -/
def runCmake (s : Scope) : Except Stop Scope := do
  let (s, outcome) ← runTestProgram execute s
  let s := s.assign "__exit_code" (numeral outcome.exitCode)
  if s.truthy "EXPECT_FAIL" then
    if !s.truthy "__exit_code" then
      .error (.fatal "fail! (run.cmake) -- expect fail but exit code zero")
    else return s
  else if s.truthy "__exit_code" then
    .error (.fatal ("fail! (run.cmake) -- exit code == " ++ s.value "__exit_code"))
  else return s

/-- `(${MATCH_MODE} STREQUAL lower) OR (${MATCH_MODE} STREQUAL upper)`. -/
def modeIs (s : Scope) (lower upper : String) : Except Stop Bool := do
  let mode ← Scope.subject (s.expand "MATCH_MODE")
  return s.strequal mode lower || s.strequal mode upper

/-- The end of `run_and_match.cmake`: the number of matches is judged by the
mode. -/
def judgeMatches (s : Scope) : Except Stop Scope := do
  let length := s.value "length_of_matched_output_result"
  if ← modeIs s "match_for_failure" "MATCH_FOR_FAILURE" then
    if s.numGreater length "0" then
      .error (.fatal ("test failed - failure pattern matched: " ++
        s.value "matched_output_result"))
    else return s
  else if ← modeIs s "match_for_success" "MATCH_FOR_SUCCESS" then
    if s.numEqual length "0" then
      .error (.fatal "test failed - success pattern is not matched")
    else return s
  else .error (.fatal ("unrecognize match mode: " ++ s.value "MATCH_MODE"))

/-- **`run_and_match.cmake`**. -/
def runAndMatch (matchall : String → String → Option (List String)) (s : Scope) :
    Except Stop Scope := do
  let outcome ← execute (s.expand "TEST_PROG")
  let s := s.assign "output_result" outcome.stdout
  let s := s.assign "error_result" outcome.stderr
  let s := s.assign "has_error" (numeral outcome.exitCode)
  if s.truthy "has_error" then .error (.fatal "test failed - nonzero error code returned")
  else
    let s ← s.stringRegexMatchall matchall (s.expand "PATTERN" ++ ["matched_output_result"] ++
      s.expand "output_result" ++ s.expand "error_result")
    judgeMatches (s.oldListLength "matched_output_result" "length_of_matched_output_result")

/-! ## Verdicts -/

/-- A test passes when its script comes to its end. -/
def passes (result : Except Stop Scope) : Bool := result.isOk

@[simp] theorem passes_ok (s : Scope) : passes (.ok s) = true := rfl

@[simp] theorem passes_error (e : Stop) : passes (.error e) = false := rfl

/-- **The command line has the test program run to this outcome**, by the
first half of `run.cmake`. -/
def RunnerCommand.RunsTo (c : RunnerCommand) (outcome : Outcome) : Prop :=
  ∃ s t, c.scope = .ok s ∧ runTestProgram execute s = .ok (t, outcome)

/-- **The verdict of a command line**, for the two scripts that judge what the
program does and prints. With an option of another kind in it, the verdict is up
to `cmake`. -/
def RunnerCommand.passes (matchall : String → String → Option (List String))
    (cmake : List String → Bool) (c : RunnerCommand) : Bool :=
  if c.arguments.any isOption then cmake c.words
  else Tests.passes (do
    let s ← c.scope
    match c.script with
    | .run => runCmake execute s
    | .runAndMatch => runAndMatch execute matchall s
    | .runAndCompare => .error (.rejected "run_and_compare.cmake"))

/-- Without such an option the script decides. -/
theorem RunnerCommand.passes_eq {execute : List String → Except Stop Outcome}
    {matchall : String → String → Option (List String)} {cmake : List String → Bool}
    {c : RunnerCommand} (h : ∀ w ∈ c.arguments, isOption w = false) :
    c.passes execute matchall cmake = Tests.passes (do
      let s ← c.scope
      match c.script with
      | .run => runCmake execute s
      | .runAndMatch => runAndMatch execute matchall s
      | .runAndCompare => .error (.rejected "run_and_compare.cmake")) := by
  rw [RunnerCommand.passes, if_neg]
  rw [Bool.not_eq_true, List.any_eq_false]
  intro w hw
  rw [h w hw]
  exact Bool.false_ne_true

section Run

variable {execute} {s t : Scope} {outcome : Outcome}

/-- Executing the test program writes `TEST_PROG` only. -/
theorem runTestProgram_agreesOff (h : runTestProgram execute s = .ok (t, outcome)) :
    Scope.AgreesOff ["TEST_PROG"] s t := by
  unfold runTestProgram Scope.stringReplace at h
  split at h
  · exact nomatch h
  · rw [ok_bind, bind_eq_ok_iff] at h
    obtain ⟨o, -, ho⟩ := h
    obtain ⟨rfl, -⟩ := Prod.mk.inj (Except.ok.inj ho)
    exact (Scope.AgreesOff.refl _ s).assign (by simp) _

/-- **The verdict of `run.cmake`**: the exit code is 0 exactly when no failure
is expected. -/
theorem passes_runCmake (h : runTestProgram execute s = .ok (t, outcome)) :
    passes (runCmake execute s) = true ↔
      (outcome.exitCode = 0 ↔ s.truthy "EXPECT_FAIL" = false) := by
  have hcode : (t.assign "__exit_code" (numeral outcome.exitCode)).truthy "__exit_code" =
      decide (outcome.exitCode ≠ 0) := Scope.truthy_of_eq_numeral (by simp) (by decide)
  have hexpect : (t.assign "__exit_code" (numeral outcome.exitCode)).truthy "EXPECT_FAIL" =
      s.truthy "EXPECT_FAIL" := by
    rw [Scope.truthy, Scope.truthy, Scope.value_assign_of_ne _ (by decide),
      (runTestProgram_agreesOff h).value (by decide)]
  rw [runCmake, h, ok_bind]
  simp only [hcode, hexpect]
  cases s.truthy "EXPECT_FAIL" with
  | true => by_cases h0 : outcome.exitCode = 0 <;> simp [h0]
  | false => by_cases h0 : outcome.exitCode = 0 <;> simp [h0]

end Run

section Match

variable {execute} {matchall : String → String → Option (List String)} {s : Scope}
  {outcome : Outcome} {pattern mode : String}

/-- The spellings of the mode that the script knows. -/
def failureModes : List String := ["match_for_failure", "MATCH_FOR_FAILURE"]

@[inherit_doc failureModes]
def successModes : List String := ["match_for_success", "MATCH_FOR_SUCCESS"]

/-- What the search finds in the output run together, as a list. A program
that prints nothing leaves nothing to search, which the search refuses. -/
def matchedOutput (matchall : String → String → Option (List String)) (pattern : String)
    (o : Outcome) : Option String :=
  match pieces o.stdout ++ pieces o.stderr with
  | [] => none
  | input :: inputs => (matchall pattern (String.join (input :: inputs))).map joined

/-- **What `run_and_match.cmake` asks of an outcome**: exit code 0, a search
that is not refused, and a match exactly in the success mode. Matches of nothing
but semicolons do not count. -/
def MatchPasses (matchall : String → String → Option (List String)) (pattern mode : String)
    (o : Outcome) : Prop :=
  o.exitCode = 0 ∧ ∃ text, matchedOutput matchall pattern o = some text ∧
    ((∀ c ∈ text.toList, c = ';') ↔ mode ∈ failureModes)

/-- The variables of `run_and_match.cmake`. -/
def matchVariables : List String :=
  ["TEST_PROG", "PATTERN", "MATCH_MODE", "MATCH_TYPE", "output_result", "error_result",
    "has_error", "matched_output_result", "length_of_matched_output_result"]

theorem stringRegexMatchall_eq (pattern : String) (outcome : Outcome) (t : Scope)
    (h : t.expand "PATTERN" = [pattern])
    (hout : t "output_result" = some outcome.stdout)
    (herr : t "error_result" = some outcome.stderr) :
    t.stringRegexMatchall matchall (t.expand "PATTERN" ++ ["matched_output_result"] ++
        t.expand "output_result" ++ t.expand "error_result") =
      match matchedOutput matchall pattern outcome with
      | some text => .ok (t.assign "matched_output_result" text)
      | none => .error (.rejected "string sub-command REGEX, mode MATCHALL") := by
  rw [h, Scope.expand, Scope.expand, Scope.value_of_eq_some hout, Scope.value_of_eq_some herr]
  simp only [List.cons_append, List.nil_append, matchedOutput]
  cases pieces outcome.stdout ++ pieces outcome.stderr with
  | nil => rfl
  | cons input inputs =>
    simp only [Scope.stringRegexMatchall]
    cases matchall pattern (String.join (input :: inputs)) with
    | none => rfl
    | some found => rfl

/-- Where no variable has the name of a mode, the mode is compared as it was
given. -/
theorem modeIs_eq {u : Scope} (hderef : ∀ w ∈ failureModes ++ successModes, u.deref w = w)
    (hmode : u "MATCH_MODE" = some mode) (hknown : mode ∈ failureModes ++ successModes) :
    modeIs u "match_for_failure" "MATCH_FOR_FAILURE" = .ok (decide (mode ∈ failureModes)) ∧
      modeIs u "match_for_success" "MATCH_FOR_SUCCESS" =
        .ok (decide (mode ∈ successModes)) := by
  have hplain : pieces mode = [mode] ∧ mode ≠ "(" ∧ mode ∉ Scope.unaryWords :=
    (by decide : ∀ w ∈ failureModes ++ successModes,
      pieces w = [w] ∧ w ≠ "(" ∧ w ∉ Scope.unaryWords) mode hknown
  unfold modeIs
  rw [Scope.expand, Scope.value_of_eq_some hmode, hplain.1,
    Scope.subject_eq hplain.2.1 hplain.2.2]
  simp only [ok_bind, pure_eq_ok, Scope.strequal, hderef mode hknown,
    hderef "match_for_failure" (by decide), hderef "MATCH_FOR_FAILURE" (by decide),
    hderef "match_for_success" (by decide), hderef "MATCH_FOR_SUCCESS" (by decide)]
  simp [failureModes, successModes, Bool.decide_or, beq_eq_decide]

/-- The scope in which the matches are judged. -/
def searched (s : Scope) (o : Outcome) (text : String) : Scope :=
  ((((s.assign "output_result" o.stdout).assign "error_result" o.stderr).assign "has_error"
    (numeral o.exitCode)).assign "matched_output_result" text).oldListLength
      "matched_output_result" "length_of_matched_output_result"

theorem searched_agreesOff (s : Scope) (o : Outcome) (text : String) :
    Scope.AgreesOff ["output_result", "error_result", "has_error", "matched_output_result",
      "length_of_matched_output_result"] s (searched s o text) := by
  unfold searched Scope.oldListLength
  refine Scope.AgreesOff.assign ?_ (by decide) _
  refine Scope.AgreesOff.assign ?_ (by decide) _
  refine Scope.AgreesOff.assign ?_ (by decide) _
  refine Scope.AgreesOff.assign ?_ (by decide) _
  exact (Scope.AgreesOff.refl _ s).assign (by decide) _

theorem searched_length (s : Scope) (o : Outcome) (text : String) :
    searched s o text "length_of_matched_output_result" =
      some (numeral (pieces text).length) := by
  unfold searched Scope.oldListLength
  rw [Scope.assign_self, Scope.list, Scope.value_assign_self, filter_elements]

/-- The script up to the verdict on the matches. -/
theorem runAndMatch_eq (matchall : String → String → Option (List String))
    (hexecute : execute (s.expand "TEST_PROG") = .ok outcome)
    (hpattern : s.expand "PATTERN" = [pattern]) :
    (outcome.exitCode ≠ 0 → passes (runAndMatch execute matchall s) = false) ∧
      (outcome.exitCode = 0 → runAndMatch execute matchall s =
        match matchedOutput matchall pattern outcome with
        | some text => judgeMatches (searched s outcome text)
        | none => .error (.rejected "string sub-command REGEX, mode MATCHALL")) := by
  have hcode : (((s.assign "output_result" outcome.stdout).assign "error_result"
      outcome.stderr).assign "has_error" (numeral outcome.exitCode)).truthy "has_error" =
        decide (outcome.exitCode ≠ 0) := Scope.truthy_of_eq_numeral (by simp) (by decide)
  rw [runAndMatch, hexecute, ok_bind]
  simp only [hcode]
  refine ⟨fun h => by simp [h], fun h => ?_⟩
  rw [if_neg (by simp [h]), stringRegexMatchall_eq pattern outcome]
  · cases matchedOutput matchall pattern outcome with
    | none => rfl
    | some text => rfl
  · rw [← hpattern, Scope.expand, Scope.expand, Scope.value_assign_of_ne _ (by decide),
      Scope.value_assign_of_ne _ (by decide), Scope.value_assign_of_ne _ (by decide)]
  · rw [Scope.assign_of_ne _ (by decide), Scope.assign_of_ne _ (by decide), Scope.assign_self]
  · rw [Scope.assign_of_ne _ (by decide), Scope.assign_self]

/-- **The verdict on a number of matches.** -/
theorem passes_judgeMatches {u : Scope} {n : ℕ}
    (hderef : ∀ w ∈ failureModes ++ successModes, u.deref w = w)
    (hnumeral : u.deref (numeral n) = numeral n) (hzero : u.deref "0" = "0")
    (hmode : u "MATCH_MODE" = some mode) (hknown : mode ∈ failureModes ++ successModes)
    (hlength : u "length_of_matched_output_result" = some (numeral n)) :
    passes (judgeMatches u) = true ↔ (n = 0 ↔ mode ∈ failureModes) := by
  have hzero' : u.deref "0" = numeral 0 := hzero
  have hgreater : u.numGreater (numeral n) "0" = decide (0 < (n : ℤ)) := by
    rw [Scope.numGreater, Scope.numCompare_eq hnumeral hzero', Number.less_whole]
  have hequal : u.numEqual (numeral n) "0" = decide ((n : ℤ) = 0) := by
    rw [Scope.numEqual, Scope.numCompare_eq hnumeral hzero', Number.equal_whole]
  obtain ⟨hfailure, hsuccess⟩ := modeIs_eq hderef hmode hknown
  rw [judgeMatches, hfailure, hsuccess]
  simp only [ok_bind, Scope.value_of_eq_some hlength, hgreater, hequal]
  by_cases hf : mode ∈ failureModes
  · by_cases hn : n = 0
    · simp [hf, hn]
    · simp [hf, hn, Nat.pos_of_ne_zero hn]
  · have hs : mode ∈ successModes := (List.mem_append.1 hknown).resolve_left hf
    by_cases hn : n = 0 <;> simp [hf, hs, hn]

/-- Nothing but the variables of the script is defined, so no word of a
condition is. -/
theorem deref_of_clean {N : List String} {u : Scope} {w : String}
    (hclean : Scope.AgreesOff N Scope.empty u) (hw : w ∉ N) : u.deref w = w :=
  Scope.deref_of_eq_none (hclean w hw)

/-- **The verdict of `run_and_match.cmake`.** -/
theorem passes_runAndMatch (hclean : Scope.AgreesOff matchVariables Scope.empty s)
    (hexecute : execute (s.expand "TEST_PROG") = .ok outcome)
    (hpattern : s.expand "PATTERN" = [pattern]) (hmode : s "MATCH_MODE" = some mode)
    (hknown : mode ∈ failureModes ++ successModes) :
    passes (runAndMatch execute matchall s) = true ↔
      MatchPasses matchall pattern mode outcome := by
  obtain ⟨hne, heq⟩ := runAndMatch_eq matchall hexecute hpattern
  by_cases h0 : outcome.exitCode = 0
  · rw [heq h0, MatchPasses]
    cases htext : matchedOutput matchall pattern outcome with
    | none => simp
    | some text =>
      have hframe := searched_agreesOff s outcome text
      have hclean' : Scope.AgreesOff matchVariables Scope.empty (searched s outcome text) :=
        hclean.trans (hframe.mono (by decide))
      have hnumber : (searched s outcome text).Numberless :=
        Scope.Numberless.agreesOff (s := Scope.empty) (fun _ => rfl) hclean' (by decide)
      have hverdict := passes_judgeMatches (u := searched s outcome text)
        (fun w hw => deref_of_clean hclean' ((by decide : ∀ w ∈ failureModes ++ successModes,
          w ∉ matchVariables) w hw)) (hnumber.deref _) (hnumber.deref 0)
        ((hframe _ (by decide)).trans hmode) hknown (searched_length s outcome text)
      rw [hverdict, List.length_eq_zero_iff, pieces_eq_nil_iff]
      simp [h0]
  · rw [hne h0]
    simp [MatchPasses, h0]

/-- Without a mode the script cannot evaluate its condition. -/
theorem passes_runAndMatch_of_noMode (hexecute : execute (s.expand "TEST_PROG") = .ok outcome)
    (hpattern : s.expand "PATTERN" = [pattern]) (hmode : s "MATCH_MODE" = none) :
    passes (runAndMatch execute matchall s) = false := by
  obtain ⟨hne, heq⟩ := runAndMatch_eq matchall hexecute hpattern
  by_cases h0 : outcome.exitCode = 0
  · rw [heq h0]
    cases matchedOutput matchall pattern outcome with
    | none => rfl
    | some text =>
      have hnone : (searched s outcome text).expand "MATCH_MODE" = [] := by
        rw [Scope.expand, (searched_agreesOff s outcome text).value (by decide), Scope.value,
          hmode]
        decide
      simp only [judgeMatches, modeIs, hnone]
      rfl
  · exact hne h0

end Match

end Tests

end Supercell
