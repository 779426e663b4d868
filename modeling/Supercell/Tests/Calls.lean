import Supercell.Options.Keywords
import Supercell.Tests.Macros

/-!
# Calls with plain arguments

What the test macros read from their arguments, for the calls that
`KeywordCall` describes: each option is the section of its keyword, and the
rules that are registered are spelt out.
-/

namespace Supercell

namespace Tests

open CMake CMake.Scope Options Hashmap Sections

/-- The variables the test macros keep their options and counters in. -/
def testVariables : List String :=
  ["__target", "__number_of_targets", "__number_of_target", "__shell", "__number_of_shell",
    "__depends", "__number_of_depends", "__expect_fail", "__pattern", "__mode", "__expect",
    "__subject_name", "__number_of_subject_names", "__subject_parent",
    "__number_of___subject_parent", "__subject_child", "__number_of_subject_child"] ++
      parseVariables

/-- A section of the arguments, as an option. -/
abbrev option (keywords argn : List String) (k : String) : List String :=
  part keywords "default" argn k

variable {s t : Scope} {keywords argn : List String} {k out count : String}

/-- A test variable that an option can be read into. -/
structure TestVariable (out : String) : Prop where
  mem : out ∈ testVariables
  own : Own scratch out
  ne_sets : out ≠ "__options_set"

instance : DecidablePred TestVariable := fun out =>
  decidable_of_iff (out ∈ testVariables ∧ Own scratch out ∧ out ≠ "__options_set")
    ⟨fun h => ⟨h.1, h.2.1, h.2.2⟩, fun h => ⟨h.1, h.2, h.3⟩⟩

/-- Reading an option writes test variables only. -/
theorem agreesOff_testVariables (hout : TestVariable out) (h : AgreesOff (out :: putScratch) s t) :
    AgreesOff testVariables s t := by
  refine h.mono fun x hx => ?_
  rcases List.mem_cons.1 hx with rfl | hx
  · exact hout.mem
  · exact (by decide : ∀ x ∈ putScratch, x ∈ testVariables) x hx

/-- **The check of a counter** lets 1 pass. -/
theorem checkCount_eq (hquiet : Quiet t) {n : ℕ} (hnumber : t count = some (numeral n)) :
    checkCount t count = if n = 1 then .ok () else if n = 0 then
      .error (.fatal "no target declared!")
      else .error (.fatal "can't declare more than one target!") := by
  have hgreater : t.numGreater count "1" = decide ((1 : ℤ) < n) :=
    hquiet.numberless.numGreater hnumber 1
  have hequal : t.numEqual count "0" = decide ((n : ℤ) = 0) :=
    hquiet.numberless.numEqual hnumber 0
  rw [checkCount, hgreater, hequal]
  rcases Nat.lt_trichotomy n 1 with hn | rfl | hn
  · obtain rfl : n = 0 := by omega
    rfl
  · rfl
  · rw [if_pos (by simpa using hn), if_neg (by omega), if_neg (by omega)]

/-- **An option that takes one value** is read where the call gives one, and
stops the macro otherwise. -/
theorem readOne_eq (h : Parsed keywords argn t) (k out count : String) (hk : k ∈ keywords)
    (hout : TestVariable out) (hcount : TestVariable count) (hne : count ≠ out) :
    ∃ u, u.HoldsValue out (option keywords argn k) ∧
      u count = some (numeral (option keywords argn k).length) ∧
        Parsed keywords argn u ∧ AgreesOff (count :: out :: putScratch) t u ∧
          readOne t k out count = if (option keywords argn k).length = 1 then .ok u
            else if (option keywords argn k).length = 0 then .error (.fatal "no target declared!")
            else .error (.fatal "can't declare more than one target!") := by
  obtain ⟨u, hget, hu, hparsed, hframe⟩ := getOption_returns h k out hk hout.own hout.ne_sets
  have hlast := (AgreesOff.refl [count] u).assign (x := count) (by simp)
    (numeral (option keywords argn k).length)
  have hcounted := hparsed.agreesOff hlast (by simpa using hcount.ne_sets.symm)
    (by simpa using hcount.own.not_isRead)
  refine ⟨u.assign count (numeral (option keywords argn k).length),
    hu.toHoldsValue.agreesOff hlast (by simpa using hne.symm), assign_self _ _ _, hcounted,
    (hframe.mono (by simp +contextual)).trans (hlast.mono (by simp)), ?_⟩
  rw [readOne, hget, ok_bind]
  simp only [hu.toHolds.listLength]
  rw [checkCount_eq hcounted.quiet (assign_self _ _ _)]
  split
  · rfl
  · split <;> rfl

theorem readOne_returns (h : Parsed keywords argn t) (k out count : String) (hk : k ∈ keywords)
    (hout : TestVariable out) (hcount : TestVariable count) (hne : count ≠ out) {v : String}
    (hv : option keywords argn k = [v]) :
    Returns (readOne t k out count) fun u =>
      u.HoldsValue out [v] ∧ Parsed keywords argn u ∧ AgreesOff (count :: out :: putScratch) t u := by
  obtain ⟨u, hu, -, hparsed, hframe, heq⟩ := readOne_eq h k out count hk hout hcount hne
  rw [heq, hv]
  exact Returns.ok ⟨hv ▸ hu, hparsed, hframe⟩

/-- Reading and counting an option writes test variables only. -/
theorem agreesOff_testVariables_cons (hout : TestVariable out) (hcount : TestVariable count)
    (h : AgreesOff (count :: out :: putScratch) s t) : AgreesOff testVariables s t := by
  refine h.mono fun x hx => ?_
  rcases List.mem_cons.1 hx with rfl | hx
  · exact hcount.mem
  · rcases List.mem_cons.1 hx with rfl | hx
    · exact hout.mem
    · exact (by decide : ∀ x ∈ putScratch, x ∈ testVariables) x hx

theorem agreesOff_of_parse (h : AgreesOff parseVariables s t) : AgreesOff testVariables s t :=
  h.mono fun _ hx => List.mem_append_right _ hx

/-! ## What is registered -/

/-- A location variable is none whose name begins otherwise. -/
theorem location_ne {x : String} (h : ¬ "__location_".toList <+: x.toList) (target : String) :
    x ≠ "__location_" ++ target := by
  rintro rfl
  exact h (by simp)

/-- A runner's command line depends on two of the project's variables. -/
theorem runnerCommand_congr {N : List String} (h : AgreesOff N s t) (hcmake : "CMAKE_COMMAND" ∉ N)
    (hpath : "ZILLIANS_SCRIPT_PATH" ∉ N) (arguments : List String) (script : Runner) :
    runnerCommand t arguments script = runnerCommand s arguments script := by
  unfold runnerCommand Scope.expand
  rw [h.value hcmake, h.value hpath]

section Registered

variable (p : Project) {target : String}

/-- The location of the target, in the scope the command lines are written
in. -/
theorem getLocation_eq (ht : t.Holds "__target" [target]) :
    (getLocation p t).value "__target" = target ∧
      locationProgram (getLocation p t) =
          definitionWords "TEST_PROG" ":STRING" (p.location target) ∧
        ∀ arguments script, runnerCommand (getLocation p t) arguments script =
          runnerCommand t arguments script := by
  have htarget : t.value "__target" = target := ht.text.trans (joined_singleton _)
  have hkept : (getLocation p t).value "__target" = target := by
    rw [getLocation, value_assign_of_ne _ (location_ne (by decide) _), htarget]
  refine ⟨hkept, ?_, fun arguments script => ?_⟩
  · rw [locationProgram, hkept, getLocation, htarget, value_assign_self]
  · refine runnerCommand_congr (N := ["__location_" ++ t.value "__target"])
      ((AgreesOff.refl _ t).assign (by simp) _) ?_ ?_ arguments script
    · simpa using location_ne (by decide) _
    · simpa using location_ne (by decide) _

theorem simpleOptions_returns (h : KeywordCall s ["TARGET"] argn)
    (htarget : option ["TARGET"] argn "TARGET" = [target]) :
    Returns (simpleOptions s argn) fun t =>
      t.Holds "__target" [target] ∧ AgreesOff testVariables s t := by
  refine (parseOptions_returns h).bind ?_
  rintro t ⟨hparsed, hframe⟩
  refine (readOne_returns hparsed _ _ _ (by simp) (by decide) (by decide) (by decide) htarget).mono ?_
  rintro u ⟨hu, -, huframe⟩
  exact ⟨hu.toHolds, (agreesOff_of_parse hframe).trans
    (agreesOff_testVariables_cons (by decide) (by decide) huframe)⟩

/-- **What a simple test registers.** -/
theorem zilliansAddSimpleTest_returns (h : KeywordCall s ["TARGET"] argn)
    (htarget : option ["TARGET"] argn "TARGET" = [target]) :
    Returns (zilliansAddSimpleTest p s argn) fun r =>
      let command := runnerCommand s
        (definitionWords "TEST_PROG" ":STRING" (p.location target)) .run
      r.2 = [.test ("runtest-" ++ target) command,
        .target ("runtest-" ++ target) [target] (.whole command),
        .dependency "check" ("runtest-" ++ target)] := by
  refine (simpleOptions_returns h htarget).bind ?_
  rintro t ⟨ht, hframe⟩
  obtain ⟨hkept, hprogram, hcommand⟩ := getLocation_eq p ht
  refine Returns.ok ?_
  simp only [hkept, hprogram, hcommand,
    runnerCommand_congr hframe (by decide) (by decide)]

/-- The keywords of a test that matches its output. -/
theorem regexOptions_returns (h : KeywordCall s ["TARGET", "PATTERN", "MODE"] argn)
    (htarget : option ["TARGET", "PATTERN", "MODE"] argn "TARGET" = [target]) :
    Returns (regexOptions s argn) fun t =>
      t.Holds "__target" [target] ∧
        t.Holds "__pattern" (option ["TARGET", "PATTERN", "MODE"] argn "PATTERN") ∧
          t.Holds "__mode" (option ["TARGET", "PATTERN", "MODE"] argn "MODE") ∧
            AgreesOff testVariables s t := by
  refine (parseOptions_returns h).bind ?_
  rintro t ⟨hparsed, hframe⟩
  refine (readOne_returns hparsed _ _ _ (by simp) (by decide) (by decide) (by decide) htarget).bind ?_
  rintro u ⟨hu, huparsed, huframe⟩
  refine (getOption_returns huparsed "PATTERN" "__pattern" (by simp) (by decide)
    (by decide)).bind ?_
  rintro v ⟨hv, hvparsed, hvframe⟩
  refine (getOption_returns hvparsed "MODE" "__mode" (by simp) (by decide)
    (by decide)).mono ?_
  rintro w ⟨hw, -, hwframe⟩
  refine ⟨(hu.toHolds.agreesOff hvframe (by decide)).agreesOff hwframe (by decide),
    hv.toHolds.agreesOff hwframe (by decide), hw.toHolds, ?_⟩
  exact (agreesOff_of_parse hframe).trans
    ((agreesOff_testVariables_cons (by decide) (by decide) huframe).trans
      ((agreesOff_testVariables (by decide) hvframe).trans
        (agreesOff_testVariables (by decide) hwframe)))

/-- **What a test that matches its output registers.** -/
theorem zilliansAddRegexMatchOutputTest_returns
    (h : KeywordCall s ["TARGET", "PATTERN", "MODE"] argn)
    (htarget : option ["TARGET", "PATTERN", "MODE"] argn "TARGET" = [target]) :
    Returns (zilliansAddRegexMatchOutputTest p s argn) fun r =>
      let command := fun mode => runnerCommand s
        (definitionWords "TEST_PROG" ":STRING" (p.location target) ++
          definitionWords "PATTERN" ""
            (joined (option ["TARGET", "PATTERN", "MODE"] argn "PATTERN")) ++
          definitionWords mode "" (joined (option ["TARGET", "PATTERN", "MODE"] argn "MODE")))
        .runAndMatch
      r.2 = [.test ("runtest-" ++ target) (command "MATCH_MODE"),
        .target ("runtest-" ++ target) [target] (.whole (command "MATCH_TYPE")),
        .dependency "check" ("runtest-" ++ target)] := by
  refine (regexOptions_returns h htarget).bind ?_
  rintro t ⟨ht, hpattern, hmode, hframe⟩
  obtain ⟨hkept, hprogram, hcommand⟩ := getLocation_eq p ht
  have hvalue : ∀ x ∈ ["__pattern", "__mode"], (getLocation p t).value x = t.value x := by
    intro x hx
    rw [getLocation, value_assign_of_ne]
    exact location_ne ((by decide : ∀ x ∈ ["__pattern", "__mode"],
      ¬ "__location_".toList <+: x.toList) x hx) _
  refine Returns.ok ?_
  simp only [hkept, matchArguments, hprogram, hcommand, hvalue "__pattern" (by simp),
    hvalue "__mode" (by simp), hpattern.text, hmode.text,
    runnerCommand_congr hframe (by decide) (by decide)]

theorem compareOptions_returns (h : KeywordCall s ["TARGET", "EXPECT"] argn)
    (htarget : option ["TARGET", "EXPECT"] argn "TARGET" = [target]) :
    Returns (compareOptions s argn) fun t =>
      t.Holds "__target" [target] ∧
        t.Holds "__expect" (option ["TARGET", "EXPECT"] argn "EXPECT") ∧
          AgreesOff testVariables s t := by
  refine (parseOptions_returns h).bind ?_
  rintro t ⟨hparsed, hframe⟩
  refine (readOne_returns hparsed _ _ _ (by simp) (by decide) (by decide) (by decide) htarget).bind ?_
  rintro u ⟨hu, huparsed, huframe⟩
  refine (getOption_returns huparsed "EXPECT" "__expect" (by simp) (by decide)
    (by decide)).mono ?_
  rintro v ⟨hv, -, hvframe⟩
  exact ⟨hu.toHolds.agreesOff hvframe (by decide), hv.toHolds, (agreesOff_of_parse hframe).trans
    ((agreesOff_testVariables_cons (by decide) (by decide) huframe).trans
      (agreesOff_testVariables (by decide) hvframe))⟩

/-- The file a test's output is compared with, from the section that names
it. -/
def expectedText (s : Scope) (expect : List String) : String :=
  if isAbsolute (joined expect) then joined expect
  else s.value "CMAKE_CURRENT_SOURCE_DIR" ++ "/" ++ joined expect

/-- A command line of a test that compares its output. -/
def compareCommand (p : Project) (s : Scope) (location : List String) (target expected : String) :
    RunnerCommand :=
  runnerCommand s (definitionWords "TEST_PROG" ":STRING" (p.location target) ++ location ++
    definitionWords "EXPECTED_OUTPUT" "" expected) .runAndCompare

/-- The two registrations. -/
def compareRules (p : Project) (s : Scope) (target expected : String) : List Rule :=
  [.test ("runtest-" ++ target) (compareCommand p s testLocation target expected),
    .target ("runtest-" ++ target) [target]
      (.whole (compareCommand p s buildLocation target expected)),
    .dependency "check" ("runtest-" ++ target)]

theorem expectedOutput_eq {expect : List String} (h : t.Holds "__expect" expect)
    (hsettable : Settable expect) :
    expectedOutput t = .ok (t.assign "__expected_output" (expectedText t expect)) := by
  rw [expectedOutput, expectedText, h.text]
  split
  · rename_i habsolute
    have hne : expect ≠ [] := by
      rintro rfl
      exact absurd habsolute (by decide)
    rw [h.expand, hsettable.set, if_neg hne]
  · rfl

/-- **What a test that compares its output registers.** The first two
arguments are not looked at. -/
theorem zilliansAddCompareOutputTest_returns (name output : String)
    (h : KeywordCall s ["TARGET", "EXPECT"] argn)
    (htarget : option ["TARGET", "EXPECT"] argn "TARGET" = [target]) :
    Returns (zilliansAddCompareOutputTest p s (name :: output :: argn)) fun r =>
      r.2 = compareRules p s target
        (expectedText s (option ["TARGET", "EXPECT"] argn "EXPECT")) := by
  refine (compareOptions_returns h htarget).bind ?_
  rintro t ⟨ht, htexpect, hframe⟩
  obtain ⟨hkept, hprogram, hcommand⟩ := getLocation_eq p ht
  have hlocated : AgreesOff ["__location_" ++ t.value "__target"] t (getLocation p t) :=
    (AgreesOff.refl _ t).assign (by simp) _
  have hexpect : (getLocation p t).Holds "__expect"
      (option ["TARGET", "EXPECT"] argn "EXPECT") :=
    htexpect.agreesOff hlocated (by simpa using location_ne (by decide) _)
  have hsettable : Settable (option ["TARGET", "EXPECT"] argn "EXPECT") :=
    settable_of_notMem
      (fun hmem => h.no_keyword _ ((sublist_part _ _).subset hmem) (by simp))
      (fun hmem => h.no_keyword _ ((sublist_part _ _).subset hmem) (by simp))
  have htext : expectedText (getLocation p t) (option ["TARGET", "EXPECT"] argn "EXPECT") =
      expectedText s (option ["TARGET", "EXPECT"] argn "EXPECT") := by
    rw [expectedText, expectedText, hlocated.value (x := "CMAKE_CURRENT_SOURCE_DIR")
      (by simpa using location_ne (by decide) _), hframe.value (by decide)]
  simp only [expectedOutput_eq hexpect hsettable, ok_bind, htext]
  generalize expectedText s (option ["TARGET", "EXPECT"] argn "EXPECT") = expected
  have hassign : AgreesOff ["__expected_output"] (getLocation p t)
      ((getLocation p t).assign "__expected_output" expected) :=
    (AgreesOff.refl _ _).assign (by simp) _
  have hlocation : locationProgram ((getLocation p t).assign "__expected_output" expected) =
      locationProgram (getLocation p t) := by
    unfold locationProgram
    rw [hassign.value (x := "__target") (by decide), hassign.value]
    simpa using (location_ne (x := "__expected_output") (by decide) _).symm
  refine Returns.ok ?_
  simp only [compareArguments, hlocation, hprogram, hassign.value (x := "__target") (by decide),
    hkept, value_assign_self, runnerCommand_congr hassign (by decide) (by decide), hcommand,
    runnerCommand_congr hframe (by decide) (by decide), compareRules, compareCommand]

/-- The keywords of a complex test. -/
abbrev complexKeywords : List String := ["TARGET", "SHELL", "DEPENDS", "EXPECT_FAIL"]

theorem complexOptions_returns (h : KeywordCall s complexKeywords argn)
    (htarget : option complexKeywords argn "TARGET" = [target])
    (hshell : option complexKeywords argn "SHELL" ≠ []) :
    Returns (complexOptions s argn) fun t =>
      t.Holds "__target" [target] ∧
        t.HoldsValue "__shell" (option complexKeywords argn "SHELL") ∧
          t.Holds "__depends" (option complexKeywords argn "DEPENDS") ∧
            t.Holds "__expect_fail" (option complexKeywords argn "EXPECT_FAIL") ∧
              t "__number_of_depends" =
                some (numeral (option complexKeywords argn "DEPENDS").length) ∧
                Quiet t ∧ AgreesOff testVariables s t := by
  refine (parseOptions_returns h).bind ?_
  rintro t ⟨hparsed, hframe⟩
  have hread : ∀ {t} k out, Parsed complexKeywords argn t → k ∈ complexKeywords →
      TestVariable out → Returns (getOption t k out) fun u =>
        u.HoldsValue out (option complexKeywords argn k) ∧ Parsed complexKeywords argn u ∧
          AgreesOff (out :: putScratch) t u := fun k out hparsed hk hout =>
    (getOption_returns hparsed k out hk hout.own hout.ne_sets).mono fun _ hu =>
      ⟨hu.1.toHoldsValue, hu.2⟩
  refine (hread "TARGET" "__target" hparsed (by simp) (by decide)).bind ?_
  rintro u ⟨hu, huparsed, huframe⟩
  refine (hread "SHELL" "__shell" huparsed (by simp) (by decide)).bind ?_
  rintro v ⟨hv, hvparsed, hvframe⟩
  refine (hread "DEPENDS" "__depends" hvparsed (by simp) (by decide)).bind ?_
  rintro w ⟨hw, hwparsed, hwframe⟩
  refine (hread "EXPECT_FAIL" "__expect_fail" hwparsed (by simp)
    (by decide)).bind ?_
  rintro x ⟨hx, hxparsed, hxframe⟩
  -- the four options, side by side
  have hxtarget : x.Holds "__target" [target] := htarget ▸ ((hu.toHolds.agreesOff hvframe
    (by decide)).agreesOff hwframe (by decide)).agreesOff hxframe (by decide)
  have hxshell : x.HoldsValue "__shell" (option complexKeywords argn "SHELL") :=
    (hv.agreesOff hwframe (by decide)).agreesOff hxframe (by decide)
  have hxdepends : x.Holds "__depends" (option complexKeywords argn "DEPENDS") :=
    hw.toHolds.agreesOff hxframe (by decide)
  -- their counters
  let counters := ["__number_of_targets", "__number_of_shell", "__number_of_depends"]
  let y := ((x.assign "__number_of_targets" (numeral ([target] : List String).length)).assign
    "__number_of_shell" (numeral (option complexKeywords argn "SHELL").length)).assign
      "__number_of_depends" (numeral (option complexKeywords argn "DEPENDS").length)
  have hy₁ : AgreesOff counters x (x.assign "__number_of_targets"
      (numeral ([target] : List String).length)) := (AgreesOff.refl _ x).assign (by decide) _
  have hy₂ : AgreesOff counters x ((x.assign "__number_of_targets"
      (numeral ([target] : List String).length)).assign "__number_of_shell"
        (numeral (option complexKeywords argn "SHELL").length)) := hy₁.assign (by decide) _
  have hy : AgreesOff counters x y := hy₂.assign (by decide) _
  have hyquiet : Quiet y := hxparsed.quiet.agreesOff hy (by decide)
  have hcounted : ((x.listLength "__target" "__number_of_targets").listLength "__shell"
      "__number_of_shell").listLength "__depends" "__number_of_depends" = y := by
    have hshell' := (hxshell.toHolds.agreesOff hy₁ (by decide)).listLength "__number_of_shell"
    have hdepends' := (hxdepends.agreesOff hy₂ (by decide)).listLength "__number_of_depends"
    rw [hxtarget.listLength, hshell', hdepends']
  have hcheck : checkCount y "__number_of_targets" = .ok () :=
    checkCount_eq hyquiet (n := 1) rfl
  have hzero : y.numEqual "__number_of_shell" "0" = false := by
    refine (hyquiet.numberless.numEqual (x := "__number_of_shell") rfl 0).trans ?_
    simpa using hshell
  simp only [hcounted, hcheck, ok_bind, hzero, Bool.false_eq_true, if_false]
  refine Returns.ok ⟨hxtarget.agreesOff hy (by decide), hxshell.agreesOff hy (by decide),
    hxdepends.agreesOff hy (by decide), hx.toHolds.agreesOff hy (by decide), rfl, hyquiet, ?_⟩
  exact (agreesOff_of_parse hframe).trans ((agreesOff_testVariables (by decide) huframe).trans
    ((agreesOff_testVariables (by decide) hvframe).trans
      ((agreesOff_testVariables (by decide) hwframe).trans
        ((agreesOff_testVariables (by decide) hxframe).trans (hy.mono (by decide))))))

/-- The words of the shell command are collected as they are. -/
theorem collectCommand_returns {shell : List String} (ht : t.Holds "__shell" shell)
    (hshell : ∀ w ∈ shell, w ∉ ["PARENT_SCOPE", "CACHE"]) :
    Returns (collectCommand t) fun u =>
      u.Holds "cmd_string" shell ∧ AgreesOff ["cmd_string", "cmd"] t u := by
  have hvalue : ∀ done, done <+: shell → IsValue done := by
    intro done hdone
    refine ⟨fun w hw => ht.words w (hdone.subset hw), settable_of_notMem ?_ ?_⟩
    · exact fun hmem => hshell _ (hdone.subset hmem) (by simp)
    · exact fun hmem => hshell _ (hdone.subset hmem) (by simp)
  rw [collectCommand, ht.expand]
  refine foreach_returns (fun done u => u.Holds "cmd_string" done ∧
    AgreesOff ["cmd_string", "cmd"] t u)
      ⟨Holds.of_unset, (AgreesOff.refl _ t).unset (by simp)⟩ ?_ ?_
  · rintro done w rest u hitems ⟨hu, huframe⟩
    have hword : Word w := ht.words w (by simp [hitems])
    have hcollected : (u.assign "cmd" w).expand "cmd_string" = done := by
      rw [Scope.expand, value_assign_of_ne _ (by decide), ← Scope.expand, hu.expand]
    rw [hcollected, expand_of_value_eq (value_assign_self _ _ _) hword]
    refine ((hvalue (done ++ [w]) ⟨rest, by simp [hitems]⟩).set_returns _ _).mono ?_
    rintro v ⟨hv, hvframe⟩
    exact ⟨hv.toHolds, (huframe.assign (by simp) w).trans (hvframe.mono (by simp))⟩
  · rintro u ⟨hu, huframe⟩
    exact ⟨hu.agreesOff ((AgreesOff.refl ["cmd"] u).assign (by simp) _) (by decide),
      huframe.assign (by simp) _⟩

/-- The command line of a runner is a list that `set()` takes for values. -/
theorem set_words_returns (c : RunnerCommand) {w : String} (hc : c.arguments.getLast? = some w)
    (hw : w ≠ "CACHE") : Returns (t.set "cmd_string" c.words) fun u =>
      AgreesOff ["cmd_string"] t u := by
  obtain ⟨ws, hws⟩ := List.getLast?_eq_some_iff.1 hc
  have hslash : ∀ {w : String}, '/' ∉ w.toList →
      c.directory ++ "/" ++ c.script.file ≠ w := by
    rintro w hw rfl
    simp at hw
  have hreverse : c.words.reverse = (c.directory ++ "/" ++ c.script.file) :: "-P" :: w ::
      (c.cmake ++ ws).reverse := by
    rw [RunnerCommand.words, hws]
    simp
  have hsettable : Settable c.words := by
    refine ⟨?_, ?_⟩
    · rw [← List.head?_reverse, hreverse]
      simpa using hslash (by decide)
    · rw [isCacheForm, hreverse]
      split
      · rename_i heq
        exact absurd (List.cons.inj heq).1 (hslash (by decide))
      · rename_i heq
        obtain ⟨-, h₂⟩ := List.cons.inj heq
        obtain ⟨-, h₃⟩ := List.cons.inj h₂
        obtain ⟨rfl, -⟩ := List.cons.inj h₃
        simpa using hw
      · rfl
  rw [hsettable.set, Returns.ok_iff]
  split
  · exact (AgreesOff.refl _ t).unset (by simp)
  · exact (AgreesOff.refl _ t).assign (by simp) _

/-- The definitions of a complex test, but for its program. -/
def expectDefinitions (expect : List String) : List Definition :=
  if isOff (joined expect) then [] else [.quoted "EXPECT_FAIL" "" "TRUE"]

/-- **What the build target of a complex test runs**, from the words of the shell
command and of the `EXPECT_FAIL` option. -/
def complexTarget (s : Scope) (shell expect : List String) : RunnerCommand :=
  runnerCommand s ((Definition.quoted "TEST_PROG" ":STRING" (joined shell) ::
    expectDefinitions expect).map Definition.word) .run

/-- The words that `add_custom_target` is given for it. -/
def complexTargetWords (s : Scope) (shell expect : List String) : List String :=
  (runnerCommand s (definitionWords "TEST_PROG" ":STRING" ("\"" ++ joined shell ++ "\"") ++
    (expectDefinitions expect).flatMap fun d =>
      definitionWords d.name d.type ("\"" ++ d.text ++ "\"")) .run).words

/-- `DEPENDS depends`, where there are any. -/
def dependsWords (depends : List String) : List String :=
  if depends = [] then [] else "DEPENDS" :: depends

theorem isDepends_dependsWords {depends : List String}
    (h : ∀ w ∈ depends, w ∉ targetKeywords) : IsDepends (dependsWords depends) := by
  unfold dependsWords
  split
  · exact .inl rfl
  · exact .inr ⟨depends, rfl, h⟩

/-- What `add_custom_target` reads. -/
def complexTargetRead (s : Scope) (shell depends expect : List String) :
    Except Stop CustomCommand :=
  addCustomTarget (dependsWords depends ++ "COMMAND" :: complexTargetWords s shell expect)

/-- The command of the build target. -/
def complexTargetCommand (s : Scope) (shell expect : List String) (read : CustomCommand) :
    TargetCommand :=
  if read.commands = [complexTargetWords s shell expect] then .whole (complexTarget s shell expect)
  else .torn read.commands

/-- The words that `add_custom_target` may take for keywords are those of `cmake`
and the inner ones of the shell command. -/
theorem exists_keyword_iff {shell : List String} (hshell : ∀ w ∈ shell, Word w)
    (expect : List String) :
    (∃ w ∈ complexTargetWords s shell expect, w ∈ targetKeywords) ↔
      ∃ w ∈ s.expand "CMAKE_COMMAND" ++ shell.tail.dropLast, w ∈ targetKeywords := by
  have hexpect : ∀ w ∈ (expectDefinitions expect).flatMap fun d =>
      definitionWords d.name d.type ("\"" ++ d.text ++ "\""), w ∉ targetKeywords := by
    unfold expectDefinitions
    split
    · simp
    · decide +kernel
  have hscript : ∀ script : Runner,
      s.value "ZILLIANS_SCRIPT_PATH" ++ "/" ++ script.file ∉ targetKeywords := fun script hw =>
    (by decide : ∀ k ∈ targetKeywords, '/' ∉ k.toList) _ hw (by simp)
  have hframed := @definitionWords_quoted shell "TEST_PROG" ":STRING" (by decide) hshell
  have hinner := @exists_mem_framed_iff "-DTEST_PROG:STRING=\"" "\"" shell '"' targetKeywords
    (by decide) (by decide) (by decide)
  rw [complexTargetWords, runnerCommand, RunnerCommand.words, hframed]
  simp only [List.mem_append, or_and_right, exists_or]
  rw [show "-D" ++ "TEST_PROG" ++ ":STRING" ++ "=\"" = "-DTEST_PROG:STRING=\"" by decide, hinner]
  constructor
  · rintro ((h | h | ⟨w, hw, hkeyword⟩) | ⟨w, hw, hkeyword⟩)
    · exact .inl h
    · exact .inr h
    · exact absurd hkeyword (hexpect w hw)
    · rcases List.mem_cons.1 hw with rfl | hw
      · exact absurd hkeyword (by decide)
      · exact absurd (List.mem_singleton.1 hw ▸ hkeyword) (hscript .run)
  · rintro (h | h)
    · exact .inl (.inl h)
    · exact .inl (.inr (.inl h))

/-- The last argument in front of the script. -/
theorem getLast?_expectDefinitions {ws : List String} (hws : ws ≠ [])
    (hlast : ∀ w ∈ ws.getLast?, w ≠ "CACHE") (expect : List String) :
    ∃ w, (ws ++ (expectDefinitions expect).flatMap fun d =>
      definitionWords d.name d.type ("\"" ++ d.text ++ "\"")).getLast? = some w ∧ w ≠ "CACHE" := by
  unfold expectDefinitions
  split
  · obtain ⟨w, hw⟩ := List.getLast?_isSome.2 hws |> Option.isSome_iff_exists.1
    exact ⟨w, by simpa using hw, hlast w hw⟩
  · refine ⟨"-DEXPECT_FAIL=\"TRUE\"", ?_, by decide⟩
    rw [List.getLast?_append, show ([Definition.quoted "EXPECT_FAIL" "" "TRUE"].flatMap fun d =>
      definitionWords d.name d.type ("\"" ++ d.text ++ "\"")) = ["-DEXPECT_FAIL=\"TRUE\""] from by
        decide +kernel]
    rfl

/-- **What a complex test registers**, where `add_custom_target` takes its words. -/
theorem zilliansAddComplexTest_returns (h : KeywordCall s complexKeywords argn)
    (htarget : option complexKeywords argn "TARGET" = [target])
    (hshell : option complexKeywords argn "SHELL" ≠ []) :
    let shell := option complexKeywords argn "SHELL"
    let depends := option complexKeywords argn "DEPENDS"
    let expect := option complexKeywords argn "EXPECT_FAIL"
    (∀ e, complexTargetRead s shell depends expect = .error e →
      zilliansAddComplexTest p s argn = .error e) ∧
    ∀ read, complexTargetRead s shell depends expect = .ok read →
      Returns (zilliansAddComplexTest p s argn) fun r =>
        r.2 = .test ("runtest-" ++ target) (runnerCommand s
            (definitionWords "TEST_PROG" ":STRING" ("\"" ++ joined shell ++ "\"")) .run) ::
          .target ("runtest-" ++ target) read.depends
            (complexTargetCommand s shell expect read) ::
          ((if p.isTarget target then [.dependency ("runtest-" ++ target) target] else []) ++
            [.dependency "check" ("runtest-" ++ target)]) := by
  intro shell depends expect
  obtain ⟨t, htoptions, ht, htshell, htdepends, htexpect, htcount, htquiet, hframe⟩ :=
    complexOptions_returns h htarget hshell
  have hsection : ∀ w ∈ shell, w ∉ ["PARENT_SCOPE", "CACHE"] :=
    fun w hw => h.no_keyword w ((sublist_part _ _).subset hw)
  obtain ⟨u, hucollect, hu, huframe⟩ := collectCommand_returns htshell.toHolds hsection
  have huexpect : expectFail u = expectDefinitions expect := by
    have htruthy : u.truthy "__expect_fail" = !isOff (joined expect) := by
      rw [truthy, if_neg (by decide), if_neg (by decide), huframe.value (by decide), htexpect.text]
    rw [expectFail, htruthy, expectDefinitions]
    cases isOff (joined expect) with
    | true => rfl
    | false => rfl
  have hcommand : ∀ arguments, runnerCommand u arguments .run =
      runnerCommand s arguments .run := fun arguments => by
    rw [runnerCommand_congr huframe (by decide) (by decide),
      runnerCommand_congr hframe (by decide) (by decide)]
  have htargetText : u.value "__target" = target :=
    (ht.agreesOff huframe (by decide)).text.trans (joined_singleton _)
  have hword : complexCommand u = complexTarget s shell expect := by
    rw [complexCommand, hu.text, huexpect, hcommand, complexTarget]
  have hwords : complexWords u = complexTargetWords s shell expect := by
    rw [complexWords, hu.text, huexpect, hcommand, complexTargetWords]
  have hshellText : u.value "__shell" = joined shell :=
    (huframe.value (by decide)).trans htshell.text
  have hset : Returns (u.set "cmd_string" (complexTargetWords s shell expect)) fun v =>
      AgreesOff ["cmd_string"] u v := by
    have hframed := @definitionWords_quoted shell "TEST_PROG" ":STRING" (by decide)
      htshell.toHolds.words
    obtain ⟨front, hfront⟩ := getLast?_framed "-DTEST_PROG:STRING=\"" "\"" shell
    have hlast : ∀ w ∈ (framed "-DTEST_PROG:STRING=\"" "\"" shell).getLast?, w ≠ "CACHE" := by
      rintro w hw rfl
      have hend := congrArg (fun w : String => w.toList.getLast?)
        (Option.some.inj (hfront.symm.trans hw))
      simp at hend
    obtain ⟨w, hw, hne⟩ := getLast?_expectDefinitions framed_ne_nil hlast expect
    refine set_words_returns _ ?_ hne
    rw [← hw, runnerCommand, hframed]
    rfl
  obtain ⟨v, hvset, hvframe⟩ := hset
  have hvdepends : (if v.numEqual "__number_of_depends" "0" then []
      else "DEPENDS" :: v.expand "__depends") =
        dependsWords (option complexKeywords argn "DEPENDS") := by
    have hvt := huframe.trans (hvframe.mono (M := ["cmd_string", "cmd"]) (by simp))
    -- the count is zero exactly where the list is empty
    have hzero : v.numEqual "__number_of_depends" "0" =
        decide (((option complexKeywords argn "DEPENDS").length : ℤ) = 0) :=
      (htquiet.agreesOff hvt (by decide)).numberless.numEqual
        ((hvt _ (by decide)).trans htcount) 0
    rw [hzero, (htdepends.agreesOff hvt (by decide)).expand, dependsWords]
    cases option complexKeywords argn "DEPENDS" with
    | nil => rfl
    | cons d ds => rfl
  have hrun : zilliansAddComplexTest p s argn =
      complexTargetRead s shell depends expect >>= fun read =>
      .ok (v, .test ("runtest-" ++ target) (runnerCommand s
            (definitionWords "TEST_PROG" ":STRING" ("\"" ++ joined shell ++ "\"")) .run) ::
          .target ("runtest-" ++ target) read.depends
            (complexTargetCommand s shell expect read) ::
          ((if p.isTarget target then [.dependency ("runtest-" ++ target) target] else []) ++
            [.dependency "check" ("runtest-" ++ target)])) := by
    rw [zilliansAddComplexTest, htoptions, ok_bind, hucollect, ok_bind]
    simp only [hword, hwords, htargetText, hshellText, hcommand, hvset, ok_bind, hvdepends]
    rfl
  rw [hrun]
  refine ⟨fun e he => by rw [he, error_bind], fun read hread => ?_⟩
  rw [hread, ok_bind]
  exact Returns.ok rfl

end Registered

/-! ## A project -/

/-- A directory of the project, with nothing in it but what the command lines
take from it. -/
def projectScope : Scope :=
  (Scope.empty.assign "CMAKE_COMMAND" "cmake").assign "ZILLIANS_SCRIPT_PATH" "/scripts"

/-- A project whose programs are all in one directory. -/
def binProject : Project where
  location target := "/bin/" ++ target
  isTarget _ := true

theorem quiet_projectScope : Quiet projectScope := by
  refine Quiet.agreesOff (s := Scope.empty) (N := ["CMAKE_COMMAND", "ZILLIANS_SCRIPT_PATH"])
    (fun _ _ => rfl) ?_ (by decide)
  exact ((AgreesOff.refl _ _).assign (by simp) _).assign (by simp) _

theorem keywordCall_projectScope {keywords argn : List String}
    (hplain : ∀ a ∈ argn, Plain a) (hno : ∀ a ∈ argn, a ∉ ["PARENT_SCOPE", "CACHE"])
    (hkeywords : ∀ k ∈ keywords, Plain k) (hnodup : ("default" :: keywords).Nodup) :
    KeywordCall projectScope keywords argn :=
  ⟨quiet_projectScope, by decide, hplain, hno, hkeywords, hnodup⟩

end Tests

end Supercell
