import Supercell.Tests.Calls

/-!
# Subjects, and the check of the arguments

The test subjects are targets that tests depend on. Their macros, and those of
the simple and the comparing test, stop unless each of certain keywords has one
value. `Behaves` says so of a macro's result. Two of the macros do not behave:
one looks at another macro's counter, and one takes its first two arguments for
positional parameters.
-/

namespace Supercell

namespace Tests

open CMake CMake.Scope Options Hashmap Sections

/-! ## The macros -/

/-- `add_dependencies(words)`. -/
def addDependencies : List String → List Rule
  | [] => []
  | target :: words => words.map (.dependency target)

/-- **`zillians_create_test_subject`**. -/
def zilliansCreateTestSubject (s : Scope) (argn : List String) :
    Except Stop (Scope × List Rule) := do
  let s ← parseOptions s ["SUBJECT"] argn
  let s ← readOne s "SUBJECT" "__subject_name" "__number_of_subject_names"
  return (s, [.subject ("testsubject-" ++ s.value "__subject_name")])

/-- The first lines of the two macros that add to a subject. -/
def targetAndSubject (s : Scope) (argn : List String) : Except Stop Scope := do
  let s ← parseOptions s ["TARGET", "SUBJECT"] argn
  let s ← readOne s "TARGET" "__target" "__number_of_target"
  readOne s "SUBJECT" "__subject_name" "__number_of_subject_names"

/-- **`zillians_add_custom_target_to_subject`**. -/
def zilliansAddCustomTargetToSubject (s : Scope) (argn : List String) :
    Except Stop (Scope × List Rule) := do
  let s ← targetAndSubject s argn
  return (s, addDependencies
    (pieces ("testsubject-" ++ s.value "__subject_name") ++ s.expand "__target"))

/-- **`zillians_add_test_to_subject`**. -/
def zilliansAddTestToSubject (s : Scope) (argn : List String) :
    Except Stop (Scope × List Rule) := do
  let s ← targetAndSubject s argn
  return (s, addDependencies
    (pieces ("testsubject-" ++ s.value "__subject_name") ++
      pieces ("runtest-" ++ s.value "__target")))

/-- **`zillians_add_subject_to_subject`**. For the parent it counts the
elements of `__target`, and checks a counter that it has not written. -/
def zilliansAddSubjectToSubject (s : Scope) (argn : List String) :
    Except Stop (Scope × List Rule) := do
  let s ← parseOptions s ["PARENT", "CHILD"] argn
  let s ← getOption s "PARENT" "__subject_parent"
  let s := s.listLength "__target" "__number_of___subject_parent"
  checkCount s "__number_of_targets"
  let s ← readOne s "CHILD" "__subject_child" "__number_of_subject_child"
  return (s, addDependencies (pieces ("testsubject-" ++ s.value "__subject_parent") ++
    pieces ("testsubject-" ++ s.value "__subject_child")))

/-! ## Behaving macros -/

/-- **The check of the arguments.** With one value for each keyword the macro
registers the rules for exactly these; with none or several it stops. -/
def Behaves (result : Except Stop (Scope × List Rule)) (values : List (List String))
    (rules : List String → List Rule) : Prop :=
  (∀ vs : List String, values = vs.map (fun v => [v]) → ∃ s', result = .ok (s', rules vs)) ∧
    ((∃ v ∈ values, v.length ≠ 1) → ∃ m, result = .error (.fatal m))

/-- The edge from a subject to something that belongs to it. -/
def memberEdges (member : String → String) (vs : List String) : List Rule :=
  vs.take 1 |>.flatMap fun target => vs.drop 1 |>.map fun subject =>
    .dependency ("testsubject-" ++ subject) (member target)

/-- The rules of a simple test. -/
def simpleRules (p : Project) (s : Scope) (vs : List String) : List Rule :=
  vs.flatMap fun target =>
    let command := runnerCommand s (definitionWords "TEST_PROG" ":STRING" (p.location target)) .run
    [.test ("runtest-" ++ target) command, .target ("runtest-" ++ target) [target] (.whole command),
      .dependency "check" ("runtest-" ++ target)]

/-- The edge from a parent to a child. -/
def subjectEdges (vs : List String) : List Rule :=
  vs.take 1 |>.flatMap fun parent => vs.drop 1 |>.map fun child =>
    .dependency ("testsubject-" ++ parent) ("testsubject-" ++ child)

variable {s t : Scope} {keywords argn : List String} {k out count : String}

/-- What `readOne` says when it does not return. -/
theorem readOne_error (h : Parsed keywords argn t) (k out count : String) (hk : k ∈ keywords)
    (hout : TestVariable out) (hcount : TestVariable count) (hne : count ≠ out)
    (hlength : (option keywords argn k).length ≠ 1) :
    ∃ m, readOne t k out count = .error (.fatal m) := by
  obtain ⟨u, -, -, -, -, heq⟩ := readOne_eq h k out count hk hout hcount hne
  rw [heq, if_neg hlength]
  split
  · exact ⟨_, rfl⟩
  · exact ⟨_, rfl⟩

/-- One value for the only keyword. -/
theorem eq_singleton_of_map {es vs : List String} (h : [es] = vs.map fun v => [v]) :
    ∃ v, vs = [v] ∧ es = [v] := by
  rcases vs with _ | ⟨v, _ | ⟨w, ws⟩⟩
  · exact nomatch h
  · exact ⟨v, rfl, (List.cons.inj h).1⟩
  · exact nomatch (List.cons.inj h).2

/-- One value for each of two keywords. -/
theorem eq_pair_of_map {es fs vs : List String} (h : [es, fs] = vs.map fun v => [v]) :
    ∃ v w, vs = [v, w] ∧ es = [v] ∧ fs = [w] := by
  rcases vs with _ | ⟨v, vs⟩
  · exact nomatch h
  · obtain ⟨rfl, hrest⟩ := List.cons.inj h
    obtain ⟨w, rfl, rfl⟩ := eq_singleton_of_map hrest
    exact ⟨v, w, rfl, rfl, rfl⟩

theorem zilliansCreateTestSubject_behaves (h : KeywordCall s ["SUBJECT"] argn) :
    Behaves (zilliansCreateTestSubject s argn) [option ["SUBJECT"] argn "SUBJECT"]
      fun vs => vs.map fun subject => .subject ("testsubject-" ++ subject) := by
  obtain ⟨t, hparse, hparsed, -⟩ := parseOptions_returns h
  rw [zilliansCreateTestSubject, hparse, ok_bind]
  refine ⟨fun vs hvs => ?_, ?_⟩
  · obtain ⟨subject, rfl, hsubject⟩ := eq_singleton_of_map hvs
    obtain ⟨u, hread, hu, -, -⟩ := readOne_returns hparsed "SUBJECT" "__subject_name"
        "__number_of_subject_names" (by simp) (by decide)
      (by decide) (by decide) hsubject
    refine ⟨u, ?_⟩
    rw [hread, ok_bind, hu.toHolds.text, joined_singleton]
    rfl
  · rintro ⟨v, hv, hlength⟩
    obtain rfl := List.mem_singleton.1 hv
    obtain ⟨m, hm⟩ := readOne_error hparsed "SUBJECT" "__subject_name"
        "__number_of_subject_names" (by simp) (by decide) (by decide) (by decide) hlength
    exact ⟨m, by rw [hm, error_bind]⟩

theorem zilliansAddSimpleTest_behaves (p : Project) (h : KeywordCall s ["TARGET"] argn) :
    Behaves (zilliansAddSimpleTest p s argn) [option ["TARGET"] argn "TARGET"]
      (simpleRules p s) := by
  refine ⟨fun vs hvs => ?_, ?_⟩
  · obtain ⟨target, rfl, htarget⟩ := eq_singleton_of_map hvs
    obtain ⟨⟨s', rules⟩, hcall, hrules⟩ := zilliansAddSimpleTest_returns p h htarget
    refine ⟨s', ?_⟩
    rw [hcall, show rules = _ from hrules]
    simp [simpleRules]
  · rintro ⟨v, hv, hlength⟩
    obtain rfl := List.mem_singleton.1 hv
    obtain ⟨t, hparse, hparsed, -⟩ := parseOptions_returns h
    obtain ⟨m, hm⟩ := readOne_error hparsed "TARGET" "__target"
        "__number_of_targets" (by simp) (by decide) (by decide) (by decide) hlength
    refine ⟨m, ?_⟩
    rw [zilliansAddSimpleTest, simpleOptions, hparse, ok_bind, hm, error_bind]

/-- The target and the subject are read where there is one of each, and the
macro stops otherwise. -/
theorem targetAndSubject_eq (h : KeywordCall s ["TARGET", "SUBJECT"] argn) :
    (∀ target subject, option ["TARGET", "SUBJECT"] argn "TARGET" = [target] →
      option ["TARGET", "SUBJECT"] argn "SUBJECT" = [subject] →
        ∃ t, targetAndSubject s argn = .ok t ∧ t.Holds "__target" [target] ∧
          t.Holds "__subject_name" [subject]) ∧
    ((∃ v ∈ [option ["TARGET", "SUBJECT"] argn "TARGET",
        option ["TARGET", "SUBJECT"] argn "SUBJECT"], v.length ≠ 1) →
      ∃ m, targetAndSubject s argn = .error (.fatal m)) := by
  obtain ⟨t, hparse, hparsed, -⟩ := parseOptions_returns h
  obtain ⟨u, hu, -, huparsed, -, hread⟩ := readOne_eq hparsed "TARGET" "__target"
        "__number_of_target" (by simp) (by decide) (by decide) (by decide)
  rw [targetAndSubject, hparse, ok_bind]
  refine ⟨fun target subject htarget hsubject => ?_, ?_⟩
  · obtain ⟨v, hsecond, hv, -, hvframe⟩ := readOne_returns huparsed "SUBJECT" "__subject_name"
        "__number_of_subject_names" (by simp) (by decide)
      (by decide) (by decide) hsubject
    rw [hread, htarget, if_pos (by rfl), ok_bind]
    exact ⟨v, hsecond, (htarget ▸ hu.toHolds).agreesOff hvframe (by decide), hv.toHolds⟩
  · rintro ⟨v, hv, hlength⟩
    by_cases hone : (option ["TARGET", "SUBJECT"] argn "TARGET").length = 1
    · have hsubject : (option ["TARGET", "SUBJECT"] argn "SUBJECT").length ≠ 1 := by
        rcases List.mem_cons.1 hv with rfl | hv
        · exact absurd hone hlength
        · rwa [List.mem_singleton.1 hv] at hlength
      obtain ⟨m, hm⟩ := readOne_error huparsed "SUBJECT" "__subject_name"
        "__number_of_subject_names" (by simp) (by decide) (by decide) (by decide)
        hsubject
      exact ⟨m, by rw [hread, if_pos hone, ok_bind, hm]⟩
    · obtain ⟨m, hm⟩ := readOne_error hparsed "TARGET" "__target"
        "__number_of_target" (by simp) (by decide) (by decide) (by decide) hone
      exact ⟨m, by rw [hm, error_bind]⟩

/-- An edge between two names, each of one word. -/
theorem addDependencies_pair {a b x y : String} (ha : Closed a) (hb : Closed b) (hx : Word x)
    (hy : Word y) : addDependencies (pieces (a ++ x) ++ pieces (b ++ y)) =
      [.dependency (a ++ x) (b ++ y)] := by
  rw [pieces_append ha hx, pieces_append hb hy]
  rfl

theorem zilliansAddCustomTargetToSubject_behaves (h : KeywordCall s ["TARGET", "SUBJECT"] argn) :
    Behaves (zilliansAddCustomTargetToSubject s argn)
      [option ["TARGET", "SUBJECT"] argn "TARGET", option ["TARGET", "SUBJECT"] argn "SUBJECT"]
      (memberEdges id) := by
  obtain ⟨hreturns, hstops⟩ := targetAndSubject_eq h
  refine ⟨fun vs hvs => ?_, fun hwrong => ?_⟩
  · obtain ⟨target, subject, rfl, htarget, hsubject⟩ := eq_pair_of_map hvs
    obtain ⟨t, ht, hheld, hheld'⟩ := hreturns target subject htarget hsubject
    have htword : Word target := hheld.words target (by simp)
    have hsword : Word subject := hheld'.words subject (by simp)
    refine ⟨t, ?_⟩
    rw [zilliansAddCustomTargetToSubject, ht, ok_bind, hheld'.text, joined_singleton, hheld.expand,
      pieces_append (by decide) hsword]
    rfl
  · obtain ⟨m, hm⟩ := hstops hwrong
    exact ⟨m, by rw [zilliansAddCustomTargetToSubject, hm, error_bind]⟩

theorem zilliansAddTestToSubject_behaves (h : KeywordCall s ["TARGET", "SUBJECT"] argn) :
    Behaves (zilliansAddTestToSubject s argn)
      [option ["TARGET", "SUBJECT"] argn "TARGET", option ["TARGET", "SUBJECT"] argn "SUBJECT"]
      (memberEdges fun target => "runtest-" ++ target) := by
  obtain ⟨hreturns, hstops⟩ := targetAndSubject_eq h
  refine ⟨fun vs hvs => ?_, fun hwrong => ?_⟩
  · obtain ⟨target, subject, rfl, htarget, hsubject⟩ := eq_pair_of_map hvs
    obtain ⟨t, ht, hheld, hheld'⟩ := hreturns target subject htarget hsubject
    refine ⟨t, ?_⟩
    rw [zilliansAddTestToSubject, ht, ok_bind, hheld'.text, hheld.text, joined_singleton,
      joined_singleton, addDependencies_pair (by decide) (by decide)
        (hheld'.words subject (by simp)) (hheld.words target (by simp))]
    rfl
  · obtain ⟨m, hm⟩ := hstops hwrong
    exact ⟨m, by rw [zilliansAddTestToSubject, hm, error_bind]⟩

/-! ## The counter of another macro -/

/-- **A counter that stops the macro**: `__number_of_targets` reads as a number
that is 0 or above 1. It is what the last macro that counted targets has left,
or what the caller has put there. -/
def StaleCounter (s : Scope) : Prop :=
  ∃ n, number? (s.deref "__number_of_targets") = some n ∧
    ((Number.whole 1).less n = true ∨ n.equal (.whole 0) = true)

/-- The check of a counter, whatever its variable holds. -/
theorem checkCount_eq_match (hquiet : Quiet s) (count : String) :
    checkCount s count = match number? (s.deref count) with
      | some n => if (Number.whole 1).less n then
          .error (.fatal "can't declare more than one target!")
        else if n.equal (.whole 0) then .error (.fatal "no target declared!") else .ok ()
      | none => .ok () := by
  have hone : s.deref "1" = "1" := hquiet.numberless.deref 1
  have hzero : s.deref "0" = "0" := hquiet.numberless.deref 0
  have hreadOne : number? "1" = some (.whole 1) := number?_numeral 1
  have hreadZero : number? "0" = some (.whole 0) := number?_numeral 0
  unfold checkCount numGreater numEqual numCompare
  rw [hone, hzero, hreadOne, hreadZero]
  cases number? (s.deref count) with
  | none => rfl
  | some n => rfl

theorem checkCount_of_staleCounter (hquiet : Quiet s) (h : StaleCounter s) :
    ∃ m, checkCount s "__number_of_targets" = .error (.fatal m) := by
  obtain ⟨n, hn, hwrong⟩ := h
  rw [checkCount_eq_match hquiet, hn]
  by_cases hlarge : (Number.whole 1).less n = true
  · exact ⟨_, if_pos hlarge⟩
  · exact ⟨_, (if_neg hlarge).trans (if_pos (hwrong.resolve_left hlarge))⟩

theorem checkCount_of_not_staleCounter (hquiet : Quiet s) (h : ¬ StaleCounter s) :
    checkCount s "__number_of_targets" = .ok () := by
  rw [checkCount_eq_match hquiet]
  cases hn : number? (s.deref "__number_of_targets") with
  | none => rfl
  | some n =>
    obtain ⟨hlarge, hne⟩ := not_or.1 fun hwrong => h ⟨n, hn, hwrong⟩
    exact (if_neg hlarge).trans (if_neg hne)

theorem staleCounter_congr (h : t "__number_of_targets" = s "__number_of_targets") :
    StaleCounter t ↔ StaleCounter s := by
  rw [StaleCounter, StaleCounter, deref, deref, h]

/-- **What `zillians_add_subject_to_subject` looks at**: the counter that was
there before the call, and the number of children. -/
theorem zilliansAddSubjectToSubject_eq (h : KeywordCall s ["PARENT", "CHILD"] argn) :
    (StaleCounter s → ∃ m, zilliansAddSubjectToSubject s argn = .error (.fatal m)) ∧
    ((option ["PARENT", "CHILD"] argn "CHILD").length ≠ 1 →
      ∃ m, zilliansAddSubjectToSubject s argn = .error (.fatal m)) ∧
    ∀ child, ¬ StaleCounter s → option ["PARENT", "CHILD"] argn "CHILD" = [child] →
      ∃ s' rules, zilliansAddSubjectToSubject s argn = .ok (s', rules) ∧
        ∀ parent, option ["PARENT", "CHILD"] argn "PARENT" = [parent] →
          rules = subjectEdges [parent, child] := by
  obtain ⟨t, hparse, hparsed, hframe⟩ := parseOptions_returns h
  obtain ⟨u, hget, hu, huparsed, huframe⟩ := getOption_returns hparsed "PARENT"
    "__subject_parent" (by simp) (by decide) (by decide)
  let v := u.listLength "__target" "__number_of___subject_parent"
  have hvframe : AgreesOff ["__number_of___subject_parent"] u v :=
    (AgreesOff.refl _ u).assign (by simp) _
  have hvparsed : Parsed ["PARENT", "CHILD"] argn v :=
    huparsed.agreesOff hvframe (by decide) (by decide)
  have hcounter : StaleCounter v ↔ StaleCounter s := by
    refine staleCounter_congr ?_
    rw [hvframe _ (by decide), huframe _ (by decide), hframe _ (by decide)]
  -- the first check reads a counter that the macro never sets
  have hrun : zilliansAddSubjectToSubject s argn = do
      checkCount v "__number_of_targets"
      let s ← readOne v "CHILD" "__subject_child" "__number_of_subject_child"
      return (s, addDependencies (pieces ("testsubject-" ++ s.value "__subject_parent") ++
        pieces ("testsubject-" ++ s.value "__subject_child"))) := by
    rw [zilliansAddSubjectToSubject, hparse, ok_bind, hget, ok_bind]
  have hstale : StaleCounter s → ∃ m, zilliansAddSubjectToSubject s argn = .error (.fatal m) := by
    intro hstale
    obtain ⟨m, hm⟩ := checkCount_of_staleCounter hvparsed.quiet (hcounter.2 hstale)
    exact ⟨m, by rw [hrun, hm, error_bind]⟩
  refine ⟨hstale, fun hlength => ?_, fun child hfresh hchild => ?_⟩
  · by_cases hs : StaleCounter s
    · exact hstale hs
    · obtain ⟨m, hm⟩ := readOne_error hvparsed "CHILD" "__subject_child"
        "__number_of_subject_child" (by simp) (by decide) (by decide) (by decide)
        hlength
      refine ⟨m, ?_⟩
      rw [hrun, checkCount_of_not_staleCounter hvparsed.quiet (mt hcounter.1 hs), ok_bind, hm,
        error_bind]
  · obtain ⟨w, hread, hw, -, hwframe⟩ := readOne_returns hvparsed "CHILD" "__subject_child"
        "__number_of_subject_child" (by simp) (by decide)
      (by decide) (by decide) hchild
    rw [hrun, checkCount_of_not_staleCounter hvparsed.quiet (mt hcounter.1 hfresh), ok_bind, hread,
      ok_bind]
    refine ⟨w, _, rfl, fun parent hparent => ?_⟩
    have hheld : w.Holds "__subject_parent" [parent] := hparent ▸
      (hu.toHolds.agreesOff hvframe (by decide)).agreesOff hwframe (by decide)
    rw [hheld.text, hw.toHolds.text, joined_singleton, joined_singleton,
      addDependencies_pair (by decide) (by decide) (hheld.words parent (by simp))
        (hw.toHolds.words child (by simp))]
    rfl

/-- **When the macro behaves**: the number of parents has to be right where the
old counter lets the call pass, and something has to be wrong where it does
not. -/
theorem zilliansAddSubjectToSubject_behaves_iff (h : KeywordCall s ["PARENT", "CHILD"] argn) :
    Behaves (zilliansAddSubjectToSubject s argn)
      [option ["PARENT", "CHILD"] argn "PARENT", option ["PARENT", "CHILD"] argn "CHILD"]
      subjectEdges ↔
    (StaleCounter s → (option ["PARENT", "CHILD"] argn "PARENT").length ≠ 1 ∨
      (option ["PARENT", "CHILD"] argn "CHILD").length ≠ 1) ∧
    (¬ StaleCounter s → (option ["PARENT", "CHILD"] argn "PARENT").length = 1 ∨
      (option ["PARENT", "CHILD"] argn "CHILD").length ≠ 1) := by
  obtain ⟨hstale, hchildren, hpasses⟩ := zilliansAddSubjectToSubject_eq h
  generalize option ["PARENT", "CHILD"] argn "PARENT" = parents at *
  generalize option ["PARENT", "CHILD"] argn "CHILD" = children at *
  -- where the condition fails, a call returns that should stop, or the reverse
  constructor
  · rintro ⟨hreturns, hstops⟩
    refine ⟨fun hs => ?_, fun hfresh => ?_⟩
    · by_contra hone
      obtain ⟨⟨parent, rfl⟩, child, rfl⟩ : (∃ v, parents = [v]) ∧ ∃ v, children = [v] := by
        simpa [List.length_eq_one_iff] using hone
      obtain ⟨s', hs'⟩ := hreturns [parent, child] rfl
      obtain ⟨m, hm⟩ := hstale hs
      exact nomatch hs'.symm.trans hm
    · by_contra hone
      obtain ⟨hparents, hchild⟩ := not_or.1 hone
      obtain ⟨child, rfl⟩ := List.length_eq_one_iff.1 (not_not.1 hchild)
      obtain ⟨s', rules, hs', -⟩ := hpasses child hfresh rfl
      obtain ⟨m, hm⟩ := hstops ⟨parents, by simp, hparents⟩
      exact nomatch hs'.symm.trans hm
  · rintro ⟨hwrong, hright⟩
    refine ⟨fun vs hvs => ?_, ?_⟩
    · obtain ⟨parent, child, rfl, rfl, rfl⟩ := eq_pair_of_map hvs
      have hfresh : ¬ StaleCounter s := fun hs => by simpa using hwrong hs
      obtain ⟨s', rules, hs', hrules⟩ := hpasses child hfresh rfl
      exact ⟨s', by rw [hs', hrules parent rfl]⟩
    · rintro ⟨v, hv, hlength⟩
      by_cases hs : StaleCounter s
      · exact hstale hs
      · refine hchildren ?_
        rcases List.mem_cons.1 hv with rfl | hv
        · exact (hright hs).resolve_left hlength
        · rwa [List.mem_singleton.1 hv] at hlength

/-! ## The positional parameters -/

/-- The keywords of a test that compares its output. -/
abbrev compareKeywords : List String := ["TARGET", "EXPECT"]

/-- **The check of the arguments of a comparing test**: with one target it is
registered, and compares with the file that the call names; with none or
several the call stops. -/
def CompareBehaves (p : Project) (s : Scope) (argn : List String) : Prop :=
  (∀ target, option compareKeywords argn "TARGET" = [target] →
    ∃ s', zilliansAddCompareOutputTest p s argn = .ok (s', compareRules p s target
      (expectedText s (option compareKeywords argn "EXPECT")))) ∧
  ((option compareKeywords argn "TARGET").length ≠ 1 →
    ∃ e, zilliansAddCompareOutputTest p s argn = .error e)

/-- What the script learns of the file. -/
def expectedWords (s : Scope) (argn : List String) : List String :=
  definitionWords "EXPECTED_OUTPUT" "" (expectedText s (option compareKeywords argn "EXPECT"))

/-- The registrations show the target and the file. -/
theorem compareRules_inj (p : Project) (s : Scope) {target target' : String}
    {expect expect' : List String}
    (h : compareRules p s target (expectedText s expect) =
      compareRules p s target' (expectedText s expect')) :
    target = target' ∧ definitionWords "EXPECTED_OUTPUT" "" (expectedText s expect) =
      definitionWords "EXPECTED_OUTPUT" "" (expectedText s expect') := by
  obtain ⟨htest, -⟩ := List.cons.inj h
  obtain ⟨hname, hcommand⟩ := Rule.test.inj htest
  obtain rfl := (String.append_right_inj _).1 hname
  exact ⟨rfl, List.append_cancel_left (congrArg RunnerCommand.arguments hcommand)⟩

/-- With fewer than two arguments no keyword has a value. -/
theorem option_eq_nil_of_length_lt {argn : List String} (h : argn.length < 2) :
    option compareKeywords argn "TARGET" = [] := by
  rcases argn with _ | ⟨a, _ | ⟨b, argn⟩⟩
  · rfl
  · rw [option, ← List.nil_append [a], part_append, inForce_nil, part_nil,
      if_neg (by rintro ⟨-, h⟩; exact absurd h (by decide))]
    rfl
  · exact absurd h (by simp)

theorem zilliansAddCompareOutputTest_of_length_ne (p : Project) (name output : String)
    (h : KeywordCall s compareKeywords argn)
    (hlength : (option compareKeywords argn "TARGET").length ≠ 1) :
    ∃ m, zilliansAddCompareOutputTest p s (name :: output :: argn) = .error (.fatal m) := by
  obtain ⟨t, hparse, hparsed, -⟩ := parseOptions_returns h
  obtain ⟨m, hm⟩ := readOne_error hparsed "TARGET" "__target"
        "__number_of_targets" (by simp) (by decide) (by decide) (by decide) hlength
  refine ⟨m, ?_⟩
  rw [zilliansAddCompareOutputTest, compareOptions, hparse, ok_bind, hm, error_bind, error_bind]

/-- **When the comparing test behaves**: the first two arguments, which the
macro does not look at, make no difference. -/
theorem zilliansAddCompareOutputTest_behaves_iff (p : Project)
    (h : KeywordCall s compareKeywords argn) :
    CompareBehaves p s argn ↔
    ((option compareKeywords argn "TARGET").length ≠ 1 ∧
      (option compareKeywords (argn.drop 2) "TARGET").length ≠ 1) ∨
    ∃ target, option compareKeywords argn "TARGET" = [target] ∧
      option compareKeywords (argn.drop 2) "TARGET" = [target] ∧
        expectedWords s argn = expectedWords s (argn.drop 2) := by
  -- too few arguments are an error of their own
  by_cases hshort : argn.length < 2
  · have hnone := option_eq_nil_of_length_lt hshort
    have hnone' : option compareKeywords (argn.drop 2) "TARGET" = [] := by
      rw [List.drop_eq_nil_of_le (Nat.le_of_lt hshort)]
      rfl
    refine iff_of_true ⟨fun target htarget => ?_, fun _ => ?_⟩ (.inl ?_)
    · exact nomatch hnone.symm.trans htarget
    · rcases argn with _ | ⟨a, _ | ⟨b, argn⟩⟩
      · exact ⟨_, rfl⟩
      · exact ⟨_, rfl⟩
      · exact absurd hshort (by simp)
    · simp [hnone, hnone']
  · obtain ⟨name, output, rest, rfl⟩ : ∃ name output rest, argn = name :: output :: rest := by
      rcases argn with _ | ⟨a, _ | ⟨b, argn⟩⟩
      · exact absurd (by simp) hshort
      · exact absurd (by simp) hshort
      · exact ⟨a, b, argn, rfl⟩
    have hrest : KeywordCall s compareKeywords rest :=
      { h with
        plain := fun a ha => h.plain a (by simp [ha])
        no_keyword := fun a ha => h.no_keyword a (by simp [ha]) }
    -- the call only sees the arguments behind the first two
    have hreturns := fun target : String =>
      @zilliansAddCompareOutputTest_returns _ _ p target name output hrest
    have hstops := zilliansAddCompareOutputTest_of_length_ne p name output hrest
    simp only [List.drop_succ_cons, List.drop_zero]
    constructor
    · rintro ⟨hregisters, hrefuses⟩
      by_cases hone : (option compareKeywords rest "TARGET").length = 1
      · obtain ⟨target, htarget⟩ := List.length_eq_one_iff.1 hone
        obtain ⟨⟨s', rules⟩, hcall, hrules⟩ := hreturns target htarget
        by_cases hall : (option compareKeywords (name :: output :: rest) "TARGET").length = 1
        · obtain ⟨target', htarget'⟩ := List.length_eq_one_iff.1 hall
          obtain ⟨t', hcall'⟩ := hregisters target' htarget'
          have hsame := congrArg Prod.snd (Except.ok.inj (hcall.symm.trans hcall'))
          obtain ⟨rfl, hdefinition⟩ :=
            compareRules_inj p s (Eq.trans (Eq.symm hrules) hsame)
          exact .inr ⟨target, htarget', htarget, hdefinition.symm⟩
        · obtain ⟨e, he⟩ := hrefuses hall
          exact nomatch hcall.symm.trans he
      · obtain ⟨m, hm⟩ := hstops hone
        refine .inl ⟨fun hall => ?_, hone⟩
        obtain ⟨target, htarget⟩ := List.length_eq_one_iff.1 hall
        obtain ⟨s', hs'⟩ := hregisters target htarget
        exact nomatch hs'.symm.trans hm
    · rintro (⟨hall, hone⟩ | ⟨target, hall, hone, hdefinition⟩)
      · obtain ⟨m, hm⟩ := hstops hone
        exact ⟨fun target htarget => absurd (by rw [htarget]; rfl) hall, fun _ => ⟨_, hm⟩⟩
      · obtain ⟨⟨s', rules⟩, hcall, hrules⟩ := hreturns target hone
        refine ⟨fun target' htarget' => ?_, fun hlength => absurd (by rw [hall]; rfl) hlength⟩
        obtain rfl : target = target' := List.singleton_inj.1 (hall.symm.trans htarget')
        refine ⟨s', ?_⟩
        have hcommand : ∀ location, compareCommand p s location target
            (expectedText s (option compareKeywords (name :: output :: rest) "EXPECT")) =
            compareCommand p s location target
              (expectedText s (option compareKeywords rest "EXPECT")) := by
          intro location
          unfold compareCommand
          rw [show definitionWords "EXPECTED_OUTPUT" "" _ = _ from hdefinition]
          rfl
        rw [hcall, show rules = _ from hrules, compareRules, compareRules, hcommand, hcommand]

/-! ## All the macros -/

/-- **Plain arguments**, none of them a keyword of `set()`, in a scope where no
condition reads a variable by accident. -/
structure PlainCall (s : Scope) (argn : List String) : Prop where
  quiet : Quiet s
  default_undefined : s "default" = none
  plain : ∀ a ∈ argn, Plain a
  no_keyword : ∀ a ∈ argn, a ∉ ["PARENT_SCOPE", "CACHE"]

theorem PlainCall.keywordCall (h : PlainCall s argn) (hkeywords : ∀ k ∈ keywords, Plain k)
    (hnodup : ("default" :: keywords).Nodup) : KeywordCall s keywords argn :=
  ⟨h.quiet, h.default_undefined, h.plain, h.no_keyword, hkeywords, hnodup⟩

/-- **Four macros behave on every call, and two on some.** -/
theorem testMacros_behave_iff (p : Project) (h : PlainCall s argn) :
    Behaves (zilliansCreateTestSubject s argn) [option ["SUBJECT"] argn "SUBJECT"]
      (fun vs => vs.map fun subject => .subject ("testsubject-" ++ subject)) ∧
    Behaves (zilliansAddCustomTargetToSubject s argn)
      [option ["TARGET", "SUBJECT"] argn "TARGET", option ["TARGET", "SUBJECT"] argn "SUBJECT"]
      (memberEdges id) ∧
    Behaves (zilliansAddTestToSubject s argn)
      [option ["TARGET", "SUBJECT"] argn "TARGET", option ["TARGET", "SUBJECT"] argn "SUBJECT"]
      (memberEdges fun target => "runtest-" ++ target) ∧
    Behaves (zilliansAddSimpleTest p s argn) [option ["TARGET"] argn "TARGET"] (simpleRules p s) ∧
    (Behaves (zilliansAddSubjectToSubject s argn)
        [option ["PARENT", "CHILD"] argn "PARENT", option ["PARENT", "CHILD"] argn "CHILD"]
        subjectEdges ↔
      (StaleCounter s → (option ["PARENT", "CHILD"] argn "PARENT").length ≠ 1 ∨
        (option ["PARENT", "CHILD"] argn "CHILD").length ≠ 1) ∧
      (¬ StaleCounter s → (option ["PARENT", "CHILD"] argn "PARENT").length = 1 ∨
        (option ["PARENT", "CHILD"] argn "CHILD").length ≠ 1)) ∧
    (CompareBehaves p s argn ↔
      ((option compareKeywords argn "TARGET").length ≠ 1 ∧
        (option compareKeywords (argn.drop 2) "TARGET").length ≠ 1) ∨
      ∃ target, option compareKeywords argn "TARGET" = [target] ∧
        option compareKeywords (argn.drop 2) "TARGET" = [target] ∧
          expectedWords s argn = expectedWords s (argn.drop 2)) :=
  ⟨zilliansCreateTestSubject_behaves (h.keywordCall (by decide) (by decide)),
    zilliansAddCustomTargetToSubject_behaves (h.keywordCall (by decide) (by decide)),
    zilliansAddTestToSubject_behaves (h.keywordCall (by decide) (by decide)),
    zilliansAddSimpleTest_behaves p (h.keywordCall (by decide) (by decide)),
    zilliansAddSubjectToSubject_behaves_iff (h.keywordCall (by decide) (by decide)),
    zilliansAddCompareOutputTest_behaves_iff p (h.keywordCall (by decide) (by decide))⟩

/-- Parent and child are named once each, in a directory where nothing has
counted targets. -/
theorem testMacros_behave_iff_parent_child :
    Behaves (zilliansAddSubjectToSubject projectScope ["PARENT", "a", "CHILD", "b"])
      [["a"], ["b"]] subjectEdges := by
  have hcall : PlainCall projectScope ["PARENT", "a", "CHILD", "b"] :=
    ⟨quiet_projectScope, by decide, by decide, by decide⟩
  have hfresh : ¬ StaleCounter projectScope := by
    rintro ⟨i, hi, -⟩
    exact nomatch hi
  obtain ⟨-, -, -, -, hiff, -⟩ := testMacros_behave_iff binProject hcall
  exact hiff.2 ⟨fun hstale => absurd hstale hfresh, fun _ => .inl (by decide)⟩

/-- **A target and a file, named by their keywords, are refused**: the macro
takes `TARGET x` for its two parameters. And two parents are accepted. -/
theorem testMacros_misbehave :
    ¬ CompareBehaves binProject projectScope ["TARGET", "x", "EXPECT", "y"] ∧
    ¬ Behaves (zilliansAddSubjectToSubject projectScope ["PARENT", "a", "b", "CHILD", "c"])
      [["a", "b"], ["c"]] subjectEdges := by
  constructor
  · rw [zilliansAddCompareOutputTest_behaves_iff binProject
      (keywordCall_projectScope (by decide) (by decide) (by decide) (by decide))]
    rintro (⟨hall, -⟩ | ⟨target, -, hone, -⟩)
    · exact hall (by decide)
    · exact nomatch (show ([] : List String) = [target] from hone)
  · have hfresh : ¬ StaleCounter projectScope := by
      rintro ⟨i, hi, -⟩
      exact nomatch hi
    have hcall : KeywordCall projectScope ["PARENT", "CHILD"] ["PARENT", "a", "b", "CHILD", "c"] :=
      keywordCall_projectScope (by decide) (by decide) (by decide) (by decide)
    have hiff := zilliansAddSubjectToSubject_behaves_iff hcall
    intro hbehaves
    rcases (hiff.1 hbehaves).2 hfresh with h | h
    · exact absurd h (by decide)
    · exact h (by decide)

end Tests

end Supercell
