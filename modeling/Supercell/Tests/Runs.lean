import Supercell.Tests.Agreement
import Supercell.Tests.Subjects

/-!
# Whole directories of tests

The test macros write their options and counters into the scope of the caller,
and one of them checks a counter that another one has left. Still, no call of a
directory sees the variables of an earlier one: a counter that a call leaves has
let that call pass, so it lets the next one pass as well. What calls see of one
another are the targets and tests that are there: none may be made twice, and only
a target that is there gets a dependency.
-/

namespace Supercell

namespace Tests

open CMake CMake.Scope Options Hashmap Sections

/-! ## The macros as one -/

/-- The macros of `ZilliansTestUtility.cmake`. -/
inductive TestMacro where
  | createTestSubject
  | addCustomTargetToSubject
  | addTestToSubject
  | addSubjectToSubject
  | addSimpleTest
  | addComplexTest
  | addRegexMatchOutputTest
  | addCompareOutputTest
  deriving DecidableEq, Repr

namespace TestMacro

/-- A call of a macro. -/
def call (p : Project) (s : Scope) (argn : List String) : TestMacro →
    Except Stop (Scope × List Rule)
  | createTestSubject => zilliansCreateTestSubject s argn
  | addCustomTargetToSubject => zilliansAddCustomTargetToSubject s argn
  | addTestToSubject => zilliansAddTestToSubject s argn
  | addSubjectToSubject => zilliansAddSubjectToSubject s argn
  | addSimpleTest => zilliansAddSimpleTest p s argn
  | addComplexTest => zilliansAddComplexTest p s argn
  | addRegexMatchOutputTest => zilliansAddRegexMatchOutputTest p s argn
  | addCompareOutputTest => zilliansAddCompareOutputTest p s argn

def keywords : TestMacro → List String
  | createTestSubject => ["SUBJECT"]
  | addCustomTargetToSubject => ["TARGET", "SUBJECT"]
  | addTestToSubject => ["TARGET", "SUBJECT"]
  | addSubjectToSubject => ["PARENT", "CHILD"]
  | addSimpleTest => ["TARGET"]
  | addComplexTest => complexKeywords
  | addRegexMatchOutputTest => ["TARGET", "PATTERN", "MODE"]
  | addCompareOutputTest => compareKeywords

/-- The arguments that the macro divides: all, or all but the first two. -/
def divided : TestMacro → List String → List String
  | addCompareOutputTest, argn => argn.drop 2
  | _, argn => argn

/-- A section of the arguments. -/
abbrev given (m : TestMacro) (argn : List String) (k : String) : List String :=
  option m.keywords (m.divided argn) k

/-- The keywords that take just one value. -/
def single : TestMacro → List String
  | createTestSubject => ["SUBJECT"]
  | addCustomTargetToSubject => ["TARGET", "SUBJECT"]
  | addTestToSubject => ["TARGET", "SUBJECT"]
  | addSubjectToSubject => ["CHILD"]
  | _ => ["TARGET"]

/-- What `add_custom_target` reads of a complex test. -/
def read (s : Scope) (argn : List String) : Except Stop CustomCommand :=
  complexTargetRead s (addComplexTest.given argn "SHELL") (addComplexTest.given argn "DEPENDS")
    (addComplexTest.given argn "EXPECT_FAIL")

/-- **The arguments that a macro accepts.** -/
def Accepts (m : TestMacro) (s : Scope) (argn : List String) : Prop :=
  (∀ k ∈ m.single, (m.given argn k).length = 1) ∧
    (m = addComplexTest → m.given argn "SHELL" ≠ [] ∧ (read s argn).isOk = true)

instance (m : TestMacro) (s : Scope) (argn : List String) : Decidable (m.Accepts s argn) :=
  inferInstanceAs (Decidable (_ ∧ _))

/-- **The rules of a call**, by its arguments alone and the paths of the
directory. -/
def rules (p : Project) (s : Scope) (argn : List String) (m : TestMacro) : List Rule :=
  let target := (m.given argn "TARGET").headD ""
  let subject := (m.given argn "SUBJECT").headD ""
  match m with
  | createTestSubject => [.subject ("testsubject-" ++ subject)]
  | addCustomTargetToSubject => memberEdges id [target, subject]
  | addTestToSubject => memberEdges (fun target => "runtest-" ++ target) [target, subject]
  | addSubjectToSubject =>
    addDependencies (pieces ("testsubject-" ++ joined (m.given argn "PARENT")) ++
      ["testsubject-" ++ (m.given argn "CHILD").headD ""])
  | addSimpleTest => simpleRules p s [target]
  | addComplexTest =>
    let shell := m.given argn "SHELL"
    match read s argn with
    | .ok read =>
      .test ("runtest-" ++ target) (runnerCommand s
          (definitionWords "TEST_PROG" ":STRING" ("\"" ++ joined shell ++ "\"")) .run) ::
        .target ("runtest-" ++ target) read.depends
          (complexTargetCommand s shell (m.given argn "EXPECT_FAIL") read) ::
        ((if p.isTarget target then [.dependency ("runtest-" ++ target) target] else []) ++
          [.dependency "check" ("runtest-" ++ target)])
    | .error _ => []
  | addRegexMatchOutputTest =>
    let command := fun mode => runnerCommand s
      (definitionWords "TEST_PROG" ":STRING" (p.location target) ++
        definitionWords "PATTERN" "" (joined (m.given argn "PATTERN")) ++
        definitionWords mode "" (joined (m.given argn "MODE")))
      .runAndMatch
    [.test ("runtest-" ++ target) (command "MATCH_MODE"),
      .target ("runtest-" ++ target) [target] (.whole (command "MATCH_TYPE")),
      .dependency "check" ("runtest-" ++ target)]
  | addCompareOutputTest => compareRules p s target (expectedText s (m.given argn "EXPECT"))

end TestMacro

/-! ## What there is already -/

/-- The targets and tests that are there. -/
structure Table where
  targets : List String
  tests : List String
  deriving Repr

/-- `add_custom_target(name)`. A name has no slash in it and is given once. -/
def Table.addTarget (table : Table) (name : String) : Except Stop Table :=
  if name.toList.any fun c => c == '/' || c == '\\' then
    .error (.rejected ("called with invalid target name \"" ++ name ++ "\""))
  else if name ∈ table.targets then
    .error (.rejected ("cannot create target \"" ++ name ++ "\""))
  else .ok { table with targets := name :: table.targets }

/-- **The effect of a rule**: it is refused where its target or its test is there
already, or the target that it would make depend on another one is not. -/
def Rule.register (table : Table) : Rule → Except Stop Table
  | .test name _ =>
    if name ∈ table.tests then
      .error (.rejected ("given test NAME \"" ++ name ++ "\" which already exists in this directory."))
    else .ok { table with tests := name :: table.tests }
  | .target name _ _ => table.addTarget name
  | .subject name => table.addTarget name
  | .dependency name _ =>
    if name ∈ table.targets then .ok table
    else .error (.rejected ("Adding dependency to non-existent target: " ++ name))

/-- The rules of a call, one after the other. -/
def registerAll (table : Table) (rules : List Rule) : Except Stop Table :=
  rules.foldlM Rule.register table

/-- The project, with the targets that are there. -/
def project (location : String → String) (table : Table) : Project where
  location := location
  isTarget := fun target => target ∈ table.targets

/-- **The calls of a directory**, one after the other. -/
def runMacros (location : String → String) :
    Scope → Table → List (TestMacro × List String) → Except Stop (List Rule)
  | _, _, [] => .ok []
  | s, table, (m, argn) :: calls => do
    let (t, rules) ← m.call (project location table) s argn
    let table ← registerAll table rules
    return rules ++ (← runMacros location t table calls)

/-- **What the calls come to by their arguments alone**: each adds its rules to what
is there, or is refused. -/
def runRules (location : String → String) (s : Scope) :
    Table → List (TestMacro × List String) → Except Stop (List Rule)
  | _, [] => .ok []
  | table, (m, argn) :: calls => do
    let rules := m.rules (project location table) s argn
    let table ← registerAll table rules
    return rules ++ (← runRules location s table calls)

/-! ## What a call leaves alone -/

/-- The variables that the macros write, besides the locations of targets. -/
def testWritten : List String :=
  testVariables ++ ["__expected_output", "cmd_string", "cmd"]

/-- **Only test variables and locations differ.** -/
def Leaves (s t : Scope) : Prop :=
  ∀ x, x ∉ testWritten → ¬ "__location_".toList <+: x.toList → t x = s x

variable {p : Project} {s t u : Scope} {argn : List String} {m : TestMacro}

theorem Leaves.trans (h : Leaves s t) (h' : Leaves t u) : Leaves s u := fun x hx hlocation => by
  rw [h' x hx hlocation, h x hx hlocation]

theorem Leaves.of_agreesOff {N : List String} (h : AgreesOff N s t)
    (hN : ∀ x ∈ N, x ∈ testWritten) : Leaves s t := fun x hx _ => h x fun hmem => hx (hN x hmem)

theorem Leaves.getLocation (p : Project) (t : Scope) : Leaves t (getLocation p t) := by
  intro x _ hlocation
  exact assign_of_ne _ (location_ne hlocation _) _

/-- No condition reads a location by accident. -/
theorem not_isRead_location {x : String} (h : "__location_".toList <+: x.toList) : ¬ IsRead x := by
  obtain ⟨cs, hcs⟩ := h
  have hhead : x.toList.head? = some '_' := by
    rw [← hcs]
    rfl
  rintro (hword | hnumber)
  · have hnone : ∀ w ∈ conditionWords, ¬ "__location_".toList <+: w.toList := by decide
    exact hnone x hword ⟨cs, hcs⟩
  · obtain ⟨i, -, hi⟩ := Option.map_eq_some_iff.1 hnumber
    have hmem : '_' ∈ (numeral i).toList := by
      rw [hi]
      exact List.mem_of_mem_head? hhead
    rcases mem_numeral hmem with h | h
    · exact absurd h (by decide)
    · exact absurd h (by decide)

theorem Leaves.quiet (h : Leaves s t) (hs : Quiet s) : Quiet t := by
  intro x hx
  have hnot : ∀ y ∈ testWritten, ¬ IsRead y := by decide +kernel
  rw [h x (fun hmem => hnot x hmem hx) fun hlocation => not_isRead_location hlocation hx]
  exact hs x hx

theorem Leaves.value (h : Leaves s t) {x : String} (hx : x ∉ testWritten)
    (hlocation : ¬ "__location_".toList <+: x.toList) : t.value x = s.value x := by
  rw [Scope.value, Scope.value, h x hx hlocation]

/-- **A call is the same** in the scope that earlier calls leave: it is accepted there
as well, and has the same rules. -/
theorem rules_of_leaves (h : Leaves s t) : m.rules p t argn = m.rules p s argn ∧
    (m.Accepts t argn ↔ m.Accepts s argn) := by
  have hcommand : ∀ arguments script, runnerCommand t arguments script =
      runnerCommand s arguments script := by
    intro arguments script
    unfold runnerCommand Scope.expand
    rw [h.value (x := "CMAKE_COMMAND") (by decide) (by decide),
      h.value (x := "ZILLIANS_SCRIPT_PATH") (by decide) (by decide)]
  have hexpected : ∀ expect, expectedText t expect = expectedText s expect := by
    intro expect
    rw [expectedText, expectedText,
      h.value (x := "CMAKE_CURRENT_SOURCE_DIR") (by decide) (by decide)]
  have hread : TestMacro.read t argn = TestMacro.read s argn := by
    unfold TestMacro.read complexTargetRead complexTargetWords
    rw [hcommand]
  have htarget : ∀ shell expect read, complexTargetCommand t shell expect read =
      complexTargetCommand s shell expect read := by
    intro shell expect read
    simp only [complexTargetCommand, complexTargetWords, complexTarget, hcommand]
    rfl
  refine ⟨?_, by rw [TestMacro.Accepts, TestMacro.Accepts, hread]⟩
  cases m <;> simp only [TestMacro.rules, simpleRules, compareRules, compareCommand, hcommand,
    hexpected, hread, htarget]

/-! ## One call -/

/-- A counter that reads 1 stops no macro. -/
theorem not_staleCounter_of_one (h : t "__number_of_targets" = some (numeral (1 : ℕ))) :
    ¬ StaleCounter t := by
  rintro ⟨i, hi, hwrong⟩
  rw [deref_of_eq_some h, number?_numeral] at hi
  obtain rfl := Option.some.inj hi
  rcases hwrong with h | h
  · exact absurd h (by decide)
  · exact absurd h (by decide)

/-- A counter that a macro has checked stops no other. -/
theorem not_staleCounter_of_checkCount (hquiet : Quiet t)
    (h : checkCount t "__number_of_targets" = .ok ()) : ¬ StaleCounter t := fun hstale => by
  obtain ⟨e, he⟩ := checkCount_of_staleCounter hquiet hstale
  rw [h] at he
  cases he

/-- **What a macro may do to its directory**: it writes its own variables, and
leaves no counter that stops another one. -/
def Keeps (s t : Scope) : Prop := Leaves s t ∧ (¬ StaleCounter s → ¬ StaleCounter t)

theorem Keeps.trans (h : Keeps s t) (h' : Keeps t u) : Keeps s u :=
  ⟨h.1.trans h'.1, fun hs => h'.2 (h.2 hs)⟩

/-- What keeps the counter of the targets. -/
theorem Keeps.of_agreesOff {N : List String} (h : AgreesOff N s t)
    (hN : ∀ x ∈ N, x ∈ testWritten ∧ x ≠ "__number_of_targets") : Keeps s t :=
  ⟨Leaves.of_agreesOff h fun x hx => (hN x hx).1, fun hs hstale =>
    hs ((staleCounter_congr (h _ fun hmem => (hN _ hmem).2 rfl)).1 hstale)⟩

theorem Keeps.getLocation (p : Project) (t : Scope) : Keeps t (getLocation p t) :=
  ⟨Leaves.getLocation p t, fun hs hstale =>
    hs ((staleCounter_congr (assign_of_ne _ (location_ne (by decide) _) _)).1 hstale)⟩

variable {keywords : List String} {k out count : String}

theorem keeps_of_parseOptions (h : KeywordCall s keywords argn)
    (ht : parseOptions s keywords argn = .ok t) : Parsed keywords argn t ∧ Keeps s t := by
  obtain ⟨t', ht', hparsed, hframe⟩ := parseOptions_returns h
  obtain rfl := Except.ok.inj (ht.symm.trans ht')
  exact ⟨hparsed, Keeps.of_agreesOff hframe (by decide +kernel)⟩

theorem putScratch_testWritten :
    ∀ x ∈ putScratch, x ∈ testWritten ∧ x ≠ "__number_of_targets" := by decide

theorem keeps_of_getOption (h : Parsed keywords argn t) (hk : k ∈ keywords)
    (hout : TestVariable out) (hne : out ≠ "__number_of_targets")
    (hu : getOption t k out = .ok u) :
    u.Holds out (option keywords argn k) ∧ AgreesOff (out :: putScratch) t u ∧
      Parsed keywords argn u ∧ Keeps t u := by
  obtain ⟨u', hu', hheld, hparsed, hframe⟩ := getOption_returns h k out hk hout.own hout.ne_sets
  obtain rfl := Except.ok.inj (hu.symm.trans hu')
  refine ⟨hheld.toHolds, hframe, hparsed, Keeps.of_agreesOff hframe fun x hx => ?_⟩
  rcases List.mem_cons.1 hx with rfl | hx
  · exact ⟨List.mem_append_left _ hout.mem, hne⟩
  · exact putScratch_testWritten x hx

/-- **A counter that lets a call pass** lets the next one pass. -/
theorem keeps_of_readOne (h : Parsed keywords argn t) (hk : k ∈ keywords)
    (hout : TestVariable out) (hcount : TestVariable count) (hne : count ≠ out)
    (hout' : out ≠ "__number_of_targets") (hu : readOne t k out count = .ok u) :
    (option keywords argn k).length = 1 ∧ u.Holds out (option keywords argn k) ∧
      Parsed keywords argn u ∧ Keeps t u := by
  obtain ⟨u', hheld, hnumber, hparsed, hframe, heq⟩ := readOne_eq h k out count hk hout hcount hne
  have hone : (option keywords argn k).length = 1 := by
    by_contra hlength
    obtain ⟨e, he⟩ := readOne_error h k out count hk hout hcount hne hlength
    rw [hu] at he
    cases he
  rw [heq, if_pos hone] at hu
  obtain rfl := Except.ok.inj hu
  refine ⟨hone, hheld.toHolds, hparsed, Leaves.of_agreesOff hframe fun x hx => ?_, fun hs => ?_⟩
  · rcases List.mem_cons.1 hx with rfl | hx
    · exact List.mem_append_left _ hcount.mem
    · rcases List.mem_cons.1 hx with rfl | hx
      · exact List.mem_append_left _ hout.mem
      · exact (putScratch_testWritten x hx).1
  · -- the counter is this one, or the old one
    by_cases hcountName : count = "__number_of_targets"
    · refine not_staleCounter_of_one ?_
      rw [← hcountName, hnumber, hone]
    · refine fun hstale => hs ((staleCounter_congr (hframe _ ?_)).1 hstale)
      simp only [List.mem_cons, not_or]
      exact ⟨Ne.symm hcountName, Ne.symm hout', by decide⟩

/-- **A call that returns was accepted**, and keeps its directory. -/
def Kept (p : Project) (s : Scope) (argn : List String) (m : TestMacro) : Prop :=
  ∀ t rules, m.call p s argn = .ok (t, rules) → m.Accepts s argn ∧ Keeps s t

theorem targetAndSubject_keeps (h : KeywordCall s ["TARGET", "SUBJECT"] argn)
    (ht : targetAndSubject s argn = .ok t) :
    ((option ["TARGET", "SUBJECT"] argn "TARGET").length = 1 ∧
      (option ["TARGET", "SUBJECT"] argn "SUBJECT").length = 1) ∧ Keeps s t := by
  obtain ⟨u, hu, hrest⟩ := bind_eq_ok_iff.1 ht
  obtain ⟨v, hv, hlast⟩ := bind_eq_ok_iff.1 hrest
  obtain ⟨hparsed, hkeeps⟩ := keeps_of_parseOptions h hu
  obtain ⟨htarget, -, hvparsed, hvkeeps⟩ := keeps_of_readOne hparsed (by simp) (by decide)
    (by decide) (by decide) (by decide) hv
  obtain ⟨hsubject, -, -, hlastKeeps⟩ := keeps_of_readOne hvparsed (by simp) (by decide)
    (by decide) (by decide) (by decide) hlast
  exact ⟨⟨htarget, hsubject⟩, (hkeeps.trans hvkeeps).trans hlastKeeps⟩

theorem createTestSubject_kept (h : KeywordCall s ["SUBJECT"] argn) :
    Kept p s argn .createTestSubject := by
  intro t rules hcall
  obtain ⟨u, hu, hrest⟩ := bind_eq_ok_iff.1 hcall
  obtain ⟨v, hv, hlast⟩ := bind_eq_ok_iff.1 hrest
  obtain ⟨rfl, -⟩ := Prod.mk.inj (Except.ok.inj hlast)
  obtain ⟨hparsed, hkeeps⟩ := keeps_of_parseOptions h hu
  obtain ⟨hone, -, -, hvkeeps⟩ := keeps_of_readOne hparsed (by simp) (by decide)
    (by decide) (by decide) (by decide) hv
  exact ⟨⟨fun k hk => List.mem_singleton.1 hk ▸ hone, fun heq => absurd heq (by decide)⟩,
    hkeeps.trans hvkeeps⟩

/-- Both macros that add to a subject. -/
theorem addToSubject_kept (h : KeywordCall s ["TARGET", "SUBJECT"] argn) :
    Kept p s argn .addCustomTargetToSubject ∧ Kept p s argn .addTestToSubject := by
  have haccepts : ∀ {t : Scope} {m : TestMacro}, m.keywords = ["TARGET", "SUBJECT"] →
      m.single = ["TARGET", "SUBJECT"] →
      m.divided argn = argn → m ≠ .addComplexTest → targetAndSubject s argn = .ok t →
        m.Accepts s argn ∧ Keeps s t := by
    intro t m hkeywords hsingle hdivided hne ht
    obtain ⟨⟨htarget, hsubject⟩, hkeeps⟩ := targetAndSubject_keeps h ht
    refine ⟨⟨fun k hk => ?_, fun heq => absurd heq hne⟩, hkeeps⟩
    rw [TestMacro.given, hkeywords, hdivided]
    rw [hsingle, List.mem_cons, List.mem_singleton] at hk
    rcases hk with rfl | rfl
    · exact htarget
    · exact hsubject
  constructor
  · intro t rules hcall
    obtain ⟨u, hu, hlast⟩ := bind_eq_ok_iff.1 hcall
    obtain ⟨rfl, -⟩ := Prod.mk.inj (Except.ok.inj hlast)
    exact haccepts rfl rfl rfl (by decide) hu
  · intro t rules hcall
    obtain ⟨u, hu, hlast⟩ := bind_eq_ok_iff.1 hcall
    obtain ⟨rfl, -⟩ := Prod.mk.inj (Except.ok.inj hlast)
    exact haccepts rfl rfl rfl (by decide) hu

/-- The macro that adds a subject to a subject, which checks the counter of
another one. -/
theorem addSubjectToSubject_kept (h : KeywordCall s ["PARENT", "CHILD"] argn) :
    Kept p s argn .addSubjectToSubject := by
  intro t rules hcall
  obtain ⟨u, hu, hrest⟩ := bind_eq_ok_iff.1 hcall
  obtain ⟨v, hv, hrest'⟩ := bind_eq_ok_iff.1 hrest
  obtain ⟨-, -, hrest''⟩ := bind_eq_ok_iff.1 hrest'
  obtain ⟨x, hx, hlast⟩ := bind_eq_ok_iff.1 hrest''
  obtain ⟨rfl, -⟩ := Prod.mk.inj (Except.ok.inj hlast)
  obtain ⟨hparsed, hkeeps⟩ := keeps_of_parseOptions h hu
  obtain ⟨-, -, hvparsed, hvkeeps⟩ := keeps_of_getOption hparsed (by simp) (by decide) (by decide) hv
  have hcounted : AgreesOff ["__number_of___subject_parent"] v
      (v.listLength "__target" "__number_of___subject_parent") :=
    (AgreesOff.refl _ v).assign (by simp) _
  obtain ⟨hone, -, -, hxkeeps⟩ := keeps_of_readOne
    (hvparsed.agreesOff hcounted (by decide) (by decide)) (by simp) (by decide) (by decide)
    (by decide) (by decide) hx
  exact ⟨⟨fun k hk => List.mem_singleton.1 hk ▸ hone, fun heq => absurd heq (by decide)⟩,
    ((hkeeps.trans hvkeeps).trans (Keeps.of_agreesOff hcounted (by decide))).trans hxkeeps⟩

theorem addSimpleTest_kept (h : KeywordCall s ["TARGET"] argn) : Kept p s argn .addSimpleTest := by
  intro t rules hcall
  obtain ⟨u, hu, hlast⟩ := bind_eq_ok_iff.1 hcall
  obtain ⟨v, hv, hread⟩ := bind_eq_ok_iff.1 hu
  obtain ⟨rfl, -⟩ := Prod.mk.inj (Except.ok.inj hlast)
  obtain ⟨hparsed, hkeeps⟩ := keeps_of_parseOptions h hv
  obtain ⟨hone, -, -, hukeeps⟩ := keeps_of_readOne hparsed (by simp) (by decide)
    (by decide) (by decide) (by decide) hread
  exact ⟨⟨fun k hk => List.mem_singleton.1 hk ▸ hone, fun heq => absurd heq (by decide)⟩,
    (hkeeps.trans hukeeps).trans (Keeps.getLocation p u)⟩

theorem addRegexMatchOutputTest_kept (h : KeywordCall s ["TARGET", "PATTERN", "MODE"] argn) :
    Kept p s argn .addRegexMatchOutputTest := by
  intro t rules hcall
  obtain ⟨u, hu, hlast⟩ := bind_eq_ok_iff.1 hcall
  obtain ⟨rfl, -⟩ := Prod.mk.inj (Except.ok.inj hlast)
  obtain ⟨v, hv, hrest⟩ := bind_eq_ok_iff.1 hu
  obtain ⟨w, hw, hrest'⟩ := bind_eq_ok_iff.1 hrest
  obtain ⟨x, hx, hmode⟩ := bind_eq_ok_iff.1 hrest'
  obtain ⟨hparsed, hkeeps⟩ := keeps_of_parseOptions h hv
  obtain ⟨hone, -, hwparsed, hwkeeps⟩ := keeps_of_readOne hparsed (by simp) (by decide)
    (by decide) (by decide) (by decide) hw
  obtain ⟨-, -, hxparsed, hxkeeps⟩ := keeps_of_getOption hwparsed (by simp) (by decide) (by decide) hx
  obtain ⟨-, -, -, hukeeps⟩ := keeps_of_getOption hxparsed (by simp) (by decide) (by decide) hmode
  exact ⟨⟨fun k hk => List.mem_singleton.1 hk ▸ hone, fun heq => absurd heq (by decide)⟩,
    (((hkeeps.trans hwkeeps).trans hxkeeps).trans hukeeps).trans (Keeps.getLocation p u)⟩

theorem addCompareOutputTest_kept (h : KeywordCall s compareKeywords (argn.drop 2)) :
    Kept p s argn .addCompareOutputTest := by
  intro t rules hcall
  rcases argn with _ | ⟨name, _ | ⟨output, argn⟩⟩
  · cases hcall
  · cases hcall
  · obtain ⟨u, hu, hrest⟩ := bind_eq_ok_iff.1 hcall
    obtain ⟨v, hv, hlast⟩ := bind_eq_ok_iff.1 hrest
    obtain ⟨rfl, -⟩ := Prod.mk.inj (Except.ok.inj hlast)
    obtain ⟨w, hw, hrest'⟩ := bind_eq_ok_iff.1 hu
    obtain ⟨x, hx, hexpect⟩ := bind_eq_ok_iff.1 hrest'
    obtain ⟨hparsed, hkeeps⟩ := keeps_of_parseOptions h hw
    obtain ⟨hone, -, hxparsed, hxkeeps⟩ := keeps_of_readOne hparsed (by simp) (by decide)
      (by decide) (by decide) (by decide) hx
    obtain ⟨-, -, -, hukeeps⟩ := keeps_of_getOption hxparsed (by simp) (by decide) (by decide) hexpect
    have hexpected : AgreesOff ["__expected_output"] (getLocation p u) v := by
      unfold expectedOutput at hv
      split at hv
      · exact set_agreesOff hv
      · exact Except.ok.inj hv ▸ (AgreesOff.refl _ _).assign (by simp) _
    exact ⟨⟨fun k hk => List.mem_singleton.1 hk ▸ hone, fun heq => absurd heq (by decide)⟩,
      (((hkeeps.trans hxkeeps).trans hukeeps).trans (Keeps.getLocation p u)).trans
        (Keeps.of_agreesOff hexpected (by decide))⟩

theorem addComplexTest_kept (h : KeywordCall s complexKeywords argn) :
    Kept p s argn .addComplexTest := by
  intro t rules hcall
  obtain ⟨u, hoptions, hrest⟩ := bind_eq_ok_iff.1 hcall
  obtain ⟨v, hcollect, hrest'⟩ := bind_eq_ok_iff.1 hrest
  obtain ⟨w, hset, hlast⟩ := bind_eq_ok_iff.1 hrest'
  obtain ⟨read, hread, hrules⟩ := bind_eq_ok_iff.1 hlast
  obtain ⟨rfl, -⟩ := Prod.mk.inj (Except.ok.inj hrules)
  -- the four options
  obtain ⟨a, ha, hoptions⟩ := bind_eq_ok_iff.1 hoptions
  obtain ⟨b, hb, hoptions⟩ := bind_eq_ok_iff.1 hoptions
  obtain ⟨c, hc, hoptions⟩ := bind_eq_ok_iff.1 hoptions
  obtain ⟨d, hd, hoptions⟩ := bind_eq_ok_iff.1 hoptions
  obtain ⟨e, he, hoptions⟩ := bind_eq_ok_iff.1 hoptions
  obtain ⟨hparsed, hkeeps⟩ := keeps_of_parseOptions h ha
  obtain ⟨htarget, -, hbparsed, hbkeeps⟩ := keeps_of_getOption hparsed (by simp) (by decide)
    (by decide) hb
  obtain ⟨hshell, hcframe, hcparsed, hckeeps⟩ := keeps_of_getOption hbparsed (by simp) (by decide)
    (by decide) hc
  obtain ⟨-, hdframe, hdparsed, hdkeeps⟩ := keeps_of_getOption hcparsed (by simp) (by decide)
    (by decide) hd
  obtain ⟨-, heframe, heparsed, hekeeps⟩ := keeps_of_getOption hdparsed (by simp) (by decide)
    (by decide) he
  have hetarget := ((htarget.agreesOff hcframe (by decide)).agreesOff hdframe (by decide)).agreesOff
    heframe (by decide)
  have heshell := (hshell.agreesOff hdframe (by decide)).agreesOff heframe (by decide)
  -- their counters
  let x := e.listLength "__target" "__number_of_targets"
  let y := x.listLength "__shell" "__number_of_shell"
  let z := y.listLength "__depends" "__number_of_depends"
  have hx : AgreesOff ["__number_of_targets"] e x := (AgreesOff.refl _ e).assign (by simp) _
  have hy : AgreesOff ["__number_of_shell"] x y := (AgreesOff.refl _ x).assign (by simp) _
  have hz : AgreesOff ["__number_of_depends"] y z := (AgreesOff.refl _ y).assign (by simp) _
  have hez : AgreesOff ["__number_of_targets", "__number_of_shell", "__number_of_depends"] e z :=
    ((hx.mono (by simp)).trans (hy.mono (by simp))).trans (hz.mono (by simp))
  have hzquiet : Quiet z := heparsed.quiet.agreesOff hez (by decide)
  obtain ⟨⟨⟩, hcheck, hoptions⟩ := bind_eq_ok_iff.1 hoptions
  have hnumber : z "__number_of_targets" =
      some (numeral (option complexKeywords argn "TARGET").length) := by
    rw [hz _ (by decide), hy _ (by decide)]
    exact (congrArg (fun s : Scope => s "__number_of_targets") (hetarget.listLength _)).trans
      (assign_self _ _ _)
  have hcount : z "__number_of_shell" =
      some (numeral (option complexKeywords argn "SHELL").length) := by
    rw [hz _ (by decide)]
    exact (congrArg (fun s : Scope => s "__number_of_shell")
      ((heshell.agreesOff hx (by decide)).listLength _)).trans (assign_self _ _ _)
  have hone : (option complexKeywords argn "TARGET").length = 1 := by
    by_contra hlength
    have hstop := checkCount_eq hzquiet hnumber
    rw [if_neg hlength, show checkCount z "__number_of_targets" = _ from hcheck] at hstop
    split at hstop <;> cases hstop
  have hzero : z.numEqual "__number_of_shell" "0" =
      decide (((option complexKeywords argn "SHELL").length : ℤ) = 0) :=
    hzquiet.numberless.numEqual hcount 0
  have hsome : option complexKeywords argn "SHELL" ≠ [] ∧ z = u := by
    replace hoptions : (if z.numEqual "__number_of_shell" "0" then
        Except.error (Stop.fatal "no shell declared!") else .ok z) = Except.ok u := hoptions
    rw [hzero] at hoptions
    split at hoptions
    · cases hoptions
    · rename_i hlength
      refine ⟨fun hnil => hlength ?_, Except.ok.inj hoptions⟩
      rw [hnil]
      rfl
  obtain ⟨hsome, rfl⟩ := hsome
  have hez' : Keeps e z :=
    ⟨Leaves.of_agreesOff hez (by decide), fun _ => not_staleCounter_of_checkCount hzquiet hcheck⟩
  have hlast' : Keeps v w := Keeps.of_agreesOff (set_agreesOff hset) (by decide)
  have hisOk : (TestMacro.read s argn).isOk = true := by
    obtain ⟨target, htarget⟩ := List.length_eq_one_iff.1 hone
    cases hread' : TestMacro.read s argn with
    | ok c => rfl
    | error e =>
      have hstop := (zilliansAddComplexTest_returns p h htarget hsome).1 e hread'
      rw [show zilliansAddComplexTest p s argn = _ from hcall] at hstop
      cases hstop
  refine ⟨⟨fun k hk => List.mem_singleton.1 hk ▸ hone, fun _ => ⟨hsome, hisOk⟩⟩, ?_⟩
  exact (((((((hkeeps.trans hbkeeps).trans hckeeps).trans hdkeeps).trans hekeeps).trans
    hez').trans (Keeps.of_agreesOff (collectCommand_agreesOff hcollect) (by decide))).trans hlast')

/-- **A call that returns** was accepted, and keeps its directory. -/
theorem TestMacro.call_kept (h : KeywordCall s m.keywords (m.divided argn)) : Kept p s argn m := by
  cases m with
  | createTestSubject => exact createTestSubject_kept h
  | addCustomTargetToSubject => exact (addToSubject_kept h).1
  | addTestToSubject => exact (addToSubject_kept h).2
  | addSubjectToSubject => exact addSubjectToSubject_kept h
  | addSimpleTest => exact addSimpleTest_kept h
  | addComplexTest => exact addComplexTest_kept h
  | addRegexMatchOutputTest => exact addRegexMatchOutputTest_kept h
  | addCompareOutputTest => exact addCompareOutputTest_kept h

/-- A subject with any number of parents: the first one is taken for the parent,
and the others for its children. -/
theorem addSubjectToSubject_rules {child : String} (h : KeywordCall s ["PARENT", "CHILD"] argn)
    (hfresh : ¬ StaleCounter s) (hchild : option ["PARENT", "CHILD"] argn "CHILD" = [child]) :
    Returns (zilliansAddSubjectToSubject s argn) fun r =>
      r.2 = addDependencies (pieces ("testsubject-" ++
        joined (option ["PARENT", "CHILD"] argn "PARENT")) ++ ["testsubject-" ++ child]) := by
  refine (parseOptions_returns h).bind ?_
  rintro t ⟨hparsed, hframe⟩
  refine (getOption_returns hparsed "PARENT" "__subject_parent" (by simp) (by decide)
    (by decide)).bind ?_
  rintro u ⟨hu, huparsed, huframe⟩
  let v := u.listLength "__target" "__number_of___subject_parent"
  have hvframe : AgreesOff ["__number_of___subject_parent"] u v :=
    (AgreesOff.refl _ u).assign (by simp) _
  have hvparsed := huparsed.agreesOff hvframe (by decide) (by decide)
  have hvfresh : ¬ StaleCounter v := by
    rwa [staleCounter_congr ((hvframe _ (by decide)).trans ((huframe _ (by decide)).trans
      (hframe _ (by decide))))]
  obtain ⟨w, hread, hw, -, hwframe⟩ := readOne_returns hvparsed "CHILD" "__subject_child"
    "__number_of_subject_child" (by simp) (by decide) (by decide) (by decide) hchild
  have hparent : w.value "__subject_parent" =
      joined (option ["PARENT", "CHILD"] argn "PARENT") := by
    rw [hwframe.value (by decide), hvframe.value (by decide), hu.toHolds.text]
  dsimp only
  rw [show u.listLength "__target" "__number_of___subject_parent" = v from rfl,
    checkCount_of_not_staleCounter hvparsed.quiet hvfresh, ok_bind, hread, ok_bind]
  refine Returns.ok ?_
  dsimp only
  rw [hparent, hw.toHolds.text, joined_singleton,
    pieces_append (by decide) (hw.toHolds.words child (by simp))]

/-- **The rules of a call that is accepted**, in a directory with no counter in
the way. -/
theorem TestMacro.call_rules (h : KeywordCall s m.keywords (m.divided argn))
    (hfresh : ¬ StaleCounter s) (haccepts : m.Accepts s argn) :
    Returns (m.call p s argn) fun r => r.2 = m.rules p s argn := by
  have hvalue : ∀ k ∈ m.single, ∃ v, m.given argn k = [v] := fun k hk =>
    List.length_eq_one_iff.1 (haccepts.1 k hk)
  cases m with
  | createTestSubject =>
    obtain ⟨subject, hsubject⟩ := hvalue "SUBJECT" (by simp [TestMacro.single])
    obtain ⟨t, ht⟩ := (zilliansCreateTestSubject_behaves h).1 [subject]
      (congrArg (fun v => [v]) hsubject)
    refine ⟨_, ht, ?_⟩
    rw [TestMacro.rules, hsubject]
    rfl
  | addCustomTargetToSubject =>
    obtain ⟨target, htarget⟩ := hvalue "TARGET" (by simp [TestMacro.single])
    obtain ⟨subject, hsubject⟩ := hvalue "SUBJECT" (by simp [TestMacro.single])
    obtain ⟨t, ht⟩ := (zilliansAddCustomTargetToSubject_behaves h).1 [target, subject]
      (congrArg₂ (fun v w => [v, w]) htarget hsubject)
    refine ⟨_, ht, ?_⟩
    rw [TestMacro.rules, htarget, hsubject]
    rfl
  | addTestToSubject =>
    obtain ⟨target, htarget⟩ := hvalue "TARGET" (by simp [TestMacro.single])
    obtain ⟨subject, hsubject⟩ := hvalue "SUBJECT" (by simp [TestMacro.single])
    obtain ⟨t, ht⟩ := (zilliansAddTestToSubject_behaves h).1 [target, subject]
      (congrArg₂ (fun v w => [v, w]) htarget hsubject)
    refine ⟨_, ht, ?_⟩
    rw [TestMacro.rules, htarget, hsubject]
    rfl
  | addSubjectToSubject =>
    obtain ⟨child, hchild⟩ := hvalue "CHILD" (by simp [TestMacro.single])
    refine (addSubjectToSubject_rules h hfresh hchild).mono fun r hr => ?_
    rw [TestMacro.rules, hchild]
    exact hr
  | addSimpleTest =>
    obtain ⟨target, htarget⟩ := hvalue "TARGET" (by simp [TestMacro.single])
    refine (zilliansAddSimpleTest_returns p h htarget).mono fun r hr => ?_
    rw [TestMacro.rules, htarget]
    exact hr.trans (by simp [simpleRules])
  | addComplexTest =>
    obtain ⟨target, htarget⟩ := hvalue "TARGET" (by simp [TestMacro.single])
    obtain ⟨hshell, hisOk⟩ := haccepts.2 rfl
    cases hread : TestMacro.read s argn with
    | error e =>
      rw [hread] at hisOk
      cases hisOk
    | ok read =>
      refine ((zilliansAddComplexTest_returns p h htarget hshell).2 read hread).mono fun r hr => ?_
      rw [TestMacro.rules, htarget, hread]
      exact hr
  | addRegexMatchOutputTest =>
    obtain ⟨target, htarget⟩ := hvalue "TARGET" (by simp [TestMacro.single])
    refine (zilliansAddRegexMatchOutputTest_returns p h htarget).mono fun r hr => ?_
    rw [TestMacro.rules, htarget]
    exact hr
  | addCompareOutputTest =>
    obtain ⟨target, htarget⟩ := hvalue "TARGET" (by simp [TestMacro.single])
    rcases argn with _ | ⟨name, _ | ⟨output, argn⟩⟩
    · cases htarget
    · cases htarget
    · refine (zilliansAddCompareOutputTest_returns p name output h htarget).mono fun r hr => ?_
      rw [TestMacro.rules, htarget]
      exact hr

/-! ## A whole directory -/

/-- **Plain arguments**, none of them a keyword of `set()`. -/
def PlainArguments (argn : List String) : Prop :=
  ∀ a ∈ argn, Plain a ∧ a ∉ ["PARENT_SCOPE", "CACHE"]

/-- A directory in which no condition reads a variable by accident, and no
counter stops a macro. -/
structure TestDirectory (s : Scope) : Prop where
  quiet : Quiet s
  default_undefined : s "default" = none
  fresh : ¬ StaleCounter s

theorem TestDirectory.keywordCall (hs : TestDirectory s) (h : PlainArguments argn) :
    KeywordCall s m.keywords (m.divided argn) := by
  have hsub : ∀ a ∈ m.divided argn, a ∈ argn := by
    intro a ha
    cases m with
    | addCompareOutputTest => exact List.mem_of_mem_drop ha
    | _ => exact ha
  have hkeywords : (∀ k ∈ m.keywords, Plain k) ∧ ("default" :: m.keywords).Nodup := by
    cases m <;> decide
  exact ⟨hs.quiet, hs.default_undefined, fun a ha => (h a (hsub a ha)).1,
    fun a ha => (h a (hsub a ha)).2, hkeywords.1, hkeywords.2⟩

/-- **A call leaves a directory** as the next one needs it. -/
theorem TestDirectory.keeps (hs : TestDirectory s) (h : Keeps s t) : TestDirectory t where
  quiet := h.1.quiet hs.quiet
  default_undefined := (h.1 "default" (by decide) (by decide)).trans hs.default_undefined
  fresh := h.2 hs.fresh

/-- In a scope that earlier calls have left, a run comes to what it does in the
beginning. -/
theorem runMacros_leaves {calls : List (TestMacro × List String)} (location : String → String)
    (hplain : ∀ c ∈ calls, PlainArguments c.2) : ∀ t table, TestDirectory t → Leaves s t →
      ((∀ c ∈ calls, c.1.Accepts s c.2) →
        runMacros location t table calls = runRules location s table calls) ∧
      ((∃ c ∈ calls, ¬ c.1.Accepts s c.2) →
        ∃ e, runMacros location t table calls = .error e) := by
  induction calls with
  | nil =>
    intro t table _ _
    refine ⟨fun _ => rfl, ?_⟩
    rintro ⟨c, hc, -⟩
    exact absurd hc List.not_mem_nil
  | cons c calls ih =>
    intro t table ht hleaves
    obtain ⟨m, argn⟩ := c
    have h : KeywordCall t m.keywords (m.divided argn) :=
      ht.keywordCall (hplain _ List.mem_cons_self)
    obtain ⟨hsame, hsameAccepts⟩ := @rules_of_leaves (project location table) s t argn m hleaves
    -- what a call that returns leaves for the others
    have hnext : ∀ {u : Scope} {rules : List Rule},
        m.call (project location table) t argn = .ok (u, rules) →
          m.Accepts s argn ∧ TestDirectory u ∧ Leaves s u := by
      intro u rules hcall
      obtain ⟨haccepts, hkeeps⟩ := TestMacro.call_kept h u rules hcall
      exact ⟨hsameAccepts.1 haccepts, ht.keeps hkeeps, hleaves.trans hkeeps.1⟩
    have ih' := fun u => ih (fun c hc => hplain c (List.mem_cons_of_mem _ hc)) u
    constructor
    · intro haccepts
      obtain ⟨⟨u, rules⟩, hcall, hrules⟩ := @TestMacro.call_rules (project location table) t argn
        m h ht.fresh (hsameAccepts.2 (haccepts _ List.mem_cons_self))
      obtain ⟨-, hu, huleaves⟩ := hnext hcall
      have hrest := fun table' => (ih' u table' hu huleaves).1 fun c hc =>
        haccepts c (List.mem_cons_of_mem _ hc)
      rw [runMacros, hcall, ok_bind]
      dsimp only
      rw [show rules = _ from hrules, hsame, runRules]
      simp only [hrest]
    · rintro ⟨c, hc, hrefuses⟩
      rw [runMacros]
      cases hcall : m.call (project location table) t argn with
      | error e => exact ⟨e, rfl⟩
      | ok r =>
        obtain ⟨u, rules⟩ := r
        obtain ⟨haccepts, hu, huleaves⟩ := hnext hcall
        rcases List.mem_cons.1 hc with rfl | hc
        · exact absurd haccepts hrefuses
        rw [ok_bind]
        dsimp only
        cases hregister : registerAll table rules with
        | error e => exact ⟨e, rfl⟩
        | ok table' =>
          obtain ⟨e, he⟩ := (ih' u table' hu huleaves).2 ⟨c, hc, hrefuses⟩
          refine ⟨e, ?_⟩
          rw [ok_bind, he, error_bind]

theorem testDirectory_projectScope : TestDirectory projectScope where
  quiet := quiet_projectScope
  default_undefined := by decide
  fresh := by
    rintro ⟨i, hi, -⟩
    have hnone : number? (projectScope.deref "__number_of_targets") = none := by decide
    rw [hnone] at hi
    cases hi

/-- A subject with a test, below another subject. -/
def twoSubjects : List (TestMacro × List String) :=
  [(.createTestSubject, ["SUBJECT", "all"]), (.createTestSubject, ["SUBJECT", "net"]),
    (.addSubjectToSubject, ["PARENT", "all", "CHILD", "net"]),
    (.addSimpleTest, ["TARGET", "ping"]),
    (.addTestToSubject, ["TARGET", "ping", "SUBJECT", "net"])]

theorem plainArguments_twoSubjects : ∀ c ∈ twoSubjects, PlainArguments c.2 := by
  unfold PlainArguments
  decide

/-- A project with the target `check` and a program. -/
def pingTable : Table := ⟨["check", "ping"], []⟩

end Tests

end Supercell
