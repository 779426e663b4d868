import Supercell.Tests.Runs
import Mathlib.Logic.Relation

/-!
# What is built with a target

The macros hang targets on one another: `make check` builds the target of every
test, and the target of a subject builds those of the tests and subjects below
it. Here the edges of a whole directory are followed. `check` is for the tests
that CTest has, and a subject for the tests that belong to it or to one below
it.
-/

namespace Supercell

namespace Tests

open CMake CMake.Scope Options Relation

/-- Building one target builds another one first. -/
def Needs (rules : List Rule) (a b : String) : Prop :=
  .dependency a b ∈ rules ∨ ∃ depends command, .target a depends command ∈ rules ∧ b ∈ depends

/-- A test that CTest runs. -/
def IsTest (rules : List Rule) (name : String) : Prop := ∃ command, .test name command ∈ rules

namespace TestMacro

/-- The target that a call is about. -/
def target (m : TestMacro) (argn : List String) : String := (m.given argn "TARGET").headD ""

/-- What the build target of a complex test depends on, as `add_custom_target` reads
it. -/
def depends (s : Scope) (argn : List String) : List String :=
  match read s argn with
  | .ok read => read.depends
  | .error _ => []

/-- **The edges of a call**, by its arguments. -/
def edges (p : Project) (s : Scope) (argn : List String) (m : TestMacro) :
    List (String × String) :=
  let subject := "testsubject-" ++ (m.given argn "SUBJECT").headD ""
  let runtest := "runtest-" ++ m.target argn
  match m with
  | createTestSubject => []
  | addCustomTargetToSubject => [(subject, m.target argn)]
  | addTestToSubject => [(subject, runtest)]
  | addSubjectToSubject =>
    ((m.given argn "PARENT").tail ++ ["testsubject-" ++ (m.given argn "CHILD").headD ""]).map
      fun child => ("testsubject-" ++ (m.given argn "PARENT").headD "", child)
  | addComplexTest =>
    ("check", runtest) :: ((depends s argn).map (fun d => (runtest, d)) ++
      if p.isTarget (m.target argn) then [(runtest, m.target argn)] else [])
  | _ => [("check", runtest), (runtest, m.target argn)]

/-- The call registers a test. -/
def registersTest : TestMacro → Bool
  | addSimpleTest | addComplexTest | addRegexMatchOutputTest | addCompareOutputTest => true
  | _ => false

/-- The targets that a call names besides those of tests and subjects. -/
def mentioned (s : Scope) (argn : List String) (m : TestMacro) : List String :=
  match m with
  | createTestSubject | addTestToSubject => []
  | addSubjectToSubject => (m.given argn "PARENT").tail
  | addComplexTest => m.target argn :: depends s argn
  | _ => [m.target argn]

end TestMacro

variable {p : Project} {s : Scope} {argn : List String} {m : TestMacro} {a b : String}
  {calls : List (TestMacro × List String)}

/-- What an accepted complex test has been read as. -/
theorem TestMacro.exists_read (haccepts : TestMacro.addComplexTest.Accepts s argn) :
    ∃ read, TestMacro.read s argn = .ok read := by
  have hisOk := (haccepts.2 rfl).2
  cases hread : TestMacro.read s argn with
  | ok read => exact ⟨read, rfl⟩
  | error e =>
    rw [hread] at hisOk
    cases hisOk

/-- A name in front of a list of words. -/
theorem pieces_append_joined {text w : String} {ws : List String} (ht : Closed text) (hw : Word w)
    (hws : ∀ v ∈ ws, Word v) : pieces (text ++ joined (w :: ws)) = (text ++ w) :: ws := by
  have hword : Word (text ++ w) :=
    ⟨fun h => hw.nonempty (String.append_eq_empty_iff.1 h).2, ht.append hw.closed⟩
  have hjoined : text ++ joined (w :: ws) = joined ((text ++ w) :: ws) :=
    String.intercalate_cons_append.symm
  rw [hjoined, pieces_joined_words]
  intro v hv
  rcases List.mem_cons.1 hv with rfl | hv
  · exact hword
  · exact hws v hv

/-- The words of a section are words. -/
theorem word_of_mem_given (hplain : PlainArguments argn) {k v : String} (hv : v ∈ m.given argn k) :
    Word v := by
  have hsub : ∀ a ∈ m.divided argn, a ∈ argn := by
    intro a ha
    cases m with
    | addCompareOutputTest => exact List.mem_of_mem_drop ha
    | _ => exact ha
  exact (hplain v (hsub v ((Sections.sublist_part _ k).subset hv))).1.toWord

/-- **The rules of a call have its edges.** -/
theorem needs_rules (hplain : PlainArguments argn) (haccepts : m.Accepts s argn) :
    Needs (m.rules p s argn) a b ↔ (a, b) ∈ m.edges p s argn := by
  unfold Needs
  cases m with
  | createTestSubject => simp [TestMacro.rules, TestMacro.edges]
  | addCustomTargetToSubject =>
    simp [TestMacro.rules, TestMacro.edges, memberEdges, TestMacro.target]
  | addTestToSubject => simp [TestMacro.rules, TestMacro.edges, memberEdges, TestMacro.target]
  | addSubjectToSubject =>
    have hwords : ∀ v ∈ TestMacro.addSubjectToSubject.given argn "PARENT", Word v :=
      fun v hv => word_of_mem_given hplain hv
    have hrules : TestMacro.addSubjectToSubject.rules p s argn =
        ((TestMacro.addSubjectToSubject.given argn "PARENT").tail ++ ["testsubject-" ++
          (TestMacro.addSubjectToSubject.given argn "CHILD").headD ""]).map (Rule.dependency
            ("testsubject-" ++ (TestMacro.addSubjectToSubject.given argn "PARENT").headD "")) := by
      rw [TestMacro.rules]
      generalize TestMacro.addSubjectToSubject.given argn "PARENT" = parents at hwords ⊢
      cases parents with
      | nil => rfl
      | cons parent others =>
        rw [pieces_append_joined (by decide) (hwords _ List.mem_cons_self)
          fun v hv => hwords v (List.mem_cons_of_mem _ hv)]
        rfl
    rw [hrules]
    simp only [List.mem_map, Rule.dependency.injEq, reduceCtorEq, and_false, exists_false, false_and,
      or_false, TestMacro.edges, Prod.mk.injEq]
  | addSimpleTest => simp [TestMacro.rules, TestMacro.edges, simpleRules, TestMacro.target]
  | addComplexTest =>
    obtain ⟨read, hread⟩ := TestMacro.exists_read haccepts
    simp [TestMacro.rules, hread, TestMacro.edges, TestMacro.depends, TestMacro.target]
    grind
  | addRegexMatchOutputTest => simp [TestMacro.rules, TestMacro.edges, TestMacro.target]
  | addCompareOutputTest => simp [TestMacro.rules, TestMacro.edges, compareRules, TestMacro.target]

theorem eq_dependency_of_mem {r : Rule} {words : List String} (h : r ∈ addDependencies words) :
    ∃ a b, r = .dependency a b := by
  cases words with
  | nil => exact absurd h List.not_mem_nil
  | cons target words =>
    obtain ⟨b, -, rfl⟩ := List.mem_map.1 h
    exact ⟨target, b, rfl⟩

/-- The test of a call, for CTest. -/
theorem isTest_rules (haccepts : m.Accepts s argn) {name : String} :
    IsTest (m.rules p s argn) name ↔
      m.registersTest = true ∧ name = "runtest-" ++ m.target argn := by
  unfold IsTest
  cases m with
  | addComplexTest =>
    obtain ⟨read, hread⟩ := TestMacro.exists_read haccepts
    simp [TestMacro.rules, hread, TestMacro.registersTest, TestMacro.target]
  | addSubjectToSubject =>
    refine iff_of_false ?_ fun h => Bool.false_ne_true h.1
    rintro ⟨command, h⟩
    obtain ⟨a, b, h⟩ := eq_dependency_of_mem h
    cases h
  | _ => simp [TestMacro.rules, TestMacro.registersTest, TestMacro.target, memberEdges,
      simpleRules, compareRules]

/-! ## Names -/

/-- A name that is none of a test or a subject, and not `check`. -/
structure PlainName (name : String) : Prop where
  test : ¬ "runtest-".toList <+: name.toList
  subject : ¬ "testsubject-".toList <+: name.toList
  check : name ≠ "check"

/-- **The calls do not mix the names up**: what they mention by name is no target
of a test or a subject. -/
def Unmixed (s : Scope) (calls : List (TestMacro × List String)) : Prop :=
  ∀ c ∈ calls, ∀ name ∈ c.1.mentioned s c.2, PlainName name

/-- One subject is the parent of another. -/
def ParentOf (calls : List (TestMacro × List String)) (parent child : String) : Prop :=
  ∃ argn, (.addSubjectToSubject, argn) ∈ calls ∧
    (TestMacro.addSubjectToSubject.given argn "PARENT").headD "" = parent ∧
    (TestMacro.addSubjectToSubject.given argn "CHILD").headD "" = child

/-- A test belongs to a subject. -/
def Attached (calls : List (TestMacro × List String)) (subject test : String) : Prop :=
  ∃ argn, (.addTestToSubject, argn) ∈ calls ∧
    (TestMacro.addTestToSubject.given argn "SUBJECT").headD "" = subject ∧
    TestMacro.addTestToSubject.target argn = test

theorem not_plainName_runtest (test : String) : ¬ PlainName ("runtest-" ++ test) := fun h =>
  h.test (by simp)

theorem not_plainName_subject (subject : String) : ¬ PlainName ("testsubject-" ++ subject) :=
  fun h => h.subject (by simp)

theorem runtest_ne_subject (test subject : String) :
    "runtest-" ++ test ≠ "testsubject-" ++ subject := by
  intro h
  have hhead := congrArg (fun text : String => text.toList.head?) h
  simp at hhead

theorem ne_check (text : String) : "check" ≠ "runtest-" ++ text ∧ "check" ≠ "testsubject-" ++ text := by
  constructor <;> intro h <;>
    exact absurd (congrArg (fun text : String => text.toList.head?) h) (by simp)

/-! ## The edges of a directory -/

/-- **The rules of accepted calls**, each in a project of its own: what targets there
are is another matter. -/
inductive RulesOf (s : Scope) : List (TestMacro × List String) → List Rule → Prop
  | nil : RulesOf s [] []
  | cons {calls rules} (c : TestMacro × List String) (p : Project) :
    RulesOf s calls rules → RulesOf s (c :: calls) (c.1.rules p s c.2 ++ rules)

variable {rules : List Rule}

theorem rulesOf_runRules {location : String → String} {table : Table}
    (h : runRules location s table calls = .ok rules) : RulesOf s calls rules := by
  induction calls generalizing table rules with
  | nil =>
    obtain rfl := Except.ok.inj h
    exact .nil
  | cons c calls ih =>
    obtain ⟨table', -, h⟩ := bind_eq_ok_iff.1 h
    obtain ⟨rest, hrest, h⟩ := bind_eq_ok_iff.1 h
    obtain rfl := Except.ok.inj h
    exact .cons c _ (ih hrest)

theorem RulesOf.mem (h : RulesOf s calls rules) {r : Rule} (hr : r ∈ rules) :
    ∃ c ∈ calls, ∃ p, r ∈ c.1.rules p s c.2 := by
  induction h with
  | nil => exact absurd hr List.not_mem_nil
  | cons c p _ ih =>
    rcases List.mem_append.1 hr with hr | hr
    · exact ⟨c, List.mem_cons_self, p, hr⟩
    · obtain ⟨d, hd, hmem⟩ := ih hr
      exact ⟨d, List.mem_cons_of_mem c hd, hmem⟩

theorem RulesOf.subset (h : RulesOf s calls rules) {c : TestMacro × List String} (hc : c ∈ calls) :
    ∃ p, c.1.rules p s c.2 ⊆ rules := by
  induction h with
  | nil => exact absurd hc List.not_mem_nil
  | cons d p _ ih =>
    rcases List.mem_cons.1 hc with rfl | hc
    · exact ⟨p, List.subset_append_left _ _⟩
    · obtain ⟨p, hp⟩ := ih hc
      exact ⟨p, List.Subset.trans hp (List.subset_append_right _ _)⟩

/-- The calls of a directory, with plain arguments that are accepted. -/
structure AcceptedCalls (s : Scope) (calls : List (TestMacro × List String)) : Prop where
  plain : ∀ c ∈ calls, PlainArguments c.2
  accepts : ∀ c ∈ calls, c.1.Accepts s c.2

/-- An edge of a directory is one of a call. -/
theorem RulesOf.edge (h : RulesOf s calls rules) (hcalls : AcceptedCalls s calls)
    (hneeds : Needs rules a b) : ∃ c ∈ calls, ∃ p, (a, b) ∈ c.1.edges p s c.2 := by
  have hedge : ∀ {c p}, c ∈ calls → Needs (c.1.rules p s c.2) a b → (a, b) ∈ c.1.edges p s c.2 :=
    fun hc => (needs_rules (hcalls.plain _ hc) (hcalls.accepts _ hc)).1
  rcases hneeds with hdependency | ⟨depends, command, htarget, hb⟩
  · obtain ⟨c, hc, p, hmem⟩ := h.mem hdependency
    exact ⟨c, hc, p, hedge hc (.inl hmem)⟩
  · obtain ⟨c, hc, p, hmem⟩ := h.mem htarget
    exact ⟨c, hc, p, hedge hc (.inr ⟨depends, command, hmem, hb⟩)⟩

/-- An edge that a call has in any project is one of the directory. -/
theorem RulesOf.needs (h : RulesOf s calls rules) (hcalls : AcceptedCalls s calls)
    {c : TestMacro × List String} (hc : c ∈ calls) (hedge : ∀ p, (a, b) ∈ c.1.edges p s c.2) :
    Needs rules a b := by
  obtain ⟨p, hsubset⟩ := h.subset hc
  rcases (needs_rules (hcalls.plain c hc) (hcalls.accepts c hc)).2 (hedge p) with
    hdependency | ⟨depends, command, htarget, hb⟩
  · exact .inl (hsubset hdependency)
  · exact .inr ⟨depends, command, hsubset htarget, hb⟩

/-- The tests of a directory. -/
theorem RulesOf.isTest_iff (h : RulesOf s calls rules) (hcalls : AcceptedCalls s calls)
    {name : String} : IsTest rules name ↔
      ∃ c ∈ calls, c.1.registersTest = true ∧ name = "runtest-" ++ c.1.target c.2 := by
  constructor
  · rintro ⟨command, htest⟩
    obtain ⟨c, hc, p, hmem⟩ := h.mem htest
    exact ⟨c, hc, (isTest_rules (hcalls.accepts c hc)).1 ⟨command, hmem⟩⟩
  · rintro ⟨c, hc, htest⟩
    obtain ⟨p, hsubset⟩ := h.subset hc
    obtain ⟨command, hmem⟩ := (isTest_rules (hcalls.accepts c hc)).2 htest
    exact ⟨command, hsubset hmem⟩

/-- **What an edge is**: from `check` to a test, from a subject to what belongs
to it, or from a test to what it runs. -/
theorem edge_cases (hunmixed : Unmixed s calls) {c : TestMacro × List String} (hc : c ∈ calls)
    (h : (a, b) ∈ c.1.edges p s c.2) :
    (a = "check" ∧ c.1.registersTest = true ∧ b = "runtest-" ++ c.1.target c.2) ∨
      (∃ test, a = "runtest-" ++ test ∧ PlainName b) ∨
      ∃ subject, a = "testsubject-" ++ subject ∧ (PlainName b ∨
        (∃ test, b = "runtest-" ++ test ∧ Attached calls subject test) ∨
          ∃ child, b = "testsubject-" ++ child ∧ ParentOf calls subject child) := by
  obtain ⟨m, argn⟩ := c
  have hplain := hunmixed _ hc
  cases m with
  | createTestSubject => exact absurd h List.not_mem_nil
  | addCustomTargetToSubject =>
    obtain ⟨rfl, rfl⟩ := Prod.mk.inj (List.mem_singleton.1 h)
    exact .inr (.inr ⟨_, rfl, .inl (hplain _ List.mem_cons_self)⟩)
  | addTestToSubject =>
    obtain ⟨rfl, rfl⟩ := Prod.mk.inj (List.mem_singleton.1 h)
    exact .inr (.inr ⟨_, rfl, .inr (.inl ⟨_, rfl, argn, hc, rfl, rfl⟩)⟩)
  | addSubjectToSubject =>
    obtain ⟨child, hchild, heq⟩ := List.mem_map.1 h
    obtain ⟨rfl, rfl⟩ := Prod.mk.inj heq
    rcases List.mem_append.1 hchild with hother | hlast
    · exact .inr (.inr ⟨_, rfl, .inl (hplain _ hother)⟩)
    · obtain rfl := List.mem_singleton.1 hlast
      exact .inr (.inr ⟨_, rfl, .inr (.inr ⟨_, rfl, argn, hc, rfl, rfl⟩)⟩)
  | addComplexTest =>
    rcases List.mem_cons.1 h with heq | h
    · obtain ⟨rfl, rfl⟩ := Prod.mk.inj heq
      exact .inl ⟨rfl, rfl, rfl⟩
    · rcases List.mem_append.1 h with h | h
      · obtain ⟨d, hd, heq⟩ := List.mem_map.1 h
        obtain ⟨rfl, rfl⟩ := Prod.mk.inj heq
        exact .inr (.inl ⟨_, rfl, hplain _ (List.mem_cons_of_mem _ hd)⟩)
      · split at h
        · obtain ⟨rfl, rfl⟩ := Prod.mk.inj (List.mem_singleton.1 h)
          exact .inr (.inl ⟨_, rfl, hplain _ List.mem_cons_self⟩)
        · exact absurd h List.not_mem_nil
  | addSimpleTest | addRegexMatchOutputTest | addCompareOutputTest =>
    rcases List.mem_cons.1 h with heq | h
    · obtain ⟨rfl, rfl⟩ := Prod.mk.inj heq
      exact .inl ⟨rfl, rfl, rfl⟩
    · obtain ⟨rfl, rfl⟩ := Prod.mk.inj (List.mem_singleton.1 h)
      exact .inr (.inl ⟨_, rfl, hplain _ List.mem_cons_self⟩)

/-- Nothing hangs on a plain name. -/
theorem RulesOf.not_needs_of_plainName (h : RulesOf s calls rules) (hcalls : AcceptedCalls s calls)
    (hunmixed : Unmixed s calls) (ha : PlainName a) : ¬ Needs rules a b := by
  intro hneeds
  obtain ⟨c, hc, p, hedge⟩ := h.edge hcalls hneeds
  rcases edge_cases hunmixed hc hedge with ⟨rfl, -⟩ | ⟨test, rfl, -⟩ | ⟨subject, rfl, -⟩
  · exact ha.check rfl
  · exact not_plainName_runtest test ha
  · exact not_plainName_subject subject ha

/-- From a test nothing but plain names is reached. -/
theorem RulesOf.reaches_runtest (h : RulesOf s calls rules) (hcalls : AcceptedCalls s calls)
    (hunmixed : Unmixed s calls) {test : String}
    (hreaches : ReflTransGen (Needs rules) ("runtest-" ++ test) b) :
    b = "runtest-" ++ test ∨ PlainName b := by
  induction hreaches with
  | refl => exact .inl rfl
  | tail _ hstep ih =>
    rcases ih with rfl | hname
    · obtain ⟨c, hc, p, hedge⟩ := h.edge hcalls hstep
      rcases edge_cases hunmixed hc hedge with ⟨heq, -⟩ | ⟨-, -, hname⟩ | ⟨subject, heq, -⟩
      · exact absurd heq.symm (ne_check test).1
      · exact .inr hname
      · exact absurd heq (runtest_ne_subject test subject)
    · exact absurd hstep (h.not_needs_of_plainName hcalls hunmixed hname)

/-- **The tests below a subject**: those of the subjects that it is above of. -/
theorem RulesOf.reaches_subject_iff (h : RulesOf s calls rules) (hcalls : AcceptedCalls s calls)
    (hunmixed : Unmixed s calls) {subject test : String} :
    ReflTransGen (Needs rules) ("testsubject-" ++ subject) ("runtest-" ++ test) ↔
      ∃ below, ReflTransGen (ParentOf calls) subject below ∧ Attached calls below test := by
  constructor
  · intro hreaches
    generalize hstart : "testsubject-" ++ subject = start at hreaches
    induction hreaches using ReflTransGen.head_induction_on generalizing subject with
    | refl => exact absurd hstart.symm (runtest_ne_subject test subject)
    | head hstep hrest ih =>
      subst hstart
      obtain ⟨c, hc, p, hedge⟩ := h.edge hcalls hstep
      rcases edge_cases hunmixed hc hedge with ⟨heq, -⟩ | ⟨test', heq, -⟩ | ⟨subject', heq, hmember⟩
      · exact absurd heq.symm (ne_check subject).2
      · exact absurd heq.symm (runtest_ne_subject test' subject)
      · obtain rfl := (String.append_right_inj _).1 heq
        rcases hmember with hname | ⟨test', rfl, hattached⟩ | ⟨child, rfl, hparent⟩
        · -- nothing is built behind a plain name
          exfalso
          rcases hrest.cases_head with rfl | ⟨z, hz, -⟩
          · exact not_plainName_runtest test hname
          · exact h.not_needs_of_plainName hcalls hunmixed hname hz
        · rcases h.reaches_runtest hcalls hunmixed hrest with heq | hname
          · obtain rfl := (String.append_right_inj _).1 heq
            exact ⟨subject, .refl, hattached⟩
          · exact absurd hname (not_plainName_runtest test)
        · obtain ⟨below, hbelow, hattached⟩ := ih rfl
          exact ⟨below, .head hparent hbelow, hattached⟩
  · rintro ⟨below, hbelow, argn, hargn, rfl, rfl⟩
    have hlast : Needs rules
        ("testsubject-" ++ (TestMacro.addTestToSubject.given argn "SUBJECT").headD "")
        ("runtest-" ++ TestMacro.addTestToSubject.target argn) :=
      h.needs hcalls hargn fun _ => List.mem_singleton.2 rfl
    refine ReflTransGen.tail ?_ hlast
    refine hbelow.lift (fun name => "testsubject-" ++ name) fun parent child hparent => ?_
    obtain ⟨argn, hargn, rfl, rfl⟩ := hparent
    exact h.needs hcalls hargn fun _ =>
      List.mem_map_of_mem (List.mem_append_right _ (List.mem_singleton.2 rfl))

/-- **`make check` builds what CTest runs**, and nothing hangs on `check`
besides. -/
theorem RulesOf.needs_check_iff (h : RulesOf s calls rules) (hcalls : AcceptedCalls s calls)
    (hunmixed : Unmixed s calls) {name : String} : Needs rules "check" name ↔ IsTest rules name := by
  rw [h.isTest_iff hcalls]
  constructor
  · intro hneeds
    obtain ⟨c, hc, p, hedge⟩ := h.edge hcalls hneeds
    rcases edge_cases hunmixed hc hedge with ⟨-, htest⟩ | ⟨test, heq, -⟩ | ⟨subject, heq, -⟩
    · exact ⟨c, hc, htest⟩
    · exact absurd heq (ne_check test).1
    · exact absurd heq (ne_check subject).2
  · rintro ⟨⟨m, argn⟩, hc, hregisters, rfl⟩
    refine h.needs hcalls hc fun p => ?_
    cases m with
    | addSimpleTest | addComplexTest | addRegexMatchOutputTest | addCompareOutputTest =>
      exact List.mem_cons_self
    | _ => exact absurd hregisters Bool.false_ne_true

/-- **The targets of a directory.** After a run whose calls are accepted and do not
mix names up, `make check` builds just the tests that CTest has, and the target of a
subject just the tests of that subject and of those below it. -/
theorem runMacros_targets {location : String → String} {table : Table} (hs : TestDirectory s)
    (hplain : ∀ c ∈ calls, PlainArguments c.2) (hunmixed : Unmixed s calls)
    (hrun : runMacros location s table calls = .ok rules) :
    (∀ name, Needs rules "check" name ↔ IsTest rules name) ∧
      ∀ subject test,
        ReflTransGen (Needs rules) ("testsubject-" ++ subject) ("runtest-" ++ test) ↔
          ∃ below, ReflTransGen (ParentOf calls) subject below ∧ Attached calls below test := by
  obtain ⟨hall, hsome⟩ := runMacros_leaves location hplain s table hs fun _ _ _ => rfl
  have haccepts : ∀ c ∈ calls, c.1.Accepts s c.2 := by
    by_contra hrefuses
    push Not at hrefuses
    obtain ⟨e, he⟩ := hsome hrefuses
    rw [hrun] at he
    cases he
  have hcalls : AcceptedCalls s calls := ⟨hplain, haccepts⟩
  have hrules : RulesOf s calls rules := rulesOf_runRules ((hall haccepts).symm.trans hrun)
  exact ⟨fun name => hrules.needs_check_iff hcalls hunmixed,
    fun subject test => hrules.reaches_subject_iff hcalls hunmixed⟩

instance : DecidablePred PlainName := fun name =>
  decidable_of_iff (¬ "runtest-".toList <+: name.toList ∧ ¬ "testsubject-".toList <+: name.toList ∧
    name ≠ "check") ⟨fun h => ⟨h.1, h.2.1, h.2.2⟩, fun h => ⟨h.1, h.2, h.3⟩⟩

theorem unmixed_twoSubjects : Unmixed projectScope twoSubjects := by
  unfold Unmixed
  decide

theorem runMacros_targets_twoSubjects :
    ∃ rules, runMacros binProject.location projectScope pingTable twoSubjects = .ok rules ∧
      (∀ name, Needs rules "check" name ↔ IsTest rules name) ∧
      ∀ subject test,
        ReflTransGen (Needs rules) ("testsubject-" ++ subject) ("runtest-" ++ test) ↔
          ∃ below, ReflTransGen (ParentOf twoSubjects) subject below ∧
            Attached twoSubjects below test := by
  have hisOk : (runRules binProject.location projectScope pingTable twoSubjects).isOk = true := by
    decide +kernel
  cases hrules : runRules binProject.location projectScope pingTable twoSubjects with
  | error e =>
    rw [hrules] at hisOk
    cases hisOk
  | ok rules =>
    have hrun := ((runMacros_leaves binProject.location plainArguments_twoSubjects projectScope
      pingTable testDirectory_projectScope fun _ _ _ => rfl).1 (by decide +kernel)).trans hrules
    exact ⟨rules, hrun, runMacros_targets testDirectory_projectScope plainArguments_twoSubjects
      unmixed_twoSubjects hrun⟩

end Tests

end Supercell
