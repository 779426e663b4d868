import Mathlib.Data.List.Induction
import Mathlib.Data.List.Pairwise
import Mathlib.Data.Option.Basic
import Mathlib.Order.Basic
import Mathlib.Logic.Function.Basic
import Mathlib.Tactic.Common

/-!
# Builds by time stamps

Rules that make files from files, and builds that run a rule only where an
output is missing or older than an input, as `make` does. Files are edited
between the builds.

A rule may read more than it declares as its inputs. Its outputs then come
from what stood there when it last ran: `seen` remembers that. Where the rules
read what they declare, and besides only files that nobody touches, this makes
no difference, and an incremental build leaves what a build from scratch leaves.
-/

namespace Supercell

namespace Builds

variable {File Content : Type*} [DecidableEq File]

/-- What the files hold, where there are any. -/
abbrev Contents (File Content : Type*) := File → Option Content

/-- **A rule**: the files it declares to make and to make them from, the files
it writes besides, and what it writes. -/
structure Rule (File Content : Type*) where
  outputs : List File
  inputs : List File
  byproducts : List File
  recipe : Contents File Content → File → Content

/-- The files that a rule writes. -/
def Rule.written (r : Rule File Content) : List File := r.outputs ++ r.byproducts

/-- **A tree of files**, with the times they were written at, a clock that is
ahead of them, and for each file that was made what stood in the tree when
that was done. -/
structure Tree (File Content : Type*) where
  disk : Contents File Content
  time : File → ℕ
  clock : ℕ
  seen : File → Contents File Content

/-- Some files are written. -/
def Tree.write (s : Tree File Content) (fs : List File) (c : File → Content) :
    Tree File Content where
  disk f := if f ∈ fs then some (c f) else s.disk f
  time f := if f ∈ fs then s.clock else s.time f
  clock := s.clock + 1
  seen := s.seen

/-- An output that need not be made: it is there, and no input is newer. -/
def Rule.Fresh (r : Rule File Content) (s : Tree File Content) (o : File) : Prop :=
  s.disk o ≠ none ∧ ∀ i ∈ r.inputs, s.time i ≤ s.time o

instance (r : Rule File Content) (s : Tree File Content) (o : File) : Decidable (r.Fresh s o) :=
  haveI : Decidable (s.disk o ≠ none) :=
    decidable_of_iff ((s.disk o).isSome = true) Option.isSome_iff_ne_none
  inferInstanceAs (Decidable (_ ∧ _))

/-- A rule runs. -/
def Rule.run (r : Rule File Content) (s : Tree File Content) : Tree File Content :=
  { s.write r.written (r.recipe s.disk) with
    seen := fun f => if f ∈ r.written then s.disk else s.seen f }

/-- **A rule is made**: it runs where an output is not fresh. An input that is
not there ends the build. -/
def Rule.make (r : Rule File Content) (s : Tree File Content) : Option (Tree File Content) :=
  if ∀ i ∈ r.inputs, (s.disk i).isSome = true then
    some (if ∀ o ∈ r.outputs, r.Fresh s o then s else r.run s)
  else none

/-- **A build**, in the order of the rules. -/
def build (rules : List (Rule File Content)) (s : Tree File Content) :
    Option (Tree File Content) :=
  rules.foldlM (fun s r => r.make s) s

/-- What happens to a tree. -/
inductive Event (File Content : Type*) where
  | edit (file : File) (content : Content)
  | build

def step (rules : List (Rule File Content)) (s : Tree File Content) :
    Event File Content → Option (Tree File Content)
  | .edit f c => some (s.write [f] fun _ => c)
  | .build => build rules s

/-- A history of edits and builds. -/
def history (rules : List (Rule File Content)) (s : Tree File Content)
    (events : List (Event File Content)) : Option (Tree File Content) :=
  events.foldlM (step rules) s

/-- **A build from scratch**: every rule runs, one after the other. -/
def clean (rules : List (Rule File Content)) (sources : Contents File Content) :
    Contents File Content :=
  rules.foldl (fun d r f => if f ∈ r.written then some (r.recipe d f) else d f) sources

/-! ## Rules that fit together -/

/-- **Rules in an order**: no two write the same file, none writes an input of
its own or of an earlier one, and what is written besides is no input. -/
structure Arranged (rules : List (Rule File Content)) : Prop where
  disjoint : rules.Pairwise fun r r' => ∀ f ∈ r.written, f ∉ r'.written
  forward : rules.Pairwise fun r r' => ∀ f ∈ r'.written, f ∉ r.inputs
  loopless : ∀ r ∈ rules, ∀ f ∈ r.written, f ∉ r.inputs
  byproduct : ∀ r ∈ rules, ∀ r' ∈ rules, ∀ f ∈ r'.byproducts, f ∉ r.inputs

/-- The rule reads what it declares, and some fixed files. -/
def Rule.Declares (r : Rule File Content) (fixed : File → Prop) : Prop :=
  ∀ d d' : Contents File Content, (∀ i ∈ r.inputs, d i = d' i) → (∀ f, fixed f → d f = d' f) →
    ∀ o ∈ r.outputs, r.recipe d o = r.recipe d' o

/-- The inputs are there, or made by an earlier rule. -/
def Supplied : List (Rule File Content) → (File → Prop) → Prop
  | [], _ => True
  | r :: rules, there =>
    (∀ i ∈ r.inputs, there i) ∧ Supplied rules fun f => there f ∨ f ∈ r.outputs

variable {rules : List (Rule File Content)} {r r' : Rule File Content} {s s' : Tree File Content}

omit [DecidableEq File] in
theorem Arranged.cons_inv (h : Arranged (r :: rules)) : Arranged rules where
  disjoint := (List.pairwise_cons.1 h.disjoint).2
  forward := (List.pairwise_cons.1 h.forward).2
  loopless r' hr' := h.loopless r' (List.mem_cons_of_mem _ hr')
  byproduct a ha b hb := h.byproduct a (List.mem_cons_of_mem _ ha) b (List.mem_cons_of_mem _ hb)

omit [DecidableEq File] in
/-- One rule at most writes a file. -/
theorem Arranged.eq_of_written (h : Arranged rules) (hr : r ∈ rules) (hr' : r' ∈ rules) {f : File}
    (hf : f ∈ r.written) (hf' : f ∈ r'.written) : r = r' := by
  by_contra hne
  have hsymm : Std.Symm fun a b : Rule File Content => ∀ f ∈ a.written, f ∉ b.written :=
    ⟨fun a b hab f hb ha => hab f ha hb⟩
  exact h.disjoint.forall hr hr' hne f hf hf'

/-! ## What stays true -/

/-- **What holds of a tree** at any time: a file that was made is what the
recipe made of what the rule has seen, and that is still there of the inputs
as long as the file is fresh. -/
structure Consistent (rules : List (Rule File Content)) (s : Tree File Content) : Prop where
  past : ∀ f, s.time f < s.clock
  made : ∀ r ∈ rules, ∀ o ∈ r.written, s.disk o = none ∨ s.disk o = some (r.recipe (s.seen o) o)
  current : ∀ r ∈ rules, ∀ o ∈ r.outputs, r.Fresh s o → ∀ i ∈ r.inputs, s.seen o i = s.disk i

omit [DecidableEq File] in
/-- A tree in which nothing has been made. -/
theorem Consistent.start (hpast : ∀ f, s.time f < s.clock)
    (hnone : ∀ r ∈ rules, ∀ o ∈ r.written, s.disk o = none) : Consistent rules s where
  past := hpast
  made r hr o ho := .inl (hnone r hr o ho)
  current r hr o ho hfresh := absurd (hnone r hr o (List.mem_append_left _ ho)) hfresh.1

theorem write_past (hpast : ∀ f, s.time f < s.clock) (fs : List File) (c : File → Content)
    (f : File) : (s.write fs c).time f < (s.write fs c).clock := by
  simp only [Tree.write]
  split
  · exact Nat.lt_succ_self _
  · exact Nat.lt_succ_of_lt (hpast f)

/-- An output that is fresh behind a write, and was not written, has no input
that was. -/
theorem fresh_of_write (hpast : ∀ f, s.time f < s.clock) {fs : List File} {c : File → Content}
    {o : File} (ho : o ∉ fs) (h : r.Fresh (s.write fs c) o) :
    r.Fresh s o ∧ ∀ i ∈ r.inputs, i ∉ fs := by
  obtain ⟨hdisk, hnewer⟩ := h
  simp only [Tree.write, if_neg ho] at hdisk hnewer
  have hnot : ∀ i ∈ r.inputs, i ∉ fs := by
    intro i hi hmem
    have hle := hnewer i hi
    rw [if_pos hmem] at hle
    exact absurd (hpast o) (Nat.not_lt.2 hle)
  refine ⟨⟨hdisk, fun i hi => ?_⟩, hnot⟩
  have hle := hnewer i hi
  rwa [if_neg (hnot i hi)] at hle

/-- **An edit** of a file that no rule writes. -/
theorem Consistent.edit (h : Consistent rules s) {f : File} (hf : ∀ r ∈ rules, f ∉ r.written)
    (c : Content) : Consistent rules (s.write [f] fun _ => c) where
  past := write_past h.past _ _
  made r hr o ho := by
    have hne : o ∉ [f] := fun hmem => hf r hr (List.mem_singleton.1 hmem ▸ ho)
    simp only [Tree.write, if_neg hne]
    exact h.made r hr o ho
  current r hr o ho hfresh i hi := by
    have hne : o ∉ [f] := fun hmem =>
      hf r hr (List.mem_singleton.1 hmem ▸ List.mem_append_left _ ho)
    obtain ⟨hfresh, hnot⟩ := fresh_of_write h.past hne hfresh
    simp only [Tree.write, if_neg (hnot i hi)]
    exact h.current r hr o ho hfresh i hi

/-- **A rule that runs.** -/
theorem Consistent.run (h : Consistent rules s) (harranged : Arranged rules) (hr : r ∈ rules) :
    Consistent rules (r.run s) where
  past := write_past h.past r.written (r.recipe s.disk)
  made r' hr' o ho := by
    simp only [Rule.run, Tree.write]
    by_cases hmem : o ∈ r.written
    · obtain rfl := harranged.eq_of_written hr hr' hmem ho
      rw [if_pos hmem, if_pos hmem]
      exact .inr rfl
    · rw [if_neg hmem, if_neg hmem]
      exact h.made r' hr' o ho
  current r' hr' o ho hfresh i hi := by
    simp only [Rule.run]
    by_cases hmem : o ∈ r.written
    · obtain rfl := harranged.eq_of_written hr hr' hmem (List.mem_append_left _ ho)
      have hnot : i ∉ r.written := fun hi' => harranged.loopless r hr i hi' hi
      simp only [if_pos hmem, Tree.write, if_neg hnot]
    · obtain ⟨hfresh, hnot⟩ := fresh_of_write h.past hmem hfresh
      simp only [if_neg hmem, Tree.write, if_neg (hnot i hi)]
      exact h.current r' hr' o ho hfresh i hi

theorem make_eq_some (h : r.make s = some s') :
    (∀ i ∈ r.inputs, (s.disk i).isSome = true) ∧
      s' = if ∀ o ∈ r.outputs, r.Fresh s o then s else r.run s := by
  unfold Rule.make at h
  split at h
  · rename_i hready
    exact ⟨hready, (Option.some.inj h).symm⟩
  · exact absurd h.symm (Option.some_ne_none s')

theorem Consistent.make (h : Consistent rules s) (harranged : Arranged rules) (hr : r ∈ rules)
    (hs : r.make s = some s') : Consistent rules s' := by
  obtain ⟨-, rfl⟩ := make_eq_some hs
  split
  · exact h
  · exact h.run harranged hr

/-- What holds of a tree and stays when any of the rules is made, holds
behind a build. -/
theorem build_induct {P : Tree File Content → Prop}
    (hmake : ∀ r ∈ rules, ∀ s s', r.make s = some s' → P s → P s') (hs : P s)
    (hbuild : build rules s = some s') : P s' := by
  induction rules generalizing s with
  | nil =>
    obtain rfl := Option.some.inj hbuild
    exact hs
  | cons r rules ih =>
    rw [build, List.foldlM_cons] at hbuild
    obtain ⟨t, ht, hrest⟩ := Option.bind_eq_some_iff.1 hbuild
    exact ih (fun r' hr' => hmake r' (List.mem_cons_of_mem _ hr'))
      (hmake r List.mem_cons_self s t ht hs) hrest

theorem Consistent.build (h : Consistent rules s) (harranged : Arranged rules)
    (hs : build rules s = some s') : Consistent rules s' :=
  build_induct (P := Consistent rules)
    (fun _ hr _ _ hmake hs => hs.make harranged hr hmake) h hs

/-! ## Behind a build -/

/-- Making another rule that writes neither an output nor an input leaves an
output fresh. -/
theorem Fresh.make {o : File} (h : r.Fresh s o) (ho : o ∉ r'.written)
    (hinputs : ∀ i ∈ r.inputs, i ∉ r'.written) (hs : r'.make s = some s') : r.Fresh s' o := by
  obtain ⟨-, rfl⟩ := make_eq_some hs
  split
  · exact h
  · refine ⟨?_, fun i hi => ?_⟩
    · simp only [Rule.run, Tree.write, if_neg ho]
      exact h.1
    · simp only [Rule.run, Tree.write, if_neg ho, if_neg (hinputs i hi)]
      exact h.2 i hi

/-- A rule that has been made is fresh. -/
theorem fresh_of_make (hpast : ∀ f, s.time f < s.clock) (hloop : ∀ f ∈ r.written, f ∉ r.inputs)
    (hs : r.make s = some s') : ∀ o ∈ r.outputs, r.Fresh s' o := by
  obtain ⟨-, rfl⟩ := make_eq_some hs
  intro o ho
  split
  · rename_i hfresh
    exact hfresh o ho
  · have hmem : o ∈ r.written := List.mem_append_left _ ho
    refine ⟨?_, fun i hi => ?_⟩
    · simp only [Rule.run, Tree.write, if_pos hmem]
      exact Option.some_ne_none _
    · have hnot : i ∉ r.written := fun hi' => hloop i hi' hi
      simp only [Rule.run, Tree.write, if_pos hmem, if_neg hnot]
      exact Nat.le_of_lt (hpast i)

theorem make_past (hpast : ∀ f, s.time f < s.clock) (hs : r.make s = some s') (f : File) :
    s'.time f < s'.clock := by
  obtain ⟨-, rfl⟩ := make_eq_some hs
  split
  · exact hpast f
  · exact write_past hpast r.written (r.recipe s.disk) f

/-- **Behind a build every output is fresh**: each rule leaves its own so, and
no later one touches them or their inputs. -/
theorem build_fresh (harranged : Arranged rules) (hpast : ∀ f, s.time f < s.clock)
    (hs : build rules s = some s') : ∀ r ∈ rules, ∀ o ∈ r.outputs, r.Fresh s' o := by
  induction rules generalizing s with
  | nil =>
    intro r hr
    exact absurd hr List.not_mem_nil
  | cons r rules ih =>
    rw [build, List.foldlM_cons] at hs
    obtain ⟨t, ht, hrest⟩ := Option.bind_eq_some_iff.1 hs
    intro r' hr' o ho
    rcases List.mem_cons.1 hr' with rfl | hr'
    · have hfirst := fresh_of_make hpast (harranged.loopless r' List.mem_cons_self) ht o ho
      have hdisjoint := (List.pairwise_cons.1 harranged.disjoint).1
      have hforward := (List.pairwise_cons.1 harranged.forward).1
      refine build_induct (P := fun s => r'.Fresh s o) (fun q hq s s' hmake hfresh => ?_) hfirst
        hrest
      exact Fresh.make hfresh (hdisjoint q hq o (List.mem_append_left _ ho))
        (fun i hi hw => hforward q hq i hw hi) hmake
    · exact ih harranged.cons_inv (make_past hpast ht) hrest r' hr' o ho

/-- Making a rule takes no file away. -/
theorem isSome_of_make (hs : r.make s = some s') {f : File} (hf : (s.disk f).isSome = true) :
    (s'.disk f).isSome = true := by
  obtain ⟨-, rfl⟩ := make_eq_some hs
  split
  · exact hf
  · simp only [Rule.run, Tree.write]
    split
    · rfl
    · exact hf

/-- **A build ends** where the inputs are supplied. -/
theorem build_isSome (hpast : ∀ f, s.time f < s.clock)
    (hloop : ∀ r ∈ rules, ∀ f ∈ r.written, f ∉ r.inputs) {there : File → Prop}
    (hthere : ∀ f, there f → (s.disk f).isSome = true) (h : Supplied rules there) :
    ∃ s', build rules s = some s' := by
  induction rules generalizing s there with
  | nil => exact ⟨s, rfl⟩
  | cons r rules ih =>
    obtain ⟨hinputs, hrest⟩ := h
    have hready : ∀ i ∈ r.inputs, (s.disk i).isSome = true := fun i hi => hthere i (hinputs i hi)
    obtain ⟨t, ht⟩ : ∃ t, r.make s = some t := ⟨_, if_pos hready⟩
    have hmade := fresh_of_make hpast (hloop r List.mem_cons_self) ht
    obtain ⟨s', hs'⟩ := ih (make_past hpast ht)
      (fun r' hr' => hloop r' (List.mem_cons_of_mem _ hr')) (fun f hf => hf.elim
        (fun hf => isSome_of_make ht (hthere f hf))
        fun hf => Option.isSome_iff_ne_none.2 (hmade f hf).1) hrest
    refine ⟨s', ?_⟩
    rw [build, List.foldlM_cons, ht]
    exact hs'

omit [DecidableEq File] in
/-- In an order of the rules, a file that is made is made before it is
needed. -/
theorem Arranged.supplied (h : Arranged rules) {there : File → Prop}
    (hinputs : ∀ r ∈ rules, ∀ i ∈ r.inputs, there i ∨ ∃ r' ∈ rules, i ∈ r'.outputs) :
    Supplied rules there := by
  induction rules generalizing there with
  | nil => trivial
  | cons r rules ih =>
    have hforward := (List.pairwise_cons.1 h.forward).1
    refine ⟨fun i hi => ?_, ih h.cons_inv fun r' hr' i hi => ?_⟩
    · rcases hinputs r List.mem_cons_self i hi with hthere | ⟨r', hr', hout⟩
      · exact hthere
      · exfalso
        have hwritten : i ∈ r'.written := List.mem_append_left _ hout
        rcases List.mem_cons.1 hr' with rfl | hr'
        · exact h.loopless r' List.mem_cons_self i hwritten hi
        · exact hforward r' hr' i hwritten hi
    · rcases hinputs r' (List.mem_cons_of_mem _ hr') i hi with hthere | ⟨q, hq, hout⟩
      · exact .inl (.inl hthere)
      · rcases List.mem_cons.1 hq with rfl | hq
        · exact .inl (.inr hout)
        · exact .inr ⟨q, hq, hout⟩

/-! ## Whole histories -/

/-- The edits of a history leave alone what the rules write. -/
def Edits (rules : List (Rule File Content)) (events : List (Event File Content)) : Prop :=
  ∀ f c, .edit f c ∈ events → ∀ r ∈ rules, f ∉ r.written

/-- What holds of a tree and stays through edits and builds, holds behind a
history. -/
theorem history_induct {P : Tree File Content → Prop} {events : List (Event File Content)}
    (hstep : ∀ e ∈ events, ∀ s s', step rules s e = some s' → P s → P s') (hs : P s)
    (hhistory : history rules s events = some s') : P s' := by
  induction events generalizing s with
  | nil =>
    obtain rfl := Option.some.inj hhistory
    exact hs
  | cons e events ih =>
    rw [history, List.foldlM_cons] at hhistory
    obtain ⟨t, ht, hrest⟩ := Option.bind_eq_some_iff.1 hhistory
    exact ih (fun e' he' => hstep e' (List.mem_cons_of_mem _ he'))
      (hstep e List.mem_cons_self s t ht hs) hrest

theorem Consistent.step (h : Consistent rules s) (harranged : Arranged rules)
    {e : Event File Content} (he : ∀ f c, e = .edit f c → ∀ r ∈ rules, f ∉ r.written)
    (hs : step rules s e = some s') : Consistent rules s' := by
  cases e with
  | edit f c =>
    obtain rfl := Option.some.inj hs
    exact h.edit (he f c rfl) c
  | build => exact h.build harranged hs

/-- Files that are there stay there. -/
theorem isSome_of_step {e : Event File Content} (hs : step rules s e = some s') {f : File}
    (hf : (s.disk f).isSome = true) : (s'.disk f).isSome = true := by
  cases e with
  | edit g c =>
    obtain rfl := Option.some.inj hs
    simp only [Tree.write]
    split
    · rfl
    · exact hf
  | build =>
    exact build_induct (P := fun s => (s.disk f).isSome = true)
      (fun _ _ _ _ hmake => isSome_of_make hmake) hf hs

/-- **A history ends** where the inputs are supplied in the beginning. -/
theorem history_isSome {events : List (Event File Content)} (harranged : Arranged rules)
    (hedits : Edits rules events) (h : Consistent rules s) {there : File → Prop}
    (hthere : ∀ f, there f → (s.disk f).isSome = true) (hsupplied : Supplied rules there) :
    ∃ s', history rules s events = some s' := by
  induction events generalizing s with
  | nil => exact ⟨s, rfl⟩
  | cons e events ih =>
    have hedit : ∀ f c, e = .edit f c → ∀ r ∈ rules, f ∉ r.written :=
      fun f c he => hedits f c (he ▸ List.mem_cons_self)
    obtain ⟨t, ht⟩ : ∃ t, Builds.step rules s e = some t := by
      cases e with
      | edit f c => exact ⟨_, rfl⟩
      | build => exact build_isSome h.past harranged.loopless hthere hsupplied
    obtain ⟨s', hs'⟩ := ih (fun f c hf => hedits f c (List.mem_cons_of_mem _ hf))
      (h.step harranged hedit ht) fun f hf => isSome_of_step ht (hthere f hf)
    refine ⟨s', ?_⟩
    rw [history, List.foldlM_cons, ht]
    exact hs'

theorem history_append (events events' : List (Event File Content)) :
    history rules s (events ++ events') =
      (history rules s events).bind fun t => history rules t events' :=
  List.foldlM_append

/-- **What a build leaves**, at the end of any history: each output is what
its recipe makes of what it saw, and of the inputs it saw what is there. -/
theorem history_build {events : List (Event File Content)} (harranged : Arranged rules)
    (hedits : Edits rules events) (h : Consistent rules s)
    (hs : history rules s (events ++ [.build]) = some s') :
    Consistent rules s' ∧ ∀ r ∈ rules, ∀ o ∈ r.outputs,
      s'.disk o = some (r.recipe (s'.seen o) o) ∧ ∀ i ∈ r.inputs, s'.seen o i = s'.disk i := by
  rw [history_append] at hs
  obtain ⟨t, ht, hlast⟩ := Option.bind_eq_some_iff.1 hs
  have hbuild : build rules t = some s' := by
    rw [history, List.foldlM_cons] at hlast
    obtain ⟨u, hu, hend⟩ := Option.bind_eq_some_iff.1 hlast
    obtain rfl := Option.some.inj hend
    exact hu
  have hconsistent : Consistent rules t :=
    history_induct (P := Consistent rules) (fun e he _ _ hstep hs =>
      hs.step harranged (fun f c heq => hedits f c (heq ▸ he)) hstep) h ht
  have hafter := hconsistent.build harranged hbuild
  have hfresh := build_fresh harranged hconsistent.past hbuild
  refine ⟨hafter, fun r hr o ho => ⟨?_, hafter.current r hr o ho (hfresh r hr o ho)⟩⟩
  exact (hafter.made r hr o (List.mem_append_left _ ho)).resolve_left (hfresh r hr o ho).1

/-! ## Incremental and clean builds -/

/-- The files that no rule writes. -/
def sources (rules : List (Rule File Content)) (d : Contents File Content) :
    Contents File Content :=
  fun f => if ∃ r ∈ rules, f ∈ r.written then none else d f

theorem clean_append (rules rules' : List (Rule File Content)) (d : Contents File Content) :
    clean (rules ++ rules') d = clean rules' (clean rules d) :=
  List.foldl_append

/-- Running the rules from scratch on the sources of a tree arrives at that
tree, where each output is what the recipe makes of its inputs. -/
theorem clean_eq_disk {d : Contents File Content} {before after : List (Rule File Content)}
    {fixed : File → Prop} (harranged : Arranged (before ++ after))
    (hdeclares : ∀ r ∈ before ++ after, r.Declares fixed)
    (hfixed : ∀ f, fixed f → ∀ r ∈ before ++ after, f ∉ r.written)
    (hmade : ∀ r ∈ before ++ after, ∀ o ∈ r.outputs, d o = some (r.recipe d o)) :
    ∀ f, (∃ r ∈ before, f ∈ r.outputs) ∨ (∀ r ∈ before ++ after, f ∉ r.written) →
      clean before (sources (before ++ after) d) f = d f := by
  induction before using List.reverseRecOn generalizing after with
  | nil =>
    rintro f (⟨r, hr, -⟩ | hf)
    · exact absurd hr List.not_mem_nil
    · refine if_neg ?_
      rintro ⟨r, hr, hmem⟩
      exact hf r hr hmem
  | append_singleton before r ih =>
    intro f hf
    have hassoc : before ++ [r] ++ after = before ++ (r :: after) := by simp
    rw [hassoc] at harranged hdeclares hfixed hmade hf ⊢
    specialize ih harranged hdeclares hfixed hmade
    have hr : r ∈ before ++ r :: after := by simp
    rw [clean_append]
    change (if f ∈ r.written then some (r.recipe (clean before _) f) else clean before _ f) = d f
    by_cases hmem : f ∈ r.written
    · rw [if_pos hmem]
      have hout : f ∈ r.outputs := by
        rcases hf with ⟨r', hr', hout⟩ | hnone
        · have hr'' : r' ∈ before ++ r :: after := by
            rcases List.mem_append.1 hr' with hr' | hr'
            · exact List.mem_append_left _ hr'
            · exact List.mem_singleton.1 hr' ▸ hr
          have heq := harranged.eq_of_written hr hr'' hmem (List.mem_append_left _ hout)
          rwa [heq]
        · exact absurd hmem (hnone r hr)
      rw [hmade r hr f hout]
      refine congrArg some (hdeclares r hr _ _ (fun i hi => ih i ?_)
        (fun g hg => ih g (.inr (hfixed g hg))) f hout)
      -- an input is no file that this rule or a later one writes
      by_cases hwritten : ∃ r' ∈ before ++ r :: after, i ∈ r'.written
      · obtain ⟨r', hr', hiw⟩ := hwritten
        have hiout : i ∈ r'.outputs := (List.mem_append.1 hiw).resolve_right
          fun hby => harranged.byproduct r hr r' hr' i hby hi
        rcases List.mem_append.1 hr' with hbefore | hlater
        · exact .inl ⟨r', hbefore, hiout⟩
        · exfalso
          rcases List.mem_cons.1 hlater with rfl | hlater
          · exact harranged.loopless r' hr i hiw hi
          · have hforward := (List.pairwise_cons.1
              (List.pairwise_append.1 harranged.forward).2.1).1
            exact hforward r' hlater i hiw hi
      · exact .inr fun r' hr' hiw => hwritten ⟨r', hr', hiw⟩
    · rw [if_neg hmem]
      refine ih f ?_
      rcases hf with ⟨r', hr', hout⟩ | hnone
      · rcases List.mem_append.1 hr' with hr' | hr'
        · exact .inl ⟨r', hr', hout⟩
        · exact absurd (List.mem_append_left _ (List.mem_singleton.1 hr' ▸ hout)) hmem
      · exact .inr hnone

/-- A fixed file was seen as it is. -/
def Kept (rules : List (Rule File Content)) (fixed : File → Prop) (s : Tree File Content) : Prop :=
  ∀ r ∈ rules, ∀ o ∈ r.written, s.disk o ≠ none → ∀ f, fixed f → s.seen o f = s.disk f

/-- A write of other files keeps what the outputs are seen with. -/
theorem Kept.make {fixed : File → Prop} (h : Kept rules fixed s)
    (hfixed : ∀ f, fixed f → ∀ r ∈ rules, f ∉ r.written) (hr : r ∈ rules)
    (hs : r.make s = some s') : Kept rules fixed s' := by
  obtain ⟨-, rfl⟩ := make_eq_some hs
  split
  · exact h
  · intro r' hr' o ho hdisk f hf
    have hnot : f ∉ r.written := hfixed f hf r hr
    simp only [Rule.run, Tree.write, if_neg hnot] at hdisk ⊢
    by_cases hmem : o ∈ r.written
    · rw [if_pos hmem]
    · rw [if_neg hmem] at hdisk ⊢
      exact h r' hr' o ho hdisk f hf

theorem Kept.step {fixed : File → Prop} (h : Kept rules fixed s)
    (hfixed : ∀ f, fixed f → ∀ r ∈ rules, f ∉ r.written) {e : Event File Content}
    (he : ∀ f c, e = .edit f c → ¬ fixed f ∧ ∀ r ∈ rules, f ∉ r.written)
    (hs : step rules s e = some s') : Kept rules fixed s' := by
  cases e with
  | edit g c =>
    obtain rfl := Option.some.inj hs
    obtain ⟨hg, hwritten⟩ := he g c rfl
    intro r hr o ho hdisk f hf
    have hof : o ∉ [g] := fun hmem => hwritten r hr (List.mem_singleton.1 hmem ▸ ho)
    have hfg : f ∉ [g] := fun hmem => hg (List.mem_singleton.1 hmem ▸ hf)
    simp only [Tree.write, if_neg hof, if_neg hfg] at hdisk ⊢
    exact h r hr o ho hdisk f hf
  | build =>
    exact build_induct (P := Kept rules fixed)
      (fun _ hr _ _ hmake h => h.make hfixed hr hmake) h hs

/-- **Incremental builds are clean builds.** Where every rule reads what it
declares, and besides only what nobody edits, a build at the end of any history
leaves in the outputs what the recipes make of what is there, and what a build
from scratch makes of the sources. -/
theorem history_clean {events : List (Event File Content)} {fixed : File → Prop}
    (harranged : Arranged rules) (hdeclares : ∀ r ∈ rules, r.Declares fixed)
    (hfixed : ∀ f, fixed f → ∀ r ∈ rules, f ∉ r.written) (hedits : Edits rules events)
    (hkeep : ∀ f c, .edit f c ∈ events → ¬ fixed f) (h : Consistent rules s)
    (hkept : Kept rules fixed s) (hinputs : ∀ r ∈ rules, ∀ i ∈ r.inputs,
      (s.disk i).isSome = true ∨ ∃ r' ∈ rules, i ∈ r'.outputs) :
    ∃ s', history rules s (events ++ [.build]) = some s' ∧ ∀ r ∈ rules, ∀ o ∈ r.outputs,
      s'.disk o = some (r.recipe s'.disk o) ∧
        s'.disk o = clean rules (sources rules s'.disk) o := by
  have hevents : Edits rules (events ++ [.build]) := by
    intro f c hmem
    rcases List.mem_append.1 hmem with hmem | hmem
    · exact hedits f c hmem
    · exact absurd (List.mem_singleton.1 hmem) (by simp)
  obtain ⟨s', hs'⟩ := history_isSome harranged hevents h (fun _ hf => hf)
    (harranged.supplied hinputs)
  obtain ⟨-, hbuilt⟩ := history_build harranged hedits h hs'
  have hkept' : Kept rules fixed s' := by
    refine history_induct (P := Kept rules fixed) (fun e he s s' hstep h => ?_) hkept hs'
    refine h.step hfixed (fun f c heq => ?_) hstep
    subst heq
    refine ⟨hkeep f c ?_, hevents f c he⟩
    exact (List.mem_append.1 he).resolve_right fun hmem =>
      absurd (List.mem_singleton.1 hmem) (by simp)
  have hmade : ∀ r ∈ rules, ∀ o ∈ r.outputs, s'.disk o = some (r.recipe s'.disk o) := by
    intro r hr o ho
    obtain ⟨hdisk, hseen⟩ := hbuilt r hr o ho
    have hthere : s'.disk o ≠ none := hdisk ▸ Option.some_ne_none _
    rw [hdisk, hdeclares r hr _ _ hseen (hkept' r hr o (List.mem_append_left _ ho) hthere) o ho]
  refine ⟨s', hs', fun r hr o ho => ⟨hmade r hr o ho, ?_⟩⟩
  have hclean := @clean_eq_disk File Content _ s'.disk rules [] fixed
  simp only [List.append_nil] at hclean
  exact (hclean harranged hdeclares hfixed hmade o (.inl ⟨r, hr, ho⟩)).symm

end Builds

end Supercell
