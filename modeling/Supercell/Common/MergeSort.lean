import Mathlib.Data.List.Basic
import Mathlib.Data.List.Sort

/-!
# Merge sorts

A merge sort divides a list, sorts the parts and merges the two runs, and
takes the element of the right run first exactly when the comparison says so.
Where the list is divided is left open. Under a strict weak order the result
is sorted and stable, and it does not depend on the division. Under the
reflexive closure of one the sort is still a merge sort, by the strict order
and of the reversed list.
-/

namespace Supercell

namespace MergeSort

variable {α : Type*} {comp : α → α → Bool}

/-- Two runs merged: the element of the right run goes first exactly when it
compares before the one of the left run. -/
def mergeRuns (comp : α → α → Bool) (left right : List α) : List α :=
  left.merge right fun x y => !comp y x

/-- **The results of merge sorts** of a list, for all its divisions. -/
inductive IsMergeSort (comp : α → α → Bool) : List α → List α → Prop where
  | nil : IsMergeSort comp [] []
  | single (a : α) : IsMergeSort comp [a] [a]
  | merge {left right out₁ out₂ : List α} : IsMergeSort comp left out₁ →
      IsMergeSort comp right out₂ → IsMergeSort comp (left ++ right) (mergeRuns comp out₁ out₂)

/-- What a comparison promises. -/
structure StrictWeakOrder (comp : α → α → Bool) : Prop where
  asymm {x y : α} : comp x y = true → comp y x = false
  neg_trans {x y z : α} : comp x y = false → comp y z = false → comp x z = false

/-- Elements that compare neither way. -/
def equivalent (comp : α → α → Bool) (x y : α) : Bool := !comp x y && !comp y x

theorem mergeRuns_perm (left right : List α) :
    (mergeRuns comp left right).Perm (left ++ right) :=
  List.merge_perm_append _

theorem IsMergeSort.perm {l out : List α} (h : IsMergeSort comp l out) : out.Perm l := by
  induction h with
  | nil => exact .nil
  | single a => exact .refl _
  | merge _ _ ih₁ ih₂ => exact (mergeRuns_perm _ _).trans (ih₁.append ih₂)

/-! ## The comparison the other way round -/

/-- The comparison that says of two elements what `comp` denies of their
exchange. -/
def dual (comp : α → α → Bool) (x y : α) : Bool := !comp y x

@[simp] theorem dual_dual (comp : α → α → Bool) : dual (dual comp) = comp := by
  funext x y
  rw [dual, dual, Bool.not_not]

/-- Merging with the dual comparison is merging with the runs exchanged. -/
theorem mergeRuns_dual (left right : List α) :
    mergeRuns (dual comp) left right = mergeRuns comp right left := by
  unfold mergeRuns
  induction left generalizing right with
  | nil => rw [List.nil_merge, List.merge_right]
  | cons x left ihl =>
    induction right with
    | nil => rw [List.nil_merge, List.merge_right]
    | cons y right ihr =>
      rw [List.cons_merge_cons, List.cons_merge_cons, ihl, ihr, dual, Bool.not_not]
      cases comp x y <;> rfl

/-- **A merge sort is one of the reversed list** by the dual comparison. -/
theorem IsMergeSort.reverse {l out : List α} (h : IsMergeSort comp l out) :
    IsMergeSort (dual comp) l.reverse out := by
  induction h with
  | nil => exact .nil
  | single a => exact .single a
  | merge _ _ ih₁ ih₂ =>
    rw [List.reverse_append, ← mergeRuns_dual, ← mergeRuns_dual, mergeRuns_dual]
    exact .merge ih₂ ih₁

/-! ## Strict weak orders -/

/-- A run in order: no element compares before an earlier one. -/
def Ordered (comp : α → α → Bool) (l : List α) : Prop := l.Pairwise fun x y => comp y x = false

theorem StrictWeakOrder.irrefl (hw : StrictWeakOrder comp) (x : α) : comp x x = false := by
  cases hx : comp x x with
  | false => rfl
  | true => rw [← hx, hw.asymm hx]

theorem mergeRuns_ordered (hw : StrictWeakOrder comp) {left right : List α}
    (hl : Ordered comp left) (hr : Ordered comp right) :
    Ordered comp (mergeRuns comp left right) := by
  have hmerge := @List.pairwise_merge _ (fun x y => !comp y x)
    (fun x y z hxy hyz => by
      rw [Bool.not_eq_true'] at hxy hyz ⊢
      exact hw.neg_trans hyz hxy)
    (fun x y => by
      cases hyx : comp y x with
      | false => rfl
      | true => rw [hw.asymm hyx]; rfl)
    left right (hl.imp fun h => by rw [h]; rfl) (hr.imp fun h => by rw [h]; rfl)
  exact hmerge.imp fun h => by rwa [Bool.not_eq_true'] at h

theorem IsMergeSort.ordered (hw : StrictWeakOrder comp) {l out : List α}
    (h : IsMergeSort comp l out) : Ordered comp out := by
  induction h with
  | nil => exact .nil
  | single a => exact List.pairwise_singleton _ a
  | merge _ _ ih₁ ih₂ => exact mergeRuns_ordered hw ih₁ ih₂

/-- Merging keeps the order of the elements of a class: where one of the right
run goes first, no element of the class is left in the left run. -/
theorem filter_mergeRuns (hw : StrictWeakOrder comp) {p : α → Bool}
    (hp : ∀ x y, p x = true → p y = true → comp x y = false) {left right : List α}
    (hl : Ordered comp left) :
    (mergeRuns comp left right).filter p = left.filter p ++ right.filter p := by
  unfold mergeRuns
  induction left generalizing right with
  | nil => rw [List.nil_merge, List.filter_nil, List.nil_append]
  | cons x left ihl =>
    induction right with
    | nil => rw [List.merge_right, List.filter_nil, List.append_nil]
    | cons y right ihr =>
      obtain ⟨hx, hleft⟩ := List.pairwise_cons.1 hl
      rw [List.cons_merge_cons]
      split
      · rw [List.filter_cons, ihl hleft, List.filter_cons (x := x)]
        split
        · rw [List.cons_append]
        · rfl
      · rename_i hyx
        rw [Bool.not_eq_true', Bool.not_eq_false] at hyx
        rw [List.filter_cons, ihr]
        split
        · rename_i hy
          have hnil : (x :: left).filter p = [] := by
            refine List.filter_eq_nil_iff.2 fun z hz hpz => ?_
            -- everything in the left run comes behind `y`
            have hzx : comp z x = false := by
              rcases List.mem_cons.1 hz with rfl | hz
              · exact hw.irrefl z
              · exact hx z hz
            rw [hw.neg_trans (hp y z hy hpz) hzx] at hyx
            exact Bool.noConfusion hyx
          rw [hnil, List.nil_append, List.nil_append, List.filter_cons, if_pos hy]
        · rename_i hy
          rw [List.filter_cons_of_neg hy]

/-- **A merge sort is stable** under a strict weak order. -/
theorem IsMergeSort.filter_eq (hw : StrictWeakOrder comp) {p : α → Bool}
    (hp : ∀ x y, p x = true → p y = true → comp x y = false) {l out : List α}
    (h : IsMergeSort comp l out) : out.filter p = l.filter p := by
  induction h with
  | nil => rfl
  | single a => rfl
  | merge h₁ _ ih₁ ih₂ =>
    rw [filter_mergeRuns hw hp (h₁.ordered hw), ih₁, ih₂, List.filter_append]

theorem StrictWeakOrder.not_comp_of_equivalent (hw : StrictWeakOrder comp) (z : α) {x y : α}
    (hx : equivalent comp z x = true) (hy : equivalent comp z y = true) : comp x y = false := by
  rw [equivalent, Bool.and_eq_true, Bool.not_eq_true', Bool.not_eq_true'] at hx hy
  exact hw.neg_trans hx.2 hy.1

/-- Lists in order whose classes agree are the same list. -/
theorem eq_of_ordered (hw : StrictWeakOrder comp) {l₁ l₂ : List α} (h₁ : Ordered comp l₁)
    (h₂ : Ordered comp l₂)
    (h : ∀ x, l₁.filter (equivalent comp x) = l₂.filter (equivalent comp x)) : l₁ = l₂ := by
  have hself : ∀ x, equivalent comp x x = true := fun x => by
    rw [equivalent, hw.irrefl x]
    rfl
  induction l₁ generalizing l₂ with
  | nil =>
    cases l₂ with
    | nil => rfl
    | cons y l₂ =>
      have hy := h y
      rw [List.filter_nil, List.filter_cons_of_pos (hself y)] at hy
      exact absurd hy.symm (List.cons_ne_nil _ _)
  | cons x l₁ ih =>
    cases l₂ with
    | nil =>
      have hx := h x
      rw [List.filter_nil, List.filter_cons_of_pos (hself x)] at hx
      exact absurd hx (List.cons_ne_nil _ _)
    | cons y l₂ =>
      obtain ⟨hx, hl₁⟩ := List.pairwise_cons.1 h₁
      obtain ⟨hy, hl₂⟩ := List.pairwise_cons.1 h₂
      -- neither head comes before the other: each is somewhere in the other list
      have hyx : comp x y = false := by
        have hmem : x ∈ (y :: l₂).filter (equivalent comp x) := by
          rw [← h x, List.filter_cons_of_pos (hself x)]
          exact List.mem_cons_self
        rcases List.mem_cons.1 (List.mem_filter.1 hmem).1 with rfl | hmem
        · exact hw.irrefl x
        · exact hy x hmem
      have hxy : comp y x = false := by
        have hmem : y ∈ (x :: l₁).filter (equivalent comp y) := by
          rw [h y, List.filter_cons_of_pos (hself y)]
          exact List.mem_cons_self
        rcases List.mem_cons.1 (List.mem_filter.1 hmem).1 with rfl | hmem
        · exact hw.irrefl y
        · exact hx y hmem
      have heq : equivalent comp x y = true := by
        rw [equivalent, hyx, hxy]
        rfl
      have hhead := h x
      rw [List.filter_cons_of_pos (hself x), List.filter_cons_of_pos heq] at hhead
      obtain rfl := (List.cons.inj hhead).1
      refine congrArg _ (ih hl₁ hl₂ fun z => ?_)
      have hz := h z
      rw [List.filter_cons, List.filter_cons] at hz
      split at hz
      · exact (List.cons.inj hz).2
      · exact hz

/-- **The division does not show** under a strict weak order. -/
theorem IsMergeSort.unique (hw : StrictWeakOrder comp) {l out₁ out₂ : List α}
    (h₁ : IsMergeSort comp l out₁) (h₂ : IsMergeSort comp l out₂) : out₁ = out₂ :=
  eq_of_ordered hw (h₁.ordered hw) (h₂.ordered hw) fun x =>
    (h₁.filter_eq hw fun _ _ => hw.not_comp_of_equivalent x).trans
      (h₂.filter_eq hw fun _ _ => hw.not_comp_of_equivalent x).symm

/-! ## The head and the surroundings of an element -/

/-- **The head of a sorted list** is the first element of the list before which
none compares. -/
theorem IsMergeSort.head?_eq (hw : StrictWeakOrder comp) {front back out : List α} {x : α}
    (h : IsMergeSort comp (front ++ x :: back) out) (hfront : ∀ y ∈ front, comp x y = true)
    (hback : ∀ y ∈ back, comp y x = false) : out.head? = some x := by
  have hperm := h.perm
  have hmem : x ∈ out := hperm.mem_iff.2 (List.mem_append_right front List.mem_cons_self)
  obtain ⟨z, rest, rfl⟩ := List.exists_cons_of_ne_nil (List.ne_nil_of_mem hmem)
  have hxz : comp x z = false := by
    rcases List.mem_cons.1 hmem with rfl | hrest
    · exact hw.irrefl x
    · exact (List.pairwise_cons.1 (h.ordered hw)).1 x hrest
  -- the class of the head reads alike in both lists, and `x` opens it in the one that was sorted
  have hclass : ∀ u v, equivalent comp z u = true → equivalent comp z v = true → comp u v = false :=
    fun u v => hw.not_comp_of_equivalent z
  have hfilter := h.filter_eq hw hclass
  have hfrontNil : front.filter (equivalent comp z) = [] := by
    refine List.filter_eq_nil_iff.2 fun y hy heq => ?_
    rw [equivalent, Bool.and_eq_true, Bool.not_eq_true', Bool.not_eq_true'] at heq
    have hxy := hfront y hy
    rw [hw.neg_trans hxz heq.1] at hxy
    exact Bool.noConfusion hxy
  have hzx : comp z x = false := by
    rcases List.mem_append.1 (hperm.mem_iff.1 List.mem_cons_self) with hz | hz
    · rw [hfront z hz] at hxz
      exact Bool.noConfusion hxz
    · rcases List.mem_cons.1 hz with rfl | hz
      · exact hxz
      · exact hback z hz
  have hself : equivalent comp z z = true := by simp [equivalent, hw.irrefl z]
  have hx : equivalent comp z x = true := by simp [equivalent, hzx, hxz]
  rw [List.filter_append, hfrontNil, List.nil_append, List.filter_cons_of_pos hself,
    List.filter_cons_of_pos hx] at hfilter
  rw [List.head?_cons, (List.cons.inj hfilter).1]

/-- **An ordered list around an element**: what compares before it, what
compares neither way and what it compares before, in this order. -/
theorem Ordered.eq_blocks (hw : StrictWeakOrder comp) {l : List α} (h : Ordered comp l) (v : α) :
    l = l.filter (fun x => comp x v) ++
      (l.filter (equivalent comp v) ++ l.filter fun x => comp v x) := by
  induction l with
  | nil => rfl
  | cons x l ih =>
    obtain ⟨hx, hl⟩ := List.pairwise_cons.1 h
    specialize ih hl
    cases hxv : comp x v with
    | true =>
      have hvx := hw.asymm hxv
      rw [List.filter_cons_of_pos (p := fun x => comp x v) hxv,
        List.filter_cons_of_neg (by simp [equivalent, hxv]),
        List.filter_cons_of_neg (p := fun x => comp v x) (by simp [hvx]), List.cons_append, ← ih]
    | false =>
      -- nothing behind `x` compares before `v`
      have hlow : l.filter (fun x => comp x v) = [] := by
        refine List.filter_eq_nil_iff.2 fun z hz => ?_
        rw [hw.neg_trans (hx z hz) hxv]
        exact Bool.false_ne_true
      rw [hlow, List.nil_append] at ih
      rw [List.filter_cons_of_neg (p := fun x => comp x v) (by simp [hxv]), hlow, List.nil_append]
      cases hvx : comp v x with
      | false =>
        rw [List.filter_cons_of_pos (by simp [equivalent, hxv, hvx]),
          List.filter_cons_of_neg (p := fun x => comp v x) (by simp [hvx]), List.cons_append, ← ih]
      | true =>
        have hmiddle : l.filter (equivalent comp v) = [] := by
          refine List.filter_eq_nil_iff.2 fun z hz heq => ?_
          rw [equivalent, Bool.and_eq_true, Bool.not_eq_true', Bool.not_eq_true'] at heq
          rw [hw.neg_trans heq.1 (hx z hz)] at hvx
          exact Bool.noConfusion hvx
        rw [hmiddle, List.nil_append] at ih
        rw [List.filter_cons_of_neg (by simp [equivalent, hvx]), hmiddle, List.nil_append,
          List.filter_cons_of_pos (p := fun x => comp v x) hvx, ← ih]

/-! ## A merge sort -/

/-- The division into the first element and the rest. -/
def insertionSort (comp : α → α → Bool) : List α → List α
  | [] => []
  | a :: l => mergeRuns comp [a] (insertionSort comp l)

theorem insertionSort_isMergeSort (comp : α → α → Bool) (l : List α) :
    IsMergeSort comp l (insertionSort comp l) := by
  induction l with
  | nil => exact .nil
  | cons a l ih => exact .merge (.single a) ih

end MergeSort

end Supercell
