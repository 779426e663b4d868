import Supercell.Thrust.Sorts

/-!
# The count wrappers

`thrust_count_if_…` count the elements of an array that a predicate holds of.
Thrust enters as the one function they call.

The wrappers that compare with a value give the places it has in the sorted
array: a sort wrapper leaves the elements it puts in front of the value first,
as many as the strict count says, then the value itself, as often as the count
of equals says.
-/

namespace Supercell

namespace Thrust

open MergeSort

variable {T : IntType}

/-! ## Predicates -/

namespace CountPredicate

/-- `x & 1`, the lowest bit. -/
def isOdd (x : T.Carrier) : Bool := x.val % 2 = 1

/-- `!(x & 1)` -/
def isEven (x : T.Carrier) : Bool := !(x.val % 2 = 1)

def isEqualTo (rhs lhs : T.Carrier) : Bool := lhs.val = rhs.val

def isNotEqualTo (rhs lhs : T.Carrier) : Bool := lhs.val ≠ rhs.val

/-- `x % multiple == 0`, with the remainder of a division that rounds towards
zero; by a `multiple` of 0 there is none. -/
def isMultipleOf (multiple x : T.Carrier) : Bool := x.val.tmod multiple.val = 0

def isSmallerThen (v x : T.Carrier) : Bool := x.val < v.val

def isGreaterThen (v x : T.Carrier) : Bool := x.val > v.val

def isSmallerThenOrEqualTo (v x : T.Carrier) : Bool := x.val ≤ v.val

def isGreaterThenOrEqualTo (v x : T.Carrier) : Bool := x.val ≥ v.val

end CountPredicate

open CountPredicate

/-! ## Thrust -/

/-- The function of Thrust that the wrappers call. -/
structure CountLibrary where
  /-- `thrust::count_if` -/
  countIf {α : Type} (range : List α) (pred : α → Bool) : ℕ

/-- **What Thrust documents**: the number of elements of which the predicate
holds. -/
structure CountLibrary.Documented (t : CountLibrary) : Prop where
  countIf {α : Type} (range : List α) (pred : α → Bool) :
    t.countIf range pred = range.countP pred

/-! ## The wrappers -/

section Wrappers

variable (t : CountLibrary) (data : ℕ → T.Carrier) (size : ℕ) (value : T.Carrier)

/-- `thrust_count_if_equal_to` -/
def thrustCountIfEqualTo : ℕ := t.countIf (elements data size) (isEqualTo value)

/-- `thrust_count_if_not_equal_to` -/
def thrustCountIfNotEqualTo : ℕ := t.countIf (elements data size) (isNotEqualTo value)

/-- `thrust_count_if_odd` -/
def thrustCountIfOdd : ℕ := t.countIf (elements data size) isOdd

/-- `thrust_count_if_even` -/
def thrustCountIfEven : ℕ := t.countIf (elements data size) isEven

/-- `thrust_count_if_multiple_of` -/
def thrustCountIfMultipleOf : ℕ := t.countIf (elements data size) (isMultipleOf value)

/-- `thrust_count_if_smaller_then` -/
def thrustCountIfSmallerThen : ℕ := t.countIf (elements data size) (isSmallerThen value)

/-- `thrust_count_if_greater_then` -/
def thrustCountIfGreaterThen : ℕ := t.countIf (elements data size) (isGreaterThen value)

/-- `thrust_count_if_smaller_then_or_equal_to` -/
def thrustCountIfSmallerThenOrEqualTo : ℕ :=
  t.countIf (elements data size) (isSmallerThenOrEqualTo value)

/-- `thrust_count_if_greater_then_or_equal_to` -/
def thrustCountIfGreaterThenOrEqualTo : ℕ :=
  t.countIf (elements data size) (isGreaterThenOrEqualTo value)

/-- The count of the elements that a sort by the operator puts in front of
the value. -/
def countInFront (op : SortOp) : ℕ :=
  match op with
  | .greater | .greaterEqual => thrustCountIfGreaterThen t data size value
  | .less | .lessEqual => thrustCountIfSmallerThen t data size value

/-- The count of these and the elements that equal the value. -/
def countUpTo (op : SortOp) : ℕ :=
  match op with
  | .greater | .greaterEqual => thrustCountIfGreaterThenOrEqualTo t data size value
  | .less | .lessEqual => thrustCountIfSmallerThenOrEqualTo t data size value

end Wrappers

/-! ## Counts that add up -/

/-- Where two predicates exclude each other and a third is their union, the
counts add up. -/
theorem countP_eq_add {α : Type} {p q r : α → Bool} (hr : ∀ x, r x = (p x || q x))
    (hpq : ∀ x, p x = true → q x = false) (l : List α) :
    l.countP r = l.countP p + l.countP q := by
  induction l with
  | nil => rfl
  | cons x l ih =>
    rw [List.countP_cons, List.countP_cons, List.countP_cons, ih, hr x]
    cases hp : p x with
    | true =>
      rw [hpq x hp]
      simp only [Bool.true_or, if_true, Bool.false_eq_true, if_false]
      omega
    | false =>
      simp only [Bool.false_or, Bool.false_eq_true, if_false]
      omega

/-- Where one of two predicates denies the other, the counts come to the
length. -/
theorem countP_add_countP {α : Type} {p q : α → Bool} (hq : ∀ x, q x = !p x) (l : List α) :
    l.countP p + l.countP q = l.length := by
  rw [← countP_eq_add (r := fun _ => true) (fun x => by rw [hq x]; cases p x <;> rfl)
    (fun x hp => by rw [hq x, hp]; rfl), List.countP_true]

@[simp] theorem length_elements {α : Type} (data : ℕ → α) (size : ℕ) :
    (elements data size).length = size := by
  rw [elements, List.length_map, List.length_range]

section Predicates

variable (value x : T.Carrier)

theorem isGreaterThenOrEqualTo_eq :
    isGreaterThenOrEqualTo value x = (isGreaterThen value x || isEqualTo value x) := by
  rw [Bool.eq_iff_iff, Bool.or_eq_true]
  simp only [isGreaterThenOrEqualTo, isGreaterThen, isEqualTo, decide_eq_true_eq]
  omega

theorem isSmallerThenOrEqualTo_eq :
    isSmallerThenOrEqualTo value x = (isSmallerThen value x || isEqualTo value x) := by
  rw [Bool.eq_iff_iff, Bool.or_eq_true]
  simp only [isSmallerThenOrEqualTo, isSmallerThen, isEqualTo, decide_eq_true_eq]
  omega

theorem not_isEqualTo_of_isGreaterThen (h : isGreaterThen value x = true) :
    isEqualTo value x = false := by
  simp only [isGreaterThen, isEqualTo, decide_eq_true_eq, decide_eq_false_iff_not] at h ⊢
  omega

theorem not_isEqualTo_of_isSmallerThen (h : isSmallerThen value x = true) :
    isEqualTo value x = false := by
  simp only [isSmallerThen, isEqualTo, decide_eq_true_eq, decide_eq_false_iff_not] at h ⊢
  omega

end Predicates

section Counts

variable {t : CountLibrary} (ht : t.Documented) (data : ℕ → T.Carrier) (size : ℕ)
  (value : T.Carrier)

include ht

theorem countInFront_eq (op : SortOp) : countInFront t data size value op =
    (elements data size).countP fun x => op.strict.functor T x value := by
  cases op <;> exact ht.countIf _ _

theorem countUpTo_eq (op : SortOp) : countUpTo t data size value op =
    countInFront t data size value op + thrustCountIfEqualTo t data size value := by
  have hgreater : thrustCountIfGreaterThenOrEqualTo t data size value =
      thrustCountIfGreaterThen t data size value + thrustCountIfEqualTo t data size value := by
    rw [thrustCountIfGreaterThenOrEqualTo, thrustCountIfGreaterThen, thrustCountIfEqualTo,
      ht.countIf, ht.countIf, ht.countIf]
    exact countP_eq_add (isGreaterThenOrEqualTo_eq value) (not_isEqualTo_of_isGreaterThen value) _
  have hsmaller : thrustCountIfSmallerThenOrEqualTo t data size value =
      thrustCountIfSmallerThen t data size value + thrustCountIfEqualTo t data size value := by
    rw [thrustCountIfSmallerThenOrEqualTo, thrustCountIfSmallerThen, thrustCountIfEqualTo,
      ht.countIf, ht.countIf, ht.countIf]
    exact countP_eq_add (isSmallerThenOrEqualTo_eq value) (not_isEqualTo_of_isSmallerThen value) _
  cases op with
  | greater => exact hgreater
  | greaterEqual => exact hgreater
  | less => exact hsmaller
  | lessEqual => exact hsmaller

theorem countEqual_add_countNotEqual : thrustCountIfEqualTo t data size value +
    thrustCountIfNotEqualTo t data size value = size := by
  rw [thrustCountIfEqualTo, thrustCountIfNotEqualTo, ht.countIf, ht.countIf,
    countP_add_countP (fun x => by simp [isEqualTo, isNotEqualTo]), length_elements]

/-- **Even numbers are the multiples of two**, at every type, and the others
are odd. -/
theorem counts_parity :
    thrustCountIfOdd t data size + thrustCountIfEven t data size = size ∧
      thrustCountIfEven t data size = thrustCountIfMultipleOf t data size (T.ofInt 2) := by
  constructor
  · rw [thrustCountIfOdd, thrustCountIfEven, ht.countIf, ht.countIf,
      countP_add_countP (fun x => by simp [isOdd, isEven]), length_elements]
  · rw [thrustCountIfEven, thrustCountIfMultipleOf, ht.countIf, ht.countIf]
    refine List.countP_congr fun x _ => ?_
    rw [isEven, isMultipleOf, IntType.val_ofInt_two, Bool.not_eq_true', decide_eq_false_iff_not,
      decide_eq_true_eq, ← Int.dvd_iff_tmod_eq_zero]
    omega

end Counts

/-! ## Counts and sorts -/

/-- A list in three parts, by position. -/
theorem getElem?_blocks {α : Type} {low middle high : List α} {i : ℕ} {x : α}
    (h : (low ++ (middle ++ high))[i]? = some x) :
    (i < low.length ∧ x ∈ low) ∨
      (low.length ≤ i ∧ i < low.length + middle.length ∧ x ∈ middle) ∨
      (low.length + middle.length ≤ i ∧ x ∈ high) := by
  rcases Nat.lt_or_ge i low.length with hlow | hlow
  · rw [List.getElem?_append_left hlow] at h
    exact .inl ⟨hlow, List.mem_of_getElem? h⟩
  · rw [List.getElem?_append_right hlow] at h
    rcases Nat.lt_or_ge (i - low.length) middle.length with hmiddle | hmiddle
    · rw [List.getElem?_append_left hmiddle] at h
      exact .inr (.inl ⟨hlow, by omega, List.mem_of_getElem? h⟩)
    · rw [List.getElem?_append_right hmiddle] at h
      exact .inr (.inr ⟨by omega, List.mem_of_getElem? h⟩)

/-- Numbers of which neither belongs in front of the other are equal. -/
theorem equivalent_functor_iff (op : SortOp) (value x : T.Carrier) :
    equivalent (op.strict.functor T) value x = true ↔ x = value := by
  have hval : x = value ↔ x.val = value.val := Subtype.ext_iff
  rw [hval, equivalent, Bool.and_eq_true]
  cases op <;> simp only [SortOp.strict, SortOp.functor, Bool.not_eq_true',
    decide_eq_false_iff_not] <;> omega

/-- **The counts are the places of a value in the sorted array.** By any of
the operators, both sort wrappers leave the elements that belong in front of
the value at the positions below the strict count, and those that belong
behind it from the other count on; the value is in between. -/
theorem counts_locate (s : SortLibrary) (hs : s.Merges) (t : CountLibrary) (ht : t.Documented)
    (op : SortOp) (data : ℕ → T.Carrier) (size : ℕ) (value : T.Carrier) :
    ∃ out, thrustSort s data size op.code = .ok out ∧
      thrustStableSort s data size op.code = .ok out ∧ out.length = size ∧
      (∀ i x, out[i]? = some x →
        (op.strict.functor T x value = true ↔ i < countInFront t data size value op) ∧
        (x = value ↔ countInFront t data size value op ≤ i ∧
          i < countUpTo t data size value op) ∧
        (op.strict.functor T value x = true ↔ countUpTo t data size value op ≤ i)) ∧
      countUpTo t data size value op =
        countInFront t data size value op + thrustCountIfEqualTo t data size value ∧
      thrustCountIfEqualTo t data size value + thrustCountIfNotEqualTo t data size value = size := by
  obtain ⟨out, hsort, hstable, hsorted⟩ := thrustSort_sorts hs op data size
  have hw := strictWeakOrder_functor (T := T) (fun x => x) op
  have hordered : Ordered (op.strict.functor T) out :=
    hsorted.directed.imp fun h => (directed_iff op _ _).1 h
  have hperm := hsorted.perm
  refine ⟨out, hsort, hstable, hperm.length_eq.trans (length_elements data size), ?_,
    countUpTo_eq ht data size value op, countEqual_add_countNotEqual ht data size value⟩
  intro i x hx
  have hfront : (out.filter fun y => op.strict.functor T y value).length =
      countInFront t data size value op := by
    rw [← List.countP_eq_length_filter, hperm.countP_eq, countInFront_eq ht]
  have hequal : (out.filter (equivalent (op.strict.functor T) value)).length =
      thrustCountIfEqualTo t data size value := by
    rw [← List.countP_eq_length_filter, hperm.countP_eq, thrustCountIfEqualTo, ht.countIf]
    refine List.countP_congr fun y _ => ?_
    rw [equivalent_functor_iff, isEqualTo, decide_eq_true_eq]
    exact Subtype.ext_iff
  have hblocks := Ordered.eq_blocks hw hordered value
  rw [hblocks] at hx
  have hupTo := countUpTo_eq ht data size value op
  rcases getElem?_blocks hx with ⟨hi, hmem⟩ | ⟨hlow, hi, hmem⟩ | ⟨hi, hmem⟩
  · have hbefore := (List.mem_filter.1 hmem).2
    have hbehind := hw.asymm hbefore
    have hne : x ≠ value := by
      rintro rfl
      exact absurd hbefore (by rw [hw.irrefl]; decide)
    rw [hfront] at hi
    exact ⟨iff_of_true hbefore hi, iff_of_false hne (by omega),
      iff_of_false (by rw [hbehind]; decide) (by omega)⟩
  · obtain rfl := (equivalent_functor_iff op value x).1 (List.mem_filter.1 hmem).2
    rw [hfront] at hlow hi
    rw [hequal] at hi
    have hirrefl := hw.irrefl x
    exact ⟨iff_of_false (by rw [hirrefl]; decide) (by omega), iff_of_true rfl (by omega),
      iff_of_false (by rw [hirrefl]; decide) (by omega)⟩
  · have hbehind := (List.mem_filter.1 hmem).2
    have hbefore := hw.asymm hbehind
    have hne : x ≠ value := by
      rintro rfl
      exact absurd hbehind (by rw [hw.irrefl]; decide)
    rw [hfront, hequal] at hi
    exact ⟨iff_of_false (by rw [hbefore]; decide) (by omega), iff_of_false hne (by omega),
      iff_of_true hbehind (by omega)⟩

/-! ## A library -/

/-- A library that counts one element after the other. -/
def tally : CountLibrary where
  countIf range pred := range.countP pred

theorem tally_documented : tally.Documented where
  countIf _ _ := rfl

/-- The numbers 1 to 5 from the greatest down, around 3. -/
theorem counts_locate_tally :
    insertions.Merges ∧ tally.Documented ∧ ∃ out,
      thrustSort insertions counting 5 SortOp.greaterEqual.code = .ok out ∧ out.length = 5 ∧
      ∀ i x, out[i]? = some x → (x = IntType.int.ofInt 3 ↔
        countInFront tally counting 5 (IntType.int.ofInt 3) .greaterEqual ≤ i ∧
          i < countUpTo tally counting 5 (IntType.int.ofInt 3) .greaterEqual) := by
  obtain ⟨out, hsort, -, hlength, hplaces, -⟩ := counts_locate insertions insertions_merges tally
    tally_documented .greaterEqual counting 5 (IntType.int.ofInt 3)
  exact ⟨insertions_merges, tally_documented, out, hsort, hlength,
    fun i x hx => (hplaces i x hx).2.1⟩

end Thrust

end Supercell
