import Supercell.Common.MergeSort
import Supercell.Thrust.SegmentedScan

/-!
# The sort wrappers

`thrust_sort` and `thrust_stable_sort`, each with a version by key, choose a
function object by the code of the operator and hand the arrays to Thrust.
Thrust enters as the four functions the wrappers call, which are merge sorts.

Two of the operators are not strict. By them a merge sort still sorts, since
it is one by the strict operator of the reversed array; but the pairs of equal
keys come out in reverse, and a stable sort it is no more.
-/

namespace Supercell

namespace Thrust

open MergeSort

/-! ## Operators -/

/-- The enumerators of `sort_op`. -/
inductive SortOp where
  | greater
  | less
  | greaterEqual
  | lessEqual
  deriving DecidableEq, Repr

@[inherit_doc ScanOp.code]
def SortOp.code : SortOp → ℕ
  | greater => 0
  | less => 1
  | greaterEqual => 2
  | lessEqual => 3

/-- `thrust::greater<T>()` and its siblings. -/
def SortOp.functor (T : IntType) (op : SortOp) (x y : T.Carrier) : Bool :=
  match op with
  | greater => x.val > y.val
  | less => x.val < y.val
  | greaterEqual => x.val ≥ y.val
  | lessEqual => x.val ≤ y.val

/-- The operator of the same direction that does not hold of equal numbers. -/
def SortOp.strict : SortOp → SortOp
  | greater | greaterEqual => greater
  | less | lessEqual => less

/-- `x` may stand in front of `y`. -/
def SortOp.Directed {T : IntType} (op : SortOp) (x y : T.Carrier) : Prop :=
  match op with
  | greater | greaterEqual => y.val ≤ x.val
  | less | lessEqual => x.val ≤ y.val

/-! ## Thrust -/

/-- The functions of Thrust that the wrappers call. A range is the list of its
elements, and two ranges by key are the list of the pairs. -/
structure SortLibrary where
  /-- `thrust::sort` -/
  sort {α : Type} (range : List α) (comp : α → α → Bool) : List α
  /-- `thrust::sort_by_key` -/
  sortByKey {α β : Type} (ranges : List (α × β)) (comp : α → α → Bool) : List (α × β)
  /-- `thrust::stable_sort` -/
  stableSort {α : Type} (range : List α) (comp : α → α → Bool) : List α
  /-- `thrust::stable_sort_by_key` -/
  stableSortByKey {α β : Type} (ranges : List (α × β)) (comp : α → α → Bool) : List (α × β)

/-- The comparison of two pairs by their keys. -/
def byKey {α β : Type} (comp : α → α → Bool) (x y : α × β) : Bool := comp x.1 y.1

/-- **What is assumed of Thrust**: its sorts are merge sorts. -/
structure SortLibrary.Merges (t : SortLibrary) : Prop where
  sort {α : Type} (range : List α) (comp : α → α → Bool) :
    IsMergeSort comp range (t.sort range comp)
  sortByKey {α β : Type} (ranges : List (α × β)) (comp : α → α → Bool) :
    IsMergeSort (byKey comp) ranges (t.sortByKey ranges comp)
  stableSort {α : Type} (range : List α) (comp : α → α → Bool) :
    IsMergeSort comp range (t.stableSort range comp)
  stableSortByKey {α β : Type} (ranges : List (α × β)) (comp : α → α → Bool) :
    IsMergeSort (byKey comp) ranges (t.stableSortByKey ranges comp)

/-! ## The wrappers -/

/-- The comparisons of a wrapper: the functor that the code of the operator
selects, or the text of the exception. -/
def sortOperator (invalid : String) (T : IntType) (op : ℕ) :
    Except String (T.Carrier → T.Carrier → Bool) :=
  if op = SortOp.greater.code then .ok (SortOp.greater.functor T)
  else if op = SortOp.less.code then .ok (SortOp.less.functor T)
  else if op = SortOp.greaterEqual.code then .ok (SortOp.greaterEqual.functor T)
  else if op = SortOp.lessEqual.code then .ok (SortOp.lessEqual.functor T)
  else .error invalid

@[simp] theorem sortOperator_code (invalid : String) (T : IntType) (op : SortOp) :
    sortOperator invalid T op.code = .ok (op.functor T) := by
  cases op <;> rfl

/-- The first `size` elements of an array. -/
def elements {α : Type} (data : ℕ → α) (size : ℕ) : List α := (List.range size).map data

/-- Those of two arrays, by position. -/
def pairs {α β : Type} (key : ℕ → α) (data : ℕ → β) (size : ℕ) : List (α × β) :=
  elements (fun i => (key i, data i)) size

variable (t : SortLibrary) {T Key Value : IntType}

/-- `thrust_sort`: the elements of `data` after the call. -/
def thrustSort (data : ℕ → T.Carrier) (size op : ℕ) : Except String (List T.Carrier) := do
  let comp ← sortOperator "invalid sort operator" T op
  return t.sort (elements data size) comp

/-- `thrust_sort_by_key`: the pairs that stand in the two arrays after the
call. -/
def thrustSortByKey (key : ℕ → Key.Carrier) (data : ℕ → Value.Carrier) (size op : ℕ) :
    Except String (List (Key.Carrier × Value.Carrier)) := do
  let comp ← sortOperator "invalid sort operator" Key op
  return t.sortByKey (pairs key data size) comp

/-- `thrust_stable_sort`. -/
def thrustStableSort (data : ℕ → T.Carrier) (size op : ℕ) : Except String (List T.Carrier) := do
  let comp ← sortOperator "invalid stable sort operator" T op
  return t.stableSort (elements data size) comp

/-- `thrust_stable_sort_by_key`. -/
def thrustStableSortByKey (key : ℕ → Key.Carrier) (data : ℕ → Value.Carrier) (size op : ℕ) :
    Except String (List (Key.Carrier × Value.Carrier)) := do
  let comp ← sortOperator "invalid stable sort operator" Key op
  return t.stableSortByKey (pairs key data size) comp

section Calls

variable (data : ℕ → T.Carrier) (key : ℕ → Key.Carrier) (value : ℕ → Value.Carrier) (size : ℕ)
  (op : SortOp)

theorem thrustSort_code :
    thrustSort t data size op.code = .ok (t.sort (elements data size) (op.functor T)) := by
  rw [thrustSort, sortOperator_code]
  rfl

theorem thrustSortByKey_code : thrustSortByKey t key value size op.code =
    .ok (t.sortByKey (pairs key value size) (op.functor Key)) := by
  rw [thrustSortByKey, sortOperator_code]
  rfl

theorem thrustStableSort_code : thrustStableSort t data size op.code =
    .ok (t.stableSort (elements data size) (op.functor T)) := by
  rw [thrustStableSort, sortOperator_code]
  rfl

theorem thrustStableSortByKey_code : thrustStableSortByKey t key value size op.code =
    .ok (t.stableSortByKey (pairs key value size) (op.functor Key)) := by
  rw [thrustStableSortByKey, sortOperator_code]
  rfl

end Calls

/-! ## The functors as comparisons -/

section Functors

variable {α : Type} (key : α → T.Carrier) (op : SortOp)

/-- The strict functors keep the contract of a comparison. -/
theorem strictWeakOrder_functor :
    StrictWeakOrder fun x y : α => op.strict.functor T (key x) (key y) where
  asymm {x y} h := by
    cases op <;> simp only [SortOp.strict, SortOp.functor, decide_eq_true_eq,
      decide_eq_false_iff_not, not_lt, gt_iff_lt] at h ⊢ <;> omega
  neg_trans {x y z} hxy hyz := by
    cases op <;> simp only [SortOp.strict, SortOp.functor, decide_eq_false_iff_not,
      not_lt, gt_iff_lt] at hxy hyz ⊢ <;> omega

/-- An operator that is not strict is the dual of the strict one. -/
theorem dual_functor (hop : op.strict ≠ op) :
    (dual fun x y : α => op.functor T (key x) (key y)) =
      fun x y => op.strict.functor T (key x) (key y) := by
  funext x y
  cases op with
  | greater => exact absurd rfl hop
  | less => exact absurd rfl hop
  | greaterEqual =>
    rw [dual, Bool.eq_iff_iff]
    simp [SortOp.strict, SortOp.functor]
  | lessEqual =>
    rw [dual, Bool.eq_iff_iff]
    simp [SortOp.strict, SortOp.functor]

/-- In order by the strict functor means in the direction of the operator. -/
theorem directed_iff (x y : T.Carrier) : op.Directed x y ↔ op.strict.functor T y x = false := by
  cases op <;> simp [SortOp.Directed, SortOp.strict, SortOp.functor]

/-- **A merge sort by any of the operators** is one by the strict operator, of
the list or of the reversed list. -/
theorem isMergeSort_strict {l out : List α}
    (h : IsMergeSort (fun x y => op.functor T (key x) (key y)) l out) :
    IsMergeSort (fun x y => op.strict.functor T (key x) (key y))
      (if op.strict = op then l else l.reverse) out := by
  split
  · rename_i hop
    rwa [hop]
  · rename_i hop
    rw [← dual_functor key op hop]
    exact h.reverse

end Functors

/-! ## What the wrappers are for -/

/-- `output` is `input` sorted, by the keys, in the direction of the
operator. -/
structure SortedBy {α : Type} (key : α → T.Carrier) (op : SortOp) (input output : List α) :
    Prop where
  perm : output.Perm input
  directed : output.Pairwise fun x y => op.Directed (key x) (key y)

/-- The elements of one key stand in their old order. -/
def KeepsOrder {α : Type} (key : α → T.Carrier) (input output : List α) : Prop :=
  ∀ k, output.filter (fun x => key x = k) = input.filter fun x => key x = k

section Results

variable {α : Type} {key : α → T.Carrier} {op : SortOp} {l out : List α}

/-- A merge sort sorts, whichever operator it is given. -/
theorem sortedBy_of_isMergeSort
    (h : IsMergeSort (fun x y => op.functor T (key x) (key y)) l out) :
    SortedBy key op l out where
  perm := h.perm
  directed := (isMergeSort_strict key op h).ordered (strictWeakOrder_functor key op) |>.imp
    fun h => (directed_iff op _ _).2 h

/-- The elements of one key come out in the order of the array, or of the
reversed array. -/
theorem filter_key_of_isMergeSort
    (h : IsMergeSort (fun x y => op.functor T (key x) (key y)) l out) (k : T.Carrier) :
    out.filter (fun x => key x = k) =
      (if op.strict = op then l else l.reverse).filter fun x => key x = k := by
  refine (isMergeSort_strict key op h).filter_eq (strictWeakOrder_functor key op)
    fun x y hx hy => ?_
  rw [decide_eq_true_eq] at hx hy
  rw [hx, hy]
  exact (strictWeakOrder_functor (fun x => x) op).irrefl k

/-- The operator is strict, or the elements of each key read the same from
both ends of the array. -/
def Symmetric (key : α → T.Carrier) (op : SortOp) (l : List α) : Prop :=
  op.strict = op ∨ ∀ k, (l.filter fun x => key x = k).reverse = l.filter fun x => key x = k

theorem keepsOrder_iff (h : IsMergeSort (fun x y => op.functor T (key x) (key y)) l out) :
    KeepsOrder key l out ↔ Symmetric key op l := by
  by_cases hop : op.strict = op
  · refine iff_of_true (fun k => ?_) (.inl hop)
    rw [filter_key_of_isMergeSort h, if_pos hop]
  · rw [Symmetric, or_iff_right hop]
    refine forall_congr' fun k => ?_
    rw [filter_key_of_isMergeSort h, if_neg hop, List.filter_reverse]

end Results

/-- **The wrappers sort by key**: both leave the pairs sorted, and the stable
one leaves the pairs of a key in their order, as the strict operator would. -/
def SortsByKey (op : SortOp) (key : ℕ → Key.Carrier) (data : ℕ → Value.Carrier) (size : ℕ) :
    Prop :=
  ∃ sorted stable, thrustSortByKey t key data size op.code = .ok sorted ∧
    thrustStableSortByKey t key data size op.code = .ok stable ∧
    SortedBy Prod.fst op (pairs key data size) sorted ∧
    SortedBy Prod.fst op (pairs key data size) stable ∧
    KeepsOrder Prod.fst (pairs key data size) stable ∧
    thrustStableSortByKey t key data size op.strict.code = .ok stable

@[simp] theorem strict_strict (op : SortOp) : op.strict.strict = op.strict := by
  cases op <;> rfl

/-- The stable sort by the strict operator is the one sorted list that keeps
the order. -/
theorem eq_stableSortByKey {t : SortLibrary} (ht : t.Merges) {op : SortOp}
    {l out : List (Key.Carrier × Value.Carrier)} (hsorted : SortedBy Prod.fst op l out)
    (hkeeps : KeepsOrder Prod.fst l out) :
    t.stableSortByKey l (op.strict.functor Key) = out := by
  have hw := strictWeakOrder_functor (T := Key) (α := Key.Carrier × Value.Carrier) Prod.fst op
  have hmerge := ht.stableSortByKey l (op.strict.functor Key)
  refine eq_of_ordered hw (hmerge.ordered hw)
    (hsorted.directed.imp fun h => (directed_iff op _ _).1 h) fun x => ?_
  have hclass : equivalent (fun x y : Key.Carrier × Value.Carrier =>
      op.strict.functor Key x.1 y.1) x = fun y => decide (y.1 = x.1) := by
    funext y
    have hval : y.1 = x.1 ↔ y.1.val = x.1.val := Subtype.ext_iff
    rw [Bool.eq_iff_iff, decide_eq_true_eq, hval, equivalent, Bool.and_eq_true]
    cases op <;> simp only [SortOp.strict, SortOp.functor, Bool.not_eq_true',
      decide_eq_false_iff_not] <;> omega
  rw [hclass, hkeeps x.1, @filter_key_of_isMergeSort _ _ Prod.fst op.strict _ _ hmerge,
    if_pos (strict_strict op)]

/-- **When the sort wrappers do their work**: by a strict operator always, by
the others where the values of each key read the same from both ends. -/
theorem sortsByKey_iff (ht : t.Merges) (Key Value : IntType) (op : SortOp)
    (key : ℕ → Key.Carrier) (data : ℕ → Value.Carrier) (size : ℕ) :
    SortsByKey t op key data size ↔ Symmetric Prod.fst op (pairs key data size) := by
  have hsort := ht.sortByKey (pairs key data size) (op.functor Key)
  have hstable := ht.stableSortByKey (pairs key data size) (op.functor Key)
  rw [← keepsOrder_iff hstable]
  constructor
  · rintro ⟨_, stable, -, hcall, -, -, hkeeps, -⟩
    rw [thrustStableSortByKey_code] at hcall
    rwa [Except.ok.inj hcall]
  · intro hkeeps
    have hsorted := sortedBy_of_isMergeSort hstable
    refine ⟨_, _, thrustSortByKey_code t key data size op,
      thrustStableSortByKey_code t key data size op, sortedBy_of_isMergeSort hsort, hsorted,
      hkeeps, ?_⟩
    rw [thrustStableSortByKey_code, eq_stableSortByKey ht hsorted hkeeps]

/-- The wrappers without keys sort too, and of equal numbers there is nothing
to tell. -/
theorem thrustSort_sorts {t : SortLibrary} (ht : t.Merges) (op : SortOp) (data : ℕ → T.Carrier)
    (size : ℕ) : ∃ out, thrustSort t data size op.code = .ok out ∧
      thrustStableSort t data size op.code = .ok out ∧
      SortedBy (fun x => x) op (elements data size) out := by
  have hsort := ht.sort (elements data size) (op.functor T)
  have hstable := ht.stableSort (elements data size) (op.functor T)
  have hsorted : SortedBy (fun x => x) op (elements data size)
      (t.sort (elements data size) (op.functor T)) := sortedBy_of_isMergeSort hsort
  refine ⟨_, thrustSort_code t data size op, ?_, hsorted⟩
  rw [thrustStableSort_code]
  congr 1
  have hw := strictWeakOrder_functor (T := T) (fun x => x) op
  exact (isMergeSort_strict (fun x => x) op hstable).unique hw
    (isMergeSort_strict (fun x => x) op hsort)

/-! ## A library -/

/-- A library that inserts one element after the other. -/
def insertions : SortLibrary where
  sort range comp := insertionSort comp range
  sortByKey ranges comp := insertionSort (byKey comp) ranges
  stableSort range comp := insertionSort comp range
  stableSortByKey ranges comp := insertionSort (byKey comp) ranges

theorem insertions_merges : insertions.Merges where
  sort _ _ := insertionSort_isMergeSort _ _
  sortByKey _ _ := insertionSort_isMergeSort _ _
  stableSort _ _ := insertionSort_isMergeSort _ _
  stableSortByKey _ _ := insertionSort_isMergeSort _ _

/-- One key at every position. -/
def zeroKeys : ℕ → IntType.int.Carrier := fun _ => IntType.int.ofInt 0

/-- The numbers from 1 on. -/
def counting : ℕ → IntType.int.Carrier := fun i => IntType.int.ofInt (i + 1)

theorem not_symmetric_counting : ¬ Symmetric Prod.fst .greaterEqual (pairs zeroKeys counting 2) := by
  rintro (h | h)
  · exact absurd h (by decide)
  · exact absurd (h (IntType.int.ofInt 0)) (by decide)

theorem sortsByKey_insertions :
    insertions.Merges ∧
      (SortsByKey insertions .greaterEqual zeroKeys counting 2 ↔
        Symmetric Prod.fst .greaterEqual (pairs zeroKeys counting 2)) :=
  ⟨insertions_merges, sortsByKey_iff insertions insertions_merges .int .int .greaterEqual zeroKeys
    counting 2⟩

/-- **Equal keys change places.** The values 1 and 2 under the key 0 come back
as 2 and 1 from the stable sort by `greater_equal`, and as they were from the
one by `greater`. -/
theorem stableSort_reverses :
    thrustStableSortByKey insertions zeroKeys counting 2 SortOp.greaterEqual.code =
        .ok [(IntType.int.ofInt 0, IntType.int.ofInt 2),
          (IntType.int.ofInt 0, IntType.int.ofInt 1)] ∧
      thrustStableSortByKey insertions zeroKeys counting 2 SortOp.greater.code =
        .ok [(IntType.int.ofInt 0, IntType.int.ofInt 1),
          (IntType.int.ofInt 0, IntType.int.ofInt 2)] ∧
      ¬ ∀ (Key Value : IntType) (op : SortOp) (key : ℕ → Key.Carrier) (data : ℕ → Value.Carrier)
        (size : ℕ), SortsByKey insertions op key data size := by
  have hpairs : pairs zeroKeys counting 2 = [(IntType.int.ofInt 0, IntType.int.ofInt 1),
      (IntType.int.ofInt 0, IntType.int.ofInt 2)] := by decide
  refine ⟨?_, ?_, fun h => ?_⟩
  · rw [thrustStableSortByKey_code, hpairs]
    simp [insertions, insertionSort, mergeRuns, byKey, SortOp.functor]
  · rw [thrustStableSortByKey_code, hpairs]
    simp [insertions, insertionSort, mergeRuns, byKey, SortOp.functor]
  · obtain ⟨_, stable, -, hcall, -, -, hkeeps, -⟩ := h .int .int .greaterEqual zeroKeys counting 2
    have hstable := insertions_merges.stableSortByKey (pairs zeroKeys counting 2)
      (SortOp.greaterEqual.functor IntType.int)
    rw [thrustStableSortByKey_code] at hcall
    obtain rfl := Except.ok.inj hcall
    exact not_symmetric_counting ((keepsOrder_iff hstable).1 hkeeps)

end Thrust

end Supercell
