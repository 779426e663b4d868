import Supercell.Thrust.Counts
import Supercell.Thrust.Scan

/-!
# The extrema wrappers

`thrust_min_element`, `thrust_max_element` and `thrust_minmax_element` write
the place of an extremum through a pointer. Thrust enters as the three
functions they call, which return the first position that no other beats.

The other wrappers know the extrema too: they end the sorted array, a stable
sort by key brings the pair of the very position to the front, the scans by
`minimum` and `maximum` arrive at them, and nothing counts as beyond them.
-/

namespace Supercell

namespace Thrust

open MergeSort

variable {T : IntType}

/-! ## Thrust -/

/-- The functions of Thrust that the wrappers call. An iterator is its
position in the array. -/
structure ExtremaLibrary where
  /-- `thrust::min_element` -/
  minElement {T : IntType} (first : ℕ → T.Carrier) (size : ℕ) : ℕ
  /-- `thrust::max_element` -/
  maxElement {T : IntType} (first : ℕ → T.Carrier) (size : ℕ) : ℕ
  /-- `thrust::minmax_element` -/
  minmaxElement {T : IntType} (first : ℕ → T.Carrier) (size : ℕ) : ℕ × ℕ

/-- `r` is the first position such that no other element is smaller, and the
end of an empty array. -/
def IsMinElement (first : ℕ → T.Carrier) (size r : ℕ) : Prop :=
  if size = 0 then r = 0
  else IsLeast {i | i < size ∧ ∀ j < size, ¬ (first j).val < (first i).val} r

/-- `r` is the first position such that it is smaller than no other element. -/
def IsMaxElement (first : ℕ → T.Carrier) (size r : ℕ) : Prop :=
  if size = 0 then r = 0
  else IsLeast {i | i < size ∧ ∀ j < size, ¬ (first i).val < (first j).val} r

/-- **What Thrust documents**: the two searches, and that the third returns
what they return. -/
structure ExtremaLibrary.Documented (t : ExtremaLibrary) : Prop where
  minElement {T : IntType} (first : ℕ → T.Carrier) (size : ℕ) :
    IsMinElement first size (t.minElement first size)
  maxElement {T : IntType} (first : ℕ → T.Carrier) (size : ℕ) :
    IsMaxElement first size (t.maxElement first size)
  minmaxElement {T : IntType} (first : ℕ → T.Carrier) (size : ℕ) :
    t.minmaxElement first size = (t.minElement first size, t.maxElement first size)

/-! ## The wrappers -/

section Wrappers

variable (t : ExtremaLibrary) (data : ℕ → T.Carrier) (size : ℕ)

/-- `thrust_min_element`: the position in `data` that `*min_ptr` points to
after the call. -/
def thrustMinElement : ℕ := t.minElement data size

/-- `thrust_max_element` -/
def thrustMaxElement : ℕ := t.maxElement data size

/-- `thrust_minmax_element`: the positions of `*min_ptr` and `*max_ptr`. -/
def thrustMinmaxElement : ℕ × ℕ :=
  let result := t.minmaxElement data size
  (result.1, result.2)

end Wrappers

/-! ## The first extremum -/

/-- `p` is the first position of the extremum that the operator sorts to the
front. -/
structure IsFirstExtremum (op : SortOp) (data : ℕ → T.Carrier) (size p : ℕ) : Prop where
  lt : p < size
  first : ∀ j < p, op.strict.functor T (data p) (data j) = true
  best : ∀ j < size, op.strict.functor T (data j) (data p) = false

theorem IsMinElement.isFirstExtremum {data : ℕ → T.Carrier} {size p : ℕ}
    (h : IsMinElement data size p) (hsize : 0 < size) : IsFirstExtremum .less data size p := by
  rw [IsMinElement, if_neg (Nat.ne_of_gt hsize)] at h
  obtain ⟨⟨hlt, hbest⟩, hleast⟩ := h
  refine ⟨hlt, fun j hj => ?_, fun j hj => decide_eq_false (hbest j hj)⟩
  refine decide_eq_true (Int.not_le.1 fun hle => ?_)
  have hmem : ∀ k < size, ¬ (data k).val < (data j).val := fun k hk hkj =>
    hbest k hk (lt_of_lt_of_le hkj hle)
  exact absurd (hleast ⟨hj.trans hlt, hmem⟩) (Nat.not_le.2 hj)

theorem IsMaxElement.isFirstExtremum {data : ℕ → T.Carrier} {size p : ℕ}
    (h : IsMaxElement data size p) (hsize : 0 < size) : IsFirstExtremum .greater data size p := by
  rw [IsMaxElement, if_neg (Nat.ne_of_gt hsize)] at h
  obtain ⟨⟨hlt, hbest⟩, hleast⟩ := h
  refine ⟨hlt, fun j hj => ?_, fun j hj => decide_eq_false (hbest j hj)⟩
  refine decide_eq_true (Int.not_le.1 fun hle => ?_)
  have hmem : ∀ k < size, ¬ (data j).val < (data k).val := fun k hk hjk =>
    hbest k hk (lt_of_le_of_lt hle hjk)
  exact absurd (hleast ⟨hj.trans hlt, hmem⟩) (Nat.not_le.2 hj)

/-- An array in front of a position, the position and the array behind it. -/
theorem elements_eq_append {α : Type} (data : ℕ → α) {size p : ℕ} (hp : p < size) :
    elements data size =
      elements data p ++ data p :: (List.range' (p + 1) (size - p - 1)).map data := by
  have hsize : size = p + ((size - p - 1) + 1) := by omega
  rw [elements, elements, List.range_eq_range', List.range_eq_range']
  conv_lhs => rw [hsize, ← List.range'_append_1, List.range'_succ, Nat.zero_add]
  rw [List.map_append, List.map_cons]

theorem mem_elements {α : Type} {data : ℕ → α} {size : ℕ} {x : α} :
    x ∈ elements data size ↔ ∃ i < size, data i = x := by
  simp [elements]

section FirstExtremum

variable {op : SortOp} {data : ℕ → T.Carrier} {size p : ℕ} (h : IsFirstExtremum op data size p)

include h

/-- **A stable sort brings the first extremum to the front**, with whatever
stands beside it. -/
theorem IsFirstExtremum.head?_eq {α : Type} (beside : ℕ → α) (key : α → T.Carrier)
    (hkey : ∀ i, key (beside i) = data i) {out : List α}
    (hsort : IsMergeSort (fun x y => op.strict.functor T (key x) (key y)) (elements beside size)
      out) : out.head? = some (beside p) := by
  rw [elements_eq_append beside h.lt] at hsort
  refine hsort.head?_eq (strictWeakOrder_functor key op) (fun y hy => ?_) fun y hy => ?_
  · obtain ⟨j, hj, rfl⟩ := mem_elements.1 hy
    rw [hkey, hkey]
    exact h.first j hj
  · obtain ⟨j, hj, rfl⟩ := List.mem_map.1 hy
    have hlt := h.lt
    rw [List.mem_range'_1] at hj
    rw [hkey, hkey]
    exact h.best j (by omega)

theorem IsFirstExtremum.countInFront_eq_zero {c : CountLibrary} (hc : c.Documented) :
    countInFront c data size (data p) op = 0 := by
  rw [countInFront_eq hc, List.countP_eq_zero]
  intro x hx
  obtain ⟨j, hj, rfl⟩ := mem_elements.1 hx
  rw [h.best j hj]
  exact Bool.false_ne_true

end FirstExtremum

/-- A scan by `minimum` arrives at the smallest element. -/
theorem scan_minimum_last {f : ScanLibrary} (hf : f.Documented) {data : ℕ → T.Carrier}
    {size p : ℕ} (h : IsFirstExtremum .less data size p) :
    f.inclusiveScan data size ScanOp.minimum.apply (size - 1) = data p := by
  have hlt := h.lt
  have hscan := ScanOp.combines_of_bracketing
    (hf.inclusiveScan data size _ (apply_associative .minimum) (size - 1) (by omega))
  refine hscan.unique ⟨mem_elements.2 ⟨p, by omega, rfl⟩, fun y hy => ?_⟩
  obtain ⟨j, hj, rfl⟩ := mem_elements.1 hy
  exact Int.not_lt.1 (of_decide_eq_false (h.best j (by omega)))

/-- A scan by `maximum` arrives at the largest element. -/
theorem scan_maximum_last {f : ScanLibrary} (hf : f.Documented) {data : ℕ → T.Carrier}
    {size p : ℕ} (h : IsFirstExtremum .greater data size p) :
    f.inclusiveScan data size ScanOp.maximum.apply (size - 1) = data p := by
  have hlt := h.lt
  have hscan := ScanOp.combines_of_bracketing
    (hf.inclusiveScan data size _ (apply_associative .maximum) (size - 1) (by omega))
  refine hscan.unique ⟨mem_elements.2 ⟨p, by omega, rfl⟩, fun y hy => ?_⟩
  obtain ⟨j, hj, rfl⟩ := mem_elements.1 hy
  exact Int.not_lt.1 (of_decide_eq_false (h.best j (by omega)))

/-- **The wrappers agree on the extrema.** The places that the extrema
wrappers write are those whose pairs a stable sort by key brings to the front,
equal keys and all; the scans arrive at the elements there, and no element
counts as smaller than the one or greater than the other. -/
theorem extrema_agree {Value : IntType} (e : ExtremaLibrary) (he : e.Documented)
    (s : SortLibrary) (hs : s.Merges) (c : CountLibrary) (hc : c.Documented) (f : ScanLibrary)
    (hf : f.Documented) (data : ℕ → T.Carrier) (value : ℕ → Value.Carrier) (size : ℕ)
    (hsize : 0 < size) :
    ∃ low high ascending descending least greatest,
      thrustMinElement e data size = low ∧ thrustMaxElement e data size = high ∧
      thrustMinmaxElement e data size = (low, high) ∧ low < size ∧ high < size ∧
      thrustStableSortByKey s data value size SortOp.less.code = .ok ascending ∧
      thrustStableSortByKey s data value size SortOp.greater.code = .ok descending ∧
      ascending.head? = some (data low, value low) ∧
      descending.head? = some (data high, value high) ∧
      thrustInclusiveScan f data size ScanOp.minimum.code = .ok least ∧
      thrustInclusiveScan f data size ScanOp.maximum.code = .ok greatest ∧
      least (size - 1) = data low ∧ greatest (size - 1) = data high ∧
      thrustCountIfSmallerThen c data size (data low) = 0 ∧
      thrustCountIfGreaterThen c data size (data high) = 0 := by
  have hlow := (he.minElement data size).isFirstExtremum hsize
  have hhigh := (he.maxElement data size).isFirstExtremum hsize
  refine ⟨e.minElement data size, e.maxElement data size, _, _, _, _, rfl, rfl, ?_, hlow.lt,
    hhigh.lt, thrustStableSortByKey_code s data value size .less,
    thrustStableSortByKey_code s data value size .greater, ?_, ?_,
    thrustInclusiveScan_code f data size .minimum, thrustInclusiveScan_code f data size .maximum,
    scan_minimum_last hf hlow, scan_maximum_last hf hhigh, hlow.countInFront_eq_zero hc,
    hhigh.countInFront_eq_zero hc⟩
  · rw [thrustMinmaxElement, he.minmaxElement]
  · exact hlow.head?_eq (fun i => (data i, value i)) Prod.fst (fun _ => rfl)
      (hs.stableSortByKey (pairs data value size) (SortOp.less.functor T))
  · exact hhigh.head?_eq (fun i => (data i, value i)) Prod.fst (fun _ => rfl)
      (hs.stableSortByKey (pairs data value size) (SortOp.greater.functor T))

/-! ## A library -/

/-- The first position that no other beats, by a pass over the array that
keeps the best so far. -/
def firstBest (op : SortOp) (first : ℕ → T.Carrier) : ℕ → ℕ
  | 0 => 0
  | n + 1 =>
    let best := firstBest op first n
    if op.functor T (first n) (first best) then n else best

theorem firstBest_isFirstExtremum (op : SortOp) (hop : op.strict = op) (first : ℕ → T.Carrier)
    (n : ℕ) : IsFirstExtremum op first (n + 1) (firstBest op first (n + 1)) := by
  have hw := strictWeakOrder_functor (T := T) (fun x => x) op
  rw [hop] at hw
  induction n with
  | zero =>
    have hzero : firstBest op first 1 = 0 := by
      rw [firstBest]
      exact ite_self _
    rw [hzero]
    refine ⟨Nat.zero_lt_one, fun j hj => absurd hj (Nat.not_lt_zero j), fun j hj => ?_⟩
    obtain rfl := Nat.lt_one_iff.1 hj
    rw [hop]
    exact hw.irrefl (first 0)
  | succ n ih =>
    obtain ⟨hlt, hfirst, hbest⟩ := ih
    rw [hop] at hfirst hbest
    rw [firstBest]
    split
    · rename_i hbeats
      refine ⟨Nat.lt_succ_self _, fun j hj => ?_, fun j hj => ?_⟩
      · rw [hop]
        -- the new best beats the old one, and the old one no earlier element loses to
        cases hj' : op.functor T (first (n + 1)) (first j) with
        | true => rfl
        | false => rw [hw.neg_trans hj' (hbest j hj)] at hbeats; exact Bool.noConfusion hbeats
      · rw [hop]
        rcases Nat.lt_succ_iff_lt_or_eq.1 hj with hj | rfl
        · cases hj' : op.functor T (first j) (first (n + 1)) with
          | false => rfl
          | true =>
            have hback := hw.neg_trans (hbest j hj) (hw.asymm hbeats)
            rw [hback] at hj'
            exact Bool.noConfusion hj'
        · exact hw.irrefl _
    · rename_i hkeeps
      rw [Bool.not_eq_true] at hkeeps
      refine ⟨hlt.trans (Nat.lt_succ_self _), fun j hj => ?_, fun j hj => ?_⟩
      · rw [hop]
        exact hfirst j hj
      · rw [hop]
        rcases Nat.lt_succ_iff_lt_or_eq.1 hj with hj | rfl
        · exact hbest j hj
        · exact hkeeps

/-- A library that passes over the array once. -/
def pass : ExtremaLibrary where
  minElement first size := firstBest .less first size
  maxElement first size := firstBest .greater first size
  minmaxElement first size := (firstBest .less first size, firstBest .greater first size)

theorem pass_documented : pass.Documented where
  minElement first size := by
    cases size with
    | zero => rfl
    | succ n =>
      obtain ⟨hlt, hfirst, hbest⟩ := firstBest_isFirstExtremum .less rfl first n
      rw [IsMinElement, if_neg (Nat.succ_ne_zero n)]
      refine ⟨⟨hlt, fun j hj => of_decide_eq_false (hbest j hj)⟩, fun j hj => ?_⟩
      refine Nat.not_lt.1 fun hlt' => ?_
      exact hj.2 _ hlt (of_decide_eq_true (hfirst j hlt'))
  maxElement first size := by
    cases size with
    | zero => rfl
    | succ n =>
      obtain ⟨hlt, hfirst, hbest⟩ := firstBest_isFirstExtremum .greater rfl first n
      rw [IsMaxElement, if_neg (Nat.succ_ne_zero n)]
      refine ⟨⟨hlt, fun j hj => of_decide_eq_false (hbest j hj)⟩, fun j hj => ?_⟩
      refine Nat.not_lt.1 fun hlt' => ?_
      exact hj.2 _ hlt (of_decide_eq_true (hfirst j hlt'))
  minmaxElement _ _ := rfl

/-- Four numbers under their positions. -/
theorem extrema_agree_pass :
    pass.Documented ∧ insertions.Merges ∧ tally.Documented ∧ serial.Documented ∧
      ∃ low high ascending descending,
        thrustMinmaxElement pass counting 4 = (low, high) ∧ low < 4 ∧ high < 4 ∧
        thrustStableSortByKey insertions counting counting 4 SortOp.less.code = .ok ascending ∧
        thrustStableSortByKey insertions counting counting 4 SortOp.greater.code =
          .ok descending ∧
        ascending.head? = some (counting low, counting low) ∧
        descending.head? = some (counting high, counting high) := by
  obtain ⟨low, high, ascending, descending, _, _, _, _, hboth, hlow, hhigh, hascending,
    hdescending, hfirst, hlast, _⟩ := extrema_agree pass pass_documented insertions
      insertions_merges tally tally_documented serial serial_documented counting counting 4
      (by decide)
  exact ⟨pass_documented, insertions_merges, tally_documented, serial_documented, low, high,
    ascending, descending, hboth, hlow, hhigh, hascending, hdescending, hfirst, hlast⟩

end Thrust

end Supercell
