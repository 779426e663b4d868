import Supercell.Thrust.SegmentedScan

/-!
# The order of the arguments

Under the version guard the wrappers compute the segmented scan of `data` by
`key`: a pass of the experimental scans is the fold of each segment, by
induction on the position. Past the guard the arrays and the functors have
changed places, and the wrappers are right only where there is nothing for
the exchange to show in: an inclusive scan of no elements, an exclusive one of
at most one.
-/

namespace Supercell

namespace Thrust

variable {Key Value : IntType}

/-! ## Passes and segments -/

/-- Position `j` continues the segment of the position before it. -/
def continues (key : ℕ → Key.Carrier) (pred : SegmentationPred) (j : ℕ) : Bool :=
  pred.holds (key (j - 1)) (key j)

@[simp] theorem functor_val (op : ScanOp) (x y : Value.Carrier) :
    op.functor Value x.val y.val = (op.apply x y).val := by
  simp only [ScanOp.functor, IntType.ofInt_val]

@[simp] theorem functor_ne_zero (pred : SegmentationPred) (x y : Key.Carrier) :
    pred.functor Key x.val y.val ≠ 0 ↔ pred.holds x y = true := by
  simp only [SegmentationPred.functor, IntType.ofInt_val]
  split <;> simp_all

/-- **An inclusive pass folds each segment up to the position.** -/
theorem IsInclusiveScanByKey.eq_inclusive {key : ℕ → Key.Carrier} {data : ℕ → Value.Carrier}
    {pred : SegmentationPred} {op : ScanOp} {size : ℕ} {r : ℕ → Value.Carrier}
    (h : IsInclusiveScanByKey key data (pred.functor Key) (op.functor Value) size r) {i : ℕ}
    (hi : i < size) : r i = Segments.inclusive (continues key pred) op.apply data i := by
  obtain ⟨hzero, hsucc⟩ := h
  induction i with
  | zero => rw [hzero hi, Segments.inclusive_zero, IntType.ofInt_val]
  | succ i ih =>
    have hprev := ih (Nat.lt_of_succ_lt hi)
    rw [hsucc i hi, Segments.inclusive_succ, ← hprev]
    simp only [functor_ne_zero, functor_val, continues, Nat.add_sub_cancel]
    split <;> rw [IntType.ofInt_val]

/-- **An exclusive pass folds each segment in front of the position.** -/
theorem IsExclusiveScanByKey.eq_exclusive {key : ℕ → Key.Carrier} {data : ℕ → Value.Carrier}
    {init : Value.Carrier} {pred : SegmentationPred} {op : ScanOp} {size : ℕ}
    {r : ℕ → Value.Carrier}
    (h : IsExclusiveScanByKey key data init (pred.functor Key) (op.functor Value) size r) {i : ℕ}
    (hi : i < size) : r i = Segments.exclusive (continues key pred) op.apply init data i := by
  obtain ⟨hzero, hsucc⟩ := h
  induction i with
  | zero => rw [hzero hi, Segments.exclusive_zero]
  | succ i ih =>
    have hprev := ih (Nat.lt_of_succ_lt hi)
    rw [hsucc i hi, Segments.exclusive_succ, ← hprev]
    simp only [functor_ne_zero, functor_val, continues, Nat.add_sub_cancel, IntType.ofInt_val]

/-! ## What the wrappers are for -/

variable (t : Library) (v : Version)

/-- The inclusive wrapper writes the fold of each segment, at every position
of arrays of this size. -/
def ComputesInclusive (Key Value : IntType) (size : ℕ) (op : ScanOp) (pred : SegmentationPred) :
    Prop :=
  ∀ (key : ℕ → Key.Carrier) (data : ℕ → Value.Carrier),
    ∃ result, inclusiveSegmentedScan t v key data size op.code pred.code = .ok result ∧
      ∀ i < size, result i = Segments.inclusive (continues key pred) op.apply data i

/-- The exclusive wrapper writes the fold of the initial value and each
segment in front of the position. -/
def ComputesExclusive (Key Value : IntType) (size : ℕ) (op : ScanOp) (pred : SegmentationPred) :
    Prop :=
  ∀ (key : ℕ → Key.Carrier) (data : ℕ → Value.Carrier) (init : Value.Carrier),
    ∃ result, exclusiveSegmentedScan t v key data init size op.code pred.code = .ok result ∧
      ∀ i < size, result i = Segments.exclusive (continues key pred) op.apply init data i

/-- Builds with two versions write the same elements. -/
def InclusiveAgree (v₁ v₂ : Version) (Key Value : IntType) (size : ℕ) (op : ScanOp)
    (pred : SegmentationPred) : Prop :=
  ∀ (key : ℕ → Key.Carrier) (data : ℕ → Value.Carrier), ∃ result₁ result₂,
    inclusiveSegmentedScan t v₁ key data size op.code pred.code = .ok result₁ ∧
      inclusiveSegmentedScan t v₂ key data size op.code pred.code = .ok result₂ ∧
        ∀ i < size, result₁ i = result₂ i

@[inherit_doc InclusiveAgree]
def ExclusiveAgree (v₁ v₂ : Version) (Key Value : IntType) (size : ℕ) (op : ScanOp)
    (pred : SegmentationPred) : Prop :=
  ∀ (key : ℕ → Key.Carrier) (data : ℕ → Value.Carrier) (init : Value.Carrier),
    ∃ result₁ result₂,
      exclusiveSegmentedScan t v₁ key data init size op.code pred.code = .ok result₁ ∧
        exclusiveSegmentedScan t v₂ key data init size op.code pred.code = .ok result₂ ∧
          ∀ i < size, result₁ i = result₂ i

section Calls

variable (key : ℕ → Key.Carrier) (data : ℕ → Value.Carrier) (init : Value.Carrier) (size : ℕ)
  (op : ScanOp) (pred : SegmentationPred)

theorem inclusiveSegmentedScan_code :
    inclusiveSegmentedScan t v key data size op.code pred.code = .ok
      (if v.Experimental then
        t.inclusiveSegmentedScan data size key (op.functor Value) (pred.functor Key)
      else t.inclusiveScanByKey data size key (op.functor Value) (pred.functor Key)) := by
  rw [inclusiveSegmentedScan, scanOperator_code, segmentationPredicate_code]
  simp only [bind, Except.bind]
  split <;> rfl

theorem exclusiveSegmentedScan_code :
    exclusiveSegmentedScan t v key data init size op.code pred.code = .ok
      (if v.Experimental then
        t.exclusiveSegmentedScan data size key init (op.functor Value) (pred.functor Key)
      else t.exclusiveScanByKey data size key init (op.functor Value) (pred.functor Key)) := by
  rw [exclusiveSegmentedScan, scanOperator_code, segmentationPredicate_code]
  simp only [bind, Except.bind]
  split <;> rfl

end Calls

/-! ## The two branches of the guard -/

/-- The operators take 2 and 2 to 2 or 4. -/
theorem two_le_apply (op : ScanOp) : 2 ≤ (op.apply (Value.ofInt 2) (Value.ofInt 2)).val := by
  cases op <;> cases Value <;> decide

/-- A predicate that is made to fold leaves truth values. -/
theorem ofInt_functor_le_one (pred : SegmentationPred) (x y : ℤ) :
    (Value.ofInt (pred.functor Key x y)).val ≤ 1 := by
  unfold SegmentationPred.functor
  split
  · rw [IntType.val_ofInt_one]
  · rw [IntType.val_ofInt_zero]
    decide

section Guard

variable {t v} (ht : t.Documented) {size : ℕ} {op : ScanOp} {pred : SegmentationPred}

include ht

theorem computesInclusive_of_experimental (hv : v.Experimental) :
    ComputesInclusive t v Key Value size op pred := by
  intro key data
  refine ⟨_, inclusiveSegmentedScan_code t v key data size op pred, fun i hi => ?_⟩
  rw [if_pos hv]
  exact (ht.inclusiveSegmentedScan data size key _ _).eq_inclusive hi

theorem computesExclusive_of_experimental (hv : v.Experimental) :
    ComputesExclusive t v Key Value size op pred := by
  intro key data init
  refine ⟨_, exclusiveSegmentedScan_code t v key data init size op pred, fun i hi => ?_⟩
  rw [if_pos hv]
  exact (ht.exclusiveSegmentedScan data size key init _ _).eq_exclusive hi

/-- A single position holds the initial value, whichever array plays the
keys. -/
theorem computesExclusive_of_le_one (hsize : size ≤ 1) :
    ComputesExclusive t v Key Value size op pred := by
  by_cases hv : v.Experimental
  · exact computesExclusive_of_experimental ht hv
  · intro key data init
    refine ⟨_, exclusiveSegmentedScan_code t v key data init size op pred, fun i hi => ?_⟩
    obtain rfl : i = 0 := by omega
    rw [if_neg hv, Segments.exclusive_zero]
    exact (ht.exclusiveScanByKey data size key init _ _).1 hi

/-- Past the guard the first element is the first key: keys of 0 over data of
1 give it away. -/
theorem not_computesInclusive (hv : ¬ v.Experimental) (hsize : 0 < size) :
    ¬ ComputesInclusive t v Key Value size op pred := by
  intro h
  obtain ⟨result, hcall, hresult⟩ := h (fun _ => Key.ofInt 0) (fun _ => Value.ofInt 1)
  rw [inclusiveSegmentedScan_code, if_neg hv] at hcall
  obtain rfl := Except.ok.inj hcall
  have hone := hresult 0 hsize
  rw [(ht.inclusiveScanByKey _ size _ _ _).1 hsize, Segments.inclusive_zero] at hone
  have hval := congrArg Subtype.val hone
  simp only [IntType.val_ofInt_zero, IntType.val_ofInt_one] at hval
  exact absurd hval (by decide)

/-- Past the guard the second element is a truth value wherever the operator
is not 0: data of 2, which no operator takes to 0 or 1, gives it away. -/
theorem not_computesExclusive (hv : ¬ v.Experimental) (hsize : 1 < size) :
    ¬ ComputesExclusive t v Key Value size op pred := by
  intro h
  obtain ⟨result, hcall, hresult⟩ :=
    h (fun _ => Key.ofInt 0) (fun _ => Value.ofInt 2) (Value.ofInt 2)
  rw [exclusiveSegmentedScan_code, if_neg hv] at hcall
  obtain rfl := Except.ok.inj hcall
  have htwo : 2 ≤ (op.apply (Value.ofInt 2) (Value.ofInt 2)).val := two_le_apply op
  have hsecond := hresult 1 hsize
  rw [(ht.exclusiveScanByKey _ size _ _ _ _).2 0 hsize, Segments.exclusive_succ,
    Segments.exclusive_zero] at hsecond
  simp only [functor_val] at hsecond
  rw [if_pos (by omega)] at hsecond
  have hval := congrArg Subtype.val hsecond
  have hge : 2 ≤ (if continues (fun _ => Key.ofInt 0) pred (0 + 1) = true then
      op.apply (Value.ofInt 2) (Value.ofInt 2) else Value.ofInt 2).val := by
    split
    · exact htwo
    · rw [IntType.val_ofInt_two]
  exact absurd (hge.trans (hval.ge.trans (ofInt_functor_le_one pred _ _))) (by decide)

end Guard

theorem computesInclusive_of_size_zero {size : ℕ} (hsize : size = 0) (op : ScanOp)
    (pred : SegmentationPred) : ComputesInclusive t v Key Value size op pred := by
  intro key data
  refine ⟨_, inclusiveSegmentedScan_code t v key data size op pred, fun i hi => ?_⟩
  exact absurd hi (by omega)

/-- Where one version computes the scan, a second one agrees with it exactly
when it computes the scan too. -/
theorem inclusiveAgree_iff {t : Library} {v₁ v₂ : Version} {size : ℕ} {op : ScanOp}
    {pred : SegmentationPred} (h : ComputesInclusive t v₁ Key Value size op pred) :
    InclusiveAgree t v₁ v₂ Key Value size op pred ↔
      ComputesInclusive t v₂ Key Value size op pred := by
  constructor
  · intro hagree key data
    obtain ⟨result, hcall, hresult⟩ := h key data
    obtain ⟨result₁, result₂, hcall₁, hcall₂, heq⟩ := hagree key data
    obtain rfl := Except.ok.inj (hcall.symm.trans hcall₁)
    exact ⟨result₂, hcall₂, fun i hi => (heq i hi).symm.trans (hresult i hi)⟩
  · intro h₂ key data
    obtain ⟨result, hcall, hresult⟩ := h key data
    obtain ⟨result₂, hcall₂, hresult₂⟩ := h₂ key data
    exact ⟨result, result₂, hcall, hcall₂,
      fun i hi => (hresult i hi).trans (hresult₂ i hi).symm⟩

@[inherit_doc inclusiveAgree_iff]
theorem exclusiveAgree_iff {t : Library} {v₁ v₂ : Version} {size : ℕ} {op : ScanOp}
    {pred : SegmentationPred} (h : ComputesExclusive t v₁ Key Value size op pred) :
    ExclusiveAgree t v₁ v₂ Key Value size op pred ↔
      ComputesExclusive t v₂ Key Value size op pred := by
  constructor
  · intro hagree key data init
    obtain ⟨result, hcall, hresult⟩ := h key data init
    obtain ⟨result₁, result₂, hcall₁, hcall₂, heq⟩ := hagree key data init
    obtain rfl := Except.ok.inj (hcall.symm.trans hcall₁)
    exact ⟨result₂, hcall₂, fun i hi => (heq i hi).symm.trans (hresult i hi)⟩
  · intro h₂ key data init
    obtain ⟨result, hcall, hresult⟩ := h key data init
    obtain ⟨result₂, hcall₂, hresult₂⟩ := h₂ key data init
    exact ⟨result, result₂, hcall, hcall₂,
      fun i hi => (hresult i hi).trans (hresult₂ i hi).symm⟩

theorem computesInclusive_iff {t : Library} (ht : t.Documented) {size : ℕ} {op : ScanOp}
    {pred : SegmentationPred} :
    ComputesInclusive t v Key Value size op pred ↔ v.Experimental ∨ size = 0 := by
  constructor
  · intro h
    by_contra hnot
    obtain ⟨hv, hsize⟩ := not_or.1 hnot
    exact not_computesInclusive ht hv (Nat.pos_of_ne_zero hsize) h
  · rintro (hv | hsize)
    · exact computesInclusive_of_experimental ht hv
    · exact computesInclusive_of_size_zero t v hsize op pred

theorem computesExclusive_iff {t : Library} (ht : t.Documented) {size : ℕ} {op : ScanOp}
    {pred : SegmentationPred} :
    ComputesExclusive t v Key Value size op pred ↔ v.Experimental ∨ size ≤ 1 := by
  constructor
  · intro h
    by_contra hnot
    obtain ⟨hv, hsize⟩ := not_or.1 hnot
    exact not_computesExclusive ht hv (Nat.lt_of_not_le hsize) h
  · rintro (hv | hsize)
    · exact computesExclusive_of_experimental ht hv
    · exact computesExclusive_of_le_one ht hsize

/-- **The wrappers compute segmented scans exactly under the version guard**,
or where the arrays are too short for the exchanged arguments to matter; and
the two sides of the guard agree exactly on such short arrays. -/
theorem segmentedScans_iff (t : Library) (ht : t.Documented) (v : Version)
    (Key Value : IntType) (size : ℕ) (op : ScanOp) (pred : SegmentationPred) :
    (ComputesInclusive t v Key Value size op pred ↔ v.Experimental ∨ size = 0) ∧
      (ComputesExclusive t v Key Value size op pred ↔ v.Experimental ∨ size ≤ 1) ∧
      ∀ v₁ v₂ : Version, v₁.Experimental → ¬ v₂.Experimental →
        (InclusiveAgree t v₁ v₂ Key Value size op pred ↔ size = 0) ∧
          (ExclusiveAgree t v₁ v₂ Key Value size op pred ↔ size ≤ 1) := by
  refine ⟨computesInclusive_iff v ht, computesExclusive_iff v ht, fun v₁ v₂ h₁ h₂ => ⟨?_, ?_⟩⟩
  · rw [inclusiveAgree_iff (computesInclusive_of_experimental ht h₁), computesInclusive_iff v₂ ht,
      or_iff_right h₂]
  · rw [exclusiveAgree_iff (computesExclusive_of_experimental ht h₁), computesExclusive_iff v₂ ht,
      or_iff_right h₂]

/-! ## A library -/

/-- The inclusive pass, one element after the other. -/
def inclusivePass {A B R : IntType} (keys : ℕ → A.Carrier) (values : ℕ → B.Carrier)
    (binaryPred binaryOp : Functor) : ℕ → R.Carrier
  | 0 => R.ofInt (values 0).val
  | i + 1 => R.ofInt
      (if binaryPred (keys i).val (keys (i + 1)).val ≠ 0 then
        binaryOp (inclusivePass (R := R) keys values binaryPred binaryOp i).val
          (values (i + 1)).val
      else (values (i + 1)).val)

@[inherit_doc inclusivePass]
def exclusivePass {A B R : IntType} (keys : ℕ → A.Carrier) (values : ℕ → B.Carrier)
    (init : R.Carrier) (binaryPred binaryOp : Functor) : ℕ → R.Carrier
  | 0 => init
  | i + 1 =>
      if binaryPred (keys i).val (keys (i + 1)).val ≠ 0 then
        R.ofInt (binaryOp (exclusivePass keys values init binaryPred binaryOp i).val
          (values i).val)
      else init

/-- A library that scans sequentially. -/
def sequential : Library where
  inclusiveSegmentedScan first1 _ first2 binaryOp pred := inclusivePass first2 first1 pred binaryOp
  exclusiveSegmentedScan first1 _ first2 init binaryOp pred :=
    exclusivePass first2 first1 init pred binaryOp
  inclusiveScanByKey first1 _ first2 binaryPred binaryOp :=
    inclusivePass first1 first2 binaryPred binaryOp
  exclusiveScanByKey first1 _ first2 init binaryPred binaryOp :=
    exclusivePass first1 first2 init binaryPred binaryOp

theorem sequential_documented : sequential.Documented where
  inclusiveSegmentedScan _ _ _ _ _ := ⟨fun _ => rfl, fun _ _ => rfl⟩
  exclusiveSegmentedScan _ _ _ _ _ _ := ⟨fun _ => rfl, fun _ _ => rfl⟩
  inclusiveScanByKey _ _ _ _ _ := ⟨fun _ => rfl, fun _ _ => rfl⟩
  exclusiveScanByKey _ _ _ _ _ _ := ⟨fun _ => rfl, fun _ _ => rfl⟩

/-- At version 1.3 the sums over two elements are wrong. -/
theorem segmentedScans_sequential :
    sequential.Documented ∧
      (ComputesInclusive sequential ⟨1, 3⟩ .int .int 2 .plus .equalTo ↔
        (⟨1, 3⟩ : Version).Experimental ∨ 2 = 0) ∧
      (ComputesExclusive sequential ⟨1, 3⟩ .int .int 2 .plus .equalTo ↔
        (⟨1, 3⟩ : Version).Experimental ∨ 2 ≤ 1) ∧
      (⟨1, 2⟩ : Version).Experimental ∧ ¬ (⟨1, 3⟩ : Version).Experimental ∧
      (InclusiveAgree sequential ⟨1, 2⟩ ⟨1, 3⟩ .int .int 2 .plus .equalTo ↔ 2 = 0) ∧
      (ExclusiveAgree sequential ⟨1, 2⟩ ⟨1, 3⟩ .int .int 2 .plus .equalTo ↔ 2 ≤ 1) := by
  obtain ⟨hinclusive, hexclusive, hagree⟩ :=
    segmentedScans_iff sequential sequential_documented ⟨1, 3⟩ .int .int 2 .plus .equalTo
  have hold : (⟨1, 2⟩ : Version).Experimental := by decide
  have hnew : ¬ (⟨1, 3⟩ : Version).Experimental := by decide
  obtain ⟨hi, he⟩ := hagree ⟨1, 2⟩ ⟨1, 3⟩ hold hnew
  exact ⟨sequential_documented, hinclusive, hexclusive, hold, hnew, hi, he⟩

/-- **The wrappers scan the wrong arrays.** Two elements of data, 1 and 1,
under equal keys 0 and 0: their running sums are 1 and 2, and a build at
version 1.3 writes 0 and 1. The exclusive sums from 2 over data of 2 are 2 and
4, and it writes 2 and 0. -/
theorem segmentedScans_exchanged :
    ((∃ result, inclusiveSegmentedScan sequential ⟨1, 3⟩ (fun _ => IntType.int.ofInt 0)
        (fun _ => IntType.int.ofInt 1) 2 ScanOp.plus.code SegmentationPred.equalTo.code =
          .ok result ∧ (result 0).val = 0 ∧ (result 1).val = 1) ∧
      (Segments.inclusive (continues (fun _ => IntType.int.ofInt 0) .equalTo)
        ScanOp.plus.apply (fun _ => IntType.int.ofInt 1) 0).val = 1 ∧
      (Segments.inclusive (continues (fun _ => IntType.int.ofInt 0) .equalTo)
        ScanOp.plus.apply (fun _ => IntType.int.ofInt 1) 1).val = 2) ∧
    ((∃ result, exclusiveSegmentedScan sequential ⟨1, 3⟩ (fun _ => IntType.int.ofInt 0)
        (fun _ => IntType.int.ofInt 2) (IntType.int.ofInt 2) 2 ScanOp.plus.code
          SegmentationPred.equalTo.code = .ok result ∧ (result 0).val = 2 ∧ (result 1).val = 0) ∧
      (Segments.exclusive (continues (fun _ => IntType.int.ofInt 0) .equalTo)
        ScanOp.plus.apply (IntType.int.ofInt 2) (fun _ => IntType.int.ofInt 2) 1).val = 4) ∧
    ¬ ∀ (v : Version) (Key Value : IntType) (size : ℕ) (op : ScanOp) (pred : SegmentationPred),
      ComputesInclusive sequential v Key Value size op pred ∧
        ComputesExclusive sequential v Key Value size op pred := by
  refine ⟨⟨⟨_, rfl, by decide, by decide⟩, by decide, by decide⟩,
    ⟨⟨_, rfl, by decide, by decide⟩, by decide⟩, fun h => ?_⟩
  obtain ⟨result, hcall, hresult⟩ := (h ⟨1, 3⟩ .int .int 2 .plus .equalTo).1
    (fun _ => IntType.int.ofInt 0) (fun _ => IntType.int.ofInt 1)
  obtain rfl := Except.ok.inj hcall
  exact absurd (hresult 0 (by decide)) (by decide)

end Thrust

end Supercell
