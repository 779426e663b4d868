import Supercell.Common.Bracketing
import Supercell.Thrust.ArgumentOrder

/-!
# The scan wrappers

`thrust_exclusive_scan` and `thrust_inclusive_scan` choose an operator by its
code and hand the arrays to Thrust, which scans in parallel: what it promises
of an element is a combination of the operands up to there, with the brackets
wherever the machine put them, and this for associative operators alone.

All four operators are associative at every integer type, the sums and
products too, since they only reduce modulo a power of two. So the wrappers
leave one result, the running fold, and the segmented wrappers under the
version guard leave on each segment what the plain ones leave on the segment
by itself.
-/

namespace Supercell

namespace Thrust

/-! ## The operators -/

namespace IntType

variable (T : IntType)

theorem wrap_add_left (x y : ℤ) : T.wrap (T.wrap x + y) = T.wrap (x + y) := by
  unfold wrap
  split
  · exact Int.bmod_add_bmod
  · exact Int.emod_add_emod x _ y

theorem wrap_mul_left (x y : ℤ) : T.wrap (T.wrap x * y) = T.wrap (x * y) := by
  unfold wrap
  split
  · exact Int.bmod_mul_bmod
  · rw [Int.mul_emod, Int.emod_emod_of_dvd x (Int.dvd_refl _), ← Int.mul_emod]

theorem wrap_add_right (x y : ℤ) : T.wrap (x + T.wrap y) = T.wrap (x + y) := by
  rw [Int.add_comm, wrap_add_left, Int.add_comm]

theorem wrap_mul_right (x y : ℤ) : T.wrap (x * T.wrap y) = T.wrap (x * y) := by
  rw [Int.mul_comm, wrap_mul_left, Int.mul_comm]

end IntType

variable {T : IntType}

/-- **Every operator is associative**, whatever overflows on the way. -/
instance apply_associative (op : ScanOp) :
    Std.Associative (op.apply : T.Carrier → T.Carrier → T.Carrier) where
  assoc x y z := by
    cases op with
    | maximum =>
      simp only [ScanOp.apply]
      split_ifs <;> first | rfl | omega
    | minimum =>
      simp only [ScanOp.apply]
      split_ifs <;> first | rfl | omega
    | plus =>
      refine Subtype.ext ?_
      change T.wrap (T.wrap (x.val + y.val) + z.val) = T.wrap (x.val + T.wrap (y.val + z.val))
      rw [T.wrap_add_left, T.wrap_add_right, Int.add_assoc]
    | multiply =>
      refine Subtype.ext ?_
      change T.wrap (T.wrap (x.val * y.val) * z.val) = T.wrap (x.val * T.wrap (y.val * z.val))
      rw [T.wrap_mul_left, T.wrap_mul_right, Int.mul_assoc]

/-! ## Thrust -/

/-- The functions of Thrust that the wrappers call. -/
structure ScanLibrary where
  /-- `thrust::inclusive_scan` -/
  inclusiveScan {α : Type} (first : ℕ → α) (size : ℕ) (binaryOp : α → α → α) : ℕ → α
  /-- `thrust::exclusive_scan` -/
  exclusiveScan {α : Type} (first : ℕ → α) (size : ℕ) (init : α) (binaryOp : α → α → α) : ℕ → α

/-- **What Thrust documents**: under an associative operator an element of the
inclusive scan is a combination of the elements up to it, one of the
exclusive scan a combination of the initial value and the elements in front
of it. -/
structure ScanLibrary.Documented (t : ScanLibrary) : Prop where
  inclusiveScan {α : Type} (first : ℕ → α) (size : ℕ) (binaryOp : α → α → α)
    (assoc : Std.Associative binaryOp) (i : ℕ) (hi : i < size) :
    Bracketing binaryOp ((List.range (i + 1)).map first) (t.inclusiveScan first size binaryOp i)
  exclusiveScan {α : Type} (first : ℕ → α) (size : ℕ) (init : α) (binaryOp : α → α → α)
    (assoc : Std.Associative binaryOp) (i : ℕ) (hi : i < size) :
    Bracketing binaryOp (init :: (List.range i).map first)
      (t.exclusiveScan first size init binaryOp i)

/-! ## The wrappers -/

/-- The comparisons of a wrapper: the operator that the code selects, or the
text of the exception. -/
def plainScanOperator (invalid : String) (T : IntType) (op : ℕ) :
    Except String (T.Carrier → T.Carrier → T.Carrier) :=
  if op = ScanOp.maximum.code then .ok ScanOp.maximum.apply
  else if op = ScanOp.minimum.code then .ok ScanOp.minimum.apply
  else if op = ScanOp.plus.code then .ok ScanOp.plus.apply
  else if op = ScanOp.multiply.code then .ok ScanOp.multiply.apply
  else .error invalid

variable (t : ScanLibrary)

/-- `thrust_exclusive_scan`: the elements of `output` after the call, or the
text of the exception. -/
def thrustExclusiveScan (input : ℕ → T.Carrier) (init : T.Carrier) (size op : ℕ) :
    Except String (ℕ → T.Carrier) := do
  let binaryOp ← plainScanOperator "invalid exclusive scan operator" T op
  return t.exclusiveScan input size init binaryOp

/-- `thrust_inclusive_scan`. -/
def thrustInclusiveScan (input : ℕ → T.Carrier) (size op : ℕ) :
    Except String (ℕ → T.Carrier) := do
  let binaryOp ← plainScanOperator "invalid inclusive scan operator" T op
  return t.inclusiveScan input size binaryOp

@[simp] theorem plainScanOperator_code (invalid : String) (op : ScanOp) :
    plainScanOperator invalid T op.code = .ok op.apply := by
  cases op <;> rfl

theorem plainScanOperator_invalid (invalid : String) {op : ℕ} (hop : 4 ≤ op) :
    plainScanOperator invalid T op = .error invalid := by
  have hne : ∀ o : ScanOp, op ≠ o.code := by
    intro o
    cases o <;> simp only [ScanOp.code] <;> omega
  unfold plainScanOperator
  rw [if_neg (hne _), if_neg (hne _), if_neg (hne _), if_neg (hne _)]

theorem thrustExclusiveScan_code (input : ℕ → T.Carrier) (init : T.Carrier) (size : ℕ)
    (op : ScanOp) : thrustExclusiveScan t input init size op.code =
      .ok (t.exclusiveScan input size init op.apply) := by
  rw [thrustExclusiveScan, plainScanOperator_code]
  rfl

theorem thrustInclusiveScan_code (input : ℕ → T.Carrier) (size : ℕ) (op : ScanOp) :
    thrustInclusiveScan t input size op.code = .ok (t.inclusiveScan input size op.apply) := by
  rw [thrustInclusiveScan, plainScanOperator_code]
  rfl

/-! ## What the operators combine to -/

/-- **What a list of operands comes to** by an operator: the greatest or the
least of them, or the sum or the product modulo two to the width. -/
def ScanOp.Combines (op : ScanOp) (operands : List T.Carrier) (x : T.Carrier) : Prop :=
  match op with
  | maximum => x ∈ operands ∧ ∀ y ∈ operands, y.val ≤ x.val
  | minimum => x ∈ operands ∧ ∀ y ∈ operands, x.val ≤ y.val
  | plus => x = T.ofInt (operands.map fun y : T.Carrier => y.val).sum
  | multiply => x = T.ofInt (operands.map fun y : T.Carrier => y.val).prod

/-- A list comes to one number. -/
theorem ScanOp.Combines.unique {op : ScanOp} {operands : List T.Carrier} {x y : T.Carrier}
    (hx : op.Combines operands x) (hy : op.Combines operands y) : x = y := by
  cases op with
  | maximum => exact Subtype.ext (Int.le_antisymm (hy.2 x hx.1) (hx.2 y hy.1))
  | minimum => exact Subtype.ext (Int.le_antisymm (hx.2 y hy.1) (hy.2 x hx.1))
  | plus => exact hx.trans hy.symm
  | multiply => exact hx.trans hy.symm

/-- Two lists, and what the operator makes of the numbers they come to. -/
theorem ScanOp.Combines.append {op : ScanOp} {left right : List T.Carrier} {x y : T.Carrier}
    (hx : op.Combines left x) (hy : op.Combines right y) :
    op.Combines (left ++ right) (op.apply x y) := by
  cases op with
  | maximum =>
    obtain ⟨hmemx, hmaxx⟩ := hx
    obtain ⟨hmemy, hmaxy⟩ := hy
    simp only [ScanOp.apply]
    split
    · rename_i hlt
      refine ⟨List.mem_append_right left hmemy, fun z hz => ?_⟩
      rcases List.mem_append.1 hz with hz | hz
      · exact (hmaxx z hz).trans hlt.le
      · exact hmaxy z hz
    · rename_i hle
      refine ⟨List.mem_append_left right hmemx, fun z hz => ?_⟩
      rcases List.mem_append.1 hz with hz | hz
      · exact hmaxx z hz
      · exact (hmaxy z hz).trans (Int.not_lt.1 hle)
  | minimum =>
    obtain ⟨hmemx, hminx⟩ := hx
    obtain ⟨hmemy, hminy⟩ := hy
    simp only [ScanOp.apply]
    split
    · rename_i hlt
      refine ⟨List.mem_append_left right hmemx, fun z hz => ?_⟩
      rcases List.mem_append.1 hz with hz | hz
      · exact hminx z hz
      · exact hlt.le.trans (hminy z hz)
    · rename_i hle
      refine ⟨List.mem_append_right left hmemy, fun z hz => ?_⟩
      rcases List.mem_append.1 hz with hz | hz
      · exact (Int.not_lt.1 hle).trans (hminx z hz)
      · exact hminy z hz
  | plus =>
    obtain rfl : x = _ := hx
    obtain rfl : y = _ := hy
    refine Subtype.ext ?_
    rw [List.map_append, List.sum_append]
    change T.wrap (T.wrap _ + T.wrap _) = T.wrap _
    rw [T.wrap_add_left, T.wrap_add_right]
  | multiply =>
    obtain rfl : x = _ := hx
    obtain rfl : y = _ := hy
    refine Subtype.ext ?_
    rw [List.map_append, List.prod_append]
    change T.wrap (T.wrap _ * T.wrap _) = T.wrap _
    rw [T.wrap_mul_left, T.wrap_mul_right]

/-- **Every bracketing comes to the same**: the step is `append`, and a single
operand is what it comes to. -/
theorem ScanOp.combines_of_bracketing {op : ScanOp} {operands : List T.Carrier} {x : T.Carrier}
    (h : Bracketing op.apply operands x) : op.Combines operands x := by
  induction h with
  | single a =>
    cases op with
    | maximum => exact ⟨List.mem_singleton_self a, fun y hy => (List.mem_singleton.1 hy ▸ le_rfl)⟩
    | minimum => exact ⟨List.mem_singleton_self a, fun y hy => (List.mem_singleton.1 hy ▸ le_rfl)⟩
    | plus => simp [ScanOp.Combines]
    | multiply => simp [ScanOp.Combines]
  | node _ _ ihl ihr => exact ihl.append ihr

/-- **What the plain wrappers write.** At every position, the inclusive one
what the elements up to it come to, the exclusive one what the initial value
and the elements in front of it come to; and by no other code than the four
is anything written. -/
theorem thrustScans_combine (ht : t.Documented) (data : ℕ → T.Carrier) (init : T.Carrier)
    (size op : ℕ) :
    (∀ o : ScanOp, op = o.code → ∃ included excluded,
      thrustInclusiveScan t data size op = .ok included ∧
      thrustExclusiveScan t data init size op = .ok excluded ∧
      ∀ i < size, o.Combines ((List.range (i + 1)).map data) (included i) ∧
        o.Combines (init :: (List.range i).map data) (excluded i)) ∧
    (4 ≤ op → thrustInclusiveScan t data size op = .error "invalid inclusive scan operator" ∧
      thrustExclusiveScan t data init size op = .error "invalid exclusive scan operator") := by
  refine ⟨fun o ho => ?_, fun hop => ⟨?_, ?_⟩⟩
  · subst ho
    refine ⟨_, _, thrustInclusiveScan_code t data size o, thrustExclusiveScan_code t data init size o,
      fun i hi => ⟨?_, ?_⟩⟩
    · exact ScanOp.combines_of_bracketing
        (ht.inclusiveScan data size o.apply (apply_associative o) i hi)
    · exact ScanOp.combines_of_bracketing
        (ht.exclusiveScan data size init o.apply (apply_associative o) i hi)
  · rw [thrustInclusiveScan, plainScanOperator_invalid _ hop]
    rfl
  · rw [thrustExclusiveScan, plainScanOperator_invalid _ hop]
    rfl

/-! ## A segment by itself -/

section Folds

variable {t} (ht : t.Documented)

include ht

theorem ScanLibrary.Documented.inclusiveScan_eq (op : ScanOp) (data : ℕ → T.Carrier) {size i : ℕ}
    (hi : i < size) : t.inclusiveScan data size op.apply i =
      (List.range' 1 i).foldl (fun acc j => op.apply acc (data j)) (data 0) := by
  have hbrackets := ht.inclusiveScan data size op.apply (apply_associative op) i hi
  have hcons : (List.range (i + 1)).map data = data 0 :: (List.range' 1 i).map data := by
    rw [List.range_eq_range', List.range'_succ, List.map_cons]
  rw [hbrackets.eq_foldl hcons, List.foldl_map]

theorem ScanLibrary.Documented.exclusiveScan_eq (op : ScanOp) (data : ℕ → T.Carrier)
    (init : T.Carrier) {size i : ℕ} (hi : i < size) :
    t.exclusiveScan data size init op.apply i =
      (List.range i).foldl (fun acc j => op.apply acc (data j)) init := by
  have hbrackets := ht.exclusiveScan data size init op.apply (apply_associative op) i hi
  rw [hbrackets.eq_foldl rfl, List.foldl_map]

/-- The fold over a segment is the scan of the elements from its start on. -/
theorem ScanLibrary.Documented.inclusive_eq (op : ScanOp) (cont : ℕ → Bool)
    (data : ℕ → T.Carrier) {size i : ℕ} (hi : i < size) :
    Segments.inclusive cont op.apply data i =
      t.inclusiveScan (fun j => data (Segments.start cont i + j))
        (size - Segments.start cont i) op.apply (i - Segments.start cont i) := by
  have hle := Segments.start_le cont i
  rw [ht.inclusiveScan_eq op _ (by omega), Segments.inclusive, Nat.add_zero,
    List.range'_eq_map_range, List.range'_eq_map_range, List.foldl_map, List.foldl_map]
  congr 1
  funext acc j
  rw [Nat.add_assoc]

@[inherit_doc ScanLibrary.Documented.inclusive_eq]
theorem ScanLibrary.Documented.exclusive_eq (op : ScanOp) (cont : ℕ → Bool)
    (data : ℕ → T.Carrier) (init : T.Carrier) {size i : ℕ} (hi : i < size) :
    Segments.exclusive cont op.apply init data i =
      t.exclusiveScan (fun j => data (Segments.start cont i + j))
        (size - Segments.start cont i) init op.apply (i - Segments.start cont i) := by
  have hle := Segments.start_le cont i
  rw [ht.exclusiveScan_eq op _ init (by omega), Segments.exclusive, List.range'_eq_map_range,
    List.foldl_map]

end Folds

variable {Key Value : IntType}

/-- **The segmented wrappers scan every segment as the plain ones would.**
Under the version guard an element is the one the plain wrapper writes for
it, when it is handed the segment alone: what stands between the last break in front
of the element and the first one behind it. -/
theorem segmentedScans_eq_plain (ht : t.Documented) (s : Library) (hs : s.Documented)
    (v : Version) (hv : v.Experimental) (key : ℕ → Key.Carrier) (data : ℕ → Value.Carrier)
    (init : Value.Carrier) (size : ℕ) (op : ScanOp) (pred : SegmentationPred) :
    ∃ included excluded,
      inclusiveSegmentedScan s v key data size op.code pred.code = .ok included ∧
      exclusiveSegmentedScan s v key data init size op.code pred.code = .ok excluded ∧
      ∀ i < size, ∃ start stop,
        IsGreatest {j | j ≤ i ∧ (j = 0 ∨ pred.holds (key (j - 1)) (key j) = false)} start ∧
        IsLeast {j | i < j ∧ (j = size ∨ pred.holds (key (j - 1)) (key j) = false)} stop ∧
        ∃ alone aloneExcluded,
          thrustInclusiveScan t (fun j => data (start + j)) (stop - start) op.code = .ok alone ∧
          thrustExclusiveScan t (fun j => data (start + j)) init (stop - start) op.code =
            .ok aloneExcluded ∧
          included i = alone (i - start) ∧ excluded i = aloneExcluded (i - start) := by
  have hcomputesInclusive : ComputesInclusive s v Key Value size op pred :=
    computesInclusive_of_experimental hs hv
  have hcomputesExclusive : ComputesExclusive s v Key Value size op pred :=
    computesExclusive_of_experimental hs hv
  obtain ⟨included, hincluded, hinclusive⟩ := hcomputesInclusive key data
  obtain ⟨excluded, hexcluded, hexclusive⟩ := hcomputesExclusive key data init
  refine ⟨included, excluded, hincluded, hexcluded, fun i hi => ?_⟩
  -- the segment ends at the end of the array, if not before
  have hends : ∃ j, i < j ∧ (j = size ∨ pred.holds (key (j - 1)) (key j) = false) :=
    ⟨size, hi, .inl rfl⟩
  obtain ⟨stop, hstop⟩ :
      ∃ stop, IsLeast {j | i < j ∧ (j = size ∨ pred.holds (key (j - 1)) (key j) = false)} stop :=
    ⟨Nat.find hends, Nat.find_spec hends, fun _ => Nat.find_min' hends⟩
  refine ⟨Segments.start (continues key pred) i, stop, Segments.isGreatest_start _ i, hstop,
    _, _, thrustInclusiveScan_code t _ _ op, thrustExclusiveScan_code t _ init _ op, ?_, ?_⟩
  · rw [hinclusive i hi, ht.inclusive_eq op _ data hstop.1.1]
  · rw [hexclusive i hi, ht.exclusive_eq op _ data init hstop.1.1]

/-! ## A library -/

/-- A library that scans from left to right. -/
def serial : ScanLibrary where
  inclusiveScan first _ binaryOp i :=
    (List.range' 1 i).foldl (fun acc j => binaryOp acc (first j)) (first 0)
  exclusiveScan first _ init binaryOp i :=
    (List.range i).foldl (fun acc j => binaryOp acc (first j)) init

theorem serial_documented : serial.Documented where
  inclusiveScan first size binaryOp _ i _ := by
    rw [List.range_eq_range', List.range'_succ, List.map_cons]
    have h : Bracketing binaryOp _ _ := Bracketing.foldl (first 0) ((List.range' 1 i).map first)
    rwa [List.foldl_map] at h
  exclusiveScan first size init binaryOp _ i _ := by
    have h : Bracketing binaryOp _ _ := Bracketing.foldl init ((List.range i).map first)
    rwa [List.foldl_map] at h

/-- Sums of 30000 leave the range of a short. -/
theorem thrustScans_combine_serial :
    serial.Documented ∧ ∃ included excluded,
      thrustInclusiveScan serial (fun _ => IntType.short.ofInt 30000) 3 2 = .ok included ∧
      thrustExclusiveScan serial (fun _ => IntType.short.ofInt 30000) (IntType.short.ofInt 1) 3 2 =
        .ok excluded ∧
      ∀ i < 3, ScanOp.plus.Combines
          ((List.range (i + 1)).map fun _ => IntType.short.ofInt 30000) (included i) ∧
        ScanOp.plus.Combines (IntType.short.ofInt 1 ::
          (List.range i).map fun _ => IntType.short.ofInt 30000) (excluded i) :=
  ⟨serial_documented, (thrustScans_combine serial serial_documented
    (fun _ => IntType.short.ofInt 30000) (IntType.short.ofInt 1) 3 2).1 .plus rfl⟩

/-- Keys of two segments. -/
def twoKeys (i : ℕ) : IntType.int.Carrier := IntType.int.ofInt (if i < 2 then 0 else 1)

/-- Two segments, at version 1.2. -/
theorem segmentedScans_eq_plain_serial :
    serial.Documented ∧ sequential.Documented ∧ (⟨1, 2⟩ : Version).Experimental ∧
      IsGreatest {j | j ≤ 3 ∧
        (j = 0 ∨ SegmentationPred.equalTo.holds (twoKeys (j - 1)) (twoKeys j) = false)} 2 ∧
      ∃ included excluded,
        inclusiveSegmentedScan sequential ⟨1, 2⟩ twoKeys (fun i => IntType.int.ofInt i) 4
          ScanOp.plus.code SegmentationPred.equalTo.code = .ok included ∧
        exclusiveSegmentedScan sequential ⟨1, 2⟩ twoKeys (fun i => IntType.int.ofInt i)
          (IntType.int.ofInt 5) 4 ScanOp.plus.code SegmentationPred.equalTo.code = .ok excluded ∧
        ∀ i < 4, ∃ start stop,
          IsGreatest {j | j ≤ i ∧
            (j = 0 ∨ SegmentationPred.equalTo.holds (twoKeys (j - 1)) (twoKeys j) = false)} start ∧
          IsLeast {j | i < j ∧
            (j = 4 ∨ SegmentationPred.equalTo.holds (twoKeys (j - 1)) (twoKeys j) = false)} stop ∧
          ∃ alone aloneExcluded,
            thrustInclusiveScan serial (fun j => IntType.int.ofInt ((start + j : ℕ) : ℤ))
              (stop - start) ScanOp.plus.code = .ok alone ∧
            thrustExclusiveScan serial (fun j => IntType.int.ofInt ((start + j : ℕ) : ℤ))
              (IntType.int.ofInt 5) (stop - start) ScanOp.plus.code = .ok aloneExcluded ∧
            included i = alone (i - start) ∧ excluded i = aloneExcluded (i - start) := by
  have hv : (⟨1, 2⟩ : Version).Experimental := by decide
  refine ⟨serial_documented, sequential_documented, hv, ⟨⟨by decide, .inr (by decide)⟩, ?_⟩,
    segmentedScans_eq_plain serial serial_documented sequential sequential_documented ⟨1, 2⟩ hv
      twoKeys (fun i => IntType.int.ofInt i) (IntType.int.ofInt 5) 4 .plus .equalTo⟩
  rintro j ⟨hj, hbreak⟩
  by_contra hlt
  obtain rfl : j = 3 := by omega
  exact absurd hbreak (by decide)

end Thrust

end Supercell
