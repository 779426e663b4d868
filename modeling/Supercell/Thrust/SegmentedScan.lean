import Supercell.Common.Segments
import Supercell.Thrust.Types
import Mathlib.Tactic.IntervalCases

/-!
# The segmented scan wrappers

`thrust_exclusive_segmented_scan` and `thrust_inclusive_segmented_scan`
choose an operator and a predicate by their codes and hand the arrays to
Thrust: to the experimental segmented scans up to version 1.2, to the scans
by key from 1.3 on. Thrust is not part of the repository. It enters as the
four functions the wrappers call, with what its documentation says of the
order of their arguments.

The two families take the arrays in opposite orders, and the functors too.
The wrappers write the older order in both branches of the version guard, so
that from 1.3 on `data` plays the keys, `key` the values, the operator draws
the segments and the predicate folds them.
-/

namespace Supercell

namespace Thrust

/-! ## Operators and predicates -/

/-- The enumerators of `scan_op`. -/
inductive ScanOp where
  | maximum
  | minimum
  | plus
  | multiply
  deriving DecidableEq, Repr

/-- The enumerators of `segmentation_pred`. -/
inductive SegmentationPred where
  | equalTo
  | notEqualTo
  | greater
  | less
  | greaterEqual
  | lessEqual
  deriving DecidableEq, Repr

/-- The value of the enumerator, which is what the wrappers compare. -/
def ScanOp.code : ScanOp → ℕ
  | maximum => 0
  | minimum => 1
  | plus => 2
  | multiply => 3

def SegmentationPred.code : SegmentationPred → ℕ
  | equalTo => 0
  | notEqualTo => 1
  | greater => 2
  | less => 3
  | greaterEqual => 4
  | lessEqual => 5

/-- The operator on the numbers of a type; sums and products are reduced to
its width. -/
def ScanOp.apply {T : IntType} (op : ScanOp) (x y : T.Carrier) : T.Carrier :=
  match op with
  | maximum => if x.val < y.val then y else x
  | minimum => if x.val < y.val then x else y
  | plus => T.ofInt (x.val + y.val)
  | multiply => T.ofInt (x.val * y.val)

/-- Whether the predicate holds of two numbers of a type. -/
def SegmentationPred.holds {T : IntType} (pred : SegmentationPred) (x y : T.Carrier) : Bool :=
  match pred with
  | equalTo => x.val = y.val
  | notEqualTo => x.val ≠ y.val
  | greater => x.val > y.val
  | less => x.val < y.val
  | greaterEqual => x.val ≥ y.val
  | lessEqual => x.val ≤ y.val

/-- A function object as Thrust calls it: on whatever integers stand in the
arrays, for an integer that is converted where it is stored. -/
abbrev Functor := ℤ → ℤ → ℤ

/-- `thrust::plus<T>()` and its siblings: the arguments are converted to the
type of the template. -/
def ScanOp.functor (T : IntType) (op : ScanOp) : Functor :=
  fun x y => (op.apply (T.ofInt x) (T.ofInt y)).val

/-- `thrust::equal_to<T>()` and its siblings; a truth value is the number 1
or 0. -/
def SegmentationPred.functor (T : IntType) (pred : SegmentationPred) : Functor :=
  fun x y => if pred.holds (T.ofInt x) (T.ofInt y) then 1 else 0

/-! ## Thrust -/

/-- The passes an array of results may come from: `r` is the scan of
`values` in the segments of `keys`, with each result converted to its
element type. -/
def IsInclusiveScanByKey {A B R : IntType} (keys : ℕ → A.Carrier) (values : ℕ → B.Carrier)
    (binaryPred binaryOp : Functor) (size : ℕ) (r : ℕ → R.Carrier) : Prop :=
  (0 < size → r 0 = R.ofInt (values 0).val) ∧
    ∀ i, i + 1 < size → r (i + 1) = R.ofInt
      (if binaryPred (keys i).val (keys (i + 1)).val ≠ 0 then
        binaryOp (r i).val (values (i + 1)).val else (values (i + 1)).val)

@[inherit_doc IsInclusiveScanByKey]
def IsExclusiveScanByKey {A B R : IntType} (keys : ℕ → A.Carrier) (values : ℕ → B.Carrier)
    (init : R.Carrier) (binaryPred binaryOp : Functor) (size : ℕ) (r : ℕ → R.Carrier) : Prop :=
  (0 < size → r 0 = init) ∧
    ∀ i, i + 1 < size → r (i + 1) =
      if binaryPred (keys i).val (keys (i + 1)).val ≠ 0 then
        R.ofInt (binaryOp (r i).val (values i).val) else init

/-- The functions of Thrust that the wrappers call, each with its arguments
in the order in which it takes them. An array is its elements by position,
and a range `first, first + size` is the array with the size. -/
structure Library where
  /-- `thrust::experimental::inclusive_segmented_scan`, up to 1.2. -/
  inclusiveSegmentedScan {A B R : IntType} (first1 : ℕ → A.Carrier) (size : ℕ)
    (first2 : ℕ → B.Carrier) (binaryOp pred : Functor) : ℕ → R.Carrier
  /-- `thrust::experimental::exclusive_segmented_scan`, up to 1.2. -/
  exclusiveSegmentedScan {A B R : IntType} (first1 : ℕ → A.Carrier) (size : ℕ)
    (first2 : ℕ → B.Carrier) (init : R.Carrier) (binaryOp pred : Functor) : ℕ → R.Carrier
  /-- `thrust::inclusive_scan_by_key`, from 1.3 on. -/
  inclusiveScanByKey {A B R : IntType} (first1 : ℕ → A.Carrier) (size : ℕ)
    (first2 : ℕ → B.Carrier) (binaryPred binaryOp : Functor) : ℕ → R.Carrier
  /-- `thrust::exclusive_scan_by_key`, from 1.3 on. -/
  exclusiveScanByKey {A B R : IntType} (first1 : ℕ → A.Carrier) (size : ℕ)
    (first2 : ℕ → B.Carrier) (init : R.Carrier) (binaryPred binaryOp : Functor) : ℕ → R.Carrier

/-- **What Thrust documents**: the experimental scans take the values first,
then the keys, then the operator and the predicate; the scans by key take the
keys first, then the values, then the predicate and the operator.

The four operators are associative, so that any bracketing of their scans is
the pass from left to right. From 1.3 on a wrapper hands over the predicate
where the operator belongs; of a scan under a functor that is not associative
Thrust says nothing, and what the wrappers leave there is what the pass from
left to right, Thrust's own on one processor, leaves. -/
structure Library.Documented (t : Library) : Prop where
  inclusiveSegmentedScan {A B R : IntType} (values : ℕ → A.Carrier) (size : ℕ)
    (keys : ℕ → B.Carrier) (binaryOp pred : Functor) : IsInclusiveScanByKey keys values pred
      binaryOp size (t.inclusiveSegmentedScan (R := R) values size keys binaryOp pred)
  exclusiveSegmentedScan {A B R : IntType} (values : ℕ → A.Carrier) (size : ℕ)
    (keys : ℕ → B.Carrier) (init : R.Carrier) (binaryOp pred : Functor) :
      IsExclusiveScanByKey keys values init pred binaryOp size
        (t.exclusiveSegmentedScan values size keys init binaryOp pred)
  inclusiveScanByKey {A B R : IntType} (keys : ℕ → A.Carrier) (size : ℕ)
    (values : ℕ → B.Carrier) (binaryPred binaryOp : Functor) : IsInclusiveScanByKey keys values
      binaryPred binaryOp size
        (t.inclusiveScanByKey (R := R) keys size values binaryPred binaryOp)
  exclusiveScanByKey {A B R : IntType} (keys : ℕ → A.Carrier) (size : ℕ)
    (values : ℕ → B.Carrier) (init : R.Carrier) (binaryPred binaryOp : Functor) :
      IsExclusiveScanByKey keys values init binaryPred binaryOp size
        (t.exclusiveScanByKey keys size values init binaryPred binaryOp)

/-! ## The wrappers -/

/-- `THRUST_MAJOR_VERSION` and `THRUST_MINOR_VERSION` of a build. -/
structure Version where
  major : ℕ
  minor : ℕ
  deriving DecidableEq, Repr

/-- The guard of the preprocessor. -/
def Version.Experimental (v : Version) : Prop := v.major ≤ 1 ∧ v.minor < 3

instance (v : Version) : Decidable v.Experimental := inferInstanceAs (Decidable (_ ∧ _))

/-- The outer comparisons of the wrappers: the functor at the value type that
the code of the operator selects. -/
def scanOperator (Value : IntType) (op : ℕ) : Except String Functor :=
  if op = ScanOp.maximum.code then .ok (ScanOp.maximum.functor Value)
  else if op = ScanOp.minimum.code then .ok (ScanOp.minimum.functor Value)
  else if op = ScanOp.plus.code then .ok (ScanOp.plus.functor Value)
  else if op = ScanOp.multiply.code then .ok (ScanOp.multiply.functor Value)
  else .error "invalid segmented scan operator"

/-- The comparisons within each of them: the functor at the key type that the
code of the predicate selects. -/
def segmentationPredicate (Key : IntType) (pred : ℕ) : Except String Functor :=
  if pred = SegmentationPred.equalTo.code then .ok (SegmentationPred.equalTo.functor Key)
  else if pred = SegmentationPred.notEqualTo.code then .ok (SegmentationPred.notEqualTo.functor Key)
  else if pred = SegmentationPred.greater.code then .ok (SegmentationPred.greater.functor Key)
  else if pred = SegmentationPred.less.code then .ok (SegmentationPred.less.functor Key)
  else if pred = SegmentationPred.greaterEqual.code then
    .ok (SegmentationPred.greaterEqual.functor Key)
  else if pred = SegmentationPred.lessEqual.code then .ok (SegmentationPred.lessEqual.functor Key)
  else .error "invalid segmented scan predicate"

/-- `thrust_exclusive_segmented_scan`: the elements of `result` after the
call, or the text of the exception. The calls of one branch differ in the
functors only. -/
def exclusiveSegmentedScan (t : Library) (v : Version) {Key Value : IntType}
    (key : ℕ → Key.Carrier) (data : ℕ → Value.Carrier) (init : Value.Carrier) (size : ℕ)
    (op pred : ℕ) : Except String (ℕ → Value.Carrier) := do
  let binaryOp ← scanOperator Value op
  let binaryPred ← segmentationPredicate Key pred
  if v.Experimental then
    return t.exclusiveSegmentedScan data size key init binaryOp binaryPred
  else
    return t.exclusiveScanByKey data size key init binaryOp binaryPred

/-- `thrust_inclusive_segmented_scan`. -/
def inclusiveSegmentedScan (t : Library) (v : Version) {Key Value : IntType}
    (key : ℕ → Key.Carrier) (data : ℕ → Value.Carrier) (size : ℕ)
    (op pred : ℕ) : Except String (ℕ → Value.Carrier) := do
  let binaryOp ← scanOperator Value op
  let binaryPred ← segmentationPredicate Key pred
  if v.Experimental then
    return t.inclusiveSegmentedScan data size key binaryOp binaryPred
  else
    return t.inclusiveScanByKey data size key binaryOp binaryPred

@[simp] theorem scanOperator_code (Value : IntType) (op : ScanOp) :
    scanOperator Value op.code = .ok (op.functor Value) := by
  cases op <;> rfl

@[simp] theorem segmentationPredicate_code (Key : IntType) (pred : SegmentationPred) :
    segmentationPredicate Key pred.code = .ok (pred.functor Key) := by
  cases pred <;> rfl

end Thrust

end Supercell
