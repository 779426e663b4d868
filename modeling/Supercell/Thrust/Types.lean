import Mathlib.Algebra.Group.Nat.Defs
import Mathlib.Algebra.Ring.Int.Defs
import Mathlib.Tactic.Common

/-!
# The integer types of the device kernels

The kernel wrappers are templates, instantiated for the integer types below.
A number of such a type is carried together with the fact that the type can
hold it, so that an array's elements never leave their range; conversion
between the types reduces modulo two to the width, as the device does.
-/

namespace Supercell

namespace Thrust

/-- The integer types the wrappers are instantiated at. -/
inductive IntType where
  | short
  | unsignedShort
  | int
  | unsignedInt
  | longLong
  | unsignedLongLong
  deriving DecidableEq, Repr

namespace IntType

/-- The number of bits. -/
def width : IntType → ℕ
  | short | unsignedShort => 16
  | int | unsignedInt => 32
  | longLong | unsignedLongLong => 64

def signed : IntType → Bool
  | short | int | longLong => true
  | unsignedShort | unsignedInt | unsignedLongLong => false

/-- Conversion to the type: the residue modulo two to the width, which a
signed type takes around zero. -/
def wrap (T : IntType) (x : ℤ) : ℤ :=
  if T.signed then x.bmod (2 ^ T.width) else x % (2 ^ T.width : ℕ)

theorem wrap_wrap (T : IntType) (x : ℤ) : T.wrap (T.wrap x) = T.wrap x := by
  unfold wrap
  split
  · exact Int.bmod_bmod
  · exact Int.emod_emod_of_dvd x (Int.dvd_refl _)

/-- **A number of the type**: one that conversion to the type leaves alone. -/
def Carrier (T : IntType) : Type := {x : ℤ // T.wrap x = x}

instance (T : IntType) : DecidableEq T.Carrier := inferInstanceAs (DecidableEq {x : ℤ // T.wrap x = x})

/-- The conversion of a number to the type. -/
def ofInt (T : IntType) (x : ℤ) : T.Carrier := ⟨T.wrap x, T.wrap_wrap x⟩

@[simp] theorem ofInt_val (T : IntType) (x : T.Carrier) : T.ofInt x.val = x := Subtype.ext x.property

/-- Small numbers are in the range of every type. -/
theorem val_ofInt {T : IntType} {x : ℤ} (h : 0 ≤ x) (hlt : x < 2 ^ 15) : (T.ofInt x).val = x := by
  have hshort : x < 2 ^ 16 := by omega
  change T.wrap x = x
  cases T <;> simp only [wrap, signed, width, if_true, Bool.false_eq_true, if_false, Int.bmod] <;>
    omega

@[simp] theorem val_ofInt_zero (T : IntType) : (T.ofInt 0).val = 0 :=
  val_ofInt (Int.le_refl 0) (by decide)

@[simp] theorem val_ofInt_one (T : IntType) : (T.ofInt 1).val = 1 :=
  val_ofInt (by decide) (by decide)

@[simp] theorem val_ofInt_two (T : IntType) : (T.ofInt 2).val = 2 :=
  val_ofInt (by decide) (by decide)

end IntType

end Thrust

end Supercell
