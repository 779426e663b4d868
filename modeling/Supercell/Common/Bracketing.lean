import Mathlib.Data.List.Induction

/-!
# Bracketings

The values a list of operands may be combined to when the operator is put
between them and the brackets are left open, as a parallel machine leaves
them. Where the operator is associative there is one such value, the fold
from the left.
-/

namespace Supercell

variable {α : Type*} {op : α → α → α}

/-- **The values of a list of operands**, one for each way to bracket it. -/
inductive Bracketing (op : α → α → α) : List α → α → Prop where
  | single (a : α) : Bracketing op [a] a
  | node {left right : List α} {x y : α} : Bracketing op left x → Bracketing op right y →
      Bracketing op (left ++ right) (op x y)

namespace Bracketing

theorem ne_nil {l : List α} {x : α} (h : Bracketing op l x) : l ≠ [] := by
  induction h with
  | single a => exact List.cons_ne_nil a []
  | node _ _ ihl _ => exact List.append_ne_nil_of_left_ne_nil ihl _

/-- The brackets from the left. -/
theorem foldl (a : α) (l : List α) : Bracketing op (a :: l) (l.foldl op a) := by
  induction l using List.reverseRecOn with
  | nil => exact .single a
  | append_singleton l b ih =>
    rw [List.foldl_append, List.foldl_cons, List.foldl_nil, ← List.cons_append]
    exact .node ih (.single b)

/-- **The brackets do not show** where the operator is associative. -/
theorem eq_foldl [Std.Associative op] {l : List α} {x : α} (h : Bracketing op l x) {a : α}
    {tail : List α} (hl : l = a :: tail) : x = tail.foldl op a := by
  induction h generalizing a tail with
  | single b =>
    obtain ⟨rfl, rfl⟩ := List.cons.inj hl
    rfl
  | @node left right x y hleft hright ihl ihr =>
    obtain ⟨b, left, rfl⟩ := List.exists_cons_of_ne_nil hleft.ne_nil
    obtain ⟨c, right, rfl⟩ := List.exists_cons_of_ne_nil hright.ne_nil
    rw [List.cons_append] at hl
    obtain ⟨rfl, rfl⟩ := List.cons.inj hl
    rw [ihl rfl, ihr rfl, List.foldl_append, List.foldl_cons, List.foldl_assoc]

end Bracketing

end Supercell
