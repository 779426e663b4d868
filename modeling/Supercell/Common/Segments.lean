import Mathlib.Order.Bounds.Basic
import Mathlib.Data.Nat.Init

/-!
# Segmented scans

A sequence divided into segments by a relation between neighbours, and the
running folds that start anew with every segment. `start` is the position
a segment begins at; the scans are folds over the stretch from there, and
the recurrences are what an implementation that passes over the sequence
once computes.
-/

namespace Supercell

namespace Segments

variable {α : Type*} (cont : ℕ → Bool)

/-- **The start of a position's segment**, where `cont j` says that position
`j` continues the segment of its predecessor. -/
def start : ℕ → ℕ
  | 0 => 0
  | i + 1 => if cont (i + 1) then start i else i + 1

theorem start_succ_of_cont {i : ℕ} (h : cont (i + 1) = true) : start cont (i + 1) = start cont i := by
  rw [start, if_pos h]

theorem start_succ_of_not_cont {i : ℕ} (h : cont (i + 1) = false) : start cont (i + 1) = i + 1 := by
  rw [start, if_neg (by simp [h])]

theorem start_le (i : ℕ) : start cont i ≤ i := by
  induction i with
  | zero => exact Nat.le_refl 0
  | succ i ih =>
    cases h : cont (i + 1) with
    | true =>
      rw [start_succ_of_cont cont h]
      exact Nat.le_succ_of_le ih
    | false => rw [start_succ_of_not_cont cont h]

/-- The start is the last position up to here that does not continue a
segment. -/
theorem isGreatest_start (i : ℕ) :
    IsGreatest {j | j ≤ i ∧ (j = 0 ∨ cont j = false)} (start cont i) := by
  induction i with
  | zero => exact ⟨⟨Nat.le_refl 0, .inl rfl⟩, fun j hj => hj.1⟩
  | succ i ih =>
    obtain ⟨⟨hle, hstart⟩, hmax⟩ := ih
    cases h : cont (i + 1) with
    | true =>
      rw [start_succ_of_cont cont h]
      refine ⟨⟨Nat.le_succ_of_le hle, hstart⟩, ?_⟩
      rintro j ⟨hj, hnot⟩
      rcases Nat.lt_or_eq_of_le hj with hlt | rfl
      · exact hmax ⟨Nat.lt_succ_iff.1 hlt, hnot⟩
      · rcases hnot with h0 | hcont
        · exact absurd h0 (Nat.succ_ne_zero i)
        · exact nomatch h.symm.trans hcont
    | false =>
      rw [start_succ_of_not_cont cont h]
      exact ⟨⟨Nat.le_refl _, .inr h⟩, fun j hj => hj.1⟩

variable (op : α → α → α) (init : α) (data : ℕ → α)

/-- **The inclusive scan**: the fold of a segment up to a position. -/
def inclusive (i : ℕ) : α :=
  (List.range' (start cont i + 1) (i - start cont i)).foldl (fun acc j => op acc (data j))
    (data (start cont i))

/-- **The exclusive scan**: the fold of a segment in front of a position,
from an initial value. -/
def exclusive (i : ℕ) : α :=
  (List.range' (start cont i) (i - start cont i)).foldl (fun acc j => op acc (data j)) init

@[simp] theorem inclusive_zero : inclusive cont op data 0 = data 0 := rfl

@[simp] theorem exclusive_zero : exclusive cont op init data 0 = init := rfl

theorem inclusive_succ (i : ℕ) : inclusive cont op data (i + 1) =
    if cont (i + 1) then op (inclusive cont op data i) (data (i + 1)) else data (i + 1) := by
  have hle := start_le cont i
  cases h : cont (i + 1) with
  | true =>
    have hlength : i + 1 - start cont i = (i - start cont i) + 1 := by omega
    have hlast : start cont i + 1 + (i - start cont i) = i + 1 := by omega
    rw [inclusive, start_succ_of_cont cont h, hlength, List.range'_1_concat, List.foldl_append,
      List.foldl_cons, List.foldl_nil, hlast, if_pos rfl, inclusive]
  | false =>
    rw [inclusive, start_succ_of_not_cont cont h, Nat.sub_self, if_neg Bool.false_ne_true]
    rfl

theorem exclusive_succ (i : ℕ) : exclusive cont op init data (i + 1) =
    if cont (i + 1) then op (exclusive cont op init data i) (data i) else init := by
  have hle := start_le cont i
  cases h : cont (i + 1) with
  | true =>
    have hlength : i + 1 - start cont i = (i - start cont i) + 1 := by omega
    have hlast : start cont i + (i - start cont i) = i := by omega
    rw [exclusive, start_succ_of_cont cont h, hlength, List.range'_1_concat, List.foldl_append,
      List.foldl_cons, List.foldl_nil, hlast, if_pos rfl, exclusive]
  | false =>
    rw [exclusive, start_succ_of_not_cont cont h, Nat.sub_self, if_neg Bool.false_ne_true]
    rfl

end Segments

end Supercell
