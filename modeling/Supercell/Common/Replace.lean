import Mathlib.Data.List.Basic
import Mathlib.Tactic.Ring

/-!
# Replacing a pattern everywhere in a text

A pattern of fixed length, given by what each of its places accepts, and the
replacement of all its occurrences in a text, from left to right and without
overlaps. The replacement changes nothing exactly where it puts back what it
takes out, and an element that only the first place of the pattern accepts is a
border the replacement does not look across.
-/

namespace Supercell

namespace Replace

variable {α : Type*}

/-- The pattern fits at the beginning of a text. -/
def fits : List (α → Bool) → List α → Bool
  | [], _ => true
  | _ :: _, [] => false
  | p :: ps, x :: xs => p x && fits ps xs

variable (ps : List (α → Bool)) (new : List α)

/-- The replacement behind an occurrence, of which `skip` elements are still to
come. -/
def replaceFrom : ℕ → List α → List α
  | _, [] => []
  | skip + 1, _ :: xs => replaceFrom skip xs
  | 0, x :: xs =>
    if fits ps (x :: xs) then new ++ replaceFrom (ps.length - 1) xs else x :: replaceFrom 0 xs

/-- **The text with every occurrence replaced.** -/
def replaceAll (xs : List α) : List α := replaceFrom ps new 0 xs

/-- The occurrences that are replaced, from the same place on. -/
def occurrencesFrom : ℕ → List α → List (List α)
  | _, [] => []
  | skip + 1, _ :: xs => occurrencesFrom skip xs
  | 0, x :: xs =>
    if fits ps (x :: xs) then (x :: xs).take ps.length :: occurrencesFrom (ps.length - 1) xs
    else occurrencesFrom 0 xs

/-- **The occurrences that are replaced.** -/
def occurrences (xs : List α) : List (List α) := occurrencesFrom ps 0 xs

variable {ps new} {xs ys : List α} {x sep : α} {skip : ℕ}

theorem length_le_of_fits (h : fits ps xs = true) : ps.length ≤ xs.length := by
  induction ps generalizing xs with
  | nil => exact Nat.zero_le _
  | cons p ps ih =>
    cases xs with
    | nil => exact nomatch h
    | cons x xs =>
      rw [fits, Bool.and_eq_true] at h
      exact Nat.succ_le_succ (ih h.2)

theorem length_of_mem_occurrencesFrom {m : List α} (h : m ∈ occurrencesFrom ps skip xs) :
    m.length = ps.length := by
  induction xs generalizing skip with
  | nil => exact nomatch h
  | cons x xs ih =>
    cases skip with
    | succ skip => exact ih h
    | zero =>
      rw [occurrencesFrom] at h
      split at h
      · rename_i hfits
        rcases List.mem_cons.1 h with rfl | h
        · rw [List.length_take, Nat.min_eq_left (length_le_of_fits hfits)]
        · exact ih h
      · exact ih h

/-- Every replacement changes the length by as much. -/
theorem length_replaceFrom (hne : ps ≠ []) : (replaceFrom ps new skip xs).length +
    (occurrencesFrom ps skip xs).length * ps.length =
      (xs.length - skip) + (occurrencesFrom ps skip xs).length * new.length := by
  have hpos : 0 < ps.length := List.length_pos_of_ne_nil hne
  induction xs generalizing skip with
  | nil => simp [replaceFrom, occurrencesFrom]
  | cons x xs ih =>
    cases skip with
    | succ skip =>
      rw [replaceFrom, occurrencesFrom, List.length_cons, Nat.add_sub_add_right]
      exact ih
    | zero =>
      rw [replaceFrom, occurrencesFrom]
      split
      · rename_i hfits
        have hle := length_le_of_fits hfits
        have hrest := @ih (ps.length - 1)
        rw [List.length_cons] at hle
        simp only [List.length_append, List.length_cons, Nat.add_mul, Nat.one_mul]
        omega
      · have hrest := @ih 0
        simp only [List.length_cons]
        omega

/-- **The replacement changes nothing** exactly where it puts back what it
takes out. -/
theorem replaceFrom_eq_drop_iff (hne : ps ≠ []) :
    replaceFrom ps new skip xs = xs.drop skip ↔ ∀ m ∈ occurrencesFrom ps skip xs, m = new := by
  have hpos : 0 < ps.length := List.length_pos_of_ne_nil hne
  by_cases hlength : new.length = ps.length
  · induction xs generalizing skip with
    | nil => simp [replaceFrom, occurrencesFrom]
    | cons x xs ih =>
      cases skip with
      | succ skip => exact ih
      | zero =>
        rw [replaceFrom, occurrencesFrom, List.drop_zero]
        split
        · rename_i hfits
          -- the text is the occurrence and what follows it
          have hsplit : x :: xs = (x :: xs).take ps.length ++ xs.drop (ps.length - 1) := by
            obtain ⟨n, hn⟩ := Nat.exists_eq_succ_of_ne_zero (Nat.pos_iff_ne_zero.1 hpos)
            rw [hn]
            simp
          have htake : ((x :: xs).take ps.length).length = new.length := by
            rw [List.length_take, Nat.min_eq_left (length_le_of_fits hfits), hlength]
          rw [List.forall_mem_cons]
          refine Iff.trans ?_ (and_congr_right' ih)
          constructor
          · intro h
            obtain ⟨hnew, hrest⟩ := List.append_inj (h.trans hsplit) htake.symm
            exact ⟨hnew.symm, hrest⟩
          · rintro ⟨hnew, hrest⟩
            rw [hrest]
            conv_rhs => rw [hsplit, hnew]
        · rw [List.cons.injEq, and_iff_right rfl]
          exact ih
  · -- then any replacement changes the length
    have hnone : (∀ m ∈ occurrencesFrom ps skip xs, m = new) ↔ occurrencesFrom ps skip xs = [] := by
      rw [List.eq_nil_iff_forall_not_mem]
      refine forall_congr' fun m => ⟨fun h hm => ?_, fun h hm => absurd hm h⟩
      exact hlength (h hm ▸ length_of_mem_occurrencesFrom hm)
    rw [hnone]
    have hcount := @length_replaceFrom _ _ new xs skip hne
    constructor
    · intro h
      rw [h, List.length_drop, Nat.add_left_cancel_iff] at hcount
      refine List.length_eq_zero_iff.1 ?_
      by_contra hzero
      exact hlength (Nat.eq_of_mul_eq_mul_left (Nat.pos_of_ne_zero hzero) hcount).symm
    · -- without an occurrence every character is kept
      intro h
      clear hcount hnone
      induction xs generalizing skip with
      | nil => simp [replaceFrom]
      | cons x xs ih =>
        cases skip with
        | succ skip => exact ih h
        | zero =>
          rw [occurrencesFrom] at h
          split at h
          · exact nomatch h
          · rename_i hfits
            rw [replaceFrom, if_neg hfits, ih h]
            simp

/-- The form of it for a whole text. -/
theorem replaceAll_eq_self_iff (hne : ps ≠ []) :
    replaceAll ps new xs = xs ↔ ∀ m ∈ occurrences ps xs, m = new := by
  rw [replaceAll, occurrences, ← replaceFrom_eq_drop_iff hne, List.drop_zero]

/-- An occurrence fits the pattern. -/
theorem fits_take {n : ℕ} (h : fits ps xs = true) (hn : ps.length ≤ n) :
    fits ps (xs.take n) = true := by
  induction ps generalizing xs n with
  | nil => rw [fits]
  | cons p ps ih =>
    cases xs with
    | nil => exact nomatch h
    | cons x xs =>
      cases n with
      | zero => exact absurd hn (Nat.not_succ_le_zero _)
      | succ n =>
        rw [fits, Bool.and_eq_true] at h
        rw [List.take_succ_cons, fits, h.1, ih h.2 (Nat.le_of_succ_le_succ hn)]
        rfl

theorem fits_of_mem_occurrencesFrom {m : List α} (h : m ∈ occurrencesFrom ps skip xs) :
    fits ps m = true := by
  induction xs generalizing skip with
  | nil => exact nomatch h
  | cons x xs ih =>
    cases skip with
    | succ skip => exact ih h
    | zero =>
      rw [occurrencesFrom] at h
      split at h
      · rename_i hfits
        rcases List.mem_cons.1 h with rfl | h
        · exact fits_take hfits (Nat.le_refl _)
        · exact ih h
      · exact ih h

/-- A text that is no occurrence is put back only where there is none. -/
theorem forall_occurrences_eq_iff (hnew : new.length ≠ ps.length ∨ fits ps new = false) :
    (∀ m ∈ occurrences ps xs, m = new) ↔ occurrences ps xs = [] := by
  rw [List.eq_nil_iff_forall_not_mem]
  refine forall_congr' fun m => ⟨fun h hm => ?_, fun h hm => absurd hm h⟩
  obtain rfl := h hm
  rcases hnew with hlength | hfits
  · exact hlength (length_of_mem_occurrencesFrom hm)
  · exact nomatch hfits.symm.trans (fits_of_mem_occurrencesFrom hm)

/-- The elements come from the text and the replacement. -/
theorem mem_replaceFrom (h : x ∈ replaceFrom ps new skip xs) : x ∈ new ∨ x ∈ xs := by
  induction xs generalizing skip with
  | nil =>
    rw [replaceFrom] at h
    exact .inr h
  | cons y xs ih =>
    cases skip with
    | succ skip => exact (ih h).imp_right (List.mem_cons_of_mem y)
    | zero =>
      rw [replaceFrom] at h
      split at h
      · rcases List.mem_append.1 h with h | h
        · exact .inl h
        · exact (ih h).imp_right (List.mem_cons_of_mem y)
      · rcases List.mem_cons.1 h with rfl | h
        · exact .inr List.mem_cons_self
        · exact (ih h).imp_right (List.mem_cons_of_mem y)

/-! ## Borders -/

/-- What a border's pattern fits is not seen across it. -/
theorem fits_append_cons {qs : List (α → Bool)} (hsep : ∀ q ∈ qs, q sep = false) :
    fits qs (xs ++ sep :: ys) = fits qs xs := by
  induction xs generalizing qs with
  | nil =>
    cases qs with
    | nil => rfl
    | cons q qs =>
      show (q sep && fits qs ys) = false
      rw [hsep q List.mem_cons_self, Bool.false_and]
  | cons x xs ih =>
    cases qs with
    | nil => rfl
    | cons q qs =>
      rw [List.cons_append, fits, fits, ih fun r hr => hsep r (List.mem_cons_of_mem q hr)]

/-- **The replacement does not look across a border.** -/
theorem replaceFrom_append_cons (hsep : ∀ q ∈ ps.tail, q sep = false) (hskip : skip ≤ xs.length) :
    replaceFrom ps new skip (xs ++ sep :: ys) =
      replaceFrom ps new skip xs ++ replaceFrom ps new 0 (sep :: ys) := by
  induction xs generalizing skip with
  | nil =>
    obtain rfl : skip = 0 := Nat.le_zero.1 hskip
    rfl
  | cons x xs ih =>
    cases skip with
    | succ skip => exact ih (Nat.le_of_succ_le_succ hskip)
    | zero =>
      have hfits : fits ps (x :: (xs ++ sep :: ys)) = fits ps (x :: xs) := by
        cases ps with
        | nil => rfl
        | cons p ps => rw [fits, fits, fits_append_cons (show ∀ q ∈ ps, q sep = false from hsep)]
      rw [List.cons_append, replaceFrom, replaceFrom, hfits]
      split
      · rename_i h
        have hle : ps.length - 1 ≤ xs.length := by
          have := length_le_of_fits h
          rw [List.length_cons] at this
          omega
        rw [ih hle, List.append_assoc]
      · rw [ih (Nat.zero_le _), List.cons_append]

theorem replaceFrom_of_length_le (h : xs.length ≤ skip) : replaceFrom ps new skip xs = [] := by
  induction xs generalizing skip with
  | nil => rw [replaceFrom]
  | cons x xs ih =>
    cases skip with
    | zero => exact absurd h (Nat.not_succ_le_zero _)
    | succ skip => exact ih (Nat.le_of_succ_le_succ h)

/-- **A text that ends in an occurrence**, which begins with a border: the last
occurrence is replaced, and the text in front of it for itself. -/
theorem replaceAll_append_cons (hsep : ∀ q ∈ ps.tail, q sep = false)
    (hfits : fits ps (sep :: ys) = true) (hlength : (sep :: ys).length = ps.length) :
    replaceAll ps new (xs ++ sep :: ys) = replaceAll ps new xs ++ new := by
  rw [replaceAll, replaceFrom_append_cons hsep (Nat.zero_le _)]
  have hlast : replaceFrom ps new 0 (sep :: ys) = new := by
    rw [replaceFrom, if_pos hfits, replaceFrom_of_length_le, List.append_nil]
    rw [← hlength, List.length_cons, Nat.add_sub_cancel]
  rw [hlast]
  rfl

/-- **When only the last occurrence is changed.** -/
theorem replaceAll_append_cons_eq_iff (hsep : ∀ q ∈ ps.tail, q sep = false)
    (hfits : fits ps (sep :: ys) = true) (hlength : (sep :: ys).length = ps.length) :
    replaceAll ps new (xs ++ sep :: ys) = xs ++ new ↔ ∀ m ∈ occurrences ps xs, m = new := by
  have hne : ps ≠ [] := by
    rintro rfl
    exact nomatch hlength
  rw [replaceAll_append_cons hsep hfits hlength, List.append_left_inj, replaceAll_eq_self_iff hne]

end Replace

end Supercell
