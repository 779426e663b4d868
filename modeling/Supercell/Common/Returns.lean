import Mathlib.Data.List.Basic

/-!
# Computations that return

A total-correctness judgement for fallible computations, `Returns x Q`:
`x` returns, and what it returns satisfies `Q`. The rules compose it
along a sequence of steps and across a loop over a list, where the loop
invariant is stated over the part of the list already done.
-/

namespace Supercell

variable {ε α β σ : Type}

/-- **The computation returns, with a result in `Q`.** A failure, of
whatever kind, satisfies no `Returns`. -/
def Returns (x : Except ε α) (Q : α → Prop) : Prop :=
  ∃ a, x = .ok a ∧ Q a

@[simp] theorem ok_bind (a : α) (f : α → Except ε β) : (Except.ok a >>= f) = f a := rfl

@[simp] theorem error_bind (e : ε) (f : α → Except ε β) : (Except.error e >>= f) = .error e := rfl

@[simp] theorem pure_eq_ok (a : α) : (pure a : Except ε α) = .ok a := rfl

/-- Two steps in sequence return exactly when both do. -/
theorem bind_eq_ok_iff {x : Except ε α} {f : α → Except ε β} {b : β} :
    x >>= f = .ok b ↔ ∃ a, x = .ok a ∧ f a = .ok b := by
  cases x with
  | ok a => simp
  | error e => simp

namespace Returns

variable {x : Except ε α} {P Q : α → Prop}

theorem ok {a : α} (h : Q a) : Returns (.ok a : Except ε α) Q := ⟨a, rfl, h⟩

/-- The postcondition weakens. -/
theorem mono (h : Returns x P) (hPQ : ∀ a, P a → Q a) : Returns x Q := by
  obtain ⟨a, ha, hP⟩ := h
  exact ⟨a, ha, hPQ a hP⟩

/-- Two steps in sequence: what the first returns is what the second
starts from. -/
theorem bind {f : α → Except ε β} {R : β → Prop} (h : Returns x P)
    (hf : ∀ a, P a → Returns (f a) R) : Returns (x >>= f) R := by
  obtain ⟨a, rfl, hP⟩ := h
  exact hf a hP

/-- A computation returns one result, so two postconditions of it hold
of the same one. -/
theorem and (h : Returns x P) (h' : Returns x Q) : Returns x fun a => P a ∧ Q a := by
  obtain ⟨a, rfl, hP⟩ := h
  obtain ⟨b, hb, hQ⟩ := h'
  obtain rfl : a = b := Except.ok.inj hb
  exact ⟨a, rfl, hP, hQ⟩

@[simp] theorem ok_iff {a : α} : Returns (.ok a : Except ε α) Q ↔ Q a :=
  ⟨fun ⟨_, hb, hQ⟩ => Except.ok.inj hb ▸ hQ, ok⟩

@[simp] theorem error_iff {e : ε} : ¬ Returns (.error e : Except ε α) Q :=
  fun ⟨_, h, _⟩ => nomatch h

instance [DecidablePred Q] : Decidable (Returns x Q) :=
  match x with
  | .ok _ => decidable_of_iff _ ok_iff.symm
  | .error _ => isFalse error_iff

/-- **The rule for a loop over a list.** The invariant speaks of the part
done so far; each round extends that part by one element of the list. -/
theorem foldlM {f : σ → α → Except ε σ} (Inv : List α → σ → Prop) (xs : List α) {s : σ}
    (hs : Inv [] s)
    (hstep : ∀ done x rest s, xs = done ++ x :: rest → Inv done s →
      Returns (f s x) (Inv (done ++ [x]))) :
    Returns (xs.foldlM f s) (Inv xs) := by
  suffices h : ∀ rest done s, xs = done ++ rest → Inv done s →
      Returns (rest.foldlM f s) (Inv xs) from h xs [] s rfl hs
  intro rest
  induction rest with
  | nil =>
    intro done s hxs hInv
    rw [List.append_nil] at hxs
    exact ok (hxs ▸ hInv)
  | cons x rest ih =>
    intro done s hxs hInv
    rw [List.foldlM_cons]
    exact bind (hstep done x rest s hxs hInv) fun s' hs' =>
      ih (done ++ [x]) s' (by rw [hxs, List.append_assoc, List.singleton_append]) hs'

end Returns

end Supercell
