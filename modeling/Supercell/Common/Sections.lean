import Mathlib.Data.List.Nodup
import Mathlib.Data.List.Induction
import Mathlib.Tactic.TypeStar

/-!
# Sequences divided by keywords

A sequence in which some elements are keywords, divided into sections: an
element belongs to the nearest keyword before it, or to a default in front
of the first. The definitions speak of positions; the lemmas say what one
more element at the end does, which is how a reader of the sequence meets
it, and that the sections together are the sequence without its keywords.
-/

namespace Supercell

namespace Sections

variable {α : Type*} [DecidableEq α] (keywords : List α) (default : α)

/-- The keyword in force behind a sequence: the last one in it, or the
default. -/
def inForce (xs : List α) : α := (xs.filter (· ∈ keywords)).getLast?.getD default

/-- **The section of a keyword**: the elements at the positions that hold no
keyword and before which the keyword is in force. -/
def part (xs : List α) (c : α) : List α :=
  (xs.zipIdx.filter fun p => p.1 ∉ keywords ∧ inForce keywords default (xs.take p.2) = c).map
    Prod.fst

variable {keywords default} {xs : List α} {x c : α}

@[simp] theorem inForce_nil : inForce keywords default [] = default := rfl

theorem inForce_append_of_mem (hx : x ∈ keywords) : inForce keywords default (xs ++ [x]) = x := by
  simp [inForce, List.filter_append, hx]

theorem inForce_append_of_notMem (hx : x ∉ keywords) :
    inForce keywords default (xs ++ [x]) = inForce keywords default xs := by
  simp [inForce, List.filter_append, hx]

/-- What is in force is a keyword or the default. -/
theorem inForce_mem : inForce keywords default xs ∈ default :: keywords := by
  rw [inForce]
  cases hlast : (xs.filter (· ∈ keywords)).getLast? with
  | none => simp
  | some y =>
    have hy := (List.mem_filter.1 (List.mem_of_getLast? hlast)).2
    simp only [decide_eq_true_eq] at hy
    simp [hy]

@[simp] theorem part_nil : part keywords default [] c = [] := rfl

/-- **One more element** joins the section in force unless it is a keyword. -/
theorem part_append (xs : List α) (x c : α) : part keywords default (xs ++ [x]) c =
    part keywords default xs c ++
      if x ∉ keywords ∧ inForce keywords default xs = c then [x] else [] := by
  have htake : ∀ p ∈ xs.zipIdx, (xs ++ [x]).take p.2 = xs.take p.2 := by
    intro p hp
    exact List.take_append_of_le_length (Nat.le_of_lt (List.snd_lt_of_mem_zipIdx hp))
  have hfilter : (xs.zipIdx.filter fun p => p.1 ∉ keywords ∧
      inForce keywords default ((xs ++ [x]).take p.2) = c) =
      xs.zipIdx.filter fun p => p.1 ∉ keywords ∧ inForce keywords default (xs.take p.2) = c :=
    List.filter_congr fun p hp => by rw [htake p hp]
  rw [part, List.zipIdx_append, List.filter_append, List.map_append, hfilter, part]
  congr 1
  by_cases h : x ∉ keywords ∧ inForce keywords default xs = c <;> simp [h]

theorem part_append_self (hx : x ∉ keywords) :
    part keywords default (xs ++ [x]) (inForce keywords default xs) =
      part keywords default xs (inForce keywords default xs) ++ [x] := by
  rw [part_append, if_pos ⟨hx, rfl⟩]

theorem part_append_of_mem (hx : x ∈ keywords) :
    part keywords default (xs ++ [x]) c = part keywords default xs c := by
  rw [part_append, if_neg (fun h => h.1 hx), List.append_nil]

theorem part_append_of_ne (hc : inForce keywords default xs ≠ c) :
    part keywords default (xs ++ [x]) c = part keywords default xs c := by
  rw [part_append, if_neg (fun h => hc h.2), List.append_nil]

/-- A keyword with its elements at the end: they are all its own. -/
theorem part_append_cons {k : α} (hk : k ∈ keywords) (ys : List α) (hys : ∀ y ∈ ys, y ∉ keywords) :
    inForce keywords default (xs ++ k :: ys) = k ∧ ∀ c, part keywords default (xs ++ k :: ys) c =
      part keywords default xs c ++ if k = c then ys else [] := by
  induction ys using List.reverseRecOn with
  | nil =>
    refine ⟨inForce_append_of_mem hk, fun c => ?_⟩
    rw [part_append_of_mem hk, ite_self, List.append_nil]
  | append_singleton ys y ih =>
    have hy := hys y (by simp)
    obtain ⟨hforce, hpart⟩ := ih fun z hz => hys z (List.mem_append_left _ hz)
    have hassoc : xs ++ k :: (ys ++ [y]) = xs ++ k :: ys ++ [y] := by simp
    rw [hassoc]
    refine ⟨by rw [inForce_append_of_notMem hy, hforce], fun c => ?_⟩
    rw [part_append, hpart, hforce]
    by_cases hkc : k = c <;> simp [hkc, hy]

/-- A section keeps the order and the multiplicities of the sequence. -/
theorem sublist_part (xs : List α) (c : α) : (part keywords default xs c).Sublist xs := by
  have := (List.filter_sublist (l := xs.zipIdx) (p := fun p => p.1 ∉ keywords ∧
    inForce keywords default (xs.take p.2) = c)).map Prod.fst
  rwa [List.zipIdx_map_fst] at this

theorem notMem_keywords_of_mem_part (h : x ∈ part keywords default xs c) : x ∉ keywords := by
  obtain ⟨p, hp, rfl⟩ := List.mem_map.1 h
  have := (List.mem_filter.1 hp).2
  simp only [decide_eq_true_eq] at this
  exact this.1

/-- Something more at the end of one of the parts of a partition is
something more at the end of the whole. -/
theorem perm_flatMap_append {cs : List α} (hcs : cs.Nodup) (hc : c ∈ cs) (f : α → List α) :
    (cs.flatMap fun d => f d ++ if c = d then [x] else []).Perm (cs.flatMap f ++ [x]) := by
  induction cs with
  | nil => exact absurd hc List.not_mem_nil
  | cons d cs ih =>
    obtain ⟨hd, hcs⟩ := List.nodup_cons.1 hcs
    rw [List.flatMap_cons, List.flatMap_cons]
    by_cases hcd : c = d
    · subst hcd
      have hrest : (cs.flatMap fun e => f e ++ if c = e then [x] else []) = cs.flatMap f := by
        refine List.flatMap_congr fun e he => ?_
        rw [if_neg (fun hce : c = e => hd (hce ▸ he)), List.append_nil]
      rw [if_pos rfl, hrest, List.append_assoc, List.append_assoc]
      exact List.perm_append_comm.append_left (f c)
    · rw [if_neg hcd, List.append_nil, List.append_assoc]
      exact (ih hcs ((List.mem_cons.1 hc).resolve_left hcd)).append_left (f d)

/-- **The sections partition the sequence**: together they are its elements
other than the keywords, each as often as it occurs. -/
theorem perm_flatMap_part (h : (default :: keywords).Nodup) (xs : List α) :
    ((default :: keywords).flatMap (part keywords default xs)).Perm
      (xs.filter (· ∉ keywords)) := by
  induction xs using List.reverseRecOn with
  | nil =>
    have hnil : (default :: keywords).flatMap (part keywords default []) = [] :=
      List.flatMap_eq_nil_iff.2 fun c _ => part_nil
    rw [hnil]
    rfl
  | append_singleton xs x ih =>
    rw [List.filter_append]
    by_cases hx : x ∈ keywords
    · have hsame : (default :: keywords).flatMap (part keywords default (xs ++ [x])) =
          (default :: keywords).flatMap (part keywords default xs) :=
        List.flatMap_congr fun c _ => part_append_of_mem hx
      rw [hsame]
      simpa [hx] using ih
    · have hmore : (default :: keywords).flatMap (part keywords default (xs ++ [x])) =
          (default :: keywords).flatMap fun c => part keywords default xs c ++
            if inForce keywords default xs = c then [x] else [] :=
        List.flatMap_congr fun c _ => by rw [part_append]; simp [hx]
      rw [hmore]
      have hx' : [x].filter (· ∉ keywords) = [x] := by simp [hx]
      rw [hx']
      exact (perm_flatMap_append h inForce_mem _).trans (ih.append_right [x])

end Sections

end Supercell
