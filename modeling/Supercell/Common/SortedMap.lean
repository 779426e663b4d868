import Mathlib

/-!
# Maps in the order of their keys

A finite map as its entries, with keys strictly increasing, so that a map
is stored in one way only. An iteration runs over the entries in order;
where the keys arrive in order, inserting appends.
-/

namespace Supercell

/-- **A finite map, in the order of its keys.** -/
@[ext] structure SortedMap (κ ν : Type*) [LT κ] where
  entries : List (κ × ν)
  sorted : entries.Pairwise fun a b => a.1 < b.1

namespace SortedMap

section

variable {κ ν : Type*} [LT κ]

/-- The map without entries. -/
def empty : SortedMap κ ν := ⟨[], .nil⟩

instance : Inhabited (SortedMap κ ν) := ⟨empty⟩

instance [DecidableEq κ] [DecidableEq ν] : DecidableEq (SortedMap κ ν) := fun m m' =>
  decidable_of_iff (m.entries = m'.entries) ⟨SortedMap.ext, congrArg entries⟩

/-- The map with another value for each key. -/
def mapValues {ν' : Type*} (f : ν → ν') (m : SortedMap κ ν) : SortedMap κ ν' where
  entries := m.entries.map fun e => (e.1, f e.2)
  sorted := List.pairwise_map.2 m.sorted

@[simp] theorem entries_empty : (empty : SortedMap κ ν).entries = [] := rfl

@[simp] theorem entries_mapValues {ν' : Type*} (f : ν → ν') (m : SortedMap κ ν) :
    (m.mapValues f).entries = m.entries.map fun e => (e.1, f e.2) := rfl

end

variable {κ ν : Type*} [LinearOrder κ]

/-- The value of a key. -/
def find? (m : SortedMap κ ν) (k : κ) : Option ν :=
  (m.entries.find? fun e => e.1 = k).map Prod.snd

/-- The entries with a key set, at its place in the order. -/
def insertEntry (k : κ) (v : ν) : List (κ × ν) → List (κ × ν)
  | [] => [(k, v)]
  | e :: entries =>
    if k < e.1 then (k, v) :: e :: entries
    else if k = e.1 then (k, v) :: entries
    else e :: insertEntry k v entries

theorem mem_insertEntry {k : κ} {v : ν} {entries : List (κ × ν)} {e : κ × ν}
    (h : e ∈ insertEntry k v entries) : e = (k, v) ∨ e ∈ entries := by
  induction entries with
  | nil => exact .inl (List.mem_singleton.1 h)
  | cons e' entries ih =>
    rw [insertEntry] at h
    split_ifs at h with hlt heq
    · exact List.mem_cons.1 h
    · exact (List.mem_cons.1 h).imp_right (List.mem_cons_of_mem _)
    · rcases List.mem_cons.1 h with rfl | h
      · exact .inr List.mem_cons_self
      · exact (ih h).imp_right (List.mem_cons_of_mem _)

theorem pairwise_insertEntry {k : κ} {v : ν} {entries : List (κ × ν)}
    (h : entries.Pairwise fun a b => a.1 < b.1) :
    (insertEntry k v entries).Pairwise fun a b => a.1 < b.1 := by
  induction entries with
  | nil => exact List.pairwise_singleton _ _
  | cons e entries ih =>
    obtain ⟨hfirst, hrest⟩ := List.pairwise_cons.1 h
    rw [insertEntry]
    split_ifs with hlt heq
    · refine List.pairwise_cons.2 ⟨fun e' he' => ?_, h⟩
      rcases List.mem_cons.1 he' with rfl | he'
      · exact hlt
      · exact hlt.trans (hfirst e' he')
    · exact List.pairwise_cons.2 ⟨fun e' he' => heq ▸ hfirst e' he', hrest⟩
    · have hgt : e.1 < k := lt_of_le_of_ne (not_lt.1 hlt) (Ne.symm heq)
      refine List.pairwise_cons.2 ⟨fun e' he' => ?_, ih hrest⟩
      rcases mem_insertEntry he' with rfl | he'
      · exact hgt
      · exact hfirst e' he'

/-- The map with a key set. -/
def insert (m : SortedMap κ ν) (k : κ) (v : ν) : SortedMap κ ν where
  entries := insertEntry k v m.entries
  sorted := pairwise_insertEntry m.sorted

/-! ## A key behind all others -/

variable {m : SortedMap κ ν} {k : κ}

theorem entries_insert_of_forall_lt (h : ∀ e ∈ m.entries, e.1 < k) (v : ν) :
    (m.insert k v).entries = m.entries ++ [(k, v)] := by
  have hentries : ∀ entries : List (κ × ν), (∀ e ∈ entries, e.1 < k) →
      insertEntry k v entries = entries ++ [(k, v)] := by
    intro entries hlt
    induction entries with
    | nil => rfl
    | cons e entries ih =>
      have he := hlt e List.mem_cons_self
      rw [insertEntry, if_neg (not_lt_of_gt he), if_neg (ne_of_gt he),
        ih fun e' he' => hlt e' (List.mem_cons_of_mem _ he'), List.cons_append]
  exact hentries m.entries h

theorem find?_of_forall_lt (h : ∀ e ∈ m.entries, e.1 < k) : m.find? k = none := by
  rw [find?, List.find?_eq_none.2, Option.map_none]
  intro e he
  simpa using ne_of_lt (h e he)

end SortedMap

end Supercell
