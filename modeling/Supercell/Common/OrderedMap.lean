import Mathlib.Data.List.Nodup
import Mathlib.Tactic.TypeStar

/-!
# Maps that remember the order of insertion

A finite map as its entries in the order they were put in. Putting a key
again moves it to the end, so the order is that of the last `put` of each
key. The invariant that keys do not repeat is a field, and every
operation re-proves it once and for all.
-/

namespace Supercell

/-- **A finite map with insertion order.** -/
@[ext] structure OrderedMap (κ ν : Type*) where
  entries : List (κ × ν)
  nodup_keys : (entries.map Prod.fst).Nodup

namespace OrderedMap

variable {κ ν : Type*} (m : OrderedMap κ ν)

/-- The map without entries. -/
def empty : OrderedMap κ ν := ⟨[], List.nodup_nil⟩

instance : Inhabited (OrderedMap κ ν) := ⟨empty⟩

/-- The keys, in order. -/
def keys : List κ := m.entries.map Prod.fst

/-- A key of the map has one entry. -/
theorem eq_of_mem_entries {k : κ} {v w : ν} (hv : (k, v) ∈ m.entries) (hw : (k, w) ∈ m.entries) :
    v = w :=
  (Prod.mk.inj (List.inj_on_of_nodup_map m.nodup_keys hv hw rfl)).2

/-- The entries in front of a key's own carry other keys. -/
theorem fst_ne_of_entries_eq {before after : List (κ × ν)} {k : κ} {v : ν}
    (h : m.entries = before ++ (k, v) :: after) :
    (∀ e ∈ before, e.1 ≠ k) ∧ ∀ e ∈ after, e.1 ≠ k := by
  have hnodup := m.nodup_keys
  rw [h, List.map_append, List.map_cons, List.nodup_middle, List.nodup_cons] at hnodup
  have hout : ∀ e ∈ before ++ after, e.1 ≠ k := by
    intro e he hk
    refine hnodup.1 ?_
    rw [← List.map_append]
    exact List.mem_map.2 ⟨e, he, hk⟩
  exact ⟨fun e he => hout e (List.mem_append_left after he),
    fun e he => hout e (List.mem_append_right before he)⟩

@[simp] theorem entries_empty : (empty : OrderedMap κ ν).entries = [] := rfl

@[simp] theorem keys_empty : (empty : OrderedMap κ ν).keys = [] := rfl

variable [DecidableEq κ]

/-- The value of a key. -/
def lookup (k : κ) : Option ν := (m.entries.find? fun e => e.1 = k).map Prod.snd

/-- The map without a key. -/
def remove (k : κ) : OrderedMap κ ν where
  entries := m.entries.filter fun e => e.1 ≠ k
  nodup_keys := m.nodup_keys.sublist (List.filter_sublist.map Prod.fst)

/-- The map with a key put last. -/
def put (k : κ) (v : ν) : OrderedMap κ ν where
  entries := (m.remove k).entries ++ [(k, v)]
  nodup_keys := by
    rw [List.map_append, List.map_singleton, ← List.concat_eq_append, List.nodup_concat]
    refine ⟨?_, (m.remove k).nodup_keys⟩
    simp [remove]

@[simp] theorem lookup_empty (k : κ) : (empty : OrderedMap κ ν).lookup k = none := rfl

@[simp] theorem entries_put (k : κ) (v : ν) :
    (m.put k v).entries = (m.remove k).entries ++ [(k, v)] := rfl

@[simp] theorem mem_entries_remove {k : κ} {e : κ × ν} :
    e ∈ (m.remove k).entries ↔ e ∈ m.entries ∧ e.1 ≠ k := by
  simp [remove]

@[simp] theorem mem_entries_put {k : κ} {v : ν} {e : κ × ν} :
    e ∈ (m.put k v).entries ↔ (e ∈ m.entries ∧ e.1 ≠ k) ∨ e = (k, v) := by
  rw [entries_put, List.mem_append, mem_entries_remove, List.mem_singleton]

@[simp] theorem mem_keys_remove {k k' : κ} : k' ∈ (m.remove k).keys ↔ k' ∈ m.keys ∧ k' ≠ k := by
  simp [keys, remove]

@[simp] theorem mem_keys_put {k k' : κ} {v : ν} :
    k' ∈ (m.put k v).keys ↔ k' ∈ m.keys ∨ k' = k := by
  have hput : (m.put k v).keys = (m.remove k).keys ++ [k] := by simp [keys]
  rw [hput, List.mem_append, mem_keys_remove, List.mem_singleton]
  tauto

theorem lookup_eq_some_iff {k : κ} {v : ν} : m.lookup k = some v ↔ (k, v) ∈ m.entries := by
  rw [lookup, Option.map_eq_some_iff]
  constructor
  · rintro ⟨e, he, rfl⟩
    have hk := List.find?_some he
    simp only [decide_eq_true_eq] at hk
    exact hk ▸ List.mem_of_find?_eq_some he
  · intro hmem
    have hsome : (m.entries.find? fun e => e.1 = k).isSome = true :=
      List.find?_isSome.2 ⟨(k, v), hmem, by simp⟩
    obtain ⟨e, he⟩ := Option.isSome_iff_exists.1 hsome
    have hk := List.find?_some he
    simp only [decide_eq_true_eq] at hk
    subst hk
    exact ⟨e, he, m.eq_of_mem_entries (List.mem_of_find?_eq_some he) hmem⟩

theorem lookup_eq_none_iff {k : κ} : m.lookup k = none ↔ k ∉ m.keys := by
  simp only [lookup, keys, Option.map_eq_none_iff, List.find?_eq_none, decide_eq_true_eq,
    List.mem_map, not_exists, not_and]

theorem mem_keys_iff {k : κ} : k ∈ m.keys ↔ ∃ v, m.lookup k = some v := by
  rw [← Option.isSome_iff_exists, Option.isSome_iff_ne_none, ne_eq, lookup_eq_none_iff, not_not]

/-- Removing a key closes the gap and moves nothing else. -/
theorem entries_remove_of_entries_eq {before after : List (κ × ν)} {k : κ} {v : ν}
    (h : m.entries = before ++ (k, v) :: after) : (m.remove k).entries = before ++ after := by
  obtain ⟨hbefore, hafter⟩ := m.fst_ne_of_entries_eq h
  have hremove : (m.remove k).entries = m.entries.filter fun e => e.1 ≠ k := rfl
  rw [hremove, h, List.filter_append, List.filter_cons_of_neg (by simp),
    List.filter_eq_self.2 fun e he => by simpa using hbefore e he,
    List.filter_eq_self.2 fun e he => by simpa using hafter e he]

/-- An absent key is removed by doing nothing. -/
theorem remove_of_lookup_eq_none {k : κ} (h : m.lookup k = none) : m.remove k = m := by
  ext1
  rw [remove, List.filter_eq_self]
  intro e he
  have hk := (m.lookup_eq_none_iff).1 h
  simp only [ne_eq, decide_not, Bool.not_eq_eq_eq_not, Bool.not_true, decide_eq_false_iff_not]
  rintro rfl
  exact hk (List.mem_map_of_mem he)

@[simp] theorem lookup_put_self (k : κ) (v : ν) : (m.put k v).lookup k = some v := by
  rw [lookup_eq_some_iff]
  simp

theorem lookup_remove_of_ne {k k' : κ} (h : k' ≠ k) : (m.remove k).lookup k' = m.lookup k' := by
  ext v
  simp [lookup_eq_some_iff, h]

@[simp] theorem lookup_remove_self (k : κ) : (m.remove k).lookup k = none := by
  simp [lookup_eq_none_iff]

theorem lookup_put_of_ne {k k' : κ} (h : k' ≠ k) (v : ν) :
    (m.put k v).lookup k' = m.lookup k' := by
  ext w
  simp [lookup_eq_some_iff, h]

end OrderedMap

end Supercell
