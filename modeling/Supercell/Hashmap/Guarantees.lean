import Supercell.Hashmap.History

/-!
# What a history guarantees

The consequences of `run_models` for a caller: the stored lists are those
of ordered maps, a GET answers from the map or from what was recalled
last, and the headers count what is stored.
-/

namespace Supercell

namespace Hashmap

open CMake CMake.Scope

variable {c : Names} {s₀ s : Scope} {t : Table} {ops : List Op} {op : Op}

/-! ## The stored maps -/

/-- An operation leaves the maps it does not name alone. -/
def Op.target : Op → Option String
  | put x _ _ => some x
  | remove x _ => some x
  | clear x => some x
  | get .. | dump _ => none

theorem maps_step_of_ne {x : String} (hx : op.target ≠ some x) : (t.step op).maps x = t.maps x := by
  cases op with
  | put x' k v => exact Function.update_of_ne (fun h => hx (by rw [h]; rfl)) _ _
  | remove x' k => exact Function.update_of_ne (fun h => hx (by rw [h]; rfl)) _ _
  | clear x' => exact Function.update_of_ne (fun h => hx (by rw [h]; rfl)) _ _
  | get => rfl
  | dump => rfl

/-- **What one more operation makes of the stored lists.** -/
theorem Models.lists_step (h : Models c s₀ t s) (hs₀ : Quiet s₀) (op : Op) (hop : op.Fits c s₀) :
    Returns (op.run s) fun u => ∀ x ∈ c.maps,
      u.list x = flatten ((t.step op).maps x).entries ∧ (op.target ≠ some x → u.list x = s.list x) := by
  refine (h.step hs₀ op hop).mono ?_
  rintro u ⟨hu, -⟩ x hx
  refine ⟨(hu.stores x hx).holds.list, fun hne => ?_⟩
  rw [(hu.stores x hx).holds.list, maps_step_of_ne hne, (h.stores x hx).holds.list]

/-- The names of a caller with two maps. -/
def twoMaps : Names where
  maps := ["m", "n"]
  vars := ["v", "out"]
  own := by decide
  disjoint := by decide

theorem fresh_twoMaps : Fresh twoMaps Scope.empty where
  quiet := fun _ _ => rfl
  empty := fun _ _ => .of_eq_none rfl
  nothing := .of_eq_none rfl

/-- A GET behind a history answers with what the search recalls. -/
theorem run_get (h : Fresh c s₀) (hops : ∀ op ∈ ops, op.Fits c s₀) {x k out : String}
    (hx : x ∈ c.maps) (hk : Plain k) (hout : out ∈ c.vars) :
    Returns (run s₀ (ops ++ [.get x k out])) fun s =>
      s.HoldsValue out ((lastPut x k ops).getD (Table.after ops).recalled) := by
  rw [run, List.foldlM_append]
  refine (run_models h hops).bind fun s hs => ?_
  rw [List.foldlM_cons]
  refine (hs.step h.quiet (.get x k out) ⟨hx, hk, hout⟩).bind ?_
  rintro u ⟨-, hu⟩
  rw [List.foldlM_nil, pure_eq_ok, Returns.ok_iff, ← lookup_after]
  exact hu x k out rfl

/-- **What a caller relies on behind a PUT**: the header counts the elements
behind it, the value is read back, the other keys keep theirs, and
whatever is asked of the maps from here on returns. -/
structure Synchronised (c : Names) (s₀ : Scope) (ops : List Op) (x k : String) (v : List String)
    (s : Scope) : Prop where
  header : ∃ stored, stored.length = v.length ∧
    s.list x = flatten (((Table.after ops).maps x).remove k).entries ++
      k :: numeral v.length :: stored
  read : ∀ out ∈ c.vars, Returns ((Op.get x k out).run s) fun u => u.list out = v
  others : ∀ x' ∈ c.maps, ∀ k', (x', k') ≠ (x, k) → Plain k' → ∀ w, lastPut x' k' ops = some w →
    ∀ out ∈ c.vars, Returns ((Op.get x' k' out).run s) fun u => u.list out = w
  later : ∀ later : List Op, (∀ op ∈ later, op.Fits c s₀) → Returns (run s later) fun _ => True

/-- A PUT of a value is synchronised. -/
theorem Models.synchronised (h : Models c s₀ ((Table.after ops).step op) s) (hs₀ : Quiet s₀)
    {x k y : String} {v : List String} (hop : op = .put x k (.held y v)) (hx : x ∈ c.maps)
    (hk : Plain k) : Synchronised c s₀ ops x k v s := by
  have hget : ∀ x' ∈ c.maps, ∀ k', Plain k' → ∀ w,
      (((Table.after ops).step op).maps x').lookup k' = some w → ∀ out ∈ c.vars,
        Returns ((Op.get x' k' out).run s) fun u => u.list out = w := by
    intro x' hx' k' hk' w hw out hout
    refine (h.step hs₀ (.get x' k' out) ⟨hx', hk', hout⟩).mono ?_
    rintro u ⟨-, hu⟩
    rw [(hu x' k' out rfl).toHolds.list, Table.search, hw, Option.getD_some]
  have hlookup : ∀ x' k', (((Table.after ops).step op).maps x').lookup k' =
      op.effect x' k' (lastPut x' k' ops) := fun x' k' => by rw [lookup_step, lookup_after]
  subst hop
  refine ⟨⟨v, rfl, ?_⟩, fun out hout => hget x hx k hk v ?_ out hout, ?_, fun later hlater =>
    (h.run hs₀ hlater).mono fun _ _ => trivial⟩
  · rw [(h.stores x hx).holds.list]
    simp [Table.step, record, Value.elements]
  · rw [hlookup]
    simp [Op.effect, Value.elements]
  · intro x' hx' k' hne hk' w hw out hout
    refine hget x' hx' k' hk' w ?_ out hout
    rw [hlookup, hw, Op.effect, if_neg]
    rintro ⟨rfl, rfl⟩
    exact hne rfl

/-- The list behind a PUT of `a;;b`, and what runs off it: reading the
value, printing the map, and the search of the next PUT. -/
theorem put_empty_element_lists :
    Returns (hashmap (Scope.empty.assign "v" "a;;b") ["PUT", "m", "k", "v"]) fun s =>
      s.list "m" = ["k", "3", "a", "b"] ∧
      (¬ Returns (hashmap s ["GET", "m", "k", "out"]) fun _ => True) ∧
      (¬ Returns (hashmap s ["DUMP", "m"]) fun _ => True) ∧
      ¬ Returns (hashmap s ["PUT", "m", "q", "z"]) fun _ => True := by
  decide +kernel

end Hashmap

end Supercell
