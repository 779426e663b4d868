import Supercell.Hashmap.Guarantees

/-!
# Transcripts

What a history comes to: the PUTs whose entries no later operation has
ended. The list that stores a map and the transcript of its history
determine each other, a dump reads the transcript back, and a history of
all maps may be replaced by their transcripts, put again one after the
other.
-/

namespace Supercell

namespace Hashmap

open CMake CMake.Scope

variable {c : Names} {s₀ s : Scope} {t : Table} {x : String} {ops ops' : List Op} {op : Op}

/-! ## The entries that are left -/

/-- The entry an operation adds to a map. -/
def Op.entry (x : String) : Op → List (String × List String)
  | put x' k v => if x' = x then [(k, v.elements)] else []
  | get .. | remove .. | clear _ | dump _ => []

/-- The operation ends the entry of a key: it puts the key again, or removes
it, or all keys of the map. -/
def Op.ends (x k : String) : Op → Bool
  | put x' k' _ => x' = x && k' = k
  | remove x' k' => x' = x && k' = k
  | clear x' => x' = x
  | get .. | dump _ => false

/-- Whether no operation of a history ends the entry. -/
def outlives (x : String) (ops : List Op) (e : String × List String) : Bool :=
  ops.all fun op => !op.ends x e.1

/-- **The transcript of a map**: the entries of a history that outlive what
comes after them. -/
def transcript (x : String) : List Op → List (String × List String)
  | [] => []
  | op :: ops => (op.entry x).filter (outlives x ops) ++ transcript x ops

theorem transcript_append (x : String) (ops ops' : List Op) :
    transcript x (ops ++ ops') =
      (transcript x ops).filter (outlives x ops') ++ transcript x ops' := by
  induction ops with
  | nil => rfl
  | cons op ops ih =>
    have houtlives : outlives x (ops ++ ops') = fun e => outlives x ops e && outlives x ops' e := by
      funext e
      exact List.all_append
    rw [List.cons_append, transcript, transcript, ih, houtlives, ← List.append_assoc,
      List.filter_append, List.filter_filter]
    simp only [Bool.and_comm]

/-- An operation on another map neither adds nor ends entries of this one. -/
theorem foreign_of_target_ne (hx : op.target ≠ some x) :
    op.entry x = [] ∧ ∀ k, op.ends x k = false := by
  cases op with
  | put x' k v | remove x' k | clear x' =>
    have hne : x' ≠ x := fun heq => hx (heq ▸ rfl)
    simp [Op.entry, Op.ends, hne]
  | get | dump => exact ⟨rfl, fun _ => rfl⟩

theorem filter_outlives_foreign (entries : List (String × List String))
    (h : ∀ op ∈ ops, op.target ≠ some x) : entries.filter (outlives x ops) = entries := by
  rw [List.filter_eq_self]
  intro e _
  rw [outlives, List.all_eq_true]
  intro op hop
  rw [(foreign_of_target_ne (h op hop)).2]
  rfl

/-- One more operation ends entries, and adds its own. -/
theorem entries_step (t : Table) (x : String) (op : Op) :
    ((t.step op).maps x).entries =
      (t.maps x).entries.filter (outlives x [op]) ++ op.entry x := by
  by_cases hx : op.target = some x
  · cases op with
    | put x' k v =>
      obtain rfl := Option.some.inj hx
      have houtlives : outlives x' [Op.put x' k v] = fun e => decide (e.1 ≠ k) := by
        funext e
        simp [outlives, Op.ends, eq_comm]
      simp [Table.step, Op.entry, OrderedMap.remove, houtlives]
    | remove x' k =>
      obtain rfl := Option.some.inj hx
      have houtlives : outlives x' [Op.remove x' k] = fun e => decide (e.1 ≠ k) := by
        funext e
        simp [outlives, Op.ends, eq_comm]
      simp [Table.step, Op.entry, OrderedMap.remove, houtlives]
    | clear x' =>
      obtain rfl := Option.some.inj hx
      simp [Table.step, Op.entry, outlives, Op.ends]
    | get | dump => exact absurd hx (Option.some_ne_none x).symm
  · rw [maps_step_of_ne hx, (foreign_of_target_ne hx).1, List.append_nil,
      filter_outlives_foreign _ fun op' hop' => List.mem_singleton.1 hop' ▸ hx]

/-- **The entries of a map are the transcript of its history.** -/
theorem entries_after (x : String) (ops : List Op) :
    ((Table.after ops).maps x).entries = transcript x ops := by
  induction ops using List.reverseRecOn with
  | nil => rfl
  | append_singleton ops op ih =>
    have hlast : transcript x [op] = op.entry x := by
      rw [transcript, transcript, List.append_nil]
      exact List.filter_eq_self.2 fun _ _ => rfl
    rw [Table.after_append, entries_step, ih, transcript_append, hlast]

theorem nodup_transcript (x : String) (ops : List Op) :
    ((transcript x ops).map Prod.fst).Nodup := by
  rw [← entries_after]
  exact ((Table.after ops).maps x).nodup_keys

/-! ## Putting a transcript again -/

/-- The PUTs of entries, each value handed over in one and the same variable. -/
def putAll (y x : String) (entries : List (String × List String)) : List Op :=
  entries.map fun e => .put x e.1 (.held y e.2)

/-- **The compacted history**: the transcripts of the maps, one after the
other. -/
def compacted (y : String) (xs : List String) (ops : List Op) : List Op :=
  xs.flatMap fun x => putAll y x (transcript x ops)

theorem transcript_putAll (y x : String) {entries : List (String × List String)}
    (h : (entries.map Prod.fst).Nodup) : transcript x (putAll y x entries) = entries := by
  induction entries with
  | nil => rfl
  | cons e entries ih =>
    rw [List.map_cons, List.nodup_cons] at h
    have hentry : (Op.put x e.1 (.held y e.2)).entry x = [e] := if_pos rfl
    -- no entry behind it has its key
    have houtlives : outlives x (putAll y x entries) e = true := by
      rw [outlives, putAll, List.all_map, List.all_eq_true]
      intro e' he'
      have hne : e'.1 ≠ e.1 := fun heq => h.1 (heq ▸ List.mem_map_of_mem he')
      simp [Op.ends, hne]
    rw [putAll, List.map_cons, ← putAll, transcript, hentry, ih h.2,
      List.filter_eq_self.2 fun e' he' => (List.mem_singleton.1 he') ▸ houtlives,
      List.singleton_append]

/-- Operations on other maps leave a transcript alone. -/
theorem transcript_append_foreign (h : ∀ op ∈ ops', op.target ≠ some x) :
    transcript x (ops ++ ops') = transcript x ops := by
  have hnil : ∀ rest : List Op, (∀ op ∈ rest, op.target ≠ some x) → transcript x rest = [] := by
    intro rest hrest
    induction rest with
    | nil => rfl
    | cons op rest ih =>
      rw [transcript, (foreign_of_target_ne (hrest op List.mem_cons_self)).1, List.filter_nil,
        List.nil_append]
      exact ih fun op hop => hrest op (List.mem_cons_of_mem _ hop)
  rw [transcript_append, hnil ops' h, List.append_nil, filter_outlives_foreign _ h]

theorem target_putAll {y x' : String} {entries : List (String × List String)}
    (h : op ∈ putAll y x' entries) : op.target = some x' := by
  obtain ⟨e, -, rfl⟩ := List.mem_map.1 h
  rfl

/-- **Compacting keeps the transcripts.** -/
theorem transcript_compacted {y : String} {xs : List String} (hxs : xs.Nodup) (hx : x ∈ xs) :
    transcript x (compacted y xs ops) = transcript x ops := by
  obtain ⟨before, after, rfl⟩ := List.append_of_mem hx
  rw [List.nodup_middle, List.nodup_cons] at hxs
  have hforeign : ∀ zs : List String, x ∉ zs →
      ∀ op ∈ compacted y zs ops, op.target ≠ some x := by
    intro zs hzs op hop
    obtain ⟨z, hz, hop⟩ := List.mem_flatMap.1 hop
    rw [target_putAll hop]
    exact fun heq => hzs (Option.some.inj heq ▸ hz)
  have hbefore : x ∉ before := fun hmem => hxs.1 (List.mem_append_left _ hmem)
  have hafter : x ∉ after := fun hmem => hxs.1 (List.mem_append_right _ hmem)
  have hnone : transcript x (compacted y before ops) = [] :=
    @transcript_append_foreign x [] _ (hforeign before hbefore)
  have hsplit : compacted y (before ++ x :: after) ops =
      compacted y before ops ++ putAll y x (transcript x ops) ++ compacted y after ops := by
    simp only [compacted, List.flatMap_append, List.flatMap_cons, List.append_assoc]
  rw [hsplit, transcript_append_foreign (hforeign after hafter), transcript_append, hnone,
    transcript_putAll y x (nodup_transcript x ops), List.filter_nil, List.nil_append]

/-! ## The stored list -/

/-- What a history leaves in a variable is the transcript, as records. -/
theorem run_holds_transcript (h : Fresh c s₀) (hops : ∀ op ∈ ops, op.Fits c s₀) :
    Returns (run s₀ ops) fun s => Quiet s ∧ ∀ x ∈ c.maps, ∃ m, Stores s x m ∧
      m.entries = transcript x ops := by
  refine (run_models h hops).mono fun s hs => ⟨hs.quiet h.quiet, fun x hx => ?_⟩
  exact ⟨_, hs.stores x hx, entries_after x ops⟩

/-- An entry of a transcript may be put again. -/
theorem fits_of_mem_putAll (h : Fresh c s₀) (hops : ∀ op ∈ ops, op.Fits c s₀)
    (hx : x ∈ c.maps) {y : String} (hy : y ∈ c.vars) (hop : op ∈ putAll y x (transcript x ops)) :
    op.Fits c s₀ := by
  obtain ⟨e, he, rfl⟩ := List.mem_map.1 hop
  obtain ⟨s, -, -, hstores⟩ := run_holds_transcript h hops
  obtain ⟨m, hm, hentries⟩ := hstores x hx
  rw [← hentries] at he
  refine ⟨hx, hm.plain_keys e he, hy, fun w hw => hm.holds.words w ?_, hm.settable e he⟩
  rw [flatten, List.mem_flatMap]
  exact ⟨e, he, List.mem_cons_of_mem _ (List.mem_cons_of_mem _ hw)⟩

/-- A history in which a key is put twice, another removed and the second map
cleared. -/
def overwriting : List Op :=
  [.put "m" "a" (.held "v" ["1", "b"]), .put "n" "a" (.inPlace "w"), .put "m" "b" (.inPlace ""),
    .put "m" "c" (.inPlace "z"), .clear "n", .put "m" "a" (.held "v" ["2"]), .remove "m" "b"]

example : transcript "m" overwriting = [("c", ["z"]), ("a", ["2"])] := by decide

end Hashmap

end Supercell
