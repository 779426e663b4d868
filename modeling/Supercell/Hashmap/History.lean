import Supercell.Hashmap.Operations
import Mathlib.Data.List.Induction

/-!
# Histories

Runs of hashmap operations on any number of maps in one scope, against
the machine that says what they are for: a table of ordered maps, and the
value the last successful search found, which the macros keep in
`__value`. Each operation refines a step of the machine, so a run of them
refines a run of it.
-/

namespace Supercell

namespace Hashmap

open CMake CMake.Scope

/-! ## Operations and their runs -/

/-- How a value is handed over: in a variable that is set to it before the
call, or in place. -/
inductive Value
  | held (name : String) (elements : List String)
  | inPlace (word : String)
  deriving DecidableEq, Repr

/-- The elements of a value; nothing in place is the empty list. -/
def Value.elements : Value → List String
  | held _ v => v
  | inPlace w => pieces w

inductive Op
  | put (map key : String) (value : Value)
  | get (map key out : String)
  | remove (map key : String)
  | clear (map : String)
  | dump (map : String)
  deriving DecidableEq, Repr

/-- The code of an operation. -/
def Op.run (s : Scope) : Op → Except Stop Scope
  | put x k (.held y v) => hashmap (s.assign y (joined v)) ["PUT", x, k, y]
  | put x k (.inPlace w) => hashmap s ["PUT", x, k, w]
  | get x k out => hashmap s ["GET", x, k, out]
  | remove x k => hashmap s ["REMOVE", x, k]
  | clear x => hashmap s ["CLEAR", x]
  | dump x => hashmap s ["DUMP", x]

/-- The code of a history. -/
def run (s : Scope) (ops : List Op) : Except Stop Scope := ops.foldlM Op.run s

/-! ## The machine -/

/-- **A table of maps**, and the value the last search that found its key
has found. -/
structure Table where
  maps : String → OrderedMap String (List String)
  recalled : List String

namespace Table

/-- The table before any operation. -/
def initial : Table := ⟨fun _ => .empty, []⟩

/-- A search: it recalls the value it finds. -/
def search (t : Table) (x k : String) : List String := ((t.maps x).lookup k).getD t.recalled

def step (t : Table) : Op → Table
  | .put x k v => ⟨Function.update t.maps x ((t.maps x).put k v.elements), t.search x k⟩
  | .get x k _ => ⟨t.maps, t.search x k⟩
  | .remove x k => ⟨Function.update t.maps x ((t.maps x).remove k), t.search x k⟩
  | .clear x => ⟨Function.update t.maps x .empty, t.recalled⟩
  | .dump _ => t

/-- The table behind a history. -/
def after (ops : List Op) : Table := ops.foldl step initial

theorem after_append (ops : List Op) (op : Op) : after (ops ++ [op]) = (after ops).step op := by
  simp [after]

end Table

/-! ## The value of the last PUT -/

/-- What an operation makes of the value of a key of a map. -/
def Op.effect (x k : String) (found : Option (List String)) : Op → Option (List String)
  | put x' k' v => if x' = x ∧ k' = k then some v.elements else found
  | remove x' k' => if x' = x ∧ k' = k then none else found
  | clear x' => if x' = x then none else found
  | get .. | dump _ => found

/-- **The value a key was last put with**, unless it was removed since. -/
def lastPut (x k : String) (ops : List Op) : Option (List String) :=
  ops.foldl (Op.effect x k) none

theorem lookup_step (t : Table) (x k : String) (op : Op) :
    ((t.step op).maps x).lookup k = op.effect x k ((t.maps x).lookup k) := by
  cases op with
  | put x' k' v =>
    rw [Table.step, Op.effect]
    by_cases hx : x' = x
    · subst hx
      by_cases hk : k' = k
      · subst hk
        simp
      · simp [hk, OrderedMap.lookup_put_of_ne _ (Ne.symm hk)]
    · simp [Function.update_of_ne (Ne.symm hx), hx]
  | remove x' k' =>
    rw [Table.step, Op.effect]
    by_cases hx : x' = x
    · subst hx
      by_cases hk : k' = k
      · subst hk
        simp
      · simp [hk, OrderedMap.lookup_remove_of_ne _ (Ne.symm hk)]
    · simp [Function.update_of_ne (Ne.symm hx), hx]
  | clear x' =>
    rw [Table.step, Op.effect]
    by_cases hx : x' = x
    · subst hx
      simp
    · simp [Function.update_of_ne (Ne.symm hx), hx]
  | get => rfl
  | dump => rfl

/-- The maps of the table are finite maps: a lookup finds the last PUT. -/
theorem lookup_after (x k : String) (ops : List Op) :
    ((Table.after ops).maps x).lookup k = lastPut x k ops := by
  induction ops using List.reverseRecOn with
  | nil => rfl
  | append_singleton ops op ih =>
    rw [Table.after_append, lookup_step, ih]
    simp [lastPut]

/-! ## The refinement -/

/-- The names a caller uses: for its maps, and for the variables that hand
values over and receive them. -/
structure Names where
  maps : List String
  vars : List String
  own : ∀ x ∈ maps ++ vars, Own scratch x
  disjoint : ∀ x ∈ maps, x ∉ vars

/-- What a caller's variables and the macros' own may change. -/
def Names.written (c : Names) : List String := c.maps ++ c.vars ++ scratch

/-- **An operation the caller may ask for**: it uses the caller's names,
its key is a plain word, and its value a value to `set()`. A word in place
is the name of no variable, in the scope or elsewhere. -/
def Op.Fits (c : Names) (s₀ : Scope) : Op → Prop
  | put x k (.held y v) => x ∈ c.maps ∧ Plain k ∧ y ∈ c.vars ∧ IsValue v
  | put x k (.inPlace w) => x ∈ c.maps ∧ Plain k ∧
      (w = "" ∨ VariableName w ∧ w ∉ ["PARENT_SCOPE", "("] ∧ s₀ w = none ∧ w ∉ c.written)
  | get x k out => x ∈ c.maps ∧ Plain k ∧ out ∈ c.vars
  | remove x k => x ∈ c.maps ∧ Plain k
  | clear x => x ∈ c.maps
  | dump x => x ∈ c.maps

instance (c : Names) (s₀ : Scope) : DecidablePred (Op.Fits c s₀)
  | .put _ _ (.held _ _) => inferInstanceAs (Decidable (_ ∧ _))
  | .put _ _ (.inPlace _) => inferInstanceAs (Decidable (_ ∧ _))
  | .get _ _ _ => inferInstanceAs (Decidable (_ ∧ _))
  | .remove _ _ => inferInstanceAs (Decidable (_ ∧ _))
  | .clear _ => inferInstanceAs (Decidable (_ ∈ _))
  | .dump _ => inferInstanceAs (Decidable (_ ∈ _))

/-- **The scope models the table.** -/
structure Models (c : Names) (s₀ : Scope) (t : Table) (s : Scope) : Prop where
  frame : AgreesOff c.written s₀ s
  stores : ∀ x ∈ c.maps, Stores s x (t.maps x)
  recalls : s.HoldsValue "__value" t.recalled

variable {c : Names} {s₀ s : Scope} {t : Table} {ops : List Op} {op : Op}

namespace Names

theorem own_maps (c : Names) {x : String} (hx : x ∈ c.maps) : Own scratch x :=
  c.own x (List.mem_append_left _ hx)

theorem own_vars (c : Names) {x : String} (hx : x ∈ c.vars) : Own scratch x :=
  c.own x (List.mem_append_right _ hx)

theorem not_isRead_written (c : Names) : ∀ x ∈ c.written, ¬ IsRead x := by
  intro x hx
  rcases List.mem_append.1 hx with hx | hx
  · exact (c.own x hx).not_isRead
  · exact not_isRead_of_mem_scratch x hx

theorem cons_subset_written (c : Names) {x : String} {N : List String}
    (hx : x ∈ c.maps ++ c.vars) (hN : ∀ y ∈ N, y ∈ scratch) : ∀ y ∈ x :: N, y ∈ c.written := by
  intro y hy
  rcases List.mem_cons.1 hy with rfl | hy
  · exact List.mem_append_left _ hx
  · exact List.mem_append_right _ (hN y hy)

end Names

theorem Models.quiet (h : Models c s₀ t s) (hs₀ : Quiet s₀) : Quiet s :=
  hs₀.agreesOff h.frame c.not_isRead_written

theorem Recalls.holdsValue {x k : String} {u : Scope} (h : Recalls (t.maps x) k s u)
    (hs : s.HoldsValue "__value" t.recalled) : u.HoldsValue "__value" (t.search x k) := by
  rw [Recalls] at h
  rw [Table.search]
  cases hlookup : (t.maps x).lookup k with
  | some v =>
    rw [hlookup] at h
    exact h
  | none =>
    rw [hlookup] at h
    exact hs.congr h

/-- What an operation that writes one map keeps of the others. -/
theorem Models.update (h : Models c s₀ t s) {x : String} (hx : x ∈ c.maps) {N : List String}
    (hN : ∀ y ∈ N, y ∈ scratch) {u : Scope} (hu : AgreesOff (x :: N) s u)
    {m : OrderedMap String (List String)} (hm : Stores u x m) {r : List String}
    (hr : u.HoldsValue "__value" r) : Models c s₀ ⟨Function.update t.maps x m, r⟩ u where
  frame := h.frame.trans (hu.mono (c.cons_subset_written (List.mem_append_left _ hx) hN))
  stores x' hx' := by
    by_cases hxx : x' = x
    · subst hxx
      simpa using hm
    · simp only [Function.update_of_ne hxx]
      refine (h.stores x' hx').agreesOff hu fun hmem => ?_
      exact (List.mem_cons.1 hmem).elim hxx fun hmem => (c.own_maps hx').not_mem (hN x' hmem)
  recalls := hr

/-- A variable of the caller's that is written is none of the maps. -/
theorem Models.write (h : Models c s₀ t s) {y : String} (hy : y ∈ c.vars) {N : List String}
    (hN : ∀ z ∈ N, z ∈ scratch) {u : Scope} (hu : AgreesOff (y :: N) s u) {r : List String}
    (hr : u.HoldsValue "__value" r) : Models c s₀ ⟨t.maps, r⟩ u where
  frame := h.frame.trans (hu.mono (c.cons_subset_written (List.mem_append_right _ hy) hN))
  stores x hx := by
    refine (h.stores x hx).agreesOff hu fun hmem => ?_
    exact (List.mem_cons.1 hmem).elim (fun hxy => c.disjoint x hx (hxy ▸ hy))
      fun hmem => (c.own_maps hx).not_mem (hN x hmem)
  recalls := hr

/-- The caller sets one of its variables. -/
theorem Models.assign (h : Models c s₀ t s) {y : String} (hy : y ∈ c.vars) (text : String) :
    Models c s₀ t (s.assign y text) := by
  have hassign : AgreesOff [y] s (s.assign y text) := (AgreesOff.refl _ s).assign (by simp) _
  have hvalue : "__value" ∉ [y] := fun hmem =>
    (c.own_vars hy).not_mem (by rw [← List.mem_singleton.1 hmem]; decide)
  exact h.write hy (by simp) hassign (h.recalls.agreesOff hassign hvalue)

/-- **A PUT refines its step**, whatever text the variable is set to, as long
as its elements are a value. -/
theorem Models.put (h : Models c s₀ t s) (hs₀ : Quiet s₀) {x k y : String} (hx : x ∈ c.maps)
    (hk : Plain k) (hy : y ∈ c.vars) (text : String)
    (hvalue : IsValue (elements text)) :
    Returns (hashmap (s.assign y text) ["PUT", x, k, y])
      (Models c s₀ (t.step (.put x k (.held y (elements text))))) := by
  have hset := h.assign hy text
  refine (hashmap_put (hset.quiet hs₀) (c.own_maps hx) (hset.stores x hx) hk (c.own_vars hy)
    (fun hyx => c.disjoint x hx (hyx ▸ hy)) (by simp) (by simp [Scope.list]) hvalue).mono ?_
  rintro u ⟨hu, hrecalls, hframe⟩
  exact hset.update hx putScratch_subset hframe hu (hrecalls.holdsValue hset.recalls)

/-- **One operation refines one step**, and a GET gives what is recalled. -/
theorem Models.step (h : Models c s₀ t s) (hs₀ : Quiet s₀) (op : Op) (hop : op.Fits c s₀) :
    Returns (op.run s) fun u => Models c s₀ (t.step op) u ∧
      ∀ x k out, op = .get x k out → u.HoldsValue out (t.search x k) := by
  have hs := h.quiet hs₀
  -- by the operation: each writes its own map, and its scratch variables
  cases op with
  | put x k value =>
    cases value with
    | held y v =>
      obtain ⟨hx, hk, hy, hv⟩ := hop
      have helements : elements (joined v) = v := elements_joined hv.words
      have hput := h.put hs₀ hx hk hy (joined v) (by rwa [helements])
      rw [helements] at hput
      exact hput.mono fun u hu => ⟨hu, fun _ _ _ hop => nomatch hop⟩
    | inPlace w =>
      obtain ⟨hx, hk, hw⟩ := hop
      have hw' : w = "" ∨ Plain w ∧ w ∉ ["PARENT_SCOPE", "("] ∧ s w = none := by
        refine hw.imp_right ?_
        rintro ⟨hname, hne, hnone, hout⟩
        exact ⟨hname.toPlain, hne, by rw [h.frame w hout, hnone]⟩
      refine (hashmap_put_inPlace hs (c.own_maps hx) (h.stores x hx) hk hw').mono ?_
      rintro u ⟨hu, hrecalls, hframe⟩
      exact ⟨h.update hx (fun _ h => h) hframe hu (hrecalls.holdsValue h.recalls),
        fun _ _ _ hop => nomatch hop⟩
  | get x k out =>
    obtain ⟨hx, hk, hout⟩ := hop
    refine (hashmap_get hs (c.own_maps hx) (h.stores x hx) hk (c.own_vars hout)
      fun _ => ⟨_, h.recalls⟩).mono ?_
    rintro u ⟨hu, -, hrecalls, hframe⟩
    have hfound := hrecalls.holdsValue h.recalls
    refine ⟨h.write hout putScratch_subset hframe hfound, ?_⟩
    rintro x' k' out' hget
    obtain ⟨rfl, rfl, rfl⟩ := Op.get.inj hget
    exact (hu _).2 hfound
  | remove x k =>
    obtain ⟨hx, hk⟩ := hop
    refine (hashmap_remove hs (c.own_maps hx) (h.stores x hx) hk).mono ?_
    rintro u ⟨hu, hrecalls, hframe⟩
    exact ⟨h.update hx putScratch_subset hframe hu (hrecalls.holdsValue h.recalls),
      fun _ _ _ hop => nomatch hop⟩
  | clear x =>
    have hx : x ∈ c.maps := hop
    have hvalue : "__value" ∉ [x] := fun hmem =>
      (c.own_maps hx).not_mem (by rw [← List.mem_singleton.1 hmem]; decide)
    refine (hashmap_clear hs).mono ?_
    rintro u ⟨hu, hframe⟩
    exact ⟨h.update hx (by simp) hframe hu (h.recalls.agreesOff hframe hvalue),
      fun _ _ _ hop => nomatch hop⟩
  | dump x =>
    have hx : x ∈ c.maps := hop
    refine (hashmap_dump hs (c.own_maps hx) (h.stores x hx)).mono ?_
    intro u hframe
    have hsub : ∀ y ∈ dumpScratch, y ∈ scratch := by decide
    refine ⟨⟨h.frame.trans (hframe.mono fun y hy => List.mem_append_right _ (hsub y hy)), ?_, ?_⟩,
      fun _ _ _ hop => nomatch hop⟩
    · exact fun x' hx' => (h.stores x' hx').agreesOff hframe
        fun hmem => (c.own_maps hx').not_mem (hsub x' hmem)
    · exact h.recalls.agreesOff hframe (by decide)

/-- **Where a history starts**: a quiet scope, with every map of the caller's
empty or not defined, and nothing to recall. -/
structure Fresh (c : Names) (s₀ : Scope) : Prop where
  quiet : Quiet s₀
  empty : ∀ x ∈ c.maps, s₀.Holds x []
  nothing : s₀.Holds "__value" []

theorem Fresh.models (h : Fresh c s₀) : Models c s₀ .initial s₀ where
  frame := .refl _ s₀
  stores x hx := .of_holds_nil (h.empty x hx)
  recalls := ⟨h.nothing, by decide⟩

/-- Operations from any modelled state refine the machine's steps. -/
theorem Models.run (h : Models c s₀ t s) (hs₀ : Quiet s₀) (hops : ∀ op ∈ ops, op.Fits c s₀) :
    Returns (Hashmap.run s ops) (Models c s₀ (ops.foldl Table.step t)) := by
  refine Returns.foldlM (fun done s => Models c s₀ (done.foldl Table.step t) s) ops h ?_
  rintro done op rest s rfl hs
  refine (hs.step hs₀ op (hops op (by simp))).mono ?_
  rintro u ⟨hu, -⟩
  rwa [List.foldl_append]

/-- **A history refines the machine's run**, and it returns. -/
theorem run_models (h : Fresh c s₀) (hops : ∀ op ∈ ops, op.Fits c s₀) :
    Returns (run s₀ ops) (Models c s₀ (.after ops)) :=
  h.models.run h.quiet hops

end Hashmap

end Supercell
