import Supercell.Hashmap.Macros
import Supercell.Hashmap.Records

/-!
# Searching a map

The loops that walk over a map, proved to return: a cursor that stands at
a record reads that record and moves to the next one, so the search comes
to the key's record or to the end of the list. Whatever a value's
elements look like, the cursor never stands inside a value.
-/

namespace Supercell

namespace Hashmap

open CMake CMake.Scope

variable {s : Scope} {x k : String} {v : List String} {m : OrderedMap String (List String)}

/-- An element behind the cursor's header. -/
theorem getElem?_record {before after : List String} {i : ℕ} {w : String} (h : v[i]? = some w) :
    (before ++ record (k, v) ++ after)[before.length + 2 + i]? = some w := by
  have hi : i < v.length := (List.getElem?_eq_some_iff.1 h).1
  rw [List.append_assoc, List.getElem?_append_right (by omega), record]
  have hoff : before.length + 2 + i - before.length = i + 2 := by omega
  simp only [hoff, List.cons_append, List.getElem?_cons_succ]
  rw [List.getElem?_append_left hi, h]

/-- The key and the length a cursor at a record reads. -/
theorem readHeader_returns (hx : x ∉ nextScratch) {before after : List String}
    (h : s.Holds x (before ++ record (k, v) ++ after)) :
    Returns (readHeader s x before.length "__current_key" "__current_length")
      fun t => t "__current_key" = some k ∧ t "__current_length" = some (numeral v.length) ∧
        t "__header_index" = some (numeral (before.length + 1)) ∧ AgreesOff nextScratch s t := by
  have hkey : (before ++ record (k, v) ++ after)[before.length]? = some k := by simp [record]
  have hheader : (before ++ record (k, v) ++ after)[before.length + 1]? =
      some (numeral v.length) := by
    simp [record]
  have hk : Word k := h.words k (by simp [record])
  unfold readHeader
  have hframe : AgreesOff nextScratch s ((s.assign "__key_index" (numeral before.length)).assign
      "__header_index" (numeral (before.length + 1))) :=
    ((AgreesOff.refl nextScratch s).assign (by decide) _).assign (by decide) _
  generalize hs₁ : (s.assign "__key_index" (numeral before.length)).assign "__header_index"
    (numeral (before.length + 1)) = s₁ at hframe
  have hkeyIndex : s₁.value "__key_index" = numeral before.length := by
    rw [← hs₁]
    simp [value, assign_apply]
  have hheaderIndex : s₁ "__header_index" = some (numeral ((before.length + 1 : ℕ))) := by
    rw [← hs₁]
    simp
  simp only [add_zero, hs₁]
  rw [hkeyIndex, (h.agreesOff hframe hx).listGet hkey, ok_bind]
  replace hframe := hframe.assign (x := "__current_key") (by decide) k
  rw [value_assign_of_ne s₁ (by decide), value_of_eq_some hheaderIndex,
    (h.agreesOff hframe hx).listGet hheader, ok_bind]
  replace hframe := hframe.assign (x := "__current_length") (by decide) (numeral v.length)
  rw [expand_of_value_eq (by simp [value, assign_apply]) hk, set_self (by simp [assign_apply]),
    ok_bind, expand_of_value_eq (by simp [value]) (plain_numeral v.length).toWord,
    set_self (by simp), Returns.ok_iff]
  exact ⟨by simp [assign_apply], by simp, by simpa [assign_apply] using hheaderIndex, hframe⟩

/-- The loop that collects a value collects the value. -/
theorem readValue_returns (hx : x ∉ nextScratch) {before after : List String}
    (h : s.Holds x (before ++ record (k, v) ++ after)) (hvalue : s.Holds "__current_value" [])
    (hstart : s "__start_index" = some (numeral (before.length + 2)))
    (hstop : s "__end_index" = some (numeral (before.length + 2 + v.length - 1)))
    (hv : 0 < v.length) :
    Returns (readValue s x "__current_value") fun t => t.Holds "__current_value" v ∧
      AgreesOff ["__current_value", "__loop_index", "__temp"] s t := by
  have hwords : ∀ w ∈ v, Word w := fun w hw => h.words w (by simp [record, hw])
  have hx' : x ∉ ["__current_value", "__loop_index", "__temp"] :=
    fun hmem => hx ((by decide : ∀ y ∈ ["__current_value", "__loop_index", "__temp"],
      y ∈ nextScratch) x hmem)
  rw [readValue, value_of_eq_some hstart, value_of_eq_some hstop]
  simp only [mathOperand_numeral, ok_bind, range_eq rfl hv]
  -- the elements collected so far are those the loop has passed
  refine foreach_returns
    (fun done t => t.Holds "__current_value" (v.take done.length) ∧
      AgreesOff ["__current_value", "__loop_index", "__temp"] s t)
    ⟨by simpa using hvalue, .refl _ s⟩ ?_ ?_
  · rintro done e rest t hitems ⟨hcollected, hframe⟩
    obtain ⟨rfl, hlt⟩ := eq_numeral_of_range hitems
    have hw : v[done.length]? = some v[done.length] := List.getElem?_eq_getElem hlt
    have hword := hwords _ (List.getElem_mem hlt)
    have hindex : numeral (before.length + 2 + done.length) =
        numeral ((before.length + 2 + done.length : ℕ)) := by
      push_cast
      rfl
    replace hframe := (hframe.assign (x := "__loop_index") (by decide)
      (numeral (before.length + 2 + done.length))).assign (x := "__temp") (by decide) ""
    replace hcollected := hcollected.congr
      (t := ((t.assign "__loop_index" (numeral (before.length + 2 + done.length))).assign
        "__temp" "").assign "__temp" v[done.length]) (by simp [assign_apply])
    rw [value_assign_of_ne _ (by decide), value_assign_self, hindex]
    rw [hindex] at hframe hcollected
    rw [(h.agreesOff hframe hx').listGet (getElem?_record hw), ok_bind,
      expand_of_value_eq (value_assign_self ..) hword, pure_eq_ok, Returns.ok_iff,
      List.length_append, List.length_singleton, List.take_add_one, hw]
    exact ⟨hcollected.listAppend _ (by simpa using hword),
      (hframe.assign (by decide) _).listAppend (by decide) _⟩
  · rintro t ⟨hcollected, hframe⟩
    rw [List.length_map, List.length_range, List.take_length] at hcollected
    exact ⟨hcollected.congr (assign_of_ne t (by decide) _), hframe.assign (by decide) _⟩

/-- **A cursor at a record reads it** and reports where the next record
starts. -/
theorem nextElementInHashmap_returns (hs : s.Numberless) (hx : x ∉ nextScratch)
    {before after : List String} (h : s.Holds x (before ++ record (k, v) ++ after)) :
    Returns (nextElementInHashmap s x (numeral before.length) "__current_key" "__current_length"
      "__current_value" "__next_index")
      fun t => t "__current_key" = some k ∧ t.Holds "__current_value" v ∧
        t "__next_index" = some (numeral (before ++ record (k, v)).length) ∧
        AgreesOff nextScratch s t := by
  rw [nextElementInHashmap, mathOperand_numeral, ok_bind]
  refine (readHeader_returns hx h).bind ?_
  rintro t ⟨hkey, hlength, hheader, hframe⟩
  -- the cursor arithmetic, and the value emptied
  have hlengthValue : ∀ text, (t.assign "__start_index" text).value "__current_length" =
      numeral v.length := fun text => by simp [value, assign_apply, hlength]
  simp only [value_of_eq_some hheader, mathOperand_numeral, ok_bind, value_assign_self,
    hlengthValue]
  generalize hu : (((t.assign "__start_index" _).assign "__end_index" _).assign "__next_index"
    _).assign "__current_value" "" = u
  have hframe' : AgreesOff nextScratch s u := by
    rw [← hu]
    exact (((hframe.assign (by decide) _).assign (by decide) _).assign (by decide) _).assign
      (by decide) _
  have hvalue : u.Holds "__current_value" [] := by
    rw [← hu]
    exact Holds.of_assign_empty _ _
  have hnext : u "__next_index" = some (numeral (before ++ record (k, v)).length) := by
    have hsum : (before.length + v.length + 2 : ℤ) = ((before ++ record (k, v)).length : ℕ) := by
      simp only [List.length_append, length_record]
      push_cast
      ring
    rw [← hu, ← hsum]
    simp [assign_apply]
  have hstart : u "__start_index" = some (numeral (before.length + 2)) := by
    rw [← hu, show (before.length + 2 : ℤ) = before.length + 1 + 1 by ring]
    simp [assign_apply]
  have hstop : u "__end_index" = some (numeral (before.length + 2 + v.length - 1)) := by
    rw [← hu, show (before.length + 2 + v.length - 1 : ℤ) = before.length + 1 + 1 + v.length - 1 by
      ring]
    simp [assign_apply]
  have hkey' : u "__current_key" = some k := by
    rw [← hu]
    simpa [assign_apply] using hkey
  have hlength' : u.value "__current_length" = numeral v.length := by
    rw [← hu]
    simp [value, assign_apply, hlength]
  -- the value is read only where its length is not zero
  have hgreater : u.numGreater (u.value "__current_length") "0" = decide (0 < v.length) := by
    have h0 : "0" = numeral 0 := by decide
    have hu' : u.Numberless := hs.agreesOff hframe' (by decide)
    rw [hlength', h0, hu'.numGreater_numeral]
    simp
  rw [hgreater]
  by_cases hv : 0 < v.length
  · rw [if_pos (by simpa using hv)]
    refine (readValue_returns hx (h.agreesOff hframe' hx) hvalue hstart hstop hv).mono ?_
    rintro u' ⟨hcollected, hagree⟩
    refine ⟨by rw [hagree _ (by decide), hkey'], hcollected, by rw [hagree _ (by decide), hnext], ?_⟩
    exact hframe'.trans (hagree.mono (by decide))
  · obtain rfl : v = [] := List.eq_nil_of_length_eq_zero (by omega)
    rw [if_neg (by simp), pure_eq_ok, Returns.ok_iff]
    exact ⟨hkey', hvalue, hnext, hframe'⟩

/-- A loop over the records goes on exactly while records are left. -/
theorem numLess_cursor (hs : s.Numberless) {before rest : List (String × List String)}
    (hindex : s "__current_index" = some (numeral (flatten before).length))
    (hlength : s "__length_of_hashmap" = some (numeral (flatten (before ++ rest)).length)) :
    s.numLess "__current_index" (s.value "__length_of_hashmap") = decide (rest ≠ []) := by
  rw [value_of_eq_some hlength, hs.numLess hindex, flatten_append, List.length_append]
  cases rest with
  | nil => simp
  | cons e rest =>
    simp only [flatten_cons, List.length_append, length_record, ne_eq, reduceCtorEq,
      not_false_eq_true, decide_true, decide_eq_true_eq]
    push_cast
    omega

/-- A map's list has at least two elements for each of its records. -/
theorem length_flatten_ge (entries : List (String × List String)) :
    2 * entries.length ≤ (flatten entries).length := by
  induction entries with
  | nil => simp
  | cons e entries ih =>
    simp only [flatten_cons, List.length_append, length_record, List.length_cons]
    omega

/-! ## The search -/

/-- Where a search has found the key's record: its index, or `-1`. -/
def Locates (m : OrderedMap String (List String)) (k : String) (t : Scope) : Prop :=
  match m.lookup k with
  | some v => ∃ before after, m.entries = before ++ (k, v) :: after ∧
      t "__index" = some (numeral (flatten before).length)
  | none => t "__index" = some "-1"

/-- What a search leaves in `__value`: the value it has found. A search
that fails leaves what was there before. -/
def Recalls (m : OrderedMap String (List String)) (k : String) (s t : Scope) : Prop :=
  match m.lookup k with
  | some v => t.HoldsValue "__value" v
  | none => t "__value" = s "__value"

/-- The state of a search that has `rest` to look at and has not found
the key. -/
structure Searching (s : Scope) (m : OrderedMap String (List String)) (k : String)
    (rest : List (String × List String)) (t : Scope) : Prop where
  cursor : ∃ before, m.entries = before ++ rest ∧ (∀ e ∈ before, e.1 ≠ k) ∧
    t "__current_index" = some (numeral (flatten before).length)
  length : t "__length_of_hashmap" = some (numeral (flatten m.entries).length)
  found : t "__found" = some "0"
  value : t "__value" = s "__value"
  frame : AgreesOff searchScratch s t

/-- The state in which the loop is left. -/
def Searched (s : Scope) (m : OrderedMap String (List String)) (k : String) (t : Scope) : Prop :=
  AgreesOff searchScratch s t ∧
    if m.lookup k = none then t "__found" = some "0" ∧ t "__value" = s "__value"
    else t "__found" = some "1" ∧ Locates m k t ∧ Recalls m k s t

/-- Nothing left to look at: the key is absent. -/
theorem Searching.searched {t : Scope} (h : Searching s m k [] t) : Searched s m k t := by
  obtain ⟨before, hentries, hbefore, -⟩ := h.cursor
  have hnone : m.lookup k = none := by
    rw [m.lookup_eq_none_iff, OrderedMap.keys, hentries, List.append_nil]
    exact fun hk => by
      obtain ⟨e, he, rfl⟩ := List.mem_map.1 hk
      exact hbefore e he rfl
  exact ⟨h.frame, by rw [if_pos hnone]; exact ⟨h.found, h.value⟩⟩

theorem Searching.numLess {rest : List (String × List String)} {t : Scope}
    (h : Searching s m k rest t) (hs : s.Numberless) :
    t.numLess "__current_index" (t.value "__length_of_hashmap") = decide (rest ≠ []) := by
  obtain ⟨before, hentries, -, hindex⟩ := h.cursor
  exact numLess_cursor (hs.agreesOff h.frame (by decide)) hindex (hentries ▸ h.length)

/-- **One round of the search**: the record under the cursor is the key's
and the loop is left, or it is skipped. -/
theorem findRound_returns (hs : s.Numberless) (hx : x ∉ searchScratch) (hm : Stores s x m)
    (hk : Plain k) {e : String × List String} {rest : List (String × List String)} {t : Scope}
    (h : Searching s m k (e :: rest) t) :
    Returns (findRound x k "__index" "__value" t)
      fun r => if r.2 then Searched s m k r.1 else Searching s m k rest r.1 := by
  obtain ⟨k', v⟩ := e
  obtain ⟨before, hentries, hbefore, hindex⟩ := h.cursor
  have ht : t.Numberless := hs.agreesOff h.frame (by decide)
  have hheld : t.Holds x (flatten before ++ record (k', v) ++ flatten rest) := by
    have := hm.holds.agreesOff h.frame hx
    rwa [hentries, flatten_append, flatten_cons, ← List.append_assoc] at this
  have hk' : Word k' := hheld.words k' (by simp [record])
  rw [findRound, value_of_eq_some hindex]
  refine (nextElementInHashmap_returns ht (fun hmem => hx (nextScratch_subset x hmem)) hheld).bind ?_
  rintro u ⟨hkey, hvalue, hnext, hframe⟩
  have hkeep : ∀ y ∈ ["__current_index", "__length_of_hashmap", "__found", "__value"], u y = t y :=
    fun y hy => hframe y ((by decide : ∀ y ∈ ["__current_index", "__length_of_hashmap", "__found",
      "__value"], y ∉ nextScratch) y hy)
  rw [evaluate_plain u hk, ok_bind, expand_of_value_eq (value_of_eq_some hkey) hk']
  simp only [List.cons_append, List.nil_append, stringCompareEqual, ok_bind]
  replace hframe := (h.frame.trans (hframe.mono nextScratch_subset)).assign (x := "__matched")
    (by decide) (if k' = k then "1" else "0")
  -- a match leaves the loop; a miss moves the cursor past the record
  by_cases hmatch : k' = k
  · subst hmatch
    rw [if_pos rfl] at hframe ⊢
    rw [if_pos (truthy_of_eq_one (assign_self ..) (by decide))]
    have hlookup : m.lookup k' = some v := by
      rw [m.lookup_eq_some_iff, hentries]
      simp
    -- the value and the index are copied out
    rw [((hvalue.congr (assign_of_ne u (by decide) _)).expand)]
    have hv : IsValue v := ⟨hvalue.words, hm.settable (k', v) (by simp [hentries])⟩
    refine (hv.set_returns _ "__value").bind ?_
    rintro w ⟨hcopied, hw⟩
    have hcurrent : w.value "__current_index" = numeral (flatten before).length := by
      rw [Scope.value, hw _ (by decide), assign_of_ne u (by decide), hkeep _ (by decide), hindex,
        Option.getD_some]
    rw [expand_of_value_eq hcurrent (plain_numeral _).toWord, set_numeral,
      ok_bind, pure_eq_ok, Returns.ok_iff]
    refine ⟨((hframe.trans (hw.mono (by decide))).assign (by decide) _).assign (by decide) _, ?_⟩
    rw [if_neg (by simp [hlookup]), Locates, Recalls, hlookup]
    exact ⟨by simp, ⟨before, rest, hentries, by simp [assign_apply]⟩,
      hcopied.congr (by simp [assign_apply])⟩
  · rw [if_neg hmatch] at hframe ⊢
    rw [if_neg (by rw [truthy_of_eq_zero (assign_self ..) (by decide)]; decide)]
    have hnextValue : (u.assign "__matched" "0").value "__next_index" =
        numeral (flatten before ++ record (k', v)).length := by
      rw [value_assign_of_ne u (by decide), value_of_eq_some hnext]
    rw [expand_of_value_eq hnextValue (plain_numeral _).toWord,
      set_numeral, ok_bind, pure_eq_ok, Returns.ok_iff,
      if_neg Bool.false_ne_true]
    refine ⟨⟨before ++ [(k', v)], by simpa using hentries, ?_, by simp⟩, ?_, ?_, ?_,
      hframe.assign (by decide) _⟩
    · intro e he
      rcases List.mem_append.1 he with he | he
      · exact hbefore e he
      · rw [List.mem_singleton.1 he]
        exact hmatch
    · simpa [assign_apply, hkeep] using h.length
    · simpa [assign_apply, hkeep] using h.found
    · simpa [assign_apply, hkeep] using h.value

/-- **The search returns**, with the key's record or with the report that
there is none. -/
theorem findInHashmap_returns (hs : s.Numberless) (hx : x ∉ searchScratch) (hm : Stores s x m)
    (hk : Plain k) :
    Returns (findInHashmap s [x, k, "__index", "__value"])
      fun t => Locates m k t ∧ Recalls m k s t ∧ AgreesOff searchScratch s t := by
  have hlength := hm.holds.listLength "__length_of_hashmap"
  have hframe : AgreesOff searchScratch s (s.listLength x "__length_of_hashmap") := by
    rw [hlength]
    exact (AgreesOff.refl searchScratch s).assign (by decide) _
  rw [findInHashmap]
  generalize hu : s.listLength x "__length_of_hashmap" = u at hframe
  rw [hlength] at hu
  have hu' : u.Numberless := hs.agreesOff hframe (by decide)
  have huLength : u "__length_of_hashmap" = some (numeral (flatten m.entries).length) := by
    rw [← hu, assign_self]
  have h0 : "0" = numeral 0 := by decide
  rw [h0, hu'.numEqual huLength]
  -- an empty map is answered before the loop
  by_cases hempty : (flatten m.entries).length = 0
  · rw [if_pos (by simpa using hempty), pure_eq_ok, Returns.ok_iff]
    have hlookup : m.lookup k = none := by
      have := length_flatten_ge m.entries
      rw [m.lookup_eq_none_iff, OrderedMap.keys,
        List.eq_nil_of_length_eq_zero (l := m.entries) (by omega)]
      simp
    rw [Locates, Recalls, hlookup]
    refine ⟨assign_self .., ?_, hframe.assign (by decide) _⟩
    rw [assign_of_ne u (by decide), ← hu, assign_of_ne s (by decide)]
  · rw [if_neg (by simpa using hempty), ← h0]
    have hstart : Searching s m k m.entries ((u.assign "__current_index" "0").assign "__found" "0") :=
      { cursor := ⟨[], rfl, by simp, by simp [assign_apply, h0]⟩
        length := by simpa [assign_apply] using huLength
        found := assign_self ..
        value := by simp [assign_apply, ← hu]
        frame := (hframe.assign (by decide) _).assign (by decide) _ }
    -- every record has a key and a length, so the rounds suffice
    have hrounds : m.entries.length <
        rounds ((u.assign "__current_index" "0").assign "__found" "0") x := by
      have := length_flatten_ge m.entries
      rw [rounds, (hm.holds.agreesOff hstart.frame hx).list]
      omega
    refine (whileLoop_returns (Searching s m k) (Q := Searched s m k) ?_ ?_ hrounds hstart).bind ?_
    · intro t ht
      exact ⟨by rw [ht.numLess hs]; rfl, ht.searched⟩
    · intro e rest t ht
      exact ⟨by rw [ht.numLess hs]; rfl, findRound_returns hs hx hm hk ht⟩
    · rintro t ⟨hagree, hresult⟩
      -- the flag tells the two ways out of the loop apart
      by_cases hlookup : m.lookup k = none
      · rw [if_pos hlookup] at hresult
        rw [truthy_of_eq_zero hresult.1 (by decide), Bool.not_false, if_pos rfl, pure_eq_ok,
          Returns.ok_iff]
        rw [Locates, Recalls, hlookup]
        refine ⟨assign_self .., ?_, hagree.assign (by decide) _⟩
        rw [assign_of_ne t (by decide), hresult.2]
      · rw [if_neg hlookup] at hresult
        rw [truthy_of_eq_one hresult.1 (by decide), Bool.not_true, if_neg (by decide), pure_eq_ok,
          Returns.ok_iff]
        exact ⟨hresult.2.1, hresult.2.2, hagree⟩

/-! ## The dump -/

/-- The scratch variables of a dump. -/
def dumpScratch : List String := nextScratch ++ ["__length_of_hashmap", "__current_index"]

/-- The state of a dump that has `rest` left to print. -/
structure Dumping (s : Scope) (x : String) (m : OrderedMap String (List String))
    (rest : List (String × List String)) (p : Scope × List String) : Prop where
  cursor : ∃ before, m.entries = before ++ rest ∧
    p.2 = before.map (fun e => dumpLine x e.1 (joined e.2)) ∧
    p.1 "__current_index" = some (numeral (flatten before).length)
  length : p.1 "__length_of_hashmap" = some (numeral (flatten m.entries).length)
  frame : AgreesOff dumpScratch s p.1

/-- **A dump returns**, with one line for each record in order. -/
theorem dumpHashmap_returns (hs : s.Numberless) (hx : x ∉ dumpScratch) (hm : Stores s x m) :
    Returns (dumpHashmap s x) fun p =>
      p.2 = m.entries.map (fun e => dumpLine x e.1 (joined e.2)) ∧ AgreesOff dumpScratch s p.1 := by
  have hlength := hm.holds.listLength "__length_of_hashmap"
  rw [dumpHashmap, hlength]
  have hrounds : m.entries.length <
      rounds ((s.assign "__length_of_hashmap" (numeral (flatten m.entries).length)).assign
        "__current_index" "0") x := by
    have := length_flatten_ge m.entries
    have hheld := hm.holds.agreesOff (((AgreesOff.refl dumpScratch s).assign
      (x := "__length_of_hashmap") (by decide) (numeral (flatten m.entries).length)).assign
        (x := "__current_index") (by decide) "0") hx
    rw [rounds, hheld.list]
    omega
  have hstart : Dumping s x m m.entries ((s.assign "__length_of_hashmap"
      (numeral (flatten m.entries).length)).assign "__current_index" "0", []) :=
    { cursor := ⟨[], rfl, rfl, by
        have h0 : "0" = numeral 0 := by decide
        simp [h0]⟩
      length := by simp [assign_apply]
      frame := ((AgreesOff.refl dumpScratch s).assign (by decide) _).assign (by decide) _ }
  -- the lines printed so far are those of the records before the cursor
  refine whileLoop_returns (Dumping s x m) ?_ ?_ hrounds hstart
  · rintro p hp
    obtain ⟨before, hentries, hlines, hindex⟩ := hp.cursor
    refine ⟨?_, by rw [hlines, hentries, List.append_nil], hp.frame⟩
    rw [numLess_cursor (hs.agreesOff hp.frame (by decide)) hindex (hentries ▸ hp.length)]
    rfl
  · rintro ⟨k, v⟩ rest ⟨t, lines⟩ hp
    obtain ⟨before, hentries, hlines, hindex⟩ := hp.cursor
    have ht : t.Numberless := hs.agreesOff hp.frame (by decide)
    have hheld : t.Holds x (flatten before ++ record (k, v) ++ flatten rest) := by
      have := hm.holds.agreesOff hp.frame hx
      rwa [hentries, flatten_append, flatten_cons, ← List.append_assoc] at this
    refine ⟨by rw [numLess_cursor ht hindex (hentries ▸ hp.length)]; rfl, ?_⟩
    simp only [value_of_eq_some hindex]
    refine (nextElementInHashmap_returns ht (fun hmem => hx (List.mem_append_left _ hmem))
      hheld).bind ?_
    rintro u ⟨hkey, hvalue, hnext, hframe⟩
    rw [expand_of_value_eq (value_of_eq_some hnext) (plain_numeral _).toWord,
      set_numeral, ok_bind, pure_eq_ok, Returns.ok_iff,
      if_neg Bool.false_ne_true]
    refine ⟨⟨before ++ [(k, v)], by simpa using hentries, ?_, by simp⟩, ?_, ?_⟩
    · simp only at hlines
      simp [hlines, value_of_eq_some hkey, hvalue.text]
    · rw [← hp.length]
      simp [assign_apply, hframe "__length_of_hashmap" (by decide)]
    · exact (hp.frame.trans (hframe.mono fun y hy => List.mem_append_left _ hy)).assign (by decide) _

end Hashmap

end Supercell
