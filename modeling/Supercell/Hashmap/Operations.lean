import Supercell.Hashmap.Search

/-!
# The operations on a stored map

Each macro does to the stored list what its operation does to the map:
the record of a key is found, removed in place and appended at the end.
Every result says what the variable stores afterwards and names the
variables that may differ; `hashmap` itself is the dispatch over them.
-/

namespace Supercell

namespace Hashmap

open CMake CMake.Scope

variable {s : Scope} {x y k : String} {v : List String} {m : OrderedMap String (List String)}

/-! ## Appending and removing a record -/

/-- What a value list leaves behind its header. The header counts every
element; an empty one is an unquoted argument that vanishes. -/
def written (v : List String) : List String := v.filter (· ≠ "")

theorem written_of_words (h : ∀ w ∈ v, Word w) : written v = v :=
  List.filter_eq_self.2 fun w hw => by simpa using (h w hw).nonempty

/-- **The record that is appended**, for any value list whose elements
are words or empty. -/
theorem appendToHashmap_returns {es : List String} (hxs : x ∉ ["__length_of_value", "__element"])
    (hys : y ∉ ["__length_of_value", "__element"]) (hyx : y ≠ x) (hx : s.Holds x es) (hk : Plain k)
    (hy : s.list y = v) (hv : ∀ w ∈ v, w ≠ "" → Word w) :
    Returns (appendToHashmap s [x, k, y]) fun t =>
      t.Holds x (es ++ k :: numeral v.length :: written v) ∧
        AgreesOff [x, "__length_of_value", "__element"] s t := by
  simp only [List.mem_cons, List.not_mem_nil, or_false, not_or] at hxs hys
  rw [appendToHashmap, evaluate_plain s hk, ok_bind]
  -- the key and the header
  have hkey := hx.listAppend [k] (by simpa using hk.toWord)
  have hframe := (AgreesOff.refl [x, "__length_of_value", "__element"] s).listAppend (x := x)
    (by simp) [k]
  have hvalue : ∀ t : Scope, t y = s y → t.list y = v := fun t ht => by
    rw [← hy, Scope.list, Scope.list, Scope.value, Scope.value, ht]
  have hlength : (s.listAppend x [k]).listLength y "__length_of_value" =
      (s.listAppend x [k]).assign "__length_of_value" (numeral v.length) := by
    rw [Scope.listLength, hvalue _ (hframe y (by simp [hys, hyx]))]
  simp only [hlength]
  replace hkey := hkey.congr (assign_of_ne (s.listAppend x [k]) hxs.1 (numeral v.length))
  replace hframe := hframe.assign (x := "__length_of_value") (by simp) (numeral v.length)
  rw [expand_of_value_eq (value_assign_self ..) (plain_numeral v.length).toWord]
  have hheader := hkey.listAppend [numeral v.length]
    (by simpa using (plain_numeral v.length).toWord)
  replace hframe := hframe.listAppend (x := x) (by simp) [numeral v.length]
  rw [hvalue _ (hframe y (by simp [hys, hyx]))]
  -- the elements, of which the empty ones leave nothing
  refine foreach_returns (fun done t =>
    t.Holds x (es ++ [k] ++ [numeral v.length] ++ written done) ∧
      AgreesOff [x, "__length_of_value", "__element"] s t) ⟨by simpa [written] using hheader, hframe⟩
    ?_ ?_
  · rintro done e rest t rfl ⟨hheld, hagree⟩
    have hexpand : (t.assign "__element" e).expand "__element" = written [e] := by
      by_cases he : e = ""
      · subst he
        rw [Scope.expand, value_assign_self]
        decide
      · have hw := hv e (by simp) he
        rw [expand_of_value_eq (value_assign_self ..) hw, written, List.filter_cons_of_pos (by simpa),
          List.filter_nil]
    have hw : ∀ w ∈ written [e], Word w := by
      intro w hw
      obtain ⟨hmem, hne⟩ := List.mem_filter.1 hw
      exact hv w (by simp [List.mem_singleton.1 hmem]) (by simpa using hne)
    rw [hexpand, pure_eq_ok, Returns.ok_iff]
    refine ⟨?_, (hagree.assign (by simp) _).listAppend (by simp) _⟩
    have happend := (hheld.congr (assign_of_ne t hxs.2 e)).listAppend _ hw
    rwa [List.append_assoc _ (written done), written, written, ← List.filter_append] at happend
  · rintro t ⟨hheld, hagree⟩
    have hlist : es ++ [k] ++ [numeral v.length] ++ written v =
        es ++ k :: numeral v.length :: written v := by simp
    rw [hlist] at hheld
    exact ⟨hheld.congr (assign_of_ne t hxs.2 _), hagree.assign (by simp) _⟩

/-- Removing the element behind a part of the list. -/
theorem listRemoveAt_middle {before after : List String} {w : String}
    (hx : s.Holds x (before ++ w :: after)) :
    ∃ t, s.listRemoveAt x (numeral before.length) = .ok t ∧ t.Holds x (before ++ after) ∧
      AgreesOff [x] s t := by
  have herase : (before ++ w :: after).eraseIdx before.length = before ++ after := by
    rw [List.eraseIdx_append_of_length_le (Nat.le_refl _), Nat.sub_self, List.eraseIdx_cons_zero]
  obtain ⟨hremove, hheld⟩ := hx.listRemoveAt (i := before.length) (by simp)
  rw [herase] at hremove hheld
  exact ⟨_, hremove, hheld, (AgreesOff.refl _ s).assign (by simp) _⟩

/-- **A record is removed**, and nothing else moves. -/
theorem removeOneFromHashmap_returns (hs : Quiet s)
    (hxs : x ∉ ["__key", "__length_of_value", "__loop_index"]) (hxr : ¬ IsRead x)
    {before after : List String}
    (hx : s.Holds x (before ++ record (k, v) ++ after)) :
    Returns (removeOneFromHashmap s x (numeral before.length)) fun t =>
      t.Holds x (before ++ after) ∧
        AgreesOff [x, "__key", "__length_of_value", "__loop_index"] s t := by
  simp only [List.mem_cons, List.not_mem_nil, or_false, not_or] at hxs
  have hmono : ∀ y ∈ [x], y ∈ [x, "__key", "__length_of_value", "__loop_index"] := by simp
  rw [List.append_assoc, record, List.cons_append] at hx
  -- the key and the header
  rw [removeOneFromHashmap, hx.listGet (e := k) (by simp), ok_bind]
  have hframe := (AgreesOff.refl [x, "__key", "__length_of_value", "__loop_index"] s).assign
    (x := "__key") (by simp) k
  obtain ⟨t, hremove, ht, hagree⟩ := listRemoveAt_middle (hx.congr (assign_of_ne s hxs.1 k))
  replace hframe := hframe.trans (hagree.mono hmono)
  rw [hremove, ok_bind, ht.listGet (e := numeral v.length) (by simp), ok_bind]
  replace hframe := hframe.assign (x := "__length_of_value") (by simp) (numeral v.length)
  obtain ⟨u, hremove', hu, hagree'⟩ :=
    listRemoveAt_middle (ht.congr (assign_of_ne t hxs.2.1 (numeral v.length)))
  replace hframe := hframe.trans (hagree'.mono hmono)
  rw [hremove', ok_bind]
  have hlength : u "__length_of_value" = some (numeral v.length) := by
    rw [hagree' _ (by simpa using Ne.symm hxs.2.1), assign_self]
  have hquiet : Quiet u := hs.agreesOff hframe (not_isRead_of_mem_cons hxr (by decide))
  have h0 : "0" = numeral 0 := by decide
  rw [h0, hquiet.numberless.numGreater hlength]
  by_cases hv : 0 < v.length
  · rw [if_pos (by simpa using hv), value_of_eq_some hlength, mathOperand_numeral, ok_bind,
      range_eq (n := v.length) (by ring) hv, ok_bind]
    -- each round takes one element off the front of what is left of the value
    refine foreach_returns (fun done w => w.Holds x (before ++ (v.drop done.length ++ after)) ∧
      AgreesOff [x, "__key", "__length_of_value", "__loop_index"] s w) ⟨by simpa using hu, hframe⟩
      ?_ ?_
    · rintro done e rest w hitems ⟨hheld, hkept⟩
      obtain ⟨rfl, hlt⟩ := eq_numeral_of_range hitems
      rw [List.drop_eq_getElem_cons hlt, List.cons_append] at hheld
      obtain ⟨w', hremoved, hw', hagree''⟩ := listRemoveAt_middle
        (hheld.congr (assign_of_ne w hxs.2.2 (numeral (1 + done.length))))
      rw [hremoved, Returns.ok_iff, List.length_append, List.length_singleton]
      exact ⟨hw', (hkept.assign (by simp) _).trans (hagree''.mono hmono)⟩
    · rintro w ⟨hheld, hkept⟩
      rw [List.length_map, List.length_range, List.drop_length, List.nil_append] at hheld
      exact ⟨hheld.congr (assign_of_ne w hxs.2.2 _), hkept.assign (by simp) _⟩
  · obtain rfl : v = [] := List.eq_nil_of_length_eq_zero (by omega)
    rw [if_neg (by simp), pure_eq_ok, Returns.ok_iff]
    exact ⟨hu, hframe⟩

/-! ## The operations -/

/-- The search, from a quiet scope. -/
theorem Quiet.findInHashmap_returns (hs : Quiet s) (hx : x ∉ putScratch) (hm : Stores s x m)
    (hk : Plain k) :
    Returns (findInHashmap s [x, k, "__index", "__value"])
      fun t => Locates m k t ∧ Recalls m k s t ∧ AgreesOff searchScratch s t :=
  Hashmap.findInHashmap_returns hs.numberless (fun hmem => hx (searchScratch_subset x hmem)) hm hk

theorem Recalls.agreesOff {t u : Scope} {N : List String} (h : Recalls m k s t)
    (hu : AgreesOff N t u) (hN : "__value" ∉ N) : Recalls m k s u := by
  rw [Recalls] at h ⊢
  cases hlookup : m.lookup k with
  | some v =>
    rw [hlookup] at h
    exact h.agreesOff hu hN
  | none =>
    rw [hlookup] at h
    exact (hu _ hN).trans h

/-- What the search starts from is `__value` and nothing else. -/
theorem Recalls.congr {s' t : Scope} (h : Recalls m k s t) (hs : s "__value" = s' "__value") :
    Recalls m k s' t := by
  rw [Recalls] at h ⊢
  cases hlookup : m.lookup k with
  | some v =>
    rw [hlookup] at h
    exact h
  | none =>
    rw [hlookup] at h
    exact h.trans hs

/-- Whatever a search leaves in `__value` is a value again. -/
theorem Recalls.holds_value {t : Scope} (h : Recalls m k s t)
    (hvalue : m.lookup k = none → ∃ v, s.HoldsValue "__value" v) :
    ∃ v, t.HoldsValue "__value" v := by
  rw [Recalls] at h
  cases hlookup : m.lookup k with
  | some v =>
    rw [hlookup] at h
    exact ⟨v, h⟩
  | none =>
    rw [hlookup] at h
    obtain ⟨v, hv⟩ := hvalue hlookup
    exact ⟨v, hv.congr h⟩

/-- **The record a search has reported is removed**, if it has reported
one. -/
theorem removeReported_returns (hs : Quiet s) (hx : x ∉ putScratch) (hxr : ¬ IsRead x)
    (hm : Stores s x m) (hlocates : Locates m k s) {found : Bool}
    (hfound : found = (m.lookup k).isSome) :
    Returns (if found = true then removeOneFromHashmap s x (s.value "__index") else return s)
      fun t => t.Holds x (flatten (m.remove k).entries) ∧
        AgreesOff (x :: ["__key", "__length_of_value", "__loop_index"]) s t := by
  rw [Locates] at hlocates
  cases hlookup : m.lookup k with
  | some v =>
    rw [hlookup] at hlocates hfound
    obtain ⟨before, after, hentries, hindex⟩ := hlocates
    have hheld := hm.holds
    rw [hentries, flatten_append, flatten_cons, ← List.append_assoc] at hheld
    rw [if_pos (by simpa using hfound), value_of_eq_some hindex,
      m.entries_remove_of_entries_eq hentries, flatten_append]
    exact removeOneFromHashmap_returns hs (fun hmem => hx ((by decide : ∀ z ∈ ["__key",
      "__length_of_value", "__loop_index"], z ∈ putScratch) x hmem)) hxr hheld
  | none =>
    rw [hlookup] at hfound
    rw [if_neg (by simp [hfound]), pure_eq_ok, Returns.ok_iff, m.remove_of_lookup_eq_none hlookup]
    exact ⟨hm.holds, .refl _ s⟩

/-- How the macros read off whether the search has found the key. -/
theorem Locates.numGreater (h : Locates m k s) (hs : Quiet s) :
    s.numGreater "__index" "-1" = (m.lookup k).isSome := by
  have hn1 : "-1" = numeral (-1) := by decide
  rw [Locates] at h
  cases hlookup : m.lookup k with
  | some v =>
    rw [hlookup] at h
    obtain ⟨before, after, -, hindex⟩ := h
    rw [hn1, hs.numberless.numGreater hindex]
    simp
    omega
  | none =>
    rw [hlookup] at h
    rw [hn1, hs.numberless.numGreater (i := -1) (hn1 ▸ h)]
    simp

theorem Locates.numEqual (h : Locates m k s) (hs : Quiet s) :
    (!s.numEqual "__index" "-1") = (m.lookup k).isSome := by
  have hn1 : "-1" = numeral (-1) := by decide
  rw [Locates] at h
  cases hlookup : m.lookup k with
  | some v =>
    rw [hlookup] at h
    obtain ⟨before, after, -, hindex⟩ := h
    rw [hn1, hs.numberless.numEqual hindex]
    simp
  | none =>
    rw [hlookup] at h
    rw [hn1, hs.numberless.numEqual (i := -1) (hn1 ▸ h)]
    simp

section

variable (hs : Quiet s) (hx : x ∉ putScratch) (hxr : ¬ IsRead x) (hm : Stores s x m) (hk : Plain k)

include hs hx hxr hm hk

/-- **PUT removes the key's record and appends a new one**, for any value
list whose elements are words or empty. -/
theorem putIntoHashmap_written (hy : y ∉ putScratch) (hyx : y ≠ x) (hv : s.list y = v)
    (hwords : ∀ w ∈ v, w ≠ "" → Word w) :
    Returns (putIntoHashmap s [x, k, y]) fun t =>
      t.Holds x (flatten (m.remove k).entries ++ k :: numeral v.length :: written v) ∧
        Recalls m k s t ∧ AgreesOff (x :: putScratch) s t := by
  rw [putIntoHashmap, evaluate_plain s hk, ok_bind]
  refine (hs.findInHashmap_returns hx hm hk).bind ?_
  rintro t ⟨hlocates, hrecalls, hframe⟩
  have ht : Quiet t := hs.agreesOff hframe (by decide)
  have hmt : Stores t x m := hm.agreesOff hframe fun hmem => hx (searchScratch_subset x hmem)
  refine (removeReported_returns ht hx hxr hmt hlocates (hlocates.numGreater ht)).bind ?_
  rintro u ⟨hu, hagree⟩
  have hvalue : "__value" ∉ x :: ["__key", "__length_of_value", "__loop_index"] :=
    fun hmem => (List.mem_cons.1 hmem).elim (fun h => hx (h ▸ by decide)) (by decide)
  have hrecalls' := hrecalls.agreesOff hagree hvalue
  replace hagree : AgreesOff (x :: putScratch) s u :=
    (hframe.mono fun z hz => List.mem_cons_of_mem x (searchScratch_subset z hz)).trans
      (hagree.mono (cons_subset_cons (by decide)))
  have hvu : u.list y = v := by
    rw [← hv, Scope.list, Scope.list, hagree.value]
    exact fun hmem => (List.mem_cons.1 hmem).elim hyx hy
  rw [evaluate_plain u hk, ok_bind]
  have hsub : ∀ z ∈ ["__length_of_value", "__element"], z ∈ putScratch := by decide
  refine (appendToHashmap_returns (fun hmem => hx (hsub x hmem)) (fun hmem => hy (hsub y hmem)) hyx hu
    hk hvu hwords).mono ?_
  rintro w ⟨hw, hagree'⟩
  refine ⟨hw, hrecalls'.agreesOff hagree' ?_, hagree.trans (hagree'.mono (cons_subset_cons hsub))⟩
  exact fun hmem => (List.mem_cons.1 hmem).elim (fun h => hx (h ▸ by decide)) (by decide)

/-- **PUT does to the stored map what `put` does to the map.** -/
theorem putIntoHashmap_returns (hy : y ∉ putScratch) (hyx : y ≠ x) (hv : s.list y = v)
    (hvalue : IsValue v) :
    Returns (putIntoHashmap s [x, k, y]) fun t =>
      Stores t x (m.put k v) ∧ Recalls m k s t ∧ AgreesOff (x :: putScratch) s t := by
  refine (putIntoHashmap_written hs hx hxr hm hk hy hyx hv
    fun w hw _ => hvalue.words w hw).mono ?_
  rintro t ⟨ht, hrest⟩
  rw [written_of_words hvalue.words] at ht
  refine ⟨⟨by simpa [record] using ht, ?_, ?_⟩, hrest⟩
  · intro e he
    rcases m.mem_entries_put.1 he with he | rfl
    · exact hm.plain_keys e he.1
    · exact hk
  · intro e he
    rcases m.mem_entries_put.1 he with he | rfl
    · exact hm.settable e he.1
    · exact hvalue.settable

/-- **REMOVE does to the stored map what `remove` does to the map.** -/
theorem removeFromHashmap_returns :
    Returns (removeFromHashmap s [x, k]) fun t =>
      Stores t x (m.remove k) ∧ Recalls m k s t ∧ AgreesOff (x :: putScratch) s t := by
  rw [removeFromHashmap, evaluate_plain s hk, ok_bind]
  refine (hs.findInHashmap_returns hx hm hk).bind ?_
  rintro t ⟨hlocates, hrecalls, hframe⟩
  have ht : Quiet t := hs.agreesOff hframe (by decide)
  have hmt : Stores t x m := hm.agreesOff hframe fun hmem => hx (searchScratch_subset x hmem)
  refine (removeReported_returns ht hx hxr hmt hlocates (hlocates.numEqual ht)).mono ?_
  rintro u ⟨hu, hagree⟩
  refine ⟨⟨hu, fun e he => hm.plain_keys e (m.mem_entries_remove.1 he).1,
    fun e he => hm.settable e (m.mem_entries_remove.1 he).1⟩, hrecalls.agreesOff hagree ?_, ?_⟩
  · exact fun hmem => (List.mem_cons.1 hmem).elim (fun h => hx (h ▸ by decide)) (by decide)
  · exact (hframe.mono fun z hz => List.mem_cons_of_mem x (searchScratch_subset z hz)).trans
      (hagree.mono (cons_subset_cons (by decide)))

omit hxr

/-- **GET reports what the search leaves in `__value`**: the condition on
`_index` holds of no search, so a failed one is read like any other. -/
theorem getFromHashmap_returns {out : String} (hout : out ∉ putScratch)
    (hvalue : m.lookup k = none → ∃ v, s.HoldsValue "__value" v) :
    Returns (getFromHashmap s [x, k, out]) fun t =>
      (∀ v, t.HoldsValue out v ↔ t.HoldsValue "__value" v) ∧ (∃ v, t.Gives out v) ∧
        Recalls m k s t ∧ AgreesOff (out :: putScratch) s t := by
  rw [getFromHashmap, evaluate_plain s hk, ok_bind]
  refine (hs.findInHashmap_returns hx hm hk).bind ?_
  rintro t ⟨-, hrecalls, hframe⟩
  have ht : Quiet t := hs.agreesOff hframe (by decide)
  have hn1 : "-1" = numeral (-1) := by decide
  have hnever : t.numEqual "_index" "-1" = false := by
    rw [Scope.numEqual, numCompare, ht.deref (by decide)]
    rfl
  obtain ⟨v, hv⟩ := hrecalls.holds_value hvalue
  rw [hnever, if_neg Bool.false_ne_true, hv.expand]
  refine (hv.isValue.set_gives t out).mono ?_
  rintro u ⟨hu, hagree⟩
  have hkeep : "__value" ∉ [out] := by
    rw [List.mem_singleton]
    rintro rfl
    exact hout (by decide)
  have huv := hv.agreesOff hagree hkeep
  refine ⟨fun w => ⟨fun hw => hw.unique hu.toHolds ▸ huv,
    fun hw => hw.unique huv.toHolds ▸ hu.toHoldsValue⟩, ⟨v, hu⟩, hrecalls.agreesOff hagree hkeep, ?_⟩
  exact (hframe.mono fun z hz => List.mem_cons_of_mem out (searchScratch_subset z hz)).trans
    (hagree.mono (by simp))

end

/-! ## The dispatch -/

/-- The operation a call names, as a condition reads it. -/
theorem operand_of_mem {w : String} (hw : w ∈ ["PUT", "GET", "REMOVE", "CLEAR", "DUMP"]) :
    s.operand w = .ok w := by
  have hplain : ∀ w ∈ ["PUT", "GET", "REMOVE", "CLEAR", "DUMP"], Plain w ∧ w ≠ "(" := by decide
  rw [operand, evaluate_plain s (hplain w hw).1, ok_bind, word, if_neg (hplain w hw).2]

theorem strequal_self (s : Scope) (w : String) : s.strequal w w = true := by
  rw [Scope.strequal, beq_self_eq_true]

/-- Two operation names, compared. -/
theorem Quiet.strequal_of_ne (hs : Quiet s) {a b : String} (ha : a ∈ conditionWords)
    (hb : b ∈ conditionWords) (h : a ≠ b) : s.strequal a b = false := by
  rw [hs.strequal ha hb, beq_eq_false_iff_ne]
  exact h

/-- A number of arguments that is right. -/
theorem Quiet.numEqual_length (hs : Quiet s) (argv : List String) {n : ℕ} {w : String}
    (hlength : argv.length = n) (hw : w = numeral n) :
    s.numEqual (numeral argv.length) w = true := by
  rw [hs.numEqual_numeral _ hw, hlength]
  simp

section

variable (hs : Quiet s)

include hs

/-- From a quiet scope the operation that is named is the one that runs. -/
theorem hashmap_put_eq (hk : Plain k) :
    hashmap s ["PUT", x, k, y] = (do
      if ← s.isDefined (← s.evaluate y) then
        putIntoHashmap s (x :: [k] ++ (← s.evaluate y))
      else
        let s ← s.set "__temp_variable_for_making_value_instance" (← s.evaluate y)
        putIntoHashmap s [x, k, "__temp_variable_for_making_value_instance"]) := by
  have hput := strequal_self s "PUT"
  have hcount := hs.numEqual_length ["PUT", x, k, y] (n := 4) (w := "4") rfl
    (by decide)
  simp only [hashmap, List.getD_cons_zero, List.getD_cons_succ, operand_of_mem (s := s) (w := "PUT")
    (by simp), ok_bind, hput, hcount, evaluate_plain s hk]
  simp [hk]

theorem hashmap_get_eq (hk : Plain k) :
    hashmap s ["GET", x, k, y] = getFromHashmap s [x, k, y] := by
  have hput := hs.strequal_of_ne (a := "GET") (b := "PUT") (by decide) (by decide) (by decide)
  have hget := strequal_self s "GET"
  have hcount := hs.numEqual_length ["GET", x, k, y] (n := 4) (w := "4") rfl
    (by decide)
  simp only [hashmap, List.getD_cons_zero, List.getD_cons_succ, operand_of_mem (s := s) (w := "GET")
    (by simp), ok_bind, hput, hget, hcount, evaluate_plain s hk]
  rfl

theorem hashmap_remove_eq (hk : Plain k) :
    hashmap s ["REMOVE", x, k] = removeFromHashmap s [x, k] := by
  have hput := hs.strequal_of_ne (a := "REMOVE") (b := "PUT") (by decide) (by decide) (by decide)
  have hget := hs.strequal_of_ne (a := "REMOVE") (b := "GET") (by decide) (by decide) (by decide)
  have hremove := strequal_self s "REMOVE"
  have hcount := hs.numEqual_length ["REMOVE", x, k] (n := 3) (w := "3") rfl
    (by decide)
  simp only [hashmap, List.getD_cons_zero, List.getD_cons_succ, operand_of_mem (s := s) (w := "REMOVE")
    (by simp), ok_bind, hput, hget, hremove, hcount, evaluate_plain s hk]
  rfl

theorem hashmap_clear_eq : hashmap s ["CLEAR", x] = .ok (s.assign x "") := by
  have hput := hs.strequal_of_ne (a := "CLEAR") (b := "PUT") (by decide) (by decide) (by decide)
  have hget := hs.strequal_of_ne (a := "CLEAR") (b := "GET") (by decide) (by decide) (by decide)
  have hremove := hs.strequal_of_ne (a := "CLEAR") (b := "REMOVE") (by decide) (by decide) (by decide)
  have hclear := strequal_self s "CLEAR"
  have hcount := hs.numEqual_length ["CLEAR", x] (n := 2) (w := "2") rfl
    (by decide)
  simp only [hashmap, List.getD_cons_zero, List.getD_cons_succ, operand_of_mem (s := s) (w := "CLEAR")
    (by simp), ok_bind, hput, hget, hremove, hclear, hcount]
  rfl

theorem hashmap_dump_eq :
    hashmap s ["DUMP", x] = (do return (← dumpHashmap s x).1) := by
  have hput := hs.strequal_of_ne (a := "DUMP") (b := "PUT") (by decide) (by decide) (by decide)
  have hget := hs.strequal_of_ne (a := "DUMP") (b := "GET") (by decide) (by decide) (by decide)
  have hremove := hs.strequal_of_ne (a := "DUMP") (b := "REMOVE") (by decide) (by decide) (by decide)
  have hclear := hs.strequal_of_ne (a := "DUMP") (b := "CLEAR") (by decide) (by decide) (by decide)
  have hdump := strequal_self s "DUMP"
  have hcount := hs.numEqual_length ["DUMP", x] (n := 2) (w := "2") rfl
    (by decide)
  simp only [hashmap, List.getD_cons_zero, List.getD_cons_succ, operand_of_mem (s := s) (w := "DUMP")
    (by simp), ok_bind, hput, hget, hremove, hclear, hdump, hcount]
  rfl

variable (hx : Own scratch x) (hm : Stores s x m) (hk : Plain k)

include hk

/-- A variable that is defined is handed on by its name. -/
theorem hashmap_put_variable (hy : Own scratch y) (hdefined : (s y).isSome = true) :
    hashmap s ["PUT", x, k, y] = putIntoHashmap s [x, k, y] := by
  rw [hashmap_put_eq hs hk, evaluate_plain s hy.plain, ok_bind, isDefined, if_neg (by simp), word,
    if_neg hy.ne_paren, ok_bind, pure_eq_ok, ok_bind, if_pos hdefined, ok_bind]
  rfl

include hx hm

/-- **`hashmap(PUT)`** of the list a variable holds. -/
theorem hashmap_put (hy : Own scratch y) (hyx : y ≠ x) (hdefined : (s y).isSome = true)
    (hv : s.list y = v) (hvalue : IsValue v) :
    Returns (hashmap s ["PUT", x, k, y]) fun t =>
      Stores t x (m.put k v) ∧ Recalls m k s t ∧ AgreesOff (x :: putScratch) s t := by
  rw [hashmap_put_variable hs hk hy hdefined]
  exact putIntoHashmap_returns hs (fun hmem => hx.not_mem (putScratch_subset x hmem)) hx.not_isRead hm
    hk (fun hmem => hy.not_mem (putScratch_subset y hmem)) hyx hv hvalue

/-- The value that is given in place: a word, or nothing at all. -/
theorem hashmap_put_inPlace {w : String}
    (hw : w = "" ∨ Plain w ∧ w ∉ ["PARENT_SCOPE", "("] ∧ s w = none) :
    Returns (hashmap s ["PUT", x, k, w]) fun t =>
      Stores t x (m.put k (pieces w)) ∧ Recalls m k s t ∧ AgreesOff (x :: scratch) s t := by
  have hevaluate : s.evaluate w = .ok (pieces w) ∧ s.isDefined (pieces w) = .ok false ∧
      IsValue (pieces w) := by
    rcases hw with rfl | ⟨hplain, hout, hnone⟩
    · have hdefined : s.value "DEFINED" = "" := by simp [value, hs "DEFINED" (by decide)]
      refine ⟨rfl, ?_, by decide⟩
      have hpieces : pieces "" = [] := by decide
      rw [hpieces, isDefined, if_pos rfl, truthy, if_neg (by decide), if_neg (by decide), hdefined]
      rfl
    · rw [pieces_word hplain.toWord]
      refine ⟨evaluate_plain s hplain, ?_, by simpa using hplain.toWord, settable_singleton ?_⟩
      · rw [isDefined, if_neg (by simp), word, if_neg (fun h => hout (by simp [h])), ok_bind,
          pure_eq_ok, hnone]
        rfl
      · exact fun h => hout (by simp [h])
  obtain ⟨hevaluate, hdefined, hvalue⟩ := hevaluate
  rw [hashmap_put_eq hs hk, hevaluate, ok_bind, hdefined, ok_bind, if_neg Bool.false_ne_true, ok_bind]
  refine (hvalue.set_returns s "__temp_variable_for_making_value_instance").bind ?_
  rintro t ⟨ht, hframe⟩
  have hxt : x ∉ ["__temp_variable_for_making_value_instance"] := fun hmem =>
    hx.not_mem ((by decide : ∀ z ∈ ["__temp_variable_for_making_value_instance"], z ∈ scratch) x hmem)
  refine (putIntoHashmap_returns (hs.agreesOff hframe (by decide))
    (fun hmem => hx.not_mem (putScratch_subset x hmem)) hx.not_isRead (hm.agreesOff hframe hxt) hk
    (by decide) (fun h => hxt (by simp [h])) ht.list hvalue).mono ?_
  rintro u ⟨hu, hrecalls, hagree⟩
  refine ⟨hu, hrecalls.congr (hframe _ (by decide)), ?_⟩
  exact (hframe.mono fun z hz => List.mem_cons_of_mem x ((by decide :
    ∀ z ∈ ["__temp_variable_for_making_value_instance"], z ∈ scratch) z hz)).trans
      (hagree.mono (cons_subset_cons putScratch_subset))

/-- **`hashmap(GET)`**, with what the search leaves behind for its answer. -/
theorem hashmap_get {out : String} (hout : Own scratch out)
    (hvalue : m.lookup k = none → ∃ v, s.HoldsValue "__value" v) :
    Returns (hashmap s ["GET", x, k, out]) fun t =>
      (∀ v, t.HoldsValue out v ↔ t.HoldsValue "__value" v) ∧ (∃ v, t.Gives out v) ∧
        Recalls m k s t ∧ AgreesOff (out :: putScratch) s t := by
  rw [hashmap_get_eq hs hk]
  exact getFromHashmap_returns hs (fun hmem => hx.not_mem (putScratch_subset x hmem)) hm hk
    (fun hmem => hout.not_mem (putScratch_subset out hmem)) hvalue

/-- A present key is answered from the map, whatever was looked up before. -/
theorem hashmap_get_of_lookup {out : String} (hout : Own scratch out) (hv : m.lookup k = some v) :
    Returns (hashmap s ["GET", x, k, out]) fun t =>
      t.Gives out v ∧ AgreesOff (out :: putScratch) s t := by
  refine (hashmap_get hs hx hm hk hout fun hnone => nomatch hv.symm.trans hnone).mono ?_
  rintro t ⟨hanswer, ⟨w, hw⟩, hrecalls, hframe⟩
  rw [Recalls, hv] at hrecalls
  have hvalue := (hanswer v).2 hrecalls
  exact ⟨hw.unique hvalue.toHolds ▸ hw, hframe⟩

/-- **`hashmap(REMOVE)`.** -/
theorem hashmap_remove :
    Returns (hashmap s ["REMOVE", x, k]) fun t =>
      Stores t x (m.remove k) ∧ Recalls m k s t ∧ AgreesOff (x :: putScratch) s t := by
  rw [hashmap_remove_eq hs hk]
  exact removeFromHashmap_returns hs (fun hmem => hx.not_mem (putScratch_subset x hmem)) hx.not_isRead
    hm hk

omit hx hm hk

/-- **`hashmap(CLEAR)`.** -/
theorem hashmap_clear :
    Returns (hashmap s ["CLEAR", x]) fun t => Stores t x .empty ∧ AgreesOff [x] s t := by
  rw [hashmap_clear_eq hs, Returns.ok_iff]
  exact ⟨.of_holds_nil (.of_assign_empty s x), (AgreesOff.refl _ s).assign (by simp) _⟩

include hx hm

/-- **`hashmap(DUMP)`.** -/
theorem hashmap_dump :
    Returns (hashmap s ["DUMP", x]) fun t => AgreesOff dumpScratch s t := by
  rw [hashmap_dump_eq hs]
  have hxs : x ∉ dumpScratch := fun hmem =>
    hx.not_mem ((by decide : ∀ z ∈ dumpScratch, z ∈ scratch) x hmem)
  exact (dumpHashmap_returns hs.numberless hxs hm).bind fun p hp => Returns.ok hp.2

end

end Hashmap

end Supercell
