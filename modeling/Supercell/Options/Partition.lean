import Supercell.Options.Macros
import Supercell.Hashmap.Operations
import Supercell.Common.Sections

/-!
# The option macro partitions its options

`split_options` against the sections of its options: the loop appends each
option to the section in force, although the entry of that section is
taken out of the hashmap and put back behind the others each time.
-/

namespace Supercell

namespace Options

open CMake CMake.Scope Hashmap Sections

/-- The scratch variables of `split_options`, those of the hashmap macros
included. -/
def splitScratch : List String :=
  scratch ++ ["__default_option_list", "__catalog", "__current_catalog", "__option",
    "__catalog_index", "__current_option_list"]

theorem scratch_subset : ∀ x ∈ scratch, x ∈ splitScratch := fun _ hx => List.mem_append_left _ hx

theorem not_isRead_of_mem_splitScratch : ∀ x ∈ splitScratch, ¬ IsRead x := by decide

/-- **A call of `split_options` by its contract.** The variables are the
caller's and distinct from the one that is written; the categories are
plain words, and so is the default category, which is none of them and
names no variable; the options are words, and what is collected of them
for a category is never taken for a keyword of `set()`. -/
structure Call (s : Scope) (options default_catagory catagories option_sets : String)
    (opts cats : List String) : Prop where
  quiet : Quiet s
  own_options : Own splitScratch options
  own_catagories : Own splitScratch catagories
  own_sets : Own splitScratch option_sets
  options_ne : options ≠ option_sets
  catagories_ne : catagories ≠ option_sets
  options : s.Holds options opts
  catagories : s.Holds catagories cats
  plain : ∀ c ∈ cats, Plain c
  nodup : (default_catagory :: cats).Nodup
  settable : ∀ c ∈ cats, ∀ done, done <+: opts → Settable (part cats default_catagory done c)
  settable_default : Settable (part cats default_catagory opts default_catagory)
  plain_default : Plain default_catagory
  default_ne_keyword : default_catagory ≠ "PARENT_SCOPE"
  default_ne_paren : default_catagory ≠ "("
  default_undefined : s default_catagory = none
  default_notMem : default_catagory ∉ option_sets :: splitScratch

/-- Options that are no keywords of `set()` are never taken for one. -/
theorem settable_part {opts cats done : List String} {default_catagory c : String}
    (h : ∀ o ∈ opts, o ∉ cats → o ∉ ["PARENT_SCOPE", "CACHE"]) (hdone : done <+: opts) :
    Settable (part cats default_catagory done c) := by
  have hout : ∀ w ∈ ["PARENT_SCOPE", "CACHE"], w ∉ part cats default_catagory done c :=
    fun w hw hmem => h w (hdone.subset ((sublist_part done c).subset hmem))
      (notMem_keywords_of_mem_part hmem) hw
  exact settable_of_notMem (hout _ (by simp)) (hout _ (by simp))

variable {s : Scope} {options default_catagory catagories option_sets : String}
  {opts cats : List String}

/-- **The loop over the options, behind the part `done`**: the entries are
the sections of that part, and the default section is kept apart. -/
structure Split (s : Scope) (default_catagory option_sets : String) (cats done : List String)
    (t : Scope) : Prop where
  sets : ∃ m, Stores t option_sets m ∧ ∀ k, m.lookup k =
    if k ∈ cats then some (part cats default_catagory done k) else none
  defaults : t.Holds "__default_option_list" (part cats default_catagory done default_catagory)
  defined : (t "__default_option_list").isSome = true
  current : t "__current_catalog" = some (inForce cats default_catagory done)
  frame : AgreesOff (option_sets :: splitScratch) s t

namespace Call

variable (r : Call s options default_catagory catagories option_sets opts cats)

include r

theorem quiet_of_agreesOff {t : Scope} (h : AgreesOff (option_sets :: splitScratch) s t) :
    Quiet t := by
  refine r.quiet.agreesOff h fun x hx => ?_
  rcases List.mem_cons.1 hx with rfl | hx
  · exact r.own_sets.not_isRead
  · exact not_isRead_of_mem_splitScratch x hx

theorem options_notMem : options ∉ option_sets :: splitScratch := fun hmem =>
  (List.mem_cons.1 hmem).elim r.options_ne r.own_options.not_mem

theorem catagories_notMem : catagories ∉ option_sets :: splitScratch := fun hmem =>
  (List.mem_cons.1 hmem).elim r.catagories_ne r.own_catagories.not_mem

theorem sets_ne {x : String} (hx : x ∈ splitScratch) : option_sets ≠ x := fun h =>
  r.own_sets.not_mem (h ▸ hx)

theorem default_notMem_cats : default_catagory ∉ cats := (List.nodup_cons.1 r.nodup).1

/-- An option of a category is added to the category's entry. -/
theorem addOption_returns {done rest : List String} {o : String} {t : Scope}
    (hopts : opts = done ++ o :: rest)
    (hcats : o ∉ cats) (hforce : inForce cats default_catagory done ∈ cats)
    (h : Split s default_catagory option_sets cats done t) (hoption : t "__option" = some o) :
    Returns (addOption t option_sets) (Split s default_catagory option_sets cats (done ++ [o])) := by
  have ho : Word o := r.options.words o (by simp [hopts])
  have hsettable := r.settable _ hforce (done ++ [o]) ⟨rest, by simp [hopts]⟩
  rw [part_append_self hcats] at hsettable
  obtain ⟨m, hm, hlookup⟩ := h.sets
  have hplain := r.plain _ hforce
  have hsets := r.own_sets.mono scratch_subset
  have hexpand : ∀ u : Scope, u "__current_catalog" = t "__current_catalog" →
      u.expand "__current_catalog" = [inForce cats default_catagory done] := fun u hu =>
    expand_of_value_eq (value_of_eq_some (hu.trans h.current)) hplain.toWord
  simp only [addOption]
  -- the entry is fetched
  have hclear : AgreesOff ("__current_option_list" :: putScratch) t
      (t.assign "__current_option_list" "") := (AgreesOff.refl _ t).assign (by simp) _
  have hsub : ∀ x ∈ "__current_option_list" :: putScratch, x ∈ option_sets :: splitScratch :=
    fun x hx => List.mem_cons_of_mem _ ((by decide : ∀ x ∈ "__current_option_list" :: putScratch,
      x ∈ splitScratch) x hx)
  have hsets' : option_sets ∉ "__current_option_list" :: putScratch := fun hmem =>
    r.own_sets.not_mem ((by decide : ∀ x ∈ "__current_option_list" :: putScratch,
      x ∈ splitScratch) option_sets hmem)
  rw [hexpand _ (hclear _ (by decide))]
  have hlook : m.lookup (inForce cats default_catagory done) =
      some (part cats default_catagory done (inForce cats default_catagory done)) := by
    rw [hlookup, if_pos hforce]
  refine (hashmap_get_of_lookup (r.quiet_of_agreesOff (h.frame.trans (hclear.mono hsub))) hsets
    (hm.agreesOff hclear hsets') hplain (by decide) hlook).bind ?_
  rintro u ⟨hu, hagree⟩
  -- the option is added, and the entry put back
  have hfetched := hclear.trans hagree
  have huo : u.expand "__option" = [o] :=
    expand_of_value_eq (value_of_eq_some (by rw [hfetched _ (by decide), hoption])) ho
  have hextended := hu.toHolds.listAppend [o] (by simpa using ho)
  have happend := hfetched.listAppend (x := "__current_option_list") (by simp) [o]
  rw [huo, hexpand _ (happend _ (by decide))]
  refine (hashmap_put (r.quiet_of_agreesOff (h.frame.trans (happend.mono hsub))) hsets
    (hm.agreesOff happend hsets') hplain (y := "__current_option_list") (by decide)
    (Ne.symm (r.sets_ne (by decide))) (hextended.isSome (by simp)) hextended.list
    ⟨hextended.words, hsettable⟩).mono ?_
  rintro w ⟨hw, -, hput⟩
  have hkeep : ∀ x ∈ ["__default_option_list", "__current_catalog"], w x = t x := by
    intro x hx
    have hx' : x ∉ option_sets :: putScratch := fun hmem => (List.mem_cons.1 hmem).elim
      (fun h => r.sets_ne ((by decide : ∀ x ∈ ["__default_option_list", "__current_catalog"],
        x ∈ splitScratch) x hx) h.symm)
      ((by decide : ∀ x ∈ ["__default_option_list", "__current_catalog"], x ∉ putScratch) x hx)
    rw [hput x hx', happend x ((by decide : ∀ x ∈ ["__default_option_list", "__current_catalog"],
      x ∉ "__current_option_list" :: putScratch) x hx)]
  have hne : inForce cats default_catagory done ≠ default_catagory := fun heq =>
    r.default_notMem_cats (heq ▸ hforce)
  refine ⟨⟨_, hw, fun k => ?_⟩, ?_, ?_, ?_, ?_⟩
  · by_cases hk : k = inForce cats default_catagory done
    · subst hk
      rw [OrderedMap.lookup_put_self, if_pos hforce, part_append_self hcats]
    · rw [OrderedMap.lookup_put_of_ne _ hk, hlookup, part_append_of_ne (Ne.symm hk)]
  · rw [part_append_of_ne hne]
    exact h.defaults.congr (hkeep _ (by simp))
  · rw [hkeep _ (by simp)]
    exact h.defined
  · rw [hkeep _ (by simp), inForce_append_of_notMem hcats]
    exact h.current
  · exact (h.frame.trans (happend.mono hsub)).trans (hput.mono (cons_subset_cons
      fun x hx => scratch_subset x (putScratch_subset x hx)))

/-- **One round of the loop** puts one more option into its section. -/
theorem splitRound_returns {done rest : List String} {o : String} {t : Scope}
    (hopts : opts = done ++ o :: rest) (h : Split s default_catagory option_sets cats done t) :
    Returns (splitRound default_catagory catagories option_sets (t.assign "__option" o))
      (Split s default_catagory option_sets cats (done ++ [o])) := by
  have ho : Word o := r.options.words o (by simp [hopts])
  -- from here on the option and its place among the categories are known
  have hsplit : ∀ text, Split s default_catagory option_sets cats done
      ((t.assign "__option" o).assign "__catalog_index" text) := fun text =>
    { sets := by
        obtain ⟨m, hm, hlookup⟩ := h.sets
        refine ⟨m, hm.agreesOff (N := ["__option", "__catalog_index"])
          (((AgreesOff.refl _ t).assign (by simp) _).assign (by simp) _) ?_, hlookup⟩
        simpa using ⟨r.sets_ne (x := "__option") (by decide),
          r.sets_ne (x := "__catalog_index") (by decide)⟩
      defaults := h.defaults.congr (by simp [assign_apply])
      defined := by simpa [assign_apply] using h.defined
      current := by simpa [assign_apply] using h.current
      frame := (h.frame.assign (List.mem_cons_of_mem _ (by decide)) _).assign
        (List.mem_cons_of_mem _ (by decide)) _ }
  rw [splitRound, expand_of_value_eq (value_assign_self ..) ho, List.singleton_append,
    (r.catagories.agreesOff (h.frame.assign (x := "__option") (List.mem_cons_of_mem _ (by decide)) o)
      r.catagories_notMem).listFind, ok_bind]
  have hn1 : "-1" = numeral (-1) := by decide
  by_cases hcats : o ∈ cats
  · -- a category: it is now the one in force
    rw [if_pos hcats]
    specialize hsplit (numeral (cats.idxOf o))
    have hfound := (r.quiet_of_agreesOff hsplit.frame).numberless.numEqual (x := "__catalog_index")
      (assign_self _ _ _) (-1)
    rw [← hn1] at hfound
    rw [hfound, value_assign_self, if_pos (by simp),
      (r.catagories.agreesOff hsplit.frame r.catagories_notMem).listGet
        (List.getElem?_idxOf hcats), Returns.ok_iff]
    obtain ⟨m, hm, hlookup⟩ := hsplit.sets
    refine ⟨⟨m, hm.agreesOff (N := ["__current_catalog"]) ((AgreesOff.refl _ _).assign (by simp) _)
      (by simpa using r.sets_ne (x := "__current_catalog") (by decide)), fun k => ?_⟩, ?_, ?_, ?_, ?_⟩
    · rw [hlookup, part_append_of_mem hcats]
    · rw [part_append_of_mem hcats]
      exact hsplit.defaults.congr (assign_of_ne _ (by decide) _)
    · rw [assign_of_ne _ (by decide)]
      exact hsplit.defined
    · rw [assign_self, inForce_append_of_mem hcats]
    · exact hsplit.frame.assign (List.mem_cons_of_mem _ (by decide)) _
  · rw [if_neg hcats]
    specialize hsplit (numeral (-1))
    have hquiet := r.quiet_of_agreesOff hsplit.frame
    have hfound := hquiet.numberless.numEqual (x := "__catalog_index") (assign_self _ _ _) (-1)
    have hoperand : Scope.operand ((t.assign "__option" o).assign "__catalog_index" (numeral (-1)))
        default_catagory = .ok default_catagory := by
      rw [operand, evaluate_plain _ r.plain_default, ok_bind, word, if_neg r.default_ne_paren]
    have hequal : Scope.strequal ((t.assign "__option" o).assign "__catalog_index" (numeral (-1)))
        "__current_catalog" default_catagory =
          decide (inForce cats default_catagory done = default_catagory) := by
      rw [strequal, deref_of_eq_some hsplit.current, deref_of_eq_none]
      · rfl
      · rw [hsplit.frame _ r.default_notMem, r.default_undefined]
    rw [hn1, hfound, if_neg (by decide), hoperand, ok_bind, hequal]
    by_cases hforce : inForce cats default_catagory done = default_catagory
    · -- no category yet
      have hoption : Scope.expand ((t.assign "__option" o).assign "__catalog_index" (numeral (-1)))
          "__option" = [o] := expand_of_value_eq (by simp [value, assign_apply]) ho
      rw [if_pos (by simpa using hforce), hoption, pure_eq_ok, Returns.ok_iff]
      have hlist := hsplit.defaults.listAppend [o] (by simpa using ho)
      have happend := (AgreesOff.refl ["__default_option_list"]
        ((t.assign "__option" o).assign "__catalog_index" (numeral (-1)))).listAppend
          (x := "__default_option_list") (by simp) [o]
      obtain ⟨m, hm, hlookup⟩ := hsplit.sets
      have hne := r.sets_ne (x := "__default_option_list") (by decide)
      refine ⟨⟨m, hm.agreesOff happend (by simpa using hne), fun k => ?_⟩, ?_,
        hlist.isSome (by simp), ?_, hsplit.frame.listAppend (List.mem_cons_of_mem _ (by decide)) _⟩
      · rw [hlookup]
        by_cases hk : k ∈ cats
        · rw [if_pos hk, if_pos hk, part_append_of_ne]
          exact fun heq => r.default_notMem_cats (by rwa [← hforce, heq])
        · rw [if_neg hk, if_neg hk]
      · have hself : part cats default_catagory (done ++ [o]) (inForce cats default_catagory done) =
            part cats default_catagory done (inForce cats default_catagory done) ++ [o] :=
          part_append_self hcats
        rw [hforce] at hself
        rw [hself]
        exact hlist
      · rw [happend _ (by decide), hsplit.current, inForce_append_of_notMem hcats]
    · rw [if_neg (by simpa using hforce)]
      exact r.addOption_returns hopts hcats
        ((List.mem_cons.1 inForce_mem).resolve_left hforce) hsplit (by simp [assign_apply])

/-- The loop over the categories gives each an empty entry. -/
theorem putCategories_returns {t : Scope} (hempty : Stores t option_sets .empty)
    (hframe : AgreesOff (option_sets :: splitScratch) s t) :
    Returns (foreach t "__catalog" (t.list catagories) fun t =>
      hashmap t ("PUT" :: option_sets :: t.expand "__catalog" ++ [""])) fun u =>
        (∃ m, Stores u option_sets m ∧ ∀ k, m.lookup k = if k ∈ cats then some [] else none) ∧
          u "__default_option_list" = t "__default_option_list" ∧
            AgreesOff (option_sets :: splitScratch) s u := by
  rw [(r.catagories.agreesOff hframe r.catagories_notMem).list]
  have hloop : ∀ x ∈ ["__catalog"], x ∈ option_sets :: splitScratch := by simp [splitScratch]
  refine foreach_returns (fun done u =>
    (∃ m, Stores u option_sets m ∧ ∀ k, m.lookup k = if k ∈ done then some [] else none) ∧
      u "__default_option_list" = t "__default_option_list" ∧
        AgreesOff (option_sets :: splitScratch) s u) ⟨⟨_, hempty, by simp⟩, rfl, hframe⟩ ?_ ?_
  · -- a category that is put twice keeps its empty entry
    rintro done c rest u hcats ⟨⟨m, hm, hlookup⟩, hdefault, hagree⟩
    have hplain := r.plain c (by simp [hcats])
    have hassign : AgreesOff ["__catalog"] u (u.assign "__catalog" c) :=
      (AgreesOff.refl _ u).assign (by simp) _
    have hm' := hm.agreesOff hassign (by simpa using r.sets_ne (x := "__catalog") (by decide))
    rw [expand_of_value_eq (value_assign_self ..) hplain.toWord]
    refine (hashmap_put_inPlace (r.quiet_of_agreesOff (hagree.trans (hassign.mono hloop)))
      (r.own_sets.mono scratch_subset) hm' hplain (w := "") (.inl rfl)).mono ?_
    rintro w ⟨hw, -, hput⟩
    refine ⟨⟨_, hw, fun k => ?_⟩, ?_, (hagree.trans (hassign.mono hloop)).trans
      (hput.mono (cons_subset_cons scratch_subset))⟩
    · have hnil : pieces "" = [] := by decide
      by_cases hk : k = c
      · subst hk
        rw [OrderedMap.lookup_put_self, if_pos (by simp), hnil]
      · rw [OrderedMap.lookup_put_of_ne _ hk, hlookup]
        simp [hk]
    · have hsets := r.sets_ne (x := "__default_option_list") (by decide)
      have hout : "__default_option_list" ∉ scratch := by decide
      rw [hput _ (by simp [hsets.symm, hout]), hassign _ (by decide), hdefault]
  · rintro u ⟨⟨m, hm, hlookup⟩, hdefault, hagree⟩
    have hassign : ∀ text, AgreesOff ["__catalog"] u (u.assign "__catalog" text) := fun text =>
      (AgreesOff.refl _ u).assign (by simp) _
    refine ⟨⟨m, hm.agreesOff (hassign _) (by simpa using r.sets_ne (x := "__catalog") (by decide)),
      hlookup⟩, ?_, hagree.trans ((hassign _).mono hloop)⟩
    rw [assign_of_ne u (by decide), hdefault]

/-- **`split_options` stores the sections**: one entry for each category,
and one for the default section unless it is empty. Nothing else of the
caller's changes. -/
theorem splitOptions_returns :
    Returns (splitOptions s options default_catagory catagories option_sets) fun t =>
      (∃ m, Stores t option_sets m ∧
        (∀ c ∈ cats, m.lookup c = some (part cats default_catagory opts c)) ∧
        m.lookup default_catagory = (if part cats default_catagory opts default_catagory = [] then none
          else some (part cats default_catagory opts default_catagory)) ∧
        ∀ k ∈ m.keys, k ∈ default_catagory :: cats) ∧
      AgreesOff (option_sets :: splitScratch) s t := by
  have hsets := r.own_sets.mono scratch_subset
  have hdefaultList := r.sets_ne (x := "__default_option_list") (by decide)
  -- the hashmap is emptied
  have hstart : AgreesOff (option_sets :: splitScratch) s (s.assign "__default_option_list" "") :=
    (AgreesOff.refl _ s).assign (List.mem_cons_of_mem _ (by decide)) _
  simp only [splitOptions]
  refine (hashmap_clear (r.quiet_of_agreesOff hstart)).bind ?_
  rintro t ⟨hempty, hclear⟩
  have htd : t "__default_option_list" = some "" := by
    rw [hclear _ (by simpa using hdefaultList.symm), assign_self]
  refine (r.putCategories_returns hempty
    (hstart.trans (hclear.mono (by simp)))).bind ?_
  rintro u ⟨⟨m, hm, hlookup⟩, hud, hagree⟩
  -- the loop starts with the default category in force
  rw [evaluate_plain u r.plain_default, ok_bind, set_word u _ r.default_ne_keyword, ok_bind]
  have hsplit : Split s default_catagory option_sets cats []
      (u.assign "__current_catalog" default_catagory) :=
    { sets := ⟨m, hm.agreesOff (N := ["__current_catalog"]) ((AgreesOff.refl _ u).assign (by simp) _)
        (by simpa using r.sets_ne (x := "__current_catalog") (by decide)), hlookup⟩
      defaults := by
        refine ⟨?_, by simp⟩
        rw [value_assign_of_ne u (by decide), value_of_eq_some (hud.trans htd)]
        rfl
      defined := by rw [assign_of_ne u (by decide), hud, htd, Option.isSome_some]
      current := assign_self _ _ _
      frame := hagree.assign (List.mem_cons_of_mem _ (by decide)) _ }
  rw [(r.options.agreesOff hsplit.frame r.options_notMem).list]
  have hloop : Returns (foreach (u.assign "__current_catalog" default_catagory) "__option" opts
      (splitRound default_catagory catagories option_sets))
      (Split s default_catagory option_sets cats opts) := by
    refine foreach_returns (Split s default_catagory option_sets cats) hsplit
      (fun done o rest t hopts ht => r.splitRound_returns hopts ht) fun t ht => ?_
    obtain ⟨m', hm', hlookup'⟩ := ht.sets
    exact
      { sets := ⟨m', hm'.agreesOff (N := ["__option"]) ((AgreesOff.refl _ t).assign (by simp) _)
          (by simpa using r.sets_ne (x := "__option") (by decide)), hlookup'⟩
        defaults := ht.defaults.congr (assign_of_ne t (by decide) _)
        defined := by rw [assign_of_ne t (by decide)]; exact ht.defined
        current := by rw [assign_of_ne t (by decide)]; exact ht.current
        frame := ht.frame.assign (List.mem_cons_of_mem _ (by decide)) _ }
  refine hloop.bind fun w hw => ?_
  obtain ⟨m', hm', hlookup'⟩ := hw.sets
  have hnone : m'.lookup default_catagory = none := by
    rw [hlookup', if_neg r.default_notMem_cats]
  have hkeys : ∀ k ∈ m'.keys, k ∈ cats := by
    intro k hk
    obtain ⟨v, hv⟩ := m'.mem_keys_iff.1 hk
    by_contra hout
    rw [hlookup', if_neg hout] at hv
    cases hv
  -- the default section gets an entry only where it has options
  have hquiet := r.quiet_of_agreesOff hw.frame
  obtain ⟨text, htext⟩ := Option.isSome_iff_exists.1 hw.defined
  have hequal : w.strequal "__default_option_list" "" =
      decide (part cats default_catagory opts default_catagory = []) := by
    have hvalue := hw.defaults.value_eq_empty
    rw [value_of_eq_some htext] at hvalue
    rw [strequal, deref_of_eq_some htext, hquiet.deref (by decide), Bool.eq_iff_iff]
    simpa using hvalue
  rw [hequal]
  by_cases hnil : part cats default_catagory opts default_catagory = []
  · rw [if_neg (by simp [hnil]), pure_eq_ok, Returns.ok_iff, if_pos hnil]
    exact ⟨⟨m', hm', fun c hc => by rw [hlookup', if_pos hc], hnone,
      fun k hk => List.mem_cons_of_mem _ (hkeys k hk)⟩, hw.frame⟩
  · rw [if_pos (by simpa using hnil), evaluate_plain w r.plain_default, ok_bind, if_neg hnil]
    refine (hashmap_put hquiet hsets hm' r.plain_default (y := "__default_option_list") (by decide)
      hdefaultList.symm hw.defined hw.defaults.list
      ⟨hw.defaults.words, r.settable_default⟩).mono ?_
    rintro z ⟨hz, -, hput⟩
    refine ⟨⟨_, hz, fun c hc => ?_, OrderedMap.lookup_put_self .., fun k hk => ?_⟩, ?_⟩
    · rw [OrderedMap.lookup_put_of_ne _ fun h : c = default_catagory =>
        r.default_notMem_cats (h ▸ hc), hlookup', if_pos hc]
    · rcases OrderedMap.mem_keys_put _ |>.1 hk with hk | rfl
      · exact List.mem_cons_of_mem _ (hkeys k hk)
      · exact List.mem_cons_self
    · exact hw.frame.trans (hput.mono (cons_subset_cons
        fun x hx => scratch_subset x (putScratch_subset x hx)))

end Call

/-- A scope with options in `o` and categories in `c`. -/
def optionScope (opts cats : List String) : Scope :=
  (Scope.empty.assign "o" (joined opts)).assign "c" (joined cats)

theorem call_optionScope : Call (optionScope ["x", "SRC", "y", "LIB", "SRC", "y"] ["SRC", "LIB"])
    "o" "DEFAULT" "c" "sets" ["x", "SRC", "y", "LIB", "SRC", "y"] ["SRC", "LIB"] where
  quiet := by
    refine Quiet.agreesOff (s := Scope.empty) (N := ["o", "c"]) (fun _ _ => rfl) ?_ (by decide)
    exact ((AgreesOff.refl _ _).assign (by simp) _).assign (by simp) _
  own_options := by decide
  own_catagories := by decide
  own_sets := by decide
  options_ne := by decide
  catagories_ne := by decide
  options := ⟨by decide, by decide⟩
  catagories := ⟨by decide, by decide⟩
  plain := by decide
  nodup := by decide
  settable := fun _ _ _ hdone => settable_part (by decide) hdone
  settable_default := by decide
  plain_default := by decide
  default_ne_keyword := by decide
  default_ne_paren := by decide
  default_undefined := by decide
  default_notMem := by decide

end Options

end Supercell
