import Supercell.Options.Partition

/-!
# The arguments of a build macro

The build macros divide their arguments by keywords through `split_options`,
into `__options_set`, and read the sections one by one. For arguments that are
plain words a section reads back as it was given, whatever the caller's scope
holds besides: `Parsed` is what stays true while the sections are read.
-/

namespace Supercell

namespace Options

open CMake CMake.Scope Hashmap Sections

/-- **Arguments as the build macros expect them**: plain words, none of them a
keyword of `set()`, in a scope where no condition reads a variable by
accident. -/
structure KeywordCall (s : Scope) (keywords argn : List String) : Prop where
  quiet : Quiet s
  default_undefined : s "default" = none
  plain : ∀ a ∈ argn, Plain a
  no_keyword : ∀ a ∈ argn, a ∉ ["PARENT_SCOPE", "CACHE"]
  plain_keywords : ∀ k ∈ keywords, Plain k
  nodup : ("default" :: keywords).Nodup

/-- The variables that dividing the arguments writes. -/
def parseVariables : List String :=
  "__option_catalogries" :: "__temporary_options_variable" :: "__options_set" :: splitScratch

/-- **The sections are stored**, each keyword with its own. -/
structure Parsed (keywords argn : List String) (t : Scope) : Prop where
  quiet : Quiet t
  plain_keywords : ∀ k ∈ keywords, Plain k
  stores : ∃ m, Stores t "__options_set" m ∧
    ∀ k ∈ keywords, m.lookup k = some (part keywords "default" argn k)

theorem not_isRead_of_mem_parseVariables : ∀ x ∈ parseVariables, ¬ IsRead x := by decide

variable {s t : Scope} {keywords argn N : List String}

/-- What the macros do to their own variables leaves the sections stored. -/
theorem Parsed.agreesOff (h : Parsed keywords argn s) (ht : AgreesOff N s t)
    (hsets : "__options_set" ∉ N) (hN : ∀ x ∈ N, ¬ IsRead x) : Parsed keywords argn t := by
  obtain ⟨m, hm, hlookup⟩ := h.stores
  exact ⟨h.quiet.agreesOff ht hN, h.plain_keywords, m, hm.agreesOff ht hsets, hlookup⟩

/-- The arguments are copied for `split_options`, and divided. -/
theorem parseOptions_returns (h : KeywordCall s keywords argn) :
    Returns (parseOptions s keywords argn) fun t =>
      Parsed keywords argn t ∧ AgreesOff parseVariables s t := by
  have hsettable : Settable argn := settable_of_notMem
    (fun hmem => h.no_keyword _ hmem (by simp)) (fun hmem => h.no_keyword _ hmem (by simp))
  have hvalue : IsValue argn := ⟨fun a ha => (h.plain a ha).toWord, hsettable⟩
  rw [parseOptions]
  simp only [evaluate_joined _ h.plain, ok_bind]
  refine (hvalue.set_returns _ _).bind ?_
  rintro u ⟨hu, huframe⟩
  have hframe : AgreesOff ["__option_catalogries", "__temporary_options_variable"] s u :=
    ((AgreesOff.refl _ s).assign (by simp) _).trans (huframe.mono (by simp))
  have hkeywords : u.Holds "__option_catalogries" keywords :=
    (Holds.of_assign fun k hk => (h.plain_keywords k hk).toWord).agreesOff huframe (by decide)
  have hcall : Call u "__temporary_options_variable" "default" "__option_catalogries"
      "__options_set" argn keywords :=
    { quiet := h.quiet.agreesOff hframe (by decide)
      own_options := by decide
      own_catagories := by decide
      own_sets := by decide
      options_ne := by decide
      catagories_ne := by decide
      options := hu.toHolds
      catagories := hkeywords
      plain := h.plain_keywords
      nodup := h.nodup
      settable := fun _ _ _ hdone => settable_part (fun o ho _ => h.no_keyword o ho) hdone
      settable_default := settable_part (fun o ho _ => h.no_keyword o ho) (List.prefix_refl _)
      plain_default := by decide
      default_ne_keyword := by decide
      default_ne_paren := by decide
      default_undefined := (hframe "default" (by decide)).trans h.default_undefined
      default_notMem := by decide }
  refine hcall.splitOptions_returns.mono ?_
  rintro t ⟨⟨m, hm, hcats, -, -⟩, htframe⟩
  have hall : AgreesOff parseVariables s t :=
    (hframe.mono (by decide)).trans (htframe.mono (by decide))
  exact ⟨⟨h.quiet.agreesOff hall not_isRead_of_mem_parseVariables, h.plain_keywords, m, hm, hcats⟩,
    hall⟩

/-- **A section is read back as it was given.** -/
theorem getOption_returns (h : Parsed keywords argn t) (k out : String) (hk : k ∈ keywords)
    (hout : Own scratch out) (hne : out ≠ "__options_set") :
    Returns (getOption t k out) fun u =>
      u.Gives out (part keywords "default" argn k) ∧ Parsed keywords argn u ∧
        AgreesOff (out :: putScratch) t u := by
  obtain ⟨m, hm, hlookup⟩ := h.stores
  refine (hashmap_get_of_lookup h.quiet (by decide) hm (h.plain_keywords k hk) hout
    (hlookup k hk)).mono ?_
  rintro u ⟨hu, hframe⟩
  refine ⟨hu, h.agreesOff hframe ?_ (not_isRead_of_mem_cons hout.not_isRead putScratch_subset),
    hframe⟩
  rw [List.mem_cons, not_or]
  exact ⟨hne.symm, by decide⟩

/-- A list of options that can be read in a row: the keywords are the call's,
and the variables different ones of the macro's own. -/
structure Readable (keywords : List String) (options : List (String × String)) : Prop where
  mem : ∀ o ∈ options, o.1 ∈ keywords
  own : ∀ o ∈ options, Own scratch o.2
  ne_sets : ∀ o ∈ options, o.2 ≠ "__options_set"
  nodup : (options.map Prod.snd).Nodup

instance (keywords : List String) (options : List (String × String)) :
    Decidable (Readable keywords options) :=
  decidable_of_iff ((∀ o ∈ options, o.1 ∈ keywords) ∧ (∀ o ∈ options, Own scratch o.2) ∧
    (∀ o ∈ options, o.2 ≠ "__options_set") ∧ (options.map Prod.snd).Nodup)
    ⟨fun h => ⟨h.1, h.2.1, h.2.2.1, h.2.2.2⟩, fun h => ⟨h.mem, h.own, h.ne_sets, h.nodup⟩⟩

/-- **And so are several of them.** -/
theorem getOptions_returns (h : Parsed keywords argn t) {options : List (String × String)}
    (hoptions : Readable keywords options) :
    Returns (getOptions t options) fun u =>
      (∀ o ∈ options, u.Gives o.2 (part keywords "default" argn o.1)) ∧ Parsed keywords argn u ∧
        AgreesOff (options.map Prod.snd ++ putScratch) t u := by
  refine Returns.foldlM (fun done u =>
    (∀ o ∈ done, u.Gives o.2 (part keywords "default" argn o.1)) ∧ Parsed keywords argn u ∧
      AgreesOff (options.map Prod.snd ++ putScratch) t u) options
    ⟨by simp, h, AgreesOff.refl _ t⟩ ?_
  rintro done o rest u rfl ⟨hdone, hparsed, hframe⟩
  refine (getOption_returns hparsed _ _ (hoptions.mem o (by simp)) (hoptions.own o (by simp))
    (hoptions.ne_sets o (by simp))).mono ?_
  rintro v ⟨hv, hvparsed, hvframe⟩
  refine ⟨fun p hp => ?_, hvparsed, hframe.trans (hvframe.mono (by simp +contextual))⟩
  rcases List.mem_append.1 hp with hp | hp
  · refine (hdone p hp).agreesOff hvframe ?_
    rw [List.mem_cons, not_or]
    constructor
    · have hnodup := hoptions.nodup
      rw [List.map_append, List.map_cons] at hnodup
      exact fun heq => (List.nodup_append.1 hnodup).2.2 p.2 (List.mem_map_of_mem hp) o.2
        List.mem_cons_self heq
    · exact fun hmem => (hoptions.own p (by simp [hp])).not_mem (putScratch_subset _ hmem)
  · obtain rfl := List.mem_singleton.1 hp
    exact hv

end Options

end Supercell
