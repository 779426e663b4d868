import Supercell.CMake.Scope

/-!
# CMake — what the commands do to a scope that holds lists

`Holds s x es` is the representation invariant of a variable used as a
list: its text is the joined list of the words `es`. The commands are
stated against it, so that no later proof looks at a text. `AgreesOff`
is the frame: everything outside a set of names is left alone.
-/

namespace Supercell

namespace CMake

namespace Scope

variable {s t u : Scope} {x y : String} {es fs : List String} {N M : List String}

/-! ## Frames -/

/-- **Nothing but the names in `N` differs** between the two scopes. -/
def AgreesOff (N : List String) (s t : Scope) : Prop := ∀ x, x ∉ N → t x = s x

namespace AgreesOff

theorem refl (N : List String) (s : Scope) : AgreesOff N s s := fun _ _ => rfl

theorem trans (h : AgreesOff N s t) (h' : AgreesOff N t u) : AgreesOff N s u :=
  fun x hx => (h' x hx).trans (h x hx)

theorem mono (h : AgreesOff N s t) (hNM : ∀ x ∈ N, x ∈ M) : AgreesOff M s t :=
  fun x hx => h x fun hN => hx (hNM x hN)

theorem assign (h : AgreesOff N s t) (hx : x ∈ N) (text : String) :
    AgreesOff N s (t.assign x text) := by
  intro y hy
  rw [assign_of_ne _ (fun hyx : y = x => hy (hyx ▸ hx)), h y hy]

theorem unset (h : AgreesOff N s t) (hx : x ∈ N) : AgreesOff N s (t.unset x) := by
  intro y hy
  rw [unset_of_ne _ (fun hyx : y = x => hy (hyx ▸ hx)), h y hy]

theorem value (h : AgreesOff N s t) (hx : x ∉ N) : t.value x = s.value x := by
  rw [Scope.value, Scope.value, h x hx]

theorem listAppend (h : AgreesOff N s t) (hx : x ∈ N) (args : List String) :
    AgreesOff N s (t.listAppend x args) := by
  unfold Scope.listAppend
  split
  · exact h
  · exact h.assign hx _

end AgreesOff

/-! ## Lists -/

/-- **The variable holds the list**: its text is the joined list, and the
elements are words. -/
structure Holds (s : Scope) (x : String) (es : List String) : Prop where
  text : s.value x = joined es
  words : ∀ e ∈ es, Word e

namespace Holds

theorem list (h : s.Holds x es) : s.list x = es := by
  rw [Scope.list, h.text, elements_joined h.words]

theorem expand (h : s.Holds x es) : s.expand x = es := by
  rw [Scope.expand, h.text, pieces_joined_words h.words]

theorem value_eq_empty (h : s.Holds x es) : s.value x = "" ↔ es = [] := by
  rw [h.text, joined_eq_empty fun e he => (h.words e he).nonempty]

/-- A variable holds one list. -/
theorem unique (h : s.Holds x es) (h' : s.Holds x fs) : es = fs := by
  rw [← h.list, h'.list]

theorem of_assign (hw : ∀ e ∈ es, Word e) : (s.assign x (joined es)).Holds x es :=
  ⟨value_assign_self s x _, hw⟩

theorem of_assign_empty (s : Scope) (x : String) : (s.assign x "").Holds x [] :=
  ⟨value_assign_self s x "", by simp⟩

theorem of_unset : (s.unset x).Holds x [] := ⟨by simp, by simp⟩

theorem of_eq_none (h : s x = none) : s.Holds x [] := ⟨by simp [value, h], by simp⟩

theorem congr (h : s.Holds x es) (hx : t x = s x) : t.Holds x es :=
  ⟨by rw [value, hx]; exact h.text, h.words⟩

theorem agreesOff (h : s.Holds x es) (ht : AgreesOff N s t) (hx : x ∉ N) : t.Holds x es :=
  h.congr (ht x hx)

/-- A list with an element is the text of a variable that is defined. -/
theorem isSome (h : s.Holds x es) (hne : es ≠ []) : (s x).isSome = true := by
  cases hx : s x with
  | some _ => rfl
  | none => exact absurd (h.value_eq_empty.1 (by simp [value, hx])) hne

end Holds

/-- **A value**: a list of words that `set()` copies. -/
structure IsValue (es : List String) : Prop where
  words : ∀ e ∈ es, Word e
  settable : Settable es

instance (es : List String) : Decidable (IsValue es) :=
  decidable_of_iff ((∀ e ∈ es, Word e) ∧ Settable es) ⟨fun h => ⟨h.1, h.2⟩, fun h => ⟨h.1, h.2⟩⟩

/-- The variable holds a value. -/
structure HoldsValue (s : Scope) (x : String) (es : List String) : Prop extends Holds s x es where
  settable : Settable es

namespace HoldsValue

theorem congr (h : s.HoldsValue x es) (hx : t x = s x) : t.HoldsValue x es :=
  ⟨h.toHolds.congr hx, h.settable⟩

theorem agreesOff (h : s.HoldsValue x es) (ht : AgreesOff N s t) (hx : x ∉ N) :
    t.HoldsValue x es := h.congr (ht x hx)

theorem isValue (h : s.HoldsValue x es) : IsValue es := ⟨h.words, h.settable⟩

end HoldsValue

/-- A variable whose text is a word gives that one argument. -/
theorem expand_of_value_eq {w : String} (h : s.value x = w) (hw : Word w) : s.expand x = [w] := by
  rw [Scope.expand, h, pieces_word hw]

theorem set_word (s : Scope) (x : String) {w : String} (hw : w ≠ "PARENT_SCOPE") :
    s.set x [w] = .ok (s.assign x w) := by
  rw [(settable_singleton hw).set, if_neg (by simp), joined_singleton]

theorem set_numeral (s : Scope) (x : String) (i : ℤ) :
    s.set x [numeral i] = .ok (s.assign x (numeral i)) :=
  set_word s x (numeral_ne_of_numeral? (by decide))

/-- Setting a variable to the word it holds does nothing, even where
`set()` takes the word for its keyword. -/
theorem set_self {w : String} (h : s x = some w) : s.set x [w] = .ok s := by
  have hself : s.assign x w = s := by
    funext y
    rw [assign_apply]
    split
    · rename_i hy
      rw [hy, h]
    · rfl
  simp [Scope.set, isCacheForm, hself]

/-- `set` leaves the variable holding its arguments. -/
theorem IsValue.set_returns (h : IsValue es) (s : Scope) (x : String) :
    Returns (s.set x es) fun t => t.HoldsValue x es ∧ AgreesOff [x] s t := by
  rw [h.settable.set, Returns.ok_iff]
  split
  · rename_i hnil
    exact ⟨⟨hnil ▸ Holds.of_unset, h.settable⟩, (AgreesOff.refl _ s).unset (by simp)⟩
  · exact ⟨⟨.of_assign h.words, h.settable⟩, (AgreesOff.refl _ s).assign (by simp) _⟩

/-- The variable holds a value, and is not defined where that is empty. -/
structure Gives (s : Scope) (x : String) (es : List String) : Prop extends HoldsValue s x es where
  undefined : es = [] → s x = none

theorem Gives.congr (h : s.Gives x es) (hx : t x = s x) : t.Gives x es :=
  ⟨h.toHoldsValue.congr hx, fun hnil => hx.trans (h.undefined hnil)⟩

theorem Gives.agreesOff (h : s.Gives x es) (ht : AgreesOff N s t) (hx : x ∉ N) : t.Gives x es :=
  h.congr (ht x hx)

/-- A variable is defined where it holds an element. -/
theorem Gives.isSome_iff (h : s.Gives x es) : (s x).isSome = true ↔ es ≠ [] := by
  refine ⟨?_, h.toHolds.isSome⟩
  rintro hsome rfl
  rw [h.undefined rfl] at hsome
  exact nomatch hsome

theorem IsValue.set_gives (h : IsValue es) (s : Scope) (x : String) :
    Returns (s.set x es) fun t => t.Gives x es ∧ AgreesOff [x] s t := by
  obtain ⟨t, ht, hvalue, hframe⟩ := h.set_returns s x
  refine ⟨t, ht, ⟨hvalue, ?_⟩, hframe⟩
  rintro rfl
  obtain rfl := Except.ok.inj ht
  exact unset_self s x

/-- Whatever the arguments, `set` writes its variable only. -/
theorem set_agreesOff {args : List String} (h : s.set x args = .ok t) : AgreesOff [x] s t := by
  unfold Scope.set at h
  split at h
  · exact Except.ok.inj h ▸ (AgreesOff.refl _ s).unset (by simp)
  · split at h
    · exact Except.ok.inj h ▸ AgreesOff.refl _ s
    · split at h
      · exact nomatch h
      · exact Except.ok.inj h ▸ (AgreesOff.refl _ s).assign (by simp) _

/-- `list(APPEND)` of words extends the list. -/
theorem Holds.listAppend (h : s.Holds x es) (fs : List String) (hfs : ∀ f ∈ fs, Word f) :
    (s.listAppend x fs).Holds x (es ++ fs) := by
  have hfold : ∀ (fs es : List String), (∀ e ∈ es, Word e) → (∀ f ∈ fs, Word f) →
      fs.foldl (fun l a => if l = "" then a else l ++ ";" ++ a) (joined es) =
        joined (es ++ fs) := by
    intro fs
    induction fs with
    | nil => simp
    | cons f fs ih =>
      intro es hes hfs
      have hstep := joined_append_words hes (List.cons_ne_nil f [])
      rw [joined_singleton] at hstep
      rw [List.foldl_cons, hstep, ih (es ++ [f]), List.append_assoc, List.singleton_append]
      · intro e he
        rcases List.mem_append.1 he with he | he
        · exact hes e he
        · exact hfs e (by simp [List.mem_singleton.1 he])
      · exact fun g hg => hfs g (List.mem_cons_of_mem f hg)
  have hwords : ∀ e ∈ es ++ fs, Word e := fun e he =>
    (List.mem_append.1 he).elim (h.words e) (hfs e)
  unfold Scope.listAppend
  split
  · rename_i hnil
    rw [hnil, List.append_nil]
    exact h
  · rw [h.text, hfold fs es h.words hfs]
    exact Holds.of_assign hwords

/-- The other lists do not grow. -/
theorem Holds.listAppend_of_ne {y : String} (h : s.Holds y es) (hne : y ≠ x) (fs : List String) :
    (s.listAppend x fs).Holds y es :=
  h.agreesOff ((AgreesOff.refl [x] s).listAppend (by simp) fs) (by simpa using hne)

/-- What `list(FIND)` of a word reports. -/
theorem Holds.listFind (h : s.Holds x es) (target out : String) :
    s.listFind x [target, out] = .ok (s.assign out
      (if target ∈ es then numeral (es.idxOf target) else numeral (-1))) := by
  rw [Scope.listFind, h.list]

/-- A natural position within the list. -/
theorem position_numeral {i : ℕ} (h : i < es.length) :
    position es (numeral i) = some i := by
  have hneg : ¬ (i : ℤ) < 0 := by omega
  simp [position, hneg, h]

/-- `list(GET)` within the list. -/
theorem Holds.listGet (h : s.Holds x es) {i : ℕ} {e : String} (he : es[i]? = some e)
    (out : String) : s.listGet x (numeral i) out = .ok (s.assign out e) := by
  have hi : i < es.length := (List.getElem?_eq_some_iff.1 he).1
  obtain ⟨text, htext⟩ := Option.isSome_iff_exists.1 (h.isSome (List.ne_nil_of_length_pos (by omega)))
  simp [Scope.listGet, htext, h.list, position_numeral hi, he]

/-- `list(REMOVE_AT)` within the list. -/
theorem Holds.listRemoveAt (h : s.Holds x es) {i : ℕ} (hi : i < es.length) :
    s.listRemoveAt x (numeral i) = .ok (s.assign x (joined (es.eraseIdx i))) ∧
      (s.assign x (joined (es.eraseIdx i))).Holds x (es.eraseIdx i) := by
  refine ⟨by simp [Scope.listRemoveAt, h.list, position_numeral hi], ?_⟩
  exact Holds.of_assign fun e he => h.words e (List.mem_of_mem_eraseIdx he)

/-- The length a variable's list has. -/
theorem Holds.listLength (h : s.Holds x es) (out : String) :
    s.listLength x out = s.assign out (numeral es.length) := by
  rw [Scope.listLength, h.list]

@[simp] theorem mathOperand_numeral (i : ℤ) : mathOperand (numeral i) = .ok i := by
  simp [mathOperand]

/-! ## Conditions without stray variables -/

/-- No variable is named by a numeral. A condition reads the numerals in
it as variables, so its comparisons mean what they say only then. -/
def Numberless (s : Scope) : Prop := ∀ i, s (numeral i) = none

theorem deref_of_eq_none {w : String} (h : s w = none) : s.deref w = w := by
  simp [deref, h]

theorem deref_of_eq_some {text : String} (h : s x = some text) : s.deref x = text := by
  simp [deref, h]

theorem Numberless.deref (h : s.Numberless) (i : ℤ) : s.deref (numeral i) = numeral i :=
  deref_of_eq_none (h i)

theorem Numberless.agreesOff (h : s.Numberless) (ht : AgreesOff N s t)
    (hN : ∀ x ∈ N, numeral? x = none) : t.Numberless := fun i => by
  rw [ht _ fun hi => by simpa using hN _ hi, h i]

theorem numCompare_eq {rel : Number → Number → Bool} {i j : ℤ} {a b : String}
    (ha : s.deref a = numeral i) (hb : s.deref b = numeral j) :
    s.numCompare rel a b = rel (.whole i) (.whole j) := by
  simp [numCompare, ha, hb]

/-- A variable against a numeral. -/
theorem Numberless.numEqual (h : s.Numberless) {i : ℤ} (hx : s x = some (numeral i)) (j : ℤ) :
    s.numEqual x (numeral j) = decide (i = j) := by
  rw [Scope.numEqual, numCompare_eq (deref_of_eq_some hx) (h.deref j), Number.equal_whole]

theorem Numberless.numLess (h : s.Numberless) {i : ℤ} (hx : s x = some (numeral i)) (j : ℤ) :
    s.numLess x (numeral j) = decide (i < j) := by
  rw [Scope.numLess, numCompare_eq (deref_of_eq_some hx) (h.deref j), Number.less_whole]

theorem Numberless.numGreater (h : s.Numberless) {i : ℤ} (hx : s x = some (numeral i)) (j : ℤ) :
    s.numGreater x (numeral j) = decide (j < i) := by
  rw [Scope.numGreater, numCompare_eq (deref_of_eq_some hx) (h.deref j), Number.less_whole]

/-- Two numerals. -/
theorem Numberless.numGreater_numeral (h : s.Numberless) (i j : ℤ) :
    s.numGreater (numeral i) (numeral j) = decide (j < i) := by
  rw [Scope.numGreater, numCompare_eq (h.deref i) (h.deref j), Number.less_whole]

theorem Numberless.numEqual_numeral (h : s.Numberless) (i j : ℤ) :
    s.numEqual (numeral i) (numeral j) = decide (i = j) := by
  rw [Scope.numEqual, numCompare_eq (h.deref i) (h.deref j), Number.equal_whole]

/-- A flag a macro keeps for itself, set and not set. -/
theorem truthy_of_eq_one (h : s x = some "1") (hx : x ∉ ["0", "1"]) : s.truthy x = true := by
  simp only [List.mem_cons, List.not_mem_nil, or_false, not_or] at hx
  rw [truthy, if_neg hx.1, if_neg hx.2, value_of_eq_some h]
  decide

theorem truthy_of_eq_zero (h : s x = some "0") (hx : x ∉ ["0", "1"]) : s.truthy x = false := by
  simp only [List.mem_cons, List.not_mem_nil, or_false, not_or] at hx
  rw [truthy, if_neg hx.1, if_neg hx.2, value_of_eq_some h]
  decide

/-- Case does not change the characters of a numeral. -/
theorem toUpper_of_isDigit {c : Char} (h : c = '-' ∨ c.isDigit = true) : c.toUpper = c := by
  rcases h with rfl | h
  · rfl
  · rw [Char.isDigit, Bool.and_eq_true, decide_eq_true_eq, decide_eq_true_eq] at h
    refine dif_neg fun hrange => ?_
    have hlow := hrange.1
    have := UInt32.le_iff_toNat_le.1 hlow
    have := UInt32.le_iff_toNat_le.1 h.2
    simp at *
    omega

theorem map_toUpper_numeral (i : ℤ) :
    (numeral i).toList.map Char.toUpper = (numeral i).toList :=
  (List.map_congr_left fun _ hc => toUpper_of_isDigit (mem_numeral hc)).trans (List.map_id' _)

/-- A text with a letter is not the numeral's. -/
theorem numeral_toList_ne {i : ℤ} {cs : List Char} {c : Char} (hc : c ∈ cs)
    (hletter : c ≠ '-' ∧ c.isDigit = false) : ¬ cs <:+: (numeral i).toList := by
  intro h
  rcases mem_numeral (h.subset hc) with rfl | hdigit
  · exact hletter.1 rfl
  · exact nomatch hletter.2.symm.trans hdigit

/-- Of the numerals only `0` counts as false. -/
theorem isOff_numeral (i : ℤ) : isOff (numeral i) = decide (i = 0) := by
  unfold isOff
  simp only [map_toUpper_numeral]
  have hzero : (numeral i).toList = "0".toList ↔ i = 0 := by
    rw [String.toList_inj]
    exact ⟨fun h => numeral_injective (j := 0) h, fun h => h ▸ rfl⟩
  have hword : ∀ (cs : List Char) (c : Char), c ∈ cs → c ≠ '-' ∧ c.isDigit = false →
      (numeral i).toList ≠ cs := by
    rintro cs c hc hletter rfl
    exact numeral_toList_ne hc hletter (List.infix_refl _)
  have hsuffix : "-NOTFOUND".toList.isSuffixOf (numeral i).toList = false := by
    rw [Bool.eq_false_iff, ne_eq, List.isSuffixOf_iff_suffix]
    exact fun h => numeral_toList_ne (c := 'N') (by decide) (by decide) h.isInfix
  have hnil : (numeral i).toList ≠ "".toList := fun h =>
    (plain_numeral i).nonempty (String.toList_inj.1 h)
  rw [hsuffix, Bool.or_false, decide_eq_decide]
  simp only [List.mem_cons, List.not_mem_nil, or_false, hzero, hnil, false_or,
    hword "OFF".toList 'O' (by decide) (by decide),
    hword "NO".toList 'O' (by decide) (by decide),
    hword "FALSE".toList 'F' (by decide) (by decide),
    hword "N".toList 'N' (by decide) (by decide),
    hword "NOTFOUND".toList 'N' (by decide) (by decide),
    hword "IGNORE".toList 'I' (by decide) (by decide)]

/-- What a condition makes of a numeral a variable holds. -/
theorem truthy_of_eq_numeral {i : ℤ} (h : s x = some (numeral i)) (hx : x ∉ ["0", "1"]) :
    s.truthy x = decide (i ≠ 0) := by
  simp only [List.mem_cons, List.not_mem_nil, or_false, not_or] at hx
  rw [truthy, if_neg hx.1, if_neg hx.2, value_of_eq_some h, isOff_numeral]
  simp

/-! ## Loops -/

/-- **The rule for `foreach`.** The invariant is kept by each round, which
starts with the loop variable set, and by writing the loop variable back
at the end. -/
theorem foreach_returns {items : List String} {body : Scope → Except Stop Scope}
    (Inv : List String → Scope → Prop) (hs : Inv [] s)
    (hbody : ∀ done e rest t, items = done ++ e :: rest → Inv done t →
      Returns (body (t.assign x e)) (Inv (done ++ [e]))) {Q : Scope → Prop}
    (hQ : ∀ t, Inv items t → Q (t.assign x (s.value x))) :
    Returns (foreach s x items body) Q :=
  (Returns.foldlM Inv items hs hbody).bind fun t ht => Returns.ok (hQ t ht)

/-- A loop that returns has written what its rounds write, and its variable. -/
theorem foreach_agreesOff {items : List String} {body : Scope → Except Stop Scope}
    (h : foreach s x items body = .ok t) (hx : x ∈ N)
    (hbody : ∀ u v, body u = .ok v → AgreesOff N u v) : AgreesOff N s t := by
  obtain ⟨u, hu, ht⟩ := bind_eq_ok_iff.1 h
  have hloop : ∀ (items : List String) (s u : Scope),
      items.foldlM (fun t item => body (t.assign x item)) s = .ok u → AgreesOff N s u := by
    intro items
    induction items with
    | nil => exact fun s u hu => Except.ok.inj hu ▸ AgreesOff.refl N s
    | cons e items ih =>
      intro s u hu
      rw [List.foldlM_cons] at hu
      obtain ⟨v, hv, hrest⟩ := bind_eq_ok_iff.1 hu
      exact ((AgreesOff.refl N s).assign hx e).trans ((hbody _ v hv).trans (ih v u hrest))
  exact Except.ok.inj ht ▸ (hloop items s u hu).assign hx _

/-- A range of a given number of numerals. -/
theorem range_eq {start stop : ℤ} {n : ℕ} (h : stop = start + n - 1) (hn : 0 < n) :
    range start stop = .ok ((List.range n).map fun i : ℕ => numeral (start + i)) := by
  have hcount : (stop - start + 1).toNat = n := by omega
  rw [range, if_neg (by omega), hcount]

/-- What a round of a loop over a range knows of its numeral. -/
theorem eq_numeral_of_range {start : ℤ} {n : ℕ} {done rest : List String} {e : String}
    (h : ((List.range n).map fun i : ℕ => numeral (start + i)) = done ++ e :: rest) :
    e = numeral (start + done.length) ∧ done.length < n := by
  have hget : ((List.range n).map fun i : ℕ => numeral (start + i))[done.length]? = some e := by
    rw [h]
    simp
  rw [List.getElem?_map, Option.map_eq_some_iff] at hget
  obtain ⟨i, hi, rfl⟩ := hget
  obtain ⟨hlt, rfl⟩ := List.getElem?_eq_some_iff.1 hi
  simp only [List.length_range] at hlt
  exact ⟨by simp, hlt⟩

/-- **The rule for `while`.** The invariant speaks of what is left to do,
and each round either takes one element off it or leaves the loop. -/
theorem whileLoop_returns {α σ : Type} {cond : σ → Bool} {body : σ → Except Stop (σ × Bool)}
    (Inv : List α → σ → Prop) {Q : σ → Prop} (hend : ∀ p, Inv [] p → cond p = false ∧ Q p)
    (hbody : ∀ e rest p, Inv (e :: rest) p → cond p = true ∧
      Returns (body p) fun r => if r.2 then Q r.1 else Inv rest r.1) :
    ∀ {rounds : ℕ} {rest : List α} {p : σ}, rest.length < rounds → Inv rest p →
      Returns (whileLoop cond body rounds p) Q := by
  intro rounds
  induction rounds with
  | zero => exact fun h => absurd h (Nat.not_lt_zero _)
  | succ rounds ih =>
    intro rest p hrounds hInv
    rw [whileLoop]
    cases rest with
    | nil =>
      obtain ⟨hcond, hQ⟩ := hend p hInv
      simpa [hcond] using hQ
    | cons e rest =>
      obtain ⟨hcond, hround⟩ := hbody e rest p hInv
      rw [if_pos hcond]
      refine hround.bind ?_
      rintro ⟨p', left⟩ hp'
      cases left with
      | true => simpa using hp'
      | false => exact ih (by simpa using hrounds) (by simpa using hp')

end Scope

end CMake

end Supercell
