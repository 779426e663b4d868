import Mathlib.Data.List.Basic
import Mathlib.Data.List.TakeWhile
import Mathlib.Tactic.Ring

/-!
# CMake — texts, lists and numerals

Every CMake value is a text. A text is read as a list by dividing it at
the semicolons that stand outside square brackets and behind no
backslash, and a list is written by joining its elements with
semicolons; the two are inverse exactly where no element opens a bracket
it does not close or ends in a backslash, which `closedFrom` states. This
file gives the two directions, the round trip, and the decimal numerals
`math(EXPR)` and the numeric comparisons work on.
-/

namespace Supercell

namespace CMake

/-! ## Dividing a text at its semicolons -/

/-- The piece collected so far, kept unless it is empty and empty pieces
are dropped. -/
def emit (emptyArgs : Bool) (piece : List Char) : List String :=
  if piece = [] ∧ emptyArgs = false then [] else [String.ofList piece]

/-- **The list reader**: scan the text with the bracket depth `depth` and
the piece collected so far, cutting at the semicolons of depth `0`. An
escaped semicolon loses its backslash and does not cut. -/
def cut (emptyArgs : Bool) : ℤ → List Char → List Char → List String
  | _, piece, [] => emit emptyArgs piece
  | depth, piece, '\\' :: ';' :: cs => cut emptyArgs depth (piece ++ [';']) cs
  | depth, piece, '[' :: cs => cut emptyArgs (depth + 1) (piece ++ ['[']) cs
  | depth, piece, ']' :: cs => cut emptyArgs (depth - 1) (piece ++ [']']) cs
  | depth, piece, ';' :: cs =>
      if depth = 0 then emit emptyArgs piece ++ cut emptyArgs 0 [] cs
      else cut emptyArgs depth (piece ++ [';']) cs
  | depth, piece, c :: cs => cut emptyArgs depth (piece ++ [c]) cs

/-- The elements of a text read as a list, as the `list()` commands and
`foreach(IN LISTS)` read it: empty elements count, and the empty text is
the empty list. -/
def elements (text : String) : List String :=
  if text = "" then [] else cut true 0 [] text.toList

/-- The arguments an unquoted reference to a text gives: empty pieces are
dropped. -/
def pieces (text : String) : List String := cut false 0 [] text.toList

/-- A list written as a text. -/
def joined (es : List String) : String := ";".intercalate es

@[simp] theorem joined_nil : joined [] = "" := String.intercalate_nil

@[simp] theorem joined_singleton (e : String) : joined [e] = e :=
  String.intercalate_singleton

theorem joined_cons {e : String} {es : List String} (h : es ≠ []) :
    joined (e :: es) = e ++ ";" ++ joined es :=
  String.intercalate_cons_of_ne_nil h

theorem joined_append {es fs : List String} (hes : es ≠ []) (hfs : fs ≠ []) :
    joined (es ++ fs) = joined es ++ ";" ++ joined fs :=
  String.intercalate_append_of_ne_nil hes hfs

/-! ## Closed texts -/

/-- **A text the list reader passes through whole**, from a given bracket
depth: it is not cut on the way, loses no backslash, leaves no bracket
open and ends in no backslash that would escape what follows. -/
def closedFrom : ℤ → List Char → Bool
  | depth, [] => depth == 0
  | _, ['\\'] => false
  | _, '\\' :: ';' :: _ => false
  | depth, '[' :: cs => closedFrom (depth + 1) cs
  | depth, ']' :: cs => closedFrom (depth - 1) cs
  | depth, ';' :: cs => depth != 0 && closedFrom depth cs
  | depth, _ :: cs => closedFrom depth cs

/-- A text that stays one element wherever it stands in a list. -/
def Closed (text : String) : Prop := closedFrom 0 text.toList = true

instance : DecidablePred Closed := fun text =>
  inferInstanceAs (Decidable (closedFrom 0 text.toList = true))

/-- The reader takes a closed text into the current piece and is back at
depth `0` behind it. -/
theorem cut_append_of_closedFrom (emptyArgs : Bool) {depth : ℤ} {cs : List Char}
    (h : closedFrom depth cs = true) (piece rest : List Char) :
    cut emptyArgs depth piece (cs ++ rest) = cut emptyArgs 0 (piece ++ cs) rest := by
  induction depth, cs using closedFrom.induct generalizing piece with
  | case1 depth =>
    obtain rfl : depth = 0 := by simpa [closedFrom] using h
    simp
  | case2 depth => simp [closedFrom] at h
  | case3 depth cs => simp [closedFrom] at h
  | case4 depth cs ih =>
    simp only [closedFrom] at h
    simp only [List.cons_append, cut]
    rw [ih h]
    simp
  | case5 depth cs ih =>
    simp only [closedFrom] at h
    simp only [List.cons_append, cut]
    rw [ih h]
    simp
  | case6 depth cs ih =>
    simp only [closedFrom, Bool.and_eq_true, bne_iff_ne, ne_eq] at h
    simp only [List.cons_append, cut, if_neg h.1]
    rw [ih h.2]
    simp
  | case7 depth c cs hend hesc hopen hclose hsemi ih =>
    rw [closedFrom.eq_7 depth c cs hend hesc hopen hclose hsemi] at h
    have hcut : cut emptyArgs depth piece (c :: (cs ++ rest)) =
        cut emptyArgs depth (piece ++ [c]) (cs ++ rest) := by
      refine cut.eq_6 emptyArgs depth piece c (cs ++ rest) ?_ hopen hclose hsemi
      -- a backslash inside a closed text is followed by one of its own characters
      intro cs' hc hcs'
      cases cs with
      | nil => exact hend hc rfl
      | cons d cs => exact hesc cs hc (by rw [(List.cons.inj hcs').1])
    rw [List.cons_append, hcut, ih h]
    simp

theorem closedFrom_append {depth : ℤ} {cs ds : List Char} (h : closedFrom depth cs = true) :
    closedFrom depth (cs ++ ds) = closedFrom 0 ds := by
  induction depth, cs using closedFrom.induct with
  | case1 depth =>
    obtain rfl : depth = 0 := by simpa [closedFrom] using h
    rfl
  | case2 depth => simp [closedFrom] at h
  | case3 depth cs => simp [closedFrom] at h
  | case4 depth cs ih =>
    simp only [closedFrom] at h
    rw [List.cons_append, closedFrom, ih h]
  | case5 depth cs ih =>
    simp only [closedFrom] at h
    rw [List.cons_append, closedFrom, ih h]
  | case6 depth cs ih =>
    simp only [closedFrom, Bool.and_eq_true] at h
    rw [List.cons_append, closedFrom, ih h.2, h.1, Bool.true_and]
  | case7 depth c cs hend hesc hopen hclose hsemi ih =>
    rw [closedFrom.eq_7 depth c cs hend hesc hopen hclose hsemi] at h
    rw [List.cons_append, closedFrom.eq_7 depth c (cs ++ ds) ?_ ?_ hopen hclose hsemi, ih h]
    · intro hc hcs
      cases cs with
      | nil => exact hend hc rfl
      | cons d cs => exact nomatch hcs
    · intro cs' hc hcs'
      cases cs with
      | nil => exact hend hc rfl
      | cons d cs => exact hesc cs hc (by rw [(List.cons.inj hcs').1])

theorem Closed.append {a b : String} (ha : Closed a) (hb : Closed b) : Closed (a ++ b) := by
  rw [Closed, String.toList_append, closedFrom_append ha]
  exact hb

/-- A closed text is read as itself. -/
theorem cut_closed {emptyArgs : Bool} {text : String} (h : Closed text) :
    cut emptyArgs 0 [] text.toList = emit emptyArgs text.toList := by
  have := cut_append_of_closedFrom emptyArgs h [] []
  simpa [cut] using this

/-- A closed text in front of a semicolon is the list's first element. -/
theorem cut_closed_append {emptyArgs : Bool} {text rest : String} (h : Closed text) :
    cut emptyArgs 0 [] (text ++ ";" ++ rest).toList =
      emit emptyArgs text.toList ++ cut emptyArgs 0 [] rest.toList := by
  have := cut_append_of_closedFrom emptyArgs h [] (';' :: rest.toList)
  simpa [cut] using this

@[simp] theorem emit_true (text : String) : emit true text.toList = [text] := by
  simp [emit]

theorem emit_false {text : String} :
    emit false text.toList = if text = "" then [] else [text] := by
  by_cases h : text = "" <;> simp [emit, h]

/-- **The round trip.** Reading back a joined list of closed texts gives
the list. -/
theorem cut_joined {es : List String} (h : ∀ e ∈ es, Closed e) (hne : es ≠ []) :
    cut true 0 [] (joined es).toList = es := by
  induction es with
  | nil => exact absurd rfl hne
  | cons e es ih =>
    by_cases hes : es = []
    · subst hes
      rw [joined_singleton, cut_closed (h e List.mem_cons_self), emit_true]
    · rw [joined_cons hes, cut_closed_append (h e List.mem_cons_self), emit_true,
        ih (fun f hf => h f (List.mem_cons_of_mem e hf)) hes, List.singleton_append]

/-- As arguments, the same list without its empty elements. -/
theorem pieces_joined {es : List String} (h : ∀ e ∈ es, Closed e) :
    pieces (joined es) = es.filter (· ≠ "") := by
  induction es with
  | nil => simp [pieces, cut, emit]
  | cons e es ih =>
    have hrest := ih fun f hf => h f (List.mem_cons_of_mem e hf)
    by_cases hes : es = []
    · subst hes
      rw [joined_singleton, pieces, cut_closed (h e List.mem_cons_self), emit_false]
      by_cases he : e = "" <;> simp [he]
    · rw [joined_cons hes, pieces, cut_closed_append (h e List.mem_cons_self), emit_false]
      rw [pieces] at hrest
      by_cases he : e = "" <;> simp [he, hrest]

/-! ## Words -/

/-- **A word**: a text that stays one element wherever it stands in a list,
and one argument wherever it is expanded. -/
structure Word (text : String) : Prop where
  nonempty : text ≠ ""
  closed : Closed text

instance (text : String) : Decidable (Word text) :=
  decidable_of_iff (text ≠ "" ∧ Closed text) ⟨fun h => ⟨h.1, h.2⟩, fun h => ⟨h.1, h.2⟩⟩

theorem joined_eq_empty {es : List String} (h : ∀ e ∈ es, e ≠ "") :
    joined es = "" ↔ es = [] := by
  constructor
  · intro hj
    cases es with
    | nil => rfl
    | cons e es =>
      refine absurd ?_ (h e List.mem_cons_self)
      by_cases hes : es = []
      · simpa [hes] using hj
      · rw [joined_cons hes] at hj
        simp at hj
  · rintro rfl
    exact joined_nil

/-- The elements of a joined list of words are the words. -/
theorem elements_joined {es : List String} (h : ∀ e ∈ es, Word e) :
    elements (joined es) = es := by
  unfold elements
  split
  · rename_i hj
    exact ((joined_eq_empty fun e he => (h e he).nonempty).1 hj).symm
  · rename_i hj
    refine cut_joined (fun e he => (h e he).closed) ?_
    rintro rfl
    exact hj joined_nil

/-- And so are the arguments it gives. -/
theorem pieces_joined_words {es : List String} (h : ∀ e ∈ es, Word e) :
    pieces (joined es) = es := by
  rw [pieces_joined fun e he => (h e he).closed, List.filter_eq_self]
  exact fun e he => by simpa using (h e he).nonempty

theorem pieces_word {w : String} (h : Word w) : pieces w = [w] := by
  have hw : ∀ e ∈ [w], Word e := by simpa using h
  simpa using pieces_joined_words hw

/-- A word with a closed text in front is one argument. -/
theorem pieces_append {text w : String} (ht : Closed text) (hw : Word w) :
    pieces (text ++ w) = [text ++ w] := by
  have hne : text ++ w ≠ "" := fun h => hw.nonempty (String.append_eq_empty_iff.1 h).2
  rw [pieces, String.toList_append, cut_append_of_closedFrom false ht, List.nil_append]
  have hcut := cut_append_of_closedFrom false hw.closed text.toList []
  rw [List.append_nil] at hcut
  rw [hcut, cut, ← String.toList_append, emit_false, if_neg hne]

/-- The reader does not cut a text without semicolons. -/
theorem cut_of_semicolon_notMem {emptyArgs : Bool} {depth : ℤ} {piece cs : List Char}
    (h : ';' ∉ cs) : cut emptyArgs depth piece cs = emit emptyArgs (piece ++ cs) := by
  induction depth, piece, cs using cut.induct with
  | case1 depth piece => rw [cut, List.append_nil]
  | case2 depth piece cs ih => exact absurd (by simp) h
  | case3 depth piece cs ih =>
    rw [cut, ih fun hmem => h (List.mem_cons_of_mem _ hmem), List.append_assoc]
    rfl
  | case4 depth piece cs ih =>
    rw [cut, ih fun hmem => h (List.mem_cons_of_mem _ hmem), List.append_assoc]
    rfl
  | case5 piece cs ih => exact absurd (by simp) h
  | case6 depth piece cs hdepth ih => exact absurd (by simp) h
  | case7 depth piece c cs hesc hopen hclose hsemi ih =>
    rw [cut.eq_6 emptyArgs depth piece c cs hesc hopen hclose hsemi,
      ih fun hmem => h (List.mem_cons_of_mem _ hmem), List.append_assoc]
    rfl

/-- Without semicolons a text is one argument, whatever its brackets. -/
theorem pieces_of_semicolon_notMem {text : String} (hne : text ≠ "") (h : ';' ∉ text.toList) :
    pieces text = [text] := by
  rw [pieces, cut_of_semicolon_notMem h, List.nil_append, emit_false, if_neg hne]

/-- The reader adds no characters. -/
theorem mem_of_mem_cut {emptyArgs : Bool} {depth : ℤ} {piece cs : List Char} {e : String}
    {c : Char} (he : e ∈ cut emptyArgs depth piece cs) (hc : c ∈ e.toList) : c ∈ piece ++ cs := by
  have hemit : ∀ {p : List Char}, e ∈ emit emptyArgs p → c ∈ p := by
    intro p hp
    unfold emit at hp
    split at hp
    · exact absurd hp List.not_mem_nil
    · rwa [List.mem_singleton.1 hp, String.toList_ofList] at hc
  -- what is read goes from the rest of the text to the end of the piece
  have hpush : ∀ {p rest : List Char} {d : Char}, c ∈ p ++ [d] ++ rest → c ∈ p ++ d :: rest := by
    intro p rest d h
    rwa [List.append_assoc, List.singleton_append] at h
  induction depth, piece, cs using cut.induct with
  | case1 depth piece => exact List.mem_append_left _ (hemit he)
  | case2 depth piece cs ih =>
    rw [cut] at he
    rcases List.mem_append.1 (hpush (ih he)) with h | h
    · exact List.mem_append_left _ h
    · exact List.mem_append_right _ (List.mem_cons_of_mem _ h)
  | case3 depth piece cs ih =>
    rw [cut] at he
    exact hpush (ih he)
  | case4 depth piece cs ih =>
    rw [cut] at he
    exact hpush (ih he)
  | case5 piece cs ih =>
    rw [cut, if_pos rfl] at he
    rcases List.mem_append.1 he with he | he
    · exact List.mem_append_left _ (hemit he)
    · exact List.mem_append_right _ (List.mem_cons_of_mem _ (ih he))
  | case6 depth piece cs hdepth ih =>
    rw [cut, if_neg hdepth] at he
    exact hpush (ih he)
  | case7 depth piece d cs hesc hopen hclose hsemi ih =>
    rw [cut.eq_6 emptyArgs depth piece d cs hesc hopen hclose hsemi] at he
    exact hpush (ih he)

theorem mem_of_mem_pieces {text e : String} {c : Char} (he : e ∈ pieces text)
    (hc : c ∈ e.toList) : c ∈ text.toList := by
  simpa using mem_of_mem_cut he hc

/-- **No argument is left** only of a text of semicolons. -/
theorem pieces_eq_nil_iff {text : String} : pieces text = [] ↔ ∀ c ∈ text.toList, c = ';' := by
  have hcut : ∀ {depth : ℤ} {piece cs : List Char}, cut false depth piece cs = [] →
      piece = [] ∧ ∀ c ∈ cs, c = ';' := by
    intro depth piece cs h
    induction depth, piece, cs using cut.induct with
    | case1 depth piece => exact ⟨by simpa [cut, emit] using h, by simp⟩
    | case2 depth piece cs ih => exact absurd (ih (by rwa [cut] at h)).1 (by simp)
    | case3 depth piece cs ih => exact absurd (ih (by rwa [cut] at h)).1 (by simp)
    | case4 depth piece cs ih => exact absurd (ih (by rwa [cut] at h)).1 (by simp)
    | case5 piece cs ih =>
      rw [cut, if_pos rfl, List.append_eq_nil_iff] at h
      exact ⟨by simpa [emit] using h.1, List.forall_mem_cons.2 ⟨rfl, (ih h.2).2⟩⟩
    | case6 depth piece cs hdepth ih =>
      exact absurd (ih (by rwa [cut, if_neg hdepth] at h)).1 (by simp)
    | case7 depth piece c cs hesc hopen hclose hsemi ih =>
      exact absurd (ih (by rwa [cut.eq_6 false depth piece c cs hesc hopen hclose hsemi] at h)).1
        (by simp)
  refine ⟨fun h => (hcut h).2, fun h => ?_⟩
  unfold pieces
  generalize text.toList = cs at h
  induction cs with
  | nil => simp [cut, emit]
  | cons c cs ih =>
    obtain ⟨rfl, hcs⟩ := List.forall_mem_cons.1 h
    rw [cut, if_pos rfl, ih hcs]
    simp [emit]

/-- The elements of a text that are not empty are its arguments. -/
theorem filter_elements (text : String) : (elements text).filter (· ≠ "") = pieces text := by
  have hemit : ∀ piece, (emit true piece).filter (· ≠ "") = emit false piece := by
    intro piece
    by_cases hpiece : piece = [] <;> simp [emit, hpiece]
  have hcut : ∀ {depth : ℤ} {piece cs : List Char},
      (cut true depth piece cs).filter (· ≠ "") = cut false depth piece cs := by
    intro depth piece cs
    induction depth, piece, cs using cut.induct with
    | case1 depth piece => exact hemit piece
    | case2 depth piece cs ih => rw [cut, cut, ih]
    | case3 depth piece cs ih => rw [cut, cut, ih]
    | case4 depth piece cs ih => rw [cut, cut, ih]
    | case5 piece cs ih =>
      rw [cut, cut, if_pos rfl, if_pos rfl, List.filter_append, hemit, ih]
    | case6 depth piece cs hdepth ih => rw [cut, cut, if_neg hdepth, if_neg hdepth, ih]
    | case7 depth piece c cs hesc hopen hclose hsemi ih =>
      rw [cut.eq_6 true depth piece c cs hesc hopen hclose hsemi,
        cut.eq_6 false depth piece c cs hesc hopen hclose hsemi, ih]
  unfold elements
  split
  · rename_i h
    simp [h, pieces, cut, emit]
  · exact hcut

/-- **The arguments are no longer than the text**, written as a list. -/
theorem length_joined_pieces_le (text : String) : (joined (pieces text)).length ≤ text.length := by
  have hjoin : ∀ piece es, (joined (emit false piece ++ es)).length ≤
      piece.length + 1 + (joined es).length := by
    intro piece es
    by_cases hpiece : piece = []
    · rw [hpiece, show emit false [] = [] from rfl, List.nil_append]
      omega
    · rw [show emit false piece = [String.ofList piece] by simp [emit, hpiece],
        List.singleton_append]
      by_cases hes : es = []
      · rw [hes, joined_singleton, String.length_ofList]
        omega
      · rw [joined_cons hes, String.length_append, String.length_append, String.length_ofList]
        exact Nat.le_refl _
  have hcut : ∀ {depth : ℤ} {piece cs : List Char},
      (joined (cut false depth piece cs)).length ≤ piece.length + cs.length := by
    intro depth piece cs
    induction depth, piece, cs using cut.induct with
    | case1 depth piece =>
      by_cases hpiece : piece = [] <;> simp [cut, emit, hpiece]
    | case2 depth piece cs ih => rw [cut]; simp at ih ⊢; omega
    | case3 depth piece cs ih => rw [cut]; simp at ih ⊢; omega
    | case4 depth piece cs ih => rw [cut]; simp at ih ⊢; omega
    | case5 piece cs ih =>
      rw [cut, if_pos rfl]
      have := hjoin piece (cut false 0 [] cs)
      simp at ih ⊢
      omega
    | case6 depth piece cs hdepth ih => rw [cut, if_neg hdepth]; simp at ih ⊢; omega
    | case7 depth piece c cs hesc hopen hclose hsemi ih =>
      rw [cut.eq_6 false depth piece c cs hesc hopen hclose hsemi]
      simp at ih ⊢
      omega
  have := @hcut 0 [] text.toList
  rwa [List.length_nil, Nat.zero_add, String.length_toList] at this

/-- The reader cuts at semicolons only. -/
theorem length_cut_le (depth : ℤ) (piece cs : List Char) :
    (cut false depth piece cs).length ≤ cs.count ';' + 1 := by
  have hemit : ∀ p : List Char, (emit false p).length ≤ 1 := by
    intro p
    unfold emit
    split <;> simp
  induction depth, piece, cs using cut.induct with
  | case1 depth piece => simpa [cut] using hemit piece
  | case2 depth piece cs ih => rw [cut]; simp; omega
  | case3 depth piece cs ih => rw [cut]; simpa using ih
  | case4 depth piece cs ih => rw [cut]; simpa using ih
  | case5 piece cs ih =>
    have := hemit piece
    rw [cut, if_pos rfl]
    simp
    omega
  | case6 depth piece cs hdepth ih => rw [cut, if_neg hdepth]; simp; omega
  | case7 depth piece c cs hesc hopen hclose hsemi ih =>
    rw [cut.eq_6 false depth piece c cs hesc hopen hclose hsemi]
    rwa [List.count_cons_of_ne hsemi]

/-- **A text that leaves a bracket open takes the semicolon behind it along.** -/
theorem length_cut_append_le {depth : ℤ} {cs : List Char} (h : closedFrom depth cs = false)
    (hsemicolon : ';' ∉ cs) (hlast : cs.getLast? ≠ some '\\') (piece rest : List Char) :
    (cut false depth piece (cs ++ ';' :: rest)).length ≤ rest.count ';' + 1 := by
  have hbehind : ∀ {c : Char} {cs : List Char}, (c :: cs).getLast? ≠ some '\\' → cs ≠ [] →
      cs.getLast? ≠ some '\\' := by
    intro c cs h hne
    rwa [List.getLast?_cons_of_ne_nil hne] at h
  induction depth, cs using closedFrom.induct generalizing piece with
  | case1 depth =>
    have hdepth : depth ≠ 0 := by simpa [closedFrom] using h
    rw [List.nil_append, cut, if_neg hdepth]
    exact length_cut_le _ _ _
  | case2 depth => exact absurd rfl hlast
  | case3 depth cs => exact absurd (by simp) hsemicolon
  | case4 depth cs ih =>
    rw [closedFrom] at h
    rw [List.cons_append, cut]
    by_cases hcs : cs = []
    · exact ih h (by simp [hcs]) (by simp [hcs]) _
    · exact ih h (fun hmem => hsemicolon (List.mem_cons_of_mem _ hmem)) (hbehind hlast hcs) _
  | case5 depth cs ih =>
    rw [closedFrom] at h
    rw [List.cons_append, cut]
    by_cases hcs : cs = []
    · exact ih h (by simp [hcs]) (by simp [hcs]) _
    · exact ih h (fun hmem => hsemicolon (List.mem_cons_of_mem _ hmem)) (hbehind hlast hcs) _
  | case6 depth cs ih => exact absurd (by simp) hsemicolon
  | case7 depth c cs hend hesc hopen hclose hsemi ih =>
    rw [closedFrom.eq_7 depth c cs hend hesc hopen hclose hsemi] at h
    have hcut : cut false depth piece (c :: (cs ++ ';' :: rest)) =
        cut false depth (piece ++ [c]) (cs ++ ';' :: rest) := by
      refine cut.eq_6 false depth piece c _ ?_ hopen hclose hsemi
      -- a backslash is followed by a character of the text, which is no semicolon
      intro cs' hc hcs'
      cases cs with
      | nil => exact hend hc rfl
      | cons d cs => exact hesc cs hc (by rw [(List.cons.inj hcs').1])
    rw [List.cons_append, hcut]
    by_cases hcs : cs = []
    · exact ih h (by simp [hcs]) (by simp [hcs]) _
    · exact ih h (fun hmem => hsemicolon (List.mem_cons_of_mem _ hmem)) (hbehind hlast hcs) _

/-- The last element of a list may leave brackets open. -/
theorem pieces_joined_concat {es : List String} {e : String} (hes : ∀ w ∈ es, Word w)
    (hne : e ≠ "") (hsemicolon : ';' ∉ e.toList) : pieces (joined (es ++ [e])) = es ++ [e] := by
  induction es with
  | nil => rw [List.nil_append, joined_singleton, pieces_of_semicolon_notMem hne hsemicolon]
  | cons w es ih =>
    have hw := hes w List.mem_cons_self
    have hrest := ih fun v hv => hes v (List.mem_cons_of_mem w hv)
    rw [pieces] at hrest
    rw [List.cons_append, joined_cons (by simp), pieces, cut_closed_append hw.closed, emit_false,
      if_neg hw.nonempty, hrest, List.singleton_append]

/-- The semicolons of a list. -/
theorem count_joined {fs : List String} (hfs : ∀ f ∈ fs, ';' ∉ f.toList) (hne : fs ≠ []) :
    (joined fs).toList.count ';' + 1 = fs.length := by
  induction fs with
  | nil => exact absurd rfl hne
  | cons f fs ih =>
    have hf : f.toList.count ';' = 0 := List.count_eq_zero.2 (hfs f List.mem_cons_self)
    by_cases hnil : fs = []
    · simp [hnil, hf]
    · rw [joined_cons hnil, List.length_cons,
        ← ih (fun g hg => hfs g (List.mem_cons_of_mem f hg)) hnil]
      simp [hf]

/-- In a list, it takes what stands behind it along. -/
theorem length_pieces_joined_lt {es fs : List String} {e : String} (hes : ∀ w ∈ es, Word w)
    (hclosed : ¬ Closed e) (hsemicolon : ';' ∉ e.toList) (hlast : e.toList.getLast? ≠ some '\\')
    (hfs : ∀ f ∈ fs, ';' ∉ f.toList) (hne : fs ≠ []) :
    (pieces (joined (es ++ e :: fs))).length < (es ++ e :: fs).length := by
  induction es with
  | nil =>
    have hcount := count_joined hfs hne
    have hcut := length_cut_append_le (Bool.eq_false_iff.2 hclosed) hsemicolon hlast []
      (joined fs).toList
    rw [List.nil_append, joined_cons hne, pieces, List.length_cons]
    simp only [String.toList_append, List.append_assoc]
    exact Nat.lt_succ_of_le (hcut.trans hcount.le)
  | cons w es ih =>
    have hw := hes w List.mem_cons_self
    have hrest := ih fun v hv => hes v (List.mem_cons_of_mem w hv)
    rw [List.cons_append, joined_cons (by simp), pieces, cut_closed_append hw.closed, emit_false,
      if_neg hw.nonempty]
    simp only [List.singleton_append, List.length_cons]
    exact Nat.succ_lt_succ hrest

/-- Extending a list of words at its end, as `list(APPEND)` does on the
text. -/
theorem joined_append_words {es fs : List String} (hes : ∀ e ∈ es, Word e) (hfs : fs ≠ []) :
    (if joined es = "" then joined fs else joined es ++ ";" ++ joined fs) =
      joined (es ++ fs) := by
  split
  · rename_i hj
    rw [(joined_eq_empty fun e he => (hes e he).nonempty).1 hj, List.nil_append]
  · rename_i hj
    rw [joined_append (fun h => hj (by rw [h, joined_nil])) hfs]

/-! ## Plain words -/

/-- A character of a name in a reference. -/
def isNameChar (c : Char) : Bool := c.isAlphanum || decide (c ∈ ['/', '_', '.', '+', '-'])

/-- **A reference begins** with this character: `${x}` reads a variable, `$ENV{x}`
one of the environment, and `@x@` a variable that is defined. No other name may
stand between the dollar and the brace. -/
def opensReference (c : Char) (cs : List Char) : Bool :=
  match cs.dropWhile isNameChar with
  | '{' :: _ => c == '$'
  | '@' :: _ => c == '@' && cs.head? != some '@'
  | _ => false

/-- Nothing in the text is evaluated: it has no escape and no reference. -/
def inert : List Char → Bool
  | [] => true
  | c :: cs => c != '\\' && !opensReference c cs && inert cs

theorem inert_cons {c : Char} {cs : List Char} :
    inert (c :: cs) = true ↔ c ≠ '\\' ∧ opensReference c cs = false ∧ inert cs = true := by
  simp [inert, and_assoc]

theorem backslash_notMem_of_inert {cs : List Char} (h : inert cs = true) : '\\' ∉ cs := by
  induction cs with
  | nil => exact List.not_mem_nil
  | cons c cs ih =>
    obtain ⟨hesc, -, hrest⟩ := inert_cons.1 h
    rw [List.mem_cons, not_or]
    exact ⟨hesc.symm, ih hrest⟩

/-- What may open a reference is a dollar or an at sign. -/
theorem opensReference_eq_false {c : Char} (hdollar : c ≠ '$') (hat : c ≠ '@') (cs : List Char) :
    opensReference c cs = false := by
  unfold opensReference
  split
  · exact beq_eq_false_iff_ne.2 hdollar
  · rw [beq_eq_false_iff_ne.2 hat, Bool.false_and]
  · rfl

/-- A character that belongs to no reference ends it. -/
theorem opensReference_append {c d : Char} {cs ds : List Char} (hname : isNameChar d = false)
    (hbrace : d ≠ '{') (hat : d ≠ '@') (h : opensReference c cs = false) :
    opensReference c (cs ++ d :: ds) = false := by
  have hend : (d :: ds).dropWhile isNameChar = d :: ds := by
    rw [List.dropWhile_cons, hname]
    rfl
  unfold opensReference at h ⊢
  rw [List.dropWhile_append, hend]
  cases hdrop : cs.dropWhile isNameChar with
  | nil =>
    rw [List.isEmpty_nil, if_pos rfl]
    split
    · rename_i heq
      exact absurd (List.cons.inj heq).1 hbrace
    · rename_i heq
      exact absurd (List.cons.inj heq).1 hat
    · rfl
  | cons e es =>
    obtain ⟨f, fs, rfl⟩ : ∃ f fs, cs = f :: fs :=
      List.exists_cons_of_ne_nil (by rintro rfl; simp at hdrop)
    rw [hdrop] at h
    rw [List.isEmpty_cons, if_neg (by simp), List.cons_append]
    split at h <;> simp_all

/-- Nothing is evaluated across a character that belongs to no reference. -/
theorem inert_append_cons {cs ds : List Char} {d : Char} (hname : isNameChar d = false)
    (hbrace : d ≠ '{') (hat : d ≠ '@') (hcs : inert cs = true) (hds : inert (d :: ds) = true) :
    inert (cs ++ d :: ds) = true := by
  induction cs with
  | nil => exact hds
  | cons c cs ih =>
    obtain ⟨hesc, hopen, hrest⟩ := inert_cons.1 hcs
    rw [List.cons_append, inert_cons]
    exact ⟨hesc, opensReference_append hname hbrace hat hopen, ih hrest⟩

/-- Nor in a joined list. -/
theorem inert_joined {es : List String} (h : ∀ e ∈ es, inert e.toList = true) :
    inert (joined es).toList = true := by
  induction es with
  | nil => rfl
  | cons e es ih =>
    by_cases hes : es = []
    · simpa [hes] using h e List.mem_cons_self
    · have hrest : inert (';' :: (joined es).toList) = true :=
        inert_cons.2 ⟨by decide, opensReference_eq_false (by decide) (by decide) _,
          ih fun f hf => h f (List.mem_cons_of_mem e hf)⟩
      have hall := inert_append_cons (by decide) (by decide) (by decide)
        (h e List.mem_cons_self) hrest
      rw [joined_cons hes]
      simpa using hall

/-- **A plain word**: a word the substitution of a macro parameter leaves
alone however often it is evaluated again. -/
structure Plain (text : String) : Prop extends Word text where
  plain : inert text.toList = true

instance (text : String) : Decidable (Plain text) :=
  decidable_of_iff (Word text ∧ inert text.toList = true)
    ⟨fun h => ⟨h.1, h.2⟩, fun h => ⟨h.1, h.2⟩⟩

/-- The characters that an argument's evaluation or the list reader acts
on. -/
def specials : List Char := ['$', '@', '\\', ';', '[', ']']

/-- Without special characters, nothing is evaluated, nothing cuts and
nothing nests. -/
theorem inert_closedFrom_of_not_specials {cs : List Char} (h : ∀ c ∈ cs, c ∉ specials) :
    inert cs = true ∧ closedFrom 0 cs = true := by
  induction cs with
  | nil => exact ⟨rfl, rfl⟩
  | cons c cs ih =>
    have hc := h c List.mem_cons_self
    simp only [specials, List.mem_cons, List.not_mem_nil, or_false, not_or] at hc
    obtain ⟨hdollar, hat, hesc, hsemi, hopen, hclose⟩ := hc
    obtain ⟨hinert, hclosed⟩ := ih fun d hd => h d (List.mem_cons_of_mem c hd)
    constructor
    · exact inert_cons.2 ⟨hesc, opensReference_eq_false hdollar hat cs, hinert⟩
    · rw [closedFrom.eq_7 0 c cs (fun h => absurd h hesc) (fun _ h => absurd h hesc) hopen hclose
        hsemi]
      exact hclosed

/-- A text without special characters is plain. -/
theorem plain_of_not_specials {text : String} (hne : text ≠ "")
    (h : ∀ c ∈ text.toList, c ∉ specials) : Plain text :=
  have hc := inert_closedFrom_of_not_specials h
  ⟨⟨hne, hc.2⟩, hc.1⟩

/-! ## Numerals -/

/-- The decimal numeral of an integer. -/
def numeral : ℤ → String
  | .ofNat n => n.repr
  | .negSucc n => "-" ++ (n + 1).repr

/-- The number a sequence of digits spells. -/
def digits? (cs : List Char) : Option ℕ :=
  if cs ≠ [] ∧ cs.all Char.isDigit = true then some (Nat.ofDigitChars 10 cs 0) else none

/-- The integer a text is the decimal numeral of, if it is one. -/
def numeral? (text : String) : Option ℤ :=
  match text.toList with
  | '-' :: cs => (digits? cs).map fun n => -(n : ℤ)
  | cs => (digits? cs).map fun n => (n : ℤ)

theorem isDigit_of_mem_repr {n : ℕ} {c : Char} (h : c ∈ n.repr.toList) : c.isDigit = true := by
  rw [Nat.toList_repr] at h
  exact Nat.isDigit_of_mem_toDigits (by decide) (by decide) h

@[simp] theorem digits?_repr (n : ℕ) : digits? n.repr.toList = some n := by
  rw [digits?, if_pos, Nat.toList_repr, Nat.ofDigitChars_ten_toDigits]
  refine ⟨?_, List.all_eq_true.2 fun c hc => isDigit_of_mem_repr hc⟩
  rw [Nat.toList_repr]
  exact Nat.toDigits_ne_nil

/-- An integer's numeral is read back as the integer. -/
@[simp] theorem numeral?_numeral (i : ℤ) : numeral? (numeral i) = some i := by
  cases i with
  | ofNat n =>
    unfold numeral? numeral
    split
    · rename_i cs heq
      have := isDigit_of_mem_repr (n := n) (c := '-') (by rw [heq]; simp)
      simp at this
    · rw [digits?_repr]
      rfl
  | negSucc n =>
    have hlist : (numeral (.negSucc n)).toList = '-' :: (n + 1).repr.toList := by
      rw [numeral, String.toList_append]
      rfl
    rw [numeral?, hlist]
    simp only [digits?_repr]
    rfl

theorem numeral_injective {i j : ℤ} (h : numeral i = numeral j) : i = j := by
  have := congrArg numeral? h
  simpa using this

/-- The characters of a numeral are digits, behind a sign. -/
theorem mem_numeral {i : ℤ} {c : Char} (h : c ∈ (numeral i).toList) :
    c = '-' ∨ c.isDigit = true := by
  cases i with
  | ofNat n => exact Or.inr (isDigit_of_mem_repr h)
  | negSucc n =>
    rw [numeral, String.toList_append, List.mem_append] at h
    rcases h with h | h
    · left
      simpa using h
    · exact Or.inr (isDigit_of_mem_repr h)

theorem numeral_ne_of_numeral? {i : ℤ} {text : String} (h : numeral? text = none) :
    numeral i ≠ text := by
  rintro rfl
  simp at h

theorem plain_numeral (i : ℤ) : Plain (numeral i) := by
  refine plain_of_not_specials (numeral_ne_of_numeral? (by decide)) ?_
  intro c hc hspecial
  simp only [specials, List.mem_cons, List.not_mem_nil, or_false] at hspecial
  rcases mem_numeral hc with rfl | hdigit
  · simp at hspecial
  · rcases hspecial with rfl | rfl | rfl | rfl | rfl | rfl <;> simp at hdigit

/-! ## Numbers

A comparison reads its operands as the C library does: blanks, a sign, digits
with a point among them, and an exponent. What stands behind is not looked
at. A fraction is rounded to a double; whole numbers, the lengths and positions
of lists among them, are kept as they are. -/

/-- A number that a comparison works on. -/
inductive Number where
  | fraction (numerator : ℤ) (denominator : ℕ)
  | infinite (negative : Bool)
  deriving DecidableEq, Repr

namespace Number

def equal : Number → Number → Bool
  | fraction a b, fraction c d => decide (a * d = c * b)
  | infinite n, infinite m => n == m
  | _, _ => false

def less : Number → Number → Bool
  | fraction a b, fraction c d => decide (a * d < c * b)
  | infinite n, infinite m => n && !m
  | infinite n, fraction _ _ => n
  | fraction _ _, infinite n => !n

/-- A whole number. -/
def whole (i : ℤ) : Number := fraction i 1

@[simp] theorem equal_whole (i j : ℤ) : (whole i).equal (whole j) = decide (i = j) := by
  simp [whole, equal]

@[simp] theorem less_whole (i j : ℤ) : (whole i).less (whole j) = decide (i < j) := by
  simp [whole, less]

end Number

/-- A sign, and what is behind it. -/
def readSign : List Char → Bool × List Char
  | '-' :: cs => (true, cs)
  | '+' :: cs => (false, cs)
  | cs => (false, cs)

/-- The exponent behind its mark, if there is one. -/
def readExponent (mark : Char) : List Char → ℤ
  | c :: cs =>
    if c.toLower = mark then
      let (negative, cs) := readSign cs
      let e : ℤ := Nat.ofDigitChars 10 (cs.takeWhile Char.isDigit) 0
      if negative then -e else e
    else 0
  | [] => 0

/-- The number that a sequence of digits spells in a base. -/
def digitsValue (base : ℕ) (cs : List Char) : ℕ :=
  cs.foldl (fun n c => base * n + (if c.isDigit then c.toNat - 48 else c.toLower.toNat - 87)) 0

/-- A number without a sign, with its exponent to another base. -/
def readMagnitude (base radix : ℕ) (digit : Char → Bool) (mark : Char) (cs : List Char) :
    Option (ℕ × ℕ) :=
  let front := cs.takeWhile digit
  let rest := cs.dropWhile digit
  let (behind, rest) := match rest with
    | '.' :: rest => (rest.takeWhile digit, rest.dropWhile digit)
    | rest => ([], rest)
  if front ++ behind = [] then none
  else
    let e := readExponent mark rest
    some (digitsValue base (front ++ behind) * radix ^ e.toNat,
      base ^ behind.length * radix ^ (-e).toNat)

def isHexDigit (c : Char) : Bool := c.isDigit || decide ('a' ≤ c.toLower ∧ c.toLower ≤ 'f')

/-- A number without a sign, which may be hexadecimal. A hexadecimal mark with
nothing behind it is none. -/
def readUnsigned : List Char → Option (ℕ × ℕ)
  | '0' :: x :: cs =>
    if x = 'x' ∨ x = 'X' then
      readMagnitude 16 2 isHexDigit 'p' cs <|> if cs.head? = some '.' then some (0, 1) else none
    else readMagnitude 10 10 Char.isDigit 'e' ('0' :: x :: cs)
  | cs => readMagnitude 10 10 Char.isDigit 'e' cs

/-- The whole number next to a fraction, the even one of two. -/
def roundHalfEven (n d : ℕ) : ℕ :=
  if 2 * (n % d) < d then n / d
  else if d < 2 * (n % d) then n / d + 1
  else n / d + n / d % 2

/-- **The double next to a fraction**: at most 53 binary digits, and none behind
the 1074th place. -/
def nearestDouble (n d : ℕ) : ℕ × ℕ :=
  if n % d = 0 then (n, d)
  else
    let shift := Nat.log2 (n * 2 ^ 1074 / d) - 52
    (roundHalfEven (n * 2 ^ 1074) (d * 2 ^ shift) * 2 ^ shift, 2 ^ 1074)

@[simp] theorem nearestDouble_one (n : ℕ) : nearestDouble n 1 = (n, 1) := by
  rw [nearestDouble, if_pos (Nat.mod_one n)]

/-- The blanks in front of a number. -/
def isBlank (c : Char) : Bool := c.isWhitespace || decide (c ∈ ['\x0b', '\x0c'])

/-- The text begins with the name of an infinite number, and with no part of
the long one. -/
def readsInfinite (cs : List Char) : Bool :=
  let lower := cs.map Char.toLower
  "infinity".toList.isPrefixOf lower ||
    ("inf".toList.isPrefixOf lower && !"infi".toList.isPrefixOf lower)

/-- **The number at the start of a text**, as `sscanf("%lg")` finds it. -/
def number? (text : String) : Option Number :=
  let (negative, cs) := readSign (text.toList.dropWhile isBlank)
  match readUnsigned cs with
  | some (n, d) =>
    let (n, d) := nearestDouble n d
    some (.fraction (if negative then -n else n) d)
  | none => if readsInfinite cs then some (.infinite negative) else none

example : (number? " 1.50apples").map (Number.less (.whole 1)) = some true := by decide +kernel

example : (number? "-1e-400").map (Number.equal (.whole 0)) = some true := by decide +kernel

theorem digitsValue_digits {cs : List Char} (h : ∀ c ∈ cs, c.isDigit = true) :
    digitsValue 10 cs = Nat.ofDigitChars 10 cs 0 := by
  rw [digitsValue, Nat.ofDigitChars_eq_foldl]
  refine List.foldl_ext _ _ _ fun n c hc => ?_
  rw [if_pos (h c hc)]
  rfl

theorem readMagnitude_digits {cs : List Char} (hne : cs ≠ []) (h : ∀ c ∈ cs, c.isDigit = true) :
    readMagnitude 10 10 Char.isDigit 'e' cs = some (Nat.ofDigitChars 10 cs 0, 1) := by
  have htake : cs.takeWhile Char.isDigit = cs := List.takeWhile_eq_self_iff.2 h
  have hdrop : cs.dropWhile Char.isDigit = [] := List.dropWhile_eq_nil_iff.2 h
  unfold readMagnitude
  simp only [htake, hdrop, List.append_nil, if_neg hne, digitsValue_digits h, readExponent]
  simp

theorem readUnsigned_digits {cs : List Char} (hne : cs ≠ []) (h : ∀ c ∈ cs, c.isDigit = true) :
    readUnsigned cs = some (Nat.ofDigitChars 10 cs 0, 1) := by
  unfold readUnsigned
  split
  · rename_i x digits
    have hx : x.isDigit = true := h x (by simp)
    have hletter : ¬(x = 'x' ∨ x = 'X') := by
      rintro (rfl | rfl) <;> exact absurd hx (by decide)
    rw [if_neg hletter, readMagnitude_digits hne h]
  · exact readMagnitude_digits hne h

/-- **A numeral is read as its integer.** -/
@[simp] theorem number?_numeral (i : ℤ) : number? (numeral i) = some (.whole i) := by
  have hrepr : ∀ n : ℕ, readUnsigned n.repr.toList = some (n, 1) := by
    intro n
    rw [readUnsigned_digits, Nat.toList_repr, Nat.ofDigitChars_ten_toDigits]
    · rw [Nat.toList_repr]
      exact Nat.toDigits_ne_nil
    · exact fun c hc => isDigit_of_mem_repr hc
  cases i with
  | ofNat n =>
    -- the first character is a digit, neither blank nor sign
    obtain ⟨c, cs, hcs⟩ : ∃ c cs, n.repr.toList = c :: cs :=
      List.exists_cons_of_ne_nil (by rw [Nat.toList_repr]; exact Nat.toDigits_ne_nil)
    have hc : c.isDigit = true := isDigit_of_mem_repr (n := n) (by rw [hcs]; simp)
    have hblank : isBlank c = false := by
      rw [Bool.eq_false_iff]
      intro h
      simp only [isBlank, Char.isWhitespace, Bool.or_eq_true, decide_eq_true_eq, List.mem_cons,
        List.not_mem_nil, or_false] at h
      rcases h with (((rfl | rfl) | rfl) | rfl) | (rfl | rfl) <;> exact absurd hc (by decide)
    have hsign : readSign n.repr.toList = (false, n.repr.toList) := by
      rw [hcs]
      unfold readSign
      split <;> simp_all
    unfold number? numeral
    rw [hcs, List.dropWhile_cons_of_neg (by simp [hblank]), ← hcs, hsign]
    simp only [hrepr, nearestDouble_one]
    rfl
  | negSucc n =>
    have hlist : (numeral (.negSucc n)).toList = '-' :: (n + 1).repr.toList := by
      rw [numeral, String.toList_append]
      rfl
    unfold number?
    rw [hlist, List.dropWhile_cons_of_neg (by decide), readSign]
    simp only [hrepr, nearestDouble_one]
    rfl

end CMake

end Supercell
