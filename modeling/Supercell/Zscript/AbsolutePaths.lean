import Supercell.CMake.Holds
import Supercell.CMake.Path
import Mathlib.Data.List.Forall2

/-!
# Absolute paths of a list

`ZilliansCommonUtility.cmake`: `foreach_make_absolute_path` replaces the files
of a list by their absolute paths, and should leave those alone that are
absolute already. Its condition reads `__file`, where its loop runs over
`__file_in_list`, so it asks about a variable of the caller.

A call turns out well if the condition lets no relative file stand. That is said of
the scope of the caller and the files alone, in two ways: for every condition
(`Spared`), and for those that read none of the macro's own variables
(`foreachMakeAbsolutePath_iff` and `makesAbsolute_iff`).
-/

namespace Supercell

namespace Zscript

open CMake CMake.Scope

section Macro

variable (dir : String) (evalIf : Scope → List String → Except Stop Bool)

/-! ## The macro -/

/-- `if(IS_ABSOLUTE ${__file})`. Without a word behind it, `IS_ABSOLUTE` is a
word like any other; with several, the condition is of a form of its own, and
what comes of it is left open. -/
def fileIsAbsolute (s : Scope) : Except Stop Bool :=
  match s.expand "__file" with
  | [] => .ok (s.truthy "IS_ABSOLUTE")
  | [w] => do return isAbsolute (← Scope.word [w])
  | words => evalIf s ("IS_ABSOLUTE" :: words)

/-- One file of the list. -/
def absoluteRound (s : Scope) : Except Stop Scope := do
  if ← fileIsAbsolute evalIf s then
    return s.listAppend "__list_of_absolute_files" (s.expand "__file_in_list")
  else
    let s ← s.getFilenameComponent "__abs_file_in_list" (absolutePath dir)
      (s.expand "__file_in_list")
    return s.listAppend "__list_of_absolute_files" (s.expand "__abs_file_in_list")

/-- **`foreach_make_absolute_path`**, in a source directory. -/
def foreachMakeAbsolutePath (s : Scope) (list_of_files : String) : Except Stop Scope := do
  let s := s.assign "__list_of_absolute_files" ""
  let s ← foreach s "__file_in_list" (s.list list_of_files) (absoluteRound dir evalIf)
  s.set list_of_files (s.expand "__list_of_absolute_files")

/-! ## What the macro is for -/

/-- The first path is absolute, and the second one up to normalisation. -/
def AbsoluteForm (e f : String) : Prop :=
  isAbsolute e = true ∧ absolutePath dir e = absolutePath dir f

/-- **Every file becomes absolute**, in its place, and a second call changes
nothing. -/
def MakesAbsolute (s : Scope) (x : String) : Prop :=
  Returns (foreachMakeAbsolutePath dir evalIf s x) fun t =>
    List.Forall₂ (AbsoluteForm dir) (t.list x) (s.list x) ∧
      Returns (foreachMakeAbsolutePath dir evalIf t x) fun u => u x = t x

/-- The scope that the condition is asked in: of the caller's variables three are the
macro's own, a file, what stands for the files in front of it, and the last of these
that was looked up. -/
def asked (s : Scope) (done : List String) (last : Option String) (file : String) : Scope := fun y =>
  if y = "__file_in_list" then some file
  else if y = "__list_of_absolute_files" then some (joined done)
  else if y = "__abs_file_in_list" then last
  else s y

/-- **The condition lets no relative file stand.** It is asked about files that stand
behind others, and lets some stand and has some looked up. -/
inductive Spared (s : Scope) :
    List String → Option String → List String → List String → Option String → Prop
  | nil {done : List String} {last : Option String} : Spared s done last [] [] last
  | kept {done fs es : List String} {last last' : Option String} {f : String}
      (asks : fileIsAbsolute evalIf (asked s done last f) = .ok true) (absolute : isAbsolute f = true)
      (rest : Spared s (done ++ [f]) last fs es last') : Spared s done last (f :: fs) (f :: es) last'
  | lookedUp {done fs es : List String} {last last' : Option String} {f : String}
      (asks : fileIsAbsolute evalIf (asked s done last f) = .ok false)
      (rest : Spared s (done ++ [absolutePath dir f]) (some (absolutePath dir f)) fs es last') :
      Spared s done last (f :: fs) (absolutePath dir f :: es) last'

end Macro

/-! ## The rounds -/

variable {dir : String} {evalIf : Scope → List String → Except Stop Bool} {s t u : Scope}
  {x f : String} {files done es : List String} {last last' : Option String}

/-- The variables of the macro. -/
def absoluteScratch : List String :=
  ["__list_of_absolute_files", "__file_in_list", "__abs_file_in_list"]

/-- A file, and what the macro may put in its place. -/
def Listed (dir f : String) : Prop := Word f ∧ Word (absolutePath dir f)

/-- Looking absolute paths up again changes nothing. -/
theorem map_map_absolutePath (dir : String) (files : List String) :
    (files.map (absolutePath dir)).map (absolutePath dir) = files.map (absolutePath dir) := by
  rw [List.map_map]
  refine List.map_congr_left fun f _ => ?_
  rw [Function.comp_apply, absolutePath_absolutePath]

theorem Listed.absolutePath (h : Listed dir f) : Listed dir (absolutePath dir f) :=
  ⟨h.2, by rw [absolutePath_absolutePath]; exact h.2⟩

theorem asked_agreesOff (s : Scope) (done : List String) (last : Option String) (f : String) :
    AgreesOff absoluteScratch s (asked s done last f) := by
  intro y hy
  simp only [absoluteScratch, List.mem_cons, List.not_mem_nil, or_false, not_or] at hy
  rw [asked, if_neg hy.2.1, if_neg hy.1, if_neg hy.2.2]

/-- **Between two rounds**: with any file, the scope is the one that the condition is
asked in. -/
def Collected (s : Scope) (done : List String) (last : Option String) (t : Scope) : Prop :=
  (∀ w ∈ done, Word w) ∧ ∀ f, t.assign "__file_in_list" f = asked s done last f

/-- `list(APPEND)` of one file. -/
theorem listAppend_asked (hdone : ∀ w ∈ done, Word w) {w : String} (hw : Word w) :
    (asked s done last f).listAppend "__list_of_absolute_files" [w] =
      (asked s done last f).assign "__list_of_absolute_files" (joined (done ++ [w])) := by
  have hholds : (asked s done last f).Holds "__list_of_absolute_files" done := by
    refine ⟨?_, hdone⟩
    rw [Scope.value, asked, if_neg (by decide), if_pos rfl]
    rfl
  have htext := (hholds.listAppend [w] (by simpa using hw)).text
  rw [listAppend, if_neg (List.cons_ne_nil w []), value_assign_self] at htext
  rw [listAppend, if_neg (List.cons_ne_nil w []), htext]

theorem Collected.assign (h : Collected s done last t) {w : String} (hw : Word w) :
    Collected s (done ++ [w]) last
      ((asked s done last f).assign "__list_of_absolute_files" (joined (done ++ [w]))) := by
  refine ⟨fun v hv => ?_, fun g => funext fun y => ?_⟩
  · rcases List.mem_append.1 hv with hv | hv
    · exact h.1 v hv
    · rwa [List.mem_singleton.1 hv]
  · simp only [asked, Scope.assign, Function.update_apply]
    split_ifs <;> rfl

/-- **A round whose condition holds** lets the file stand. -/
theorem Collected.kept (dir : String) (h : Collected s done last t) (hf : Word f)
    (hasks : fileIsAbsolute evalIf (asked s done last f) = .ok true) :
    Returns (absoluteRound dir evalIf (t.assign "__file_in_list" f))
      (Collected s (done ++ [f]) last) := by
  have hexpand : (asked s done last f).expand "__file_in_list" = [f] :=
    expand_of_value_eq (by rw [Scope.value, asked, if_pos rfl]; rfl) hf
  rw [absoluteRound, h.2, hasks, ok_bind, if_pos rfl, hexpand, listAppend_asked h.1 hf]
  exact Returns.ok (h.assign hf)

/-- **A round whose condition does not** looks it up. -/
theorem Collected.lookedUp (h : Collected s done last t) (hf : Listed dir f)
    (hasks : fileIsAbsolute evalIf (asked s done last f) = .ok false) :
    Returns (absoluteRound dir evalIf (t.assign "__file_in_list" f))
      (Collected s (done ++ [absolutePath dir f]) (some (absolutePath dir f))) := by
  let e := absolutePath dir f
  have hexpand : (asked s done last f).expand "__file_in_list" = [f] :=
    expand_of_value_eq (by rw [Scope.value, asked, if_pos rfl]; rfl) hf.1
  have hassign : (asked s done last f).assign "__abs_file_in_list" e = asked s done (some e) f := by
    funext y
    simp only [asked, Scope.assign, Function.update_apply]
    split_ifs with habs hfile hlist
    · exact absurd (habs ▸ hfile) (by decide)
    · exact absurd (habs ▸ hlist) (by decide)
    all_goals rfl
  have hlookup : (asked s done (some e) f).expand "__abs_file_in_list" = [e] := by
    refine expand_of_value_eq ?_ hf.2
    rw [Scope.value, asked, if_neg (by decide), if_neg (by decide), if_pos rfl]
    rfl
  have hcollected : Collected s done (some e) ((asked s done (some e) f)) := by
    refine ⟨h.1, fun g => funext fun y => ?_⟩
    simp only [asked, Scope.assign, Function.update_apply]
    split_ifs <;> rfl
  rw [absoluteRound, h.2, hasks, ok_bind, if_neg Bool.false_ne_true, hexpand, getFilenameComponent,
    ok_bind, hassign, hlookup, listAppend_asked h.1 hf.2]
  exact Returns.ok (hcollected.assign hf.2)

/-- The rounds over some files. -/
def absoluteRounds (dir : String) (evalIf : Scope → List String → Except Stop Bool) (s : Scope)
    (files : List String) : Except Stop Scope :=
  files.foldlM (fun t f => absoluteRound dir evalIf (t.assign "__file_in_list" f)) s

/-- **Where the condition lets no relative file stand**, the rounds collect what it
chooses. -/
theorem Spared.rounds (h : Spared dir evalIf s done last files es last')
    (hfiles : ∀ f ∈ files, Listed dir f) (ht : Collected s done last t) :
    Returns (absoluteRounds dir evalIf t files) (Collected s (done ++ es) last') := by
  induction h generalizing t with
  | nil => exact Returns.ok (by rwa [List.append_nil])
  | kept hasks _ _ ih =>
    obtain ⟨u, hu, hcollected⟩ := ht.kept dir (hfiles _ List.mem_cons_self).1 hasks
    have hrest := ih (fun g hg => hfiles g (List.mem_cons_of_mem _ hg)) hcollected
    rwa [absoluteRounds, List.foldlM_cons, hu, ok_bind, ← List.singleton_append, ← List.append_assoc]
  | lookedUp hasks _ ih =>
    obtain ⟨u, hu, hcollected⟩ := ht.lookedUp (hfiles _ List.mem_cons_self) hasks
    have hrest := ih (fun g hg => hfiles g (List.mem_cons_of_mem _ hg)) hcollected
    rwa [absoluteRounds, List.foldlM_cons, hu, ok_bind, ← List.singleton_append, ← List.append_assoc]

/-- It chooses absolute paths. -/
theorem Spared.forms (h : Spared dir evalIf s done last files es last') :
    List.Forall₂ (AbsoluteForm dir) es files := by
  induction h with
  | nil => exact .nil
  | kept _ habsolute _ ih => exact .cons ⟨habsolute, rfl⟩ ih
  | lookedUp _ _ ih =>
    exact .cons ⟨isAbsolute_absolutePath dir _, absolutePath_absolutePath dir _⟩ ih

/-- **Rounds that return** have collected each file or its absolute path, and if all
of it is absolute, the condition let no relative file stand. -/
theorem exists_of_absoluteRounds (hfiles : ∀ f ∈ files, Listed dir f)
    (ht : Collected s done last t) (h : absoluteRounds dir evalIf t files = .ok u) :
    ∃ es last', Collected s (done ++ es) last' u ∧
      List.Forall₂ (fun e f => e = f ∨ e = absolutePath dir f) es files ∧
      (List.Forall₂ (AbsoluteForm dir) es files →
        Spared dir evalIf s done last files es last') := by
  induction files generalizing t done last with
  | nil =>
    obtain rfl : t = u := Except.ok.inj h
    exact ⟨[], last, by rwa [List.append_nil], .nil, fun _ => .nil⟩
  | cons f fs ih =>
    rw [absoluteRounds, List.foldlM_cons] at h
    obtain ⟨v, hv, hrest⟩ := bind_eq_ok_iff.1 h
    have hf := hfiles f List.mem_cons_self
    obtain ⟨b, hb, -⟩ := bind_eq_ok_iff.1 (ht.2 f ▸ hv : absoluteRound dir evalIf _ = .ok v)
    cases b with
    | true =>
      obtain ⟨v', hv', hcollected⟩ := ht.kept dir hf.1 hb
      obtain rfl := Except.ok.inj (hv'.symm.trans hv)
      obtain ⟨es, last', hes, hchosen, hspared⟩ := ih
        (fun g hg => hfiles g (List.mem_cons_of_mem f hg)) hcollected hrest
      refine ⟨f :: es, last', by simpa using hes, .cons (.inl rfl) hchosen, fun hforms => ?_⟩
      rw [List.forall₂_cons] at hforms
      exact .kept hb hforms.1.1 (hspared hforms.2)
    | false =>
      obtain ⟨v', hv', hcollected⟩ := ht.lookedUp hf hb
      obtain rfl := Except.ok.inj (hv'.symm.trans hv)
      obtain ⟨es, last', hes, hchosen, hspared⟩ := ih
        (fun g hg => hfiles g (List.mem_cons_of_mem f hg)) hcollected hrest
      refine ⟨absolutePath dir f :: es, last', by simpa using hes, .cons (.inr rfl) hchosen,
        fun hforms => .lookedUp hb (hspared ?_)⟩
      rw [List.forall₂_cons] at hforms
      exact hforms.2

/-! ## The whole macro -/

/-- The scope that a call leaves behind. -/
def collectedIn (s : Scope) (x : String) (es : List String) (last : Option String) : Scope :=
  let v := asked s es last (s.value "__file_in_list")
  if es = [] then v.unset x else v.assign x (joined es)

theorem foreachMakeAbsolutePath_eq (hx : x ∉ absoluteScratch) :
    foreachMakeAbsolutePath dir evalIf s x =
      absoluteRounds dir evalIf (s.assign "__list_of_absolute_files" "") (s.list x) >>= fun t =>
        (t.assign "__file_in_list" (s.value "__file_in_list")).set x
          ((t.assign "__file_in_list" (s.value "__file_in_list")).expand
            "__list_of_absolute_files") := by
  have hframe : AgreesOff absoluteScratch s (s.assign "__list_of_absolute_files" "") :=
    (AgreesOff.refl _ s).assign (by decide) _
  have hlist : (s.assign "__list_of_absolute_files" "").list x = s.list x := by
    rw [Scope.list, Scope.list, hframe.value hx]
  have hvalue : (s.assign "__list_of_absolute_files" "").value "__file_in_list" =
      s.value "__file_in_list" := value_assign_of_ne _ (by decide) _
  unfold foreachMakeAbsolutePath foreach absoluteRounds
  rw [bind_assoc]
  simp only [hlist, hvalue]
  rfl

/-- The rounds start with nothing collected. -/
theorem collected_nil (s : Scope) :
    Collected s [] (s "__abs_file_in_list") (s.assign "__list_of_absolute_files" "") := by
  refine ⟨by simp, fun f => funext fun y => ?_⟩
  simp only [asked, Scope.assign, Function.update_apply]
  split_ifs with hfile hlist habs
  · rfl
  · rfl
  · rw [habs]
  · rfl

/-- The list that is collected. -/
theorem expand_asked (hes : ∀ w ∈ es, Word w) (f : String) :
    (asked s es last f).expand "__list_of_absolute_files" = es := by
  refine Holds.expand ⟨?_, hes⟩
  rw [Scope.value, asked, if_neg (by decide), if_pos rfl]
  rfl

/-- Absolute paths are no keywords of `set`. -/
theorem settable_of_isAbsolute (h : ∀ e ∈ es, isAbsolute e = true) : Settable es :=
  settable_of_notMem (fun hmem => absurd (h _ hmem) (by decide))
    (fun hmem => absurd (h _ hmem) (by decide))

theorem isAbsolute_of_forms (h : List.Forall₂ (AbsoluteForm dir) es files) :
    ∀ e ∈ es, isAbsolute e = true := by
  induction h with
  | nil => simp
  | cons hform _ ih =>
    rw [List.forall_mem_cons]
    exact ⟨hform.1, ih⟩

/-- **A call whose condition lets no relative file stand.** -/
theorem Spared.returns (h : Spared dir evalIf s [] (s "__abs_file_in_list") (s.list x) es last)
    (hx : x ∉ absoluteScratch) (hfiles : ∀ f ∈ s.list x, Listed dir f) :
    foreachMakeAbsolutePath dir evalIf s x = .ok (collectedIn s x es last) ∧ ∀ e ∈ es, Word e := by
  obtain ⟨t, ht, hwords, hasked⟩ := h.rounds hfiles (collected_nil s)
  rw [List.nil_append] at hwords hasked
  refine ⟨?_, hwords⟩
  rw [foreachMakeAbsolutePath_eq hx, ht, ok_bind, hasked, expand_asked hwords,
    (settable_of_isAbsolute (isAbsolute_of_forms h.forms)).set]
  rfl

/-- **A call that returns** has chosen each file or its absolute path, and if absolute
paths are left behind, the condition let no relative file stand. -/
theorem exists_of_eq_ok (hx : x ∉ absoluteScratch) (hfiles : ∀ f ∈ s.list x, Listed dir f)
    (h : foreachMakeAbsolutePath dir evalIf s x = .ok t) :
    ∃ es last, List.Forall₂ (fun e f => e = f ∨ e = absolutePath dir f) es (s.list x) ∧
      (∀ w ∈ es, Word w) ∧ (asked s es last (s.value "__file_in_list")).set x es = .ok t ∧
        (List.Forall₂ (AbsoluteForm dir) es (s.list x) →
          Spared dir evalIf s [] (s "__abs_file_in_list") (s.list x) es last) := by
  rw [foreachMakeAbsolutePath_eq hx] at h
  obtain ⟨v, hv, hset⟩ := bind_eq_ok_iff.1 h
  obtain ⟨es, last, ⟨hwords, hasked⟩, hchosen, hspared⟩ :=
    exists_of_absoluteRounds hfiles (collected_nil s) hv
  rw [List.nil_append] at hwords hasked
  rw [hasked, expand_asked hwords] at hset
  exact ⟨es, last, hchosen, hwords, hset, hspared⟩

theorem list_collectedIn (hes : ∀ w ∈ es, Word w) (s : Scope) (x : String)
    (last : Option String) : (collectedIn s x es last).list x = es := by
  rw [collectedIn]
  split
  · rename_i hnil
    rw [hnil]
    exact Holds.of_unset.list
  · exact (Holds.of_assign hes).list

/-- A file that stands, or is looked up, is absolute if all files are. -/
theorem forms_of_chosen (h : List.Forall₂ (fun e f => e = f ∨ e = absolutePath dir f) es files)
    (hfiles : ∀ f ∈ files, isAbsolute f = true) : List.Forall₂ (AbsoluteForm dir) es files := by
  induction h with
  | nil => exact .nil
  | cons hchosen _ ih =>
    rw [List.forall_mem_cons] at hfiles
    refine .cons ?_ (ih hfiles.2)
    rcases hchosen with rfl | rfl
    · exact ⟨hfiles.1, rfl⟩
    · exact ⟨isAbsolute_absolutePath dir _, absolutePath_absolutePath dir _⟩

/-- **A call that leaves absolute paths behind** is one whose condition let no relative
file stand. -/
theorem exists_spared (hx : x ∉ absoluteScratch) (hfiles : ∀ f ∈ s.list x, Listed dir f)
    (h : foreachMakeAbsolutePath dir evalIf s x = .ok t)
    (ht : List.Forall₂ (AbsoluteForm dir) (t.list x) (s.list x)) :
    ∃ es last, Spared dir evalIf s [] (s "__abs_file_in_list") (s.list x) es last := by
  obtain ⟨es, last, hchosen, hwords, hset, hspared⟩ := exists_of_eq_ok hx hfiles h
  refine ⟨es, last, hspared ?_⟩
  unfold Scope.set at hset
  split_ifs at hset with hnil hscope hcache
  · rw [hnil] at hchosen ⊢
    rw [List.forall₂_nil_left_iff.1 hchosen]
    exact .nil
  · -- the list was put into the scope above, and here it is as it was
    obtain rfl := Except.ok.inj hset
    have hkept : (asked s es last (s.value "__file_in_list")).list x = s.list x := by
      rw [Scope.list, Scope.list, (asked_agreesOff s es last _).value hx]
    rw [hkept] at ht
    exact forms_of_chosen hchosen (isAbsolute_of_forms ht)
  · obtain rfl := Except.ok.inj hset
    rwa [(Holds.of_assign hwords).list] at ht

theorem collectedIn_self (s : Scope) (x : String) (es : List String) (last : Option String) :
    collectedIn s x es last x = if es = [] then none else some (joined es) := by
  rw [collectedIn]
  split
  · exact unset_self _ _
  · exact assign_self _ _ _

/-- The scope in which the condition of a second call is asked. -/
theorem asked_collectedIn (hes : es ≠ []) (done : List String)
    (last₂ : Option String) (f : String) :
    asked (collectedIn s x es last) done last₂ f = asked (s.assign x (joined es)) done last₂ f := by
  funext y
  rw [collectedIn, if_neg hes]
  simp only [asked, Scope.assign, Function.update_apply]
  split_ifs <;> rfl

theorem Spared.congr (h : Spared dir evalIf s done last files es last')
    (hst : ∀ done last f, asked t done last f = asked s done last f) :
    Spared dir evalIf t done last files es last' := by
  induction h with
  | nil => exact .nil
  | kept hasks habsolute _ ih => exact .kept (hst _ _ _ ▸ hasks) habsolute ih
  | lookedUp hasks _ ih => exact .lookedUp (hst _ _ _ ▸ hasks) ih

/-- The files of a list that a call left behind. -/
theorem Spared.listed (h : Spared dir evalIf s done last files es last')
    (hfiles : ∀ f ∈ files, Listed dir f) : ∀ e ∈ es, Listed dir e := by
  induction h with
  | nil => simp
  | kept _ _ _ ih =>
    rw [List.forall_mem_cons] at hfiles ⊢
    exact ⟨hfiles.1, ih hfiles.2⟩
  | lookedUp _ _ ih =>
    rw [List.forall_mem_cons] at hfiles ⊢
    exact ⟨hfiles.1.absolutePath, ih hfiles.2⟩

/-- **The macro does what it is for** where its condition lets no relative file stand,
and of the paths that it leaves behind, nothing is looked up that was not normal. -/
theorem makesAbsolute_iff_spared (hx : x ∉ absoluteScratch) (hfiles : ∀ f ∈ s.list x, Listed dir f) :
    MakesAbsolute dir evalIf s x ↔ ∃ es last last',
      Spared dir evalIf s [] (s "__abs_file_in_list") (s.list x) es last ∧
        Spared dir evalIf (s.assign x (joined es)) [] last es es last' := by
  have hlast : ∀ es last, collectedIn s x es last "__abs_file_in_list" = last := by
    intro es last
    have hne : "__abs_file_in_list" ≠ x := fun h => hx (h ▸ by decide)
    rw [collectedIn]
    split
    · rw [unset_of_ne _ hne, asked, if_neg (by decide), if_neg (by decide), if_pos rfl]
    · rw [assign_of_ne _ hne, asked, if_neg (by decide), if_neg (by decide), if_pos rfl]
  constructor
  · intro h
    obtain ⟨t, ht, hforms, u, hu, hux⟩ := h
    obtain ⟨es, last, hspared⟩ := exists_spared hx hfiles ht hforms
    obtain ⟨hcall, hwords⟩ := hspared.returns hx hfiles
    obtain rfl := Except.ok.inj (ht.symm.trans hcall)
    have hlist := list_collectedIn hwords s x last
    have hlisted := hspared.listed hfiles
    by_cases hnil : es = []
    · subst hnil
      exact ⟨[], last, last, hspared, .nil⟩
    rw [← hlist] at hlisted
    obtain ⟨es₂, last₂, hchosen, hwords₂, hset, hspared₂⟩ := exists_of_eq_ok hx hlisted hu
    rw [hlist] at hchosen hspared₂
    have hforms₂ := forms_of_chosen hchosen (isAbsolute_of_forms hspared.forms)
    -- the second call leaves the same list behind
    have hsame : es₂ = es := by
      rw [(settable_of_isAbsolute (isAbsolute_of_forms hforms₂)).set] at hset
      have hulist : u.list x = es₂ := by
        rw [← Except.ok.inj hset]
        exact list_collectedIn hwords₂ _ x last₂
      rw [← hulist, ← hlist, Scope.list, Scope.list, Scope.value, Scope.value, hux]
    refine ⟨es, last, last₂, hspared, ?_⟩
    have hagain := hspared₂ hforms₂
    rw [hsame, hlast] at hagain
    exact hagain.congr fun done last₂ f => (asked_collectedIn hnil done last₂ f).symm
  · rintro ⟨es, last, last', hspared, hagain⟩
    obtain ⟨hcall, hwords⟩ := hspared.returns hx hfiles
    have hlist := list_collectedIn hwords s x last
    refine ⟨_, hcall, hlist.symm ▸ hspared.forms, ?_⟩
    have hagain' : Spared dir evalIf (collectedIn s x es last) []
        (collectedIn s x es last "__abs_file_in_list") ((collectedIn s x es last).list x) es last' := by
      rw [hlist, hlast]
      by_cases hnil : es = []
      · subst hnil
        cases hagain
        exact .nil
      · exact hagain.congr fun done last₂ f => asked_collectedIn hnil done last₂ f
    obtain ⟨hcall', -⟩ := hagain'.returns hx (hlist.symm ▸ hspared.listed hfiles)
    exact ⟨_, hcall', (collectedIn_self _ x es last').trans (collectedIn_self s x es last).symm⟩

/-! ## A condition that says the same in every round -/

/-- One that never holds has all files looked up. -/
theorem exists_spared_of_false
    (hasks : ∀ done last f, fileIsAbsolute evalIf (asked s done last f) = .ok false) :
    ∃ last', Spared dir evalIf s done last files (files.map (absolutePath dir)) last' := by
  induction files generalizing done last with
  | nil => exact ⟨last, .nil⟩
  | cons f fs ih =>
    obtain ⟨last', hrest⟩ :=
      @ih (done ++ [absolutePath dir f]) (some (absolutePath dir f))
    exact ⟨last', .lookedUp (hasks done last f) hrest⟩

/-- One that always holds lets all stand. -/
theorem spared_of_true
    (hasks : ∀ done last f, fileIsAbsolute evalIf (asked s done last f) = .ok true)
    (hfiles : ∀ f ∈ files, isAbsolute f = true) : Spared dir evalIf s done last files files last := by
  induction files generalizing done with
  | nil => exact .nil
  | cons f fs ih =>
    rw [List.forall_mem_cons] at hfiles
    exact .kept (hasks done last f) hfiles.1 (ih hfiles.2)

/-- And there is no other way to let no relative file stand. -/
theorem Spared.of_asked {answer : Except Stop Bool}
    (h : Spared dir evalIf s done last files es last')
    (hasks : ∀ done last f, fileIsAbsolute evalIf (asked s done last f) = answer) :
    files = [] ∨ answer = .ok false ∨ answer = .ok true ∧ ∀ f ∈ files, isAbsolute f = true := by
  induction h with
  | nil => exact .inl rfl
  | kept hkept habsolute _ ih =>
    rw [hasks] at hkept
    rcases ih with rfl | hfalse | ⟨-, hall⟩
    · exact .inr (.inr ⟨hkept, by simpa using habsolute⟩)
    · exact .inr (.inl hfalse)
    · exact .inr (.inr ⟨hkept, List.forall_mem_cons.2 ⟨habsolute, hall⟩⟩)
  | lookedUp hlookedUp _ _ => exact .inr (.inl (hasks _ _ _ ▸ hlookedUp))

/-- **A condition that reads only what it names**, as `if` does. -/
def ReadsNamed (evalIf : Scope → List String → Except Stop Bool) : Prop :=
  ∀ s t words, (∀ w ∈ words, t w = s w) → evalIf t words = evalIf s words

/-- **A condition that the rounds do not touch**: neither the macro's variables nor the
list are in it. -/
structure Untouched (s : Scope) (x : String) : Prop where
  file : x ≠ "__file"
  word : x ≠ "IS_ABSOLUTE"
  words : 2 ≤ (s.expand "__file").length → ∀ w ∈ s.expand "__file", w ∉ x :: absoluteScratch

/-- It says the same in every round. -/
theorem fileIsAbsolute_congr (hevalIf : ReadsNamed evalIf) (h : Untouched s x)
    (ht : AgreesOff (x :: absoluteScratch) s t) :
    fileIsAbsolute evalIf t = fileIsAbsolute evalIf s := by
  have hfile : t "__file" = s "__file" := ht _ (by
    rw [List.mem_cons, not_or]
    exact ⟨h.file.symm, by decide⟩)
  have hword : t "IS_ABSOLUTE" = s "IS_ABSOLUTE" := ht _ (by
    rw [List.mem_cons, not_or]
    exact ⟨h.word.symm, by decide⟩)
  have hexpand : t.expand "__file" = s.expand "__file" := by
    rw [Scope.expand, Scope.expand, Scope.value, Scope.value, hfile]
  have htruthy : t.truthy "IS_ABSOLUTE" = s.truthy "IS_ABSOLUTE" := by
    rw [truthy, truthy, Scope.value, Scope.value, hword]
  have hwords := h.words
  unfold fileIsAbsolute
  rw [hexpand, htruthy]
  rcases hs : s.expand "__file" with _ | ⟨w, _ | ⟨v, ws⟩⟩
  · rfl
  · rfl
  · rw [hs] at hwords
    refine hevalIf s t _ fun y hy => ?_
    rcases List.mem_cons.1 hy with rfl | hy
    · exact hword
    · exact ht y (hwords (by simp) y hy)

/-- **The macro does what it is for** exactly where its condition does not hold, or
holds and no file is relative. -/
theorem makesAbsolute_iff_fileIsAbsolute (hevalIf : ReadsNamed evalIf) (h : Untouched s x)
    (hx : x ∉ absoluteScratch) (hfiles : ∀ f ∈ s.list x, Listed dir f) :
    MakesAbsolute dir evalIf s x ↔ s.list x = [] ∨ fileIsAbsolute evalIf s = .ok false ∨
      fileIsAbsolute evalIf s = .ok true ∧ ∀ f ∈ s.list x, isAbsolute f = true := by
  have hasked : ∀ {t}, AgreesOff (x :: absoluteScratch) s t → ∀ done last f,
      fileIsAbsolute evalIf (asked t done last f) = fileIsAbsolute evalIf s :=
    fun ht done last f => fileIsAbsolute_congr hevalIf h
      (ht.trans ((asked_agreesOff _ done last f).mono fun y hy => List.mem_cons_of_mem x hy))
  have hfirst := hasked (AgreesOff.refl _ s)
  have hsecond : ∀ es, AgreesOff (x :: absoluteScratch) s (s.assign x (joined es)) := fun es =>
    (AgreesOff.refl _ s).assign List.mem_cons_self _
  rw [makesAbsolute_iff_spared hx hfiles]
  constructor
  · rintro ⟨es, last, -, hspared, -⟩
    exact hspared.of_asked hfirst
  · rintro (hnil | hfalse | ⟨htrue, hall⟩)
    · rw [hnil]
      exact ⟨[], _, _, .nil, .nil⟩
    · obtain ⟨last, hspared⟩ := @exists_spared_of_false dir evalIf s (s.list x) []
        (s "__abs_file_in_list") fun done last f => (hfirst done last f).trans hfalse
      obtain ⟨last', hagain⟩ := @exists_spared_of_false dir evalIf
        (s.assign x (joined ((s.list x).map (absolutePath dir)))) ((s.list x).map (absolutePath dir))
        [] last fun done last f => (hasked (hsecond _) done last f).trans hfalse
      rw [map_map_absolutePath] at hagain
      exact ⟨_, _, _, hspared, hagain⟩
    · exact ⟨_, _, _, spared_of_true (fun done last f => (hfirst done last f).trans htrue) hall,
        spared_of_true (fun done last f => (hasked (hsecond _) done last f).trans htrue) hall⟩

/-! ## When every path becomes absolute -/

/-- **The name of a file** that CMake takes as it is: no path from a home
directory, no backslash, and what it becomes is one element of a list. -/
structure FileName (dir f : String) : Prop where
  listed : Listed dir f
  home : f.toList.head? ≠ some '~'
  backslash : '\\' ∉ f.toList

/-- **The call in a scope where nothing is in its way.** -/
theorem foreachMakeAbsolutePath_returns (evalIf : Scope → List String → Except Stop Bool)
    (hfile : s "__file" = none) (hword : s "IS_ABSOLUTE" = none) (hx : x ∉ absoluteScratch)
    (hs : s.Holds x files) (hfiles : ∀ f ∈ files, Listed dir f) :
    Returns (foreachMakeAbsolutePath dir evalIf s x) fun t =>
      t.Holds x (files.map (absolutePath dir)) ∧ AgreesOff (x :: absoluteScratch) s t := by
  have hasks : ∀ done last f,
      fileIsAbsolute evalIf (asked s done last f) = .ok false := by
    intro done last f
    have hframe := asked_agreesOff s done last f
    have hexpand : (asked s done last f).expand "__file" = [] := by
      rw [Scope.expand, Scope.value, hframe _ (by decide), hfile]
      decide
    have htruthy : (asked s done last f).truthy "IS_ABSOLUTE" = false := by
      rw [truthy, if_neg (by decide), if_neg (by decide), Scope.value, hframe _ (by decide), hword]
      decide
    rw [fileIsAbsolute, hexpand, htruthy]
  have hlist : s.list x = files := hs.list
  obtain ⟨last, hspared⟩ := @exists_spared_of_false dir evalIf s files []
    (s "__abs_file_in_list") hasks
  rw [← hlist] at hspared hfiles
  obtain ⟨hcall, hwords⟩ := hspared.returns hx hfiles
  rw [hlist] at hcall hwords
  refine ⟨_, hcall, ?_⟩
  generalize files.map (absolutePath dir) = es at hwords
  have hframe : AgreesOff (x :: absoluteScratch) s (asked s es last (s.value "__file_in_list")) :=
    (asked_agreesOff s es last _).mono fun y hy => List.mem_cons_of_mem x hy
  rw [collectedIn]
  split
  · rename_i hnil
    subst hnil
    exact ⟨Holds.of_unset, hframe.unset List.mem_cons_self⟩
  · exact ⟨Holds.of_assign hwords, hframe.assign List.mem_cons_self _⟩

/-- Conditions of several words that are refused. -/
def refused : Scope → List String → Except Stop Bool :=
  fun _ _ => .error (.fatal "Unknown arguments specified")

theorem readsNamed_refused : ReadsNamed refused := fun _ _ _ _ => rfl

/-- A caller with two files. -/
def filesScope : Scope := Scope.empty.assign "files" "a.cpp;/lib/./b.cpp"

end Zscript

end Supercell
