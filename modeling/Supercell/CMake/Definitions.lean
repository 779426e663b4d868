import Supercell.CMake.Process
import Mathlib.Data.List.DropRight

/-!
# CMake — definitions on a command line

`cmake -Dname=text -P script` has the script start with variables. A text that is
a list falls apart on its way: each of its elements is an argument of its own, and
the first one stays with the definition. Double quotes around the text are part of
it, unless a shell reads the command line and takes them for its own.
-/

namespace Supercell

namespace CMake

/-- A text without the blanks at its end. A text of blanks is left alone. -/
def trimEnd (cs : List Char) : List Char :=
  match cs.rdropWhile fun c => c == ' ' || c == '\t' with
  | [] => cs
  | trimmed => trimmed

/-- **The value of a definition**, as CMake reads it: the text without the blanks at
its end, and without single quotes around it. -/
def definitionValue (text : String) : String :=
  let cs := trimEnd text.toList
  if 2 ≤ cs.length ∧ cs.head? = some '\'' ∧ cs.getLast? = some '\'' then
    String.ofList cs.tail.dropLast
  else String.ofList cs

/-- A `-D` definition: a variable, the type that may stand behind it, and the
text. -/
structure Definition where
  name : String
  type : String
  text : String
  deriving DecidableEq, Repr

namespace Definition

/-- The value that the variable gets. -/
def value (d : Definition) : String := definitionValue d.text

/-- The argument that makes the definition. -/
def word (d : Definition) : String := "-D" ++ d.name ++ d.type ++ "=" ++ d.text

/-- `-Dname="text"` in a command line that a shell reads: the words that the text
gives, which stand there with a blank between them, between the two quotes, and
are delivered as one definition. -/
def quoted (name type text : String) : Definition where
  name := name
  type := type
  text := String.ofList (" ".intercalate (pieces ("\"" ++ text ++ "\""))).toList.tail.dropLast

end Definition

/-- `-Dname=text`, as arguments. -/
def definitionWords (name type text : String) : List String :=
  pieces ("-D" ++ name ++ type ++ "=" ++ text)

/-! ## Reading the arguments -/

/-- What stands behind the name of a variable: a type that is optional, an equals
sign and a text. -/
def readEntry (name : List Char) : List Char → Option Definition
  | '=' :: text => some ⟨String.ofList name, "", String.ofList text⟩
  | ':' :: rest =>
    match rest.dropWhile (· != '=') with
    | '=' :: text =>
      some ⟨String.ofList name, ":" ++ String.ofList (rest.takeWhile (· != '=')),
        String.ofList text⟩
    | _ => none
  | _ => none

/-- A character of a name without quotes. -/
def isEntryChar (c : Char) : Bool := c != ':' && c != '='

/-- A definition of a name in double quotes. -/
def readQuotedDefinition : List Char → Option Definition
  | '"' :: cs => readEntry (cs.takeWhile (· != '"')) (cs.dropWhile (· != '"')).tail
  | _ => none

/-- The definition that stands behind `-D`. -/
def readDefinition (entry : List Char) : Option Definition :=
  (readQuotedDefinition entry).or
    (readEntry (entry.takeWhile isEntryChar) (entry.dropWhile isEntryChar))

/-- **The definitions among the arguments of `cmake`**. A `-D` may stand alone in
front of one. -/
def readDefinitions (defines : Bool) : List String → Except Stop (List Definition)
  | [] =>
    if defines then .error (.rejected "-D must be followed with VAR=VALUE.") else .ok []
  | w :: ws =>
    let entry := if defines then some w.toList
      else if w ≠ "-D" ∧ "-D".toList.isPrefixOf w.toList then some (w.toList.drop 2) else none
    match entry with
    | some entry =>
      match readDefinition entry with
      | some d => do return d :: (← readDefinitions false ws)
      | none => .error (.rejected "Parse error in command line argument")
    | none => readDefinitions (w == "-D") ws

/-- How the other options of `cmake` begin. -/
def optionPrefixes : List String :=
  ["-C", "-U", "-G", "-W", "-P", "-E", "-N", "-L", "-i", "-h", "-H", "-B", "-usage", "-version",
    "/?", "/V", "--help", "--version", "--copyright", "--man", "--system-information", "--graphviz",
    "--debug", "--trace", "--warn", "--check", "--build", "--find-package"]

/-- **An argument that `cmake` may take for an option of another kind.** -/
def isOption (w : String) : Bool := optionPrefixes.any fun o => o.toList.isPrefixOf w.toList

/-- The variables that definitions make. -/
def defined (ds : List Definition) : Scope :=
  ds.foldl (fun s d => s.assign d.name d.value) Scope.empty

/-! ## The value of a definition -/

variable {text : String} {ws : List String}

theorem trimEnd_isPrefix (cs : List Char) : trimEnd cs <+: cs := by
  unfold trimEnd
  split
  · exact List.prefix_rfl
  · exact List.rdropWhile_prefix _ _

/-- The value is a part of the text. -/
theorem definitionValue_sublist (text : String) :
    (definitionValue text).toList.Sublist text.toList := by
  have htrimmed := (trimEnd_isPrefix text.toList).sublist
  unfold definitionValue
  dsimp only
  split
  · rw [String.toList_ofList]
    exact (List.dropLast_sublist _).trans ((List.tail_sublist _).trans htrimmed)
  · rwa [String.toList_ofList]

/-- A text with no blank and no quote at its end is its own value. -/
theorem definitionValue_eq_self
    (hlast : ∀ c ∈ text.toList.getLast?, c ≠ ' ' ∧ c ≠ '\t' ∧ c ≠ '\'') :
    definitionValue text = text := by
  have htrimmed : trimEnd text.toList = text.toList := by
    have hdrop : text.toList.rdropWhile (fun c => c == ' ' || c == '\t') = text.toList := by
      rw [List.rdropWhile_eq_self_iff]
      intro hne
      obtain ⟨hblank, htab, -⟩ := hlast _ (List.getLast?_eq_some_getLast hne)
      simp [hblank, htab]
    unfold trimEnd
    rw [hdrop]
    split
    · rfl
    · rfl
  unfold definitionValue
  dsimp only
  rw [htrimmed, if_neg fun h => (hlast _ h.2.2).2.2 rfl, String.ofList_toList]

/-- A text that begins with a double quote keeps it. -/
theorem head?_definitionValue (h : text.toList.head? = some '"') :
    (definitionValue text).toList.head? = some '"' := by
  have htrimmed : (trimEnd text.toList).head? = some '"' := by
    unfold trimEnd
    split
    · exact h
    · rename_i hne
      obtain ⟨rest, hrest⟩ := List.rdropWhile_prefix (fun c => c == ' ' || c == '\t') text.toList
      rw [← hrest] at h
      cases hdrop : text.toList.rdropWhile (fun c => c == ' ' || c == '\t') with
      | nil => exact absurd hdrop hne
      | cons c cs =>
        rw [hdrop, List.cons_append, List.head?_cons] at h
        exact h
  unfold definitionValue
  dsimp only
  rw [if_neg (by simp [htrimmed]), String.toList_ofList, htrimmed]

/-! ## Texts that fall apart -/

/-- The first argument begins with the piece that has been read. -/
theorem cut_eq_cons {emptyArgs : Bool} {depth : ℤ} {piece cs : List Char} (hne : piece ≠ []) :
    ∃ front rest, cut emptyArgs depth piece cs = String.ofList (piece ++ front) :: rest := by
  have hpush : ∀ {p : List Char} {d : Char} {words : List String},
      (∃ front rest, words = String.ofList (p ++ [d] ++ front) :: rest) →
        ∃ front rest, words = String.ofList (p ++ front) :: rest := by
    rintro p d words ⟨front, rest, h⟩
    exact ⟨d :: front, rest, by rw [h, List.append_assoc, List.singleton_append]⟩
  induction depth, piece, cs using cut.induct with
  | case1 depth piece => exact ⟨[], [], by simp [cut, emit, hne]⟩
  | case2 depth piece cs ih => exact hpush (by rw [cut]; exact ih (by simp))
  | case3 depth piece cs ih => exact hpush (by rw [cut]; exact ih (by simp))
  | case4 depth piece cs ih => exact hpush (by rw [cut]; exact ih (by simp))
  | case5 piece cs ih => exact ⟨[], cut emptyArgs 0 [] cs, by simp [cut, emit, hne]⟩
  | case6 depth piece cs hdepth ih =>
    exact hpush (by rw [cut, if_neg hdepth]; exact ih (by simp))
  | case7 depth piece c cs hesc hopen hclose hsemi ih =>
    rw [cut.eq_6 emptyArgs depth piece c cs hesc hopen hclose hsemi]
    exact hpush (ih (by simp))

/-- Arguments keep a closed text that stands in front of them. -/
theorem pieces_append_eq_cons {front : String} (hfront : Closed front) (hne : front ≠ "")
    (text : String) : ∃ w ws, pieces (front ++ text) = (front ++ w) :: ws := by
  obtain ⟨cs, ws, h⟩ := @cut_eq_cons false 0 front.toList text.toList
    (fun h => hne (String.toList_eq_nil_iff.1 h))
  refine ⟨String.ofList cs, ws, ?_⟩
  rw [pieces, String.toList_append, cut_append_of_closedFrom false hfront, List.nil_append, h,
    String.ofList_append, String.ofList_toList]

/-- A text that begins with a double quote is an argument that does. -/
theorem head?_pieces {text : String} (h : text.toList.head? = some '"') :
    ∃ w ws, pieces text = w :: ws ∧ w.toList.head? = some '"' := by
  obtain ⟨rest, rfl⟩ : ∃ rest, text = "\"" ++ rest := by
    cases htext : text.toList with
    | nil => simp [htext] at h
    | cons c cs =>
      rw [htext, List.head?_cons] at h
      refine ⟨String.ofList cs, ?_⟩
      rw [← String.toList_inj, htext, Option.some.inj h]
      simp
  obtain ⟨w, ws, hws⟩ := pieces_append_eq_cons (show Closed "\"" by decide) (by decide) rest
  exact ⟨_, ws, hws, by simp⟩

/-- A definition is at least one argument. -/
theorem definitionWords_eq_cons {name type : String} (text : String)
    (hfront : Closed ("-D" ++ name ++ type ++ "=")) : ∃ w ws,
      definitionWords name type text = (⟨name, type, w⟩ : Definition).word :: ws := by
  have hne : "-D" ++ name ++ type ++ "=" ≠ "" := by
    intro h
    exact absurd (String.append_eq_empty_iff.1 h).2 (by decide)
  exact pieces_append_eq_cons hfront hne text

/-- **A list between double quotes**: its words, the quotes at the ends. -/
theorem definitionWords_quoted {name type : String}
    (hfront : Closed ("-D" ++ name ++ type ++ "=\"")) (hws : ∀ w ∈ ws, Word w) :
    definitionWords name type ("\"" ++ joined ws ++ "\"") =
      framed ("-D" ++ name ++ type ++ "=\"") "\"" ws := by
  have hquote : "=\"" = "=" ++ "\"" := by decide
  rw [← pieces_framed hfront (by decide) hws, definitionWords, hquote]
  simp only [String.append_assoc]

/-- What the shell delivers of it. -/
theorem quoted_joined {name type : String} (hws : ∀ w ∈ ws, Word w) :
    Definition.quoted name type (joined ws) = ⟨name, type, " ".intercalate ws⟩ := by
  rw [Definition.quoted, pieces_framed (by decide) (by decide) hws, intercalate_framed]
  generalize " ".intercalate ws = text
  simp

/-- A text without semicolons is delivered as it is. -/
theorem quoted_of_semicolon_notMem {name type : String} (h : ';' ∉ text.toList) :
    Definition.quoted name type text = ⟨name, type, text⟩ := by
  have hsemicolon : ';' ∉ ("\"" ++ text ++ "\"").toList := by simpa using h
  rw [Definition.quoted, pieces_of_semicolon_notMem (by simp) hsemicolon,
    String.intercalate_singleton]
  simp

/-- A word alone stays with its definition. -/
theorem definitionWords_word {name type : String} (hfront : Closed ("-D" ++ name ++ type ++ "="))
    {w : String} (hw : Word w) :
    definitionWords name type w = [(⟨name, type, w⟩ : Definition).word] := by
  rw [definitionWords, pieces_append hfront hw, Definition.word]

/-! ## Definitions as they are written -/

/-- **A name and a type that are read as they are.** -/
def Definition.Named (name type : String) : Prop :=
  name.toList.all isEntryChar = true ∧ name.toList.head? ≠ some '"' ∧
    (type = "" ∨ type.toList.head? = some ':' ∧ '=' ∉ type.toList)

instance (name type : String) : Decidable (Definition.Named name type) :=
  inferInstanceAs (Decidable (_ ∧ _ ∧ _))

theorem readDefinition_entry {d : Definition} (h : Definition.Named d.name d.type) :
    readDefinition (d.name.toList ++ d.type.toList ++ '=' :: d.text.toList) = some d := by
  obtain ⟨hname, hquote, htype⟩ := h
  have hname' : ∀ c ∈ d.name.toList, isEntryChar c = true := List.all_eq_true.1 hname
  -- the name ends at a colon or an equals sign
  obtain ⟨rest, hrest, hentry⟩ : ∃ rest, d.type.toList ++ '=' :: d.text.toList = rest ∧
      rest.takeWhile isEntryChar = [] ∧ rest.dropWhile isEntryChar = rest ∧
        readEntry d.name.toList rest = some d := by
    refine ⟨_, rfl, ?_⟩
    rcases htype with htype | ⟨hcolon, hequals⟩
    · rw [htype]
      refine ⟨rfl, rfl, ?_⟩
      rw [show "".toList = [] from rfl, List.nil_append, readEntry, String.ofList_toList,
        String.ofList_toList, ← htype]
    · obtain ⟨cs, hcs⟩ : ∃ cs, d.type.toList = ':' :: cs := by
        cases hd : d.type.toList with
        | nil => simp [hd] at hcolon
        | cons c cs =>
          rw [hd, List.head?_cons] at hcolon
          exact ⟨cs, by rw [Option.some.inj hcolon]⟩
      have hall : ∀ c ∈ cs, (c != '=') = true := by
        intro c hc
        rw [bne_iff_ne]
        rintro rfl
        exact hequals (hcs ▸ List.mem_cons_of_mem _ hc)
      have htypeText : d.type = ":" ++ String.ofList cs := by
        rw [← String.toList_inj, String.toList_append, String.toList_ofList, hcs]
        simp
      rw [hcs]
      refine ⟨rfl, rfl, ?_⟩
      rw [List.cons_append, readEntry, List.dropWhile_append_of_pos hall,
        List.takeWhile_append_of_pos hall]
      simp [String.ofList_toList, ← htypeText]
  have hunquoted : readQuotedDefinition (d.name.toList ++ rest) = none := by
    unfold readQuotedDefinition
    split
    · rename_i cs hcs
      exfalso
      cases hd : d.name.toList with
      | nil =>
        rw [hd, List.nil_append] at hcs
        rw [hcs] at hentry
        exact absurd hentry.1 (by simp [isEntryChar])
      | cons c cs' =>
        rw [hd, List.cons_append] at hcs
        exact hquote (by rw [hd, (List.cons.inj hcs).1]; rfl)
    · rfl
  rw [List.append_assoc, hrest, readDefinition, hunquoted, Option.none_or,
    List.takeWhile_append_of_pos hname', List.dropWhile_append_of_pos hname', hentry.1,
    hentry.2.1, List.append_nil, hentry.2.2]

theorem Definition.toList_word (d : Definition) :
    d.word.toList = '-' :: 'D' :: (d.name.toList ++ d.type.toList ++ '=' :: d.text.toList) := by
  simp [word]

/-- **A definition is read as it is written.** -/
theorem readDefinitions_word {d : Definition} (h : Definition.Named d.name d.type) :
    readDefinitions false (d.word :: ws) = (readDefinitions false ws).map (d :: ·) := by
  have hne : d.word ≠ "-D" := by
    intro heq
    have := congrArg String.toList heq
    rw [d.toList_word] at this
    simp at this
  rw [readDefinitions]
  simp only [Bool.false_eq_true, if_false]
  rw [if_pos ⟨hne, by rw [d.toList_word]; rfl⟩, d.toList_word]
  simp only [List.drop_succ_cons, List.drop_zero, readDefinition_entry h]
  rfl

/-- Arguments that are no definitions. -/
theorem readDefinitions_nil : readDefinitions false [] = .ok [] := rfl

theorem text_length_of_readEntry {name rest : List Char} {d : Definition}
    (h : readEntry name rest = some d) : d.text.length < rest.length := by
  unfold readEntry at h
  split at h
  · obtain rfl := Option.some.inj h
    simp
  · rename_i rest'
    split at h
    · rename_i text htext
      obtain rfl := Option.some.inj h
      have hlength := (List.dropWhile_sublist (fun c => c != '=') (l := rest')).length_le
      rw [htext] at hlength
      simp at hlength ⊢
      omega
    · cases h
  · cases h

theorem text_length_of_readDefinition {entry : List Char} {d : Definition}
    (h : readDefinition entry = some d) : d.text.length < entry.length := by
  rw [readDefinition, Option.or_eq_some_iff] at h
  rcases h with h | ⟨-, h⟩
  · unfold readQuotedDefinition at h
    split at h
    · rename_i cs
      have hread := text_length_of_readEntry h
      have hlength := (List.dropWhile_sublist (fun c => c != '"') (l := cs)).length_le
      rw [List.length_tail] at hread
      rw [List.length_cons]
      omega
    · cases h
  · have hread := text_length_of_readEntry h
    have hlength := (List.dropWhile_sublist isEntryChar (l := entry)).length_le
    omega

/-- **The text of a definition is shorter than its argument.** -/
theorem exists_word_of_mem_readDefinitions {defines : Bool} {ds : List Definition}
    {d : Definition} (h : readDefinitions defines ws = .ok ds) (hd : d ∈ ds) :
    ∃ w ∈ ws, d.text.length < w.length := by
  induction ws generalizing defines ds with
  | nil =>
    rw [readDefinitions] at h
    split at h
    · cases h
    · rw [← Except.ok.inj h] at hd
      exact absurd hd List.not_mem_nil
  | cons w ws ih =>
    have hlater : ∀ {b : Bool} {es : List Definition}, readDefinitions b ws = .ok es → d ∈ es →
        ∃ v ∈ w :: ws, d.text.length < v.length := by
      intro b es hes hmem
      obtain ⟨v, hv, hlength⟩ := ih hes hmem
      exact ⟨v, List.mem_cons_of_mem w hv, hlength⟩
    rw [readDefinitions] at h
    split at h
    · rename_i entry hentry
      have hlength : entry.length ≤ w.length := by
        split at hentry
        · rw [← Option.some.inj hentry, String.length_toList]
        · split at hentry
          · rw [← Option.some.inj hentry, List.length_drop, String.length_toList]
            exact Nat.sub_le _ _
          · cases hentry
      split at h
      · rename_i d' hd'
        rw [bind_eq_ok_iff] at h
        obtain ⟨es, hes, heq⟩ := h
        rw [← Except.ok.inj heq] at hd
        rcases List.mem_cons.1 hd with rfl | hd
        · exact ⟨w, List.mem_cons_self, (text_length_of_readDefinition hd').trans_le hlength⟩
        · exact hlater hes hd
      · cases h
    · exact hlater h hd

/-- Arguments behind others. -/
theorem readDefinitions_append {defines : Bool} {vs : List String} {ds : List Definition}
    (h : readDefinitions defines ws = .ok ds) :
    readDefinitions defines (ws ++ vs) = (readDefinitions false vs).map (ds ++ ·) := by
  induction ws generalizing defines ds with
  | nil =>
    rw [readDefinitions] at h
    split at h
    · cases h
    · rename_i hdefines
      obtain rfl := Except.ok.inj h
      rw [List.nil_append, Bool.not_eq_true] at *
      rw [hdefines]
      cases readDefinitions false vs with
      | error e => rfl
      | ok es => rfl
  | cons w ws ih =>
    rw [List.cons_append, readDefinitions]
    rw [readDefinitions] at h
    split at h <;> rename_i hentry
    · rename_i entry
      split at h <;> rename_i hread
      · rename_i d
        rw [bind_eq_ok_iff] at h
        obtain ⟨es, hes, heq⟩ := h
        obtain rfl := Except.ok.inj heq
        simp only [ih hes]
        cases readDefinitions false vs with
        | error e => rfl
        | ok fs => rfl
      · cases h
    · exact ih h

/-! ## The variables that definitions make -/

section Defined

variable {ds : List Definition} {x : String}

/-- A variable that no definition names. -/
theorem foldl_Scope.assign_of_ne (h : ∀ d ∈ ds, d.name ≠ x) (s : Scope) :
    ds.foldl (fun s d => s.assign d.name d.value) s x = s x := by
  induction ds generalizing s with
  | nil => rfl
  | cons d ds ih =>
    rw [List.foldl_cons, ih (fun e he => h e (List.mem_cons_of_mem d he)),
      Scope.assign_of_ne _ (h d List.mem_cons_self).symm]

/-- A definition that no later one repeats. -/
theorem defined_cons (d : Definition) (h : ∀ e ∈ ds, e.name ≠ d.name) :
    defined (d :: ds) d.name = some d.value := by
  rw [defined, List.foldl_cons, foldl_Scope.assign_of_ne h, Scope.assign_self]

/-- Where the definitions name the variable, it has the value of one of them. -/
theorem exists_mem_of_defined_eq_some {text : String} (h : defined ds x = some text) :
    ∃ d ∈ ds, d.name = x ∧ d.value = text := by
  have hfold : ∀ {s : Scope}, ds.foldl (fun s d => s.assign d.name d.value) s x = some text →
      s x = some text ∨ ∃ d ∈ ds, d.name = x ∧ d.value = text := by
    clear h
    induction ds with
    | nil => exact .inl
    | cons d ds ih =>
      intro s h
      rcases ih h with hs | ⟨e, he, heq⟩
      · dsimp only at hs
        by_cases hd : d.name = x
        · subst hd
          rw [Scope.assign_self] at hs
          exact .inr ⟨d, List.mem_cons_self, rfl, Option.some.inj hs⟩
        · rw [Scope.assign_of_ne _ (Ne.symm hd)] at hs
          exact .inl hs
      · exact .inr ⟨e, List.mem_cons_of_mem d he, heq⟩
  rcases hfold h with hs | hd
  · cases hs
  · exact hd

end Defined

/-! ## Other options -/

theorem isOption_eq_false_iff {w : String} :
    isOption w = false ↔ ∀ o ∈ optionPrefixes, ¬ o.toList <+: w.toList := by
  simp [isOption]

/-- An argument that makes a definition is none. -/
theorem isOption_define (text : String) : isOption ("-D" ++ text) = false := by
  rw [isOption_eq_false_iff]
  intro o ho hprefix
  rw [String.toList_append] at hprefix
  -- no option begins like it
  have hshort := List.prefix_of_prefix_length_le hprefix (List.prefix_append "-D".toList text.toList)
  rcases Nat.le_total o.toList.length 2 with hlength | hlength
  · exact (by decide : ∀ o ∈ optionPrefixes, ¬ o.toList <+: "-D".toList) o ho (hshort hlength)
  · have hdefine := List.prefix_of_prefix_length_le (List.prefix_append "-D".toList text.toList)
      hprefix hlength
    exact (by decide : ∀ o ∈ optionPrefixes, ¬ "-D".toList <+: o.toList) o ho hdefine

theorem isOption_word (d : Definition) : isOption d.word = false := by
  rw [Definition.word, String.append_assoc, String.append_assoc, String.append_assoc]
  exact isOption_define _

/-- Nor is an argument by a quote at its end. -/
theorem isOption_append_quote {w : String} (h : isOption w = false) :
    isOption (w ++ "\"") = false := by
  rw [isOption_eq_false_iff] at h ⊢
  intro o ho hprefix
  rw [String.toList_append, show "\"".toList = ['"'] from rfl, List.prefix_concat_iff] at hprefix
  rcases hprefix with heq | hprefix
  · have hquote : '"' ∈ o.toList := by
      rw [heq]
      simp
    exact (by decide : ∀ o ∈ optionPrefixes, '"' ∉ o.toList) o ho hquote
  · exact h o ho hprefix

/-- The words of a list between double quotes, behind `-D`. -/
theorem isOption_of_mem_framed {front : String} (hws : ∀ w ∈ ws.tail, isOption w = false) :
    ∀ w ∈ framed ("-D" ++ front) "\"" ws, isOption w = false := by
  rcases ws with _ | ⟨w, _ | ⟨v, ws⟩⟩
  · simpa [framed, String.append_assoc] using isOption_define _
  · simpa [framed, String.append_assoc] using isOption_define _
  · rw [framed_cons_cons]
    intro u hu
    rcases List.mem_cons.1 hu with rfl | hu
    · rw [String.append_assoc]
      exact isOption_define _
    rcases List.mem_append.1 hu with hu | hu
    · exact hws u (List.dropLast_subset _ hu)
    · rw [List.mem_singleton.1 hu]
      exact isOption_append_quote (hws _ (List.getLast_mem _))

end CMake

end Supercell
