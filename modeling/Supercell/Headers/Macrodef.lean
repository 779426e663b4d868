import Supercell.Common.Literals
import Mathlib.Data.Bool.AllAny
import Mathlib.Data.List.Induction

/-!
# A text as a macro

`generate_macrodef_header.sh`: the text of a file goes through a pipeline of
`sed` and `tr` into a variable of the shell, and `echo` writes a header that
defines a macro by it. The pipeline stands between backquotes, which take off
some of its backslashes, and `echo` expands the escapes in whatever it is
given.
-/

namespace Supercell

namespace Headers

open Literals

/-! ## The script -/

/-- A command between backquotes: a backslash is taken off in front of a
dollar sign, a backquote and a backslash. -/
def backquoted : List Char → List Char
  | '\\' :: c :: cs =>
    if c = '\\' ∨ c = '$' ∨ c = Char.ofNat 96 then c :: backquoted cs else '\\' :: c :: backquoted cs
  | c :: cs => c :: backquoted cs
  | [] => []

/-- The replacement of a substitution of `sed`, for one without groups. -/
def replacement : List Char → List Char
  | '\\' :: 'n' :: cs => '\n' :: replacement cs
  | '\\' :: c :: cs => c :: replacement cs
  | c :: cs => c :: replacement cs
  | [] => []

/-- What a quote is replaced by. -/
def quoteText : List Char := replacement (backquoted "\\\\\\\"".toList)

/-- What the stand-in for a newline is replaced by. -/
def lineText : List Char :=
  replacement (backquoted "\\\\\\\\\\\\\\n\\\" \\\\\\\\\\n\\\"".toList)

theorem quoteText_eq : quoteText = ['\\', '"'] := by decide

theorem lineText_eq : lineText = '\\' :: '\\' :: 'n' :: lineBreak := by decide

/-- `sed 's/c/text/g'`. -/
def substitute (c : Char) (text cs : List Char) : List Char :=
  cs.flatMap fun d => if d = c then text else [d]

/-- The output of a command as the shell takes it, without the newlines at its
end. -/
def commandOutput (cs : List Char) : List Char := (cs.reverse.dropWhile (· = '\n')).reverse

/-- `STRING_LITERAL`. -/
def stringLiteral (cs : List Char) : List Char :=
  commandOutput (substitute '~' lineText
    ((substitute '"' quoteText cs).map fun c => if c = '\n' then '~' else c))

/-- The escapes of `echo` that are a letter or a backslash. -/
def echoEscape (c : Char) : Option Char :=
  if c = '\\' then some '\\' else if c = 'a' then some (byte 7) else if c = 'b' then some (byte 8)
  else if c = 'f' then some (byte 12) else if c = 'n' then some '\n'
  else if c = 'r' then some '\r' else if c = 't' then some '\t'
  else if c = 'v' then some (byte 11) else none

/-- What `echo` does with the next character. -/
inductive EchoState where
  | plain
  | escape
  | octal (left value : ℕ)
  deriving DecidableEq, Repr

/-- **`echo`**, one that expands escapes: `\c` ends its output, and any other
output is ended by a newline. -/
def echo : EchoState → List Char → List Char
  | .plain, [] => ['\n']
  | .plain, c :: cs => if c = '\\' then echo .escape cs else c :: echo .plain cs
  | .escape, [] => ['\\', '\n']
  | .escape, c :: cs =>
    if c = 'c' then []
    else if c = '0' then echo (.octal 3 0) cs
    else match echoEscape c with
      | some x => x :: echo .plain cs
      | none => '\\' :: c :: echo .plain cs
  | .octal _ value, [] => [byte value, '\n']
  | .octal left value, c :: cs =>
    if 0 < left ∧ isOctal c then echo (.octal (left - 1) (8 * value + digit c)) cs
    else byte value :: if c = '\\' then echo .escape cs else c :: echo .plain cs

/-- The directive up to the text. -/
def define (macroName : String) : List Char := ("#define " ++ macroName ++ " ").toList

/-- **`generate_macrodef_header.sh`**: the header for a text. -/
def generateMacrodefHeader (macroName text : String) : String :=
  String.ofList (echo .plain (define macroName ++ ['"'] ++ stringLiteral text.toList ++ ['"']))

/-- What a header defines a macro as: the text of the literals behind its
name. -/
def macroText (macroName header : String) : Option String :=
  let line := logicalLine header.toList
  if define macroName <+: line then
    (literals .outside (line.drop (define macroName).length)).map String.ofList
  else none

/-! ## The pipeline -/

/-- What becomes of one character on the way to `echo`. -/
def encode (c : Char) : List Char :=
  if c = '"' then ['\\', '"']
  else if c = '\n' ∨ c = '~' then '\\' :: '\\' :: 'n' :: lineBreak
  else [c]

/-- The pipeline ends with no newline. -/
theorem commandOutput_encode (cs : List Char) :
    commandOutput (cs.flatMap encode) = cs.flatMap encode := by
  have hlast : ∀ c ∈ (cs.flatMap encode).reverse.head?, c ≠ '\n' := by
    induction cs using List.reverseRecOn with
    | nil => simp
    | append_singleton cs c ih =>
      rw [List.flatMap_append, List.reverse_append, List.flatMap_singleton]
      unfold encode
      split
      · simp
      · split
        · simp [lineBreak]
        · rename_i hc
          simpa using fun h => hc (.inl h)
  unfold commandOutput
  cases hrev : (cs.flatMap encode).reverse with
  | nil => rw [List.dropWhile_nil, ← hrev, List.reverse_reverse]
  | cons c ds =>
    rw [List.dropWhile_cons_of_neg (by simpa using hlast c (by rw [hrev]; rfl)), ← hrev,
      List.reverse_reverse]

/-- **The pipeline works character by character.** -/
theorem stringLiteral_eq (cs : List Char) : stringLiteral cs = cs.flatMap encode := by
  have hpipe : substitute '~' lineText ((substitute '"' quoteText cs).map
      fun c => if c = '\n' then '~' else c) = cs.flatMap encode := by
    unfold substitute
    rw [List.map_flatMap, List.flatMap_assoc]
    refine List.flatMap_congr fun c _ => ?_
    rw [quoteText_eq, lineText_eq, encode]
    by_cases hquote : c = '"'
    · rw [if_pos hquote, if_pos hquote]
      rfl
    · rw [if_neg hquote, if_neg hquote, List.map_singleton, List.flatMap_singleton]
      by_cases hnewline : c = '\n'
      · rw [if_pos hnewline, if_pos rfl, if_pos (.inl hnewline)]
      · rw [if_neg hnewline]
        by_cases htilde : c = '~'
        · rw [if_pos htilde, if_pos (.inr htilde)]
        · rw [if_neg htilde, if_neg (not_or.2 ⟨hnewline, htilde⟩)]
  rw [stringLiteral, hpipe, commandOutput_encode]

/-! ## What `echo` makes of it -/

/-- The encoded text behind some point, with the quote that ends the literal. -/
def encoded (cs : List Char) : List Char := cs.flatMap encode ++ ['"']

theorem encoded_cons (c : Char) (cs : List Char) : encoded (c :: cs) = encode c ++ encoded cs := by
  rw [encoded, List.flatMap_cons, List.append_assoc, encoded]

theorem encode_plain {c : Char} (hc : c ≠ '"' ∧ c ≠ '\n' ∧ c ≠ '~') : encode c = [c] := by
  rw [encode, if_neg hc.1, if_neg (not_or.2 hc.2)]

theorem encode_line {c : Char} (hc : c = '\n' ∨ c = '~') :
    encode c = '\\' :: '\\' :: 'n' :: lineBreak := by
  rw [encode, if_neg, if_pos hc]
  rintro rfl
  rcases hc with hc | hc <;> exact absurd hc (by decide)

/-- `echo` on a character that it takes as it is. -/
theorem echo_plain_cons {c : Char} (hc : c ≠ '\\') (cs : List Char) :
    echo .plain (c :: cs) = c :: echo .plain cs := by
  rw [echo, if_neg hc]

theorem echo_lineBreak (cs : List Char) :
    echo .plain (lineBreak ++ cs) = lineBreak ++ echo .plain cs := by
  simp [lineBreak, echo, echoEscape]

/-- The characters of a text that are encoded, behind `echo`. -/
theorem echo_encode {c : Char} (hc : c ≠ '\\') (cs : List Char) :
    echo .plain (encode c ++ cs) =
      (if c = '"' then ['\\', '"'] else if c = '\n' ∨ c = '~' then '\\' :: 'n' :: lineBreak
        else [c]) ++ echo .plain cs := by
  by_cases hquote : c = '"'
  · subst hquote
    simp [encode, echo, echoEscape]
  · by_cases hline : c = '\n' ∨ c = '~'
    · rw [encode_line hline, if_neg hquote, if_pos hline]
      simp only [List.cons_append]
      rw [echo, if_pos rfl, echo, if_neg (by decide), if_neg (by decide),
        echo_plain_cons (by decide), echo_lineBreak]
      rfl
    · rw [encode, if_neg hquote, if_neg hline, if_neg hquote, if_neg hline, List.singleton_append,
        echo_plain_cons hc]
      rfl

/-- Behind an open backslash, the encoding of a newline is spliced. -/
theorem echo_escape_line {c : Char} (hc : c = '\n' ∨ c = '~') (cs : List Char) :
    echo .escape (encode c ++ cs) = '\\' :: '\n' :: lineBreak ++ echo .plain cs := by
  rw [encode_line hc]
  simp only [List.cons_append]
  rw [echo, if_neg (by decide), if_neg (by decide)]
  simp only [echoEscape, if_true]
  rw [echo, if_pos rfl, echo, if_neg (by decide), if_neg (by decide)]
  simp only [echoEscape]
  rw [← echo_lineBreak]
  rfl

/-- How many characters the text behind a point can give: one less where it has
a backslash. -/
def allowance (cs : List Char) : ℕ := if '\\' ∈ cs then cs.length - 1 else cs.length

theorem allowance_le (cs : List Char) : allowance cs ≤ cs.length := by
  unfold allowance
  split <;> omega

theorem allowance_cons {c : Char} (hc : c ≠ '\\') (cs : List Char) :
    allowance (c :: cs) = allowance cs + 1 := by
  unfold allowance
  by_cases hmem : '\\' ∈ cs
  · have hlength := List.length_pos_of_mem hmem
    rw [if_pos (List.mem_cons_of_mem c hmem), if_pos hmem, List.length_cons]
    omega
  · rw [if_neg (by simpa [hmem] using fun h => hc h.symm), if_neg hmem, List.length_cons]

theorem allowance_backslash (cs : List Char) : allowance ('\\' :: cs) = cs.length := by
  rw [allowance, if_pos List.mem_cons_self, List.length_cons, Nat.add_sub_cancel]

/-- **The text behind a point gives no more characters than it has**, and one
less with a backslash in it, or one that `echo` has taken already: by induction
on the text, for each state of `echo`. -/
theorem bounded_echo (cs : List Char) :
    Bounded (allowance cs) (echo .plain (encoded cs)) ∧
      Bounded cs.length (echo .escape (encoded cs)) ∧
      ∀ left value, Bounded (cs.length + 1) (echo (.octal left value) (encoded cs)) := by
  induction cs with
  | nil =>
    refine ⟨bounded_end, bounded_escaped_end, fun left value => ?_⟩
    have hecho : echo (.octal left value) (encoded []) = [byte value, '"', '\n'] := by
      rw [encoded, List.flatMap_nil, List.nil_append, echo, if_neg (fun h => absurd h.2 (by decide))]
      rfl
    rw [hecho]
    exact bounded_end.char (byte value)
  | cons c cs ih =>
    obtain ⟨hplain, hescape, hoctal⟩ := ih
    have hfull := hplain.mono (allowance_le cs)
    -- a character in its turn
    have hnext : Bounded (allowance (c :: cs)) (echo .plain (encoded (c :: cs))) := by
      rw [encoded_cons]
      by_cases hbackslash : c = '\\'
      · subst hbackslash
        rw [allowance_backslash, encode_plain (by decide), List.singleton_append, echo, if_pos rfl]
        exact hescape
      · rw [allowance_cons hbackslash, echo_encode hbackslash]
        split
        · exact hplain.escapedChar (by decide)
        · split
          · exact hplain.escapedLineBreak (by decide)
          · exact hplain.char c
    refine ⟨hnext, ?_, fun left value => ?_⟩
    · -- behind a backslash: an escape takes the character with it
      rw [encoded_cons, List.length_cons]
      by_cases hquote : c = '"'
      · subst hquote
        exact hfull.escapedChar (by decide)
      · by_cases hline : c = '\n' ∨ c = '~'
        · rw [echo_escape_line hline]
          exact hfull.splicedLineBreak
        · rw [encode, if_neg hquote, if_neg hline, List.singleton_append, echo]
          split
          · exact bounded_nil _
          · split
            · exact hoctal 3 0
            · cases hecho : echoEscape c with
              | some x => exact hfull.char x
              | none =>
                refine hfull.escapedChar ⟨?_, fun h => hline (.inl h)⟩
                rintro rfl
                exact absurd hecho (by decide)
    · -- inside an octal escape: one more digit, or the byte is emitted
      have hemit : Bounded ((c :: cs).length + 1)
          (byte value :: echo .plain (encoded (c :: cs))) :=
        ((hnext.mono (allowance_le _)).char (byte value))
      rw [encoded_cons] at hemit ⊢
      cases hd : encode c ++ encoded cs with
      | nil => exact absurd (congrArg List.length hd) (by simp [encoded])
      | cons d ds =>
        rw [hd] at hemit
        rw [echo]
        split
        · -- a digit is its own encoding
          rename_i hdigit
          have hd' : d = c ∧ ds = encoded cs := by
            unfold encode at hd
            split at hd
            · obtain ⟨rfl, -⟩ := List.cons.inj hd
              exact absurd hdigit.2 (by decide)
            · split at hd
              · obtain ⟨rfl, -⟩ := List.cons.inj hd
                exact absurd hdigit.2 (by decide)
              · obtain ⟨rfl, rfl⟩ := List.cons.inj hd
                exact ⟨rfl, rfl⟩
          rw [hd'.2]
          exact (hoctal _ _).mono (by simp)
        · exact hemit

/-! ## The macro of a header -/

theorem echo_plain_append {xs : List Char} (h : ∀ c ∈ xs, c ≠ '\\') (cs : List Char) :
    echo .plain (xs ++ cs) = xs ++ echo .plain cs := by
  induction xs with
  | nil => rfl
  | cons x xs ih =>
    rw [List.cons_append, echo_plain_cons (h x List.mem_cons_self),
      ih fun c hc => h c (List.mem_cons_of_mem x hc), List.cons_append]

theorem logicalLine_append {xs : List Char} (h : ∀ c ∈ xs, c ≠ '\\' ∧ c ≠ '\n')
    (cs : List Char) : logicalLine (xs ++ cs) = xs ++ logicalLine cs := by
  induction xs with
  | nil => rfl
  | cons x xs ih =>
    rw [List.cons_append, logicalLine_cons (h x List.mem_cons_self),
      ih fun c hc => h c (List.mem_cons_of_mem x hc), List.cons_append]

/-- **A name of a macro**: letters, digits and underscores. -/
def IsName (macroName : String) : Prop := ∀ c ∈ macroName.toList, c.isAlphanum = true ∨ c = '_'

theorem isName_ptx : IsName "PTX" := List.all_iff_forall_prop.1 (by decide)

theorem mem_define {macroName : String} (h : IsName macroName) :
    ∀ c ∈ define macroName ++ ['"'], c ≠ '\\' ∧ c ≠ '\n' := by
  intro c hc
  have hfixed : ∀ c ∈ "#define ".toList ++ (" ".toList ++ ['"']), c ≠ '\\' ∧ c ≠ '\n' :=
    List.all_iff_forall_prop.1 (by decide)
  rw [define, String.toList_append, String.toList_append, List.mem_append, List.mem_append,
    List.mem_append] at hc
  rcases hc with ((hc | hc) | hc) | hc
  · exact hfixed c (List.mem_append_left _ hc)
  · rcases h c hc with hc | rfl
    · constructor <;> rintro rfl <;> exact absurd hc (by decide)
    · decide
  · exact hfixed c (List.mem_append_right _ (List.mem_append_left _ hc))
  · exact hfixed c (List.mem_append_right _ (List.mem_append_right _ hc))

/-- **The macro is what the literal is read as.** -/
theorem macroText_eq {macroName : String} (h : IsName macroName) (text : String) :
    macroText macroName (generateMacrodefHeader macroName text) =
      (literals .inside (logicalLine (echo .plain (encoded text.toList)))).map String.ofList := by
  have hline : logicalLine (generateMacrodefHeader macroName text).toList =
      define macroName ++ '"' :: logicalLine (echo .plain (encoded text.toList)) := by
    have hdefine := mem_define h
    rw [generateMacrodefHeader, String.toList_ofList, stringLiteral_eq, List.append_assoc,
      ← encoded, echo_plain_append fun c hc => (hdefine c hc).1, logicalLine_append hdefine,
      List.append_assoc, List.singleton_append]
  rw [macroText, hline, if_pos (List.prefix_append _ _), List.drop_left]
  rw [literals, step, if_pos rfl]
  simp

/-- **A text without backslashes is read back**, with its stand-ins as
newlines. -/
theorem literals_echo {cs : List Char} (h : '\\' ∉ cs) :
    literals .inside (logicalLine (echo .plain (encoded cs))) =
      some (cs.map fun c => if c = '~' then '\n' else c) := by
  induction cs with
  | nil => decide
  | cons c cs ih =>
    rw [List.mem_cons, not_or] at h
    have hc : c ≠ '\\' := Ne.symm h.1
    have hrest := ih h.2
    rw [encoded_cons, echo_encode hc, List.map_cons]
    by_cases hquote : c = '"'
    · subst hquote
      rw [if_pos rfl, List.cons_append, List.singleton_append, logicalLine_backslash (by decide),
        logicalLine_cons (by decide)]
      simp [literals, step, insideStep, isOctal, escaped, hrest]
    · rw [if_neg hquote]
      by_cases hline : c = '\n' ∨ c = '~'
      · rw [if_pos hline]
        have hbreak : logicalLine ('\\' :: 'n' :: lineBreak ++ echo .plain (encoded cs)) =
            '\\' :: 'n' :: '"' :: ' ' :: '"' :: logicalLine (echo .plain (encoded cs)) := by
          simp only [lineBreak, List.cons_append, List.nil_append]
          rw [logicalLine_backslash (by decide), logicalLine_cons (by decide),
            logicalLine_cons (by decide), logicalLine_cons (by decide), logicalLine_spliced,
            logicalLine_cons (by decide)]
        rw [hbreak]
        have hnewline : (if c = '~' then '\n' else c) = '\n' := by
          rcases hline with rfl | rfl <;> rfl
        rw [hnewline]
        simp [literals, step, insideStep, isOctal, escaped, hrest]
      · rw [if_neg hline, List.singleton_append, logicalLine_cons ⟨hc, fun h => hline (.inl h)⟩]
        rw [if_neg fun h => hline (.inr h)]
        simp [literals, step, insideStep, hc, hquote, hrest]

/-- **When a text is embedded faithfully**: it has neither a backslash nor the
stand-in for a newline. -/
theorem generateMacrodefHeader_faithful_iff {macroName : String} (h : IsName macroName)
    (text : String) :
    macroText macroName (generateMacrodefHeader macroName text) = some text ↔
      '\\' ∉ text.toList ∧ '~' ∉ text.toList := by
  rw [macroText_eq h]
  constructor
  · intro hread
    obtain ⟨v, hv, hvtext⟩ := Option.map_eq_some_iff.1 hread
    obtain rfl : v = text.toList := by rw [← hvtext, String.toList_ofList]
    obtain ⟨k, hk, hlength⟩ := length_le_tally hv
    have hle : k ≤ allowance text.toList := (bounded_echo text.toList).1.inside k hk
    have hbackslash : '\\' ∉ text.toList := by
      intro hmem
      have hpos := List.length_pos_of_mem hmem
      rw [allowance, if_pos hmem] at hle
      simp only [State.pending] at hlength
      omega
    refine ⟨hbackslash, fun htilde => ?_⟩
    have hmap := Option.some.inj ((literals_echo hbackslash).symm.trans hv)
    have hfixed := List.map_inj_left.1 (hmap.trans (List.map_id _).symm) '~' htilde
    exact absurd hfixed (by decide)
  · rintro ⟨hbackslash, htilde⟩
    rw [literals_echo hbackslash, Option.map_some]
    congr 1
    have hmap : (text.toList.map fun c => if c = '~' then '\n' else c) = text.toList := by
      refine (List.map_congr_left fun c hc => if_neg ?_).trans (List.map_id _)
      rintro rfl
      exact htilde hc
    rw [hmap, String.ofList_toList]

theorem generateMacrodefHeader_faithful_lines :
    macroText "PTX" (generateMacrodefHeader "PTX" "say \"hi\"\n\nend") =
      some "say \"hi\"\n\nend" :=
  (generateMacrodefHeader_faithful_iff isName_ptx _).2 (by decide)

/-- **A stand-in becomes a newline**, and a backslash is lost. -/
theorem generateMacrodefHeader_alters :
    macroText "PTX" (generateMacrodefHeader "PTX" "a~b") = some "a\nb" ∧
      macroText "PTX" (generateMacrodefHeader "PTX" "a\\q") = some "aq" ∧
      ¬ ∀ (macroName text : String), IsName macroName →
        macroText macroName (generateMacrodefHeader macroName text) = some text := by
  have htilde : macroText "PTX" (generateMacrodefHeader "PTX" "a~b") = some "a\nb" := by decide
  refine ⟨htilde, by decide, fun h => ?_⟩
  exact absurd (htilde.symm.trans (h "PTX" "a~b" isName_ptx)) (by decide)

end Headers

end Supercell
