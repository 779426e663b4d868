import Mathlib.Data.List.Basic

/-!
# String literals of C

A line of C ends at the first newline without a backslash in front of it, and
a sequence of adjacent string literals on it stands for one text. The reader
takes one character at a time, and its state says what the next one belongs
to. How long the text can be is counted without reading it: every character
and every escape gives at most one.
-/

namespace Supercell

namespace Literals

/-! ## Reading -/

/-- A backslash and the newline behind it are taken out. -/
def splice : List Char → List Char
  | '\\' :: '\n' :: cs => splice cs
  | c :: cs => c :: splice cs
  | [] => []

/-- The first line, with the lines that are spliced to it. -/
def logicalLine (cs : List Char) : List Char := (splice cs).takeWhile (· ≠ '\n')

def isOctal (c : Char) : Bool := '0' ≤ c && c ≤ '7'

def isHex (c : Char) : Bool := c.isDigit || ('a' ≤ c && c ≤ 'f') || ('A' ≤ c && c ≤ 'F')

/-- What a digit of either kind counts. -/
def digit (c : Char) : ℕ :=
  if c.isDigit then c.toNat - '0'.toNat
  else if 'a' ≤ c then c.toNat - 'a'.toNat + 10
  else c.toNat - 'A'.toNat + 10

/-- The character of a numeric escape. -/
def byte (value : ℕ) : Char := Char.ofNat (value % 256)

/-- The character of an escape without digits. A letter without a meaning of its
own stands for itself. -/
def escaped (c : Char) : Char :=
  if c = 'a' then byte 7 else if c = 'b' then byte 8 else if c = 't' then '\t'
  else if c = 'n' then '\n' else if c = 'v' then byte 11 else if c = 'f' then byte 12
  else if c = 'r' then '\r' else c

/-- What the next character belongs to. -/
inductive State where
  | outside
  | inside
  | escape
  /-- An octal escape that takes so many digits more. -/
  | octal (left value : ℕ)
  | hex (value : Option ℕ)
  /-- A universal character name that needs so many digits more. -/
  | universal (left value : ℕ)
  deriving DecidableEq, Repr

/-- A character of a literal, outside its escapes. -/
def insideStep (c : Char) : State × List Char :=
  if c = '"' then (.outside, []) else if c = '\\' then (.escape, []) else (.inside, [c])

/-- One character, and what it adds to the text. -/
def step : State → Char → Option (State × List Char)
  | .outside, c =>
    if c = '"' then some (.inside, []) else if c = ' ' ∨ c = '\t' then some (.outside, []) else none
  | .inside, c => some (insideStep c)
  | .escape, c =>
    if isOctal c then some (.octal 2 (digit c), [])
    else if c = 'x' then some (.hex none, [])
    else if c = 'u' then some (.universal 4 0, [])
    else if c = 'U' then some (.universal 8 0, [])
    else some (.inside, [escaped c])
  | .octal left value, c =>
    if 0 < left ∧ isOctal c then some (.octal (left - 1) (8 * value + digit c), [])
    else some ((insideStep c).1, byte value :: (insideStep c).2)
  | .hex none, c => if isHex c then some (.hex (some (digit c)), []) else none
  | .hex (some value), c =>
    if isHex c then some (.hex (some (16 * value + digit c)), [])
    else some ((insideStep c).1, byte value :: (insideStep c).2)
  | .universal left value, c =>
    if isHex c then
      if left ≤ 1 then some (.inside, [Char.ofNat (16 * value + digit c)])
      else some (.universal (left - 1) (16 * value + digit c), [])
    else none

/-- **The text of adjacent literals** up to the end of the line. -/
def literals : State → List Char → Option (List Char)
  | .outside, [] => some []
  | _, [] => none
  | st, c :: cs => (step st c).bind fun r => (literals r.1 cs).map (r.2 ++ ·)

/-! ## Counting -/

/-- Where a character stands. -/
inductive Place where
  | outside
  | inside
  | escape
  deriving DecidableEq, Repr

/-- The characters of a line that can give one of the text. -/
def tally : Place → List Char → Option ℕ
  | .outside, [] => some 0
  | _, [] => none
  | .outside, c :: cs =>
    if c = '"' then tally .inside cs else if c = ' ' ∨ c = '\t' then tally .outside cs else none
  | .inside, c :: cs =>
    if c = '"' then tally .outside cs else if c = '\\' then tally .escape cs
    else (tally .inside cs).map (· + 1)
  | .escape, _ :: cs => (tally .inside cs).map (· + 1)

/-- The place of a state: digits are counted as characters of the literal. -/
def State.place : State → Place
  | outside => .outside
  | inside => .inside
  | escape => .escape
  | octal _ _ => .inside
  | hex _ => .inside
  | universal _ _ => .inside

/-- A numeric escape was counted by its first character, and is yet to come. -/
def State.pending : State → ℕ
  | octal _ _ => 1
  | hex _ => 1
  | universal _ _ => 1
  | _ => 0

/-- A character of the literal is counted where it adds to the text. -/
theorem tally_insideStep {c : Char} {cs : List Char} {k : ℕ}
    (h : tally (insideStep c).1.place cs = some k) :
    tally .inside (c :: cs) = some (k + (insideStep c).2.length) ∧ (insideStep c).1.pending = 0 := by
  unfold insideStep at h ⊢
  rw [tally]
  split
  · rename_i hc
    rw [if_pos hc] at h
    exact ⟨h, rfl⟩
  · rename_i hc
    rw [if_neg hc] at h
    split
    · rename_i hc'
      rw [if_pos hc'] at h
      exact ⟨h, rfl⟩
    · rename_i hc'
      rw [if_neg hc'] at h
      exact ⟨by rw [show tally .inside cs = some k from h]; rfl, rfl⟩

/-- **One step loses nothing**: what it adds to the text has been counted. -/
theorem tally_step {st st' : State} {c : Char} {out cs : List Char} {k : ℕ}
    (hstep : step st c = some (st', out)) (h : tally st'.place cs = some k) :
    ∃ m, tally st.place (c :: cs) = some m ∧
      out.length + k + st'.pending ≤ m + st.pending := by
  have hdigit : ∀ {c : Char}, isHex c = true ∨ isOctal c = true → c ≠ '"' ∧ c ≠ '\\' := by
    rintro c (hc | hc) <;> constructor <;> rintro rfl <;> exact absurd hc (by decide)
  have hplain : ∀ {c : Char}, c ≠ '"' ∧ c ≠ '\\' → tally .inside cs = some k →
      tally .inside (c :: cs) = some (k + 1) := by
    intro c hc hk
    rw [tally, if_neg hc.1, if_neg hc.2, hk]
    rfl
  -- a character that ends an escape is read in its turn, behind the byte
  have hinside : ∀ {value : ℕ}, (some ((insideStep c).1, byte value :: (insideStep c).2) :
      Option (State × List Char)) = some (st', out) →
        ∃ m, tally .inside (c :: cs) = some m ∧ out.length + k + st'.pending ≤ m + 1 := by
    intro value heq
    obtain ⟨rfl, rfl⟩ := Prod.mk.inj (Option.some.inj heq)
    obtain ⟨htally, hpending⟩ := tally_insideStep h
    exact ⟨_, htally, by rw [hpending, List.length_cons]; omega⟩
  -- by the state: each branch of the step either opens, closes or counts
  cases st with
  | outside =>
    rw [step] at hstep
    rw [State.place, tally]
    split at hstep
    · rename_i hc
      obtain ⟨rfl, rfl⟩ := Prod.mk.inj (Option.some.inj hstep)
      exact ⟨k, by rw [if_pos hc]; exact h, by simp [State.pending]⟩
    · rename_i hc
      split at hstep
      · rename_i hspace
        obtain ⟨rfl, rfl⟩ := Prod.mk.inj (Option.some.inj hstep)
        exact ⟨k, by rw [if_neg hc, if_pos hspace]; exact h, by simp [State.pending]⟩
      · exact nomatch hstep
  | inside =>
    obtain rfl : (insideStep c).1 = st' := congrArg Prod.fst (Option.some.inj hstep)
    obtain rfl : (insideStep c).2 = out := congrArg Prod.snd (Option.some.inj hstep)
    obtain ⟨htally, hpending⟩ := tally_insideStep h
    exact ⟨_, htally, by rw [hpending]; simp only [State.pending]; omega⟩
  | escape =>
    have hcounted : ∀ {st' : State}, st'.place = .inside → tally st'.place cs = some k →
        tally State.escape.place (c :: cs) = some (k + 1) := by
      intro st' hplace hk
      rw [hplace] at hk
      rw [State.place, tally, hk]
      rfl
    rw [step] at hstep
    split at hstep
    · obtain ⟨rfl, rfl⟩ := Prod.mk.inj (Option.some.inj hstep)
      exact ⟨_, hcounted rfl h, by simp [State.pending]⟩
    · split at hstep
      · obtain ⟨rfl, rfl⟩ := Prod.mk.inj (Option.some.inj hstep)
        exact ⟨_, hcounted rfl h, by simp [State.pending]⟩
      · split at hstep
        · obtain ⟨rfl, rfl⟩ := Prod.mk.inj (Option.some.inj hstep)
          exact ⟨_, hcounted rfl h, by simp [State.pending]⟩
        · split at hstep
          · obtain ⟨rfl, rfl⟩ := Prod.mk.inj (Option.some.inj hstep)
            exact ⟨_, hcounted rfl h, by simp [State.pending]⟩
          · obtain ⟨rfl, rfl⟩ := Prod.mk.inj (Option.some.inj hstep)
            exact ⟨_, hcounted rfl h, by simp [State.pending]; omega⟩
  | octal left value =>
    rw [step] at hstep
    split at hstep
    · rename_i hc
      obtain ⟨rfl, rfl⟩ := Prod.mk.inj (Option.some.inj hstep)
      exact ⟨_, hplain (hdigit (.inr hc.2)) h, by simp [State.pending]⟩
    · exact hinside hstep
  | hex value =>
    cases value with
    | none =>
      rw [step] at hstep
      split at hstep
      · rename_i hc
        obtain ⟨rfl, rfl⟩ := Prod.mk.inj (Option.some.inj hstep)
        exact ⟨_, hplain (hdigit (.inl hc)) h, by simp [State.pending]⟩
      · exact nomatch hstep
    | some value =>
      rw [step] at hstep
      split at hstep
      · rename_i hc
        obtain ⟨rfl, rfl⟩ := Prod.mk.inj (Option.some.inj hstep)
        exact ⟨_, hplain (hdigit (.inl hc)) h, by simp [State.pending]⟩
      · exact hinside hstep
  | universal left value =>
    rw [step] at hstep
    split at hstep
    · rename_i hc
      split at hstep
      · obtain ⟨rfl, rfl⟩ := Prod.mk.inj (Option.some.inj hstep)
        exact ⟨_, hplain (hdigit (.inl hc)) h, by simp [State.pending]; omega⟩
      · obtain ⟨rfl, rfl⟩ := Prod.mk.inj (Option.some.inj hstep)
        exact ⟨_, hplain (hdigit (.inl hc)) h, by simp [State.pending]⟩
    · exact nomatch hstep

/-- **A text is no longer than what is counted.** -/
theorem length_le_tally {st : State} {cs v : List Char} (h : literals st cs = some v) :
    ∃ k, tally st.place cs = some k ∧ v.length ≤ k + st.pending := by
  induction cs generalizing st v with
  | nil =>
    cases st with
    | outside =>
      obtain rfl := Option.some.inj h
      exact ⟨0, rfl, by simp⟩
    | _ => exact nomatch h
  | cons c cs ih =>
    have hread : literals st (c :: cs) =
        (step st c).bind fun r => (literals r.1 cs).map (r.2 ++ ·) := by
      cases st <;> rfl
    rw [hread] at h
    obtain ⟨⟨st', out⟩, hstep, hrest⟩ := Option.bind_eq_some_iff.1 h
    obtain ⟨w, hw, rfl⟩ := Option.map_eq_some_iff.1 hrest
    obtain ⟨k, hk, hlength⟩ := ih hw
    obtain ⟨m, hm, hle⟩ := tally_step hstep hk
    dsimp only at hlength
    exact ⟨m, hm, by rw [List.length_append]; dsimp only; omega⟩

/-! ## The first line of a text -/

@[simp] theorem logicalLine_nil : logicalLine [] = [] := rfl

@[simp] theorem logicalLine_spliced (cs : List Char) :
    logicalLine ('\\' :: '\n' :: cs) = logicalLine cs := by
  rw [logicalLine, splice, logicalLine]

@[simp] theorem logicalLine_newline (cs : List Char) : logicalLine ('\n' :: cs) = [] := by
  rw [logicalLine, splice]
  · rfl
  · exact fun _ h => absurd h (by decide)

theorem logicalLine_cons {c : Char} {cs : List Char} (hc : c ≠ '\\' ∧ c ≠ '\n') :
    logicalLine (c :: cs) = c :: logicalLine cs := by
  rw [logicalLine, splice, List.takeWhile_cons_of_pos (by simpa using hc.2), logicalLine]
  exact fun _ h => absurd h hc.1

theorem logicalLine_backslash {c : Char} {cs : List Char} (hc : c ≠ '\n') :
    logicalLine ('\\' :: c :: cs) = '\\' :: logicalLine (c :: cs) := by
  rw [logicalLine, splice, List.takeWhile_cons_of_pos (by decide), logicalLine]
  exact fun _ _ h => absurd (List.cons.inj h).1 hc

/-- At most so many characters of the first line are counted from a place. -/
def Within (n : ℕ) (p : Place) (cs : List Char) : Prop :=
  ∀ k, tally p (logicalLine cs) = some k → k ≤ n

/-- **The text behind some point gives at most `n` characters**, wherever the
point is: outside the literals, in one or behind its backslash, and with or
without a backslash in front that may turn out to be spliced. Each backslash
that is open allows one character more. -/
structure Bounded (n : ℕ) (cs : List Char) : Prop where
  outside : Within n .outside cs
  inside : Within n .inside cs
  escape : Within (n + 1) .escape cs
  held_outside : Within n .outside ('\\' :: cs)
  held : Within (n + 1) .inside ('\\' :: cs)
  held_escape : Within (n + 2) .escape ('\\' :: cs)

variable {n m : ℕ} {c : Char} {cs : List Char}

theorem Within.mono {p : Place} (h : Within n p cs) (hnm : n ≤ m) : Within m p cs :=
  fun k hk => Nat.le_trans (h k hk) hnm

theorem Bounded.mono (h : Bounded n cs) (hnm : n ≤ m) : Bounded m cs where
  outside := h.outside.mono hnm
  inside := h.inside.mono hnm
  escape := h.escape.mono (by omega)
  held_outside := h.held_outside.mono hnm
  held := h.held.mono (by omega)
  held_escape := h.held_escape.mono (by omega)

/-! ### One character -/

theorem within_nil (p : Place) : Within n p [] := by
  intro k hk
  cases p with
  | outside => exact Option.some.inj hk ▸ Nat.zero_le n
  | inside => exact nomatch hk
  | escape => exact nomatch hk

/-- The line ends. -/
theorem within_newline (p : Place) (cs : List Char) : Within n p ('\n' :: cs) := by
  rw [Within, logicalLine_newline]
  exact within_nil p

theorem Within.spliced {p : Place} (h : Within n p cs) : Within n p ('\\' :: '\n' :: cs) := by
  rwa [Within, logicalLine_spliced]

/-- A literal begins. -/
theorem Within.start (h : Within n .inside cs) : Within n .outside ('"' :: cs) := by
  rw [Within, logicalLine_cons (by decide)]
  exact h

/-- A literal ends. -/
theorem Within.close (h : Within n .outside cs) : Within n .inside ('"' :: cs) := by
  rw [Within, logicalLine_cons (by decide)]
  exact h

/-- Between two literals nothing is counted. -/
theorem Within.between (h : Within n .outside cs) (hc : c ≠ '"' ∧ c ≠ '\\' ∧ c ≠ '\n') :
    Within n .outside (c :: cs) := by
  rw [Within, logicalLine_cons hc.2]
  intro k hk
  rw [tally, if_neg hc.1] at hk
  split at hk
  · exact h k hk
  · exact nomatch hk

theorem Within.char (h : Within n .inside cs) (hc : c ≠ '"' ∧ c ≠ '\\' ∧ c ≠ '\n') :
    Within (n + 1) .inside (c :: cs) := by
  rw [Within, logicalLine_cons hc.2]
  intro k hk
  rw [tally, if_neg hc.1, if_neg hc.2.1] at hk
  obtain ⟨j, hj, rfl⟩ := Option.map_eq_some_iff.1 hk
  exact Nat.succ_le_succ (h j hj)

theorem Within.escaped (h : Within n .inside cs) (hc : c ≠ '\\' ∧ c ≠ '\n') :
    Within (n + 1) .escape (c :: cs) := by
  rw [Within, logicalLine_cons hc]
  intro k hk
  obtain ⟨j, hj, rfl⟩ := Option.map_eq_some_iff.1 hk
  exact Nat.succ_le_succ (h j hj)

/-- A backslash opens an escape. -/
theorem Within.backslash (h : Within n .escape (c :: cs)) (hc : c ≠ '\n') :
    Within n .inside ('\\' :: c :: cs) := by
  rw [Within, logicalLine_backslash hc]
  exact h

/-- Or ends one. -/
theorem Within.escaped_backslash (h : Within n .inside (c :: cs)) (hc : c ≠ '\n') :
    Within (n + 1) .escape ('\\' :: c :: cs) := by
  rw [Within, logicalLine_backslash hc]
  intro k hk
  obtain ⟨j, hj, rfl⟩ := Option.map_eq_some_iff.1 hk
  exact Nat.succ_le_succ (h j hj)

/-- No literal begins with a backslash. -/
theorem within_outside_backslash (hc : c ≠ '\n') : Within n .outside ('\\' :: c :: cs) := by
  rw [Within, logicalLine_backslash hc]
  exact fun k hk => nomatch hk

/-! ### Pieces of a text -/

theorem bounded_nil (n : ℕ) : Bounded n [] where
  outside := within_nil _
  inside := within_nil _
  escape := within_nil _
  held_outside := fun _ hk => nomatch hk
  held := fun _ hk => nomatch hk
  held_escape := fun _ hk => nomatch hk

/-- **Any character gives at most one more.** -/
theorem Bounded.char (h : Bounded n cs) (c : Char) : Bounded (n + 1) (c :: cs) := by
  by_cases hbackslash : c = '\\'
  · subst hbackslash
    exact
      { outside := h.held_outside.mono (by omega)
        inside := h.held
        escape := h.held_escape
        held_outside := within_outside_backslash (by decide)
        held := h.held_escape.backslash (by decide)
        held_escape := (h.held.escaped_backslash (by decide)).mono (by omega) }
  · by_cases hnewline : c = '\n'
    · subst hnewline
      exact
        { outside := within_newline _ _
          inside := within_newline _ _
          escape := within_newline _ _
          held_outside := h.outside.spliced.mono (by omega)
          held := h.inside.spliced.mono (by omega)
          held_escape := h.escape.spliced.mono (by omega) }
    · have hescaped : Within (n + 1) .escape (c :: cs) := h.inside.escaped ⟨hbackslash, hnewline⟩
      have hinside : Within (n + 1) .inside (c :: cs) := by
        by_cases hquote : c = '"'
        · subst hquote
          exact h.outside.close.mono (by omega)
        · exact h.inside.char ⟨hquote, hbackslash, hnewline⟩
      have houtside : Within n .outside (c :: cs) := by
        by_cases hquote : c = '"'
        · subst hquote
          exact h.inside.start
        · exact h.outside.between ⟨hquote, hbackslash, hnewline⟩
      exact
        { outside := houtside.mono (by omega)
          inside := hinside
          escape := hescaped.mono (by omega)
          held_outside := within_outside_backslash hnewline
          held := (hescaped.backslash hnewline).mono (by omega)
          held_escape := (hinside.escaped_backslash hnewline).mono (by omega) }

/-- **So does an escaped one**, with its backslash. -/
theorem Bounded.escapedChar (h : Bounded n cs) (hc : c ≠ '\\' ∧ c ≠ '\n') :
    Bounded (n + 1) ('\\' :: c :: cs) := by
  have hinside : Within (n + 1) .inside (c :: cs) := by
    by_cases hquote : c = '"'
    · subst hquote
      exact h.outside.close.mono (by omega)
    · exact h.inside.char ⟨hquote, hc⟩
  have hwhole : Within (n + 1) .inside ('\\' :: c :: cs) := (h.inside.escaped hc).backslash hc.2
  have hescape : Within (n + 2) .escape ('\\' :: c :: cs) := hinside.escaped_backslash hc.2
  exact
    { outside := within_outside_backslash hc.2
      inside := hwhole
      escape := hescape
      held_outside := within_outside_backslash (by decide)
      held := hescape.backslash (by decide)
      held_escape := (hwhole.escaped_backslash (by decide)).mono (by omega) }

/-- The text between two lines: a literal ends, the newline is spliced, and
another begins. -/
def lineBreak : List Char := ['"', ' ', '\\', '\n', '"']

theorem Within.inside_lineBreak (h : Within n .inside cs) :
    Within n .inside (lineBreak ++ cs) :=
  ((h.start.spliced.between (by decide)).close)

theorem Within.outside_lineBreak (h : Within n .outside cs) :
    Within (n + 1) .outside (lineBreak ++ cs) :=
  ((h.close.spliced.char (by decide)).start)

/-- **A line break behind an escaped letter** gives one more. -/
theorem Bounded.escapedLineBreak (h : Bounded n cs)
    (hc : c ≠ '"' ∧ c ≠ '\\' ∧ c ≠ '\n') : Bounded (n + 1) ('\\' :: c :: lineBreak ++ cs) := by
  have hinside : Within (n + 1) .inside (c :: lineBreak ++ cs) := h.inside.inside_lineBreak.char hc
  have hwhole : Within (n + 1) .inside ('\\' :: c :: lineBreak ++ cs) :=
    (h.inside.inside_lineBreak.escaped hc.2).backslash hc.2.2
  have hescape : Within (n + 2) .escape ('\\' :: c :: lineBreak ++ cs) :=
    hinside.escaped_backslash hc.2.2
  exact
    { outside := within_outside_backslash hc.2.2
      inside := hwhole
      escape := hescape
      held_outside := within_outside_backslash (by decide)
      held := hescape.backslash (by decide)
      held_escape := (hwhole.escaped_backslash (by decide)).mono (by omega) }

/-- **And behind a spliced newline** too. -/
theorem Bounded.splicedLineBreak (h : Bounded n cs) :
    Bounded (n + 1) ('\\' :: '\n' :: lineBreak ++ cs) := by
  have hinside : Within n .inside ('\\' :: '\n' :: lineBreak ++ cs) :=
    h.inside.inside_lineBreak.spliced
  have hescape : Within (n + 2) .escape ('\\' :: '\n' :: lineBreak ++ cs) :=
    ((h.outside.close.spliced.char (by decide)).escaped (by decide)).spliced
  exact
    { outside := h.outside.outside_lineBreak.spliced
      inside := hinside.mono (by omega)
      escape := hescape
      held_outside := within_outside_backslash (by decide)
      held := hescape.backslash (by decide)
      held_escape := (hinside.escaped_backslash (by decide)).mono (by omega) }

/-- The end of the last literal, with or without a backslash in front of its
quote. -/
theorem bounded_end : Bounded 0 ['"', '\n'] where
  outside := (within_newline _ _).start
  inside := (within_newline _ _).close
  escape := (Within.escaped (n := 0) (within_newline _ _) (by decide))
  held_outside := within_outside_backslash (by decide)
  held := ((Within.escaped (n := 0) (within_newline _ _) (by decide)).backslash (by decide))
  held_escape := ((within_newline (n := 1) _ _).close.escaped_backslash (by decide))

theorem bounded_escaped_end : Bounded 0 ['\\', '"', '\n'] where
  outside := within_outside_backslash (by decide)
  inside := by
    refine Within.backslash (fun k hk => ?_) (by decide)
    exact nomatch hk
  escape := ((within_newline (n := 0) _ _).close.escaped_backslash (by decide))
  held_outside := within_outside_backslash (by decide)
  held := ((within_newline (n := 0) _ _).close.escaped_backslash (by decide)).backslash (by decide)
  held_escape :=
    ((Within.escaped (n := 0) (within_newline _ _) (by decide)).backslash (by decide)
      |>.escaped_backslash (by decide))

end Literals

end Supercell
