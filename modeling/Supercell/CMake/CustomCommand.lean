import Supercell.CMake.Scope

/-!
# CMake — custom commands

What macros add to a build. `add_custom_command()` tells its keywords from the
words behind them: what it generates, what that depends on, and the command
lines. The words of a command line arrive as they are given as long as none of
them is a keyword itself.
-/

namespace Supercell

namespace CMake

/-- A rule that generates files by command lines. -/
structure CustomCommand where
  outputs : List String
  depends : List String
  commands : List (List String)
  deriving DecidableEq, Repr

/-- The keywords that words stand behind. -/
def sectionKeywords : List String :=
  ["OUTPUT", "OUTPUTS", "COMMAND", "DEPENDS", "MAIN_DEPENDENCY", "IMPLICIT_DEPENDS", "COMMENT",
    "WORKING_DIRECTORY", "TARGET", "SOURCE"]

/-- The keywords that change nothing about where the next word belongs. -/
def markKeywords : List String :=
  ["ARGS", "VERBATIM", "APPEND", "PRE_BUILD", "PRE_LINK", "POST_BUILD"]

def customKeywords : List String := sectionKeywords ++ markKeywords

/-- A word behind a keyword. -/
def CustomCommand.push (c : CustomCommand) (keyword w : String) : CustomCommand :=
  if keyword = "OUTPUT" then { c with outputs := c.outputs ++ [w] }
  else if keyword = "DEPENDS" then { c with depends := c.depends ++ [w] }
  else if keyword = "COMMAND" then
    { c with commands := c.commands.dropLast ++ [c.commands.getLastD [] ++ [w]] }
  else c

/-- The arguments of `add_custom_command`, one by one. What stands behind other
keywords is left out. -/
def readCustomCommand : String → CustomCommand → List String → CustomCommand
  | _, c, [] => c
  | keyword, c, a :: as =>
    if a = "COMMAND" then readCustomCommand a { c with commands := c.commands ++ [[]] } as
    else if a ∈ sectionKeywords then readCustomCommand a c as
    else if a ∈ markKeywords then readCustomCommand keyword c as
    else readCustomCommand keyword (c.push keyword a) as

/-- **`add_custom_command(args)`**. -/
def addCustomCommand (args : List String) : CustomCommand :=
  readCustomCommand "" ⟨[], [], []⟩ args

/-- What a macro adds to a build. -/
inductive BuildRule where
  /-- `add_custom_command(args)`. -/
  | custom (command : CustomCommand)
  /-- `ADD_EXECUTABLE(name sources)`. -/
  | executable (name sources : List String)
  /-- `ADD_LIBRARY(name SHARED sources)`. -/
  | shared (name sources : List String)
  /-- `cuda_compile_ptx(ptxfiles sources)`. -/
  | ptx (sources : List String)
  /-- `cuda_add_library(name sources)`. It takes the `ptxfiles` too. -/
  | cudaLibrary (name sources : List String)
  /-- `TARGET_LINK_LIBRARIES(name libraries)`. -/
  | link (name libraries : List String)
  deriving DecidableEq, Repr

variable {c : CustomCommand} {keyword : String} {args ws : List String}

/-- Words that are no keywords belong to the last keyword. -/
theorem readCustomCommand_words (hws : ∀ w ∈ ws, w ∉ customKeywords) :
    readCustomCommand keyword c (ws ++ args) =
      readCustomCommand keyword (ws.foldl (fun c w => c.push keyword w) c) args := by
  induction ws generalizing c with
  | nil => rfl
  | cons w ws ih =>
    have hw := hws w List.mem_cons_self
    simp only [customKeywords, List.mem_append, not_or] at hw
    have hcommand : w ≠ "COMMAND" := by
      intro h
      exact hw.1 (h ▸ by decide)
    rw [List.cons_append, readCustomCommand, if_neg hcommand, if_neg hw.1, if_neg hw.2,
      ih fun v hv => hws v (List.mem_cons_of_mem w hv), List.foldl_cons]

theorem foldl_push_output (outputs depends : List String) (commands : List (List String)) :
    ws.foldl (fun (c : CustomCommand) w => c.push "OUTPUT" w) ⟨outputs, depends, commands⟩ =
      ⟨outputs ++ ws, depends, commands⟩ := by
  induction ws generalizing outputs with
  | nil => simp
  | cons w ws ih =>
    rw [List.foldl_cons, CustomCommand.push, if_pos rfl, ih, List.append_assoc,
      List.singleton_append]

theorem foldl_push_depends (outputs depends : List String) (commands : List (List String)) :
    ws.foldl (fun (c : CustomCommand) w => c.push "DEPENDS" w) ⟨outputs, depends, commands⟩ =
      ⟨outputs, depends ++ ws, commands⟩ := by
  induction ws generalizing depends with
  | nil => simp
  | cons w ws ih =>
    rw [List.foldl_cons, CustomCommand.push, if_neg (by decide), if_pos rfl, ih, List.append_assoc,
      List.singleton_append]

theorem foldl_push_command (outputs depends command : List String)
    (commands : List (List String)) :
    ws.foldl (fun (c : CustomCommand) w => c.push "COMMAND" w)
        ⟨outputs, depends, commands ++ [command]⟩ =
      ⟨outputs, depends, commands ++ [command ++ ws]⟩ := by
  induction ws generalizing command with
  | nil => simp
  | cons w ws ih =>
    have hpush : CustomCommand.push ⟨outputs, depends, commands ++ [command]⟩ "COMMAND" w =
        ⟨outputs, depends, commands ++ [command ++ [w]]⟩ := by
      simp [CustomCommand.push]
    rw [List.foldl_cons, hpush, ih, List.append_assoc, List.singleton_append]

/-! ## The sections of a call -/

/-- `OUTPUT ws`. -/
theorem readCustomCommand_output (hws : ∀ w ∈ ws, w ∉ customKeywords)
    (outputs depends : List String) (commands : List (List String)) :
    readCustomCommand keyword ⟨outputs, depends, commands⟩ ("OUTPUT" :: ws ++ args) =
      readCustomCommand "OUTPUT" ⟨outputs ++ ws, depends, commands⟩ args := by
  rw [List.cons_append, readCustomCommand, if_neg (by decide), if_pos (by decide),
    readCustomCommand_words hws, foldl_push_output]

/-- `DEPENDS ws`. -/
theorem readCustomCommand_depends (hws : ∀ w ∈ ws, w ∉ customKeywords)
    (outputs depends : List String) (commands : List (List String)) :
    readCustomCommand keyword ⟨outputs, depends, commands⟩ ("DEPENDS" :: ws ++ args) =
      readCustomCommand "DEPENDS" ⟨outputs, depends ++ ws, commands⟩ args := by
  rw [List.cons_append, readCustomCommand, if_neg (by decide), if_pos (by decide),
    readCustomCommand_words hws, foldl_push_depends]

/-- `COMMAND ws`. -/
theorem readCustomCommand_command (hws : ∀ w ∈ ws, w ∉ customKeywords)
    (outputs depends : List String) (commands : List (List String)) :
    readCustomCommand keyword ⟨outputs, depends, commands⟩ ("COMMAND" :: ws ++ args) =
      readCustomCommand "COMMAND" ⟨outputs, depends, commands ++ [ws]⟩ args := by
  rw [List.cons_append, readCustomCommand, if_pos rfl, readCustomCommand_words hws,
    foldl_push_command, List.nil_append]

/-- Four sections of plain words. -/
theorem addCustomCommand_sections {outputs depends compiler words : List String}
    (houtputs : ∀ w ∈ outputs, w ∉ customKeywords) (hdepends : ∀ w ∈ depends, w ∉ customKeywords)
    (hcompiler : ∀ w ∈ compiler, w ∉ customKeywords) (hwords : ∀ w ∈ words, w ∉ customKeywords) :
    addCustomCommand ("OUTPUT" :: outputs ++ ("DEPENDS" :: depends ++ ("DEPENDS" :: compiler ++
      ("COMMAND" :: words)))) = ⟨outputs, depends ++ compiler, [words]⟩ := by
  have hend : ("COMMAND" :: words) = "COMMAND" :: words ++ [] := (List.append_nil _).symm
  rw [addCustomCommand, readCustomCommand_output houtputs, readCustomCommand_depends hdepends,
    readCustomCommand_depends hcompiler, hend, readCustomCommand_command hwords, readCustomCommand]
  simp

/-- A path is no keyword. -/
theorem notMem_customKeywords {w : String} (h : '/' ∈ w.toList ∨ '~' ∈ w.toList) :
    w ∉ customKeywords := by
  intro hmem
  have hnone : ∀ k ∈ customKeywords, ¬('/' ∈ k.toList ∨ '~' ∈ k.toList) := by decide
  exact hnone w hmem h

/-! ## Lengths -/

theorem CustomCommand.push_commands (c : CustomCommand) (keyword w : String) :
    (c.push keyword w).commands = c.commands ∨
      (c.push keyword w).commands = c.commands.dropLast ++ [c.commands.getLastD [] ++ [w]] := by
  unfold CustomCommand.push
  split_ifs
  · exact .inl rfl
  · exact .inl rfl
  · exact .inr rfl
  · exact .inl rfl

/-- **No command line is longer** than the one that is being read may become: a
keyword ends it, or begins another one. -/
theorem readCustomCommand_within {n : ℕ} (hlines : ∀ x ∈ c.commands, x.length ≤ n)
    (hlast : (c.commands.getLastD []).length + ws.length ≤ n) :
    ∃ keyword' c', readCustomCommand keyword c (ws ++ args) = readCustomCommand keyword' c' args ∧
      ∀ x ∈ c'.commands, x.length ≤ n := by
  induction ws generalizing keyword c with
  | nil => exact ⟨keyword, c, rfl, hlines⟩
  | cons w ws ih =>
    rw [List.length_cons] at hlast
    rw [List.cons_append, readCustomCommand]
    split_ifs
    · refine ih (fun x hx => ?_) ?_
      · rw [List.mem_append, List.mem_singleton] at hx
        rcases hx with hx | rfl
        · exact hlines x hx
        · exact Nat.zero_le n
      · rw [List.getLastD_concat, List.length_nil]
        omega
    · exact ih hlines (by omega)
    · exact ih hlines (by omega)
    · rcases c.push_commands keyword w with hpush | hpush
      · exact ih (hpush ▸ hlines) (by rw [hpush]; omega)
      · refine ih (fun x hx => ?_) ?_
        · rw [hpush, List.mem_append, List.mem_singleton] at hx
          rcases hx with hx | rfl
          · exact hlines x (List.dropLast_subset _ hx)
          · rw [List.length_append, List.length_singleton]
            omega
        · rw [hpush, List.getLastD_concat, List.length_append, List.length_singleton]
          omega

/-- **A bound on all command lines** of a call with one `COMMAND` of its own. Other
words may be keywords as well. -/
theorem length_le_of_mem_commands {n : ℕ} {before line x : List String}
    (hbefore : before.length ≤ n) (hline : line.length ≤ n)
    (hx : x ∈ (addCustomCommand ("OUTPUT" :: before ++ "COMMAND" :: line)).commands) :
    x.length ≤ n := by
  have hfirst : ∃ keyword' c', readCustomCommand "OUTPUT" ⟨[], [], []⟩
      (before ++ "COMMAND" :: line) = readCustomCommand keyword' c' ("COMMAND" :: line) ∧
        ∀ y ∈ c'.commands, y.length ≤ n :=
    readCustomCommand_within (by simp) (by simpa using hbefore)
  obtain ⟨keyword, c, hread, hlines⟩ := hfirst
  let begun : CustomCommand := { c with commands := c.commands ++ [[]] }
  have hbegun : ∀ y ∈ begun.commands, y.length ≤ n := by
    intro y hy
    rw [List.mem_append, List.mem_singleton] at hy
    rcases hy with hy | rfl
    · exact hlines y hy
    · exact Nat.zero_le n
  have hlast : (begun.commands.getLastD []).length + line.length ≤ n := by
    rw [List.getLastD_concat]
    simpa using hline
  have hsecond : ∃ keyword' c', readCustomCommand "COMMAND" begun (line ++ []) =
      readCustomCommand keyword' c' [] ∧ ∀ y ∈ c'.commands, y.length ≤ n :=
    readCustomCommand_within hbegun hlast
  obtain ⟨keyword', c', hread', hlines'⟩ := hsecond
  rw [List.append_nil, readCustomCommand] at hread'
  rw [addCustomCommand, List.cons_append, readCustomCommand, if_neg (by decide),
    if_pos (by decide), hread, readCustomCommand, if_pos rfl,
    show { c with commands := c.commands ++ [[]] } = begun from rfl, hread'] at hx
  exact hlines' x hx

/-! ## `add_custom_target` -/

/-- The keywords of `add_custom_target`. -/
def targetKeywords : List String :=
  ["DEPENDS", "WORKING_DIRECTORY", "COMMENT", "SOURCES", "VERBATIM", "COMMAND"]

/-- The arguments of `add_custom_target` behind the name, one by one. No word may
stand behind `VERBATIM`. -/
def readCustomTarget : String → CustomCommand → List String → Except Stop CustomCommand
  | _, c, [] => .ok c
  | keyword, c, a :: as =>
    if a = "COMMAND" then readCustomTarget a { c with commands := c.commands ++ [[]] } as
    else if a ∈ targetKeywords then readCustomTarget a c as
    else if keyword = "VERBATIM" then
      .error (.rejected "Wrong syntax. Unknown type of argument.")
    else readCustomTarget keyword (c.push keyword a) as

/-- **`add_custom_target(name args)`**. A command line without words is none. -/
def addCustomTarget (args : List String) : Except Stop CustomCommand := do
  let args := if args.head? = some "ALL" then args.tail else args
  let c ← readCustomTarget "COMMAND" ⟨[], [], []⟩ args
  return { c with commands := c.commands.filter (· ≠ []) }

/-- Words that are no keywords belong to the command line. -/
theorem readCustomTarget_words (hws : ∀ w ∈ ws, w ∉ targetKeywords) (outputs depends : List String)
    (command : List String) (commands : List (List String)) :
    readCustomTarget "COMMAND" ⟨outputs, depends, commands ++ [command]⟩ (ws ++ args) =
      readCustomTarget "COMMAND" ⟨outputs, depends, commands ++ [command ++ ws]⟩ args := by
  induction ws generalizing command with
  | nil => simp
  | cons w ws ih =>
    have hw := hws w List.mem_cons_self
    have hcommand : w ≠ "COMMAND" := by
      rintro rfl
      exact hw (by decide)
    have hpush : CustomCommand.push ⟨outputs, depends, commands ++ [command]⟩ "COMMAND" w =
        ⟨outputs, depends, commands ++ [command ++ [w]]⟩ := by
      simp [CustomCommand.push]
    rw [List.cons_append, readCustomTarget, if_neg hcommand, if_neg hw, if_neg (by decide), hpush,
      ih fun v hv => hws v (List.mem_cons_of_mem w hv), List.append_assoc, List.singleton_append]

/-- **A keyword is no word of a command line.** -/
theorem length_flatten_commands_le {c' : CustomCommand}
    (h : readCustomTarget keyword c args = .ok c') :
    c'.commands.flatten.length ≤
      c.commands.flatten.length + (args.filter (· ∉ targetKeywords)).length := by
  induction keyword, c, args using readCustomTarget.induct with
  | case1 keyword c =>
    obtain rfl := Except.ok.inj h
    simp
  | case2 keyword c as ih =>
    rw [readCustomTarget, if_pos rfl] at h
    have := ih h
    rw [List.filter_cons_of_neg (by decide)]
    simpa using this
  | case3 keyword c a as hcommand hkeyword ih =>
    rw [readCustomTarget, if_neg hcommand, if_pos hkeyword] at h
    rw [List.filter_cons_of_neg (by simpa using hkeyword)]
    exact ih h
  | case4 c a as hcommand hkeyword =>
    rw [readCustomTarget, if_neg hcommand, if_neg hkeyword, if_pos rfl] at h
    cases h
  | case5 keyword c a as hcommand hkeyword hverbatim ih =>
    rw [readCustomTarget, if_neg hcommand, if_neg hkeyword, if_neg hverbatim] at h
    have hlength : (c.push keyword a).commands.flatten.length ≤ c.commands.flatten.length + 1 := by
      rcases c.push_commands keyword a with hpush | hpush
      · rw [hpush]
        exact Nat.le_succ _
      · rw [hpush, List.flatten_append, List.flatten_singleton, List.length_append,
          List.length_append, List.length_singleton, ← Nat.add_assoc]
        cases hlast : c.commands.getLast? with
        | none => simp [List.getLast?_eq_none_iff.1 hlast]
        | some last =>
          have hsplit := congrArg (fun lines => lines.flatten.length)
            (List.dropLast_append_getLast? last hlast)
          rw [List.getLastD_eq_getLast?, hlast]
          simp at hsplit ⊢
          omega
    have := ih h
    rw [List.filter_cons_of_pos (by simpa using hkeyword), List.length_cons]
    omega

/-- `DEPENDS ws`, in front of other words. -/
theorem readCustomTarget_depends {depends : List String}
    (hdepends : ∀ w ∈ depends, w ∉ targetKeywords) (outputs acc : List String)
    (commands : List (List String)) :
    readCustomTarget keyword ⟨outputs, acc, commands⟩ ("DEPENDS" :: depends ++ args) =
      readCustomTarget "DEPENDS" ⟨outputs, acc ++ depends, commands⟩ args := by
  rw [List.cons_append, readCustomTarget, if_neg (by decide), if_pos (by decide)]
  induction depends generalizing acc with
  | nil => rw [List.nil_append, List.append_nil]
  | cons w ws ih =>
    have hw := hdepends w List.mem_cons_self
    have hcommand : w ≠ "COMMAND" := by
      rintro rfl
      exact hw (by decide)
    have hpush : CustomCommand.push ⟨outputs, acc, commands⟩ "DEPENDS" w =
        ⟨outputs, acc ++ [w], commands⟩ := rfl
    rw [List.cons_append, readCustomTarget, if_neg hcommand, if_neg hw, if_neg (by decide), hpush,
      ih fun v hv => hdepends v (List.mem_cons_of_mem w hv), List.append_assoc,
      List.singleton_append]

/-- **Words in front of a command line that leave it alone**: none, or names that
the target depends on. -/
def IsDepends (before : List String) : Prop :=
  before = [] ∨ ∃ depends, before = "DEPENDS" :: depends ∧ ∀ w ∈ depends, w ∉ targetKeywords

/-- They are read as what the target depends on. -/
theorem IsDepends.addCustomTarget_eq {before : List String} (h : IsDepends before)
    (ws : List String) : addCustomTarget (before ++ "COMMAND" :: ws) =
      readCustomTarget "COMMAND" ⟨[], before.tail, [[]]⟩ ws >>= fun c =>
        .ok { c with commands := c.commands.filter (· ≠ []) } := by
  rcases h with rfl | ⟨depends, rfl, hdepends⟩
  · rfl
  · rw [addCustomTarget, List.cons_append, List.head?_cons, if_neg (by decide), ← List.cons_append,
      readCustomTarget_depends hdepends, readCustomTarget, if_pos rfl]
    rfl

/-- **The command line is taken as it stands** exactly where none of its words is a
keyword. -/
theorem addCustomTarget_command_iff {before : List String} (hbefore : IsDepends before)
    (hne : ws ≠ []) :
    (∃ c, addCustomTarget (before ++ "COMMAND" :: ws) = .ok c ∧ c.commands = [ws]) ↔
      ∀ w ∈ ws, w ∉ targetKeywords := by
  rw [hbefore.addCustomTarget_eq]
  constructor
  · rintro ⟨c, hc, hcommands⟩ w hw
    rw [bind_eq_ok_iff] at hc
    obtain ⟨c', hc', hfilter⟩ := hc
    obtain rfl := Except.ok.inj hfilter
    have hlength := length_flatten_commands_le hc'
    have hflatten : (c'.commands.filter (· ≠ [])).flatten = c'.commands.flatten := by
      generalize c'.commands = lines
      induction lines with
      | nil => rfl
      | cons line lines ih =>
        cases line with
        | nil => simpa using ih
        | cons v vs => simpa using ih
    rw [← hflatten, show c'.commands.filter (· ≠ []) = [ws] from hcommands] at hlength
    have hall : ws.filter (· ∉ targetKeywords) = ws :=
      List.filter_sublist.eq_of_length_le (by simpa using hlength)
    simpa using List.filter_eq_self.1 hall w hw
  · intro hws
    have hread := @readCustomTarget_words [] ws hws [] before.tail [] []
    rw [List.append_nil] at hread
    refine ⟨⟨[], before.tail, [ws]⟩, ?_, rfl⟩
    rw [show (⟨[], before.tail, [[]]⟩ : CustomCommand) = ⟨[], before.tail, [] ++ [[]]⟩ from rfl,
      hread, readCustomTarget, ok_bind]
    simp [hne]

/-! ## The first command line -/

section First

variable {x : List String} {xs : List (List String)} {w : String}

/-- Only the last command line grows. -/
theorem CustomCommand.exists_push_eq_cons (hc : c.commands = x :: xs)
    (h : keyword ≠ "COMMAND" ∨ xs ≠ []) :
    ∃ ys, (c.push keyword w).commands = x :: ys ∧ (keyword ≠ "COMMAND" ∨ ys ≠ []) := by
  unfold CustomCommand.push
  split_ifs with houtput hdepends hcommand
  · exact ⟨xs, hc, h⟩
  · exact ⟨xs, hc, h⟩
  · have hxs : xs ≠ [] := h.resolve_left (not_not.2 hcommand)
    refine ⟨xs.dropLast ++ [c.commands.getLastD [] ++ [w]], ?_, .inr (by simp)⟩
    simp only [hc, List.dropLast_cons_of_ne_nil hxs, List.cons_append]
  · exact ⟨xs, hc, h⟩

/-- Where another section has begun, the first command line stays as it is. -/
theorem exists_readCustomCommand_eq_cons (hc : c.commands = x :: xs)
    (h : keyword ≠ "COMMAND" ∨ xs ≠ []) :
    ∃ ys, (readCustomCommand keyword c args).commands = x :: ys := by
  induction keyword, c, args using readCustomCommand.induct generalizing xs with
  | case1 keyword c => exact ⟨xs, hc⟩
  | case2 keyword c as ih =>
    rw [readCustomCommand, if_pos rfl]
    exact ih (show c.commands ++ [[]] = x :: (xs ++ [[]]) by simp [hc]) (.inr (by simp))
  | case3 keyword c a as hcommand hsection ih =>
    rw [readCustomCommand, if_neg hcommand, if_pos hsection]
    exact ih hc (.inl hcommand)
  | case4 keyword c a as hcommand hsection hmark ih =>
    rw [readCustomCommand, if_neg hcommand, if_neg hsection, if_pos hmark]
    exact ih hc h
  | case5 keyword c a as hcommand hsection hmark ih =>
    rw [readCustomCommand, if_neg hcommand, if_neg hsection, if_neg hmark]
    obtain ⟨ys, hys, hkeyword⟩ := CustomCommand.exists_push_eq_cons hc h
    exact ih hys hkeyword

theorem exists_readCustomTarget_eq_cons {c' : CustomCommand}
    (hread : readCustomTarget keyword c args = .ok c') (hc : c.commands = x :: xs)
    (h : keyword ≠ "COMMAND" ∨ xs ≠ []) : ∃ ys, c'.commands = x :: ys := by
  induction keyword, c, args using readCustomTarget.induct generalizing xs with
  | case1 keyword c =>
    obtain rfl := Except.ok.inj hread
    exact ⟨xs, hc⟩
  | case2 keyword c as ih =>
    rw [readCustomTarget, if_pos rfl] at hread
    exact ih hread (show c.commands ++ [[]] = x :: (xs ++ [[]]) by simp [hc]) (.inr (by simp))
  | case3 keyword c a as hcommand hkeyword ih =>
    rw [readCustomTarget, if_neg hcommand, if_pos hkeyword] at hread
    exact ih hread hc (.inl hcommand)
  | case4 c a as hcommand hkeyword =>
    rw [readCustomTarget, if_neg hcommand, if_neg hkeyword, if_pos rfl] at hread
    cases hread
  | case5 keyword c a as hcommand hkeyword hverbatim ih =>
    rw [readCustomTarget, if_neg hcommand, if_neg hkeyword, if_neg hverbatim] at hread
    obtain ⟨ys, hys, hnext⟩ := CustomCommand.exists_push_eq_cons (w := a) hc h
    exact ih hread hys hnext

/-- **The first command line**: of the words in front of the next one, at most those
that are no keywords. -/
theorem exists_first_readCustomCommand (outputs depends acc : List String) :
    ∃ line ys, (readCustomCommand "COMMAND" ⟨outputs, depends, [acc]⟩
        (ws ++ "COMMAND" :: args)).commands = (acc ++ line) :: ys ∧
      line.length ≤ (ws.filter (· ∉ customKeywords)).length := by
  induction ws generalizing acc with
  | nil =>
    obtain ⟨ys, hys⟩ := @exists_readCustomCommand_eq_cons
      ⟨outputs, depends, [acc, []]⟩ "COMMAND" args _ _ rfl (.inr (by simp))
    rw [List.nil_append, readCustomCommand, if_pos rfl]
    exact ⟨[], ys, by rw [List.append_nil]; exact hys, Nat.zero_le _⟩
  | cons w ws ih =>
    rw [List.cons_append, readCustomCommand]
    split_ifs with hcommand hsection hmark
    -- a keyword ends the line, or is left out of it
    · obtain ⟨ys, hys⟩ := @exists_readCustomCommand_eq_cons ⟨outputs, depends, [acc, []]⟩ w
        (ws ++ "COMMAND" :: args) _ _ rfl (.inr (by simp))
      exact ⟨[], ys, by rw [List.append_nil]; exact hys, Nat.zero_le _⟩
    · obtain ⟨ys, hys⟩ := @exists_readCustomCommand_eq_cons ⟨outputs, depends, [acc]⟩ w
        (ws ++ "COMMAND" :: args) _ _ rfl (.inl hcommand)
      exact ⟨[], ys, by rw [hys, List.append_nil], Nat.zero_le _⟩
    · obtain ⟨line, ys, hys, hlength⟩ := ih acc
      rw [List.filter_cons_of_neg (by simp [customKeywords, hmark])]
      exact ⟨line, ys, hys, hlength⟩
    · obtain ⟨line, ys, hys, hlength⟩ := ih (acc ++ [w])
      rw [List.filter_cons_of_pos (by simp [customKeywords, hsection, hmark])]
      exact ⟨w :: line, ys, by simpa [CustomCommand.push] using hys, Nat.succ_le_succ hlength⟩

theorem exists_first_readCustomTarget {c' : CustomCommand} {outputs depends acc : List String}
    (hread : readCustomTarget "COMMAND" ⟨outputs, depends, [acc]⟩ (ws ++ "COMMAND" :: args) =
      .ok c') : ∃ line ys, c'.commands = (acc ++ line) :: ys ∧
        line.length ≤ (ws.filter (· ∉ targetKeywords)).length := by
  induction ws generalizing acc with
  | nil =>
    rw [List.nil_append, readCustomTarget, if_pos rfl] at hread
    obtain ⟨ys, hys⟩ :=
      exists_readCustomTarget_eq_cons hread (show _ = acc :: [[]] from rfl) (.inr (by simp))
    exact ⟨[], ys, by rw [hys, List.append_nil], Nat.zero_le _⟩
  | cons w ws ih =>
    rw [List.cons_append, readCustomTarget] at hread
    split_ifs at hread with hcommand hkeyword hverbatim
    · obtain ⟨ys, hys⟩ :=
        exists_readCustomTarget_eq_cons hread (show _ = acc :: [[]] from rfl) (.inr (by simp))
      exact ⟨[], ys, by rw [hys, List.append_nil], Nat.zero_le _⟩
    · obtain ⟨ys, hys⟩ :=
        exists_readCustomTarget_eq_cons hread (show _ = acc :: [] from rfl) (.inl hcommand)
      exact ⟨[], ys, by rw [hys, List.append_nil], Nat.zero_le _⟩
    · have hpush : CustomCommand.push ⟨outputs, depends, [acc]⟩ "COMMAND" w =
          ⟨outputs, depends, [acc ++ [w]]⟩ := by simp [CustomCommand.push]
      rw [hpush] at hread
      obtain ⟨line, ys, hys, hlength⟩ := ih hread
      rw [List.filter_cons_of_pos (by simpa using hkeyword)]
      exact ⟨w :: line, ys, by rw [hys]; simp, Nat.succ_le_succ hlength⟩

/-- A line of words that are no keywords is the first one. -/
theorem exists_readCustomCommand_command (hws : ∀ w ∈ ws, w ∉ customKeywords)
    (outputs depends : List String) :
    ∃ ys, (readCustomCommand keyword ⟨outputs, depends, []⟩
      ("COMMAND" :: ws ++ "COMMAND" :: args)).commands = ws :: ys := by
  rw [readCustomCommand_command hws, readCustomCommand, if_pos rfl]
  exact exists_readCustomCommand_eq_cons (show _ = ws :: [[]] from rfl) (.inr (by simp))

/-- **Arguments that are read without an error**, whatever stands in front. -/
def ReadsOn (args : List String) : Prop :=
  ∀ keyword c, ∃ c', readCustomTarget keyword c args = .ok c'

theorem readsOn_comment (hw : w ∉ targetKeywords) : ReadsOn ["COMMENT", w] := by
  intro keyword c
  have hne : w ≠ "COMMAND" := by
    rintro rfl
    exact hw (by decide)
  exact ⟨c.push "COMMENT" w, by rw [readCustomTarget, if_neg (by decide), if_pos (by decide),
    readCustomTarget, if_neg hne, if_neg hw, if_neg (by decide), readCustomTarget]⟩

/-- One word in front of a keyword may be anything. -/
theorem ReadsOn.command {vs : List String} (h : ReadsOn args)
    (hws : ∀ w ∈ ws, w ∉ targetKeywords) (hvs : vs.length ≤ 1) :
    ReadsOn ("COMMAND" :: ws ++ vs ++ args) := by
  intro keyword c
  have hline : readCustomTarget keyword c ("COMMAND" :: ws ++ vs ++ args) = readCustomTarget
      "COMMAND" { c with commands := c.commands ++ [ws] } (vs ++ args) := by
    rw [List.cons_append, List.cons_append, readCustomTarget, if_pos rfl, List.append_assoc,
      readCustomTarget_words hws, List.nil_append]
  rw [hline]
  rcases vs with _ | ⟨v, _ | ⟨u, vs⟩⟩
  · exact h _ _
  · rw [List.singleton_append, readCustomTarget]
    split_ifs with hcommand hkeyword hverbatim
    · exact h _ _
    · exact h _ _
    · exact absurd hverbatim (by decide)
    · exact h _ _
  · simp at hvs

/-- Reading can be cut anywhere. -/
theorem exists_readCustomCommand_append (ws : List String) (keyword : String)
    (c : CustomCommand) : ∃ keyword' c', ∀ args,
      readCustomCommand keyword c (ws ++ args) = readCustomCommand keyword' c' args := by
  induction ws generalizing keyword c with
  | nil => exact ⟨keyword, c, fun _ => rfl⟩
  | cons w ws ih =>
    simp only [List.cons_append, readCustomCommand]
    split_ifs
    · exact ih _ _
    · exact ih _ _
    · exact ih _ _
    · exact ih _ _

/-- An output that is read stays. -/
theorem outputs_readCustomCommand_ne_nil (h : c.outputs ≠ []) :
    (readCustomCommand keyword c args).outputs ≠ [] := by
  have hpush : ∀ {c : CustomCommand} {keyword w : String}, c.outputs ≠ [] →
      (c.push keyword w).outputs ≠ [] := by
    intro c keyword w hc
    unfold CustomCommand.push
    split_ifs
    · simp
    · exact hc
    · exact hc
    · exact hc
  induction args generalizing keyword c with
  | nil => exact h
  | cons a args ih =>
    rw [readCustomCommand]
    split_ifs
    · exact ih h
    · exact ih h
    · exact ih h
    · exact ih (hpush h)

/-- **Arguments that name no output**, whatever stands in front. -/
def NoOutput (args : List String) : Prop :=
  ∀ keyword c, c.outputs = [] → (readCustomCommand keyword c args).outputs = []

/-- Words behind a keyword for something else name none. -/
theorem exists_readCustomCommand_words (hkeyword : keyword ≠ "OUTPUT") (hc : c.outputs = [])
    (hws : ∀ w ∈ ws, w ∉ customKeywords) : ∃ c', readCustomCommand keyword c (ws ++ args) =
      readCustomCommand keyword c' args ∧ c'.outputs = [] := by
  refine ⟨_, readCustomCommand_words hws, ?_⟩
  clear hws
  induction ws generalizing c with
  | nil => exact hc
  | cons w ws ih =>
    refine ih (?_ : (c.push keyword w).outputs = [])
    unfold CustomCommand.push
    rw [if_neg hkeyword]
    split_ifs <;> exact hc

theorem noOutput_comment (hw : w ∉ customKeywords) : NoOutput ["COMMENT", w] := by
  intro keyword c hc
  rw [readCustomCommand, if_neg (by decide), if_pos (by decide)]
  obtain ⟨c', hread, hc'⟩ := @exists_readCustomCommand_words c "COMMENT" [] [w] (by decide) hc
    (by simpa using hw)
  rw [List.append_nil] at hread
  rw [hread, readCustomCommand]
  exact hc'

/-- A keyword in place of an output is none. -/
theorem NoOutput.output {vs : List String} (h : NoOutput args)
    (hvs : vs.length ≤ 1) (hkeyword : ∀ v ∈ vs, v ∈ customKeywords) :
    NoOutput ("OUTPUT" :: vs ++ args) := by
  intro keyword c hc
  rw [List.cons_append, readCustomCommand, if_neg (by decide), if_pos (by decide)]
  rcases vs with _ | ⟨v, _ | ⟨u, vs⟩⟩
  · exact h _ _ hc
  · have hv := hkeyword v List.mem_cons_self
    rw [customKeywords, List.mem_append] at hv
    rw [List.singleton_append, readCustomCommand]
    split_ifs with hcommand hsection hmark
    · exact h _ _ hc
    · exact h _ _ hc
    · exact h _ _ hc
    · exact absurd hv (by simp [hsection, hmark])
  · simp at hvs

theorem NoOutput.command {vs : List String} (h : NoOutput args)
    (hws : ∀ w ∈ ws, w ∉ customKeywords) (hvs : vs.length ≤ 1) :
    NoOutput ("COMMAND" :: ws ++ vs ++ args) := by
  intro keyword c hc
  rw [List.cons_append, List.cons_append, readCustomCommand, if_pos rfl, List.append_assoc]
  obtain ⟨c', hread, hc'⟩ := @exists_readCustomCommand_words
    { c with commands := c.commands ++ [[]] } "COMMAND" (vs ++ args) ws (by decide) hc hws
  rw [hread]
  rcases vs with _ | ⟨v, _ | ⟨u, vs⟩⟩
  · exact h _ _ hc'
  · have hpush : (c'.push "COMMAND" v).outputs = [] := by
      simpa [CustomCommand.push] using hc'
    rw [List.singleton_append, readCustomCommand]
    split_ifs with hcommand hsection hmark
    · exact h _ _ hc'
    · exact h _ _ hc'
    · exact h _ _ hc'
    · exact h _ _ hpush
  · simp at hvs

/-! ### Of a whole call -/

variable {depends : List String}

/-- The first command line of `add_custom_target`, behind what the target depends
on, begins with a word that is no keyword. -/
theorem exists_first_addCustomTarget {c' : CustomCommand}
    (hdepends : ∀ v ∈ depends, v ∉ targetKeywords) (hw : w ∉ targetKeywords)
    (hread : addCustomTarget ("DEPENDS" :: depends ++ ("COMMAND" :: w :: ws ++ "COMMAND" :: args)) =
      .ok c') : ∃ line ys, c'.commands = line :: ys ∧
        line.length ≤ ((w :: ws).filter (· ∉ targetKeywords)).length := by
  have hne : w ≠ "COMMAND" := by
    rintro rfl
    exact hw (by decide)
  have hpush : CustomCommand.push ⟨[], depends, [[]]⟩ "COMMAND" w = ⟨[], depends, [[w]]⟩ := rfl
  have hbefore : IsDepends ("DEPENDS" :: depends) := .inr ⟨depends, rfl, hdepends⟩
  have hargs : addCustomTarget ("DEPENDS" :: depends ++ ("COMMAND" :: w :: ws ++ "COMMAND" :: args)) =
      _ := hbefore.addCustomTarget_eq (w :: (ws ++ "COMMAND" :: args))
  rw [hargs, List.tail_cons, readCustomTarget, if_neg hne, if_neg hw, if_neg (by decide),
    hpush] at hread
  obtain ⟨d, hd, hfilter⟩ := bind_eq_ok_iff.1 hread
  obtain ⟨line, ys, hys, hlength⟩ := exists_first_readCustomTarget hd
  refine ⟨w :: line, ys.filter (· ≠ []), ?_, ?_⟩
  · rw [← Except.ok.inj hfilter, hys]
    simp
  · rw [List.filter_cons_of_pos (by simpa using hw)]
    exact Nat.succ_le_succ hlength

/-- Words that are no keywords are the first command line. -/
theorem exists_addCustomTarget_command (hdepends : ∀ v ∈ depends, v ∉ targetKeywords)
    (hws : ∀ w ∈ ws, w ∉ targetKeywords) (hne : ws ≠ []) (hreads : ReadsOn ("COMMAND" :: args)) :
    ∃ c' ys, addCustomTarget ("DEPENDS" :: depends ++ ("COMMAND" :: ws ++ "COMMAND" :: args)) =
      .ok c' ∧ c'.commands = ws :: ys := by
  have hbefore : IsDepends ("DEPENDS" :: depends) := .inr ⟨depends, rfl, hdepends⟩
  have hargs : addCustomTarget ("DEPENDS" :: depends ++ ("COMMAND" :: ws ++ "COMMAND" :: args)) =
      _ := hbefore.addCustomTarget_eq (ws ++ "COMMAND" :: args)
  rw [List.tail_cons, show (⟨[], depends, [[]]⟩ : CustomCommand) = ⟨[], depends, [] ++ [[]]⟩ from
    rfl, readCustomTarget_words hws, List.nil_append, List.nil_append] at hargs
  obtain ⟨d, hd⟩ := hreads "COMMAND" ⟨[], depends, [ws]⟩
  have hkept := hd
  rw [readCustomTarget, if_pos rfl] at hkept
  obtain ⟨ys, hys⟩ :=
    exists_readCustomTarget_eq_cons hkept (show _ = ws :: [[]] from rfl) (.inr (by simp))
  refine ⟨{ d with commands := d.commands.filter (· ≠ []) }, ys.filter (· ≠ []), ?_, ?_⟩
  · rw [hargs, hd, ok_bind]
  · rw [hys]
    simp [hne]

/-- The first command line of `add_custom_command`. -/
theorem exists_first_addCustomCommand (hdepends : ∀ v ∈ depends, v ∉ customKeywords) :
    ∃ line ys, (addCustomCommand ("DEPENDS" :: depends ++ ("COMMAND" :: ws ++
        "COMMAND" :: args))).commands = line :: ys ∧
      line.length ≤ (ws.filter (· ∉ customKeywords)).length := by
  rw [addCustomCommand, readCustomCommand_depends hdepends, List.cons_append, readCustomCommand,
    if_pos rfl]
  exact exists_first_readCustomCommand [] ([] ++ depends) []

theorem exists_addCustomCommand_command (hdepends : ∀ v ∈ depends, v ∉ customKeywords)
    (hws : ∀ w ∈ ws, w ∉ customKeywords) :
    ∃ ys, (addCustomCommand ("DEPENDS" :: depends ++ ("COMMAND" :: ws ++
      "COMMAND" :: args))).commands = ws :: ys := by
  rw [addCustomCommand, readCustomCommand_depends hdepends]
  exact exists_readCustomCommand_command hws _ _

/-- A word that is no keyword is an output. -/
theorem outputs_addCustomCommand_ne_nil (before : List String) (hw : w ∉ customKeywords) :
    (addCustomCommand (before ++ "OUTPUT" :: w :: args)).outputs ≠ [] := by
  obtain ⟨keyword, c, hread⟩ := exists_readCustomCommand_append before "" ⟨[], [], []⟩
  simp only [customKeywords, List.mem_append, not_or] at hw
  have hcommand : w ≠ "COMMAND" := by
    rintro rfl
    exact hw.1 (by decide)
  rw [addCustomCommand, hread, readCustomCommand, if_neg (by decide), if_pos (by decide),
    readCustomCommand, if_neg hcommand, if_neg hw.1, if_neg hw.2]
  exact outputs_readCustomCommand_ne_nil (by simp [CustomCommand.push])

/-- Without one there is none. -/
theorem outputs_addCustomCommand_eq_nil (hdepends : ∀ v ∈ depends, v ∉ customKeywords)
    (hws : ∀ w ∈ ws, w ∉ customKeywords) (hargs : NoOutput args) :
    (addCustomCommand ("DEPENDS" :: depends ++ ("COMMAND" :: ws ++ args))).outputs = [] := by
  rw [addCustomCommand, readCustomCommand_depends hdepends, readCustomCommand_command hws]
  exact hargs _ _ rfl

end First

end CMake

end Supercell
