import Supercell.CMake.CustomCommand
import Supercell.Common.Builds

/-!
# CMake — the command lines of a rule

What a custom command does when the build runs it: its command lines, one after
the other, over the files. `cmake -E` removes and copies files. What the other
programs write is a parameter, and each reads no more than the files that its
command line names.
-/

namespace Supercell

namespace CMake

open Builds

variable {Content : Type*}

/-- **The programs of a build.** -/
structure Programs (Content : Type*) where
  /-- CMake itself. -/
  cmake : String
  /-- The file that a word of `DEPENDS` stands for: the one that a target makes,
  or the one that it names. -/
  file : String → String
  /-- The file that a command line of another program writes. -/
  target : List String → Option String
  /-- What it writes there. -/
  output : List String → Contents String Content → Content

/-- **What is known of the programs**: they read the files that they are
given. -/
structure Programs.Documented (p : Programs Content) : Prop where
  reads : ∀ line (d d' : Contents String Content), (∀ w ∈ line, d w = d' w) →
    p.output line d = p.output line d'

/-- A command line, as far as CMake is called. -/
inductive Line where
  /-- `cmake -E remove -f files`. -/
  | remove (files : List String)
  /-- `cmake -E copy source destination`. -/
  | copy (source destination : String)
  /-- Another program. -/
  | other (line : List String)

def Programs.line (p : Programs Content) : List String → Line
  | [w, "-E", "copy", source, destination] =>
    if w = p.cmake then .copy source destination
    else .other [w, "-E", "copy", source, destination]
  | w :: "-E" :: "remove" :: "-f" :: files =>
    if w = p.cmake then .remove files else .other (w :: "-E" :: "remove" :: "-f" :: files)
  | words => .other words

/-- The files that a command line leaves changed. -/
def Programs.writes (p : Programs Content) (words : List String) : List String :=
  match p.line words with
  | .remove files => files
  | .copy _ destination => [destination]
  | .other words => (p.target words).toList

/-- **A command line runs.** -/
def Programs.run (p : Programs Content) (d : Contents String Content) (words : List String) :
    Contents String Content :=
  match p.line words with
  | .remove files => fun f => if f ∈ files then none else d f
  | .copy source destination => fun f => if f = destination then d source else d f
  | .other words =>
    match p.target words with
    | some o => fun f => if f = o then some (p.output words d) else d f
    | none => d

/-- The command lines of a rule run. -/
def CustomCommand.result (p : Programs Content) (c : CustomCommand) (d : Contents String Content) :
    Contents String Content :=
  c.commands.foldl p.run d

/-- **The rule of a custom command.** -/
def CustomCommand.toRule [Inhabited Content] (p : Programs Content) (c : CustomCommand) :
    Rule String Content where
  outputs := c.outputs
  inputs := c.depends.map p.file
  byproducts := (c.commands.flatMap p.writes).filter (· ∉ c.outputs)
  recipe d f := (c.result p d f).getD default

/-- The words of the command lines that are neither made by the rule nor
declared. -/
def CustomCommand.undeclared (p : Programs Content) (c : CustomCommand) : List String :=
  c.commands.flatten.filter fun w => w ∉ c.depends.map p.file ∧ w ∉ c.outputs

/-- The rules of a build that are custom commands. -/
def customCommands (rules : List BuildRule) : List CustomCommand :=
  rules.filterMap fun
    | .custom c => some c
    | _ => none

variable {p : Programs Content} {c : CustomCommand} {d d' : Contents String Content}
  {words : List String} {f o : String}

/-! ## What command lines write -/

theorem run_of_notMem (hf : f ∉ p.writes words) : p.run d words f = d f := by
  unfold Programs.writes at hf
  unfold Programs.run
  cases hline : p.line words with
  | remove files =>
    rw [hline] at hf
    exact if_neg hf
  | copy source destination =>
    rw [hline] at hf
    exact if_neg fun h => hf (List.mem_singleton.2 h)
  | other ws =>
    rw [hline] at hf
    dsimp only at hf ⊢
    cases htarget : p.target ws with
    | none => rfl
    | some o =>
      rw [htarget] at hf
      exact if_neg fun h => hf (List.mem_singleton.2 h)

/-- **The rest stays**: command lines change only what they write. -/
theorem foldl_run_of_notMem {lines : List (List String)} (hf : f ∉ lines.flatMap p.writes) :
    lines.foldl p.run d f = d f := by
  induction lines generalizing d with
  | nil => rfl
  | cons words lines ih =>
    rw [List.flatMap_cons, List.mem_append, not_or] at hf
    rw [List.foldl_cons, ih hf.2, run_of_notMem hf.1]

/-- The files that a rule writes are those of its command lines, and its
outputs. -/
theorem mem_written [Inhabited Content] :
    f ∈ (c.toRule p).written ↔ f ∈ c.outputs ∨ f ∈ c.commands.flatMap p.writes := by
  unfold Rule.written CustomCommand.toRule
  rw [List.mem_append, List.mem_filter, decide_eq_true_eq]
  by_cases hout : f ∈ c.outputs <;> simp [hout]

/-- **A rule that runs is its command lines**, as long as they leave what they
write. -/
theorem run_toRule [Inhabited Content] {s : Tree String Content}
    (hleft : ∀ f ∈ (c.toRule p).written, c.result p s.disk f ≠ none) :
    ((c.toRule p).run s).disk = c.result p s.disk := by
  funext f
  simp only [Rule.run, Tree.write]
  by_cases hf : f ∈ (c.toRule p).written
  · rw [if_pos hf]
    obtain ⟨content, hcontent⟩ := Option.ne_none_iff_exists'.1 (hleft f hf)
    simp only [CustomCommand.toRule, hcontent, Option.getD_some]
  · rw [if_neg hf]
    rw [mem_written, not_or] at hf
    exact (foldl_run_of_notMem hf.2).symm

/-! ## Rules that make one file anew -/

/-- A program other than CMake is called. -/
def Programs.Calls (p : Programs Content) (words : List String) (o : String) : Prop :=
  (∀ w ∈ words.head?, w ≠ p.cmake) ∧ p.target words = some o

/-- **A rule that removes its output** and has one program make it anew. -/
structure Remakes (p : Programs Content) (c : CustomCommand) (o : String) (words : List String) :
    Prop where
  outputs : c.outputs = [o]
  commands : c.commands = [[p.cmake, "-E", "remove", "-f", o], words]
  calls : p.Calls words o

theorem line_of_head (h : ∀ w ∈ words.head?, w ≠ p.cmake) : p.line words = .other words := by
  unfold Programs.line
  split
  · rw [if_neg (h _ rfl)]
  · rw [if_neg (h _ rfl)]
  · rfl

theorem line_remove (p : Programs Content) (files : List String) :
    p.line (p.cmake :: "-E" :: "remove" :: "-f" :: files) = .remove files := by
  unfold Programs.line
  split
  · rename_i heq
    simp at heq
  · rename_i heq
    simp only [List.cons.injEq, true_and] at heq
    obtain ⟨rfl, rfl⟩ := heq
    exact if_pos rfl
  · rename_i hnone
    exact absurd rfl (hnone _ _)

/-- `cmake -E copy source destination`. -/
theorem run_copy (d : Contents String Content) (source destination : String) :
    p.run d [p.cmake, "-E", "copy", source, destination] =
      fun f => if f = destination then d source else d f := by
  have hline : p.line [p.cmake, "-E", "copy", source, destination] = .copy source destination :=
    if_pos rfl
  rw [Programs.run, hline]

theorem run_calls (h : p.Calls words o) (d : Contents String Content) :
    p.run d words = fun f => if f = o then some (p.output words d) else d f := by
  unfold Programs.run
  rw [line_of_head h.1]
  dsimp only
  rw [h.2]

/-- The files without one of them. -/
def without (d : Contents String Content) (o : String) : Contents String Content :=
  fun f => if f = o then none else d f

/-- **What such a rule leaves**: what the program makes of the other files. -/
theorem Remakes.result (h : Remakes p c o words) (d : Contents String Content) :
    c.result p d = fun f => if f = o then some (p.output words (without d o)) else d f := by
  have hremove : p.run d [p.cmake, "-E", "remove", "-f", o] = without d o := by
    unfold Programs.run
    rw [line_remove]
    funext f
    simp [without]
  rw [CustomCommand.result, h.commands, List.foldl_cons, hremove, List.foldl_cons, List.foldl_nil,
    run_calls h.calls]
  funext f
  by_cases hf : f = o
  · rw [if_pos hf, if_pos hf]
  · rw [if_neg hf, if_neg hf, without, if_neg hf]

theorem Remakes.recipe [Inhabited Content] (h : Remakes p c o words) (d : Contents String Content) :
    (c.toRule p).recipe d o = p.output words (without d o) := by
  have hresult : c.result p d o = some (p.output words (without d o)) := by
    rw [h.result d]
    exact if_pos rfl
  exact congrArg (Option.getD · default) hresult

/-- It writes nothing else. -/
theorem Remakes.written [Inhabited Content] (h : Remakes p c o words) :
    f ∈ (c.toRule p).written ↔ f = o := by
  have hremove : p.writes [p.cmake, "-E", "remove", "-f", o] = [o] := by
    rw [Programs.writes, line_remove]
  have hwords : p.writes words = [o] := by
    rw [Programs.writes, line_of_head h.calls.1]
    dsimp only
    rw [h.calls.2]
    rfl
  rw [mem_written, h.outputs, h.commands, List.flatMap_cons, List.flatMap_cons, List.flatMap_nil,
    hremove, hwords]
  simp

/-- **It reads what it declares**, and the other words of its command line: what
was in the output is gone before the program runs. -/
theorem Remakes.declares [Inhabited Content] (h : Remakes p c o words) (hp : p.Documented)
    {fixed : String → Prop} (hfixed : ∀ w ∈ c.undeclared p, fixed w) :
    (c.toRule p).Declares fixed := by
  intro d d' hinputs hagree f hf
  obtain rfl : f = o := by
    have hf' : f ∈ c.outputs := hf
    rw [h.outputs] at hf'
    exact List.mem_singleton.1 hf'
  rw [h.recipe, h.recipe]
  refine hp.reads words _ _ fun w hw => ?_
  unfold without
  split
  · rfl
  · rename_i hne
    by_cases hin : w ∈ c.depends.map p.file
    · exact hinputs w hin
    · refine hagree w (hfixed w ?_)
      rw [CustomCommand.undeclared, List.mem_filter, h.commands, h.outputs]
      refine ⟨by simp [hw], ?_⟩
      rw [decide_eq_true_eq, List.mem_singleton]
      exact ⟨hin, hne⟩

/-! ## Incremental builds -/

/-- A tree in which the rules have made nothing. -/
structure Unbuilt (rules : List (Rule String Content)) (s : Tree String Content) : Prop where
  past : ∀ f, s.time f < s.clock
  none : ∀ r ∈ rules, ∀ o ∈ r.written, s.disk o = none

/-- **A history of plain work**: what the rules write is not edited, nor is what
they read without declaring it. -/
def PlainWork (p : Programs Content) (commands : List CustomCommand)
    (events : List (Event String Content)) : Prop :=
  ∀ f content, .edit f content ∈ events → ∀ c ∈ commands, f ∉ c.outputs ∧ f ∉ c.undeclared p

/-- **Incremental builds do.** In any order of the rules in which they fit
together, a build at the end of a history of plain work ends. To run the command
lines again changes no output, and a build from scratch makes the same. -/
def Incremental [Inhabited Content] (p : Programs Content) (commands : List CustomCommand) : Prop :=
  ∀ rules : List (Rule String Content), rules.Perm (commands.map fun c => c.toRule p) →
    Arranged rules → ∀ s events, Unbuilt rules s → PlainWork p commands events →
      (∀ c ∈ commands, ∀ w ∈ c.depends, (s.disk (p.file w)).isSome = true ∨
        ∃ c' ∈ commands, p.file w ∈ c'.outputs) →
      ∃ s', history rules s (events ++ [.build]) = some s' ∧ ∀ c ∈ commands, ∀ o ∈ c.outputs,
        s'.disk o = c.result p s'.disk o ∧ s'.disk o = clean rules (sources rules s'.disk) o

variable {commands : List CustomCommand}

/-- **Rules that make one file each anew** fit together where no file is made
twice, and none is needed before it is made. -/
theorem arranged_of_remakes [Inhabited Content]
    (hremakes : ∀ c ∈ commands, ∃ o words, Remakes p c o words)
    (hdisjoint : commands.Pairwise fun c c' => ∀ o ∈ c.outputs, o ∉ c'.outputs)
    (hforward : commands.Pairwise fun c c' => ∀ o ∈ c'.outputs, o ∉ c.depends.map p.file)
    (hloopless : ∀ c ∈ commands, ∀ o ∈ c.outputs, o ∉ c.depends.map p.file) :
    Arranged (commands.map fun c => c.toRule p) := by
  have hwritten : ∀ c ∈ commands, ∀ f, f ∈ (c.toRule p).written ↔ f ∈ c.outputs := by
    intro c hc f
    obtain ⟨o, words, h⟩ := hremakes c hc
    rw [h.written, h.outputs, List.mem_singleton]
  constructor
  · rw [List.pairwise_map]
    refine hdisjoint.imp_of_mem fun {c c'} hc hc' h f hf hf' => ?_
    exact h f ((hwritten c hc f).1 hf) ((hwritten c' hc' f).1 hf')
  · rw [List.pairwise_map]
    exact hforward.imp_of_mem fun {c c'} _ hc' h f hf => h f ((hwritten c' hc' f).1 hf)
  · intro r hr f hf
    obtain ⟨c, hc, rfl⟩ := List.mem_map.1 hr
    exact hloopless c hc f ((hwritten c hc f).1 hf)
  · intro r _ r' hr' f hf
    obtain ⟨c, hc, rfl⟩ := List.mem_map.1 hr'
    have hout := (hwritten c hc f).1 (List.mem_append_right _ hf)
    have hnot := (List.mem_filter.1 hf).2
    rw [decide_eq_true_eq] at hnot
    exact absurd hout hnot

/-- **Such rules are incremental** where none writes what another one reads
without declaring it. -/
theorem incremental_of_remakes [Inhabited Content] (hp : p.Documented)
    (hremakes : ∀ c ∈ commands, ∃ o words, Remakes p c o words)
    (hundeclared : ∀ c ∈ commands, ∀ w ∈ c.undeclared p, ∀ c' ∈ commands, w ∉ c'.outputs) :
    Incremental p commands := by
  intro rules hperm harranged s events hunbuilt hwork hinputs
  have hmem : ∀ r, r ∈ rules ↔ ∃ c ∈ commands, c.toRule p = r := fun r => by
    rw [hperm.mem_iff, List.mem_map]
  have hwritten : ∀ c ∈ commands, ∀ f, f ∈ (c.toRule p).written ↔ f ∈ c.outputs := by
    intro c hc f
    obtain ⟨o, words, h⟩ := hremakes c hc
    rw [h.written, h.outputs, List.mem_singleton]
  let fixed : String → Prop := fun w => ∃ c ∈ commands, w ∈ c.undeclared p
  have hdeclares : ∀ r ∈ rules, r.Declares fixed := by
    intro r hr
    obtain ⟨c, hc, rfl⟩ := (hmem r).1 hr
    obtain ⟨o, words, h⟩ := hremakes c hc
    exact h.declares hp fun w hw => ⟨c, hc, hw⟩
  have hfixed : ∀ f, fixed f → ∀ r ∈ rules, f ∉ r.written := by
    rintro f ⟨c, hc, hf⟩ r hr hw
    obtain ⟨c', hc', rfl⟩ := (hmem r).1 hr
    exact hundeclared c hc f hf c' hc' ((hwritten c' hc' f).1 hw)
  have hedits : Edits rules events := by
    intro f content he r hr hw
    obtain ⟨c, hc, rfl⟩ := (hmem r).1 hr
    exact (hwork f content he c hc).1 ((hwritten c hc f).1 hw)
  have hkept : Kept rules fixed s := fun r hr o ho hdisk =>
    absurd (hunbuilt.none r hr o ho) hdisk
  obtain ⟨s', hs', hbuilt⟩ := history_clean harranged hdeclares hfixed hedits
    (fun f content he ⟨c, hc, hf⟩ => (hwork f content he c hc).2 hf)
    (Consistent.start hunbuilt.past hunbuilt.none) hkept (by
      intro r hr i hi
      obtain ⟨c, hc, rfl⟩ := (hmem r).1 hr
      obtain ⟨w, hw, rfl⟩ := List.mem_map.1 hi
      refine (hinputs c hc w hw).imp_right ?_
      rintro ⟨c', hc', hout⟩
      exact ⟨_, (hmem _).2 ⟨c', hc', rfl⟩, hout⟩)
  refine ⟨s', hs', fun c hc o ho => ?_⟩
  obtain ⟨o', words, h⟩ := hremakes c hc
  obtain rfl : o = o' := by
    rw [h.outputs] at ho
    exact List.mem_singleton.1 ho
  obtain ⟨hmade, hclean⟩ := hbuilt _ ((hmem _).2 ⟨c, hc, rfl⟩) o ho
  refine ⟨?_, hclean⟩
  rw [h.result]
  refine hmade.trans ?_
  rw [h.recipe]
  exact (if_pos rfl).symm

end CMake

end Supercell
