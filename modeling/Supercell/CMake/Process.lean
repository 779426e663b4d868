import Supercell.CMake.Scope

/-!
# CMake — command lines and processes

A command line that is handed from one CMake run to another travels as one
text, its words with blanks between them, and is made a list again by turning
the blanks into semicolons. `execute_process()` then tells the words of the
command from its own keywords. Neither step can see where a word began: the
words arrive as they were exactly where none contains a blank and none is a
keyword.
-/

namespace Supercell

namespace CMake

/-! ## A list framed by two texts -/

/-- A text in front of the first word of a list, and one behind the last. -/
def framed (before behind : String) : List String → List String
  | [] => [before ++ behind]
  | [w] => [before ++ w ++ behind]
  | w :: v :: ws => (before ++ w) :: framed "" behind (v :: ws)

variable {before behind sep : String} {ws : List String}

theorem framed_ne_nil : framed before behind ws ≠ [] := by
  cases ws with
  | nil => exact List.cons_ne_nil _ _
  | cons w ws =>
    cases ws with
    | nil => exact List.cons_ne_nil _ _
    | cons v ws => exact List.cons_ne_nil _ _

/-- The frame stands around the list, however that is written. -/
theorem intercalate_framed (sep before behind : String) (ws : List String) :
    sep.intercalate (framed before behind ws) = before ++ sep.intercalate ws ++ behind := by
  induction before, ws using framed.induct with
  | case1 before => simp [framed]
  | case2 before w => simp [framed]
  | case3 before w v ws ih =>
    rw [framed, String.intercalate_cons_of_ne_nil framed_ne_nil, ih,
      String.intercalate_cons_of_ne_nil (List.cons_ne_nil v ws)]
    simp [String.append_assoc]

/-- The last of the framed words. -/
theorem getLast?_framed (before behind : String) (ws : List String) :
    ∃ front, (framed before behind ws).getLast? = some (front ++ behind) := by
  induction before, ws using framed.induct with
  | case1 before => exact ⟨before, rfl⟩
  | case2 before w => exact ⟨before ++ w, rfl⟩
  | case3 before w v ws ih =>
    obtain ⟨front, hfront⟩ := ih
    refine ⟨front, ?_⟩
    rw [framed, List.getLast?_cons_of_ne_nil framed_ne_nil, hfront]

/-- Behind the first word, only the last one has a frame. -/
theorem framed_cons_cons (before behind w v : String) (ws : List String) :
    framed before behind (w :: v :: ws) = (before ++ w) :: ((v :: ws).dropLast ++
      [(v :: ws).getLast (List.cons_ne_nil v ws) ++ behind]) := by
  have hlast : ∀ (v : String) (ws : List String), framed "" behind (v :: ws) =
      (v :: ws).dropLast ++ [(v :: ws).getLast (List.cons_ne_nil v ws) ++ behind] := by
    intro v ws
    induction ws generalizing v with
    | nil => simp [framed]
    | cons u ws ih =>
      rw [framed, ih, String.empty_append, List.dropLast_cons_of_ne_nil (List.cons_ne_nil u ws),
        List.getLast_cons (List.cons_ne_nil u ws), List.cons_append]
  rw [framed, hlast]

/-- **The framed words that could be taken for something else** are the inner ones. -/
theorem exists_mem_framed_iff {c : Char} {K : List String} (hbefore : c ∈ before.toList)
    (hbehind : c ∈ behind.toList) (hK : ∀ k ∈ K, c ∉ k.toList) :
    (∃ w ∈ framed before behind ws, w ∈ K) ↔ ∃ w ∈ ws.tail.dropLast, w ∈ K := by
  have hfirst : ∀ w, before ++ w ∉ K := fun w hw => hK _ hw (by simp [hbefore])
  have hlast : ∀ w, w ++ behind ∉ K := fun w hw => hK _ hw (by simp [hbehind])
  rcases ws with _ | ⟨w, _ | ⟨v, ws⟩⟩
  · simpa [framed] using hfirst behind
  · simpa [framed] using hlast (before ++ w)
  · rw [framed_cons_cons]
    constructor
    · rintro ⟨u, hu, hmem⟩
      rcases List.mem_cons.1 hu with rfl | hu
      · exact absurd hmem (hfirst w)
      rcases List.mem_append.1 hu with hu | hu
      · exact ⟨u, hu, hmem⟩
      · exact absurd (List.mem_singleton.1 hu ▸ hmem) (hlast _)
    · rintro ⟨u, hu, hmem⟩
      exact ⟨u, List.mem_cons_of_mem _ (List.mem_append_left _ hu), hmem⟩

/-- The framed words are words again. -/
theorem word_of_mem_framed (hbefore : Closed before) (hbehind : Word behind)
    (hws : ∀ w ∈ ws, Word w) : ∀ w ∈ framed before behind ws, Word w := by
  induction before, ws using framed.induct with
  | case1 before =>
    intro w hw
    obtain rfl := List.mem_singleton.1 hw
    exact ⟨fun h => hbehind.nonempty (String.append_eq_empty_iff.1 h).2,
      hbefore.append hbehind.closed⟩
  | case2 before w =>
    intro w' hw'
    obtain rfl := List.mem_singleton.1 hw'
    exact ⟨fun h => hbehind.nonempty (String.append_eq_empty_iff.1 h).2,
      (hbefore.append (hws w (by simp)).closed).append hbehind.closed⟩
  | case3 before w v ws ih =>
    intro w' hw'
    rcases List.mem_cons.1 hw' with rfl | hw'
    · have hw := hws w (by simp)
      exact ⟨fun h => hw.nonempty (String.append_eq_empty_iff.1 h).2, hbefore.append hw.closed⟩
    · exact ih (by decide) (fun u hu => hws u (List.mem_cons_of_mem w hu)) w' hw'

/-- **A list between two quotes** is its words, the quotes at the ends. -/
theorem pieces_framed (hbefore : Closed before) (hbehind : Word behind) (hws : ∀ w ∈ ws, Word w) :
    pieces (before ++ joined ws ++ behind) = framed before behind ws := by
  rw [joined, ← intercalate_framed, ← joined]
  exact pieces_joined_words (word_of_mem_framed hbefore hbehind hws)

/-! ## Blanks for semicolons -/

theorem closed_intercalate (hsep : Closed sep) (hws : ∀ w ∈ ws, Closed w) :
    Closed (sep.intercalate ws) := by
  induction ws with
  | nil => rw [String.intercalate_nil]; decide
  | cons w ws ih =>
    by_cases hne : ws = []
    · subst hne
      rw [String.intercalate_singleton]
      exact hws w (by simp)
    · rw [String.intercalate_cons_of_ne_nil hne]
      exact ((hws w (by simp)).append hsep).append (ih fun v hv => hws v (List.mem_cons_of_mem w hv))

/-- A command line in one text is one word. -/
theorem word_commandLine (hws : ∀ w ∈ ws, Word w) (hne : ws ≠ []) :
    Word (" ".intercalate ws) := by
  refine ⟨?_, closed_intercalate (by decide) fun w hw => (hws w hw).closed⟩
  obtain ⟨w, vs, rfl⟩ := List.exists_cons_of_ne_nil hne
  have hw := (hws w (by simp)).nonempty
  by_cases hvs : vs = []
  · rw [hvs, String.intercalate_singleton]
    exact hw
  · rw [String.intercalate_cons_of_ne_nil hvs]
    intro h
    exact hw (String.append_eq_empty_iff.1 (String.append_eq_empty_iff.1 h).1).1

/-- A text with its blanks turned into semicolons. -/
def unblanked (text : String) : String :=
  String.ofList (text.toList.map fun c => if c = ' ' then ';' else c)

theorem unblanked_append (a b : String) : unblanked (a ++ b) = unblanked a ++ unblanked b := by
  simp [unblanked]

theorem unblanked_of_notMem {text : String} (h : ' ' ∉ text.toList) : unblanked text = text := by
  have hmap : text.toList.map (fun c => if c = ' ' then ';' else c) = text.toList := by
    refine (List.map_congr_left fun c hc => ?_).trans (List.map_id _)
    exact if_neg fun (hblank : c = ' ') => h (hblank ▸ hc)
  rw [unblanked, hmap, String.ofList_toList]

theorem blank_notMem_unblanked (text : String) : ' ' ∉ (unblanked text).toList := by
  rw [unblanked, String.toList_ofList, List.mem_map]
  rintro ⟨c, -, hc⟩
  split at hc
  · exact absurd hc (by decide)
  · rename_i hne
    exact hne hc

/-- The command line is read as the list of its words without their blanks. -/
theorem unblanked_intercalate (ws : List String) :
    unblanked (" ".intercalate ws) = joined (ws.map unblanked) := by
  induction ws with
  | nil => simp [unblanked]
  | cons w ws ih =>
    by_cases hne : ws = []
    · simp [hne]
    · have hblank : unblanked " " = ";" := by decide
      rw [String.intercalate_cons_of_ne_nil hne, unblanked_append, unblanked_append, ih, hblank,
        List.map_cons, joined_cons (by simpa using hne)]

/-- **A command line is read back as its words** exactly where none of them
contains a blank. -/
theorem pieces_unblanked_iff (hws : ∀ w ∈ ws, Word w) :
    pieces (unblanked (" ".intercalate ws)) = ws ↔ ∀ w ∈ ws, ' ' ∉ w.toList := by
  constructor
  · intro h w hw hblank
    have hpiece : w ∈ pieces (unblanked (" ".intercalate ws)) := by rwa [h]
    exact blank_notMem_unblanked _ (mem_of_mem_pieces hpiece hblank)
  · intro h
    have hmap : ws.map unblanked = ws :=
      (List.map_congr_left fun w hw => unblanked_of_notMem (h w hw)).trans (List.map_id _)
    rw [unblanked_intercalate, hmap, pieces_joined_words hws]

/-! ## `execute_process` -/

/-- **A process that is started**: a pipeline of commands, and the options with
their values. -/
structure Process where
  commands : List (List String)
  options : List (String × String)
  deriving DecidableEq, Repr

/-- The keywords with a value behind them. -/
def valueKeywords : List String :=
  ["OUTPUT_VARIABLE", "ERROR_VARIABLE", "RESULT_VARIABLE", "WORKING_DIRECTORY", "INPUT_FILE",
    "OUTPUT_FILE", "ERROR_FILE", "TIMEOUT"]

/-- The keywords without one. -/
def flagKeywords : List String :=
  ["OUTPUT_QUIET", "ERROR_QUIET", "OUTPUT_STRIP_TRAILING_WHITESPACE",
    "ERROR_STRIP_TRAILING_WHITESPACE"]

def processKeywords : List String := "COMMAND" :: (valueKeywords ++ flagKeywords)

/-- Another word of the last command. -/
def Process.push (p : Process) (w : String) : Process :=
  { p with commands := p.commands.dropLast ++ [p.commands.getLastD [] ++ [w]] }

/-- A command is begun. -/
def Process.command (p : Process) : Process := { p with commands := p.commands ++ [[]] }

def Process.option (p : Process) (keyword value : String) : Process :=
  { p with options := p.options ++ [(keyword, value)] }

/-- What the arguments that were read last have begun: nothing, a command, or a
keyword whose value comes next. -/
inductive Reading where
  | nothing
  | command
  | value (keyword : String)
  deriving DecidableEq, Repr

/-- The arguments of `execute_process`, one by one. No command may be empty, and
there has to be one. -/
def readProcess : Reading → Process → List String → Except Stop Process
  | .value _, _, [] => .error (.rejected "execute_process")
  | .value keyword, p, v :: as => readProcess .nothing (p.option keyword v) as
  | _, p, [] =>
    if p.commands = [] ∨ [] ∈ p.commands then .error (.rejected "execute_process") else .ok p
  | r, p, a :: as =>
    if a = "COMMAND" then readProcess .command p.command as
    else if a ∈ flagKeywords then readProcess .nothing (p.option a "") as
    else if a ∈ valueKeywords then readProcess (.value a) p as
    else if r = .command then readProcess .command (p.push a) as
    else .error (.rejected "execute_process")

/-- **`execute_process(args)`**, up to the start of the process. -/
def executeProcess (args : List String) : Except Stop Process :=
  readProcess .nothing ⟨[], []⟩ args

variable {p q : Process} {args : List String}

/-- A word that is no keyword goes to the command that is being read. -/
theorem readProcess_word {w : String} (hw : w ∉ processKeywords) :
    readProcess .command p (w :: args) = readProcess .command (p.push w) args := by
  simp only [processKeywords, List.mem_cons, List.mem_append, not_or] at hw
  rw [readProcess, if_neg hw.1, if_neg hw.2.2, if_neg hw.2.1, if_pos rfl]
  exact nofun

theorem readProcess_words (hws : ∀ w ∈ ws, w ∉ processKeywords) (c : List String)
    (cs : List (List String)) (os : List (String × String)) :
    readProcess .command ⟨cs ++ [c], os⟩ (ws ++ args) =
      readProcess .command ⟨cs ++ [c ++ ws], os⟩ args := by
  induction ws generalizing c with
  | nil => simp
  | cons w ws ih =>
    have hpush : Process.push ⟨cs ++ [c], os⟩ w = ⟨cs ++ [c ++ [w]], os⟩ := by
      simp [Process.push]
    rw [List.cons_append, readProcess_word (hws w (by simp)), hpush,
      ih fun v hv => hws v (List.mem_cons_of_mem w hv), List.append_assoc, List.singleton_append]

/-- Arguments at the end that add nothing to the commands. -/
def NoCommand (rest : List String) : Prop :=
  ∀ {r : Reading} {p q : Process}, readProcess r p rest = .ok q → q.commands = p.commands

/-- A keyword whose value is missing. -/
theorem readProcess_valueKeyword {r : Reading} {keyword : String} {rest : List String}
    (hr : ∀ k, r = .value k → False) (hkeyword : keyword ∈ valueKeywords) :
    readProcess r p (keyword :: rest) = readProcess (.value keyword) p rest := by
  have hne : keyword ≠ "COMMAND" ∧ keyword ∉ flagKeywords :=
    (by decide : ∀ k ∈ valueKeywords, k ≠ "COMMAND" ∧ k ∉ flagKeywords) keyword hkeyword
  rw [readProcess.eq_4 r p _ _ hr, if_neg hne.1, if_neg hne.2, if_pos hkeyword]

theorem readProcess_nothing_nil (h : readProcess .nothing p [] = .ok q) : q = p := by
  rw [readProcess.eq_3 _ _ (by simp)] at h
  split at h
  · exact nomatch h
  · exact (Except.ok.inj h).symm

theorem noCommand_keyword {keyword : String} (hkeyword : keyword ∈ valueKeywords) :
    NoCommand [keyword] := by
  intro r p q h
  cases r with
  | value k =>
    rw [readProcess] at h
    rw [readProcess_nothing_nil h, Process.option]
  | nothing => exact nomatch (readProcess_valueKeyword (by simp) hkeyword).symm.trans h
  | command => exact nomatch (readProcess_valueKeyword (by simp) hkeyword).symm.trans h

/-- With the value missing before, the value is an argument of its own. -/
theorem noCommand_option {keyword : String} (hkeyword : keyword ∈ valueKeywords) (value : String) :
    NoCommand [keyword, value] := by
  have hoption : ∀ {r : Reading} {p q : Process}, (∀ k, r = .value k → False) →
      readProcess r p [keyword, value] = .ok q → q.commands = p.commands := by
    intro r p q hr h
    rw [readProcess_valueKeyword hr hkeyword, readProcess] at h
    rw [readProcess_nothing_nil h, Process.option]
  intro r p q h
  cases r with
  | value k =>
    rw [readProcess, readProcess.eq_4 _ _ _ _ (by simp)] at h
    split at h
    · -- a command is begun and stays empty
      rw [readProcess.eq_3 _ _ (by simp), if_pos (by simp [Process.command])] at h
      exact nomatch h
    · split at h
      · rw [readProcess_nothing_nil h, Process.option, Process.option]
      · split at h
        · exact nomatch h
        · exact nomatch h
  | nothing => exact hoption (by simp) h
  | command => exact hoption (by simp) h

theorem Process.flatten_push (p : Process) (w : String) :
    (p.push w).commands.flatten = p.commands.flatten ++ [w] := by
  rw [Process.push]
  cases hlast : p.commands.getLast? with
  | none => simp [List.getLast?_eq_none_iff.1 hlast]
  | some c =>
    obtain ⟨cs, hcs⟩ := List.getLast?_eq_some_iff.1 hlast
    simp [hcs]

/-- **What becomes a word of a command**: arguments that are no keywords, in their
order, and nothing of what stands behind them. -/
theorem flatten_sublist_of_readProcess {r : Reading} {rest : List String}
    (hrest : NoCommand rest) (h : readProcess r p (args ++ rest) = .ok q) :
    q.commands.flatten.Sublist
      (p.commands.flatten ++ args.filter (· ∉ processKeywords)) := by
  -- by the cases of the reader: only an argument in a command adds a word
  have hskip : ∀ {p : Process} {a : String} {as : List String},
      q.commands.flatten.Sublist (p.commands.flatten ++ as.filter (· ∉ processKeywords)) →
        q.commands.flatten.Sublist
          (p.commands.flatten ++ (a :: as).filter (· ∉ processKeywords)) := fun h =>
    h.trans ((List.Sublist.refl _).append ((List.sublist_cons_self _ _).filter _))
  induction r, p, args using readProcess.induct with
  | case1 k p => simp [hrest h]
  | case2 k p v as ih =>
    rw [List.cons_append, readProcess] at h
    exact hskip (ih h)
  | case3 r p hr hempty => simp [hrest h]
  | case4 r p hr hempty => simp [hrest h]
  | case5 r p as hr ih =>
    rw [List.cons_append, readProcess.eq_4 r p _ _ hr, if_pos rfl] at h
    have := ih h
    rw [Process.command, List.flatten_append, List.flatten_singleton, List.append_nil] at this
    exact hskip this
  | case6 r p a as hr hcommand hflag ih =>
    rw [List.cons_append, readProcess.eq_4 r p a _ hr, if_neg hcommand, if_pos hflag] at h
    exact hskip (ih h)
  | case7 r p a as hr hcommand hflag hvalue ih =>
    rw [List.cons_append, readProcess.eq_4 r p a _ hr, if_neg hcommand, if_neg hflag,
      if_pos hvalue] at h
    exact hskip (ih h)
  | case8 p a as hcommand hflag hvalue hr ih =>
    rw [List.cons_append, readProcess.eq_4 _ p a _ hr, if_neg hcommand, if_neg hflag,
      if_neg hvalue, if_pos rfl] at h
    have ha : a ∉ processKeywords := by simp [processKeywords, hcommand, hflag, hvalue]
    have := ih h
    rw [p.flatten_push, List.append_assoc, List.singleton_append] at this
    rwa [List.filter_cons_of_pos (by simpa using ha)]
  | case9 r p a as hr hcommand hflag hvalue hne =>
    rw [List.cons_append, readProcess.eq_4 r p a _ hr, if_neg hcommand, if_neg hflag,
      if_neg hvalue, if_neg hne] at h
    cases h

/-- Words that are no keywords, up to what stands behind them. -/
theorem executeProcess_words (hws : ∀ w ∈ ws, w ∉ processKeywords) (rest : List String) :
    executeProcess ("COMMAND" :: ws ++ rest) = readProcess .command ⟨[ws], []⟩ rest := by
  have hwords : readProcess .command ⟨[[]], []⟩ (ws ++ rest) =
      readProcess .command ⟨[ws], []⟩ rest := readProcess_words hws [] [] []
  rw [executeProcess, List.cons_append, readProcess.eq_4 _ _ _ _ (by simp), if_pos rfl,
    Process.command, List.nil_append, hwords]

/-- They are the command that is started. -/
theorem executeProcess_eq {keyword value : String} (hkeyword : keyword ∈ valueKeywords)
    (hne : ws ≠ []) (hws : ∀ w ∈ ws, w ∉ processKeywords) :
    executeProcess ("COMMAND" :: ws ++ [keyword, value]) = .ok ⟨[ws], [(keyword, value)]⟩ := by
  rw [executeProcess_words hws, readProcess_valueKeyword (by simp) hkeyword, readProcess,
    Process.option, readProcess.eq_3 _ _ (by simp), if_neg (by simpa using hne.symm)]
  rfl

/-- **A word that a script delivers**: the blanks are for between the words, and
the keywords for `execute_process`. -/
def Deliverable (w : String) : Prop := ' ' ∉ w.toList ∧ w ∉ processKeywords

instance : DecidablePred Deliverable := fun w =>
  inferInstanceAs (Decidable (' ' ∉ w.toList ∧ w ∉ processKeywords))

/-- **The words that a script makes of a command line**: the arguments that the text
gives are run together, and divided again at the blanks. -/
def decoded (text : String) : List String := pieces (unblanked (String.join (pieces text)))

/-- `string(REPLACE " " ";" out ${x})`. -/
theorem Scope.stringReplace_pieces {s s' : Scope} {out text : String}
    (h : s.stringReplace ' ' ';' out (pieces text) = .ok s') :
    s' = s.assign out (unblanked (String.join (pieces text))) := by
  rw [stringReplace] at h
  split at h
  · cases h
  · exact (Except.ok.inj h).symm

/-- A command line on its way is one argument. -/
theorem pieces_commandLine (hws : ∀ w ∈ ws, Word w) (hne : ws ≠ []) :
    pieces (" ".intercalate ws) = [" ".intercalate ws] :=
  pieces_word (word_commandLine hws hne)

theorem decoded_commandLine (hws : ∀ w ∈ ws, Word w) (hne : ws ≠ []) :
    decoded (" ".intercalate ws) = pieces (unblanked (" ".intercalate ws)) := by
  rw [decoded, pieces_commandLine hws hne]
  simp [String.join]

/-- **The script adds no characters**: with semicolons between them again, its words
are no longer than the text. -/
theorem length_joined_decoded_le (text : String) :
    (joined (decoded text)).length ≤ text.length := by
  have hunblanked : ∀ t : String, (unblanked t).length = t.length := by
    intro t
    rw [← String.length_toList, ← String.length_toList, unblanked, String.toList_ofList,
      List.length_map]
  have hjoin : ∀ es : List String, (String.join es).length ≤ (joined es).length := by
    intro es
    induction es with
    | nil => simp [String.join]
    | cons e es ih =>
      by_cases hes : es = []
      · simp [hes, String.join]
      · rw [String.join_cons, joined_cons hes, String.length_append, String.length_append,
          String.length_append]
        omega
  calc (joined (decoded text)).length
      ≤ (unblanked (String.join (pieces text))).length := length_joined_pieces_le _
    _ = (String.join (pieces text)).length := hunblanked _
    _ ≤ (joined (pieces text)).length := hjoin _
    _ ≤ text.length := length_joined_pieces_le text

/-- A part of a list is a part of its text. -/
theorem length_joined_le {es fs : List String} (h : es.Sublist fs) :
    (joined es).length ≤ (joined fs).length := by
  induction h with
  | slnil => exact Nat.le_refl _
  | @cons es fs f h ih =>
    by_cases hfs : fs = []
    · subst hfs
      rw [List.sublist_nil.1 h, joined_nil]
      exact Nat.zero_le _
    · rw [joined_cons hfs, String.length_append]
      omega
  | @cons_cons es fs e h ih =>
    by_cases hes : es = []
    · subst hes
      by_cases hfs : fs = []
      · rw [hfs]
      · rw [joined_singleton, joined_cons hfs, String.length_append, String.length_append]
        omega
    · have hfs : fs ≠ [] := by
        rintro rfl
        exact hes (List.sublist_nil.1 h)
      rw [joined_cons hes, joined_cons hfs, String.length_append, String.length_append,
        String.length_append, String.length_append]
      omega

theorem length_commandLine (ws : List String) :
    (" ".intercalate ws).length = (joined ws).length := by
  induction ws with
  | nil => rfl
  | cons w ws ih =>
    by_cases hws : ws = []
    · simp [hws]
    · rw [String.intercalate_cons_of_ne_nil hws, joined_cons hws]
      simp only [String.length_append, ih]
      rfl

/-- **A process that is started with these words** has them from the text: each can
be delivered, and the text is long enough. -/
theorem delivered_of_executeProcess {text : String} {rest : List String} (hrest : NoCommand rest)
    (h : executeProcess ("COMMAND" :: decoded text ++ rest) = .ok p) (hcommands : p.commands = [ws]) :
    (∀ w ∈ ws, Deliverable w) ∧ (joined ws).length ≤ text.length := by
  have hsublist := flatten_sublist_of_readProcess hrest h
  rw [hcommands, List.flatten_singleton, List.flatten_nil, List.nil_append,
    List.filter_cons_of_neg (by decide)] at hsublist
  refine ⟨fun w hw => ?_, ?_⟩
  · have hmem := List.mem_filter.1 (hsublist.subset hw)
    exact ⟨fun hblank => blank_notMem_unblanked _ (mem_of_mem_pieces hmem.1 hblank),
      by simpa using hmem.2⟩
  · exact (length_joined_le (hsublist.trans List.filter_sublist)).trans
      (length_joined_decoded_le text)

/-- **The command line arrives as it was sent** exactly where all its words can
be delivered, and it is its own value as a definition. -/
theorem executeProcess_decoded_iff {keyword value : String} (hkeyword : keyword ∈ valueKeywords)
    (hws : ∀ w ∈ ws, Word w) (hne : ws ≠ []) {text : String}
    (htext : text.toList.Sublist (" ".intercalate ws).toList) :
    (∃ p, executeProcess ("COMMAND" :: decoded text ++ [keyword, value]) = .ok p ∧
        p.commands = [ws]) ↔
      (∀ w ∈ ws, Deliverable w) ∧ text = " ".intercalate ws := by
  constructor
  · rintro ⟨p, hp, hcommands⟩
    obtain ⟨hdeliverable, hlength⟩ :=
      delivered_of_executeProcess (noCommand_option hkeyword value) hp hcommands
    refine ⟨hdeliverable, String.toList_inj.1 (htext.eq_of_length_le ?_)⟩
    rw [String.length_toList, String.length_toList, length_commandLine]
    exact hlength
  · rintro ⟨h, rfl⟩
    rw [decoded_commandLine hws hne, (pieces_unblanked_iff hws).2 fun w hw => (h w hw).1]
    exact ⟨_, executeProcess_eq hkeyword hne fun w hw => (h w hw).2, rfl⟩

/-- Where the option at the end has no value, nothing is started. -/
theorem not_executeProcess_keyword {keyword : String} (hkeyword : keyword ∈ valueKeywords)
    (hws : ∀ w ∈ ws, Word w) (hne : ws ≠ []) {text : String}
    (htext : text.toList.Sublist (" ".intercalate ws).toList) : ¬ ∃ p,
      executeProcess ("COMMAND" :: decoded text ++ [keyword]) = .ok p ∧ p.commands = [ws] := by
  rintro ⟨p, hp, hcommands⟩
  obtain ⟨h, hlength⟩ := delivered_of_executeProcess (noCommand_keyword hkeyword) hp hcommands
  have heq : text = " ".intercalate ws := by
    refine String.toList_inj.1 (htext.eq_of_length_le ?_)
    rw [String.length_toList, String.length_toList, length_commandLine]
    exact hlength
  rw [heq, decoded_commandLine hws hne, (pieces_unblanked_iff hws).2 fun w hw => (h w hw).1,
    executeProcess_words fun w hw => (h w hw).2, readProcess_valueKeyword (by simp) hkeyword,
    readProcess] at hp
  cases hp

end CMake

end Supercell
