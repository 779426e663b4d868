import Supercell.Tests.Scripts
import Mathlib.Data.List.Infix

/-!
# What `run_and_match.cmake` decides by

The script hands `string(REGEX MATCHALL)` its pattern and the two outputs of
the program without quotes. What is searched is then not the outputs but what
is left of them, run together: semicolons are dropped where they divide, and
where nothing is left there is no search. `JudgesOutput` is the verdict that
the outputs themselves ask for.
-/

namespace Supercell

namespace Tests

open CMake CMake.Scope

/-! ## The search -/

/-- The arguments behind `MATCHALL`. -/
def searchArguments (pattern : String) (o : Outcome) : List String :=
  pieces pattern ++ ["matched_output_result"] ++ pieces o.stdout ++ pieces o.stderr

/-- **What `string()` takes them for**: a regular expression, a variable to
write and a text to search. Fewer than three are refused. -/
def searchOf (pattern : String) (o : Outcome) : Option (String × String × String) :=
  match searchArguments pattern o with
  | regex :: out :: input :: inputs => some (regex, out, String.join (input :: inputs))
  | _ => none

/-- What is left of the two outputs, run together. -/
def runTogether (o : Outcome) : String := String.join (pieces o.stdout ++ pieces o.stderr)

/-- **A search for regular expressions**, by what it is documented to do: it
returns the matches, parts of the text of which none is empty, and there are some
exactly where the expression occurs. -/
structure Searches (matchall : String → String → Option (List String))
    (occurs : String → String → Prop) : Prop where
  found_iff : ∀ {regex text found}, matchall regex text = some found →
    (found ≠ [] ↔ occurs regex text)
  parts : ∀ {regex text found}, matchall regex text = some found →
    ∀ m ∈ found, m ≠ "" ∧ m.toList <:+: text.toList

variable {matchall : String → String → Option (List String)} {occurs : String → String → Prop}
  {execute : List String → Except Stop Outcome} {s : Scope} {o : Outcome} {pattern mode : String}

/-- The search is refused: for its arguments, or for its expression. -/
def Refused (matchall : String → String → Option (List String)) (pattern : String)
    (o : Outcome) : Prop :=
  ∀ regex out text, searchOf pattern o = some (regex, out, text) → matchall regex text = none

/-- The matches are of nothing but semicolons. -/
def OnlySemicolons (matchall : String → String → Option (List String)) (regex text : String) :
    Prop :=
  ∀ found, matchall regex text = some found → ∀ m ∈ found, ∀ c ∈ m.toList, c = ';'

/-- **The search finds something**, and the script counts what it finds: a list of
semicolons has no elements that it would count. -/
def Found (matchall : String → String → Option (List String)) (occurs : String → String → Prop)
    (pattern : String) (o : Outcome) : Prop :=
  ∃ regex text, searchOf pattern o = some (regex, "matched_output_result", text) ∧
    occurs regex text ∧ ¬ OnlySemicolons matchall regex text

/-- The program prints the pattern, to one of its outputs. -/
def Prints (occurs : String → String → Prop) (pattern : String) (o : Outcome) : Prop :=
  occurs pattern o.stdout ∨ occurs pattern o.stderr

/-- **The verdict by the outputs.** -/
structure JudgesOutput (occurs : String → String → Prop) (pattern mode : String) (o : Outcome)
    (verdict : Bool) : Prop where
  success : mode ∈ successModes → (verdict = true ↔ o.exitCode = 0 ∧ Prints occurs pattern o)
  failure : mode ∈ failureModes → (verdict = true ↔ o.exitCode = 0 ∧ ¬ Prints occurs pattern o)

/-- **The definitions the script starts with**, and no others. -/
structure MatchStart (s : Scope) (pattern mode : String) : Prop where
  clean : AgreesOff ["TEST_PROG", "PATTERN", "MATCH_MODE", "MATCH_TYPE"] Scope.empty s
  pattern_eq : s "PATTERN" = some pattern
  mode_eq : s "MATCH_MODE" = some mode
  known : mode ∈ failureModes ++ successModes

/-- The words of the script's conditions that are read again behind the
search. -/
def judgedWords : List String := "MATCH_MODE" :: "0" :: (failureModes ++ successModes)

/-- The scope behind the execution of the program. -/
def executed (s : Scope) (o : Outcome) : Scope :=
  ((s.assign "output_result" o.stdout).assign "error_result" o.stderr).assign "has_error"
    (numeral o.exitCode)

/-- The scope in which the number of matches is judged. -/
def counted (s : Scope) (o : Outcome) (out : String) (found : List String) : Scope :=
  ((executed s o).assign out (joined found)).oldListLength "matched_output_result"
    "length_of_matched_output_result"

/-- The script behind the execution of the program. -/
theorem runAndMatch_eq_if (h : MatchStart s pattern mode)
    (hexecute : execute (s.expand "TEST_PROG") = .ok o) :
    runAndMatch execute matchall s =
      if o.exitCode ≠ 0 then .error (.fatal "test failed - nonzero error code returned")
      else (executed s o).stringRegexMatchall matchall (searchArguments pattern o) >>= fun s =>
        judgeMatches
          (s.oldListLength "matched_output_result" "length_of_matched_output_result") := by
  have hrun : runAndMatch execute matchall s =
      if (executed s o).truthy "has_error" then
        .error (.fatal "test failed - nonzero error code returned")
      else (executed s o).stringRegexMatchall matchall
          ((executed s o).expand "PATTERN" ++ ["matched_output_result"] ++
            (executed s o).expand "output_result" ++ (executed s o).expand "error_result") >>=
        fun s => judgeMatches
          (s.oldListLength "matched_output_result" "length_of_matched_output_result") := by
    rw [runAndMatch, hexecute]
    rfl
  have hcode : (executed s o).truthy "has_error" = decide (o.exitCode ≠ 0) :=
    truthy_of_eq_numeral (assign_self _ _ _) (by decide)
  have hpattern : executed s o "PATTERN" = some pattern := h.pattern_eq
  have hstdout : executed s o "output_result" = some o.stdout := rfl
  have hstderr : executed s o "error_result" = some o.stderr := rfl
  rw [hrun, hcode, Scope.expand, Scope.expand, Scope.expand, value_of_eq_some hpattern,
    value_of_eq_some hstdout, value_of_eq_some hstderr]
  simp only [decide_eq_true_eq, searchArguments]

/-- The script up to the verdict on the matches. -/
theorem runAndMatch_eq_search (matchall : String → String → Option (List String))
    (h : MatchStart s pattern mode)
    (hexecute : execute (s.expand "TEST_PROG") = .ok o) :
    (o.exitCode ≠ 0 → passes (runAndMatch execute matchall s) = false) ∧
    (o.exitCode = 0 → Refused matchall pattern o →
      passes (runAndMatch execute matchall s) = false) ∧
    ∀ regex out text found, o.exitCode = 0 → searchOf pattern o = some (regex, out, text) →
      matchall regex text = some found →
        runAndMatch execute matchall s = judgeMatches (counted s o out found) := by
  rw [runAndMatch_eq_if h hexecute]
  unfold Refused searchOf
  generalize searchArguments pattern o = args
  refine ⟨fun h0 => by rw [if_pos h0]; rfl, fun h0 hrefused => ?_,
    fun regex out text found h0 hsearch hfound => ?_⟩
  · rw [if_neg (not_not.2 h0)]
    rcases args with _ | ⟨regex, _ | ⟨out, _ | ⟨input, inputs⟩⟩⟩
    · rfl
    · rfl
    · rfl
    · rw [stringRegexMatchall, hrefused regex out _ rfl]
      rfl
  · rw [if_neg (not_not.2 h0)]
    rcases args with _ | ⟨regex', _ | ⟨out', _ | ⟨input, inputs⟩⟩⟩
    · cases hsearch
    · cases hsearch
    · cases hsearch
    · obtain ⟨hregex, hout, htext⟩ : regex' = regex ∧ out' = out ∧
          String.join (input :: inputs) = text := by
        simpa only [Option.some.injEq, Prod.mk.injEq] using hsearch
      rw [stringRegexMatchall, htext, hregex, hfound, hout]
      rfl

/-- A list of matches is empty for the script where they are of semicolons alone. -/
theorem pieces_joined_eq_nil_iff {found : List String} :
    pieces (joined found) = [] ↔ ∀ m ∈ found, ∀ c ∈ m.toList, c = ';' := by
  rw [pieces_eq_nil_iff]
  induction found with
  | nil => simp
  | cons m found ih =>
    by_cases hfound : found = []
    · simp [hfound]
    · rw [joined_cons hfound, List.forall_mem_cons, ← ih]
      simp [or_imp, forall_and]

/-- The matches are counted where they were written to the variable that is
counted. -/
theorem counted_length (h : MatchStart s pattern mode) (o : Outcome) (out : String)
    (found : List String) :
    ∃ n : ℕ, counted s o out found "length_of_matched_output_result" = some (numeral n) ∧
      (n = 0 ↔ ¬ (out = "matched_output_result" ∧ ¬ ∀ m ∈ found, ∀ c ∈ m.toList, c = ';')) := by
  refine ⟨_, by rw [counted, oldListLength, assign_self], ?_⟩
  rw [List.length_eq_zero_iff, Scope.list, filter_elements]
  by_cases hout : out = "matched_output_result"
  · subst hout
    rw [value_assign_self, pieces_joined_eq_nil_iff]
    simp
  · rw [value_assign_of_ne _ (Ne.symm hout)]
    have hundefined : s "matched_output_result" = none := h.clean _ (by decide)
    refine iff_of_true ?_ (fun hand => hout hand.1)
    show pieces ((s "matched_output_result").getD "") = []
    rw [hundefined]
    decide

/-- **The verdict of the script**, whatever the pattern and the outputs. -/
theorem passes_runAndMatch_iff (hregex : Searches matchall occurs) (h : MatchStart s pattern mode)
    (hexecute : execute (s.expand "TEST_PROG") = .ok o)
    (hout : ∀ regex out text, searchOf pattern o = some (regex, out, text) → out ∉ judgedWords) :
    passes (runAndMatch execute matchall s) = true ↔
      o.exitCode = 0 ∧ ¬ Refused matchall pattern o ∧
        (¬ Found matchall occurs pattern o ↔ mode ∈ failureModes) := by
  obtain ⟨hne, hrefused, hjudged⟩ := runAndMatch_eq_search matchall h hexecute
  by_cases h0 : o.exitCode = 0
  · by_cases hr : Refused matchall pattern o
    · simp [hrefused h0 hr, hr]
    · obtain ⟨regex, out, text, hsearch, hsome⟩ : ∃ regex out text,
          searchOf pattern o = some (regex, out, text) ∧ matchall regex text ≠ none := by
        simpa [Refused] using hr
      obtain ⟨found, hfound⟩ := Option.ne_none_iff_exists'.1 hsome
      obtain ⟨n, hlength, hn⟩ := counted_length h o out found
      have hfoundIff : Found matchall occurs pattern o ↔ out = "matched_output_result" ∧
          ¬ ∀ m ∈ found, ∀ c ∈ m.toList, c = ';' := by
        constructor
        · rintro ⟨regex', text', hsearch', -, hnot⟩
          obtain ⟨rfl, rfl, rfl⟩ : regex = regex' ∧ out = "matched_output_result" ∧
            text = text' := by simpa using hsearch.symm.trans hsearch'
          refine ⟨rfl, fun hall => hnot fun found' hfound' => ?_⟩
          obtain rfl := Option.some.inj (hfound.symm.trans hfound')
          exact hall
        · rintro ⟨rfl, hnot⟩
          refine ⟨regex, text, hsearch, (hregex.found_iff hfound).1 ?_,
            fun hall => hnot (hall found hfound)⟩
          rintro rfl
          exact hnot (by simp)
      -- nothing else that the conditions read is written
      have hkept : ∀ w ∈ judgedWords, counted s o out found w = s w := by
        intro w hw
        have hne : w ∉ ["length_of_matched_output_result", "has_error", "error_result",
            "output_result"] :=
          (by decide : ∀ w ∈ judgedWords, w ∉ ["length_of_matched_output_result", "has_error",
            "error_result", "output_result"]) w hw
        simp only [List.mem_cons, List.not_mem_nil, or_false, not_or] at hne
        rw [counted, oldListLength, assign_of_ne _ hne.1,
          assign_of_ne _ (fun hwout : w = out => hout regex out text hsearch (hwout ▸ hw)),
          executed, assign_of_ne _ hne.2.1, assign_of_ne _ hne.2.2.1, assign_of_ne _ hne.2.2.2]
      have hundefined : ∀ w ∈ judgedWords, w ≠ "MATCH_MODE" →
          (counted s o out found).deref w = w := by
        intro w hw hmode
        refine deref_of_eq_none ((hkept w hw).trans (h.clean w ?_))
        exact (by decide : ∀ w ∈ judgedWords, w ≠ "MATCH_MODE" →
          w ∉ ["TEST_PROG", "PATTERN", "MATCH_MODE", "MATCH_TYPE"]) w hw hmode
      -- the words compared with are their own values
      have hmodes : ∀ w ∈ failureModes ++ successModes, (counted s o out found).deref w = w :=
        fun w hw => hundefined w (List.mem_cons_of_mem _ (List.mem_cons_of_mem _ hw))
          ((by decide : ∀ w ∈ failureModes ++ successModes, w ≠ "MATCH_MODE") w hw)
      have hnumeral : (counted s o out found).deref (numeral n) = numeral n := by
        by_cases hzero : n = 0
        · subst hzero
          exact hundefined "0" (by decide) (by decide)
        · -- then the matches were counted, and no variable is named by a numeral
          obtain ⟨rfl, -⟩ := not_not.1 (mt hn.2 hzero)
          refine deref_of_clean (N := "length_of_matched_output_result" ::
            "matched_output_result" :: "has_error" :: "error_result" :: "output_result" ::
              ["TEST_PROG", "PATTERN", "MATCH_MODE", "MATCH_TYPE"]) ?_ ?_
          · have hclean := h.clean.mono (M := "length_of_matched_output_result" ::
              "matched_output_result" :: "has_error" :: "error_result" :: "output_result" ::
                ["TEST_PROG", "PATTERN", "MATCH_MODE", "MATCH_TYPE"]) (by simp +contextual)
            exact ((((hclean.assign (by simp) _).assign (by simp) _).assign (by simp) _).assign
              (by simp) _).assign (by simp) _
          · intro hmem
            have hnone := (by decide : ∀ x ∈ "length_of_matched_output_result" ::
              "matched_output_result" :: "has_error" :: "error_result" :: "output_result" ::
                ["TEST_PROG", "PATTERN", "MATCH_MODE", "MATCH_TYPE"], numeral? x = none) _ hmem
            simp at hnone
      rw [hjudged regex out text found h0 hsearch hfound,
        passes_judgeMatches hmodes hnumeral (hundefined "0" (by decide) (by decide))
          ((hkept _ (by decide)).trans h.mode_eq) h.known hlength, hn, ← hfoundIff]
      simp [h0, hr]
  · simp [hne h0, h0]

/-- **When the script decides by what the program printed**: where the search
is refused the test fails, which has to be right, and where it is not the
search has to find the pattern exactly if it was printed. -/
theorem runAndMatch_judgesOutput_iff (hregex : Searches matchall occurs)
    (h : MatchStart s pattern mode) (hexecute : execute (s.expand "TEST_PROG") = .ok o)
    (hout : ∀ regex out text, searchOf pattern o = some (regex, out, text) → out ∉ judgedWords) :
    JudgesOutput occurs pattern mode o (passes (runAndMatch execute matchall s)) ↔
      (o.exitCode = 0 →
        (Refused matchall pattern o → (Prints occurs pattern o ↔ mode ∈ failureModes)) ∧
        (¬ Refused matchall pattern o →
          (Found matchall occurs pattern o ↔ Prints occurs pattern o))) := by
  have hverdict := passes_runAndMatch_iff hregex h hexecute hout
  have hmodes : mode ∈ successModes ↔ mode ∉ failureModes := by
    refine ⟨fun hs => (by decide : ∀ w ∈ successModes, w ∉ failureModes) mode hs, fun hf => ?_⟩
    exact (List.mem_append.1 h.known).resolve_left hf
  have hjudges : JudgesOutput occurs pattern mode o (passes (runAndMatch execute matchall s)) ↔
      (passes (runAndMatch execute matchall s) = true ↔
        o.exitCode = 0 ∧ (¬ Prints occurs pattern o ↔ mode ∈ failureModes)) := by
    by_cases hf : mode ∈ failureModes
    · refine ⟨fun hj => by simpa [hf] using hj.failure hf, fun hj => ⟨fun hs => ?_, fun _ => ?_⟩⟩
      · exact absurd hf (hmodes.1 hs)
      · simpa [hf] using hj
    · refine ⟨fun hj => by simpa [hf] using hj.success (hmodes.2 hf), fun hj => ⟨fun _ => ?_, ?_⟩⟩
      · simpa [hf] using hj
      · exact fun hf' => absurd hf' hf
  rw [hjudges, hverdict]
  by_cases h0 : o.exitCode = 0
  · by_cases hr : Refused matchall pattern o <;> by_cases hf : mode ∈ failureModes <;>
      by_cases hp : Prints occurs pattern o <;> by_cases hfound : Found matchall occurs pattern o <;>
        simp [h0, hr, hf, hp, hfound]
  · simp [h0]

/-! ## Patterns of one argument -/

/-- A pattern that is one argument is searched for, in the outputs run
together. -/
theorem searchOf_of_pieces (hpattern : pieces pattern = [pattern]) :
    searchOf pattern o = if pieces o.stdout ++ pieces o.stderr = [] then none
      else some (pattern, "matched_output_result", runTogether o) := by
  unfold searchOf searchArguments runTogether
  rw [hpattern]
  simp only [List.cons_append, List.nil_append]
  cases pieces o.stdout ++ pieces o.stderr with
  | nil => rfl
  | cons input inputs => rfl

/-- A search for such a pattern writes the variable that is counted. -/
theorem notMem_judgedWords (hpattern : pieces pattern = [pattern]) (regex out text : String)
    (hsearch : searchOf pattern o = some (regex, out, text)) : out ∉ judgedWords := by
  rw [searchOf_of_pieces hpattern] at hsearch
  split at hsearch
  · exact nomatch hsearch
  · obtain ⟨-, rfl, -⟩ : pattern = regex ∧ "matched_output_result" = out ∧ runTogether o = text := by
      simpa only [Option.some.injEq, Prod.mk.injEq] using hsearch
    decide

/-- **For a pattern of one argument** it is the outputs run together that are
searched, if anything is left of them. -/
theorem runAndMatch_judgesOutput_iff_of_pieces (hregex : Searches matchall occurs)
    (h : MatchStart s pattern mode) (hexecute : execute (s.expand "TEST_PROG") = .ok o)
    (hpattern : pieces pattern = [pattern]) (hcompiles : ∀ text, matchall pattern text ≠ none) :
    JudgesOutput occurs pattern mode o (passes (runAndMatch execute matchall s)) ↔
      (o.exitCode = 0 →
        if pieces o.stdout ++ pieces o.stderr = [] then
          (Prints occurs pattern o ↔ mode ∈ failureModes)
        else (occurs pattern (runTogether o) ∧
          ¬ OnlySemicolons matchall pattern (runTogether o) ↔ Prints occurs pattern o)) := by
  rw [runAndMatch_judgesOutput_iff hregex h hexecute (notMem_judgedWords hpattern)]
  refine imp_congr_right fun _ => ?_
  have hsearch := searchOf_of_pieces (o := o) hpattern
  split
  · rename_i hnothing
    rw [if_pos hnothing] at hsearch
    have hrefused : Refused matchall pattern o := by
      intro regex out text h
      exact nomatch hsearch.symm.trans h
    simp [hrefused]
  · rename_i hsomething
    rw [if_neg hsomething] at hsearch
    have hrefused : ¬ Refused matchall pattern o := fun h => hcompiles _ (h _ _ _ hsearch)
    have hfound : Found matchall occurs pattern o ↔ occurs pattern (runTogether o) ∧
        ¬ OnlySemicolons matchall pattern (runTogether o) := by
      constructor
      · rintro ⟨regex, text, hsearch', hoccurs⟩
        obtain ⟨rfl, -, rfl⟩ : pattern = regex ∧ _ ∧ runTogether o = text := by
          simpa only [Option.some.injEq, Prod.mk.injEq] using hsearch.symm.trans hsearch'
        exact hoccurs
      · exact fun hoccurs => ⟨_, _, hsearch, hoccurs⟩
    simp [hrefused, hfound]

/-- In a text without semicolons no match is of semicolons. -/
theorem Searches.not_onlySemicolons (hregex : Searches matchall occurs)
    (hcompiles : ∀ text, matchall pattern text ≠ none) {text : String} (h : ';' ∉ text.toList)
    (hoccurs : occurs pattern text) : ¬ OnlySemicolons matchall pattern text := by
  intro hall
  obtain ⟨found, hfound⟩ := Option.ne_none_iff_exists'.1 (hcompiles text)
  obtain ⟨m, hm⟩ := List.exists_mem_of_ne_nil _ ((hregex.found_iff hfound).2 hoccurs)
  obtain ⟨hne, hpart⟩ := hregex.parts hfound m hm
  obtain ⟨c, hc⟩ := List.exists_mem_of_ne_nil m.toList fun h => hne (String.toList_eq_nil_iff.1 h)
  exact h (hall found hfound m hm c hc ▸ hpart.subset hc)

/-- A program that prints to one of its outputs only, and nothing that the list
reader acts on, is judged by what it printed. -/
theorem runAndMatch_judgesOutput_of_word (hregex : Searches matchall occurs)
    (h : MatchStart s pattern mode) (hexecute : execute (s.expand "TEST_PROG") = .ok o)
    (hpattern : pieces pattern = [pattern]) (hcompiles : ∀ text, matchall pattern text ≠ none)
    (hempty : ¬ occurs pattern "")
    (hone : (Word o.stdout ∧ ';' ∉ o.stdout.toList) ∧ o.stderr = "" ∨
      o.stdout = "" ∧ Word o.stderr ∧ ';' ∉ o.stderr.toList) :
    JudgesOutput occurs pattern mode o (passes (runAndMatch execute matchall s)) := by
  rw [runAndMatch_judgesOutput_iff_of_pieces hregex h hexecute hpattern hcompiles]
  have hnone : pieces "" = [] := by decide
  intro _
  unfold Prints runTogether
  rcases hone with ⟨⟨hword, hsemi⟩, hother⟩ | ⟨hother, hword, hsemi⟩
  · have hcounts := @Searches.not_onlySemicolons _ _ _ hregex hcompiles _ hsemi
    simpa [hother, pieces_word hword, hnone, hempty] using hcounts
  · have hcounts := @Searches.not_onlySemicolons _ _ _ hregex hcompiles _ hsemi
    simpa [hother, pieces_word hword, hnone, hempty] using hcounts

/-! ## Examples -/

/-- The search for a text that holds no special character, found once. -/
def literalMatchall (regex text : String) : Option (List String) :=
  if regex = "" then none
  else some (if regex.toList <:+: text.toList then [regex] else [])

/-- The text occurs. -/
def literalOccurs (regex text : String) : Prop := regex.toList <:+: text.toList

theorem searches_literal : Searches literalMatchall literalOccurs where
  found_iff := by
    intro regex text found h
    unfold literalMatchall at h
    split at h
    · exact nomatch h
    · by_cases hoccurs : regex.toList <:+: text.toList
      · rw [if_pos hoccurs] at h
        obtain rfl := Option.some.inj h
        exact iff_of_true (List.cons_ne_nil _ _) hoccurs
      · rw [if_neg hoccurs] at h
        obtain rfl := Option.some.inj h
        exact iff_of_false (fun hne => hne rfl) hoccurs
  parts := by
    intro regex text found h m hm
    unfold literalMatchall at h
    split at h
    · cases h
    · rename_i hne
      by_cases hoccurs : regex.toList <:+: text.toList
      · rw [if_pos hoccurs] at h
        rw [← Option.some.inj h, List.mem_singleton] at hm
        exact hm ▸ ⟨hne, hoccurs⟩
      · rw [if_neg hoccurs] at h
        rw [← Option.some.inj h] at hm
        exact absurd hm List.not_mem_nil

/-- The script, started to look for `ab`. -/
def abScope (mode : String) : Scope :=
  ((Scope.empty.assign "TEST_PROG" "/bin/prog").assign "PATTERN" "ab").assign "MATCH_MODE" mode

theorem matchStart_abScope {mode : String} (hknown : mode ∈ failureModes ++ successModes) :
    MatchStart (abScope mode) "ab" mode where
  clean := by
    unfold abScope
    refine AgreesOff.assign ?_ (by decide) _
    refine AgreesOff.assign ?_ (by decide) _
    exact (AgreesOff.refl _ _).assign (by decide) _
  pattern_eq := rfl
  mode_eq := rfl
  known := hknown

theorem runAndMatch_judgesOutput_iff_printed :
    JudgesOutput literalOccurs "ab" "match_for_success" ⟨0, "cab", ""⟩
      (passes (runAndMatch (fun _ => .ok ⟨0, "cab", ""⟩) literalMatchall
        (abScope "match_for_success"))) := by
  refine (runAndMatch_judgesOutput_iff searches_literal (matchStart_abScope (by decide)) rfl
    (notMem_judgedWords (by decide))).2 fun _ => ?_
  have hsearch := @searchOf_of_pieces ⟨0, "cab", ""⟩ "ab" (by decide)
  rw [if_neg (by decide)] at hsearch
  have hoccurs : literalOccurs "ab" "cab" := by
    unfold literalOccurs
    decide
  refine ⟨fun hrefused => ?_, fun _ => ?_⟩
  · exact absurd (hrefused _ _ _ hsearch) (by decide)
  · refine iff_of_true ⟨_, _, hsearch, hoccurs, fun hall => ?_⟩ (.inl hoccurs)
    exact absurd (hall ["ab"] (by decide) "ab" (by simp) 'a' (by decide)) (by decide)

/-- **`a` and then `b`, on two outputs, is taken for `ab`**, and of a program
that prints nothing it is not seen that it does not print `ab`. -/
theorem runAndMatch_misjudges :
    ¬ JudgesOutput literalOccurs "ab" "match_for_failure" ⟨0, "a", "b"⟩
      (passes (runAndMatch (fun _ => .ok ⟨0, "a", "b"⟩) literalMatchall
        (abScope "match_for_failure"))) ∧
    ¬ JudgesOutput literalOccurs "ab" "match_for_failure" ⟨0, "", ""⟩
      (passes (runAndMatch (fun _ => .ok ⟨0, "", ""⟩) literalMatchall
        (abScope "match_for_failure"))) := by
  have hnot : ∀ text ∈ ["a", "b", ""], ¬ literalOccurs "ab" text := by
    unfold literalOccurs
    decide
  constructor
  · intro hjudges
    have hpasses := (hjudges.failure (by decide)).2 ⟨rfl, fun hprints => ?_⟩
    · exact absurd hpasses (by decide +kernel)
    · exact hprints.elim (hnot "a" (by decide)) (hnot "b" (by decide))
  · intro hjudges
    have hpasses := (hjudges.failure (by decide)).2 ⟨rfl, fun hprints => ?_⟩
    · exact absurd hpasses (by decide +kernel)
    · exact hprints.elim (hnot "" (by decide)) (hnot "" (by decide))

end Tests

end Supercell
