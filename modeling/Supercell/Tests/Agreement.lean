import Supercell.Tests.Calls

/-!
# The two registrations of a test

Every test macro spells the command line of its runner script twice, for CTest
and for the build target. Here the two are followed through the script: with
the outcome of the test program given, when do they come to the same verdict?
-/

namespace Supercell

namespace Tests

open CMake CMake.Scope Options Hashmap Sections

/-- **The two registrations of a test**, through the same script. -/
structure Registered (rules : List Rule) (script : Runner) (test : RunnerCommand)
    (target : TargetCommand) : Prop where
  rules_eq : ∃ name depends rest, rules = .test name test :: .target name depends target :: rest
  test_script : test.script = script
  target_script : ∀ c, target = .whole c → c.script = script

/-- A list of rules has one test and one target at its head. -/
theorem Registered.eq {rules rest : List Rule} {script : Runner} {test c : RunnerCommand}
    {target c' : TargetCommand} {name name' : String} {depends : List String}
    (h : Registered rules script test target)
    (hrules : rules = .test name c :: .target name' depends c' :: rest) :
    test = c ∧ target = c' := by
  obtain ⟨n, d, r, hr⟩ := h.rules_eq
  obtain ⟨htest, htail⟩ := List.cons.inj (hr.symm.trans hrules)
  obtain ⟨htarget, -⟩ := List.cons.inj htail
  exact ⟨(Rule.test.inj htest).2, (Rule.target.inj htarget).2.2⟩

/-- The registrations of one command line. -/
theorem Registered.whole {name : String} {depends : List String} {rest : List Rule}
    {script : Runner} {c c' : RunnerCommand} (hc : c.script = script) (hc' : c'.script = script) :
    Registered (.test name c :: .target name depends (.whole c') :: rest) script c (.whole c') :=
  ⟨⟨_, _, _, rfl⟩, hc, fun _ h => TargetCommand.whole.inj h ▸ hc'⟩

section Verdicts

variable (execute : List String → Except Stop Outcome)
  (matchall : String → String → Option (List String)) (cmake : List String → Bool)

/-- **The verdict of a build target.** Torn lines fail. -/
def TargetCommand.passes : TargetCommand → Bool
  | .whole c => c.passes execute matchall cmake
  | .torn _ => false

/-- The build target has the test program run to this outcome, where it comes to
run it. -/
def TargetCommand.RunsTo (outcome : Outcome) : TargetCommand → Prop
  | .whole c => c.RunsTo execute outcome
  | .torn _ => True

/-- **No program has a name that begins with a double quote**: it cannot be started,
and the script is told so in place of an exit code. -/
def Unstartable : Prop :=
  ∀ w ws o, execute (w :: ws) = .ok o → w.toList.head? = some '"' → o.exitCode ≠ 0

end Verdicts

variable {p : Project} {s s' t : Scope} {argn cmakeWords shell : List String} {rules : List Rule}
  {execute : List String → Except Stop Outcome}
  {matchall : String → String → Option (List String)} {cmake : List String → Bool}
  {outcome : Outcome}

/-! ## Simple tests -/

/-- A simple test is registered twice with one command line. -/
theorem zilliansAddSimpleTest_registers (h : zilliansAddSimpleTest p s argn = .ok (s', rules)) :
    ∃ command, Registered rules .run command (.whole command) := by
  obtain ⟨t, -, ht⟩ := bind_eq_ok_iff.1 h
  obtain ⟨-, rfl⟩ := Prod.mk.inj (Except.ok.inj ht)
  exact ⟨_, .whole rfl rfl⟩

/-! ## Complex tests -/

/-- **The call asks for a failure**: the value of its `EXPECT_FAIL` option is a
true constant. -/
def ExpectsFailure (s : Scope) (argn : List String) : Prop :=
  ∃ t, complexOptions s argn = .ok t ∧ t.truthy "__expect_fail" = true

/-- **The call gives these words for a shell command**, and `cmake` is called by
those. -/
structure ShellCall (s : Scope) (argn cmake shell : List String) : Prop where
  options : ∃ t, complexOptions s argn = .ok t ∧ t.expand "CMAKE_COMMAND" = cmake ∧
    t.Holds "__shell" shell
  no_keyword : ∀ w ∈ shell, w ∉ ["PARENT_SCOPE", "CACHE"]

/-- **The words behind the first are for the program**: none is an option of another
kind, none defines a variable of `run.cmake`, and none has the build quote its
command lines. -/
structure ForProgram (cmake shell : List String) : Prop where
  no_option : ∀ w ∈ shell.tail, isOption w = false
  no_definition : ∀ ds, readDefinitions false (framed "" "\"" shell).tail = .ok ds →
    ∀ d ∈ ds, d.name ∉ ["TEST_PROG", "EXPECT_FAIL"]
  no_verbatim : "VERBATIM" ∉ cmake ++ shell.tail.dropLast

/-- **A word that `add_custom_target` takes for its own** stands among those of the
command line. -/
def Torn (cmake shell : List String) : Prop :=
  ∃ w ∈ cmake ++ shell.tail.dropLast, w ∈ targetKeywords

/-- **What the test depends on has names**: no word behind `DEPENDS` is a keyword of
`add_custom_target`. -/
def DependsOnNames (s : Scope) (argn : List String) : Prop :=
  ∀ t, complexOptions s argn = .ok t → ∀ w ∈ t.expand "__depends", w ∉ targetKeywords

/-- In a call with plain arguments the option is read off the arguments. -/
theorem expectsFailure_iff {target : String} (h : KeywordCall s complexKeywords argn)
    (htarget : option complexKeywords argn "TARGET" = [target])
    (hshell : option complexKeywords argn "SHELL" ≠ []) :
    ExpectsFailure s argn ↔ isOff (joined (option complexKeywords argn "EXPECT_FAIL")) = false := by
  obtain ⟨t, ht, -, -, -, hexpect, -⟩ := complexOptions_returns h htarget hshell
  have htruthy : t.truthy "__expect_fail" =
      !isOff (joined (option complexKeywords argn "EXPECT_FAIL")) := by
    rw [truthy, if_neg (by decide), if_neg (by decide), hexpect.text]
  constructor
  · rintro ⟨t', ht', hfail⟩
    obtain rfl := Except.ok.inj (ht'.symm.trans ht)
    simpa [htruthy] using hfail
  · exact fun hon => ⟨t, ht, by simp [htruthy, hon]⟩

/-- And so are the words of the shell command. -/
theorem shellCall_option {target : String} (h : KeywordCall s complexKeywords argn)
    (htarget : option complexKeywords argn "TARGET" = [target])
    (hshell : option complexKeywords argn "SHELL" ≠ []) :
    ShellCall s argn (s.expand "CMAKE_COMMAND") (option complexKeywords argn "SHELL") := by
  obtain ⟨t, ht, -, htshell, -, -, -, -, hframe⟩ := complexOptions_returns h htarget hshell
  refine ⟨⟨t, ht, ?_, htshell.toHolds⟩, fun w hw =>
    h.no_keyword w ((sublist_part _ _).subset hw)⟩
  rw [Scope.expand, Scope.expand, hframe.value (by decide)]

/-- And what it depends on. -/
theorem dependsOnNames_iff {target : String} (h : KeywordCall s complexKeywords argn)
    (htarget : option complexKeywords argn "TARGET" = [target])
    (hshell : option complexKeywords argn "SHELL" ≠ []) :
    DependsOnNames s argn ↔ ∀ w ∈ option complexKeywords argn "DEPENDS", w ∉ targetKeywords := by
  obtain ⟨t, ht, -, -, htdepends, -⟩ := complexOptions_returns h htarget hshell
  constructor
  · intro hnames
    simpa [htdepends.expand] using hnames t ht
  · intro hnames t' ht'
    obtain rfl := Except.ok.inj (ht'.symm.trans ht)
    simpa [htdepends.expand] using hnames

theorem truthy_expectFail_of_value {u : Scope} (text : String)
    (h : u.value "EXPECT_FAIL" = text) : u.truthy "EXPECT_FAIL" = !isOff text := by
  rw [truthy, if_neg (by decide), if_neg (by decide), h]

/-- The words behind the first have no frame in front. -/
theorem tail_framed (before behind : String) (ws : List String) :
    (framed before behind ws).tail = (framed "" behind ws).tail := by
  rcases ws with _ | ⟨w, _ | ⟨v, ws⟩⟩ <;> rfl

/-- Where the name of the program begins with the quote, `run.cmake` fails. -/
theorem not_passes_runCmake (hstart : Unstartable execute) {text : String}
    (hprogram : s "TEST_PROG" = some text) (hquote : text.toList.head? = some '"')
    (hexpect : s.truthy "EXPECT_FAIL" = false) : passes (runCmake execute s) = false := by
  obtain ⟨w, ws, hpieces, hw⟩ := head?_pieces hquote
  -- no blank is in front of the name
  have hreplaced : ((String.join (w :: ws)).toList.map
      fun c => if c = ' ' then ';' else c).head? = some '"' := by
    rw [List.head?_map, String.join_cons, String.toList_append, List.head?_append, hw]
    rfl
  rw [← String.toList_ofList (l := (String.join (w :: ws)).toList.map _)] at hreplaced
  obtain ⟨v, vs, hpieces', hv⟩ := head?_pieces hreplaced
  cases hexecute : execute (v :: vs) with
  | error e =>
    have hrun : runTestProgram execute s = .error e := by
      rw [runTestProgram, Scope.expand, Scope.value_of_eq_some hprogram, hpieces, stringReplace,
        if_neg (List.cons_ne_nil w ws), ok_bind, Scope.expand, Scope.value_assign_self, hpieces',
        hexecute, error_bind]
    rw [runCmake, hrun, error_bind, passes_error]
  | ok o =>
    have hrun : ∃ u, runTestProgram execute s = .ok (u, o) := by
      rw [runTestProgram, Scope.expand, Scope.value_of_eq_some hprogram, hpieces, stringReplace,
        if_neg (List.cons_ne_nil w ws), ok_bind, Scope.expand, Scope.value_assign_self, hpieces',
        hexecute]
      exact ⟨_, rfl⟩
    obtain ⟨u, hu⟩ := hrun
    rw [← Bool.not_eq_true, passes_runCmake hu, hexpect]
    simpa using hstart v vs o hexecute hv

/-- **The copy of CTest fails**: the name of its program begins with the quote, and
nothing tells it of an expected failure. -/
theorem passes_quoted (hstart : Unstartable execute) (hwords : ForProgram cmakeWords shell)
    {c : RunnerCommand} (hscript : c.script = .run)
    (hc : c.arguments = framed "-DTEST_PROG:STRING=\"" "\"" shell) :
    c.passes execute matchall cmake = false := by
  obtain ⟨text, hfirst⟩ : ∃ text, c.arguments =
      (⟨"TEST_PROG", ":STRING", "\"" ++ text⟩ : Definition).word ::
        (framed "" "\"" shell).tail := by
    have hword : ∀ text, "-DTEST_PROG:STRING=\"" ++ text =
        (⟨"TEST_PROG", ":STRING", "\"" ++ text⟩ : Definition).word := by
      intro text
      rw [Definition.word, ← String.append_assoc]
      rfl
    rw [hc, ← tail_framed "-DTEST_PROG:STRING=\""]
    rcases shell with _ | ⟨w, _ | ⟨v, ws⟩⟩
    · exact ⟨"\"", by rw [← hword]; rfl⟩
    · exact ⟨w ++ "\"", by rw [← hword, ← String.append_assoc]; rfl⟩
    · exact ⟨w, by rw [← hword]; rfl⟩
  have hnamed : Definition.Named "TEST_PROG" ":STRING" := by decide
  have hoption : ∀ w ∈ c.arguments, isOption w = false := by
    rw [hc]
    exact @isOption_of_mem_framed shell "TEST_PROG:STRING=\"" hwords.no_option
  rw [RunnerCommand.passes_eq hoption, hscript, RunnerCommand.scope, hfirst,
    readDefinitions_word hnamed]
  cases hread : readDefinitions false (framed "" "\"" shell).tail with
  | error e => rfl
  | ok ds =>
    have hnames := hwords.no_definition ds hread
    let d : Definition := ⟨"TEST_PROG", ":STRING", "\"" ++ text⟩
    have hprogram : defined (d :: ds) "TEST_PROG" = some (definitionValue ("\"" ++ text)) :=
      defined_cons d fun e he heq => hnames e he (by simp [heq, d])
    have hexpect : (defined (d :: ds)).truthy "EXPECT_FAIL" = false := by
      refine (truthy_expectFail_of_value "" ?_).trans (by decide)
      cases hvalue : defined (d :: ds) "EXPECT_FAIL" with
      | none => rw [Scope.value, hvalue]; rfl
      | some v =>
        obtain ⟨e, he, hname, -⟩ := exists_mem_of_defined_eq_some hvalue
        rcases List.mem_cons.1 he with rfl | he
        · exact absurd hname (show "TEST_PROG" ≠ "EXPECT_FAIL" by decide)
        · exact absurd (hname ▸ List.mem_cons_of_mem _ List.mem_cons_self) (hnames e he)
    exact not_passes_runCmake hstart hprogram (head?_definitionValue (by simp)) hexpect

theorem collectCommand_agreesOff (h : collectCommand s = .ok t) :
    AgreesOff ["cmd_string", "cmd"] s t := by
  refine ((AgreesOff.refl _ s).unset (by simp)).trans (foreach_agreesOff h (by simp) ?_)
  exact fun u v hv => (set_agreesOff hv).mono (by simp)

/-- The definitions of the build target make its two variables. -/
theorem passes_complexCommand {u : Scope} (h : (complexCommand u).RunsTo execute outcome) :
    (complexCommand u).passes execute matchall cmake = true ↔
      (outcome.exitCode = 0 ↔ u.truthy "__expect_fail" = false) := by
  obtain ⟨v, v', hscope, hrun⟩ := h
  have hoption : ∀ w ∈ (complexCommand u).arguments, isOption w = false := by
    intro w hw
    obtain ⟨d, -, rfl⟩ := List.mem_map.1 hw
    exact isOption_word d
  rw [RunnerCommand.passes_eq hoption, hscope, ok_bind,
    show (complexCommand u).script = .run from rfl, passes_runCmake hrun]
  have hnamed : ∀ text, Definition.Named (Definition.quoted "TEST_PROG" ":STRING" text).name
      (Definition.quoted "TEST_PROG" ":STRING" text).type := fun text =>
    (by decide : Definition.Named "TEST_PROG" ":STRING")
  have hexpect : v.truthy "EXPECT_FAIL" = u.truthy "__expect_fail" := by
    rw [RunnerCommand.scope, complexCommand, runnerCommand, List.map_cons,
      readDefinitions_word (hnamed _)] at hscope
    unfold expectFail at hscope
    cases hfail : u.truthy "__expect_fail" with
    | true =>
      rw [hfail, if_pos rfl, List.map_singleton, readDefinitions_word (by decide +kernel)] at hscope
      obtain rfl := Except.ok.inj hscope
      refine (truthy_expectFail_of_value "TRUE" ?_).trans (by decide)
      exact (value_assign_self _ _ _).trans (by decide +kernel)
    | false =>
      rw [hfail, if_neg Bool.false_ne_true, List.map_nil, readDefinitions_nil] at hscope
      obtain rfl := Except.ok.inj hscope
      refine (truthy_expectFail_of_value "" ?_).trans (by decide)
      exact value_assign_of_ne _ (show "EXPECT_FAIL" ≠ "TEST_PROG" by decide) _
  rw [hexpect]

/-- **What a complex test registers**: a copy that CTest runs with the quotes, and
one that the build runs without them, or not at all. -/
theorem zilliansAddComplexTest_registers (h : zilliansAddComplexTest p s argn = .ok (s', rules))
    (hcall : ShellCall s argn cmakeWords shell) : ∃ test target,
      Registered rules .run test target ∧
        test.arguments = framed "-DTEST_PROG:STRING=\"" "\"" shell ∧ (DependsOnNames s argn →
          (Torn cmakeWords shell → ∃ lines, target = .torn lines) ∧
            (¬ Torn cmakeWords shell → ∃ u, target = .whole (complexCommand u) ∧
              (u.truthy "__expect_fail" = true ↔ ExpectsFailure s argn))) := by
  obtain ⟨t, hoptions, ht⟩ := bind_eq_ok_iff.1 h
  obtain ⟨u, hcollect, hu⟩ := bind_eq_ok_iff.1 ht
  obtain ⟨v, hset, hv⟩ := bind_eq_ok_iff.1 hu
  obtain ⟨read, hread, hrules⟩ := bind_eq_ok_iff.1 hv
  obtain ⟨-, rfl⟩ := Prod.mk.inj (Except.ok.inj hrules)
  obtain ⟨⟨t', ht', hcmake, hshell⟩, hkeyword⟩ := hcall
  obtain rfl := Except.ok.inj (ht'.symm.trans hoptions)
  obtain ⟨u', hu', hstring, hframe⟩ := collectCommand_returns hshell hkeyword
  obtain rfl := Except.ok.inj (hu'.symm.trans hcollect)
  have hvalue : ∀ x ∈ ["CMAKE_COMMAND", "__expect_fail", "__shell"], u'.value x = t'.value x :=
    fun x hx => hframe.value ((by decide : ∀ x ∈ ["CMAKE_COMMAND", "__expect_fail", "__shell"],
      x ∉ ["cmd_string", "cmd"]) x hx)
  have hexpect : expectFail u' = expectDefinitions [u'.value "__expect_fail"] := by
    have htruthy : u'.truthy "__expect_fail" = !isOff (u'.value "__expect_fail") := by
      rw [truthy, if_neg (by decide), if_neg (by decide)]
    rw [expectFail, htruthy, expectDefinitions, joined_singleton]
    cases isOff (u'.value "__expect_fail") with
    | true => rfl
    | false => rfl
  have hwords : complexWords u' = complexTargetWords u' shell [u'.value "__expect_fail"] := by
    rw [complexWords, complexTargetWords, hstring.text, hexpect]
  have hdepends : v.expand "__depends" = t'.expand "__depends" := by
    rw [Scope.expand, (set_agreesOff hset).value (by decide), hframe.value (by decide), Scope.expand]
  have htorn : DependsOnNames s argn →
      (Torn cmakeWords shell ↔ read.commands ≠ [complexWords u']) := fun hnames => by
    have hne : complexWords u' ≠ [] := by simp [complexWords, RunnerCommand.words]
    have hbefore : IsDepends (if v.numEqual "__number_of_depends" "0" then []
        else "DEPENDS" :: v.expand "__depends") := by
      split
      · exact .inl rfl
      · exact .inr ⟨_, rfl, hdepends ▸ hnames t' hoptions⟩
    rw [Torn, ← hcmake, Scope.expand, ← hvalue "CMAKE_COMMAND" (by simp), ← Scope.expand,
      ← exists_keyword_iff hshell.words, ← hwords, ← not_iff_not, not_not]
    refine Iff.trans (by simp) ((addCustomTarget_command_iff hbefore hne).symm.trans
      ⟨?_, fun hw => ?_⟩)
    · rintro ⟨c, hc, hw⟩
      exact Except.ok.inj (hc.symm.trans hread) ▸ hw
    · exact ⟨read, hread, hw⟩
  refine ⟨_, _, ⟨⟨_, _, _, rfl⟩, rfl, fun c hc => ?_⟩, ?_, fun hnames =>
    ⟨fun h => ?_, fun h => ⟨u', ?_, ?_⟩⟩⟩
  · split at hc
    · rw [← TargetCommand.whole.inj hc]
      rfl
    · cases hc
  · rw [runnerCommand, hvalue "__shell" (by simp), hshell.text]
    exact definitionWords_quoted (by decide) hshell.words
  · exact ⟨_, if_neg ((htorn hnames).1 h)⟩
  · exact if_pos (not_not.1 fun hne => h ((htorn hnames).2 hne))
  · rw [truthy, hvalue "__expect_fail" (by simp), ← truthy]
    constructor
    · exact fun hfail => ⟨t', hoptions, hfail⟩
    · rintro ⟨t'', ht'', hfail⟩
      obtain rfl := Except.ok.inj (ht''.symm.trans hoptions)
      exact hfail

/-! ## Tests that match their output -/

/-- **A text arrives as this one**: its definition ends where the text falls apart,
and nothing behind is a definition or an option of another kind. -/
def Arrives (name type text value : String) : Prop :=
  ∃ ws, definitionWords name type text = (⟨name, type, value⟩ : Definition).word :: ws ∧
    readDefinitions false ws = .ok [] ∧ ∀ w ∈ ws, isOption w = false

/-- **The call gives a pattern and a mode**: program and pattern arrive, the pattern
as one regular expression, and the mode is one the script knows. -/
def MatchCall (p : Project) (s : Scope) (argn : List String) (pattern mode : String) : Prop :=
  ∃ t program text, regexOptions s argn = .ok t ∧
    Arrives "TEST_PROG" ":STRING" (p.location (t.value "__target")) program ∧
      Arrives "PATTERN" "" (t.value "__pattern") text ∧
        pieces (definitionValue text) = [pattern] ∧
          t.value "__mode" = mode ∧ mode ∈ failureModes ++ successModes

/-- **The command line has the test program run to this outcome**, by the first
lines of `run_and_match.cmake`. -/
def RunnerCommand.MatchesOn (execute : List String → Except Stop Outcome) (outcome : Outcome)
    (c : RunnerCommand) : Prop :=
  ∃ u, c.scope = .ok u ∧ execute (u.expand "TEST_PROG") = .ok outcome

theorem Arrives.read {name type text value : String} (h : Arrives name type text value)
    (hnamed : Definition.Named name type) :
    readDefinitions false (definitionWords name type text) = .ok [⟨name, type, value⟩] := by
  obtain ⟨ws, hwords, hread, -⟩ := h
  rw [hwords, readDefinitions_word hnamed, hread]
  rfl

theorem Arrives.no_option {name type text value : String} (h : Arrives name type text value) :
    ∀ w ∈ definitionWords name type text, isOption w = false := by
  obtain ⟨ws, hwords, -, hoption⟩ := h
  rw [hwords]
  intro w hw
  rcases List.mem_cons.1 hw with rfl | hw
  · exact isOption_word _
  · exact hoption w hw

/-- A mode that the script knows arrives as it is. -/
theorem arrives_mode {mode : String} (name : String) (hname : name ∈ ["MATCH_MODE", "MATCH_TYPE"])
    (hmode : mode ∈ failureModes ++ successModes) :
    Arrives name "" mode mode ∧ Definition.Named name "" ∧ definitionValue mode = mode := by
  have hfront : Closed ("-D" ++ name ++ "" ++ "=") ∧ Definition.Named name "" :=
    (by decide : ∀ name ∈ ["MATCH_MODE", "MATCH_TYPE"], Closed ("-D" ++ name ++ "" ++ "=") ∧
      Definition.Named name "") name hname
  have hword : Word mode ∧ definitionValue mode = mode :=
    (by decide : ∀ w ∈ failureModes ++ successModes, Word w ∧ definitionValue w = w) mode hmode
  exact ⟨⟨[], definitionWords_word hfront.1 hword.1, readDefinitions_nil, by simp⟩, hfront.2,
    hword.2⟩

/-- The scope that the three definitions of a matching test make. -/
theorem matchScope (program pattern mode : Definition) (hprogram : program.name = "TEST_PROG")
    (hpattern : pattern.name = "PATTERN") (hmode : mode.name ∈ ["MATCH_MODE", "MATCH_TYPE"]) :
    let u := defined [program, pattern, mode]
    AgreesOff matchVariables Scope.empty u ∧ u.expand "TEST_PROG" = pieces program.value ∧
      u.expand "PATTERN" = pieces pattern.value ∧
        u "MATCH_MODE" = if mode.name = "MATCH_MODE" then some mode.value else none := by
  intro u
  have hu : u = ((Scope.empty.assign "TEST_PROG" program.value).assign "PATTERN"
      pattern.value).assign mode.name mode.value := by
    rw [← hprogram, ← hpattern]
    rfl
  have hmem : mode.name ∈ matchVariables :=
    (by decide : ∀ x ∈ ["MATCH_MODE", "MATCH_TYPE"], x ∈ matchVariables) _ hmode
  have hne : ∀ x ∈ ["TEST_PROG", "PATTERN"], x ≠ mode.name := by
    rintro x hx rfl
    exact (by decide : ∀ x ∈ ["TEST_PROG", "PATTERN"], x ∉ ["MATCH_MODE", "MATCH_TYPE"]) _ hx hmode
  rw [hu]
  refine ⟨?_, ?_, ?_, ?_⟩
  · exact AgreesOff.assign (((AgreesOff.refl _ _).assign (by decide) _).assign (by decide) _)
      hmem _
  · rw [Scope.expand, value_assign_of_ne _ (hne _ (by simp)), value_assign_of_ne _ (by decide),
      value_assign_self]
  · rw [Scope.expand, value_assign_of_ne _ (hne _ (by simp)), value_assign_self]
  · rw [assign_apply, assign_of_ne _ (by decide), assign_of_ne _ (by decide)]
    exact if_congr eq_comm rfl rfl

/-- The location of the target is where the command lines look for it. -/
theorem locationProgram_getLocation (p : Project) (t : Scope) :
    locationProgram (getLocation p t) =
      definitionWords "TEST_PROG" ":STRING" (p.location (t.value "__target")) := by
  have htarget : (getLocation p t).value "__target" = t.value "__target" := by
    rw [getLocation]
    exact value_assign_of_ne _ (location_ne (by decide) _) _
  rw [locationProgram, htarget, getLocation, value_assign_self]

/-- A command line of a test that matches its output, with the mode under a name. -/
theorem matchCommand_passes (execute : List String → Except Stop Outcome)
    (matchall : String → String → Option (List String)) (cmake : List String → Bool) {u : Scope}
    {program text mode : String} (name : String) (hname : name ∈ ["MATCH_MODE", "MATCH_TYPE"])
    (hprogram : Arrives "TEST_PROG" ":STRING" (p.location (t.value "__target")) program)
    (htext : Arrives "PATTERN" "" (t.value "__pattern") text)
    (hmode : t.value "__mode" = mode) (hknown : mode ∈ failureModes ++ successModes)
    (hu : u = defined [⟨"TEST_PROG", ":STRING", program⟩, ⟨"PATTERN", "", text⟩,
      ⟨name, "", mode⟩]) :
    let c := runnerCommand (getLocation p t) (matchArguments (getLocation p t) name) .runAndMatch
    c.scope = .ok u ∧
      c.passes execute matchall cmake = passes (runAndMatch execute matchall u) := by
  intro c
  have hvalue : ∀ x ∈ ["__pattern", "__mode"], (getLocation p t).value x = t.value x := by
    intro x hx
    rw [getLocation, value_assign_of_ne]
    exact location_ne ((by decide : ∀ x ∈ ["__pattern", "__mode"],
      ¬ "__location_".toList <+: x.toList) x hx) _
  have harguments : c.arguments = definitionWords "TEST_PROG" ":STRING"
      (p.location (t.value "__target")) ++ definitionWords "PATTERN" "" (t.value "__pattern") ++
        definitionWords name "" mode := by
    rw [show c.arguments = matchArguments (getLocation p t) name from rfl, matchArguments,
      locationProgram_getLocation, hvalue "__pattern" (by simp), hvalue "__mode" (by simp), hmode]
  obtain ⟨hmode', hnamed, -⟩ := arrives_mode name hname hknown
  have hscope : c.scope = .ok u := by
    rw [RunnerCommand.scope, harguments, readDefinitions_append (readDefinitions_append
      (hprogram.read (by decide)) |>.trans (by rw [htext.read (by decide)]; rfl)),
      hmode'.read hnamed, hu]
    rfl
  have hoption : ∀ w ∈ c.arguments, isOption w = false := by
    rw [harguments]
    intro w hw
    rcases List.mem_append.1 hw with hw | hw
    · rcases List.mem_append.1 hw with hw | hw
      · exact hprogram.no_option w hw
      · exact htext.no_option w hw
    · exact hmode'.no_option w hw
  refine ⟨hscope, ?_⟩
  rw [RunnerCommand.passes_eq hoption, hscope, ok_bind]
  rfl

/-- **What a test that matches its output registers.** Only the copy of CTest hears
of the mode. -/
theorem zilliansAddRegexMatchOutputTest_registers
    (h : zilliansAddRegexMatchOutputTest p s argn = .ok (s', rules)) :
    ∃ test target, Registered rules .runAndMatch test (.whole target) ∧
      ∀ pattern mode, MatchCall p s argn pattern mode → test.MatchesOn execute outcome →
        target.passes execute matchall cmake = false ∧
          (test.passes execute matchall cmake = true ↔
            MatchPasses matchall pattern mode outcome) := by
  obtain ⟨t, hoptions, ht⟩ := bind_eq_ok_iff.1 h
  obtain ⟨-, rfl⟩ := Prod.mk.inj (Except.ok.inj ht)
  refine ⟨_, _, .whole rfl rfl, ?_⟩
  rintro pattern mode ⟨t', program, text, ht', hprogram, htext, hpieces, hmode, hknown⟩
    ⟨u, hscope, hexecute⟩
  obtain rfl := Except.ok.inj (ht'.symm.trans hoptions)
  obtain ⟨hscope', htest⟩ := matchCommand_passes execute matchall cmake "MATCH_MODE"
    (by simp) hprogram htext hmode hknown rfl
  obtain ⟨-, htarget⟩ := matchCommand_passes execute matchall cmake "MATCH_TYPE"
    (by simp) hprogram htext hmode hknown rfl
  obtain rfl := Except.ok.inj (hscope'.symm.trans hscope)
  obtain ⟨hclean, hprogram₁, hpattern₁, hmode₁⟩ := matchScope
    ⟨"TEST_PROG", ":STRING", program⟩ ⟨"PATTERN", "", text⟩ ⟨"MATCH_MODE", "", mode⟩ rfl rfl
    (by simp)
  obtain ⟨-, hprogram₂, hpattern₂, hmode₂⟩ := matchScope
    ⟨"TEST_PROG", ":STRING", program⟩ ⟨"PATTERN", "", text⟩ ⟨"MATCH_TYPE", "", mode⟩ rfl rfl
    (by simp)
  rw [htest, htarget]
  refine ⟨?_, ?_⟩
  · have hexecute₂ : execute ((defined [⟨"TEST_PROG", ":STRING", program⟩, ⟨"PATTERN", "", text⟩,
        ⟨"MATCH_TYPE", "", mode⟩]).expand "TEST_PROG") = .ok outcome := by
      rw [hprogram₂, ← hprogram₁, hexecute]
    exact passes_runAndMatch_of_noMode hexecute₂ (hpattern₂.trans hpieces) hmode₂
  · refine passes_runAndMatch hclean hexecute (hpattern₁.trans hpieces) (hmode₁.trans ?_) hknown
    exact congrArg some (arrives_mode "MATCH_MODE" (by simp) hknown).2.2

/-! ## The verdicts -/

/-- A machine on which every program runs to this outcome, but for those that cannot
be started. -/
def runsTo (outcome : Outcome) : List String → Except Stop Outcome
  | [] => .error (.rejected "execute_process")
  | w :: _ => .ok (if w.toList.head? = some '"' then ⟨1, "", ""⟩ else outcome)

theorem unstartable_runsTo (outcome : Outcome) : Unstartable (runsTo outcome) := by
  intro w ws o h hquote
  rw [runsTo, if_pos hquote] at h
  rw [← Except.ok.inj h]
  decide

/-- A call that runs a program. -/
def shellCall : List String := ["TARGET", "t", "SHELL", "prog"]

/-- A call that looks for a word in the output. -/
def matchingCall : List String := ["TARGET", "t", "PATTERN", "ok", "MODE", "match_for_success"]

/-- The calls, registered, with the command lines they make. -/
theorem calls_projectScope :
    (∃ s' rules, zilliansAddSimpleTest binProject projectScope ["TARGET", "t"] = .ok (s', rules)) ∧
    (∃ s' rules, zilliansAddComplexTest binProject projectScope shellCall = .ok (s', rules) ∧
      ShellCall projectScope shellCall ["cmake"] ["prog"] ∧ DependsOnNames projectScope shellCall ∧
        ∀ test target, Registered rules .run test target →
          test = runnerCommand projectScope ["-DTEST_PROG:STRING=\"prog\""] .run ∧
            target = .whole (runnerCommand projectScope ["-DTEST_PROG:STRING=prog"] .run)) ∧
    (∃ s' rules, zilliansAddRegexMatchOutputTest binProject projectScope matchingCall =
        .ok (s', rules) ∧ MatchCall binProject projectScope matchingCall "ok" "match_for_success" ∧
      ∀ test target, Registered rules .runAndMatch test target →
        test = runnerCommand projectScope ["-DTEST_PROG:STRING=/bin/t", "-DPATTERN=ok",
            "-DMATCH_MODE=match_for_success"] .runAndMatch ∧
          target = .whole (runnerCommand projectScope ["-DTEST_PROG:STRING=/bin/t", "-DPATTERN=ok",
            "-DMATCH_TYPE=match_for_success"] .runAndMatch)) := by
  refine ⟨?_, ?_, ?_⟩
  · have htarget : option ["TARGET"] ["TARGET", "t"] "TARGET" = ["t"] := by decide
    obtain ⟨⟨s', rules⟩, h, -⟩ := zilliansAddSimpleTest_returns binProject
      (keywordCall_projectScope (by decide) (by decide) (by decide) (by decide)) htarget
    exact ⟨s', rules, h⟩
  · have hcall : KeywordCall projectScope complexKeywords shellCall :=
      keywordCall_projectScope (by decide) (by decide) (by decide) (by decide)
    have htarget : option complexKeywords shellCall "TARGET" = ["t"] := by decide
    have hread : complexTargetRead projectScope (option complexKeywords shellCall "SHELL")
        (option complexKeywords shellCall "DEPENDS")
        (option complexKeywords shellCall "EXPECT_FAIL") = .ok ⟨[], [],
          [["cmake", "-DTEST_PROG:STRING=\"prog\"", "-P", "/scripts/run.cmake"]]⟩ := by
      decide +kernel
    obtain ⟨⟨s', rules⟩, h, hrules⟩ :=
      (zilliansAddComplexTest_returns binProject hcall htarget (by decide)).2 _ hread
    refine ⟨s', rules, h, ?_, (dependsOnNames_iff hcall htarget (by decide)).2 (by decide),
      fun test target hregistered => ?_⟩
    · have hshell := shellCall_option hcall htarget (by decide)
      rwa [show projectScope.expand "CMAKE_COMMAND" = ["cmake"] by decide +kernel,
        show option complexKeywords shellCall "SHELL" = ["prog"] by decide] at hshell
    · obtain ⟨rfl, rfl⟩ := hregistered.eq hrules
      exact ⟨by decide +kernel, by decide +kernel⟩
  · have hcall : KeywordCall projectScope ["TARGET", "PATTERN", "MODE"] matchingCall :=
      keywordCall_projectScope (by decide) (by decide) (by decide) (by decide)
    have htarget : option ["TARGET", "PATTERN", "MODE"] matchingCall "TARGET" = ["t"] := by decide
    obtain ⟨⟨s', rules⟩, h, hrules⟩ :=
      zilliansAddRegexMatchOutputTest_returns binProject hcall htarget
    obtain ⟨t, ht, httarget, hpattern, hmode, -⟩ := regexOptions_returns hcall htarget
    have harrives : ∀ {name type text}, definitionWords name type text =
        [(⟨name, type, text⟩ : Definition).word] → Arrives name type text text := fun h =>
      ⟨[], h, readDefinitions_nil, by simp⟩
    refine ⟨s', rules, h, ⟨t, "/bin/t", "ok", ht, ?_, ?_, by decide +kernel, ?_, by decide⟩,
      fun test target hregistered => ?_⟩
    · rw [httarget.text]
      exact harrives (by decide +kernel)
    · rw [hpattern.text]
      exact harrives (by decide +kernel)
    · rw [hmode.text]
      decide +kernel
    · obtain ⟨rfl, rfl⟩ := hregistered.eq hrules
      exact ⟨by decide +kernel, by decide +kernel⟩

/-- A program that exits with 0 and prints the word. -/
def goodOutcome : Outcome := ⟨0, "ok", ""⟩

/-- The search for a text that is the whole output. -/
def wholeMatch (pattern text : String) : Option (List String) :=
  some (if pattern = text then [text] else [])

/-- One word is for the program. -/
theorem forProgram_single (word : String) : ForProgram ["cmake"] [word] where
  no_option := by simp
  no_definition := by
    intro ds h d hd
    obtain rfl := Except.ok.inj h
    cases hd
  no_verbatim := by simp

end Tests

end Supercell
