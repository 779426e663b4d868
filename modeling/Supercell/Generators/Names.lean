import Supercell.Generators.Macros
import Supercell.Options.Keywords

/-!
# The names of generated files

The macros turn the name of an input into the name of its output by a
replacement of the extension that is not tied to the end of the name. What they
generate is the input's path with every occurrence of the expression replaced,
which is the name with another extension exactly where nothing else in the path
is an occurrence, or what is put in its place is the same.
-/

namespace Supercell

namespace Generators

open CMake CMake.Scope Options Hashmap Sections Replace

variable {s t : Scope} {argn : List String}

/-! ## Replacements -/

/-- A text with every occurrence of an expression replaced. -/
def replaced (places : List (Char → Bool)) (new text : String) : String :=
  String.ofList (replaceAll places new.toList text.toList)

/-- The expression `.lp`, where the dot is any character. -/
def lpPlaces : List (Char → Bool) := [fun _ => true, (· == 'l'), (· == 'p')]

/-- The expression `.cog`. -/
def cogPlaces : List (Char → Bool) := [fun _ => true, (· == 'c'), (· == 'o'), (· == 'g')]

/-- The expression `\.g`, where the dot is a dot. -/
def gPlaces : List (Char → Bool) := [(· == '.'), (· == 'g')]

theorem regexOf_lp : regexOf ".lp".toList = some lpPlaces := rfl

theorem regexOf_cog : regexOf ".cog".toList = some cogPlaces := rfl

theorem regexOf_g : regexOf "\\.g".toList = some gPlaces := rfl

theorem stringRegexReplace_eq {regex replacement out input : String}
    {places : List (Char → Bool)} (hregex : regexOf regex.toList = some places)
    (hne : places ≠ []) (hreplacement : '\\' ∉ replacement.toList) :
    s.stringRegexReplace [regex, replacement, out, input] =
      .ok (s.assign out (replaced places replacement input)) := by
  have hjoin : String.join [input] = input := by simp [String.join]
  rw [stringRegexReplace, hregex, hjoin]
  simp only [hne, hreplacement, or_self, if_false]
  rfl

/-- **When only the extension is replaced.** -/
theorem replaced_append_eq_iff {places : List (Char → Bool)} {text ext new : String}
    (hext : ∃ cs, ext.toList = '.' :: cs) (hsep : ∀ q ∈ places.tail, q '.' = false)
    (hfits : fits places ext.toList = true) (hlength : ext.toList.length = places.length) :
    replaced places new (text ++ ext) = text ++ new ↔
      ∀ m ∈ occurrences places text.toList, m = new.toList := by
  obtain ⟨cs, hcs⟩ := hext
  rw [hcs] at hfits hlength
  rw [← replaceAll_append_cons_eq_iff hsep hfits hlength, replaced, String.toList_append, hcs]
  constructor
  · intro h
    have hlist := congrArg String.toList h
    rwa [String.toList_ofList, String.toList_append] at hlist
  · intro h
    rw [h, String.ofList_append, String.ofList_toList, String.ofList_toList]

/-- A character of the new text was in the old one, or in the replacement. -/
theorem notMem_replaced {places : List (Char → Bool)} {new text : String} {c : Char}
    (hnew : c ∉ new.toList) (htext : c ∉ text.toList) : c ∉ (replaced places new text).toList := by
  rw [replaced, String.toList_ofList]
  intro h
  rcases mem_replaceFrom h with h | h
  · exact hnew h
  · exact htext h

/-! ## ThorPP -/

/-- The values of a keyword of the ThorPP macros. -/
abbrev given (argn : List String) (k : String) : List String :=
  part thorppKeywords "default" argn k

/-- The directory the outputs go to. -/
def outputPath (s : Scope) (argn : List String) : String :=
  if given argn "OUTPUT_PATH" = [] then s.value "CMAKE_CURRENT_BINARY_DIR"
  else joined (given argn "OUTPUT_PATH")

/-- The extension the outputs get. -/
def outputExt (argn : List String) : String := joined (given argn "OUTPUT_EXT")

/-- An input's place in the output path, without its extension. -/
def outputStem (s : Scope) (argn : List String) (input : String) : String :=
  outputPath s argn ++ "/" ++ stem input

/-- What the rounds read, of a directory. -/
def thorppGlobals : List String :=
  ["THORPP_EXTENSION", "THORPP_PROGRAM", "CMAKE_COMMAND", "ZILLIANS_SCRIPT_PATH"]

/-- The variables that a ThorPP macro reads in every round. -/
def thorppOwn : List String :=
  ["__target", "__output_variable", "__output_path", "__output_ext"] ++ thorppGlobals

/-- **A call of a ThorPP macro that it accepts**: it has inputs, which are there
and end in `.lp`, a use for the outputs, and no semicolons. -/
structure ThorppCall (isThere : String → Bool) (s : Scope) (argn : List String) : Prop where
  call : KeywordCall s thorppKeywords argn
  thorpp_extension : s "THORPP_EXTENSION" = some ".lp"
  some_input : given argn "INPUT" ≠ []
  some_use : given argn "TARGET" ≠ [] ∨ given argn "OUTPUT_VARIABLE" ≠ []
  accepted : ∀ i ∈ given argn "INPUT", extension i = ".lp" ∧ isThere i = true
  semicolon_input : ∀ i ∈ given argn "INPUT", ';' ∉ i.toList
  semicolon_path : ';' ∉ (outputPath s argn).toList
  semicolon_ext : ';' ∉ (outputExt argn).toList
  semicolon_script : ';' ∉ (s.value "ZILLIANS_SCRIPT_PATH").toList
  own : ∀ v ∈ given argn "OUTPUT_VARIABLE", v ∉ thorppOwn

/-- **What stays true from round to round**: the options, and what the directory
gives. -/
structure ThorppState (s : Scope) (argn : List String) (t : Scope) : Prop where
  path_eq : t.value "__output_path" = outputPath s argn
  ext_eq : t.value "__output_ext" = outputExt argn
  target : t.Gives "__target" (given argn "TARGET")
  collects : t.Gives "__output_variable" (given argn "OUTPUT_VARIABLE")
  kept : ∀ x ∈ thorppGlobals, t x = s x

theorem ThorppState.congr {u : Scope} (h : ThorppState s argn t)
    (hu : ∀ x ∈ thorppOwn, u x = t x) : ThorppState s argn u := by
  have hvalue : ∀ x ∈ thorppOwn, u.value x = t.value x := fun x hx => by
    rw [value, value, hu x hx]
  refine ⟨?_, ?_, h.target.congr (hu _ (by decide)), h.collects.congr (hu _ (by decide)),
    fun x hx => (hu x (List.mem_append_right _ hx)).trans (h.kept x hx)⟩
  · rw [hvalue _ (by decide), h.path_eq]
  · rw [hvalue _ (by decide), h.ext_eq]

theorem ThorppState.agreesOff {N : List String} {u : Scope} (h : ThorppState s argn t)
    (hu : AgreesOff N t u) (hN : ∀ x ∈ thorppOwn, x ∉ N) : ThorppState s argn u :=
  h.congr fun x hx => hu x (hN x hx)

/-- The directory's variables are read as the call found them. -/
theorem ThorppState.value_eq (h : ThorppState s argn t) {x : String} (hx : x ∈ thorppGlobals) :
    t.value x = s.value x := by
  rw [value, value, h.kept x hx]

theorem ThorppState.expand_eq (h : ThorppState s argn t) {x : String} (hx : x ∈ thorppGlobals) :
    t.expand x = s.expand x := by
  rw [Scope.expand, Scope.expand, h.value_eq hx]

/-- An extension has no backslash. -/
theorem ThorppCall.backslash_ext {isThere : String → Bool} (h : ThorppCall isThere s argn) :
    '\\' ∉ (outputExt argn).toList := by
  refine backslash_notMem_of_inert ?_
  have hplain : ∀ w ∈ given argn "OUTPUT_EXT", inert w.toList = true :=
    fun w hw => (h.call.plain w ((sublist_part _ _).subset hw)).plain
  exact inert_joined hplain

variable {path : String}

/-- What a round has found out about its input. -/
structure Opened (path input : String) (t : Scope) : Prop where
  ext_eq : t.expand "__input_ext" = [".lp"]
  stem_eq : t.expand "__input_stem" = [path ++ "/" ++ stem input ++ ".lp"]
  input_eq : t.expand "__input" = [input]

theorem Opened.agreesOff {N : List String} {input : String} {u : Scope} (h : Opened path input t)
    (hu : AgreesOff N t u) (hN : ∀ x ∈ ["__input_ext", "__input_stem", "__input"], x ∉ N) :
    Opened path input u := by
  have hexpand : ∀ x ∈ ["__input_ext", "__input_stem", "__input"], u.expand x = t.expand x :=
    fun x hx => by rw [Scope.expand, Scope.expand, hu.value (hN x hx)]
  refine ⟨?_, ?_, ?_⟩
  · rw [hexpand _ (by simp), h.ext_eq]
  · rw [hexpand _ (by simp), h.stem_eq]
  · rw [hexpand _ (by simp), h.input_eq]

theorem openInput_returns {isThere : String → Bool} {input : String}
    (h : ThorppCall isThere s argn) (ht : ThorppState s argn t) (hinput : t "__input" = some input)
    (hmem : input ∈ given argn "INPUT") :
    Returns (openInput isThere t) fun u => Opened (outputPath s argn) input u ∧
      ThorppState s argn u ∧ u.value "__input_name" = fileName input := by
  obtain ⟨haccepted, hthere⟩ := h.accepted input hmem
  have hsemicolon := h.semicolon_input input hmem
  have hne : input ≠ "" := by
    rintro rfl
    exact absurd haccepted (by decide)
  have hparen : input ≠ "(" := by
    rintro rfl
    exact absurd haccepted (by decide)
  have hexpand : t.expand "__input" = [input] := by
    rw [Scope.expand, value_of_eq_some hinput, pieces_of_semicolon_notMem hne hsemicolon]
  -- the three assignments, one scope for each
  let u := t.assign "__input_name" (fileName input)
  let v := u.assign "__input_ext" ".lp"
  let w := v.assign "__input_stem" (v.value "__output_path" ++ "/" ++ v.value "__input_name")
  have hv : AgreesOff ["__input_name", "__input_ext", "__input_stem"] t v :=
    ((AgreesOff.refl _ t).assign (by simp) _).assign (by simp) _
  have hw : AgreesOff ["__input_name", "__input_ext", "__input_stem"] t w := hv.assign (by simp) _
  have hvinput : v.expand "__input" = [input] := by
    rw [Scope.expand, hv.value (by decide), ← Scope.expand, hexpand]
  have hvext : v.expand "__input_ext" = [".lp"] := by
    rw [Scope.expand, value_assign_self, pieces_of_semicolon_notMem (by decide) (by decide)]
  have hvwanted : v.expand "THORPP_EXTENSION" = [".lp"] := by
    rw [Scope.expand, hv.value (by decide), ht.value_eq (by decide),
      value_of_eq_some h.thorpp_extension, pieces_of_semicolon_notMem (by decide) (by decide)]
  have hname : fileName input = stem input ++ ".lp" := by
    rw [← stem_append_extension, haccepted]
  have hstem : v.value "__output_path" ++ "/" ++ v.value "__input_name" =
      outputPath s argn ++ "/" ++ stem input ++ ".lp" := by
    have hvname' : v.value "__input_name" = fileName input := by
      rw [value_assign_of_ne _ (by decide), value_assign_self]
    rw [hv.value (by decide), ht.path_eq, hvname', hname, ← String.append_assoc]
  have hvname : w.value "__input_name" = fileName input := by
    rw [value_assign_of_ne _ (by decide), value_assign_of_ne _ (by decide), value_assign_self]
  -- the tests in between pass: the file is there, and has the extension
  have hrun : openInput isThere t = .ok w := by
    rw [openInput, hexpand, getFilenameComponent, ok_bind]
    have huinput : u.expand "__input" = [input] := by
      rw [Scope.expand, value_assign_of_ne _ (by decide), ← Scope.expand, hexpand]
    have hsubject : Scope.subject [".lp"] = .ok ".lp" := by decide
    have hword : Scope.word [".lp"] = .ok ".lp" := by decide
    have hself : v.strequal ".lp" ".lp" = true := beq_self_eq_true _
    have hinputWord : Scope.word [input] = .ok input := if_neg hparen
    simp only [show t.assign "__input_name" (fileName input) = u from rfl, huinput,
      getFilenameComponent, ok_bind, haccepted, show u.assign "__input_ext" ".lp" = v from rfl,
      hvext, hvwanted, hvinput, hsubject, hword, hself, hinputWord, hthere, Bool.not_true,
      Bool.false_eq_true, if_false]
    rfl
  rw [hrun]
  refine Returns.ok ⟨⟨?_, ?_, ?_⟩, ht.agreesOff hw (by decide), hvname⟩
  · rw [Scope.expand, value_assign_of_ne _ (by decide), ← Scope.expand, hvext]
  · have hstemSemicolon : ';' ∉ (outputPath s argn ++ "/" ++ stem input ++ ".lp").toList := by
      have hnameSemicolon := notMem_fileName hsemicolon
      rw [hname] at hnameSemicolon
      simp only [String.toList_append, List.mem_append, not_or] at hnameSemicolon ⊢
      exact ⟨⟨⟨h.semicolon_path, by decide⟩, hnameSemicolon.1⟩, hnameSemicolon.2⟩
    rw [Scope.expand, value_assign_self, hstem]
    exact pieces_of_semicolon_notMem (by simp) hstemSemicolon
  · rw [Scope.expand, value_assign_of_ne _ (by decide), ← Scope.expand, hvinput]

/-- The text that a name is made from has no semicolon. -/
theorem Opened.semicolon_stem {input : String} (hpath : ';' ∉ path.toList)
    (hsemicolon : ';' ∉ input.toList) : ';' ∉ (path ++ "/" ++ CMake.stem input ++ ".lp").toList := by
  have hstem : ';' ∉ (CMake.stem input).toList := by
    intro h
    rw [CMake.stem, String.toList_ofList] at h
    exact notMem_fileName hsemicolon ((List.takeWhile_sublist _).subset h)
  simp only [String.toList_append, List.mem_append, not_or]
  exact ⟨⟨⟨hpath, by decide⟩, hstem⟩, by decide⟩

/-- The output of an input, by the macros. -/
def outputName (path input replacement : String) : String :=
  replaced lpPlaces replacement (path ++ "/" ++ stem input ++ ".lp")

theorem semicolon_notMem_outputName {input replacement : String} (hpath : ';' ∉ path.toList)
    (hsemicolon : ';' ∉ input.toList) (hreplacement : ';' ∉ replacement.toList) :
    ';' ∉ (outputName path input replacement).toList :=
  notMem_replaced hreplacement (Opened.semicolon_stem hpath hsemicolon)

/-- **The name of an output.** -/
theorem nameOutput_eq {input replacement out : String} (h : Opened path input t)
    (hreplacement : '\\' ∉ replacement.toList) : nameOutput t replacement out =
      .ok (t.assign out (outputName path input replacement)) := by
  rw [nameOutput, h.ext_eq, h.stem_eq]
  exact stringRegexReplace_eq regexOf_lp (by decide) hreplacement

/-! ### The rules of a round -/

/-- The command line of ThorPP for an input. -/
def thorppWords (program : List String) (input : String) : List String :=
  program ++ ["--input"] ++ [input] ++ ["--from", "cpp", "--to", "cpp"]

theorem thorppWords_eq {program : List String} {input : String}
    (hinput : t.expand "__input" = [input]) (hprogram : t.expand "THORPP_PROGRAM" = program) :
    joined (t.expand "THORPP_PROGRAM" ++ ["--input"] ++ t.expand "__input" ++
      ["--from", "cpp", "--to", "cpp"]) = joined (thorppWords program input) := by
  rw [hinput, hprogram, thorppWords]

/-- The command line that hands a program's to the script. -/
def pipeTo (s : Scope) (program : List String) (output : String) : PipeCommand where
  cmake := s.expand "CMAKE_COMMAND"
  program := joined program
  output := output
  directory := s.value "ZILLIANS_SCRIPT_PATH"

/-- The command that formats a file. -/
def formatLine (s : Scope) (output : String) : Command :=
  .words (pieces (s.value "ZILLIANS_SCRIPT_PATH" ++ "/format_source.sh") ++ pieces output)

/-- The rules for a file that is wanted. -/
def finalRules (argn : List String) (input : String) (depends : List String) (output : String)
    (commands : List Command) : List Rule :=
  let comment := "UsingThorPP.cmake: generating FINAL output " ++ output
  let name := pieces (joined (given argn "TARGET") ++ "_" ++ fileName input)
  if given argn "TARGET" ≠ [] then
    [.target name depends commands comment, .dependency (given argn "TARGET" ++ name)]
  else [.custom (pieces output) depends commands comment]

/-- **What `zillians_add_thorpp_gen` registers** for an input. -/
def thorppRules (s : Scope) (argn : List String) (input : String) : List Rule :=
  let output := outputName (outputPath s argn) input (outputExt argn)
  finalRules argn input [input] output
    [.pipe (pipeTo s (thorppWords (s.expand "THORPP_PROGRAM") input) output), formatLine s output]

/-- The program that the first pass generates. -/
def generator (location : String → String) (input : String) : String :=
  location ("gen_program_1_target_" ++ fileName input)

/-- **What `zillians_add_two_pass_thorpp_gen` registers** for an input. -/
def twoPassRules (location : String → String) (s : Scope) (argn : List String) (input : String) :
    List Rule :=
  let first := outputName (outputPath s argn) input "_intermediate.cpp"
  let output := outputName (outputPath s argn) input (outputExt argn)
  let program := generator location input
  [.custom (pieces first) [input]
      [.pipe (pipeTo s (thorppWords (s.expand "THORPP_PROGRAM") input) first), formatLine s first]
      ("UsingThorPP.cmake: generating INTERMEDIATE generator " ++ output),
    .executable ("gen_program_1_target_" ++ fileName input) (pieces first)] ++
  finalRules argn input (pieces program) output
    [.pipe (pipeTo s [program] output), formatLine s output,
      .words (s.expand "CMAKE_COMMAND" ++ ["-E", "remove"] ++ pieces program ++ pieces first)]

theorem pipeCommand_eq (ht : ThorppState s argn t) {program output gen : String}
    {words : List String} (hprogram : t.value program = joined words)
    (hgen : t.value output = gen) : pipeCommand t program output = pipeTo s words gen := by
  rw [pipeCommand, hprogram, hgen, ht.expand_eq (by decide), ht.value_eq (by decide), pipeTo]

theorem formatSource_eq (ht : ThorppState s argn t) {output gen : String}
    (hgen : t.value output = gen) : formatSource t output = formatLine s gen := by
  rw [formatSource, ht.value_eq (by decide), Scope.expand, hgen, formatLine]

variable {isThere : String → Bool} {location : String → String} {input : String}

/-- A file that is wanted gets its rules, and the options stay. -/
theorem registerFinal_returns (h : ThorppCall isThere s argn) (ht : ThorppState s argn t)
    {output gen : String} {depends : List String} {commands : List Command}
    (hname : t.value "__input_name" = fileName input) (hgen : t.value output = gen) :
    Returns (registerFinal t depends output commands) fun r =>
      r.2 = finalRules argn input depends gen commands ∧ ThorppState s argn r.1 := by
  rw [registerFinal, finalRules, hname, hgen, ht.target.toHolds.text, ht.target.toHolds.expand]
  by_cases htarget : given argn "TARGET" = []
  · have hvariable := h.some_use.resolve_left (not_not.2 htarget)
    obtain ⟨v, vs, hv⟩ := List.exists_cons_of_ne_nil hvariable
    have hsome : ¬ (t "__target").isSome = true := fun hsome =>
      ht.target.isSome_iff.1 hsome htarget
    rw [if_neg hsome, if_pos (ht.collects.isSome_iff.2 hvariable), if_neg (not_not.2 htarget),
      ht.collects.toHolds.expand, hv, List.cons_append, listAppendArgs, ok_bind]
    have hframe : AgreesOff [v] t (t.listAppend v (vs ++ t.expand output)) :=
      (AgreesOff.refl _ t).listAppend (by simp) _
    refine Returns.ok ⟨by rw [Scope.expand, hgen], ht.agreesOff hframe ?_⟩
    rintro x hx hxv
    exact h.own v (by rw [hv]; simp) (List.mem_singleton.1 hxv ▸ hx)
  · rw [if_pos (ht.target.isSome_iff.2 htarget), if_pos htarget]
    exact Returns.ok ⟨rfl, ht⟩

/-- Both kinds of round set the command line, and nothing that is read again. -/
theorem set_cmdString_returns (ht : ThorppState s argn t) {args : List String}
    (hsettable : Settable args) : Returns (t.set "cmd_string" args) fun u =>
      u.value "cmd_string" = joined args ∧ ThorppState s argn u ∧ AgreesOff ["cmd_string"] t u := by
  rw [hsettable.set]
  have hframe : AgreesOff ["cmd_string"] t
      (if args = [] then t.unset "cmd_string" else t.assign "cmd_string" (joined args)) := by
    split
    · exact (AgreesOff.refl _ t).unset (by simp)
    · exact (AgreesOff.refl _ t).assign (by simp) _
  refine Returns.ok ⟨?_, ht.agreesOff hframe (by decide), hframe⟩
  split
  · rename_i hnil
    rw [value_unset_self, hnil, joined_nil]
  · exact value_assign_self _ _ _

theorem settable_thorppProgram (program input : List String) :
    Settable (program ++ ["--input"] ++ input ++ ["--from", "cpp", "--to", "cpp"]) := by
  refine ⟨?_, by simp [isCacheForm]⟩
  rw [List.getLast?_append_of_ne_nil _ (by simp)]
  decide

/-- A command line ends in the file and the script, one word each. -/
theorem PipeCommand.words_eq {c : PipeCommand} (houtput : ';' ∉ c.output.toList)
    (hdirectory : ';' ∉ c.directory.toList) : c.words =
      c.cmake ++ definitionWords "__TEST_PROG" "" ("\"" ++ c.program ++ "\"") ++
        [(⟨"__OUTPUT_FILE", "", "\"" ++ c.output ++ "\""⟩ : Definition).word, "-P",
          c.directory ++ "/run_and_pipe_stdout_to_file.cmake"] := by
  have hfile : definitionWords "__OUTPUT_FILE" "" ("\"" ++ c.output ++ "\"") =
      [(⟨"__OUTPUT_FILE", "", "\"" ++ c.output ++ "\""⟩ : Definition).word] :=
    pieces_of_semicolon_notMem (by simp) (by simpa using houtput)
  rw [words, hfile, pieces_of_semicolon_notMem (by simp) (by simpa using hdirectory)]
  simp

theorem settable_words {c : PipeCommand} (houtput : ';' ∉ c.output.toList)
    (hdirectory : ';' ∉ c.directory.toList) : Settable c.words := by
  have hslash : ∀ {w : String}, '/' ∉ w.toList →
      c.directory ++ "/run_and_pipe_stdout_to_file.cmake" ≠ w := by
    rintro w hw rfl
    simp at hw
  have hdash : (⟨"__OUTPUT_FILE", "", "\"" ++ c.output ++ "\""⟩ : Definition).word ≠ "CACHE" := by
    intro h
    have hhead := congrArg (fun w : String => w.toList.head?) h
    simp [Definition.word] at hhead
  rw [c.words_eq houtput hdirectory]
  refine ⟨?_, ?_⟩
  · rw [List.getLast?_append_of_ne_nil _ (by simp)]
    exact fun h => hslash (by decide) (Option.some.inj h)
  · unfold isCacheForm
    simp only [List.reverse_append, List.reverse_cons, List.reverse_nil, List.nil_append,
      List.cons_append]
    split
    · rename_i heq
      exact absurd (List.cons.inj heq).1 (hslash (by decide))
    · rename_i heq
      obtain ⟨-, h⟩ := List.cons.inj heq
      obtain ⟨-, h⟩ := List.cons.inj h
      rw [← (List.cons.inj h).1]
      simpa using hdash
    · rfl

/-- The command line of a file that is wanted can be set. -/
theorem ThorppCall.settable_pipeTo (h : ThorppCall isThere s argn)
    (hmem : input ∈ given argn "INPUT") {program : List String} {replacement : String}
    (hreplacement : ';' ∉ replacement.toList) :
    Settable (pipeTo s program (outputName (outputPath s argn) input replacement)).words :=
  settable_words (semicolon_notMem_outputName h.semicolon_path (h.semicolon_input input hmem)
    hreplacement) h.semicolon_script

/-- **One round of `zillians_add_thorpp_gen`.** -/
theorem thorppRound_returns (h : ThorppCall isThere s argn) (ht : ThorppState s argn t)
    (hinput : t "__input" = some input) (hmem : input ∈ given argn "INPUT") :
    Returns (thorppRound isThere t) fun r =>
      r.2 = thorppRules s argn input ∧ ThorppState s argn r.1 := by
  rw [thorppRound]
  refine (openInput_returns h ht hinput hmem).bind ?_
  rintro u ⟨hopened, hu, huname⟩
  rw [hu.ext_eq, nameOutput_eq hopened h.backslash_ext, ok_bind]
  let v := u.assign "gen_source_1" (outputName (outputPath s argn) input (outputExt argn))
  have hv : AgreesOff ["gen_source_1"] u v := (AgreesOff.refl _ u).assign (by simp) _
  have hvstate := hu.agreesOff hv (by decide)
  refine (set_cmdString_returns hvstate (settable_thorppProgram _ _)).bind ?_
  rintro w ⟨hwords, hw, hwframe⟩
  have hgen : w.value "gen_source_1" = outputName (outputPath s argn) input (outputExt argn) := by
    rw [hwframe.value (by decide)]
    exact value_assign_self _ _ _
  have hprogram : w.value "cmd_string" =
      joined (thorppWords (s.expand "THORPP_PROGRAM") input) :=
    hwords.trans (thorppWords_eq (hopened.agreesOff hv (by decide)).input_eq
      (hvstate.expand_eq (by decide)))
  dsimp only
  rw [pipeCommand_eq hw hprogram hgen]
  refine (set_cmdString_returns hw (h.settable_pipeTo hmem h.semicolon_ext)).bind ?_
  rintro x ⟨-, hx, hxframe⟩
  have hxgen : x.value "gen_source_1" = outputName (outputPath s argn) input (outputExt argn) :=
    (hxframe.value (by decide)).trans hgen
  have hxinput : x.expand "__input" = [input] :=
    (((hopened.agreesOff hv (by decide)).agreesOff hwframe (by decide)).agreesOff hxframe
      (by decide)).input_eq
  have hxname : x.value "__input_name" = fileName input := by
    rw [hxframe.value (by decide), hwframe.value (by decide), hv.value (by decide), huname]
  rw [formatSource_eq hx hxgen, hxinput]
  exact registerFinal_returns h hx hxname hxgen

/-- **One round of `zillians_add_two_pass_thorpp_gen`.** -/
theorem twoPassRound_returns (h : ThorppCall isThere s argn) (ht : ThorppState s argn t)
    (hinput : t "__input" = some input) (hmem : input ∈ given argn "INPUT") :
    Returns (twoPassRound isThere location t) fun r =>
      r.2 = twoPassRules location s argn input ∧ ThorppState s argn r.1 := by
  rw [twoPassRound]
  refine (openInput_returns h ht hinput hmem).bind ?_
  rintro u ⟨hopened, hu, huname⟩
  rw [nameOutput_eq hopened (by decide), ok_bind]
  -- the two names, with the caller's extension read in between
  let v := u.assign "gen_source_1" (outputName (outputPath s argn) input "_intermediate.cpp")
  have hv : AgreesOff ["gen_source_1"] u v := (AgreesOff.refl _ u).assign (by simp) _
  have hvstate := hu.agreesOff hv (by decide)
  have hvext : v.value "__output_ext" = outputExt argn := hvstate.ext_eq
  show Returns (nameOutput v (v.value "__output_ext") "gen_source_2" >>= _) _
  rw [hvext, nameOutput_eq (hopened.agreesOff hv (by decide)) h.backslash_ext, ok_bind]
  let w := v.assign "gen_source_2" (outputName (outputPath s argn) input (outputExt argn))
  have hw : AgreesOff ["gen_source_2"] v w := (AgreesOff.refl _ v).assign (by simp) _
  have hwstate := hvstate.agreesOff hw (by decide)
  have hwopened := (hopened.agreesOff hv (by decide)).agreesOff hw (by decide)
  refine (set_cmdString_returns hwstate (settable_thorppProgram _ _)).bind ?_
  rintro x ⟨hwords, hx, hxframe⟩
  have hfirst : x.value "gen_source_1" =
      outputName (outputPath s argn) input "_intermediate.cpp" := by
    rw [hxframe.value (by decide), hw.value (by decide)]
    exact value_assign_self _ _ _
  have hprogram : x.value "cmd_string" =
      joined (thorppWords (s.expand "THORPP_PROGRAM") input) :=
    hwords.trans (thorppWords_eq hwopened.input_eq (hwstate.expand_eq (by decide)))
  dsimp only
  rw [pipeCommand_eq hx hprogram hfirst]
  refine (set_cmdString_returns hx (h.settable_pipeTo hmem (by decide))).bind ?_
  rintro y ⟨-, hy, hyframe⟩
  have hyname : y.value "__input_name" = fileName input := by
    rw [hyframe.value (by decide), hxframe.value (by decide), hw.value (by decide),
      hv.value (by decide), huname]
  have hyfirst := (hyframe.value (by decide)).trans hfirst
  have hyinput := ((hwopened.agreesOff hxframe (by decide)).agreesOff hyframe (by decide)).input_eq
  have hysecond : y.value "gen_source_2" =
      outputName (outputPath s argn) input (outputExt argn) := by
    rw [hyframe.value (by decide), hxframe.value (by decide)]
    exact value_assign_self _ _ _
  -- the program of the second pass is what the first pass builds
  let y' := y.assign "gen_program_1" (generator location input)
  have hy' : AgreesOff ["gen_program_1"] y y' := (AgreesOff.refl _ y).assign (by simp) _
  have hy'state := hy.agreesOff hy' (by decide)
  have hgenerator : y'.value "gen_program_1" = joined [generator location input] :=
    (value_assign_self _ _ _).trans (joined_singleton _).symm
  rw [formatSource_eq hy hyfirst, hyinput, Scope.expand, hyfirst, hysecond, hyname,
    show location _ = generator location input from rfl,
    pipeCommand_eq hy'state hgenerator ((hy'.value (by decide)).trans hysecond)]
  refine (set_cmdString_returns hy'state (h.settable_pipeTo hmem h.semicolon_ext)).bind ?_
  rintro z ⟨-, hz, hzframe⟩
  have hkept : ∀ x ∈ ["gen_source_1", "gen_source_2", "__input_name"], z.value x = y.value x := by
    intro x hx
    rw [hzframe.value ((by decide : ∀ x ∈ ["gen_source_1", "gen_source_2", "__input_name"],
      x ∉ ["cmd_string"]) x hx), hy'.value ((by decide : ∀ x ∈ ["gen_source_1", "gen_source_2",
        "__input_name"], x ∉ ["gen_program_1"]) x hx)]
  have hzfirst := (hkept "gen_source_1" (by simp)).trans hyfirst
  have hzsecond := (hkept "gen_source_2" (by simp)).trans hysecond
  have hzprogram : z.value "gen_program_1" = generator location input := by
    rw [hzframe.value (by decide)]
    exact value_assign_self _ _ _
  rw [formatSource_eq hz hzsecond, hz.expand_eq (x := "CMAKE_COMMAND") (by decide)]
  simp only [Scope.expand, hzfirst, hzprogram]
  refine (registerFinal_returns h hz ((hkept "__input_name" (by simp)).trans hyname)
    hzsecond).bind ?_
  rintro ⟨final, rules⟩ ⟨hrules, hfinal⟩
  obtain rfl : rules = _ := hrules
  exact Returns.ok ⟨rfl, hfinal⟩

/-! ## The loop over the inputs -/

/-- **The rule for a loop that registers rules.** -/
theorem foreachRules_returns {ρ : Type} {items : List String} {x : String}
    {body : Scope → Except Stop (Scope × List ρ)} (Inv : Scope → Prop)
    (rules : String → List ρ) (hs : Inv s)
    (hbody : ∀ item ∈ items, ∀ t, Inv t → Returns (body (t.assign x item)) fun r =>
      r.2 = rules item ∧ Inv r.1) :
    Returns (foreachRules s x items body) fun r => r.2 = items.flatMap rules := by
  rw [foreachRules]
  refine (Returns.foldlM (fun done p => p.2 = done.flatMap rules ∧ Inv p.1) items
    (s := (s, [])) ⟨rfl, hs⟩ ?_).bind ?_
  · rintro done item rest ⟨t, registered⟩ rfl ⟨rfl, ht⟩
    refine (hbody item (by simp) t ht).bind ?_
    rintro ⟨u, new⟩ ⟨rfl, hu⟩
    refine Returns.ok ⟨?_, hu⟩
    simp
  · rintro ⟨t, registered⟩ ⟨hrules, -⟩
    exact Returns.ok hrules

theorem readable_thorppVariables : Readable thorppKeywords thorppVariables := by decide

/-- The variables that reading the options writes. -/
def optionVariables : List String :=
  parseVariables ++ (thorppVariables.map Prod.snd ++ putScratch)

/-- The options of an accepted call. -/
theorem thorppOptions_returns (h : ThorppCall isThere s argn) :
    Returns (thorppOptions s argn) fun t =>
      t.expand "__input_list" = given argn "INPUT" ∧ ThorppState s argn t := by
  refine (parseOptions_returns h.call).bind ?_
  rintro t ⟨hparsed, hframe⟩
  refine (getOptions_returns hparsed readable_thorppVariables).bind ?_
  rintro u ⟨hgives, -, huframe⟩
  have hinput : u.Gives "__input_list" (given argn "INPUT") := hgives ("INPUT", _) (by decide)
  have htarget : u.Gives "__target" (given argn "TARGET") := hgives ("TARGET", _) (by decide)
  have hvariable : u.Gives "__output_variable" (given argn "OUTPUT_VARIABLE") :=
    hgives ("OUTPUT_VARIABLE", _) (by decide)
  have hpath : u.Gives "__output_path" (given argn "OUTPUT_PATH") :=
    hgives ("OUTPUT_PATH", _) (by decide)
  have hext : u.Gives "__output_ext" (given argn "OUTPUT_EXT") :=
    hgives ("OUTPUT_EXT", _) (by decide)
  have hall : AgreesOff optionVariables s u :=
    (hframe.mono fun _ hx => List.mem_append_left _ hx).trans
      (huframe.mono fun _ hx => List.mem_append_right _ hx)
  -- the two fatal tests pass: there is an input, and a use for the outputs
  have hnone : ((u "__target").isNone && (u "__output_variable").isNone) = false := by
    rcases h.some_use with hsome | hsome
    · rw [Option.isNone_eq_false_iff.2 (htarget.isSome_iff.2 hsome), Bool.false_and]
    · rw [Option.isNone_eq_false_iff.2 (hvariable.isSome_iff.2 hsome), Bool.and_false]
  have hinputNone : (u "__input_list").isNone = false :=
    Option.isNone_eq_false_iff.2 (hinput.isSome_iff.2 h.some_input)
  have hkept : ∀ x ∈ thorppGlobals, u x = s x := fun x hx =>
    hall x ((by decide : ∀ x ∈ thorppGlobals, x ∉ optionVariables) x hx)
  rw [hinputNone, if_neg Bool.false_ne_true, hnone, if_neg Bool.false_ne_true]
  -- without a path the current binary directory is taken
  by_cases hgiven : given argn "OUTPUT_PATH" = []
  · rw [if_pos (by rw [hpath.undefined hgiven]; rfl)]
    have hvalue : u.value "CMAKE_CURRENT_BINARY_DIR" = outputPath s argn := by
      rw [outputPath, if_pos hgiven, hall.value (by decide)]
    rw [hvalue]
    have hv : AgreesOff ["__output_path"] u (u.assign "__output_path" (outputPath s argn)) :=
      (AgreesOff.refl _ u).assign (by simp) _
    refine Returns.ok ⟨(hinput.agreesOff hv (by decide)).toHolds.expand,
      ⟨value_assign_self _ _ _, ?_, htarget.agreesOff hv (by decide),
        hvariable.agreesOff hv (by decide), fun x hx => ?_⟩⟩
    · rw [hv.value (by decide), hext.toHolds.text, outputExt]
    · rw [hv x ((by decide : ∀ x ∈ thorppGlobals, x ∉ ["__output_path"]) x hx), hkept x hx]
  · have hsome := hpath.isSome_iff.2 hgiven
    rw [Option.isNone_eq_false_iff.2 hsome, if_neg Bool.false_ne_true]
    refine Returns.ok ⟨hinput.toHolds.expand, ⟨?_, hext.toHolds.text, htarget, hvariable, hkept⟩⟩
    rw [outputPath, if_neg hgiven, hpath.toHolds.text]

/-- **What a ThorPP macro has registered**, by what its rounds register for the
inputs, next to a target for all of them. -/
theorem thorppGen_returns {round : Scope → Except Stop (Scope × List Rule)}
    {rules : String → List Rule} (h : ThorppCall isThere s argn)
    (hround : ∀ t input, ThorppState s argn t → t "__input" = some input →
      input ∈ given argn "INPUT" → Returns (round t) fun r =>
        r.2 = rules input ∧ ThorppState s argn r.1) :
    Returns (thorppGen round s argn) fun r =>
      r.2 = (if given argn "TARGET" = [] then [] else [.root (given argn "TARGET")]) ++
        (given argn "INPUT").flatMap rules := by
  refine (thorppOptions_returns h).bind ?_
  rintro t ⟨hinputs, ht⟩
  rw [hinputs]
  refine (foreachRules_returns (ThorppState s argn) rules ht ?_).bind ?_
  · intro input hinput u hu
    have huinput : AgreesOff ["__input"] u (u.assign "__input" input) :=
      (AgreesOff.refl _ u).assign (by simp) _
    exact hround _ input (hu.agreesOff huinput (by decide)) (assign_self _ _ _) hinput
  · rintro ⟨u, registered⟩ rfl
    refine Returns.ok ?_
    by_cases htarget : given argn "TARGET" = []
    · rw [if_pos htarget, if_neg fun hsome => ht.target.isSome_iff.1 hsome htarget]
    · rw [if_neg htarget, if_pos (ht.target.isSome_iff.2 htarget), ht.target.toHolds.expand]

/-- The rules for a file that is wanted have it written to. -/
theorem flatMap_handsOn_finalRules (depends : List String) (output : String) (c : PipeCommand)
    (commands : List Command) : ∃ whole,
      (finalRules argn input depends output (.pipe c :: commands)).flatMap Rule.handsOn =
        [⟨whole, c⟩] := by
  rw [finalRules]
  split
  · exact ⟨_, rfl⟩
  · exact ⟨_, rfl⟩

/-- A target without commands hands nothing on. -/
theorem flatMap_handsOn_root (rules : String → List Rule) (inputs : List String) :
    ((if given argn "TARGET" = [] then [] else [Rule.root (given argn "TARGET")]) ++
      inputs.flatMap rules).flatMap Rule.handsOn =
        inputs.flatMap fun input => (rules input).flatMap Rule.handsOn := by
  have hroot : (if given argn "TARGET" = [] then [] else [Rule.root (given argn "TARGET")]).flatMap
      Rule.handsOn = [] := by
    split <;> rfl
  rw [List.flatMap_append, hroot, List.nil_append, List.flatMap_assoc]

theorem zilliansAddThorppGen_returns (h : ThorppCall isThere s argn) :
    Returns (zilliansAddThorppGen isThere s argn) fun r => r.2.flatMap Rule.handsOn =
      (given argn "INPUT").flatMap fun input =>
        (thorppRules s argn input).flatMap Rule.handsOn := by
  refine (thorppGen_returns h fun t input ht hinput hmem =>
    thorppRound_returns h ht hinput hmem).mono fun r hr => ?_
  rw [hr, flatMap_handsOn_root]

theorem zilliansAddTwoPassThorppGen_returns (h : ThorppCall isThere s argn) :
    Returns (zilliansAddTwoPassThorppGen isThere location s argn) fun r =>
      r.2.flatMap Rule.handsOn = (given argn "INPUT").flatMap fun input =>
        (twoPassRules location s argn input).flatMap Rule.handsOn := by
  refine (thorppGen_returns h fun t input ht hinput hmem =>
    twoPassRound_returns h ht hinput hmem).mono fun r hr => ?_
  rw [hr, flatMap_handsOn_root]

/-- **The files of `zillians_add_thorpp_gen`.** -/
theorem written_thorppRules :
    ((thorppRules s argn input).flatMap Rule.handsOn).map (fun h => h.command.output) =
      [outputName (outputPath s argn) input (outputExt argn)] := by
  obtain ⟨whole, hwhole⟩ := @flatMap_handsOn_finalRules argn input [input]
    (outputName (outputPath s argn) input (outputExt argn)) _ [formatLine s _]
  rw [thorppRules, hwhole]
  rfl

/-- And those of the other macro. -/
theorem written_twoPassRules :
    ((twoPassRules location s argn input).flatMap Rule.handsOn).map (fun h => h.command.output) =
      [outputName (outputPath s argn) input "_intermediate.cpp",
        outputName (outputPath s argn) input (outputExt argn)] := by
  rw [twoPassRules, List.flatMap_append]
  obtain ⟨whole, hwhole⟩ := @flatMap_handsOn_finalRules argn input
    (pieces (generator location input)) (outputName (outputPath s argn) input (outputExt argn)) _ _
  rw [hwhole]
  rfl

/-- **When a ThorPP macro names an output as it should.** -/
theorem outputName_eq_iff (path input replacement : String) :
    outputName path input replacement = path ++ "/" ++ stem input ++ replacement ↔
      ∀ m ∈ occurrences lpPlaces (path ++ "/" ++ stem input).toList, m = replacement.toList :=
  replaced_append_eq_iff ⟨_, rfl⟩ (by decide) (by decide) (by decide)

/-! ## Cog -/

/-- **What the cog macro generates** from an input. -/
theorem zilliansAddCogGen_returns {base : String}
    (h : KeywordCall s ["OUTPUT_VARIABLE", "INPUT"] argn)
    (hinput : part ["OUTPUT_VARIABLE", "INPUT"] "default" argn "INPUT" = [base ++ ".cog"])
    (hsemicolon : ';' ∉ base.toList) : Returns (zilliansAddCogGen s argn) fun r =>
      r.2.flatMap Rule.outputs = [replaced cogPlaces ".h" (base ++ ".cog")] := by
  refine (parseOptions_returns h).bind ?_
  rintro t ⟨hparsed, -⟩
  refine (getOptions_returns hparsed (by decide)).bind ?_
  rintro u ⟨hgives, -, -⟩
  have hheld : u.Gives "__input" [base ++ ".cog"] := hinput ▸ hgives ("INPUT", _) (by decide)
  have hsemicolon' : ';' ∉ (base ++ ".cog").toList := by simpa using hsemicolon
  rw [if_pos (hheld.isSome_iff.2 (by simp)), hheld.toHolds.expand]
  let v := u.assign "OUTPUT_SOURCE_RENAMED" (replaced cogPlaces ".h" (base ++ ".cog"))
  have hreplace : u.stringRegexReplace
      ([".cog", ".h", "OUTPUT_SOURCE_RENAMED"] ++ [base ++ ".cog"]) = .ok v :=
    stringRegexReplace_eq regexOf_cog (by decide) (by decide)
  -- the name is replaced, and stays one word
  have hne : replaced cogPlaces ".h" (base ++ ".cog") ≠ "" := by
    rw [replaced, String.toList_append, show ".cog".toList = '.' :: ['c', 'o', 'g'] from rfl,
      replaceAll_append_cons (by decide) (by decide) (by decide), String.ofList_append]
    simp
  have hrenamed : v.expand "OUTPUT_SOURCE_RENAMED" =
      [replaced cogPlaces ".h" (base ++ ".cog")] := by
    rw [Scope.expand, value_assign_self]
    exact pieces_of_semicolon_notMem hne (notMem_replaced (by decide) hsemicolon')
  rw [hreplace, ok_bind]
  dsimp only
  rw [hrenamed]
  obtain ⟨w, hw⟩ : ∃ w, listAppendArgs v (v.expand "__output_variable" ++
      [replaced cogPlaces ".h" (base ++ ".cog")]) = .ok w := by
    cases v.expand "__output_variable" with
    | nil => exact ⟨_, rfl⟩
    | cons x xs => exact ⟨_, rfl⟩
  rw [hw, ok_bind]
  exact Returns.ok rfl

/-- **When it names its output as it should.** -/
theorem replaced_cog_eq_iff (base : String) :
    replaced cogPlaces ".h" (base ++ ".cog") = base ++ ".h" ↔
      occurrences cogPlaces base.toList = [] := by
  rw [replaced_append_eq_iff ⟨_, rfl⟩ (by decide) (by decide) (by decide)]
  exact forall_occurrences_eq_iff (.inl (by decide))

/-! ## Antlr -/

/-- The names that are derived from a grammar's. -/
theorem antlrNames_returns {name text : String} {suffixes : List (String × String)}
    (hname : t.value name = text) (hnotMem : name ∉ suffixes.map Prod.snd)
    (hnodup : (suffixes.map Prod.snd).Nodup) (hplain : ∀ p ∈ suffixes, '\\' ∉ p.1.toList) :
    Returns (antlrNames t name suffixes) fun u =>
      (∀ p ∈ suffixes, u.value p.2 = replaced gPlaces p.1 text) ∧
        AgreesOff (suffixes.map Prod.snd) t u := by
  refine Returns.foldlM (fun done u => (∀ p ∈ done, u.value p.2 = replaced gPlaces p.1 text) ∧
    AgreesOff (suffixes.map Prod.snd) t u) suffixes ⟨by simp, AgreesOff.refl _ t⟩ ?_
  rintro done p rest u rfl ⟨hdone, hframe⟩
  rw [hframe.value hnotMem, hname, stringRegexReplace_eq regexOf_g (by decide) (hplain p (by simp))]
  refine Returns.ok ⟨fun q hq => ?_, hframe.assign (by simp) _⟩
  rcases List.mem_append.1 hq with hq | hq
  · rw [value_assign_of_ne, hdone q hq]
    rw [List.map_append, List.map_cons] at hnodup
    exact (List.nodup_append.1 hnodup).2.2 q.2 (List.mem_map_of_mem hq) p.2 List.mem_cons_self
  · rw [List.mem_singleton.1 hq, value_assign_self]

/-- A grammar's name ends in `.g`, and nothing in it is evaluated. -/
structure Grammar (grammar base : String) : Prop where
  name : fileName grammar = base ++ ".g"
  semicolon : ';' ∉ grammar.toList
  inert : inert grammar.toList = true

theorem Grammar.semicolon_name {grammar base : String} (h : Grammar grammar base) :
    ';' ∉ (base ++ ".g").toList := h.name ▸ notMem_fileName h.semicolon

/-- A file in the build directory that a name was derived for. -/
theorem pieces_inBinary {grammar base suffix x : String} (h : Grammar grammar base)
    (hx : t.value x = replaced gPlaces suffix (base ++ ".g")) (hsuffix : ';' ∉ suffix.toList)
    (hbinary : ';' ∉ (t.value "CMAKE_CURRENT_BINARY_DIR").toList) :
    pieces (inBinary t x) =
      [t.value "CMAKE_CURRENT_BINARY_DIR" ++ "/" ++ replaced gPlaces suffix (base ++ ".g")] := by
  rw [inBinary, hx]
  refine pieces_of_semicolon_notMem (by simp) ?_
  have hreplaced : ';' ∉ (replaced gPlaces suffix (base ++ ".g")).toList :=
    notMem_replaced hsuffix h.semicolon_name
  simp only [String.toList_append, List.mem_append, not_or]
  exact ⟨⟨hbinary, by decide⟩, hreplaced⟩

/-- What an Antlr macro generates, for some suffixes, where the names are as
they should be. -/
theorem replaced_g_eq_iff (binary base : String) {suffix : String}
    (hsuffix : suffix.toList.length ≠ 2 ∨ fits gPlaces suffix.toList = false) :
    binary ++ "/" ++ replaced gPlaces suffix (base ++ ".g") = binary ++ "/" ++ (base ++ suffix) ↔
      occurrences gPlaces base.toList = [] := by
  rw [String.append_right_inj,
    replaced_append_eq_iff ⟨_, rfl⟩ (by decide) (by decide) (by decide)]
  exact forall_occurrences_eq_iff hsuffix

variable {root_grammar tree_grammar rootBase treeBase hdr_files src_files : String}

/-- The files of the root grammar's macro, by the suffixes of their names. -/
def rootOutputs : List String := ["Lexer.h", "Lexer.c", "Parser.h", "Parser.c", ".tokens"]

/-- A list that a parameter names is extended. -/
theorem appendTo_eq {parameter : String} (h : Plain parameter) (u : Scope) (value : String) :
    appendTo u parameter value = .ok (u.listAppend parameter [value]) := by
  rw [appendTo, u.evaluate_plain h, ok_bind, List.singleton_append, listAppendArgs]

theorem antlr3RootGrammar_returns (h : Grammar root_grammar rootBase) (hhdr : Plain hdr_files)
    (hsrc : Plain src_files) (hbinary : ';' ∉ (s.value "CMAKE_CURRENT_BINARY_DIR").toList) :
    Returns (antlr3RootGrammar s root_grammar hdr_files src_files) fun r =>
      r.2.flatMap Rule.outputs = rootOutputs.map fun suffix =>
        s.value "CMAKE_CURRENT_BINARY_DIR" ++ "/" ++
          replaced gPlaces suffix (rootBase ++ ".g") := by
  rw [antlr3RootGrammar, (s.evaluate_inert h.inert).2, ok_bind]
  let t := s.assign "root_grammar_name" (fileName root_grammar)
  have hname : t.value "root_grammar_name" = rootBase ++ ".g" := by
    rw [value_assign_self, h.name]
  refine (antlrNames_returns hname (by decide) (by decide) (by decide)).bind ?_
  rintro u ⟨hnames, hframe⟩
  have hdir : u.value "CMAKE_CURRENT_BINARY_DIR" = s.value "CMAKE_CURRENT_BINARY_DIR" := by
    rw [hframe.value (by decide), value_assign_of_ne _ (by decide)]
  have hpieces : ∀ p ∈ rootSuffixes, pieces (inBinary u p.2) =
      [s.value "CMAKE_CURRENT_BINARY_DIR" ++ "/" ++ replaced gPlaces p.1 (rootBase ++ ".g")] := by
    intro p hp
    rw [pieces_inBinary h (hnames p hp)
      ((by decide : ∀ p ∈ rootSuffixes, ';' ∉ p.1.toList) p hp) (hdir ▸ hbinary), hdir]
  simp only [(u.evaluate_inert h.inert).1, ok_bind, appendTo_eq hhdr, appendTo_eq hsrc]
  refine Returns.ok ?_
  simp only [List.flatMap_cons, List.flatMap_nil, List.append_nil, Rule.outputs,
    hpieces ("Lexer.h", "root_grammar_lexer_h") (by decide),
    hpieces ("Lexer.c", "root_grammar_lexer_c") (by decide),
    hpieces ("Parser.h", "root_grammar_parser_h") (by decide),
    hpieces ("Parser.c", "root_grammar_parser_c") (by decide),
    hpieces (".tokens", "root_grammar_token") (by decide)]
  rfl

/-- The files of the tree grammar's macro, in the order in which it declares
them: two of them it leaves without a name, or with one from before. -/
def treeOutputs (s : Scope) (tree root : String → String) : List String :=
  let binary := s.value "CMAKE_CURRENT_BINARY_DIR" ++ "/"
  [binary ++ tree ".cpp", binary ++ tree ".h", binary ++ root "Lexer.h"] ++
    pieces (inBinary s "root_grammar_lexer_cpp") ++ [binary ++ root "Parser.h"] ++
      pieces (inBinary s "root_grammar_parser_cpp")

theorem antlr3TreeGrammar_returns (hroot : Grammar root_grammar rootBase)
    (htree : Grammar tree_grammar treeBase) (hhdr : Plain hdr_files) (hsrc : Plain src_files)
    (hbinary : ';' ∉ (s.value "CMAKE_CURRENT_BINARY_DIR").toList) :
    Returns (antlr3TreeGrammar s root_grammar tree_grammar hdr_files src_files) fun r =>
      r.2.flatMap Rule.outputs = treeOutputs s
        (fun suffix => replaced gPlaces suffix (treeBase ++ ".g"))
        (fun suffix => replaced gPlaces suffix (rootBase ++ ".g")) := by
  rw [antlr3TreeGrammar, (s.evaluate_inert htree.inert).2, ok_bind]
  dsimp only
  rw [(Scope.evaluate_inert _ hroot.inert).2, ok_bind]
  let t := (s.assign "tree_grammar_name" (fileName tree_grammar)).assign "root_grammar_name"
    (fileName root_grammar)
  have ht : AgreesOff ["tree_grammar_name", "root_grammar_name"] s t :=
    ((AgreesOff.refl _ s).assign (by simp) _).assign (by simp) _
  have htreeName : t.value "tree_grammar_name" = treeBase ++ ".g" := by
    rw [value_assign_of_ne _ (by decide), value_assign_self, htree.name]
  have hrootName : t.value "root_grammar_name" = rootBase ++ ".g" := by
    rw [value_assign_self, hroot.name]
  refine (antlrNames_returns htreeName (by decide) (by decide) (by decide)).bind ?_
  rintro u ⟨htreeNames, huframe⟩
  refine (antlrNames_returns ((huframe.value (by decide)).trans hrootName) (by decide) (by decide)
    (by decide)).bind ?_
  rintro v ⟨hrootNames, hvframe⟩
  -- two names are never set: they are what they were before the call
  have hkept : ∀ x ∈ ["CMAKE_CURRENT_BINARY_DIR", "root_grammar_lexer_cpp",
      "root_grammar_parser_cpp"], v.value x = s.value x := by
    intro x hx
    rw [hvframe.value ((by decide : ∀ x ∈ ["CMAKE_CURRENT_BINARY_DIR", "root_grammar_lexer_cpp",
        "root_grammar_parser_cpp"], x ∉ rootSuffixes.map Prod.snd) x hx),
      huframe.value ((by decide : ∀ x ∈ ["CMAKE_CURRENT_BINARY_DIR", "root_grammar_lexer_cpp",
        "root_grammar_parser_cpp"], x ∉ treeSuffixes.map Prod.snd) x hx),
      ht.value ((by decide : ∀ x ∈ ["CMAKE_CURRENT_BINARY_DIR", "root_grammar_lexer_cpp",
        "root_grammar_parser_cpp"], x ∉ ["tree_grammar_name", "root_grammar_name"]) x hx)]
  have hdir := hkept "CMAKE_CURRENT_BINARY_DIR" (by simp)
  have hrootPieces : ∀ p ∈ rootSuffixes, pieces (inBinary v p.2) =
      [s.value "CMAKE_CURRENT_BINARY_DIR" ++ "/" ++ replaced gPlaces p.1 (rootBase ++ ".g")] := by
    intro p hp
    rw [pieces_inBinary hroot (hrootNames p hp)
      ((by decide : ∀ p ∈ rootSuffixes, ';' ∉ p.1.toList) p hp) (hdir ▸ hbinary), hdir]
  have htreePieces : ∀ p ∈ treeSuffixes, pieces (inBinary v p.2) =
      [s.value "CMAKE_CURRENT_BINARY_DIR" ++ "/" ++ replaced gPlaces p.1 (treeBase ++ ".g")] := by
    intro p hp
    have hvalue : v.value p.2 = replaced gPlaces p.1 (treeBase ++ ".g") := by
      rw [hvframe.value ((by decide : ∀ p ∈ treeSuffixes, p.2 ∉ rootSuffixes.map Prod.snd) p hp),
        htreeNames p hp]
    rw [pieces_inBinary htree hvalue
      ((by decide : ∀ p ∈ treeSuffixes, ';' ∉ p.1.toList) p hp) (hdir ▸ hbinary), hdir]
  have hother : ∀ x ∈ ["root_grammar_lexer_cpp", "root_grammar_parser_cpp"],
      inBinary v x = inBinary s x := by
    intro x hx
    rw [inBinary, inBinary, hdir, hkept x (List.mem_cons_of_mem _ hx)]
  simp only [(v.evaluate_inert hroot.inert).1, (v.evaluate_inert htree.inert).1, ok_bind,
    appendTo_eq hhdr, appendTo_eq hsrc]
  refine Returns.ok ?_
  simp only [List.flatMap_cons, List.flatMap_nil, List.append_nil, Rule.outputs,
    htreePieces (".cpp", "tree_grammar_cpp") (by decide),
    htreePieces (".h", "tree_grammar_hdr") (by decide),
    hrootPieces ("Lexer.h", "root_grammar_lexer_h") (by decide),
    hrootPieces ("Parser.h", "root_grammar_parser_h") (by decide),
    hother "root_grammar_lexer_cpp" (by simp), hother "root_grammar_parser_cpp" (by simp),
    treeOutputs]
  simp only [List.cons_append, List.nil_append, List.append_assoc]

/-! ## All the macros -/

/-- Lists put together from pieces of the same lengths are the same where the
pieces are. -/
theorem flatMap_eq_iff {α β : Type} {f g : α → List β} {xs : List α}
    (h : ∀ x, (f x).length = (g x).length) : xs.flatMap f = xs.flatMap g ↔ ∀ x ∈ xs, f x = g x := by
  induction xs with
  | nil => simp
  | cons x xs ih =>
    rw [List.flatMap_cons, List.flatMap_cons, List.forall_mem_cons, ← ih]
    exact ⟨fun heq => List.append_inj heq (h x), fun heq => by rw [heq.1, heq.2]⟩

/-- **The generator macros name their outputs as they should** exactly where the
expression they replace occurs nowhere else, or where what is put in its place
is the same. -/
theorem generatorMacros_name_iff (isThere : String → Bool) (location : String → String) :
    (∀ s argn, ThorppCall isThere s argn → Returns (zilliansAddThorppGen isThere s argn) fun r =>
      (written r.2 = (given argn "INPUT").map (fun i => outputStem s argn i ++ outputExt argn) ↔
        ∀ i ∈ given argn "INPUT", ∀ m ∈ occurrences lpPlaces (outputStem s argn i).toList,
          m = (outputExt argn).toList)) ∧
    (∀ s argn, ThorppCall isThere s argn →
      Returns (zilliansAddTwoPassThorppGen isThere location s argn) fun r =>
        (written r.2 = (given argn "INPUT").flatMap (fun i =>
            [outputStem s argn i ++ "_intermediate.cpp", outputStem s argn i ++ outputExt argn]) ↔
          ∀ i ∈ given argn "INPUT", occurrences lpPlaces (outputStem s argn i).toList = [])) ∧
    (∀ s argn base, KeywordCall s ["OUTPUT_VARIABLE", "INPUT"] argn →
      part ["OUTPUT_VARIABLE", "INPUT"] "default" argn "INPUT" = [base ++ ".cog"] →
        ';' ∉ base.toList → Returns (zilliansAddCogGen s argn) fun r =>
          (r.2.flatMap Rule.outputs = [base ++ ".h"] ↔ occurrences cogPlaces base.toList = [])) ∧
    (∀ s root_grammar rootBase hdr_files src_files, Grammar root_grammar rootBase →
      Plain hdr_files → Plain src_files → ';' ∉ (s.value "CMAKE_CURRENT_BINARY_DIR").toList →
        Returns (antlr3RootGrammar s root_grammar hdr_files src_files) fun r =>
          (r.2.flatMap Rule.outputs = rootOutputs.map (fun suffix =>
            s.value "CMAKE_CURRENT_BINARY_DIR" ++ "/" ++ (rootBase ++ suffix)) ↔
              occurrences gPlaces rootBase.toList = [])) ∧
    (∀ s root_grammar tree_grammar rootBase treeBase hdr_files src_files,
      Grammar root_grammar rootBase → Grammar tree_grammar treeBase →
        Plain hdr_files → Plain src_files → ';' ∉ (s.value "CMAKE_CURRENT_BINARY_DIR").toList →
          Returns (antlr3TreeGrammar s root_grammar tree_grammar hdr_files src_files) fun r =>
            (r.2.flatMap Rule.outputs =
                treeOutputs s (fun suffix => treeBase ++ suffix) (fun suffix => rootBase ++ suffix) ↔
              occurrences gPlaces treeBase.toList = [] ∧
                occurrences gPlaces rootBase.toList = [])) := by
  refine ⟨fun s argn h => ?_, fun s argn h => ?_, fun s argn base h hinput hsemicolon => ?_,
    fun s root_grammar rootBase hdr_files src_files h hhdr hsrc hbinary => ?_,
    fun s root_grammar tree_grammar rootBase treeBase hdr_files src_files hroot htree hhdr hsrc
      hbinary => ?_⟩
  · refine (zilliansAddThorppGen_returns h).mono fun r hr => ?_
    rw [written, hr, List.map_flatMap]
    simp only [written_thorppRules]
    rw [← List.map_eq_flatMap, List.map_inj_left]
    exact forall₂_congr fun i _ => outputName_eq_iff _ i _
  · refine (zilliansAddTwoPassThorppGen_returns h).mono fun r hr => ?_
    rw [written, hr, List.map_flatMap]
    simp only [written_twoPassRules]
    have hlength : ∀ i : String, [outputName (outputPath s argn) i "_intermediate.cpp",
        outputName (outputPath s argn) i (outputExt argn)].length =
          [outputStem s argn i ++ "_intermediate.cpp",
            outputStem s argn i ++ outputExt argn].length := by
      intro i
      rw [List.length_cons, List.length_singleton, List.length_cons, List.length_singleton]
    refine (flatMap_eq_iff hlength).trans (forall₂_congr fun i _ => ?_)
    rw [List.cons.injEq, List.cons.injEq, and_iff_left rfl]
    -- the intermediate suffix is no match, so any occurrence changes the name
    have hfirst := (outputName_eq_iff (outputPath s argn) i "_intermediate.cpp").trans
      (forall_occurrences_eq_iff (.inl (by decide)))
    have hsecond := outputName_eq_iff (outputPath s argn) i (outputExt argn)
    constructor
    · exact fun hboth => hfirst.1 hboth.1
    · intro hnone
      refine ⟨hfirst.2 hnone, hsecond.2 ?_⟩
      exact fun m hm => absurd ((show occurrences lpPlaces _ = [] from hnone) ▸ hm) List.not_mem_nil
  · refine (zilliansAddCogGen_returns h hinput hsemicolon).mono fun r hr => ?_
    rw [hr, List.singleton_inj, replaced_cog_eq_iff]
  · refine (antlr3RootGrammar_returns h hhdr hsrc hbinary).mono fun r hr => ?_
    rw [hr, List.map_inj_left]
    -- no suffix fits the expression, so any one of the names decides
    have hsuffix : ∀ suffix ∈ rootOutputs,
        suffix.toList.length ≠ 2 ∨ fits gPlaces suffix.toList = false := by decide
    constructor
    · exact fun hall => (replaced_g_eq_iff _ _ (hsuffix "Lexer.h" (by decide))).1
        (hall "Lexer.h" (by decide))
    · exact fun hnone suffix hmem => (replaced_g_eq_iff _ _ (hsuffix suffix hmem)).2 hnone
  · refine (antlr3TreeGrammar_returns hroot htree hhdr hsrc hbinary).mono fun r hr => ?_
    rw [hr]
    have hnames : ∀ {base suffix : String},
        suffix.toList.length ≠ 2 ∨ fits gPlaces suffix.toList = false →
          (s.value "CMAKE_CURRENT_BINARY_DIR" ++ "/" ++ replaced gPlaces suffix (base ++ ".g") =
            s.value "CMAKE_CURRENT_BINARY_DIR" ++ "/" ++ (base ++ suffix) ↔
              occurrences gPlaces base.toList = []) := fun hsuffix => replaced_g_eq_iff _ _ hsuffix
    simp only [treeOutputs, List.cons_append, List.nil_append, List.append_assoc,
      List.cons.injEq, List.append_cancel_left_eq, and_true]
    rw [hnames (.inl (by decide)), hnames (.inr (by decide)), hnames (.inl (by decide)),
      hnames (.inl (by decide))]
    tauto

/-- A directory in which the ThorPP macros were read. -/
def thorppScope : Scope := Scope.empty.assign "THORPP_EXTENSION" ".lp"

/-- The arguments of a call with one input. -/
def thorppArgs (path : String) : List String :=
  ["TARGET", "t", "INPUT", "b.lp", "OUTPUT_EXT", ".cpp", "OUTPUT_PATH", path]

theorem thorppCall_thorppArgs {path : String} (hpath : path ∈ ["out", "help"]) :
    ThorppCall (fun _ => true) thorppScope (thorppArgs path) := by
  have hquiet : Quiet thorppScope :=
    Quiet.agreesOff (s := Scope.empty) (N := ["THORPP_EXTENSION"]) (fun _ _ => rfl)
      ((AgreesOff.refl _ _).assign (by simp) _) (by decide)
  simp only [List.mem_cons, List.not_mem_nil, or_false] at hpath
  rcases hpath with rfl | rfl
  · exact ⟨⟨hquiet, rfl, by decide, by decide, by decide, by decide⟩, rfl, by decide,
      .inl (by decide), by decide, by decide, by decide, by decide, by decide, by decide⟩
  · exact ⟨⟨hquiet, rfl, by decide, by decide, by decide, by decide⟩, rfl, by decide,
      .inl (by decide), by decide, by decide, by decide, by decide, by decide, by decide⟩

/-- An output path without the extension in it. -/
theorem generatorMacros_name_iff_out :
    Returns (zilliansAddThorppGen (fun _ => true) thorppScope (thorppArgs "out")) fun r =>
      written r.2 = ["out/b.cpp"] := by
  refine ((generatorMacros_name_iff (fun _ => true) id).1 _ _
    (thorppCall_thorppArgs (by decide))).mono fun r hr => hr.2 ?_
  decide

/-- **In a directory `help` the outputs go astray**, `incognito/a.cog` makes a
header of another directory, and `a.grammar.g` loses the middle of its name. -/
theorem generatorMacros_misname :
    ¬ Returns (zilliansAddThorppGen (fun _ => true) thorppScope (thorppArgs "help"))
      (fun r => written r.2 = ["help/b.cpp"]) ∧
    ¬ Returns (zilliansAddCogGen Scope.empty ["OUTPUT_VARIABLE", "v", "INPUT", "incognito/a.cog"])
      (fun r => r.2.flatMap Rule.outputs = ["incognito/a.h"]) ∧
    ¬ Returns (antlr3RootGrammar Scope.empty "a.grammar.g" "h" "c")
      (fun r => r.2.flatMap Rule.outputs =
        ["/a.grammarLexer.h", "/a.grammarLexer.c", "/a.grammarParser.h", "/a.grammarParser.c",
          "/a.grammar.tokens"]) := by
  refine ⟨fun h => ?_, fun h => ?_, fun h => ?_⟩
  · have hcall : ThorppCall (fun _ => true) thorppScope (thorppArgs "help") :=
      thorppCall_thorppArgs (by decide)
    obtain ⟨r, -, hnames, hhanded⟩ := h.and (zilliansAddThorppGen_returns hcall)
    rw [written, hhanded] at hnames
    exact absurd hnames (by decide +kernel)
  · have hinput : part ["OUTPUT_VARIABLE", "INPUT"] "default"
        ["OUTPUT_VARIABLE", "v", "INPUT", "incognito/a.cog"] "INPUT" = ["incognito/a" ++ ".cog"] := by
      decide
    obtain ⟨r, -, hnames, houtputs⟩ := h.and (zilliansAddCogGen_returns
      ⟨fun _ _ => rfl, rfl, by decide, by decide, by decide, by decide⟩ hinput (by decide))
    exact absurd (hnames.symm.trans houtputs) (by decide +kernel)
  · have hgrammar : Grammar "a.grammar.g" "a.grammar" := ⟨by decide, by decide, by decide⟩
    obtain ⟨r, -, hnames, houtputs⟩ := h.and
      (antlr3RootGrammar_returns hgrammar (by decide) (by decide) (by decide))
    exact absurd (hnames.symm.trans houtputs) (by decide +kernel)

end Generators

end Supercell
