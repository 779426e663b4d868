import Supercell.CMake.CustomCommand
import Supercell.CMake.Definitions
import Supercell.CMake.Path
import Supercell.Options.Macros

/-!
# The generator macros

`UsingThorPP.cmake`, `UsingCog.cmake` and `UsingAntlr3.cmake`: macros that
register the generation of source files from other files. They derive the names
of the generated files from the names of the inputs. A call returns the scope it
leaves behind and the rules it adds to the build, as it writes them: what CMake
reads of their command lines is `Rule.lines`.
-/

namespace Supercell

namespace Generators

open CMake Options

/-! ## Rules -/

/-- `cmake -D__TEST_PROG="program" -D__OUTPUT_FILE="output" -P directory/script`,
where the script is `run_and_pipe_stdout_to_file.cmake`. -/
structure PipeCommand where
  cmake : List String
  program : String
  output : String
  directory : String
  deriving DecidableEq, Repr

/-- The words of the command line, which still have their quotes. -/
def PipeCommand.words (c : PipeCommand) : List String :=
  c.cmake ++ definitionWords "__TEST_PROG" "" ("\"" ++ c.program ++ "\"") ++
    definitionWords "__OUTPUT_FILE" "" ("\"" ++ c.output ++ "\"") ++
      "-P" :: pieces (c.directory ++ "/run_and_pipe_stdout_to_file.cmake")

/-- `${cmd_string}`, which holds these words. -/
def PipeCommand.line (c : PipeCommand) : List String := pieces (joined c.words)

/-- The definitions that a shell delivers of it. -/
def PipeCommand.arguments (c : PipeCommand) : List String :=
  [(Definition.quoted "__TEST_PROG" "" c.program).word,
    (Definition.quoted "__OUTPUT_FILE" "" c.output).word]

/-- A command of a rule. -/
inductive Command where
  | pipe (command : PipeCommand)
  | words (words : List String)
  deriving DecidableEq, Repr

/-- The words of a command. -/
def Command.line : Command → List String
  | .pipe command => command.line
  | .words ws => ws

/-- A rule of the build that a macro adds. -/
inductive Rule where
  /-- `ADD_CUSTOM_TARGET(name)`, which generates nothing itself. -/
  | root (name : List String)
  /-- `ADD_CUSTOM_TARGET(name DEPENDS depends COMMAND commands COMMENT comment)`. -/
  | target (name depends : List String) (commands : List Command) (comment : String)
  /-- `ADD_CUSTOM_COMMAND(DEPENDS depends COMMAND commands OUTPUT outputs COMMENT comment)`. -/
  | custom (outputs depends : List String) (commands : List Command) (comment : String)
  /-- `ADD_EXECUTABLE(name sources)`. -/
  | executable (name : String) (sources : List String)
  /-- `ADD_DEPENDENCIES(targets)`. -/
  | dependency (targets : List String)
  deriving DecidableEq, Repr

/-- The commands of a rule. -/
def Rule.commands : Rule → List Command
  | .target _ _ commands _ => commands
  | .custom _ _ commands _ => commands
  | _ => []

/-- The files that a rule declares to generate. -/
def Rule.outputs : Rule → List String
  | .custom outputs _ _ _ => outputs
  | _ => []

/-- `COMMAND words`, for several commands. -/
def sections (commands : List Command) : List String :=
  commands.flatMap fun command => "COMMAND" :: command.line

/-- **The command lines that CMake reads** of a rule. -/
def Rule.lines : Rule → Except Stop (List (List String))
  | .target name depends commands comment => do
    let read ← addCustomTarget (name.tail ++ "DEPENDS" :: depends ++ sections commands ++
      ["COMMENT", comment])
    return read.commands
  | .custom outputs depends commands comment =>
    let read := addCustomCommand ("DEPENDS" :: depends ++ sections commands ++
      "OUTPUT" :: outputs ++ ["COMMENT", comment])
    if read.outputs = [] then
      .error (.rejected "Wrong syntax. A TARGET or OUTPUT must be specified.")
    else .ok read.commands
  | _ => .ok []

/-- The first command line that CMake reads of the rule is this one as it stands. -/
def Rule.runsWhole (rule : Rule) (c : PipeCommand) : Bool :=
  match rule.lines with
  | .ok (line :: _) => line == c.words
  | _ => false

/-- A command line for the script, and whether CMake reads it as it stands. -/
structure Handed where
  whole : Bool
  command : PipeCommand
  deriving DecidableEq, Repr

/-- The command line that a rule has for the script, which comes first in it. -/
def Rule.handsOn (rule : Rule) : List Handed :=
  match rule.commands with
  | .pipe c :: _ => [⟨rule.runsWhole c, c⟩]
  | _ => []

/-- The files that the rules have the programs' outputs written to. -/
def written (rules : List Rule) : List String :=
  (rules.flatMap Rule.handsOn).map fun h => h.command.output

/-- `foreach(x items)` with a body that registers rules. -/
def foreachRules {ρ : Type} (s : Scope) (x : String) (items : List String)
    (body : Scope → Except Stop (Scope × List ρ)) : Except Stop (Scope × List ρ) := do
  let (s', rules) ← items.foldlM (fun (t, rules) item => do
    let (t', new) ← body (t.assign x item)
    return (t', rules ++ new)) (s, [])
  return (s'.assign x (s.value x), rules)

/-- `LIST(APPEND args)`. -/
def listAppendArgs (s : Scope) : List String → Except Stop Scope
  | x :: es => .ok (s.listAppend x es)
  | [] => .error (.rejected "list sub-command APPEND")

/-! ## ThorPP -/

def thorppKeywords : List String :=
  ["TARGET", "OUTPUT_VARIABLE", "INPUT", "OUTPUT_PATH", "OUTPUT_EXT"]

/-- The options, and the variables they are read into. -/
def thorppVariables : List (String × String) :=
  [("TARGET", "__target"), ("OUTPUT_VARIABLE", "__output_variable"), ("INPUT", "__input_list"),
    ("OUTPUT_PATH", "__output_path"), ("OUTPUT_EXT", "__output_ext")]

/-- The arguments of both ThorPP macros, read and checked. -/
def thorppOptions (s : Scope) (argn : List String) : Except Stop Scope := do
  let s ← parseOptions s thorppKeywords argn
  let s ← getOptions s thorppVariables
  if (s "__input_list").isNone then .error (.fatal "must specify input!")
  else if (s "__target").isNone && (s "__output_variable").isNone then
    .error (.fatal "must specify either target or output variable!")
  else if (s "__output_path").isNone then
    return s.assign "__output_path" (s.value "CMAKE_CURRENT_BINARY_DIR")
  else return s

/-- An input is taken apart and checked, and put into the output path. -/
def openInput (isThere : String → Bool) (s : Scope) : Except Stop Scope := do
  let s ← s.getFilenameComponent "__input_name" fileName (s.expand "__input")
  let s ← s.getFilenameComponent "__input_ext" extension (s.expand "__input")
  let ext ← Scope.subject (s.expand "__input_ext")
  if !s.strequal ext (← Scope.word (s.expand "THORPP_EXTENSION")) then
    .error (.fatal ("unrecognized file extension! " ++ s.value "__input_ext"))
  else if !isThere (← Scope.word (s.expand "__input")) then .error (.fatal "file must exist!")
  else return s.assign "__input_stem" (s.value "__output_path" ++ "/" ++ s.value "__input_name")

/-- `STRING(REGEX REPLACE ${__input_ext} "replacement" out ${__input_stem})`. -/
def nameOutput (s : Scope) (replacement out : String) : Except Stop Scope :=
  s.stringRegexReplace (s.expand "__input_ext" ++ [replacement, out] ++ s.expand "__input_stem")

/-- `SET(cmd_string ${THORPP_PROGRAM} --input ${__input} --from cpp --to cpp)`. -/
def thorppProgram (s : Scope) : Except Stop Scope :=
  s.set "cmd_string" (s.expand "THORPP_PROGRAM" ++ ["--input"] ++ s.expand "__input" ++
    ["--from", "cpp", "--to", "cpp"])

/-- The command that runs the program of one variable and writes the file of
another. -/
def pipeCommand (s : Scope) (program output : String) : PipeCommand where
  cmake := s.expand "CMAKE_COMMAND"
  program := s.value program
  output := s.value output
  directory := s.value "ZILLIANS_SCRIPT_PATH"

/-- `${ZILLIANS_SCRIPT_PATH}/format_source.sh ${output}`. -/
def formatSource (s : Scope) (output : String) : Command :=
  .words (pieces (s.value "ZILLIANS_SCRIPT_PATH" ++ "/format_source.sh") ++ s.expand output)

/-- The rules for the file that is wanted: a target of its own, or a command
whose output is collected. -/
def registerFinal (s : Scope) (depends : List String) (output : String)
    (commands : List Command) : Except Stop (Scope × List Rule) :=
  let comment := "UsingThorPP.cmake: generating FINAL output " ++ s.value output
  let name := pieces (s.value "__target" ++ "_" ++ s.value "__input_name")
  if (s "__target").isSome then
    .ok (s, [.target name depends commands comment, .dependency (s.expand "__target" ++ name)])
  else if (s "__output_variable").isSome then do
    let s' ← listAppendArgs s (s.expand "__output_variable" ++ s.expand output)
    return (s', [.custom (s.expand output) depends commands comment])
  else .ok (s, [])

/-- One input of `zillians_add_thorpp_gen`. -/
def thorppRound (isThere : String → Bool) (s : Scope) : Except Stop (Scope × List Rule) := do
  let s ← openInput isThere s
  let s ← nameOutput s (s.value "__output_ext") "gen_source_1"
  let s ← thorppProgram s
  let command := pipeCommand s "cmd_string" "gen_source_1"
  let s ← s.set "cmd_string" command.words
  registerFinal s (s.expand "__input") "gen_source_1"
    [.pipe command, formatSource s "gen_source_1"]

/-- One input of `zillians_add_two_pass_thorpp_gen`: the program that the
first pass generates is compiled, and generates the file. -/
def twoPassRound (isThere : String → Bool) (location : String → String) (s : Scope) :
    Except Stop (Scope × List Rule) := do
  let s ← openInput isThere s
  let s ← nameOutput s "_intermediate.cpp" "gen_source_1"
  let s ← nameOutput s (s.value "__output_ext") "gen_source_2"
  let s ← thorppProgram s
  let first := pipeCommand s "cmd_string" "gen_source_1"
  let s ← s.set "cmd_string" first.words
  let generator := "gen_program_1_target_" ++ s.value "__input_name"
  let rules := [.custom (s.expand "gen_source_1") (s.expand "__input")
      [.pipe first, formatSource s "gen_source_1"]
      ("UsingThorPP.cmake: generating INTERMEDIATE generator " ++ s.value "gen_source_2"),
    .executable generator (s.expand "gen_source_1")]
  let s := s.assign "gen_program_1" (location generator)
  let second := pipeCommand s "gen_program_1" "gen_source_2"
  let s ← s.set "cmd_string" second.words
  let (s, final) ← registerFinal s (s.expand "gen_program_1") "gen_source_2"
    [.pipe second, formatSource s "gen_source_2",
      .words (s.expand "CMAKE_COMMAND" ++ ["-E", "remove"] ++ s.expand "gen_program_1" ++
        s.expand "gen_source_1")]
  return (s, rules ++ final)

/-- A ThorPP macro, from what it does with one input. -/
def thorppGen (round : Scope → Except Stop (Scope × List Rule)) (s : Scope)
    (argn : List String) : Except Stop (Scope × List Rule) := do
  let s ← thorppOptions s argn
  let root := if (s "__target").isSome then [Rule.root (s.expand "__target")] else []
  let (s, rules) ← foreachRules s "__input" (s.expand "__input_list") round
  return (s, root ++ rules)

/-- **`zillians_add_thorpp_gen`**. -/
def zilliansAddThorppGen (isThere : String → Bool) :
    Scope → List String → Except Stop (Scope × List Rule) :=
  thorppGen (thorppRound isThere)

/-- **`zillians_add_two_pass_thorpp_gen`**. -/
def zilliansAddTwoPassThorppGen (isThere : String → Bool) (location : String → String) :
    Scope → List String → Except Stop (Scope × List Rule) :=
  thorppGen (twoPassRound isThere location)

/-! ## Cog -/

/-- **`zillians_add_cog_gen`**. -/
def zilliansAddCogGen (s : Scope) (argn : List String) : Except Stop (Scope × List Rule) := do
  let s ← parseOptions s ["OUTPUT_VARIABLE", "INPUT"] argn
  let s ← getOptions s [("OUTPUT_VARIABLE", "__output_variable"), ("INPUT", "__input")]
  if (s "__input").isSome then
    let s ← s.stringRegexReplace ([".cog", ".h", "OUTPUT_SOURCE_RENAMED"] ++ s.expand "__input")
    let renamed := s.expand "OUTPUT_SOURCE_RENAMED"
    let input := s.expand "__input"
    let s ← listAppendArgs s (s.expand "__output_variable" ++ renamed)
    return (s, [.custom renamed input
      [Command.words (s.expand "COG_SCRIPT" ++ ["-d", "-o"] ++ renamed ++ input)] ""])
  else return (s, [])

/-! ## Antlr -/

/-- `STRING(REGEX REPLACE "\\.g" suffix out "${name}")`, for several suffixes and
variables. -/
def antlrNames (s : Scope) (name : String) (suffixes : List (String × String)) :
    Except Stop Scope :=
  suffixes.foldlM (fun s p => s.stringRegexReplace ["\\.g", p.1, p.2, s.value name]) s

/-- What is generated from a tree grammar. -/
def treeSuffixes : List (String × String) :=
  [(".cpp", "tree_grammar_cpp"), (".c", "tree_grammar_c"), (".h", "tree_grammar_hdr"),
    (".tokens", "tree_grammar_tokens")]

/-- And from a root grammar. -/
def rootSuffixes : List (String × String) :=
  [("Lexer.c", "root_grammar_lexer_c"), ("Lexer.h", "root_grammar_lexer_h"),
    ("Parser.c", "root_grammar_parser_c"), ("Parser.h", "root_grammar_parser_h"),
    (".tokens", "root_grammar_token")]

/-- `${CMAKE_CURRENT_BINARY_DIR}/${x}`. -/
def inBinary (s : Scope) (x : String) : String :=
  s.value "CMAKE_CURRENT_BINARY_DIR" ++ "/" ++ s.value x

/-- `${CMAKE_COMMAND} -E copy`, into the build directory. -/
def copyCommand (s : Scope) (args : List String) : Command :=
  .words (s.expand "CMAKE_COMMAND" ++ ["-E", "copy"] ++ args)

/-- `java -jar ${ANTLR3_COMMAND} -o ${CMAKE_CURRENT_BINARY_DIR}/ grammar`. -/
def antlrCommand (s : Scope) (grammar : List String) : Command :=
  .words (["java", "-jar"] ++ s.expand "ANTLR3_COMMAND" ++ ["-o"] ++
    pieces (s.value "CMAKE_CURRENT_BINARY_DIR" ++ "/") ++ grammar)

/-- `LIST(APPEND ${parameter} "value")`, with a parameter of a macro. -/
def appendTo (s : Scope) (parameter value : String) : Except Stop Scope := do
  listAppendArgs s ((← s.evaluate parameter) ++ [value])

/-- **`Antlr3TreeGrammar`**. The expression `.*/` that the names of the grammars
are cut with reaches to the last slash. Two of the outputs are named by
variables that the macro does not set. -/
def antlr3TreeGrammar (s : Scope) (root_grammar tree_grammar out_hdr_files out_src_files : String) :
    Except Stop (Scope × List Rule) := do
  let s := s.assign "tree_grammar_name" (fileName (← s.evaluateQuoted tree_grammar))
  let s := s.assign "root_grammar_name" (fileName (← s.evaluateQuoted root_grammar))
  let s ← antlrNames s "tree_grammar_name" treeSuffixes
  let s ← antlrNames s "root_grammar_name" rootSuffixes
  let root ← s.evaluate root_grammar
  let tree ← s.evaluate tree_grammar
  let binary := pieces (s.value "CMAKE_CURRENT_BINARY_DIR" ++ "/")
  let rule := Rule.custom
    (["tree_grammar_cpp", "tree_grammar_hdr", "root_grammar_lexer_h", "root_grammar_lexer_cpp",
      "root_grammar_parser_h", "root_grammar_parser_cpp"].flatMap fun x => pieces (inBinary s x))
    (root ++ tree)
    [copyCommand s (root ++ binary), copyCommand s (tree ++ binary), antlrCommand s root,
      antlrCommand s tree,
      copyCommand s (pieces (inBinary s "tree_grammar_c") ++ pieces (inBinary s "tree_grammar_cpp"))]
    ""
  let s ← appendTo s out_src_files (inBinary s "tree_grammar_cpp")
  let s ← appendTo s out_hdr_files (inBinary s "tree_grammar_hdr")
  let s ← appendTo s out_hdr_files (inBinary s "root_grammar_lexer_h")
  let s ← appendTo s out_hdr_files (inBinary s "root_grammar_parser_h")
  return (s, [rule])

/-- **`Antlr3RootGrammar`**. -/
def antlr3RootGrammar (s : Scope) (root_grammar output_hdr_files output_src_files : String) :
    Except Stop (Scope × List Rule) := do
  let s := s.assign "root_grammar_name" (fileName (← s.evaluateQuoted root_grammar))
  let s ← antlrNames s "root_grammar_name" rootSuffixes
  let root ← s.evaluate root_grammar
  let rule := Rule.custom
    (["root_grammar_lexer_h", "root_grammar_lexer_c", "root_grammar_parser_h",
      "root_grammar_parser_c", "root_grammar_token"].flatMap fun x => pieces (inBinary s x))
    root
    [copyCommand s (root ++ pieces (s.value "CMAKE_CURRENT_BINARY_DIR" ++ "/")),
      antlrCommand s root]
    ""
  let s ← appendTo s output_hdr_files (inBinary s "root_grammar_lexer_h")
  let s ← appendTo s output_hdr_files (inBinary s "root_grammar_parser_h")
  let s ← appendTo s output_src_files (inBinary s "root_grammar_lexer_c")
  let s ← appendTo s output_src_files (inBinary s "root_grammar_parser_c")
  return (s, [rule])

end Generators

end Supercell
