import Supercell.CMake.CustomCommand
import Supercell.CMake.Path
import Supercell.Options.Macros
import Supercell.Tests.Scripts

/-!
# The test macros

`ZilliansTestUtility.cmake`: each macro divides its arguments by keywords,
checks how many targets there are, and registers the test twice, as a CTest
test and as a build target that `make check` runs. A call returns the scope it
leaves behind and the rules it adds to the build.
-/

namespace Supercell

namespace Tests

open CMake Options

/-- What `add_custom_target` makes of a command line. -/
inductive TargetCommand where
  /-- The command line as it stands. -/
  | whole (command : RunnerCommand)
  /-- A word of the call is a keyword of `add_custom_target`, which is left with other
  lines. Where it is a word of the command line, they have a double quote open. -/
  | torn (lines : List (List String))
  deriving DecidableEq, Repr

/-- A rule of the build that a macro adds. -/
inductive Rule where
  /-- `add_test(NAME name COMMAND command)`. -/
  | test (name : String) (command : RunnerCommand)
  /-- `add_custom_target(name DEPENDS depends COMMAND command)`. -/
  | target (name : String) (depends : List String) (command : TargetCommand)
  /-- `add_custom_target(name)`, which runs nothing. -/
  | subject (name : String)
  /-- `add_dependencies(target on)`. -/
  | dependency (target on : String)
  deriving DecidableEq, Repr

/-- What CMake knows of the targets: their `LOCATION` property, and which
there are. -/
structure Project where
  location : String → String
  isTarget : String → Bool

/-- The check of a counter: just one value was given. -/
def checkCount (s : Scope) (count : String) : Except Stop Unit :=
  if s.numGreater count "1" then .error (.fatal "can't declare more than one target!")
  else if s.numEqual count "0" then .error (.fatal "no target declared!")
  else .ok ()

/-- An option that takes one value: it is read, counted, and its counter
checked. -/
def readOne (s : Scope) (keyword out count : String) : Except Stop Scope := do
  let s ← getOption s keyword out
  let s := s.listLength out count
  checkCount s count
  return s

/-- `cmake arguments -P ${ZILLIANS_SCRIPT_PATH}/script`. -/
def runnerCommand (s : Scope) (arguments : List String) (script : Runner) : RunnerCommand where
  cmake := s.expand "CMAKE_COMMAND"
  arguments := arguments
  directory := s.value "ZILLIANS_SCRIPT_PATH"
  script := script

/-- `get_target_property(__location_${__target} ${__target} LOCATION)`. -/
def getLocation (p : Project) (s : Scope) : Scope :=
  s.assign ("__location_" ++ s.value "__target") (p.location (s.value "__target"))

/-- `-DTEST_PROG:STRING=${__location_${__target}}`. -/
def locationProgram (s : Scope) : List String :=
  definitionWords "TEST_PROG" ":STRING" (s.value ("__location_" ++ s.value "__target"))

/-! ## `zillians_add_simple_test` -/

/-- The options of a simple test. -/
def simpleOptions (s : Scope) (argn : List String) : Except Stop Scope := do
  let s ← parseOptions s ["TARGET"] argn
  readOne s "TARGET" "__target" "__number_of_targets"

/-- **`zillians_add_simple_test`**. -/
def zilliansAddSimpleTest (p : Project) (s : Scope) (argn : List String) :
    Except Stop (Scope × List Rule) := do
  let s ← simpleOptions s argn
  let s := getLocation p s
  let target := s.value "__target"
  return (s,
    [.test ("runtest-" ++ target) (runnerCommand s (locationProgram s) .run),
      .target ("runtest-" ++ target) [target] (.whole (runnerCommand s (locationProgram s) .run)),
      .dependency "check" ("runtest-" ++ target)])

/-! ## `zillians_add_complex_test` -/

/-- The options of a complex test. -/
def complexOptions (s : Scope) (argn : List String) : Except Stop Scope := do
  let s ← parseOptions s ["TARGET", "SHELL", "DEPENDS", "EXPECT_FAIL"] argn
  let s ← getOption s "TARGET" "__target"
  let s ← getOption s "SHELL" "__shell"
  let s ← getOption s "DEPENDS" "__depends"
  let s ← getOption s "EXPECT_FAIL" "__expect_fail"
  let s := s.listLength "__target" "__number_of_targets"
  let s := s.listLength "__shell" "__number_of_shell"
  let s := s.listLength "__depends" "__number_of_depends"
  checkCount s "__number_of_targets"
  if s.numEqual "__number_of_shell" "0" then .error (.fatal "no shell declared!")
  else return s

/-- The loop that collects the words of the shell command. -/
def collectCommand (s : Scope) : Except Stop Scope :=
  foreach (s.unset "cmd_string") "cmd" (s.expand "__shell") fun s =>
    s.set "cmd_string" (s.expand "cmd_string" ++ s.expand "cmd")

/-- `-DEXPECT_FAIL="TRUE"`, where the call asks for it. -/
def expectFail (s : Scope) : List Definition :=
  if s.truthy "__expect_fail" then [.quoted "EXPECT_FAIL" "" "TRUE"] else []

/-- **The command line of the build target**, as the shell delivers it. -/
def complexCommand (s : Scope) : RunnerCommand :=
  runnerCommand s ((Definition.quoted "TEST_PROG" ":STRING" (s.value "cmd_string") ::
    expectFail s).map Definition.word) .run

/-- Its words for `add_custom_target`, which still have their quotes. -/
def complexWords (s : Scope) : List String :=
  (runnerCommand s (definitionWords "TEST_PROG" ":STRING" ("\"" ++ s.value "cmd_string" ++ "\"") ++
    (expectFail s).flatMap fun d => definitionWords d.name d.type ("\"" ++ d.text ++ "\"")) .run).words

/-- **`zillians_add_complex_test`**. The command of the build target is put
together in `cmd_string`. -/
def zilliansAddComplexTest (p : Project) (s : Scope) (argn : List String) :
    Except Stop (Scope × List Rule) := do
  let s ← complexOptions s argn
  let s ← collectCommand s
  let target := s.value "__target"
  -- CTest runs the words as they are, quotes and all
  let test := Rule.test ("runtest-" ++ target)
    (runnerCommand s (definitionWords "TEST_PROG" ":STRING" ("\"" ++ s.value "__shell" ++ "\"")) .run)
  let command := complexCommand s
  let words := complexWords s
  let s ← s.set "cmd_string" words
  let depends :=
    if s.numEqual "__number_of_depends" "0" then [] else "DEPENDS" :: s.expand "__depends"
  let read ← addCustomTarget (depends ++ "COMMAND" :: words)
  let build := Rule.target ("runtest-" ++ target) read.depends
    (if read.commands = [words] then .whole command else .torn read.commands)
  let after := if p.isTarget target then [Rule.dependency ("runtest-" ++ target) target] else []
  return (s, test :: build :: (after ++ [.dependency "check" ("runtest-" ++ target)]))

/-! ## `zillians_add_regex_match_output_test` -/

/-- The options of a test that matches its output. Neither the pattern nor
the mode is checked. -/
def regexOptions (s : Scope) (argn : List String) : Except Stop Scope := do
  let s ← parseOptions s ["TARGET", "PATTERN", "MODE"] argn
  let s ← readOne s "TARGET" "__target" "__number_of_targets"
  let s ← getOption s "PATTERN" "__pattern"
  getOption s "MODE" "__mode"

/-- The definitions of a registration, which names the mode in its own way. -/
def matchArguments (s : Scope) (mode : String) : List String :=
  locationProgram s ++ definitionWords "PATTERN" "" (s.value "__pattern") ++
    definitionWords mode "" (s.value "__mode")

/-- **`zillians_add_regex_match_output_test`**. The build target gets the mode
as `MATCH_TYPE`. -/
def zilliansAddRegexMatchOutputTest (p : Project) (s : Scope) (argn : List String) :
    Except Stop (Scope × List Rule) := do
  let s ← regexOptions s argn
  let s := getLocation p s
  let target := s.value "__target"
  return (s,
    [.test ("runtest-" ++ target) (runnerCommand s (matchArguments s "MATCH_MODE") .runAndMatch),
      .target ("runtest-" ++ target) [target]
        (.whole (runnerCommand s (matchArguments s "MATCH_TYPE") .runAndMatch)),
      .dependency "check" ("runtest-" ++ target)])

/-! ## `zillians_add_compare_output_test` -/

/-- The options of a test that compares its output, behind the two positional
parameters. -/
def compareOptions (s : Scope) (argn : List String) : Except Stop Scope := do
  let s ← parseOptions s ["TARGET", "EXPECT"] argn
  let s ← readOne s "TARGET" "__target" "__number_of_targets"
  getOption s "EXPECT" "__expect"

/-- The file that the output is compared with. -/
def expectedOutput (s : Scope) : Except Stop Scope :=
  if isAbsolute (s.value "__expect") then s.set "__expected_output" (s.expand "__expect")
  else .ok (s.assign "__expected_output"
    (s.value "CMAKE_CURRENT_SOURCE_DIR" ++ "/" ++ s.value "__expect"))

/-- The definitions of a registration, by what it says where the output goes. -/
def compareArguments (s : Scope) (location : List String) : List String :=
  locationProgram s ++ location ++
    definitionWords "EXPECTED_OUTPUT" "" (s.value "__expected_output")

/-- `-DOUTPUT_LOCATION="/tmp/output.txt"` for CTest, quotes and all. -/
def testLocation : List String := definitionWords "OUTPUT_LOCATION" "" "\"/tmp/output.txt\""

/-- And for the build, whose shell takes the quotes away. -/
def buildLocation : List String :=
  [(Definition.quoted "OUTPUT_LOCATION" "" "/tmp/output.txt").word]

/-- **`zillians_add_compare_output_test`**, which takes its first two
arguments for the parameters `target_name` and `expected_output`. -/
def zilliansAddCompareOutputTest (p : Project) (s : Scope) :
    List String → Except Stop (Scope × List Rule)
  | _targetName :: _expectedOutput :: argn => do
    let s ← compareOptions s argn
    let s := getLocation p s
    let s ← expectedOutput s
    let target := s.value "__target"
    return (s,
      [.test ("runtest-" ++ target)
          (runnerCommand s (compareArguments s testLocation) .runAndCompare),
        .target ("runtest-" ++ target) [target]
          (.whole (runnerCommand s (compareArguments s buildLocation) .runAndCompare)),
        .dependency "check" ("runtest-" ++ target)])
  | _ => .error (.rejected "macro invoked with incorrect arguments")

end Tests

end Supercell
