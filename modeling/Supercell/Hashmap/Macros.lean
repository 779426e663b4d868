import Supercell.CMake.Scope

/-!
# The hashmap macros

`ZilliansHashmapUtility.cmake`: a map kept in one list variable as a
sequence of records `key, length, element …`, read with a cursor and
written by appending and by removing at an index. A macro is a function
of the scope and of its arguments; the scratch variables carry the names
they have in the source, since the macros run in their caller's scope and
leave them behind there.
-/

namespace Supercell

namespace Hashmap

open CMake

/-- What CMake reports when a macro gets fewer arguments than it has
parameters. -/
def incorrectArguments (name : String) : Stop :=
  .rejected ("Macro invoked with incorrect arguments for macro named: " ++ name)

/-- The first half of `__next_element_in_hashmap`: the key and the length
at the cursor. -/
def readHeader (s : Scope) (hashmap_variable : String) (index : ℤ)
    (current_key current_length : String) : Except Stop Scope := do
  let s := s.assign "__key_index" (numeral (index + 0))
  let s := s.assign "__header_index" (numeral (index + 1))
  let s ← s.listGet hashmap_variable (s.value "__key_index") "__current_key"
  let s ← s.listGet hashmap_variable (s.value "__header_index") "__current_length"
  let s ← s.set current_key (s.expand "__current_key")
  s.set current_length (s.expand "__current_length")

/-- The loop that collects a value, from `__start_index` to
`__end_index`. -/
def readValue (s : Scope) (hashmap_variable current_value : String) : Except Stop Scope := do
  let start ← Scope.mathOperand (s.value "__start_index")
  let stop ← Scope.mathOperand (s.value "__end_index")
  foreach s "__loop_index" (← range start stop) fun s => do
    let s := s.assign "__temp" ""
    let s ← s.listGet hashmap_variable (s.value "__loop_index") "__temp"
    return s.listAppend current_value (s.expand "__temp")

/-- `__next_element_in_hashmap`: the record at the cursor and the cursor
behind it. -/
def nextElementInHashmap (s : Scope) (hashmap_variable current_index current_key current_length
    current_value next_index : String) : Except Stop Scope := do
  let index ← Scope.mathOperand current_index
  let s ← readHeader s hashmap_variable index current_key current_length
  let header ← Scope.mathOperand (s.value "__header_index")
  let s := s.assign "__start_index" (numeral (header + 1))
  let start ← Scope.mathOperand (s.value "__start_index")
  let length ← Scope.mathOperand (s.value "__current_length")
  let s := s.assign "__end_index" (numeral (start + length - 1))
  let s := s.assign next_index (numeral (index + length + 2))
  let s := s.assign current_value ""
  if s.numGreater (s.value "__current_length") "0" then readValue s hashmap_variable current_value
  else return s

/-- The rounds a loop over a hashmap can take before its cursor, which
only indexes the list from either end, is back at a position it has
already been at. -/
def rounds (s : Scope) (hashmap_variable : String) : ℕ :=
  2 * (s.list hashmap_variable).length + 2

/-- The line `__dump_hashmap` prints for a record. -/
def dumpLine (hashmap_variable key value : String) : String :=
  "dump: hashmap variable = " ++ hashmap_variable ++ ", key = " ++ key ++ ", value = " ++ value

/-- `__dump_hashmap`, with the lines it prints. -/
def dumpHashmap (s : Scope) (hashmap_variable : String) :
    Except Stop (Scope × List String) :=
  let s := s.listLength hashmap_variable "__length_of_hashmap"
  let s := s.assign "__current_index" "0"
  whileLoop (fun p => p.1.numLess "__current_index" (p.1.value "__length_of_hashmap"))
    (fun (s, lines) => do
      let s ← nextElementInHashmap s hashmap_variable (s.value "__current_index") "__current_key"
        "__current_length" "__current_value" "__next_index"
      let line := dumpLine hashmap_variable (s.value "__current_key") (s.value "__current_value")
      let s ← s.set "__current_index" (s.expand "__next_index")
      return ((s, lines ++ [line]), false))
    (rounds s hashmap_variable) (s, [])

/-- The body of the loop of `__find_in_hashmap`. -/
def findRound (hashmap_variable key index value : String) (s : Scope) :
    Except Stop (Scope × Bool) := do
  let s ← nextElementInHashmap s hashmap_variable (s.value "__current_index") "__current_key"
    "__current_length" "__current_value" "__next_index"
  let s ← s.stringCompareEqual (s.expand "__current_key" ++ (← s.evaluate key) ++ ["__matched"])
  if s.truthy "__matched" then
    let s ← s.set value (s.expand "__current_value")
    let s ← s.set index (s.expand "__current_index")
    return (s.assign "__found" "1", true)
  else
    let s ← s.set "__current_index" (s.expand "__next_index")
    return (s, false)

/-- `__find_in_hashmap`. A search that fails reports `-1` in `index` and
leaves `value` as it found it. -/
def findInHashmap (s : Scope) : List String → Except Stop Scope
  | hashmap_variable :: key :: index :: value :: _ => do
    let s := s.listLength hashmap_variable "__length_of_hashmap"
    if s.numEqual "__length_of_hashmap" "0" then return s.assign index "-1"
    else
      let s := s.assign "__current_index" "0"
      let s := s.assign "__found" "0"
      let s ← whileLoop (fun s => s.numLess "__current_index" (s.value "__length_of_hashmap"))
        (findRound hashmap_variable key index value) (rounds s hashmap_variable) s
      if !s.truthy "__found" then return s.assign index "-1" else return s
  | _ => .error (incorrectArguments "__find_in_hashmap")

/-- `__append_to_hashmap`: the elements are written one unquoted argument
at a time. -/
def appendToHashmap (s : Scope) : List String → Except Stop Scope
  | hashmap_variable :: key :: value :: _ => do
    let s := s.listAppend hashmap_variable (← s.evaluate key)
    let s := s.listLength value "__length_of_value"
    let s := s.listAppend hashmap_variable (s.expand "__length_of_value")
    foreach s "__element" (s.list value) fun s =>
      return s.listAppend hashmap_variable (s.expand "__element")
  | _ => .error (incorrectArguments "__append_to_hashmap")

/-- `__remove_one_from_hashmap`: the record at an index is removed one
element at a time, always at that index. -/
def removeOneFromHashmap (s : Scope) (hashmap_variable index : String) : Except Stop Scope := do
  let s ← s.listGet hashmap_variable index "__key"
  let s ← s.listRemoveAt hashmap_variable index
  let s ← s.listGet hashmap_variable index "__length_of_value"
  let s ← s.listRemoveAt hashmap_variable index
  if s.numGreater "__length_of_value" "0" then
    let length ← Scope.mathOperand (s.value "__length_of_value")
    foreach s "__loop_index" (← range 1 length) fun s => s.listRemoveAt hashmap_variable index
  else return s

/-- `__put_into_hashmap`: an entry of the key is removed, and the new one
appended. -/
def putIntoHashmap (s : Scope) : List String → Except Stop Scope
  | hashmap_variable :: key :: value :: _ => do
    let s ← findInHashmap s (hashmap_variable :: (← s.evaluate key) ++ ["__index", "__value"])
    let s ← (if s.numGreater "__index" "-1" then
        removeOneFromHashmap s hashmap_variable (s.value "__index")
      else return s)
    appendToHashmap s (hashmap_variable :: (← s.evaluate key) ++ [value])
  | _ => .error (incorrectArguments "__put_into_hashmap")

/-- `__get_from_hashmap`. The condition names `_index`, with one
underscore, where the search reports in `__index`. -/
def getFromHashmap (s : Scope) : List String → Except Stop Scope
  | hashmap_variable :: key :: value :: _ => do
    let s ← findInHashmap s (hashmap_variable :: (← s.evaluate key) ++ ["__index", "__value"])
    if s.numEqual "_index" "-1" then return s.assign value ""
    else s.set value (s.expand "__value")
  | _ => .error (incorrectArguments "__get_from_hashmap")

/-- `__remove_from_hashmap`. -/
def removeFromHashmap (s : Scope) : List String → Except Stop Scope
  | hashmap_variable :: key :: _ => do
    let s ← findInHashmap s (hashmap_variable :: (← s.evaluate key) ++ ["__index", "__value"])
    if !s.numEqual "__index" "-1" then
      removeOneFromHashmap s hashmap_variable (s.value "__index")
    else return s
  | _ => .error (incorrectArguments "__remove_from_hashmap")

/-- The report of a wrong number of arguments. -/
def wrongNumber (argv : List String) (correct : String) : Stop :=
  .fatal ("wrong number of argument (ARGC = " ++ numeral argv.length ++ ", ARGN = " ++
    joined argv ++ "), correct form: " ++ correct)

/-- **`hashmap(argv)`**: the operation is named by the first argument. A
value is given by the name of a variable that is defined, or else in
place. -/
def hashmap (s : Scope) (argv : List String) : Except Stop Scope := do
  let argc := numeral argv.length
  let arg i := argv.getD i ""
  let operation ← s.operand (arg 0)
  if s.strequal operation "PUT" then
    if !s.numEqual argc "4" then
      .error (wrongNumber argv "hashmap(PUT hashmap_variable key value)")
    else if ← s.isDefined (← s.evaluate (arg 3)) then
      putIntoHashmap s (arg 1 :: (← s.evaluate (arg 2)) ++ (← s.evaluate (arg 3)))
    else
      let s ← s.set "__temp_variable_for_making_value_instance" (← s.evaluate (arg 3))
      putIntoHashmap s
        (arg 1 :: (← s.evaluate (arg 2)) ++ ["__temp_variable_for_making_value_instance"])
  else if s.strequal operation "GET" then
    if !s.numEqual argc "4" then
      .error (wrongNumber argv "hashmap(GET hashmap_variable key value)")
    else getFromHashmap s (arg 1 :: (← s.evaluate (arg 2)) ++ [arg 3])
  else if s.strequal operation "REMOVE" then
    if !s.numEqual argc "3" then
      .error (wrongNumber argv "hashmap(REMOVE hashmap_variable key value)")
    else removeFromHashmap s (arg 1 :: (← s.evaluate (arg 2)))
  else if s.strequal operation "CLEAR" then
    if !s.numEqual argc "2" then
      .error (wrongNumber argv "hashmap(CLEAR hashmap_variable)")
    else return s.assign (arg 1) ""
  else if s.strequal operation "DUMP" then
    if !s.numEqual argc "2" then
      .error (wrongNumber argv "hashmap(CLEAR hashmap_variable)")
    else return (← dumpHashmap s (arg 1)).1
  else .error (.fatal ("unknown command " ++ operation))

end Hashmap

end Supercell
