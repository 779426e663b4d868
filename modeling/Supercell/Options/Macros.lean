import Supercell.Hashmap.Macros

/-!
# The option macro

`ZilliansOptionUtility.cmake`: `split_options` divides the arguments of a
build macro by the category names among them, into a hashmap. It runs on
the hashmap macros, in the scope of the macro that calls it.
-/

namespace Supercell

namespace Options

open CMake Hashmap

/-- The last branch of the loop over the options: the entry of the current
category is taken out of the hashmap, extended, and put back. -/
def addOption (s : Scope) (option_sets : String) : Except Stop Scope := do
  let s := s.assign "__current_option_list" ""
  let s ← hashmap s
    ("GET" :: option_sets :: s.expand "__current_catalog" ++ ["__current_option_list"])
  let s := s.listAppend "__current_option_list" (s.expand "__option")
  hashmap s ("PUT" :: option_sets :: s.expand "__current_catalog" ++ ["__current_option_list"])

/-- One round of the loop over the options: a category name makes it the
current one, any other option is added to the list of the current
category. -/
def splitRound (default_catagory catagories option_sets : String) (s : Scope) :
    Except Stop Scope := do
  let s ← s.listFind catagories (s.expand "__option" ++ ["__catalog_index"])
  if !s.numEqual "__catalog_index" "-1" then
    s.listGet catagories (s.value "__catalog_index") "__current_catalog"
  else if s.strequal "__current_catalog" (← s.operand default_catagory) then
    return s.listAppend "__default_option_list" (s.expand "__option")
  else addOption s option_sets

/-- **`split_options`**. -/
def splitOptions (s : Scope) (options default_catagory catagories option_sets : String) :
    Except Stop Scope := do
  let s := s.assign "__default_option_list" ""
  let s ← hashmap s ["CLEAR", option_sets]
  let s ← foreach s "__catalog" (s.list catagories) fun s =>
    hashmap s ("PUT" :: option_sets :: s.expand "__catalog" ++ [""])
  let s ← s.set "__current_catalog" (← s.evaluate default_catagory)
  let s ← foreach s "__option" (s.list options)
    (splitRound default_catagory catagories option_sets)
  if !s.strequal "__default_option_list" "" then
    hashmap s ("PUT" :: option_sets :: (← s.evaluate default_catagory) ++
      ["__default_option_list"])
  else return s

/-! ## The lines every build macro starts with -/

/-- The arguments of a build macro, divided by its keywords. -/
def parseOptions (s : Scope) (keywords argn : List String) : Except Stop Scope := do
  let s := s.assign "__option_catalogries" (joined keywords)
  let s ← s.set "__temporary_options_variable" (← s.evaluate (joined argn))
  splitOptions s "__temporary_options_variable" "default" "__option_catalogries" "__options_set"

/-- `hashmap(GET __options_set "keyword" out)`. -/
def getOption (s : Scope) (keyword out : String) : Except Stop Scope :=
  hashmap s ["GET", "__options_set", keyword, out]

/-- Several of these lines, each a keyword and a variable. -/
def getOptions (s : Scope) (options : List (String × String)) : Except Stop Scope :=
  options.foldlM (fun s o => getOption s o.1 o.2) s

end Options

end Supercell
