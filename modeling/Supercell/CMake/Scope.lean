import Supercell.CMake.Text
import Supercell.Common.Replace
import Supercell.Common.Returns
import Mathlib.Logic.Function.Basic

/-!
# CMake — the variable scope and the commands on it

A macro runs in its caller's scope, so a piece of CMake code is a
function from scopes to scopes that may stop instead. This file has the
scope, the two ways an argument of a command is evaluated, `set`, the
`list()`, `math()` and `string()` commands the macros use, and the
conditions of `if()` and `while()`, with the automatic dereference that
makes a condition read any variable named by one of its words.
-/

namespace Supercell

namespace CMake

/-- Why a run of CMake code stops. -/
inductive Stop
  /-- `message(FATAL_ERROR)`. -/
  | fatal (message : String)
  /-- A command refuses its arguments. -/
  | rejected (command : String)
  /-- A loop comes back to where it was and never ends. -/
  | endless
  deriving DecidableEq, Repr

/-- The variables of a directory, with their texts. -/
abbrev Scope := String → Option String

namespace Scope

/-- No variable is defined. -/
def empty : Scope := fun _ => none

variable (s : Scope)

/-- What `${x}` stands for: a variable that is not defined reads empty. -/
def value (x : String) : String := (s x).getD ""

def assign (x text : String) : Scope := Function.update s x (some text)

def unset (x : String) : Scope := Function.update s x none

/-- The elements of the list a variable holds. -/
def list (x : String) : List String := elements (s.value x)

/-- The arguments an unquoted `${x}` gives. -/
def expand (x : String) : List String := pieces (s.value x)

@[simp] theorem assign_self (x text : String) : s.assign x text x = some text := by
  simp [assign]

theorem assign_of_ne {x y : String} (h : y ≠ x) (text : String) : s.assign x text y = s y := by
  simp [assign, h]

theorem assign_apply (x text y : String) :
    s.assign x text y = if y = x then some text else s y := by
  simp [assign, Function.update_apply]

@[simp] theorem unset_self (x : String) : s.unset x x = none := by
  simp [unset]

theorem unset_of_ne {x y : String} (h : y ≠ x) : s.unset x y = s y := by
  simp [unset, h]

@[simp] theorem value_assign_self (x text : String) : (s.assign x text).value x = text := by
  simp [value]

theorem value_assign_of_ne {x y : String} (h : y ≠ x) (text : String) :
    (s.assign x text).value y = s.value y := by
  simp [value, assign_of_ne s h]

@[simp] theorem value_unset_self (x : String) : (s.unset x).value x = "" := by
  simp [value]

theorem value_of_eq_some {s : Scope} {x text : String} (h : s x = some text) :
    s.value x = text := by
  simp [value, h]

end Scope

/-! ## Evaluating the text a macro parameter was replaced by

A macro's parameters are replaced in the text of its commands before
these are evaluated, so an argument handed from macro to macro has its
references and escapes evaluated at every step. The scope has the variables
of the environment under the names that `set` has for them, `ENV{x}`. -/

/-- The character an escape sequence stands for. `\;` is left for the
list reader. -/
def escape (c : Char) : Option (List Char) :=
  if c = ';' then some ['\\', ';']
  else if c = 't' then some ['\t']
  else if c = 'r' then some ['\r']
  else if c = 'n' then some ['\n']
  else if c = '0' then some ['\x00']
  else if c ∈ ['\\', '"', ' ', '#', '(', ')', '$', '@', '^'] then some [c]
  else none

/-- What `$x}` reads, by the text between the dollar and the brace that closes
it. -/
def Scope.reference (s : Scope) : List Char → Option (List Char)
  | '{' :: name => some (s.value (String.ofList name)).toList
  | 'E' :: 'N' :: 'V' :: '{' :: name =>
      some (s.value ("ENV\x7b" ++ String.ofList name ++ "\x7d")).toList
  | _ => none

/-- What `@x@` reads. A variable that is not defined leaves it as it is. -/
def Scope.atReference (s : Scope) (name : List Char) : List Char :=
  match s (String.ofList name) with
  | some text => text.toList
  | none => '@' :: name ++ ['@']

/-- **References and escapes**, evaluated from the inside out: behind the text
that is read, each open reference with the text in front of it. -/
def evalRefs (s : Scope) : List Char → List (Char × List Char) → List Char → Option (List Char)
  | [], refs, text => if refs = [] then some text else none
  | '\\' :: c :: cs, refs, text => (escape c).bind fun cs' => evalRefs s cs refs (text ++ cs')
  | c :: cs, ('@', before) :: refs, text =>
      if c = '@' then evalRefs s cs refs (before ++ s.atReference text)
      else evalRefs s cs (('@', before) :: refs) (text ++ [c])
  | c :: cs, refs, text =>
      if opensReference c cs then evalRefs s cs ((c, text) :: refs) []
      else
        match refs with
        | (_, before) :: outer =>
          if c = '}' then (s.reference text).bind fun value => evalRefs s cs outer (before ++ value)
          else evalRefs s cs refs (text ++ [c])
        | [] => evalRefs s cs refs (text ++ [c])

/-- The arguments an unquoted argument with this text gives. -/
def Scope.evaluate (s : Scope) (text : String) : Except Stop (List String) :=
  match evalRefs s text.toList [] [] with
  | some cs => .ok (pieces (String.ofList cs))
  | none => .error (.rejected "syntax error in an argument")

/-- The text a quoted argument gives. -/
def Scope.evaluateQuoted (s : Scope) (text : String) : Except Stop String :=
  match evalRefs s text.toList [] [] with
  | some cs => .ok (String.ofList cs)
  | none => .error (.rejected "syntax error in an argument")

example : Scope.evaluate (Scope.empty.assign "ENV\x7bA\x7d" "x;y") "a$ENV\x7bA\x7d" =
    .ok ["ax", "y"] := by decide

example : Scope.evaluate (Scope.empty.assign "A" "x") "@A@@B@" = .ok ["x@B@"] := by decide

theorem evalRefs_of_inert (s : Scope) {cs : List Char} (h : inert cs = true) (text : List Char) :
    evalRefs s cs [] text = some (text ++ cs) := by
  induction cs generalizing text with
  | nil => simp [evalRefs]
  | cons c cs ih =>
    obtain ⟨hesc, hopen, hrest⟩ := inert_cons.1 h
    have hstep : evalRefs s (c :: cs) [] text = evalRefs s cs [] (text ++ [c]) := by
      rw [evalRefs]
      · rw [if_neg (by simp [hopen])]
      · exact fun _ _ h _ => hesc h
    rw [hstep, ih hrest, List.append_assoc, List.singleton_append]

/-- **A plain word is its own evaluation.** -/
@[simp] theorem Scope.evaluate_plain (s : Scope) {w : String} (h : Plain w) :
    s.evaluate w = .ok [w] := by
  simp only [evaluate, evalRefs_of_inert s h.plain, List.nil_append, String.ofList_toList,
    pieces_word h.toWord]

/-- A text without references and escapes is its own evaluation. -/
theorem Scope.evaluate_inert (s : Scope) {text : String} (h : inert text.toList = true) :
    s.evaluate text = .ok (pieces text) ∧ s.evaluateQuoted text = .ok text := by
  simp only [evaluate, evaluateQuoted, evalRefs_of_inert s h, List.nil_append,
    String.ofList_toList, and_self]

/-- Plain words that are handed on as the list of a macro's arguments. -/
theorem Scope.evaluate_joined (s : Scope) {ws : List String} (h : ∀ w ∈ ws, Plain w) :
    s.evaluate (joined ws) = .ok ws := by
  have hinert : inert (joined ws).toList = true := inert_joined fun w hw => (h w hw).plain
  simp only [evaluate, evalRefs_of_inert s hinert, List.nil_append, String.ofList_toList,
    pieces_joined_words fun w hw => (h w hw).toWord]

/-! ## `set` -/

/-- **A name for a variable of a scope**: a plain word that `set` and `DEFINED`
do not take for a variable of the environment or for a cache entry. -/
structure VariableName (x : String) : Prop extends Plain x where
  not_elsewhere : ∀ place ∈ ["ENV\x7b", "CACHE\x7b"], ¬ place.toList <+: x.toList

instance : DecidablePred VariableName := fun x =>
  decidable_of_iff (Plain x ∧ ∀ place ∈ ["ENV\x7b", "CACHE\x7b"], ¬ place.toList <+: x.toList)
    ⟨fun h => ⟨h.1, h.2⟩, fun h => ⟨h.1, h.2⟩⟩

/-- The form of `set` that writes a cache entry: `CACHE`, a type and a
documentation text, with or without `FORCE`, behind the values. -/
def isCacheForm (args : List String) : Bool :=
  match args.reverse with
  | "FORCE" :: _ :: _ :: w :: _ => w == "CACHE"
  | _ :: _ :: w :: _ => w == "CACHE"
  | _ => false

/-- **`set(x args)`**. Without values it removes the variable; with
`PARENT_SCOPE` last it writes the scope above and leaves this one alone.
The cache has no place in a scope, so its form is refused. -/
def Scope.set (s : Scope) (x : String) (args : List String) : Except Stop Scope :=
  if args = [] then .ok (s.unset x)
  else if args.getLast? = some "PARENT_SCOPE" then .ok s
  else if isCacheForm args then .error (.rejected "set(CACHE)")
  else .ok (s.assign x (joined args))

/-- **A list `set()` takes for values**, and no part of it for a keyword. -/
structure Settable (args : List String) : Prop where
  last : args.getLast? ≠ some "PARENT_SCOPE"
  cache : isCacheForm args = false

instance (args : List String) : Decidable (Settable args) :=
  decidable_of_iff (args.getLast? ≠ some "PARENT_SCOPE" ∧ isCacheForm args = false)
    ⟨fun h => ⟨h.1, h.2⟩, fun h => ⟨h.1, h.2⟩⟩

/-- Without the keywords every list is settable. -/
theorem settable_of_notMem {args : List String} (hscope : "PARENT_SCOPE" ∉ args)
    (hcache : "CACHE" ∉ args) : Settable args := by
  refine ⟨fun h => hscope (List.mem_of_getLast? h), ?_⟩
  have hne : ∀ w ∈ args.reverse, (w == "CACHE") = false := by
    intro w hw
    rw [beq_eq_false_iff_ne]
    rintro rfl
    exact hcache (List.mem_reverse.1 hw)
  unfold isCacheForm
  split <;> rename_i heq
  · exact hne _ (by rw [heq]; simp)
  · exact hne _ (by rw [heq]; simp)
  · rfl

theorem settable_singleton {w : String} (h : w ≠ "PARENT_SCOPE") : Settable [w] :=
  ⟨by simpa using h, by simp [isCacheForm]⟩

theorem Settable.set {args : List String} (h : Settable args) (s : Scope) (x : String) :
    s.set x args = .ok (if args = [] then s.unset x else s.assign x (joined args)) := by
  by_cases hnil : args = []
  · simp [Scope.set, hnil]
  · simp [Scope.set, hnil, h.last, h.cache]

/-! ## `list()`, `math()` and `string()` -/

namespace Scope

variable (s : Scope)

/-- `list(LENGTH x out)`. -/
def listLength (x out : String) : Scope := s.assign out (numeral (s.list x).length)

/-- `list(LENGTH x out)` in a script that asks for no version of CMake: empty
elements are not counted. -/
def oldListLength (x out : String) : Scope :=
  s.assign out (numeral ((s.list x).filter (· ≠ "")).length)

/-- `list(APPEND x args)`: without arguments nothing is written. -/
def listAppend (x : String) (args : List String) : Scope :=
  if args = [] then s
  else s.assign x (args.foldl (fun l a => if l = "" then a else l ++ ";" ++ a) (s.value x))

/-- The position an index argument names; a negative index counts from
the end, and what is no numeral counts as `0`. -/
def position (es : List String) (index : String) : Option ℕ :=
  let item := (numeral? index).getD 0
  let item := if item < 0 then es.length + item else item
  if 0 ≤ item ∧ item < es.length then some item.toNat else none

/-- `list(GET x index out)`. -/
def listGet (x index out : String) : Except Stop Scope :=
  match s x with
  | none => .ok (s.assign out "NOTFOUND")
  | some _ =>
    match position (s.list x) index with
    | some i => .ok (s.assign out ((s.list x)[i]?.getD ""))
    | none => .error (.rejected "list index out of range")

/-- `list(REMOVE_AT x index)`. -/
def listRemoveAt (x index : String) : Except Stop Scope :=
  match position (s.list x) index with
  | some i => .ok (s.assign x (joined ((s.list x).eraseIdx i)))
  | none => .error (.rejected "list index out of range")

/-- `list(FIND x value out)`, on the arguments behind `x`. -/
def listFind (x : String) : List String → Except Stop Scope
  | [target, out] =>
      .ok (s.assign out (if target ∈ s.list x then numeral ((s.list x).idxOf target)
        else numeral (-1)))
  | _ => .error (.rejected "list sub-command FIND")

/-- An operand of `math(EXPR)`. -/
def mathOperand (text : String) : Except Stop ℤ :=
  match numeral? text with
  | some i => .ok i
  | none => .error (.rejected "math cannot parse the expression")

/-- `string(COMPARE EQUAL left right out)`, on its arguments. -/
def stringCompareEqual : List String → Except Stop Scope
  | left :: right :: out :: _ => .ok (s.assign out (if left = right then "1" else "0"))
  | _ => .error (.rejected "string sub-command COMPARE")

/-- `string(REPLACE old new out inputs)`, for a single character: the inputs
are run together, and there has to be one. -/
def stringReplace (old new : Char) (out : String) (inputs : List String) : Except Stop Scope :=
  if inputs = [] then .error (.rejected "string sub-command REPLACE")
  else .ok (s.assign out
    (String.ofList ((String.join inputs).toList.map fun c => if c = old then new else c)))

/-- A text in lower case. -/
def lowerCase (text : String) : String := String.ofList (text.toList.map Char.toLower)

/-- `string(TOLOWER text out)`, on its arguments. -/
def stringToLower : List String → Except Stop Scope
  | [text, out] => .ok (s.assign out (lowerCase text))
  | _ => .error (.rejected "string sub-command TOLOWER")

/-- `string(REGEX MATCHALL regex out inputs)`, on its arguments: the matches
in the inputs run together. `matchall` is the search, which fails on a regular
expression that does not compile or matches the empty text. -/
def stringRegexMatchall (matchall : String → String → Option (List String)) :
    List String → Except Stop Scope
  | regex :: out :: input :: inputs =>
    match matchall regex (String.join (input :: inputs)) with
    | some found => .ok (s.assign out (joined found))
    | none => .error (.rejected "string sub-command REGEX, mode MATCHALL")
  | _ => .error (.rejected "string sub-command REGEX, mode MATCHALL")

/-- A regular expression without operators but the dot: what each of its places
accepts. -/
def regexOf : List Char → Option (List (Char → Bool))
  | [] => some []
  | '\\' :: c :: cs => (regexOf cs).map ((· == c) :: ·)
  | '.' :: cs => (regexOf cs).map ((fun _ => true) :: ·)
  | c :: cs => if c ∈ "\\^$*+?()[]|".toList then none else (regexOf cs).map ((· == c) :: ·)

/-- `string(REGEX REPLACE regex replacement out inputs)`, on its arguments, for
a regular expression and a replacement without operators: every occurrence in
the inputs run together is replaced. -/
def stringRegexReplace : List String → Except Stop Scope
  | regex :: replacement :: out :: input :: inputs =>
    match regexOf regex.toList with
    | some places =>
      if places = [] ∨ '\\' ∈ replacement.toList then
        .error (.rejected "string sub-command REGEX, mode REPLACE")
      else .ok (s.assign out (String.ofList (Replace.replaceAll places replacement.toList
        (String.join (input :: inputs)).toList)))
    | none => .error (.rejected "string sub-command REGEX, mode REPLACE")
  | _ => .error (.rejected "string sub-command REGEX, mode REPLACE")

/-! ## Conditions -/

/-- What a word of a condition stands for: the text of the variable of
that name if there is one, and the word itself otherwise. -/
def deref (w : String) : String := (s w).getD w

/-- `a STREQUAL b`. -/
def strequal (a b : String) : Bool := s.deref a == s.deref b

/-- A numeric comparison; a word that begins with no number compares false. -/
def numCompare (rel : Number → Number → Bool) (a b : String) : Bool :=
  match number? (s.deref a), number? (s.deref b) with
  | some i, some j => rel i j
  | _, _ => false

/-- `a EQUAL b`. -/
def numEqual (a b : String) : Bool := s.numCompare Number.equal a b

/-- `a LESS b`. -/
def numLess (a b : String) : Bool := s.numCompare Number.less a b

/-- `a GREATER b`. -/
def numGreater (a b : String) : Bool := s.numCompare (fun i j => j.less i) a b

/-- The texts that count as false. -/
def isOff (text : String) : Bool :=
  let upper := text.toList.map Char.toUpper
  decide (upper ∈ ["".toList, "OFF".toList, "0".toList, "NO".toList, "FALSE".toList, "N".toList,
    "NOTFOUND".toList, "IGNORE".toList]) || "-NOTFOUND".toList.isSuffixOf upper

/-- A condition of a single word: `0` and `1` are themselves, any other
word is a variable. -/
def truthy (w : String) : Bool :=
  if w = "0" then false else if w = "1" then true else !isOff (s.value w)

/-- The word an argument puts into a condition: just one, and no
parenthesis that stays open. -/
def word : List String → Except Stop String
  | [w] => if w = "(" then .error (.fatal "mismatched parenthesis in condition") else .ok w
  | _ => .error (.fatal "Unknown arguments specified")

/-- The words that ask something of the word behind them. -/
def unaryWords : List String :=
  ["EXISTS", "IS_DIRECTORY", "IS_SYMLINK", "IS_ABSOLUTE", "COMMAND", "POLICY", "TARGET", "DEFINED"]

/-- The word in front of a comparison. It has to be none that would take the
comparison for its own operand. -/
def subject (args : List String) : Except Stop String := do
  let w ← word args
  if w ∈ unaryWords then .error (.fatal "Unknown arguments specified") else return w

theorem subject_eq {w : String} (hparen : w ≠ "(") (hunary : w ∉ unaryWords) :
    subject [w] = .ok w := by
  rw [subject, word, if_neg hparen, ok_bind, if_neg hunary]
  rfl

/-- An operand of a condition. -/
def operand (text : String) : Except Stop String := do
  word (← s.evaluate text)

/-- `DEFINED args`. Alone, `DEFINED` is a word like any other. -/
def isDefined (args : List String) : Except Stop Bool :=
  if args = [] then .ok (s.truthy "DEFINED") else do return (s (← word args)).isSome

end Scope

/-! ## Loops -/

/-- `foreach(x items)`: the loop variable gets its old text back behind
the loop. -/
def foreach (s : Scope) (x : String) (items : List String)
    (body : Scope → Except Stop Scope) : Except Stop Scope := do
  let s' ← items.foldlM (fun t item => body (t.assign x item)) s
  return s'.assign x (s.value x)

/-- The numerals `foreach(x RANGE start stop 1)` runs over. -/
def range (start stop : ℤ) : Except Stop (List String) :=
  if stop < start then .error (.fatal "called with incorrect range specification")
  else .ok ((List.range (stop - start + 1).toNat).map fun i : ℕ => numeral (start + i))

/-- `while(cond)`, for at most `rounds` rounds. The body returns the state
behind it and whether it left the loop through `break()`. -/
def whileLoop {σ : Type} (cond : σ → Bool) (body : σ → Except Stop (σ × Bool)) :
    ℕ → σ → Except Stop σ
  | 0, _ => .error .endless
  | rounds + 1, s =>
    if cond s then do
      let (s', left) ← body s
      if left then return s' else whileLoop cond body rounds s'
    else return s

end CMake

end Supercell
