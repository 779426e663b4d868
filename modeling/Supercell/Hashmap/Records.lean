import Supercell.CMake.Holds
import Supercell.Common.OrderedMap

/-!
# Records — how a map is stored in a list

A map is stored as the concatenation of its records, each a key, the
numeral of a length and that many elements. Nothing in the list marks
where a record starts; the lengths alone tell keys from values, and
`flatten_injective` is the statement that they do.

The macros run in their caller's scope. The file ends with what they
ask of it: no variable carries a name one of their conditions reads as a
word, and the caller's own variables are none of the scratch variables.
-/

namespace Supercell

namespace Hashmap

open CMake CMake.Scope

/-! ## The encoding -/

/-- The record of an entry. -/
def record (e : String × List String) : List String := e.1 :: numeral e.2.length :: e.2

/-- The list a sequence of entries is stored as. -/
def flatten (entries : List (String × List String)) : List String := entries.flatMap record

@[simp] theorem flatten_nil : flatten [] = [] := rfl

@[simp] theorem flatten_cons (e : String × List String) (entries : List (String × List String)) :
    flatten (e :: entries) = record e ++ flatten entries := List.flatMap_cons

@[simp] theorem flatten_append (before after : List (String × List String)) :
    flatten (before ++ after) = flatten before ++ flatten after := List.flatMap_append

@[simp] theorem length_record (e : String × List String) : (record e).length = e.2.length + 2 :=
  rfl

/-- **The encoding is unambiguous**: two sequences of entries stored as
the same list are the same, whatever their values look like. -/
theorem flatten_injective : Function.Injective flatten := by
  intro entries
  induction entries with
  | nil =>
    intro entries' h
    cases entries' with
    | nil => rfl
    | cons e entries' => simp [record] at h
  | cons e entries ih =>
    intro entries' h
    cases entries' with
    | nil => simp [record] at h
    | cons e' entries' =>
      obtain ⟨k, v⟩ := e
      obtain ⟨k', v'⟩ := e'
      simp only [flatten_cons, record, List.cons_append, List.cons.injEq] at h
      obtain ⟨rfl, hlength, happend⟩ := h
      have hlen : v.length = v'.length := by exact_mod_cast numeral_injective hlength
      obtain ⟨rfl, hrest⟩ := List.append_inj happend hlen
      rw [ih hrest]

/-- **The variable stores the map**: its list is the map's records, the
keys are plain words, and the values are values to `set()` too. -/
structure Stores (s : Scope) (x : String) (m : OrderedMap String (List String)) : Prop where
  holds : s.Holds x (flatten m.entries)
  plain_keys : ∀ e ∈ m.entries, Plain e.1
  settable : ∀ e ∈ m.entries, Settable e.2

namespace Stores

variable {s t : Scope} {x : String} {m m' : OrderedMap String (List String)} {N : List String}

/-- A variable stores one map. -/
theorem unique (h : Stores s x m) (h' : Stores s x m') : m = m' :=
  OrderedMap.ext (flatten_injective (h.holds.unique h'.holds))

theorem agreesOff (h : Stores s x m) (ht : AgreesOff N s t) (hx : x ∉ N) : Stores t x m :=
  ⟨h.holds.agreesOff ht hx, h.plain_keys, h.settable⟩

/-- A variable that is not defined, or that is empty, stores the empty
map. -/
theorem of_holds_nil (h : s.Holds x []) : Stores s x .empty := ⟨h, by simp, by simp⟩

end Stores

/-! ## The scope the macros run in -/

/-- The words of the macros' conditions that are meant as words. -/
def conditionWords : List String :=
  ["PUT", "GET", "REMOVE", "CLEAR", "DUMP", "DEFINED", "_index", ""]

/-- **A condition reads the name**: it is one of those words or a numeral,
and a variable of that name would be read in its place. -/
def IsRead (x : String) : Prop := x ∈ conditionWords ∨ (numeral? x).map numeral = some x

instance : DecidablePred IsRead := fun _ => inferInstanceAs (Decidable (_ ∨ _))

/-- **No variable is read by accident.** -/
def Quiet (s : Scope) : Prop := ∀ x, IsRead x → s x = none

namespace Quiet

variable {s t : Scope} {N : List String}

theorem numberless (h : Quiet s) : s.Numberless := fun i => h _ (.inr (by simp))

theorem deref (h : Quiet s) {w : String} (hw : w ∈ conditionWords) : s.deref w = w :=
  deref_of_eq_none (h w (.inl hw))

/-- Two words of conditions, compared. -/
theorem strequal (h : Quiet s) {a b : String} (ha : a ∈ conditionWords) (hb : b ∈ conditionWords) :
    s.strequal a b = (a == b) := by
  rw [Scope.strequal, h.deref ha, h.deref hb]

/-- An argument count, compared. -/
theorem numEqual_numeral (h : Quiet s) (i : ℤ) {w : String} {j : ℤ} (hw : w = numeral j) :
    s.numEqual (numeral i) w = decide (i = j) := by
  rw [hw, h.numberless.numEqual_numeral]

theorem agreesOff (h : Quiet s) (ht : AgreesOff N s t) (hN : ∀ x ∈ N, ¬ IsRead x) : Quiet t :=
  fun x hx => by rw [ht x fun hmem => hN x hmem hx, h x hx]

end Quiet

/-- The scratch variables of `__next_element_in_hashmap`, the ones the
other macros have it report in included. -/
def nextScratch : List String :=
  ["__key_index", "__header_index", "__current_key", "__current_length", "__start_index",
    "__end_index", "__current_value", "__next_index", "__loop_index", "__temp"]

/-- The scratch variables of a search. -/
def searchScratch : List String :=
  nextScratch ++ ["__length_of_hashmap", "__current_index", "__found", "__matched", "__index",
    "__value"]

/-- The scratch variables of an operation on a value that a variable holds. -/
def putScratch : List String :=
  searchScratch ++ ["__length_of_value", "__element", "__key"]

/-- The scratch variables of all operations, with the one a value given in
place is written to. -/
def scratch : List String := putScratch ++ ["__temp_variable_for_making_value_instance"]

theorem nextScratch_subset : ∀ x ∈ nextScratch, x ∈ searchScratch := fun _ hx =>
  List.mem_append_left _ hx

theorem searchScratch_subset : ∀ x ∈ searchScratch, x ∈ putScratch := fun _ hx =>
  List.mem_append_left _ hx

theorem putScratch_subset : ∀ x ∈ putScratch, x ∈ scratch := fun _ hx =>
  List.mem_append_left _ hx

theorem cons_subset_cons {x : String} {N M : List String} (hN : ∀ y ∈ N, y ∈ M) :
    ∀ y ∈ x :: N, y ∈ x :: M := by
  intro y hy
  rcases List.mem_cons.1 hy with rfl | hy
  · exact List.mem_cons_self
  · exact List.mem_cons_of_mem _ (hN y hy)

theorem not_isRead_of_mem_scratch : ∀ x ∈ scratch, ¬ IsRead x := by decide

/-- What an operation on a variable writes is read by no condition. -/
theorem not_isRead_of_mem_cons {x : String} {N : List String} (hx : ¬ IsRead x)
    (hN : ∀ y ∈ N, y ∈ scratch) : ∀ y ∈ x :: N, ¬ IsRead y := by
  intro y hy
  rcases List.mem_cons.1 hy with rfl | hy
  · exact hx
  · exact not_isRead_of_mem_scratch y (hN y hy)

/-- **A variable of the caller's**: a name that is no scratch variable and
that no condition reads or takes for a parenthesis. -/
structure Own (scratch : List String) (x : String) : Prop where
  name : VariableName x
  not_mem : x ∉ scratch
  not_isRead : ¬ IsRead x
  ne_paren : x ≠ "("

instance (scratch : List String) : DecidablePred (Own scratch) := fun x =>
  decidable_of_iff (VariableName x ∧ x ∉ scratch ∧ ¬ IsRead x ∧ x ≠ "(")
    ⟨fun h => ⟨h.1, h.2.1, h.2.2.1, h.2.2.2⟩, fun h => ⟨h.1, h.2, h.3, h.4⟩⟩

theorem Own.plain {x : String} {N : List String} (h : Own N x) : Plain x := h.name.toPlain

theorem Own.mono {x : String} {N M : List String} (h : Own M x) (hN : ∀ y ∈ N, y ∈ M) : Own N x :=
  ⟨h.name, fun hmem => h.not_mem (hN x hmem), h.not_isRead, h.ne_paren⟩

end Hashmap

end Supercell
