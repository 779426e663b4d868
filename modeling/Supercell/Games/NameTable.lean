import Supercell.Options.Keywords
import Mathlib.Data.Bool.AllAny

/-!
# The table of games

`UsingGameNameTable.cmake`: a game is registered by writing its id to a
variable named after it, in the scope where the option macros keep their
scratch variables too. The table is a map in which the last registration
of a name counts, since no registration touches anything but its own
entry and names that begin with `__`.
-/

namespace Supercell

namespace Games

open CMake CMake.Scope Hashmap Options Sections

/-- What is done with the options. -/
def recordGame (s : Scope) : Except Stop Scope :=
  let s := s.listLength "__game_name" "__number_of_game_name"
  let s := s.listLength "__game_id" "__number_of_game_id"
  if s.numGreater "__number_of_game_name" "1" then
    .error (.fatal "can't register more than one game name!")
  else if s.numGreater "__number_of_game_id" "1" then
    .error (.fatal "can't register more than one game id!")
  else
    match pieces (s.value "__game_name" ++ "_id") ++ s.expand "__game_id" with
    | x :: args => s.set x args
    | [] => .error (.rejected "set called with incorrect number of arguments")

/-- **`zillians_register_game`**. -/
def registerGame (s : Scope) (argn : List String) : Except Stop Scope := do
  let s := s.assign "__option_catalogries" "GAME_NAME;GAME_ID"
  let s ← s.set "__temporary_options_variable" (← s.evaluate (joined argn))
  let s ← splitOptions s "__temporary_options_variable" "default" "__option_catalogries"
    "__options_set"
  let s ← hashmap s ["GET", "__options_set", "GAME_NAME", "__game_name"]
  let s ← hashmap s ["GET", "__options_set", "GAME_ID", "__game_id"]
  recordGame s

/-- `zillians_resolve_game_id`. -/
def resolveGameId (s : Scope) (game_id game_name : String) : Except Stop Scope := do
  match (← s.evaluate game_id) ++ s.expand (game_name ++ "_id") with
  | x :: args => s.set x args
  | [] => .error (.rejected "set called with incorrect number of arguments")

/-! ## Registrations -/

/-- The variable an entry of the table is kept in. -/
def entry (name : String) : String := name ++ "_id"

/-- The scratch variables of a registration. -/
def registerScratch : List String :=
  splitScratch ++ ["__option_catalogries", "__temporary_options_variable", "__options_set",
    "__game_name", "__game_id", "__number_of_game_name", "__number_of_game_id"]

/-- A registration, with its two keywords in either order. -/
structure Registration where
  name : String
  id : String
  nameFirst : Bool
  deriving DecidableEq, Repr

/-- The arguments of the call. -/
def Registration.argn (r : Registration) : List String :=
  if r.nameFirst then ["GAME_NAME", r.name, "GAME_ID", r.id]
  else ["GAME_ID", r.id, "GAME_NAME", r.name]

/-- The characters of a game's name. -/
def isNameChar (c : Char) : Bool := c.isAlphanum || c == '_' || c == '-'

/-- **A game's name**: letters, digits, `_` and `-`, not beginning with two
underscores, and none of the keywords that the arguments are divided at or
that `set()` takes for its own. -/
structure GameName (name : String) : Prop where
  nonempty : name ≠ ""
  chars : ∀ c ∈ name.toList, isNameChar c = true
  no_prefix : ¬ ['_', '_'] <+: name.toList
  not_keyword : name ∉ ["GAME_NAME", "GAME_ID", "PARENT_SCOPE", "CACHE"]

instance (name : String) : Decidable (GameName name) :=
  decidable_of_iff (name ≠ "" ∧ name.toList.all isNameChar = true ∧
    ¬ ['_', '_'] <+: name.toList ∧
      name ∉ ["GAME_NAME", "GAME_ID", "PARENT_SCOPE", "CACHE"])
    ⟨fun h => ⟨h.1, List.all_eq_true.1 h.2.1, h.2.2.1, h.2.2.2⟩,
      fun h => ⟨h.1, List.all_eq_true.2 h.2, h.3, h.4⟩⟩

/-- A game's id: a plain word that is no keyword. -/
def GameId (id : String) : Prop := Plain id ∧ id ∉ ["GAME_NAME", "GAME_ID", "PARENT_SCOPE", "CACHE"]

instance : DecidablePred GameId := fun _ => inferInstanceAs (Decidable (_ ∧ _))

namespace GameName

variable {name : String}

theorem not_specials (h : GameName name) : ∀ c ∈ name.toList, c ∉ specials := by
  intro c hc hspecial
  have hname := h.chars c hc
  have hno : ∀ c ∈ specials, isNameChar c = false := List.all_iff_forall_prop.1 (by decide)
  rw [hno c hspecial] at hname
  exact nomatch hname

theorem plain (h : GameName name) : Plain name := plain_of_not_specials h.nonempty h.not_specials

theorem plain_entry (h : GameName name) : Plain (entry name) := by
  refine plain_of_not_specials (by simp [entry]) fun c hc => ?_
  rw [entry, String.toList_append, List.mem_append] at hc
  rcases hc with hc | hc
  · exact h.not_specials c hc
  · have hid : ∀ c ∈ "_id".toList, c ∉ specials := List.all_iff_forall_prop.1 (by decide)
    exact hid c hc

/-- An entry is no scratch variable: those of these that end like an entry
would belong to a name that begins with two underscores. -/
theorem entry_notMem (h : GameName name) : entry name ∉ registerScratch := by
  intro hmem
  have hlist : (entry name).toList = name.toList ++ "_id".toList := by
    rw [entry, String.toList_append]
  have hprefix : ∀ x ∈ registerScratch, "_id".toList <:+ x.toList →
      ['_', '_'] <+: x.toList.take (x.toList.length - 3) := by decide
  have hname := hprefix _ hmem ⟨name.toList, hlist.symm⟩
  have htake : (name.toList ++ "_id".toList).length - 3 = name.toList.length := by
    rw [List.length_append]
    exact Nat.add_sub_cancel ..
  rw [hlist, htake, List.take_left] at hname
  exact h.no_prefix hname

/-- And no condition reads it. -/
theorem entry_not_isRead : ¬ IsRead (entry name) ∧ entry name ≠ "default" := by
  have hlist : (entry name).toList = name.toList ++ "_id".toList := by
    rw [entry, String.toList_append]
  refine ⟨?_, ?_⟩
  · rintro (hmem | hnumeral)
    · have hno : ∀ x ∈ conditionWords, ¬ "_id".toList <:+ x.toList := by decide
      exact hno _ hmem ⟨name.toList, hlist.symm⟩
    · obtain ⟨i, -, hi⟩ := Option.map_eq_some_iff.1 hnumeral
      have hd : 'd' ∈ (numeral i).toList := by
        rw [hi, hlist]
        exact List.mem_append_right _ (by decide)
      rcases mem_numeral hd with hd | hd
      · exact absurd hd (by decide)
      · exact absurd hd (by decide)
  · intro heq
    have hno : ¬ "_id".toList <:+ "default".toList := by decide
    exact hno ⟨name.toList, by rw [← hlist, heq]⟩

end GameName

theorem entry_injective {n n' : String} (h : entry n = entry n') : n = n' := by
  have hlist := congrArg String.toList h
  rw [entry, entry, String.toList_append, String.toList_append] at hlist
  exact String.ext (List.append_cancel_right hlist)

/-! ## One registration -/

/-- The scope a registration asks for: no condition reads a variable by
accident, and the default category is no variable. -/
structure Ready (s : Scope) : Prop where
  quiet : Quiet s
  default_undefined : s "default" = none

variable {s s₀ : Scope} {r : Registration}

theorem Ready.agreesOff {t : Scope} {N : List String} (h : Ready s) (ht : AgreesOff N s t)
    (hN : ∀ x ∈ N, ¬ IsRead x ∧ x ≠ "default") : Ready t where
  quiet := h.quiet.agreesOff ht fun x hx => (hN x hx).1
  default_undefined := by
    rw [ht _ fun hmem => (hN _ hmem).2 rfl, h.default_undefined]

/-- Well-formed registrations. -/
structure Registration.Fits (r : Registration) : Prop where
  name : GameName r.name
  id : GameId r.id

instance : DecidablePred Registration.Fits := fun r =>
  decidable_of_iff (GameName r.name ∧ GameId r.id) ⟨fun h => ⟨h.1, h.2⟩, fun h => ⟨h.1, h.2⟩⟩

namespace Registration

theorem mem_argn {w : String} (h : w ∈ r.argn) :
    w = "GAME_NAME" ∨ w = "GAME_ID" ∨ w = r.name ∨ w = r.id := by
  rw [argn] at h
  split at h <;> simp only [List.mem_cons, List.not_mem_nil, or_false] at h <;> tauto

/-- The arguments are plain words. -/
theorem plain_argn (hr : r.Fits) : ∀ w ∈ r.argn, Plain w := by
  intro w hw
  rcases mem_argn hw with rfl | rfl | rfl | rfl
  · decide
  · decide
  · exact hr.name.plain
  · exact hr.id.1

/-- None of them is a keyword of `set()`. -/
theorem notMem_argn (hr : r.Fits) : ∀ w ∈ r.argn, w ∉ ["PARENT_SCOPE", "CACHE"] := by
  intro w hw hmem
  have hkeyword : w ∈ ["GAME_NAME", "GAME_ID", "PARENT_SCOPE", "CACHE"] :=
    List.mem_cons_of_mem _ (List.mem_cons_of_mem _ hmem)
  rcases mem_argn hw with rfl | rfl | rfl | rfl
  · exact absurd hmem (by decide)
  · exact absurd hmem (by decide)
  · exact hr.name.not_keyword hkeyword
  · exact hr.id.2 hkeyword

/-- The sections of a registration's arguments. -/
theorem part_argn (hr : r.Fits) (c : String) :
    part ["GAME_NAME", "GAME_ID"] "default" r.argn c =
      if c = "GAME_NAME" then [r.name] else if c = "GAME_ID" then [r.id] else [] := by
  have hname : ∀ y ∈ [r.name], y ∉ ["GAME_NAME", "GAME_ID"] := by
    intro y hy hmem
    rw [List.mem_singleton.1 hy] at hmem
    exact hr.name.not_keyword (List.mem_append_left ["PARENT_SCOPE", "CACHE"] hmem)
  have hid : ∀ y ∈ [r.id], y ∉ ["GAME_NAME", "GAME_ID"] := by
    intro y hy hmem
    rw [List.mem_singleton.1 hy] at hmem
    exact hr.id.2 (List.mem_append_left ["PARENT_SCOPE", "CACHE"] hmem)
  have hparts : part ["GAME_NAME", "GAME_ID"] "default" r.argn c =
      (if "GAME_NAME" = c then [r.name] else []) ++ (if "GAME_ID" = c then [r.id] else []) ∨
      part ["GAME_NAME", "GAME_ID"] "default" r.argn c =
        (if "GAME_ID" = c then [r.id] else []) ++ (if "GAME_NAME" = c then [r.name] else []) := by
    cases hfirst : r.nameFirst with
    | true =>
      have hargn : r.argn = ([] ++ "GAME_NAME" :: [r.name]) ++ "GAME_ID" :: [r.id] := by
        simp [argn, hfirst]
      left
      rw [hargn, (part_append_cons (by simp) _ hid).2, (part_append_cons (by simp) _ hname).2,
        part_nil, List.nil_append]
    | false =>
      have hargn : r.argn = ([] ++ "GAME_ID" :: [r.id]) ++ "GAME_NAME" :: [r.name] := by
        simp [argn, hfirst]
      right
      rw [hargn, (part_append_cons (by simp) _ hname).2, (part_append_cons (by simp) _ hid).2,
        part_nil, List.nil_append]
  by_cases hc : c = "GAME_NAME"
  · subst hc
    rcases hparts with h | h <;> simp [h]
  · by_cases hc' : c = "GAME_ID"
    · subst hc'
      rcases hparts with h | h <;> simp [h]
    · rcases hparts with h | h <;> simp [h, hc, hc', Ne.symm hc, Ne.symm hc']

end Registration

/-- The options of a registration, and the variables they are read into. -/
def gameVariables : List (String × String) :=
  [("GAME_NAME", "__game_name"), ("GAME_ID", "__game_id")]

/-- The macro reads its options as the other build macros do. -/
theorem registerGame_eq (s : Scope) (argn : List String) : registerGame s argn =
    (do
      let t ← parseOptions s ["GAME_NAME", "GAME_ID"] argn
      let t ← getOptions t gameVariables
      recordGame t) := by
  have hkeywords : joined ["GAME_NAME", "GAME_ID"] = "GAME_NAME;GAME_ID" := by decide
  simp only [registerGame, parseOptions, getOptions, getOption, gameVariables, hkeywords,
    List.foldlM_cons, List.foldlM_nil, bind_assoc, pure_bind]

theorem keywordCall_argn (hs : Ready s) (hr : r.Fits) :
    KeywordCall s ["GAME_NAME", "GAME_ID"] r.argn where
  quiet := hs.quiet
  default_undefined := hs.default_undefined
  plain := Registration.plain_argn hr
  no_keyword := Registration.notMem_argn hr
  plain_keywords := by decide
  nodup := by decide

/-- **One name and one id are recorded.** -/
theorem recordGame_returns {id : String} (hs : Quiet s) (hname : s.Gives "__game_name" [r.name])
    (hid : s.Gives "__game_id" [id]) (hr : r.Fits) (hset : id ≠ "PARENT_SCOPE") :
    Returns (recordGame s) fun t =>
      t (entry r.name) = some id ∧ AgreesOff (entry r.name :: registerScratch) s t := by
  let u := s.assign "__number_of_game_name" (numeral 1)
  let v := u.assign "__number_of_game_id" (numeral 1)
  have hsu : AgreesOff ["__number_of_game_name"] s u := (AgreesOff.refl _ s).assign (by simp) _
  have huv : AgreesOff ["__number_of_game_id"] u v := (AgreesOff.refl _ u).assign (by simp) _
  have hframe : AgreesOff ["__number_of_game_name", "__number_of_game_id"] s v :=
    (hsu.mono (by simp)).trans (huv.mono (by simp))
  have hlength : s.listLength "__game_name" "__number_of_game_name" = u :=
    hname.toHolds.listLength _
  have hlength' : u.listLength "__game_id" "__number_of_game_id" = v :=
    (hid.toHolds.agreesOff hsu (by decide)).listLength _
  have hnames : v "__number_of_game_name" = some (numeral 1) := by
    rw [huv _ (by decide)]
    exact assign_self _ _ _
  have hids : v "__number_of_game_id" = some (numeral 1) := assign_self _ _ _
  have hnumberless := (hs.agreesOff hframe (by decide)).numberless
  have hentry : v.value "__game_name" ++ "_id" = entry r.name := by
    rw [(hname.agreesOff hframe (by decide)).text, joined_singleton, entry]
  have hone : "1" = numeral 1 := by decide
  unfold recordGame
  dsimp only
  rw [hlength, hlength', hone, hnumberless.numGreater hnames, hnumberless.numGreater hids,
    if_neg (by simp), if_neg (by simp), hentry, pieces_word hr.name.plain_entry.toWord,
    (hid.agreesOff hframe (by decide)).toHolds.expand, List.singleton_append]
  dsimp only
  rw [set_word v _ hset, Returns.ok_iff]
  have hscratch : AgreesOff registerScratch s v := hframe.mono (by decide)
  exact ⟨assign_self .., (hscratch.mono fun x hx => List.mem_cons_of_mem _ hx).assign
    List.mem_cons_self _⟩

/-- **A registration writes its entry**, and otherwise only names that begin
with two underscores. -/
theorem registerGame_returns (hs : Ready s) (hr : r.Fits) :
    Returns (registerGame s r.argn) fun t =>
      t (entry r.name) = some r.id ∧ AgreesOff (entry r.name :: registerScratch) s t := by
  obtain ⟨u, hu, hparsed, huframe⟩ := parseOptions_returns (keywordCall_argn hs hr)
  have hreadable : Readable ["GAME_NAME", "GAME_ID"] gameVariables := by decide
  obtain ⟨v, hv, hgives, hvparsed, hvframe⟩ := getOptions_returns hparsed hreadable
  have hname := hgives ("GAME_NAME", "__game_name") (by decide)
  have hid := hgives ("GAME_ID", "__game_id") (by decide)
  dsimp only at hname hid
  rw [Registration.part_argn hr, if_pos rfl] at hname
  rw [Registration.part_argn hr, if_neg (by decide), if_pos rfl] at hid
  have hframe : AgreesOff registerScratch s v :=
    (huframe.mono (by decide)).trans (hvframe.mono (by decide))
  have hset : r.id ≠ "PARENT_SCOPE" := fun heq => hr.id.2 (by simp [heq])
  rw [registerGame_eq, hu, ok_bind, hv, ok_bind]
  refine (recordGame_returns hvparsed.quiet hname hid hr hset).mono fun t ht => ?_
  exact ⟨ht.1, (hframe.mono fun x hx => List.mem_cons_of_mem _ hx).trans ht.2⟩

/-! ## Runs of registrations -/

/-- A sequence of registrations. -/
def registerGames (s : Scope) (rs : List Registration) : Except Stop Scope :=
  rs.foldlM (fun s r => registerGame s r.argn) s

/-- **The id of the last registration of a name**, if there is one. -/
def lastId (name : String) (rs : List Registration) : Option String :=
  (rs.filter fun r => r.name = name).getLast?.map Registration.id

theorem lastId_append (name : String) (rs : List Registration) (r : Registration) :
    lastId name (rs ++ [r]) = if r.name = name then some r.id else lastId name rs := by
  by_cases h : r.name = name <;> simp [lastId, List.filter_append, h]

/-- **The table behind a run**: each entry is what its last registration
wrote, and an entry without one is as it was. -/
theorem registerGames_returns (hs : Ready s₀) {rs : List Registration} (hrs : ∀ r ∈ rs, r.Fits) :
    Returns (registerGames s₀ rs) fun t => Ready t ∧ ∀ name, GameName name →
      t (entry name) = (lastId name rs).or (s₀ (entry name)) := by
  refine Returns.foldlM (fun done t => Ready t ∧ ∀ name, GameName name →
    t (entry name) = (lastId name done).or (s₀ (entry name))) rs ⟨hs, fun _ _ => rfl⟩ ?_
  rintro done r rest t rfl ⟨ht, hentries⟩
  have hr : r.Fits := hrs r (by simp)
  refine (registerGame_returns ht hr).mono ?_
  rintro u ⟨hu, hframe⟩
  refine ⟨ht.agreesOff hframe ?_, fun name hname => ?_⟩
  · intro x hx
    rcases List.mem_cons.1 hx with rfl | hx
    · exact GameName.entry_not_isRead
    · exact (by decide : ∀ x ∈ registerScratch, ¬ IsRead x ∧ x ≠ "default") x hx
  · rw [lastId_append]
    by_cases heq : r.name = name
    · subst heq
      rw [if_pos rfl, hu, Option.some_or]
    · rw [if_neg heq, ← hentries name hname, hframe]
      intro hmem
      rcases List.mem_cons.1 hmem with h | h
      · exact heq (entry_injective h).symm
      · exact hname.entry_notMem h

/-- **The table is a last-writer-wins map.** At any point of a run a name
resolves to the id of its last registration, and to nothing if it was
never registered, whatever other names were registered in between. -/
theorem resolveGameId_lastId (hs : Ready s₀) {rs : List Registration} (hrs : ∀ r ∈ rs, r.Fits)
    {name out : String} (hname : GameName name) (hfresh : s₀ (entry name) = none)
    (hout : VariableName out) :
    Returns (registerGames s₀ rs) fun t => Returns (resolveGameId t out name) fun u =>
      u out = lastId name rs ∧ AgreesOff [out] t u := by
  refine (registerGames_returns hs hrs).mono ?_
  rintro t ⟨-, hentries⟩
  have hentry := hentries name hname
  rw [hfresh, Option.or_none] at hentry
  rw [resolveGameId, evaluate_plain t hout.toPlain, ok_bind, ← entry, List.singleton_append]
  dsimp only
  cases hid : lastId name rs with
  | none =>
    have hexpand : t.expand (entry name) = [] := by
      rw [hid] at hentry
      exact (Holds.of_eq_none hentry).expand
    rw [hexpand, Scope.set, if_pos rfl, Returns.ok_iff]
    exact ⟨unset_self .., (AgreesOff.refl _ t).unset (by simp)⟩
  | some id =>
    -- the id is that of a registration of the run
    obtain ⟨r, hr, rfl⟩ := Option.map_eq_some_iff.1 hid
    have hfits := hrs r (List.mem_filter.1 (List.mem_of_getLast? hr)).1
    have hexpand : t.expand (entry name) = [r.id] := by
      rw [hid] at hentry
      exact expand_of_value_eq (value_of_eq_some hentry) hfits.id.1.toWord
    rw [hexpand, set_word t out fun h => hfits.id.2 (by simp [h]), Returns.ok_iff]
    exact ⟨assign_self .., (AgreesOff.refl _ t).assign (by simp) _⟩

/-- Two games and a second registration of the first, in both orders. -/
theorem resolveGameId_lastId_twice :
    Returns (registerGames Scope.empty [⟨"DemoClientV2", "0", true⟩, ⟨"tutorial_1", "3", false⟩,
      ⟨"DemoClientV2", "2", false⟩]) fun t =>
        Returns (resolveGameId t "id" "DemoClientV2") fun u => u "id" = some "2" := by
  refine (resolveGameId_lastId ⟨fun _ _ => rfl, rfl⟩ (by decide) (by decide) rfl
    (by decide : VariableName "id")).mono fun t ht => ht.mono fun u hu => ?_
  rw [hu.1]
  decide

/-- **Where a registration is lost**: where `set()` takes the name or the
id for a keyword, where the id is a variable reference, and where a
variable called `default` reads as the category that is in force. -/
theorem registerGame_lost :
    (Returns (registerGame Scope.empty ["GAME_ID", "7", "GAME_NAME", "PARENT_SCOPE"]) fun t =>
      Returns (resolveGameId t "id" "PARENT_SCOPE") fun u => u "id" = none) ∧
    (¬ Returns (registerGame Scope.empty ["GAME_NAME", "CACHE", "GAME_ID", "7"]) fun _ => True) ∧
    (Returns (registerGame Scope.empty ["GAME_NAME", "a", "GAME_ID", "PARENT_SCOPE"]) fun t =>
      Returns (resolveGameId t "id" "a") fun u => u "id" = none) ∧
    (Returns (registerGame Scope.empty ["GAME_NAME", "a", "GAME_ID", "${x}"]) fun t =>
      Returns (resolveGameId t "id" "a") fun u => u "id" = none) ∧
    (Returns (registerGame (Scope.empty.assign "default" "GAME_NAME")
        ["GAME_NAME", "a", "GAME_ID", "7"]) fun t =>
      Returns (resolveGameId t "id" "a") fun u => u "id" = none) ∧
    ¬ Returns (registerGame (Scope.empty.assign "4" "x") ["GAME_NAME", "a", "GAME_ID", "7"])
      fun _ => True := by
  refine ⟨?_, ?_, ?_, ?_, ?_, ?_⟩ <;> decide +kernel

end Games

end Supercell
