import Supercell.Thrift.Codec

/-!
# Thrift — structures

Generated code reads a structure in a loop over the fields that arrive: a
field with the number and the type of a member is read into that member,
every other one is skipped, and at the end the required members must have
been read. It is written member by member, the optional ones if they are
set. What a reader makes of any fields, in any order, is the sequence of
what each does to its member, and members do not meddle with each other.
-/

namespace Supercell

namespace Thrift

variable {p : Protocol} {α β : Type}

/-! ## Members -/

/-- **A member of a structure**: the type it is read and written as, what of it
is written, and how it is read into. -/
structure Member (p : Protocol) where
  {γ : Type}
  {β : Type}
  name : String
  id : Int16
  required : Bool
  codec : Codec p β
  init : γ
  written : γ → Option β
  /-- The object that is read into. -/
  object : γ → β
  set : β → γ
  written_set : ∀ b, written (set b) = some b
  written_init : ∀ {a}, written a = none → written init = none
  clean_init : ∀ b, codec.Clean (object init) b
  written_of_required : required = true → ∀ a, (written a).isSome = true

namespace Member

/-- A member that is always written. -/
def always (required : Bool) (name : String) (id : Int16) (c : Codec p β) : Member p where
  γ := β
  name := name
  id := id
  required := required
  codec := c
  init := c.init
  written := some
  object a := a
  set a := a
  written_set _ := rfl
  written_init h := nomatch h
  clean_init := c.clean_init
  written_of_required _ _ := rfl

end Member

/-- An optional member, with its flag in `__isset`. -/
structure Optional (β : Type) where
  value : β
  isset : Bool
  deriving DecidableEq, Repr

namespace Member

/-- A member that is written if it is set, and that reading sets. -/
def optional (name : String) (id : Int16) (c : Codec p β) : Member p where
  γ := Optional β
  name := name
  id := id
  required := false
  codec := c
  init := ⟨c.init, false⟩
  written a := if a.isset then some a.value else none
  object a := a.value
  set b := ⟨b, true⟩
  written_set _ := rfl
  written_init _ := rfl
  clean_init := c.clean_init
  written_of_required h := nomatch h

/-- What reading a value makes of the member. -/
def put (m : Member p) (b : m.β) (o : m.γ) : m.γ := m.set (m.codec.merge (m.object o) b)

/-- What is read of a member: one that is not written stays as it is. -/
def merge (m : Member p) (o a : m.γ) : m.γ :=
  match m.written a with
  | some b => m.put b o
  | none => o

def Same (m : Member p) (a b : m.γ) : Prop := Option.Rel m.codec.Same (m.written a) (m.written b)

def Fits (m : Member p) (a : m.γ) : Prop := ∀ b ∈ m.written a, m.codec.Fits b

def Clean (m : Member p) (o a : m.γ) : Prop :=
  match m.written a with
  | some b => m.codec.Clean (m.object o) b
  | none => m.written o = none

theorem same_merge_iff (m : Member p) (o a : m.γ) : m.Same (m.merge o a) a ↔ m.Clean o a := by
  rw [Same, merge, Clean]
  cases hwritten : m.written a with
  | some b =>
    change Option.Rel _ (m.written (m.set _)) _ ↔ _
    rw [m.written_set, Option.rel_some_some]
    exact m.codec.same_merge_iff
  | none =>
    change Option.Rel _ (m.written o) none ↔ _
    cases m.written o with
    | some b => simp
    | none => simp

theorem clean_init' (m : Member p) (a : m.γ) : m.Clean m.init a := by
  rw [Clean]
  cases hwritten : m.written a with
  | some b => exact m.clean_init b
  | none => exact m.written_init hwritten

theorem fits_always {required : Bool} {name : String} {id : Int16} {c : Codec p β} (a : β) :
    (Member.always required name id c).Fits a ↔ c.Fits a :=
  ⟨fun h => h a rfl, fun h _ hb => Option.some.inj hb ▸ h⟩

/-- What is left of an optional member that is read into. -/
theorem clean_optional {name : String} {id : Int16} {c : Codec p β} (o a : Optional β) :
    (Member.optional name id c).Clean o a ↔
      (a.isset = true → c.Clean o.value a.value) ∧ (a.isset = false → o.isset = false) := by
  obtain ⟨b, isset⟩ := a
  cases isset with
  | true => exact ⟨fun h => ⟨fun _ => h, fun h' => nomatch h'⟩, fun h => h.1 rfl⟩
  | false =>
    change (if o.isset then some o.value else none) = none ↔ _
    cases o.isset <;> simp

end Member

/-- **The members of a structure**, in the order they are written in. -/
inductive Members (p : Protocol)
  | nil
  | cons (m : Member p) (rest : Members p)

namespace Members

/-- The objects of the structure. -/
@[reducible] def Carrier : Members p → Type
  | .nil => Unit
  | .cons m rest => m.γ × rest.Carrier

/-! ## The code -/

def ids : (ms : Members p) → List Int16
  | .nil => []
  | .cons m rest => m.id :: rest.ids

def requiredIds : (ms : Members p) → List Int16
  | .nil => []
  | .cons m rest => if m.required then m.id :: rest.requiredIds else rest.requiredIds

/-- What the constructor makes. -/
def init : (ms : Members p) → ms.Carrier
  | .nil => ()
  | .cons m rest => (m.init, rest.init)

/-- The `switch` over the fields: the case that reads a field of this number
and type, if it is not skipped. -/
def case : (ms : Members p) → Int16 → TType → Option (ms.Carrier → Reader ms.Carrier)
  | .nil, _, _ => none
  | .cons m rest, fid, ftype =>
    if fid = m.id then
      if ftype = m.codec.type then some fun (o, s) => do
        let b ← m.codec.read (m.object o)
        return (m.set b, s)
      else none
    else (rest.case fid ftype).map fun r (o, s) => do
      let s ← r s
      return (o, s)

/-- The tokens of a field. -/
def fieldTokens (name : String) (type : TType) (id : Int16) (body : List Token) : List Token :=
  .fieldBegin name type id :: (body ++ [.fieldEnd])

/-- The fields that are written. -/
def writeFields : (ms : Members p) → ms.Carrier → List Token
  | .nil, _ => []
  | .cons m rest, (a, s) =>
    (match m.written a with
      | some b => fieldTokens m.name m.codec.type m.id (m.codec.write b)
      | none => []) ++ rest.writeFields s

/-- The one field that is written of a result: the first that is set. -/
def writeChosen : (ms : Members p) → ms.Carrier → List Token
  | .nil, _ => []
  | .cons m rest, (a, s) =>
    match m.written a with
    | some b => fieldTokens m.name m.codec.type m.id (m.codec.write b)
    | none => rest.writeChosen s

end Members

/-- The loop over the fields, for at most `rounds` rounds: the object, and the
numbers of the fields that have been read into it, for the local flags. -/
def readFields (ms : Members p) : ℕ → ms.Carrier × List Int16 → Reader (ms.Carrier × List Int16)
  | 0, _ => throw .endless
  | rounds + 1, (o, seen) => do
    let (ftype, fid) ← p.run .readFieldBegin
    if ftype = .stop then return (o, seen)
    else match ms.case fid ftype with
      | some r => do
        let o ← r o
        p.run .readFieldEnd
        readFields ms rounds (o, fid :: seen)
      | none => do
        p.run (.skip ftype)
        p.run .readFieldEnd
        readFields ms rounds (o, seen)

/-- The number of bytes that are left; the loop takes one at least in each
round. -/
def remaining : Reader ℕ := fun input => .ok (input.length, input)

theorem remaining_eq (input : Bytes) : remaining input = .ok (input.length, input) := rfl

/-- **`read`** of a structure. -/
def readStruct (ms : Members p) (o : ms.Carrier) : Reader ms.Carrier := do
  p.run .readStructBegin
  let rounds ← remaining
  let (o, seen) ← readFields ms (rounds + 1) (o, [])
  p.run .readStructEnd
  if ms.requiredIds ⊆ seen then return o else throw .invalidData

/-- **`write`** of a structure. -/
def writeStruct (name : String) (ms : Members p) (a : ms.Carrier) : List Token :=
  .structBegin name :: (ms.writeFields a ++ [.fieldStop, .structEnd])

namespace Members

/-! ## What of a value is written, and what comes of it -/

/-- What reading a value makes of an object. -/
def merge : (ms : Members p) → ms.Carrier → ms.Carrier → ms.Carrier
  | .nil, _, _ => ()
  | .cons m rest, (o, s), (a, s') => (m.merge o a, rest.merge s s')

def Same : (ms : Members p) → ms.Carrier → ms.Carrier → Prop
  | .nil, _, _ => True
  | .cons m rest, (a, s), (b, s') => m.Same a b ∧ rest.Same s s'

def Fits : (ms : Members p) → ms.Carrier → Prop
  | .nil, _ => True
  | .cons m rest, (a, s) => m.Fits a ∧ rest.Fits s

def Clean : (ms : Members p) → ms.Carrier → ms.Carrier → Prop
  | .nil, _, _ => True
  | .cons m rest, (o, s), (a, s') => m.Clean o a ∧ rest.Clean s s'

theorem same_merge_iff : (ms : Members p) → (o a : ms.Carrier) →
    (ms.Same (ms.merge o a) a ↔ ms.Clean o a)
  | .nil, _, _ => Iff.rfl
  | .cons m rest, (o, s), (a, s') =>
    and_congr (m.same_merge_iff o a) (rest.same_merge_iff s s')

theorem clean_init : (ms : Members p) → (a : ms.Carrier) → ms.Clean ms.init a
  | .nil, _ => trivial
  | .cons m rest, (a, s) => ⟨m.clean_init' a, rest.clean_init s⟩

theorem writeFields_congr : (ms : Members p) → {a b : ms.Carrier} → ms.Same a b →
    ms.writeFields a = ms.writeFields b
  | .nil, _, _, _ => rfl
  | .cons m rest, (a, s), (b, s'), h => by
    rw [writeFields, writeFields, rest.writeFields_congr h.2]
    have hmember : Option.Rel m.codec.Same (m.written a) (m.written b) := h.1
    generalize m.written a = v, m.written b = w at hmember
    cases hmember with
    | none => rfl
    | some h => simp only [m.codec.write_congr h]

/-! ## A value for one of the members -/

/-- A value for one of the members. -/
inductive Given : Members p → Type 1
  | here {m : Member p} {rest : Members p} (b : m.β) : Given (.cons m rest)
  | there {m : Member p} {rest : Members p} (x : Given rest) : Given (.cons m rest)

namespace Given

def name : {ms : Members p} → ms.Given → String
  | _, @here _ m _ _ => m.name
  | _, there x => x.name

def id : {ms : Members p} → ms.Given → Int16
  | _, @here _ m _ _ => m.id
  | _, there x => x.id

def type : {ms : Members p} → ms.Given → TType
  | _, @here _ m _ _ => m.codec.type
  | _, there x => x.type

def body : {ms : Members p} → ms.Given → List Token
  | _, @here _ m _ b => m.codec.write b
  | _, there x => x.body

def Fits : {ms : Members p} → ms.Given → Prop
  | _, @here _ m _ b => m.codec.Fits b
  | _, there x => x.Fits

/-- What reading it makes of the object. -/
def put : {ms : Members p} → ms.Given → ms.Carrier → ms.Carrier
  | _, @here _ m _ b, (o, s) => (m.put b o, s)
  | _, there x, (o, s) => (o, x.put s)

/-- The object with the member set to it. -/
def assign : {ms : Members p} → ms.Given → ms.Carrier → ms.Carrier
  | _, @here _ m _ b, (_, s) => (m.set b, s)
  | _, there x, (o, s) => (o, x.assign s)

/-- The field it is written as. -/
def tokens {ms : Members p} (x : ms.Given) : List Token := fieldTokens x.name x.type x.id x.body

theorem id_mem_ids {ms : Members p} (x : ms.Given) : x.id ∈ ms.ids := by
  induction x with
  | here => exact List.mem_cons_self
  | there x ih => exact List.mem_cons_of_mem _ ih

theorem type_ne {ms : Members p} (x : ms.Given) : x.type ≠ .stop := by
  induction x with
  | @here m => exact m.codec.type_ne
  | there x ih => exact ih

theorem forms_body {ms : Members p} {x : ms.Given} (h : x.Fits) :
    Forms (.value x.type) x.body := by
  induction x with
  | @here m => exact m.codec.forms h
  | there x ih => exact ih h

/-- **Values for different members do not meddle with each other.** -/
theorem put_comm {ms : Members p} {x y : ms.Given} (h : x.id ≠ y.id) (o : ms.Carrier) :
    y.put (x.put o) = x.put (y.put o) := by
  induction x with
  | here b =>
    cases y with
    | here b' => exact absurd rfl h
    | there y => rfl
  | there x ih =>
    cases y with
    | here b => rfl
    | there y => exact congrArg (o.1, ·) (ih h o.2)

/-- **The `switch` reads it** into the object. -/
theorem case_eq {ms : Members p} (hids : ms.ids.Nodup) (x : ms.Given) :
    ∃ r, ms.case x.id x.type = some r ∧
      ∀ o, x.Fits → Reads (r o) (p.text x.body) (x.put o) := by
  induction x with
  | @here m rest b =>
    refine ⟨_, (if_pos rfl).trans (if_pos rfl), ?_⟩
    rintro ⟨o, s⟩ hfits
    exact (m.codec.reads (m.object o) hfits).bind_pure
  | @there m rest x ih =>
    rw [ids, List.nodup_cons] at hids
    obtain ⟨r, hr, hreads⟩ := ih hids.2
    have hne : x.id ≠ m.id := fun heq => hids.1 (heq ▸ x.id_mem_ids)
    refine ⟨_, (if_neg hne).trans (congrArg _ hr), ?_⟩
    rintro ⟨o, s⟩ hfits
    exact (hreads s hfits).bind_pure

end Given

/-- The members that are written. -/
def written : (ms : Members p) → ms.Carrier → List ms.Given
  | .nil, _ => []
  | .cons m rest, (a, s) =>
    ((m.written a).map Given.here).toList ++ (rest.written s).map .there

/-- What is written is written member by member. -/
theorem writeFields_eq : (ms : Members p) → (a : ms.Carrier) →
    ms.writeFields a = (ms.written a).flatMap Given.tokens
  | .nil, _ => rfl
  | .cons m rest, (a, s) => by
    rw [writeFields, written, List.flatMap_append, List.flatMap_map, rest.writeFields_eq s]
    cases m.written a with
    | some b => exact congrArg (· ++ _) (List.append_nil _).symm
    | none => rfl

theorem fits_of_mem_written : {ms : Members p} → {a : ms.Carrier} → ms.Fits a →
    ∀ x ∈ ms.written a, x.Fits
  | .nil, _, _, _, hx => absurd hx List.not_mem_nil
  | .cons m rest, (a, s), h, x, hx => by
    rw [written, List.mem_append, List.mem_map] at hx
    rcases hx with hx | ⟨y, hy, rfl⟩
    · rw [Option.mem_toList, Option.map_eq_some_iff] at hx
      obtain ⟨b, hb, rfl⟩ := hx
      exact h.1 b hb
    · exact fits_of_mem_written h.2 y hy

/-- The members that are written are written once each, and in order. -/
theorem ids_written_sublist : (ms : Members p) → (a : ms.Carrier) →
    ((ms.written a).map Given.id).Sublist ms.ids
  | .nil, _ => List.Sublist.refl _
  | .cons m rest, (a, s) => by
    have hrest : ((rest.written s).map (Given.id ∘ Given.there (m := m))).Sublist rest.ids :=
      rest.ids_written_sublist s
    rw [written, List.map_append, List.map_map]
    cases m.written a with
    | some b => exact hrest.cons_cons m.id
    | none => exact hrest.cons m.id

/-- The required members are among those that are written. -/
theorem requiredIds_subset : (ms : Members p) → (a : ms.Carrier) →
    ∀ id ∈ ms.requiredIds, id ∈ (ms.written a).map Given.id
  | .nil, _, _, h => absurd h List.not_mem_nil
  | .cons m rest, (a, s), id, h => by
    have hrest : id ∈ rest.requiredIds →
        id ∈ (rest.written s).map (Given.id ∘ Given.there (m := m)) :=
      rest.requiredIds_subset s id
    rw [requiredIds] at h
    rw [written, List.map_append, List.map_map, List.mem_append]
    split_ifs at h with hrequired
    · rcases List.mem_cons.1 h with rfl | h
      · obtain ⟨b, hb⟩ := Option.isSome_iff_exists.1 (m.written_of_required hrequired a)
        rw [hb]
        exact .inl List.mem_cons_self
      · exact .inr (hrest h)
    · exact .inr (hrest h)

/-- Reading what is written, one member after the other. -/
theorem foldl_put_written : (ms : Members p) → (o a : ms.Carrier) →
    (ms.written a).foldl (fun o x => x.put o) o = ms.merge o a
  | .nil, _, _ => rfl
  | .cons m rest, (o, s), (a, s') => by
    have hrest : ∀ (b : _) (xs : List rest.Given) (s : _),
        (xs.map (Given.there (m := m))).foldl (fun o x => x.put o) (b, s) =
          (b, xs.foldl (fun s x => x.put s) s) := by
      intro b xs
      induction xs with
      | nil => exact fun _ => rfl
      | cons x xs ih => exact fun s => ih (x.put s)
    rw [written, merge, Member.merge, List.foldl_append]
    cases m.written a with
    | some b => exact (hrest _ _ _).trans (congrArg (_, ·) (rest.foldl_put_written s s'))
    | none => exact (hrest _ _ _).trans (congrArg (o, ·) (rest.foldl_put_written s s'))

end Members

/-! ## The fields that arrive -/

/-- A field that arrives: a value for a member, under any name, or one that is
none of the structure's. -/
inductive Element (ms : Members p)
  | known (name : String) (x : ms.Given)
  | foreign (name : String) (type : TType) (id : Int16) (body : List Token)

namespace Element

variable {ms : Members p}

def tokens : Element ms → List Token
  | known name x => Members.fieldTokens name x.type x.id x.body
  | foreign name type id body => Members.fieldTokens name type id body

/-- The field is a value of its type, and a foreign one is skipped by the
`switch`. -/
def Fits : Element ms → Prop
  | known _ x => x.Fits
  | foreign _ type id body => type ≠ .stop ∧ ms.case id type = none ∧ Forms (.value type) body

def given : Element ms → Option ms.Given
  | known _ x => some x
  | foreign .. => none

end Element

/-- The values for members among the fields. -/
def givens {ms : Members p} (es : List (Element ms)) : List ms.Given := es.filterMap Element.given

/-- A structure of any fields. -/
def structTokens {ms : Members p} (name : String) (es : List (Element ms)) : List Token :=
  .structBegin name :: (es.flatMap Element.tokens ++ [.fieldStop, .structEnd])

variable {ms : Members p} {es : List (Element ms)} {o a : ms.Carrier}

/-- **What a round makes of a field.** -/
theorem reads_field (hids : ms.ids.Nodup) {e : Element ms} (he : e.Fits) {rounds : ℕ}
    {seen : List Int16} {bytes : Bytes} {result : ms.Carrier × List Int16}
    (hrest : Reads (readFields ms rounds ((givens [e]).foldl (fun o x => x.put o) o,
      (givens [e]).map Members.Given.id ++ seen)) bytes result) :
    Reads (readFields ms (rounds + 1) (o, seen)) (p.text e.tokens ++ bytes) result := by
  cases e with
  | known name x =>
    obtain ⟨r, hr, hreads⟩ := x.case_eq hids
    rw [Element.tokens, Members.fieldTokens, Protocol.text_cons, Protocol.text_append, List.append_assoc,
      List.append_assoc, readFields]
    refine (Protocol.reads_encode (.fieldBegin name x.id x.type_ne)).bind ?_
    dsimp only
    rw [if_neg x.type_ne, hr]
    exact (hreads o he).bind ((p.reads .fieldEnd).bind hrest)
  | foreign name type id body =>
    obtain ⟨htype, hcase, hforms⟩ := he
    rw [Element.tokens, Members.fieldTokens, Protocol.text_cons, Protocol.text_append, List.append_assoc,
      List.append_assoc, readFields]
    refine (Protocol.reads_encode (.fieldBegin name id htype)).bind ?_
    dsimp only
    rw [if_neg htype, hcase]
    exact (p.reads (.skip hforms)).bind ((p.reads .fieldEnd).bind hrest)

/-- **What the loop makes of the fields**: each value is read into its member,
in the order they arrive in. -/
theorem reads_fields (hids : ms.ids.Nodup) (hes : ∀ e ∈ es, e.Fits) {rounds : ℕ}
    (hrounds : es.length < rounds) (o : ms.Carrier) (seen : List Int16) :
    Reads (readFields ms rounds (o, seen)) (p.text (es.flatMap Element.tokens ++ [.fieldStop]))
      ((givens es).foldl (fun o x => x.put o) o,
        ((givens es).map Members.Given.id).reverse ++ seen) := by
  induction es generalizing rounds o seen with
  | nil =>
    cases rounds with
    | zero => exact absurd hrounds (Nat.not_lt_zero _)
    | succ rounds =>
      rw [readFields]
      exact ((Protocol.reads_encode .fieldStop).bind (.pure (o, seen))).congr rfl rfl
  | cons e es ih =>
    cases rounds with
    | zero => exact absurd hrounds (Nat.not_lt_zero _)
    | succ rounds =>
      rw [List.flatMap_cons, List.append_assoc, Protocol.text_append]
      refine reads_field hids (hes e List.mem_cons_self) ?_
      refine (ih (fun e' he' => hes e' (List.mem_cons_of_mem e he')) (Nat.lt_of_succ_lt_succ hrounds)
        _ _).congr rfl ?_
      have hsplit : givens (e :: es) = givens [e] ++ givens es :=
        @List.filterMap_append _ _ [e] es Element.given
      rw [hsplit, List.foldl_append, List.map_append, List.reverse_append, List.append_assoc]
      cases e with
      | known name x => rfl
      | foreign name type id body => rfl

/-- There is a byte at least for each field. -/
theorem length_le_text (hes : ∀ e ∈ es, e.Fits) :
    es.length ≤ (p.text (es.flatMap Element.tokens)).length := by
  induction es with
  | nil => exact Nat.zero_le _
  | cons e es ih =>
    have hrest := ih fun e' he' => hes e' (List.mem_cons_of_mem e he')
    have hpos : 0 < (p.text e.tokens).length := by
      cases e with
      | known name x =>
        have := Protocol.encode_fieldBegin_pos (p := p) name x.id x.type_ne
        rw [Element.tokens, Members.fieldTokens, Protocol.text_cons, List.length_append]
        omega
      | foreign name type id body =>
        have := Protocol.encode_fieldBegin_pos (p := p) name id (hes _ List.mem_cons_self).1
        rw [Element.tokens, Members.fieldTokens, Protocol.text_cons, List.length_append]
        omega
    rw [List.flatMap_cons, Protocol.text_append, List.length_append, List.length_cons]
    omega

/-- **What is read of any fields.** Each value for a member is read into it, in
the order they arrive in, fields that are none of the structure's are passed
over, and reading fails in the end if a required member is not among them. -/
theorem readStruct_eq (hids : ms.ids.Nodup) (hes : ∀ e ∈ es, e.Fits) (name : String)
    (o : ms.Carrier) (rest : Bytes) :
    readStruct ms o (p.text (structTokens name es) ++ rest) =
      if ms.requiredIds ⊆ (givens es).map Members.Given.id then
        .ok ((givens es).foldl (fun o x => x.put o) o, rest)
      else .error .invalidData := by
  have hsplit : p.text (structTokens name es) ++ rest = p.encode (.structBegin name) ++
      (p.text (es.flatMap Element.tokens ++ [.fieldStop]) ++ (p.encode .structEnd ++ rest)) := by
    simp only [structTokens, Protocol.text_cons, Protocol.text_append, Protocol.text_nil,
      List.append_assoc, List.append_nil]
  have hrounds : es.length < (p.text (es.flatMap Element.tokens ++ [.fieldStop]) ++
      (p.encode .structEnd ++ rest)).length + 1 := by
    have := length_le_text hes
    rw [List.length_append, Protocol.text_append, List.length_append]
    omega
  have hfields := reads_fields hids hes hrounds o [] (p.encode .structEnd ++ rest)
  have hend := Protocol.reads_encode (p := p) .structEnd rest
  rw [hsplit, readStruct, bind_of_eq_ok (Protocol.reads_encode (.structBegin name) _),
    bind_of_eq_ok (remaining_eq _), bind_of_eq_ok hfields]
  dsimp only
  rw [bind_of_eq_ok hend]
  simp only [List.append_nil, List.subset_reverse]
  split_ifs <;> rfl

/-- **The order of the fields does not matter**, nor do foreign ones between
them: where the values are those of an object, that object is read. -/
theorem reads_perm (hids : ms.ids.Nodup) (hes : ∀ e ∈ es, e.Fits)
    (hperm : (givens es).Perm (ms.written a)) (name : String) (o : ms.Carrier) :
    Reads (readStruct ms o) (p.text (structTokens name es)) (ms.merge o a) := by
  intro rest
  have hrequired : ms.requiredIds ⊆ (givens es).map Members.Given.id := fun id hid =>
    (hperm.map _).mem_iff.2 (ms.requiredIds_subset a id hid)
  have hnodup : ((givens es).map Members.Given.id).Nodup :=
    (hperm.map _).nodup_iff.2 ((ms.ids_written_sublist a).nodup hids)
  have hfold : (givens es).foldl (fun o x => x.put o) o = ms.merge o a := by
    rw [← ms.foldl_put_written]
    refine hperm.foldl_eq' (fun x hx y hy o => ?_) o
    by_cases hxy : x.id = y.id
    · rw [List.inj_on_of_nodup_map hnodup hx hy hxy]
    · exact (Members.Given.put_comm hxy o)
  rw [readStruct_eq hids hes, if_pos hrequired, hfold]

/-! ## Reading ends -/

theorem ends_case {fid : Int16} {ftype : TType} {r : ms.Carrier → Reader ms.Carrier}
    (h : ms.case fid ftype = some r) (o : ms.Carrier) : Ends (r o) := by
  induction ms with
  | nil => exact nomatch h
  | cons m rest ih =>
    rw [Members.case] at h
    split_ifs at h with hid htype
    · obtain rfl := Option.some.inj h
      exact (m.codec.ends _).bind fun _ => .pure _
    · obtain ⟨r', hr', rfl⟩ := Option.map_eq_some_iff.1 h
      exact (ih hr' o.2).bind fun _ => .pure _

/-- **The loop ends**: there are rounds for all bytes that are left. -/
theorem ends_fields {rounds : ℕ} {seen : List Int16} {input : Bytes}
    (h : input.length < rounds) : EndsOn (readFields ms rounds (o, seen)) input := by
  induction rounds generalizing o seen input with
  | zero => exact absurd h (Nat.not_lt_zero _)
  | succ rounds ih =>
    have hnext : ∀ {r : Reader ms.Carrier} (seen' : List Int16) {rest : Bytes}, Ends r →
        rest.length < input.length → EndsOn (do
          let o ← r
          p.run .readFieldEnd
          readFields ms rounds (o, seen')) rest := by
      intro r seen' rest hr hrest
      refine (hr rest).bind fun o' rest' hr' => (p.ends .readFieldEnd rest').bind fun u rest'' hu => ?_
      have hle := (hr rest).1 o' rest' hr'
      have hle' := (p.ends .readFieldEnd rest').1 u rest'' hu
      exact ih (by omega)
    rw [readFields]
    refine (p.ends .readFieldBegin input).bind fun field rest hfield => ?_
    have hprogress := p.progress hfield
    dsimp only
    split_ifs with hstop
    · exact Ends.pure _ rest
    · cases hcase : ms.case field.2 field.1 with
      | some r => exact hnext _ (ends_case hcase o) hprogress
      | none =>
        have hskip : Ends (p.run (.skip field.1) >>= fun _ => pure o) :=
          (p.ends _).bind fun _ => .pure _
        have := hnext seen hskip hprogress
        simpa only [bind_assoc, pure_bind] using this

theorem ends_struct (ms : Members p) (o : ms.Carrier) : Ends (readStruct ms o) := by
  intro input
  refine (p.ends _ input).bind fun _ rest _ => ?_
  rw [EndsOn, bind_of_eq_ok (remaining_eq rest)]
  refine (ends_fields (Nat.lt_succ_self rest.length)).bind fun s rest' _ =>
    (p.ends _ rest').bind fun _ rest'' _ => ?_
  split_ifs
  · exact Ends.pure _ rest''
  · exact Ends.throw (by decide) rest''

/-! ## The codec -/

/-- The fields of an object, as they are written. -/
def ownElements (ms : Members p) (a : ms.Carrier) : List (Element ms) :=
  (ms.written a).map fun x => .known x.name x

theorem givens_ownElements (ms : Members p) (a : ms.Carrier) :
    givens (ownElements ms a) = ms.written a := by
  rw [givens, ownElements, List.filterMap_map]
  exact List.filterMap_some

theorem writeStruct_eq (name : String) (ms : Members p) (a : ms.Carrier) :
    writeStruct name ms a = structTokens name (ownElements ms a) := by
  rw [writeStruct, structTokens, ms.writeFields_eq, ownElements, List.flatMap_map]
  rfl

theorem forms_fields {xs : List ms.Given} (h : ∀ x ∈ xs, x.Fits) :
    Forms .fields (xs.flatMap Members.Given.tokens) := by
  induction xs with
  | nil => exact .noFields
  | cons x xs ih =>
    have hrest := ih fun y hy => h y (List.mem_cons_of_mem x hy)
    have hfield := Forms.field x.name x.id x.type_ne
      (Members.Given.forms_body (h x List.mem_cons_self)) hrest
    rw [List.flatMap_cons, Members.Given.tokens, Members.fieldTokens, List.cons_append,
      List.append_assoc]
    exact hfield

namespace Codec

/-- **Structures.** -/
def struct (name : String) (ms : Members p) (hids : ms.ids.Nodup) : Codec p ms.Carrier where
  type := .struct
  init := ms.init
  read := readStruct ms
  write := writeStruct name ms
  merge := ms.merge
  Same := ms.Same
  Fits := ms.Fits
  Clean := ms.Clean
  type_ne := by decide
  forms h := by
    rw [writeStruct, ms.writeFields_eq]
    exact .struct name (forms_fields (Members.fits_of_mem_written h))
  reads o a h := by
    rw [writeStruct_eq]
    refine reads_perm hids ?_ (givens_ownElements ms a ▸ .refl _) name o
    intro e he
    obtain ⟨x, hx, rfl⟩ := List.mem_map.1 he
    exact Members.fits_of_mem_written h x hx
  ends := ends_struct ms
  same_merge_iff := ms.same_merge_iff _ _
  clean_init := ms.clean_init
  write_congr h := by rw [writeStruct, writeStruct, ms.writeFields_congr h]

end Codec

/-! ## Classes -/

/-! The identifiers of members are mostly in a row. -/

theorem nodup_one : ([1] : List Int16).Nodup := List.nodup_singleton 1

theorem nodup_two : ([1, 2] : List Int16).Nodup := by decide

theorem nodup_three : ([1, 2, 3] : List Int16).Nodup := by decide

theorem nodup_four : ([1, 2, 3, 4] : List Int16).Nodup := by decide

/-- **A class of the interface**: its members, and its objects under their
names. -/
structure Record (p : Protocol) (α : Type) where
  name : String
  members : Members p
  ids_nodup : members.ids.Nodup
  equiv : members.Carrier ≃ α

namespace Record

variable {r : Record p α} {es : List (Element r.members)}

/-- How objects of the class are read and written. -/
def codec (r : Record p α) : Codec p α :=
  (Codec.struct r.name r.members r.ids_nodup).transport r.equiv

/-- The object with the values in its members. -/
def putAll (r : Record p α) (xs : List r.members.Given) (o : α) : α :=
  r.equiv (xs.foldl (fun s x => x.put s) (r.equiv.symm o))

/-- The members of an object that are written. -/
def written (r : Record p α) (a : α) : List r.members.Given := r.members.written (r.equiv.symm a)

/-- **Any fields** are read into an object of the class. -/
theorem read_fields (hes : ∀ e ∈ es, e.Fits) (name : String) (o : α) (rest : Bytes) :
    r.codec.read o (p.text (structTokens name es) ++ rest) =
      if r.members.requiredIds ⊆ (givens es).map Members.Given.id then
        .ok (r.putAll (givens es) o, rest)
      else .error .invalidData := by
  have hread := readStruct_eq r.ids_nodup hes name (r.equiv.symm o) rest
  change (readStruct r.members (r.equiv.symm o) >>= fun s => pure (r.equiv s)) _ = _
  split_ifs at hread ⊢ with hrequired
  · rw [bind_of_eq_ok hread]
    rfl
  · rw [bind_of_eq_error hread]

/-- **The fields of an object**, in any order and with foreign ones between
them. -/
theorem reads_written (hes : ∀ e ∈ es, e.Fits) {a : α} (hperm : (givens es).Perm (r.written a))
    (name : String) (o : α) :
    Reads (r.codec.read o) (p.text (structTokens name es)) (r.codec.merge o a) :=
  (reads_perm r.ids_nodup hes hperm name (r.equiv.symm o)).bind_pure

end Record

end Thrift

end Supercell
