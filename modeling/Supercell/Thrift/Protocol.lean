import Mathlib

/-!
# Thrift — what a protocol does with what is written to it

Generated code writes values to a `TProtocol` one token at a time and reads
them back with one operation for each kind of token. `Forms` says which
sequences of tokens make up a value of a type. A `Protocol` is a wire format
without memory: the bytes of each token, and the operations, which read what
was written and stop on every input.
-/

namespace Supercell

namespace Thrift

/-- A `std::string`. -/
abbrev Bytes := List UInt8

/-- The order of bytes, from which the keys of a map have theirs. -/
instance byteOrder : LinearOrder UInt8 where
  le_refl _ := UInt8.le_refl _
  le_trans _ _ _ := UInt8.le_trans
  le_antisymm _ _ := UInt8.le_antisymm
  le_total := UInt8.le_total
  lt_iff_le_not_ge _ _ := @lt_iff_le_not_ge ℕ _ _ _
  toDecidableLE := inferInstance

/-- The bytes of a word of the interface. -/
def ascii (word : String) : Bytes := word.toList.map fun c => UInt8.ofNat c.toNat

inductive TType
  | stop | bool | byte | i16 | i32 | i64 | double | string | struct | map | set | list
  deriving DecidableEq, Repr

inductive MessageType
  | call | reply | exception | oneway
  deriving DecidableEq, Repr

/-- What is written to a protocol; a double as its bits. -/
inductive Token
  | messageBegin (name : Bytes) (type : MessageType) (seqid : Int32)
  | messageEnd
  | structBegin (name : String)
  | structEnd
  | fieldBegin (name : String) (type : TType) (id : Int16)
  | fieldEnd
  | fieldStop
  | mapBegin (keyType valType : TType) (size : UInt32)
  | mapEnd
  | listBegin (elemType : TType) (size : UInt32)
  | listEnd
  | setBegin (elemType : TType) (size : UInt32)
  | setEnd
  | bool (value : Bool)
  | byte (value : Int8)
  | i16 (value : Int16)
  | i32 (value : Int32)
  | i64 (value : Int64)
  | double (bits : UInt64)
  | string (text : Bytes)
  | binary (text : Bytes)
  deriving DecidableEq, Repr

/-- Lengths from here on do not fit into the 32 bits with sign that a wire
format has for them. -/
def sizeLimit : ℕ := 2 ^ 31

/-- A length on the wire is read as it was written. -/
theorem toNat_ofNat_size {n : ℕ} (h : n < sizeLimit) : (UInt32.ofNat n).toNat = n :=
  UInt32.toNat_ofNat_of_lt' (Nat.lt_trans h (by decide))

/-! ## The tokens of a value -/

/-- What a sequence of tokens may be: a value, the fields of a structure, some
elements of a list, or some entries of a map. -/
inductive Kind
  | value (type : TType)
  | fields
  | elements (type : TType) (size : ℕ)
  | entries (keyType valType : TType) (size : ℕ)

/-- **The tokens make up something of the kind.** -/
inductive Forms : Kind → List Token → Prop
  | bool (value : Bool) : Forms (.value .bool) [.bool value]
  | byte (value : Int8) : Forms (.value .byte) [.byte value]
  | i16 (value : Int16) : Forms (.value .i16) [.i16 value]
  | i32 (value : Int32) : Forms (.value .i32) [.i32 value]
  | i64 (value : Int64) : Forms (.value .i64) [.i64 value]
  | double (bits : UInt64) : Forms (.value .double) [.double bits]
  | string {text : Bytes} (h : text.length < sizeLimit) : Forms (.value .string) [.string text]
  | binary {text : Bytes} (h : text.length < sizeLimit) : Forms (.value .string) [.binary text]
  | struct (name : String) {ts : List Token} (h : Forms .fields ts) :
      Forms (.value .struct) (.structBegin name :: (ts ++ [.fieldStop, .structEnd]))
  | map {k v : TType} {n : ℕ} {ts : List Token} (hn : n < sizeLimit)
      (h : Forms (.entries k v n) ts) :
      Forms (.value .map) (.mapBegin k v (.ofNat n) :: (ts ++ [.mapEnd]))
  | set {t : TType} {n : ℕ} {ts : List Token} (hn : n < sizeLimit) (h : Forms (.elements t n) ts) :
      Forms (.value .set) (.setBegin t (.ofNat n) :: (ts ++ [.setEnd]))
  | list {t : TType} {n : ℕ} {ts : List Token} (hn : n < sizeLimit)
      (h : Forms (.elements t n) ts) :
      Forms (.value .list) (.listBegin t (.ofNat n) :: (ts ++ [.listEnd]))
  | noFields : Forms .fields []
  | field (name : String) {t : TType} (id : Int16) {ts rest : List Token} (ht : t ≠ .stop)
      (h : Forms (.value t) ts) (hrest : Forms .fields rest) :
      Forms .fields (.fieldBegin name t id :: (ts ++ .fieldEnd :: rest))
  | noElements (t : TType) : Forms (.elements t 0) []
  | element {t : TType} {n : ℕ} {ts rest : List Token} (h : Forms (.value t) ts)
      (hrest : Forms (.elements t n) rest) : Forms (.elements t (n + 1)) (ts ++ rest)
  | noEntries (k v : TType) : Forms (.entries k v 0) []
  | entry {k v : TType} {n : ℕ} {ks vs rest : List Token} (hk : Forms (.value k) ks)
      (hv : Forms (.value v) vs) (hrest : Forms (.entries k v n) rest) :
      Forms (.entries k v (n + 1)) (ks ++ (vs ++ rest))

/-! ## Readers -/

/-- Why reading fails: the data lack something that is required, the protocol
or the transport gives up, or a loop never ends. -/
inductive Failure
  | invalidData
  | gaveUp (reason : String)
  | endless
  deriving DecidableEq, Repr

/-- Reading takes bytes from the front of what has arrived. -/
abbrev Reader (α : Type) := StateT Bytes (Except Failure) α

variable {α β : Type} {r : Reader α} {f : α → Reader β} {bytes bytes' input : Bytes} {a a' : α}
  {b : β}

/-- **The reader takes the text for the value**, whatever comes behind it. -/
def Reads (r : Reader α) (bytes : Bytes) (a : α) : Prop :=
  ∀ rest, r (bytes ++ rest) = .ok (a, rest)

theorem bind_of_eq_ok {rest : Bytes} (h : r input = .ok (a, rest)) :
    (r >>= f) input = f a rest := by
  change (r input >>= fun p => f p.1 p.2) = f a rest
  rw [h]
  rfl

theorem bind_of_eq_error {e : Failure} (h : r input = .error e) :
    (r >>= f) input = .error e := by
  change (r input >>= fun p => f p.1 p.2) = .error e
  rw [h]
  rfl

namespace Reads

theorem pure (a : α) : Reads (Pure.pure a) [] a := fun _ => rfl

theorem bind (h : Reads r bytes a) (hf : Reads (f a) bytes' b) :
    Reads (r >>= f) (bytes ++ bytes') b := by
  intro rest
  rw [List.append_assoc, bind_of_eq_ok (h (bytes' ++ rest)), hf rest]

/-- The same for the last reader of a sequence. -/
theorem bind_pure {g : α → β} (h : Reads r bytes a) :
    Reads (r >>= fun a => Pure.pure (g a)) bytes (g a) := by
  have hboth : Reads (r >>= fun a => Pure.pure (g a)) (bytes ++ []) (g a) := h.bind (pure (g a))
  rwa [List.append_nil] at hboth

theorem congr (h : Reads r bytes a) (hbytes : bytes = bytes') (ha : a = a') : Reads r bytes' a' := by
  rwa [← hbytes, ← ha]

end Reads

/-- **The reader ends on the input**: it leaves no more than it was given, and
does not run for ever. -/
def EndsOn (r : Reader α) (input : Bytes) : Prop :=
  (∀ a rest, r input = .ok (a, rest) → rest.length ≤ input.length) ∧ r input ≠ .error .endless

/-- The reader ends on every input. -/
def Ends (r : Reader α) : Prop := ∀ input, EndsOn r input

theorem EndsOn.bind (h : EndsOn r input)
    (hf : ∀ a rest, r input = .ok (a, rest) → EndsOn (f a) rest) : EndsOn (r >>= f) input := by
  cases hr : r input with
  | error e =>
    rw [EndsOn, bind_of_eq_error hr]
    refine ⟨?_, fun heq => h.2 ?_⟩
    · rintro b rest ⟨⟩
    · rw [hr, Except.error.inj heq]
  | ok p =>
    obtain ⟨a, rest⟩ := p
    rw [EndsOn, bind_of_eq_ok hr]
    exact ⟨fun b rest' hb => Nat.le_trans ((hf a rest hr).1 b rest' hb) (h.1 a rest hr), (hf a rest hr).2⟩

namespace Ends

theorem pure (a : α) : Ends (Pure.pure a) := by
  intro input
  refine ⟨?_, fun h => nomatch h⟩
  rintro a rest ⟨⟩
  exact Nat.le_refl _

theorem throw {e : Failure} (he : e ≠ .endless) : Ends (MonadExcept.throw e : Reader α) := by
  intro input
  refine ⟨?_, ?_⟩
  · rintro a rest ⟨⟩
  · rintro ⟨⟩
    exact he rfl

theorem bind (h : Ends r) (hf : ∀ a, Ends (f a)) : Ends (r >>= f) := fun input =>
  (h input).bind fun a rest _ => hf a rest

end Ends

/-! ## Protocols -/

/-- The operations of a `TProtocol` that read, with what each of them reads. -/
inductive Op : Type → Type
  | readMessageBegin : Op (Bytes × MessageType × Int32)
  | readMessageEnd : Op Unit
  | readStructBegin : Op Unit
  | readStructEnd : Op Unit
  | readFieldBegin : Op (TType × Int16)
  | readFieldEnd : Op Unit
  | readMapBegin : Op (TType × TType × UInt32)
  | readMapEnd : Op Unit
  | readListBegin : Op (TType × UInt32)
  | readListEnd : Op Unit
  | readBool : Op Bool
  | readI32 : Op Int32
  | readI64 : Op Int64
  | readDouble : Op UInt64
  | readString : Op Bytes
  | readBinary : Op Bytes
  | skip (type : TType) : Op Unit

/-- **What an operation reads** of tokens that were written. -/
inductive Answers : {α : Type} → Op α → List Token → α → Prop
  | messageBegin {name : Bytes} (type : MessageType) (seqid : Int32)
      (h : name.length < sizeLimit) :
      Answers .readMessageBegin [.messageBegin name type seqid] (name, type, seqid)
  | messageEnd : Answers .readMessageEnd [.messageEnd] ()
  | structBegin (name : String) : Answers .readStructBegin [.structBegin name] ()
  | structEnd : Answers .readStructEnd [.structEnd] ()
  | fieldBegin (name : String) {type : TType} (id : Int16) (h : type ≠ .stop) :
      Answers .readFieldBegin [.fieldBegin name type id] (type, id)
  | fieldStop : Answers .readFieldBegin [.fieldStop] (.stop, 0)
  | fieldEnd : Answers .readFieldEnd [.fieldEnd] ()
  | mapBegin (k v : TType) {n : ℕ} (h : n < sizeLimit) :
      Answers .readMapBegin [.mapBegin k v (.ofNat n)] (k, v, .ofNat n)
  | mapEnd : Answers .readMapEnd [.mapEnd] ()
  | listBegin (t : TType) {n : ℕ} (h : n < sizeLimit) :
      Answers .readListBegin [.listBegin t (.ofNat n)] (t, .ofNat n)
  | listEnd : Answers .readListEnd [.listEnd] ()
  | bool (value : Bool) : Answers .readBool [.bool value] value
  | i32 (value : Int32) : Answers .readI32 [.i32 value] value
  | i64 (value : Int64) : Answers .readI64 [.i64 value] value
  | double (bits : UInt64) : Answers .readDouble [.double bits] bits
  | string {text : Bytes} (h : text.length < sizeLimit) :
      Answers .readString [.string text] text
  | binary {text : Bytes} (h : text.length < sizeLimit) :
      Answers .readBinary [.binary text] text
  | skip {type : TType} {ts : List Token} (h : Forms (.value type) ts) :
      Answers (.skip type) ts ()

/-- **A protocol**: how tokens are written, and operations that read what was
written, end on every input, and take something from it for a field. -/
structure Protocol where
  encode : Token → Bytes
  run : {α : Type} → Op α → Reader α
  reads : ∀ {α : Type} {op : Op α} {ts : List Token} {a : α},
    Answers op ts a → Reads (run op) (ts.flatMap encode) a
  ends : ∀ {α : Type} (op : Op α), Ends (run op)
  progress : ∀ {input rest : Bytes} {field : TType × Int16},
    run .readFieldBegin input = .ok (field, rest) → rest.length < input.length

namespace Protocol

variable (p : Protocol)

/-- The bytes of a sequence of tokens. -/
def text (ts : List Token) : Bytes := ts.flatMap p.encode

@[simp] theorem text_nil : p.text [] = [] := rfl

@[simp] theorem text_cons (t : Token) (ts : List Token) :
    p.text (t :: ts) = p.encode t ++ p.text ts := List.flatMap_cons

@[simp] theorem text_append (ts ts' : List Token) :
    p.text (ts ++ ts') = p.text ts ++ p.text ts' := List.flatMap_append

variable {p}

/-- An operation that answers one token. -/
theorem reads_encode {op : Op α} {t : Token} (h : Answers op [t] a) :
    Reads (p.run op) (p.encode t) a :=
  (p.reads h).congr (List.append_nil _) rfl

/-- The beginning of a field takes up room. -/
theorem encode_fieldBegin_pos (name : String) {type : TType} (id : Int16) (h : type ≠ .stop) :
    0 < (p.encode (.fieldBegin name type id)).length := by
  have hread := reads_encode (p := p) (Answers.fieldBegin name id h) []
  have hprogress := p.progress hread
  rwa [List.append_nil] at hprogress

end Protocol

end Thrift

end Supercell
