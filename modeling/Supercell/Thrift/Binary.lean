import Supercell.Thrift.Protocol

/-!
# Thrift — the binary protocol

The wire format that services use: numbers with their most significant byte
first, lengths as 32-bit integers in front of texts, lists and maps, and the
type of a field in front of its number. It has what `Protocol` asks for, so
that nothing is asked of a protocol that no protocol has.
-/

namespace Supercell

namespace Thrift

namespace Binary

/-! ## Bytes -/

/-- A number in a given number of bytes. -/
def bigEndian : ℕ → ℕ → Bytes
  | 0, _ => []
  | n + 1, v => UInt8.ofNat (v / 256 ^ n) :: bigEndian n (v % 256 ^ n)

def fromBigEndian (bytes : Bytes) : ℕ := bytes.foldl (fun v b => v * 256 + b.toNat) 0

@[simp] theorem length_bigEndian (n v : ℕ) : (bigEndian n v).length = n := by
  induction n generalizing v with
  | zero => rfl
  | succ n ih => rw [bigEndian, List.length_cons, ih]

theorem fromBigEndian_bigEndian {n v : ℕ} (h : v < 256 ^ n) :
    fromBigEndian (bigEndian n v) = v := by
  have hfold : ∀ (n v acc : ℕ), v < 256 ^ n →
      (bigEndian n v).foldl (fun v b => v * 256 + b.toNat) acc = acc * 256 ^ n + v := by
    intro n
    induction n with
    | zero =>
      intro v acc hv
      rw [Nat.pow_zero] at hv
      rw [bigEndian, List.foldl_nil, Nat.pow_zero]
      omega
    | succ n ih =>
      intro v acc hv
      have hpos : 0 < 256 ^ n := Nat.pow_pos (by decide)
      have hdigit : v / 256 ^ n < 256 := by
        rw [Nat.div_lt_iff_lt_mul hpos]
        rwa [Nat.pow_succ, Nat.mul_comm] at hv
      rw [bigEndian, List.foldl_cons, ih _ _ (Nat.mod_lt v hpos), UInt8.toNat_ofNat',
        Nat.mod_eq_of_lt hdigit, Nat.add_mul, Nat.pow_succ, Nat.mul_assoc, Nat.mul_comm 256,
        Nat.add_assoc, Nat.mul_comm (v / 256 ^ n), Nat.div_add_mod]
  rw [fromBigEndian, hfold n v 0 h, Nat.zero_mul, Nat.zero_add]

/-- Some bytes from the front. -/
def takeBytes (n : ℕ) : Reader Bytes := fun input =>
  if n ≤ input.length then .ok (input.take n, input.drop n) else .error (.gaveUp "END_OF_FILE")

def readNat (n : ℕ) : Reader ℕ := do
  let bytes ← takeBytes n
  return fromBigEndian bytes

theorem reads_takeBytes (bytes : Bytes) : Reads (takeBytes bytes.length) bytes bytes := by
  intro rest
  rw [takeBytes, if_pos (by rw [List.length_append]; exact Nat.le_add_right _ _),
    List.take_left, List.drop_left]

theorem reads_readNat {n v : ℕ} (h : v < 256 ^ n) : Reads (readNat n) (bigEndian n v) v := by
  have hbytes := reads_takeBytes (bigEndian n v)
  rw [length_bigEndian] at hbytes
  exact hbytes.bind_pure.congr rfl (fromBigEndian_bigEndian h)

theorem takeBytes_eq_ok {n : ℕ} {input rest bytes : Bytes} (h : takeBytes n input = .ok (bytes, rest)) :
    rest.length + n = input.length := by
  rw [takeBytes] at h
  split_ifs at h with hn
  obtain ⟨-, rfl⟩ := Prod.mk.inj (Except.ok.inj h)
  rw [List.length_drop]
  omega

theorem ends_takeBytes (n : ℕ) : Ends (takeBytes n) := by
  intro input
  refine ⟨fun bytes rest h => ?_, ?_⟩
  · have := takeBytes_eq_ok h
    omega
  · rw [takeBytes]
    split_ifs <;> exact fun h => nomatch h

theorem ends_readNat (n : ℕ) : Ends (readNat n) := (ends_takeBytes n).bind fun _ => .pure _

theorem readNat_eq_ok {n v : ℕ} {input rest : Bytes} (h : readNat n input = .ok (v, rest)) :
    rest.length + n = input.length := by
  cases htake : takeBytes n input with
  | error e =>
    rw [readNat, bind_of_eq_error htake] at h
    exact nomatch h
  | ok q =>
    obtain ⟨bytes, rest'⟩ := q
    rw [readNat, bind_of_eq_ok htake] at h
    obtain ⟨-, rfl⟩ := Prod.mk.inj (Except.ok.inj h)
    exact takeBytes_eq_ok htake

/-! ## Types and lengths -/

/-- The number of a type. -/
def typeCode : TType → ℕ
  | .stop => 0 | .bool => 2 | .byte => 3 | .double => 4 | .i16 => 6 | .i32 => 8 | .i64 => 10
  | .string => 11 | .struct => 12 | .map => 13 | .set => 14 | .list => 15

def ofTypeCode : ℕ → Option TType
  | 0 => some .stop | 2 => some .bool | 3 => some .byte | 4 => some .double | 6 => some .i16
  | 8 => some .i32 | 10 => some .i64 | 11 => some .string | 12 => some .struct | 13 => some .map
  | 14 => some .set | 15 => some .list | _ => none

def messageCode : MessageType → ℕ
  | .call => 1 | .reply => 2 | .exception => 3 | .oneway => 4

def ofMessageCode : ℕ → Option MessageType
  | 1 => some .call | 2 => some .reply | 3 => some .exception | 4 => some .oneway | _ => none

/-- A number that stands for something, in one byte. -/
def readCode {β : Type} (decode : ℕ → Option β) : Reader β := do
  let n ← readNat 1
  match decode n with
  | some b => return b
  | none => throw (.gaveUp "INVALID_DATA")

def readSize : Reader ℕ := do
  let n ← readNat 4
  if n < sizeLimit then return n else throw (.gaveUp "NEGATIVE_SIZE")

def readText : Reader Bytes := do
  let n ← readSize
  takeBytes n

theorem reads_readCode {β : Type} {decode : ℕ → Option β} {n : ℕ} {b : β} (hn : n < 256)
    (h : decode n = some b) : Reads (readCode decode) (bigEndian 1 n) b := by
  have hcode : Reads (readCode decode) (bigEndian 1 n ++ []) b := by
    refine (reads_readNat hn).bind ?_
    rw [h]
    exact .pure b
  exact hcode.congr (List.append_nil _) rfl

theorem reads_readType (t : TType) : Reads (readCode ofTypeCode) (bigEndian 1 (typeCode t)) t := by
  cases t <;> exact reads_readCode (by decide) rfl

theorem reads_readSize {n : ℕ} (h : n < sizeLimit) : Reads readSize (bigEndian 4 n) n := by
  have hsize : Reads readSize (bigEndian 4 n ++ []) n := by
    refine (reads_readNat (Nat.lt_trans h (by decide))).bind ?_
    rw [if_pos h]
    exact .pure n
  exact hsize.congr (List.append_nil _) rfl

theorem reads_readText {text : Bytes} (h : text.length < sizeLimit) :
    Reads readText (bigEndian 4 text.length ++ text) text :=
  (reads_readSize h).bind (reads_takeBytes text)

theorem ends_readCode {β : Type} (decode : ℕ → Option β) : Ends (readCode decode) := by
  refine (ends_readNat 1).bind fun n => ?_
  cases decode n with
  | some b => exact .pure b
  | none => exact .throw (by decide)

theorem readCode_eq_ok {β : Type} {decode : ℕ → Option β} {b : β} {input rest : Bytes}
    (h : readCode decode input = .ok (b, rest)) : rest.length < input.length := by
  cases hnat : readNat 1 input with
  | error e =>
    rw [readCode, bind_of_eq_error hnat] at h
    exact nomatch h
  | ok q =>
    obtain ⟨n, rest'⟩ := q
    have hrest := readNat_eq_ok hnat
    rw [readCode, bind_of_eq_ok hnat] at h
    have hle : rest.length ≤ rest'.length := by
      cases hdecode : decode n with
      | some b' =>
        rw [hdecode] at h
        exact (Ends.pure b' rest').1 b rest h
      | none =>
        rw [hdecode] at h
        exact nomatch h
    omega

theorem ends_readSize : Ends readSize := by
  refine (ends_readNat 4).bind fun n => ?_
  split_ifs
  · exact .pure n
  · exact .throw (by decide)

theorem ends_readText : Ends readText := ends_readSize.bind fun n => ends_takeBytes n

/-! ## Tokens -/

def encode : Token → Bytes
  | .messageBegin name type seqid =>
    bigEndian 2 0x8001 ++ (bigEndian 1 0 ++ (bigEndian 1 (messageCode type) ++
      ((bigEndian 4 name.length ++ name) ++ bigEndian 4 seqid.toUInt32.toNat)))
  | .fieldBegin _ type id => bigEndian 1 (typeCode type) ++ bigEndian 2 id.toUInt16.toNat
  | .fieldStop => bigEndian 1 0
  | .mapBegin k v size =>
    bigEndian 1 (typeCode k) ++ (bigEndian 1 (typeCode v) ++ bigEndian 4 size.toNat)
  | .listBegin t size => bigEndian 1 (typeCode t) ++ bigEndian 4 size.toNat
  | .setBegin t size => bigEndian 1 (typeCode t) ++ bigEndian 4 size.toNat
  | .bool value => bigEndian 1 value.toNat
  | .byte value => bigEndian 1 value.toUInt8.toNat
  | .i16 value => bigEndian 2 value.toUInt16.toNat
  | .i32 value => bigEndian 4 value.toUInt32.toNat
  | .i64 value => bigEndian 8 value.toUInt64.toNat
  | .double bits => bigEndian 8 bits.toNat
  | .string text => bigEndian 4 text.length ++ text
  | .binary text => bigEndian 4 text.length ++ text
  | .messageEnd | .structBegin _ | .structEnd | .fieldEnd | .mapEnd | .listEnd | .setEnd => []

/-- The type of a field and, unless it is the last one, its number. -/
def readFieldBegin : Reader (TType × Int16) := do
  let type ← readCode ofTypeCode
  if type = .stop then return (.stop, 0)
  else do
    let id ← readNat 2
    return (type, (UInt16.ofNat id).toInt16)

/-- **Skipping**, for at most `rounds` calls inside each other. -/
def skipKind : ℕ → Kind → Reader Unit
  | 0, _ => throw .endless
  | rounds + 1, .value type =>
    match type with
    | .stop => throw (.gaveUp "INVALID_DATA")
    | .bool | .byte => do
      let _ ← readNat 1
      return ()
    | .i16 => do
      let _ ← readNat 2
      return ()
    | .i32 => do
      let _ ← readNat 4
      return ()
    | .i64 | .double => do
      let _ ← readNat 8
      return ()
    | .string => do
      let _ ← readText
      return ()
    | .struct => skipKind rounds .fields
    | .map => do
      let k ← readCode ofTypeCode
      let v ← readCode ofTypeCode
      let size ← readSize
      skipKind rounds (.entries k v size)
    | .set | .list => do
      let t ← readCode ofTypeCode
      let size ← readSize
      skipKind rounds (.elements t size)
  | rounds + 1, .fields => do
    let (type, _) ← readFieldBegin
    if type = .stop then return ()
    else do
      skipKind rounds (.value type)
      skipKind rounds .fields
  | _ + 1, .elements _ 0 => return ()
  | rounds + 1, .elements t (n + 1) => do
    skipKind rounds (.value t)
    skipKind rounds (.elements t n)
  | _ + 1, .entries _ _ 0 => return ()
  | rounds + 1, .entries k v (n + 1) => do
    skipKind rounds (.value k)
    skipKind rounds (.value v)
    skipKind rounds (.entries k v n)

/-- The calls inside each other that some bytes can ask for. -/
def depth : Kind → ℕ → ℕ
  | .fields, n => 2 * n + 1
  | .value _, n => 2 * n + 2
  | .elements .., n => 2 * n + 3
  | .entries .., n => 2 * n + 3

def skip (type : TType) : Reader Unit := fun input =>
  skipKind (depth (.value type) input.length) (.value type) input

/-! ## Skipping what was written -/

/-- The bytes that are skipped for some tokens: those of fields end with the
mark behind the last one. -/
def skipped : Kind → List Token → Bytes
  | .fields, ts => ts.flatMap encode ++ encode .fieldStop
  | .value _, ts | .elements .., ts | .entries .., ts => ts.flatMap encode

theorem reads_readFieldBegin (name : String) {type : TType} (id : Int16) (h : type ≠ .stop) :
    Reads readFieldBegin (encode (.fieldBegin name type id)) (type, id) := by
  refine (reads_readType type).bind ?_
  rw [if_neg h]
  have hid : id.toUInt16.toNat < 256 ^ 2 := id.toUInt16.toNat_lt
  refine (reads_readNat hid).bind_pure.congr rfl ?_
  rw [UInt16.ofNat_toNat, Int16.toInt16_toUInt16]

theorem reads_fieldStop : Reads readFieldBegin (encode .fieldStop) (.stop, 0) := by
  have hstop : Reads readFieldBegin (bigEndian 1 0 ++ []) (.stop, 0) :=
    (reads_readType .stop).bind (.pure _)
  exact hstop

/-- Everything that is skipped as a value takes up room. -/
theorem length_value_pos {t : TType} {ts : List Token} (h : Forms (.value t) ts) :
    0 < (ts.flatMap encode).length := by
  cases h <;> simp [encode]

/-- There is a round to begin with. -/
theorem exists_round {kind : Kind} {n rounds : ℕ} (h : depth kind n ≤ rounds) :
    ∃ r, rounds = r + 1 := by
  refine Nat.exists_eq_add_one.2 ?_
  cases kind <;> rw [depth] at h <;> omega

theorem reads_number {n v : ℕ} (h : v < 256 ^ n) :
    Reads (readNat n >>= fun _ => pure ()) (bigEndian n v ++ []) () :=
  (reads_readNat h).bind (.pure ())

theorem reads_skipText {text : Bytes} (h : text.length < sizeLimit) :
    Reads (readText >>= fun _ => pure ()) ((bigEndian 4 text.length ++ text) ++ []) () :=
  (reads_readText h).bind (.pure ())

/-- The size in front of some elements. -/
theorem reads_skipElements {t : TType} {n rounds : ℕ} {bytes : Bytes} (hn : n < sizeLimit)
    (h : Reads (skipKind rounds (.elements t n)) bytes ()) :
    Reads (do
      let t ← readCode ofTypeCode
      let size ← readSize
      skipKind rounds (.elements t size))
      ((bigEndian 1 (typeCode t) ++ bigEndian 4 n) ++ bytes) () :=
  ((reads_readType t).bind ((reads_readSize hn).bind h)).congr (List.append_assoc _ _ _).symm rfl

/-- **What was written is skipped**, with rounds for as many bytes as it has. -/
theorem reads_skipKind {kind : Kind} {ts : List Token} (h : Forms kind ts) {rounds : ℕ}
    (hrounds : depth kind (skipped kind ts).length ≤ rounds) :
    Reads (skipKind rounds kind) (skipped kind ts) () := by
  induction h generalizing rounds <;> obtain ⟨rounds, rfl⟩ := exists_round hrounds
  case bool value => exact reads_number (by cases value <;> decide)
  case byte value => exact reads_number value.toUInt8.toNat_lt
  case i16 value => exact reads_number value.toUInt16.toNat_lt
  case i32 value => exact reads_number value.toUInt32.toNat_lt
  case i64 value => exact reads_number value.toUInt64.toNat_lt
  case double bits => exact reads_number bits.toNat_lt
  case string h => exact reads_skipText h
  case binary h => exact reads_skipText h
  case struct name ts h ih =>
    have hbytes : skipped (.value .struct) (.structBegin name :: (ts ++ [.fieldStop, .structEnd])) =
        skipped .fields ts := by
      simp only [skipped, List.flatMap_cons, List.flatMap_append, List.flatMap_nil, encode,
        List.nil_append, List.append_nil]
    rw [hbytes] at hrounds ⊢
    exact ih (Nat.le_of_succ_le_succ hrounds)
  case map k v n ts hn h ih =>
    have hbytes : skipped (.value .map) (.mapBegin k v (.ofNat n) :: (ts ++ [.mapEnd])) =
        bigEndian 1 (typeCode k) ++ (bigEndian 1 (typeCode v) ++ (bigEndian 4 n ++
          skipped (.entries k v n) ts)) := by
      simp only [skipped, List.flatMap_cons, List.flatMap_append, List.flatMap_nil, encode,
        toNat_ofNat_size hn, List.append_nil, List.append_assoc]
    rw [hbytes] at hrounds ⊢
    simp only [depth, List.length_append, length_bigEndian] at hrounds
    exact (reads_readType k).bind ((reads_readType v).bind ((reads_readSize hn).bind
      (ih (by rw [depth]; omega))))
  case set t n ts hn h ih =>
    have hbytes : skipped (.value .set) (.setBegin t (.ofNat n) :: (ts ++ [.setEnd])) =
        (bigEndian 1 (typeCode t) ++ bigEndian 4 n) ++ skipped (.elements t n) ts := by
      simp only [skipped, List.flatMap_cons, List.flatMap_append, List.flatMap_nil, encode,
        toNat_ofNat_size hn, List.append_nil]
    rw [hbytes] at hrounds ⊢
    simp only [depth, List.length_append, length_bigEndian] at hrounds
    exact reads_skipElements hn (ih (by rw [depth]; omega))
  case list t n ts hn h ih =>
    have hbytes : skipped (.value .list) (.listBegin t (.ofNat n) :: (ts ++ [.listEnd])) =
        (bigEndian 1 (typeCode t) ++ bigEndian 4 n) ++ skipped (.elements t n) ts := by
      simp only [skipped, List.flatMap_cons, List.flatMap_append, List.flatMap_nil, encode,
        toNat_ofNat_size hn, List.append_nil]
    rw [hbytes] at hrounds ⊢
    simp only [depth, List.length_append, length_bigEndian] at hrounds
    exact reads_skipElements hn (ih (by rw [depth]; omega))
  case noFields => exact reads_fieldStop.bind (.pure ())
  case field name t id ts rest ht h hrest ih ihrest =>
    have hbytes : skipped .fields (.fieldBegin name t id :: (ts ++ .fieldEnd :: rest)) =
        encode (.fieldBegin name t id) ++ (skipped (.value t) ts ++ skipped .fields rest) := by
      simp only [skipped, List.flatMap_cons, List.flatMap_append, encode, List.nil_append,
        List.append_assoc]
    have hbegin : (encode (.fieldBegin name t id)).length = 3 := by
      simp only [encode, List.length_append, length_bigEndian]
    rw [hbytes] at hrounds ⊢
    simp only [depth, List.length_append, hbegin] at hrounds
    refine (reads_readFieldBegin name id ht).bind ?_
    dsimp only
    rw [if_neg ht]
    exact (ih (by rw [depth]; omega)).bind (ihrest (by rw [depth]; omega))
  case noElements t => exact .pure ()
  case element t n ts rest h hrest ih ihrest =>
    have hbytes : skipped (.elements t (n + 1)) (ts ++ rest) =
        skipped (.value t) ts ++ skipped (.elements t n) rest := List.flatMap_append
    have hpos : 0 < (skipped (.value t) ts).length := length_value_pos h
    rw [hbytes] at hrounds ⊢
    simp only [depth, List.length_append] at hrounds
    exact (ih (by rw [depth]; omega)).bind (ihrest (by rw [depth]; omega))
  case noEntries k v => exact .pure ()
  case entry k v n ks vs rest hk hv hrest ihk ihv ihrest =>
    have hbytes : skipped (.entries k v (n + 1)) (ks ++ (vs ++ rest)) =
        skipped (.value k) ks ++ (skipped (.value v) vs ++ skipped (.entries k v n) rest) := by
      simp only [skipped, List.flatMap_append]
    have hpos : 0 < (skipped (.value k) ks).length := length_value_pos hk
    have hpos' : 0 < (skipped (.value v) vs).length := length_value_pos hv
    rw [hbytes] at hrounds ⊢
    simp only [depth, List.length_append] at hrounds
    exact (ihk (by rw [depth]; omega)).bind ((ihv (by rw [depth]; omega)).bind
      (ihrest (by rw [depth]; omega)))

theorem reads_skip {type : TType} {ts : List Token} (h : Forms (.value type) ts) :
    Reads (skip type) (ts.flatMap encode) () := by
  intro rest
  refine reads_skipKind h ?_ rest
  have : (ts.flatMap encode).length ≤ (ts.flatMap encode ++ rest).length := by
    rw [List.length_append]
    exact Nat.le_add_right _ _
  rw [depth, depth, skipped]
  omega

/-! ## Skipping anything ends -/

/-- The reader ends on the input, and if it succeeds it takes something. -/
def TakesOn {α : Type} (r : Reader α) (input : Bytes) : Prop :=
  EndsOn r input ∧ ∀ a rest, r input = .ok (a, rest) → rest.length < input.length

theorem TakesOn.bind {α β : Type} {r : Reader α} {f : α → Reader β} {input : Bytes}
    (h : TakesOn r input)
    (hf : ∀ a rest, r input = .ok (a, rest) → rest.length < input.length → EndsOn (f a) rest) :
    TakesOn (r >>= f) input := by
  refine ⟨h.1.bind fun a rest hr => hf a rest hr (h.2 a rest hr), ?_⟩
  intro b rest hb
  cases hr : r input with
  | error e =>
    rw [bind_of_eq_error hr] at hb
    exact nomatch hb
  | ok q =>
    obtain ⟨a, rest'⟩ := q
    rw [bind_of_eq_ok hr] at hb
    have hlt := h.2 a rest' hr
    have hle := (hf a rest' hr hlt).1 b rest hb
    omega

theorem takesOn_readNat {n : ℕ} (hn : 0 < n) (input : Bytes) : TakesOn (readNat n) input := by
  refine ⟨ends_readNat n input, fun v rest h => ?_⟩
  have := readNat_eq_ok h
  omega

theorem takesOn_readCode {β : Type} (decode : ℕ → Option β) (input : Bytes) :
    TakesOn (readCode decode) input :=
  ⟨ends_readCode decode input, fun _ _ h => readCode_eq_ok h⟩

theorem takesOn_readFieldBegin (input : Bytes) : TakesOn readFieldBegin input := by
  refine (takesOn_readCode _ input).bind fun type rest _ _ => ?_
  split_ifs
  · exact Ends.pure _ rest
  · exact ((ends_readNat 2).bind fun _ => .pure _) rest

theorem takesOn_readSize (input : Bytes) : TakesOn readSize input := by
  refine (takesOn_readNat (by decide) input).bind fun n rest _ _ => ?_
  split_ifs
  · exact Ends.pure n rest
  · exact Ends.throw (by decide) rest

/-- What is certain of skipping: values and fields take something, elements and
entries may be none. -/
def Skips : Kind → Reader Unit → Bytes → Prop
  | .value _, r, input | .fields, r, input => TakesOn r input
  | .elements .., r, input | .entries .., r, input => EndsOn r input

/-- **Skipping ends on every input**, with rounds for as many bytes as there
are. -/
theorem skips_skipKind (rounds : ℕ) (kind : Kind) (input : Bytes)
    (h : depth kind input.length ≤ rounds) : Skips kind (skipKind rounds kind) input := by
  induction rounds generalizing kind input with
  | zero =>
    obtain ⟨r, hr⟩ := exists_round h
    exact nomatch hr
  | succ rounds ih =>
    have hnumber : ∀ n, 0 < n → TakesOn (readNat n >>= fun _ => pure ()) input := fun n hn =>
      (takesOn_readNat hn input).bind fun _ rest _ _ => Ends.pure () rest
    have helements : 2 * input.length + 2 ≤ rounds + 1 → TakesOn (do
        let t ← readCode ofTypeCode
        let size ← readSize
        skipKind rounds (.elements t size)) input := by
      intro h
      refine (takesOn_readCode _ input).bind fun t rest _ hrest => ?_
      refine (takesOn_readSize rest).1.bind fun n rest' hn => ?_
      have hlt := (takesOn_readSize rest).2 n rest' hn
      exact ih (.elements t n) rest' (by rw [depth]; omega)
    cases kind with
    | value type =>
      rw [depth] at h
      cases type with
      | stop => exact ⟨Ends.throw (by decide) input, fun _ _ h => nomatch h⟩
      | bool => exact hnumber 1 (by decide)
      | byte => exact hnumber 1 (by decide)
      | i16 => exact hnumber 2 (by decide)
      | i32 => exact hnumber 4 (by decide)
      | i64 => exact hnumber 8 (by decide)
      | double => exact hnumber 8 (by decide)
      | string =>
        exact TakesOn.bind ((takesOn_readSize input).bind fun n rest _ _ => ends_takeBytes n rest)
          fun _ rest _ _ => Ends.pure () rest
      | struct => exact ih .fields input (by rw [depth]; omega)
      | map =>
        refine (takesOn_readCode _ input).bind fun k rest _ hrest => ?_
        refine (takesOn_readCode _ rest).1.bind fun v rest' hv => ?_
        refine (takesOn_readSize rest').1.bind fun n rest'' hn => ?_
        have hlt := (takesOn_readCode _ rest).2 v rest' hv
        have hlt' := (takesOn_readSize rest').2 n rest'' hn
        exact ih (.entries k v n) rest'' (by rw [depth]; omega)
      | set => exact helements h
      | list => exact helements h
    | fields =>
      rw [depth] at h
      refine (takesOn_readFieldBegin input).bind fun field rest _ hrest => ?_
      dsimp only
      split_ifs
      · exact Ends.pure () rest
      · have hvalue : TakesOn (skipKind rounds (.value field.1)) rest :=
          ih (.value field.1) rest (by rw [depth]; omega)
        refine hvalue.1.bind fun _ rest' hr => ?_
        have hlt := hvalue.2 _ rest' hr
        exact And.left (ih .fields rest' (by rw [depth]; omega))
    | elements t n =>
      cases n with
      | zero => exact Ends.pure () input
      | succ n =>
        rw [depth] at h
        have hvalue : TakesOn (skipKind rounds (.value t)) input :=
          ih (.value t) input (by rw [depth]; omega)
        refine hvalue.1.bind fun _ rest hr => ?_
        have hlt := hvalue.2 _ rest hr
        exact ih (.elements t n) rest (by rw [depth]; omega)
    | entries k v n =>
      cases n with
      | zero => exact Ends.pure () input
      | succ n =>
        rw [depth] at h
        have hkey : TakesOn (skipKind rounds (.value k)) input :=
          ih (.value k) input (by rw [depth]; omega)
        refine hkey.1.bind fun _ rest hr => ?_
        have hlt := hkey.2 _ rest hr
        have hvalue : TakesOn (skipKind rounds (.value v)) rest :=
          ih (.value v) rest (by rw [depth]; omega)
        refine hvalue.1.bind fun _ rest' hr' => ?_
        have hlt' := hvalue.2 _ rest' hr'
        exact ih (.entries k v n) rest' (by rw [depth]; omega)

theorem ends_skip (type : TType) : Ends (skip type) := fun input =>
  And.left (skips_skipKind _ (.value type) input (Nat.le_refl _))

/-! ## The operations -/

def readMessageBegin : Reader (Bytes × MessageType × Int32) := do
  let version ← readNat 2
  if version = 0x8001 then do
    let _ ← readNat 1
    let type ← readCode ofMessageCode
    let name ← readText
    let seqid ← readNat 4
    return (name, type, (UInt32.ofNat seqid).toInt32)
  else throw (.gaveUp "BAD_VERSION")

def run : {α : Type} → Op α → Reader α
  | _, .readMessageBegin => readMessageBegin
  | _, .readFieldBegin => readFieldBegin
  | _, .readMapBegin => do
    let k ← readCode ofTypeCode
    let v ← readCode ofTypeCode
    let size ← readSize
    return (k, v, .ofNat size)
  | _, .readListBegin => do
    let t ← readCode ofTypeCode
    let size ← readSize
    return (t, .ofNat size)
  | _, .readBool => do
    let n ← readNat 1
    return n != 0
  | _, .readI32 => do
    let n ← readNat 4
    return (UInt32.ofNat n).toInt32
  | _, .readI64 => do
    let n ← readNat 8
    return (UInt64.ofNat n).toInt64
  | _, .readDouble => do
    let n ← readNat 8
    return .ofNat n
  | _, .readString => readText
  | _, .readBinary => readText
  | _, .skip type => skip type
  | _, .readMessageEnd | _, .readStructBegin | _, .readStructEnd | _, .readFieldEnd
  | _, .readMapEnd | _, .readListEnd => return ()

theorem reads_readMessageBegin {name : Bytes} (type : MessageType) (seqid : Int32)
    (h : name.length < sizeLimit) :
    Reads readMessageBegin (encode (.messageBegin name type seqid)) (name, type, seqid) := by
  have hversion : Reads (readNat 2) (bigEndian 2 0x8001) 0x8001 := reads_readNat (by decide)
  have hunused : Reads (readNat 1) (bigEndian 1 0) 0 := reads_readNat (by decide)
  have htype : Reads (readCode ofMessageCode) (bigEndian 1 (messageCode type)) type := by
    cases type <;> exact reads_readCode (by decide) rfl
  have hseqid : Reads (readNat 4) (bigEndian 4 seqid.toUInt32.toNat) seqid.toUInt32.toNat :=
    reads_readNat seqid.toUInt32.toNat_lt
  refine hversion.bind ?_
  rw [if_pos rfl]
  refine hunused.bind (htype.bind ((reads_readText h).bind (hseqid.bind_pure.congr rfl ?_)))
  rw [UInt32.ofNat_toNat, Int32.toInt32_toUInt32]

theorem reads_run {α : Type} {op : Op α} {ts : List Token} {a : α} (h : Answers op ts a) :
    Reads (run op) (ts.flatMap encode) a := by
  have hunit : Reads (pure ()) [] () := .pure ()
  cases h with
  | messageBegin type seqid h =>
    exact (reads_readMessageBegin type seqid h).congr (List.append_nil _).symm rfl
  | messageEnd => exact hunit
  | structBegin name => exact hunit
  | structEnd => exact hunit
  | fieldBegin name id h =>
    exact (reads_readFieldBegin name id h).congr (List.append_nil _).symm rfl
  | fieldStop => exact reads_fieldStop
  | fieldEnd => exact hunit
  | @mapBegin k v n h =>
    have hmap : Reads (run .readMapBegin)
        (bigEndian 1 (typeCode k) ++ (bigEndian 1 (typeCode v) ++ bigEndian 4 n)) (k, v, .ofNat n) :=
      (reads_readType k).bind ((reads_readType v).bind (reads_readSize h).bind_pure)
    refine hmap.congr ?_ rfl
    rw [List.flatMap_cons, List.flatMap_nil, List.append_nil, encode, toNat_ofNat_size h]
  | mapEnd => exact hunit
  | @listBegin t n h =>
    have hlist : Reads (run .readListBegin) (bigEndian 1 (typeCode t) ++ bigEndian 4 n) (t, .ofNat n) :=
      (reads_readType t).bind (reads_readSize h).bind_pure
    refine hlist.congr ?_ rfl
    rw [List.flatMap_cons, List.flatMap_nil, List.append_nil, encode, toNat_ofNat_size h]
  | listEnd => exact hunit
  | bool value =>
    have hvalue : Reads (readNat 1) (bigEndian 1 value.toNat) value.toNat :=
      reads_readNat (by cases value <;> decide)
    refine hvalue.bind_pure.congr (List.append_nil _).symm ?_
    cases value <;> rfl
  | i32 value =>
    have hvalue : Reads (readNat 4) (bigEndian 4 value.toUInt32.toNat) value.toUInt32.toNat :=
      reads_readNat value.toUInt32.toNat_lt
    refine hvalue.bind_pure.congr (List.append_nil _).symm ?_
    rw [UInt32.ofNat_toNat, Int32.toInt32_toUInt32]
  | i64 value =>
    have hvalue : Reads (readNat 8) (bigEndian 8 value.toUInt64.toNat) value.toUInt64.toNat :=
      reads_readNat value.toUInt64.toNat_lt
    refine hvalue.bind_pure.congr (List.append_nil _).symm ?_
    rw [UInt64.ofNat_toNat, Int64.toInt64_toUInt64]
  | double bits =>
    have hvalue : Reads (readNat 8) (bigEndian 8 bits.toNat) bits.toNat :=
      reads_readNat bits.toNat_lt
    refine hvalue.bind_pure.congr (List.append_nil _).symm ?_
    rw [UInt64.ofNat_toNat]
  | string h => exact (reads_readText h).congr (List.append_nil _).symm rfl
  | binary h => exact (reads_readText h).congr (List.append_nil _).symm rfl
  | skip h => exact reads_skip h

theorem ends_readMessageBegin : Ends readMessageBegin := by
  refine (ends_readNat 2).bind fun version => ?_
  split_ifs
  · exact (ends_readNat 1).bind fun _ => (ends_readCode _).bind fun _ => ends_readText.bind fun _ =>
      (ends_readNat 4).bind fun _ => .pure _
  · exact .throw (by decide)

theorem ends_run {α : Type} (op : Op α) : Ends (run op) := by
  have hnumber : ∀ {β : Type} (n : ℕ) (g : ℕ → β), Ends (readNat n >>= fun v => pure (g v)) :=
    fun n g => (ends_readNat n).bind fun _ => .pure _
  cases op with
  | readMessageBegin => exact ends_readMessageBegin
  | readFieldBegin => exact fun input => (takesOn_readFieldBegin input).1
  | readMapBegin =>
    exact (ends_readCode _).bind fun _ => (ends_readCode _).bind fun _ => ends_readSize.bind fun _ =>
      .pure _
  | readListBegin => exact (ends_readCode _).bind fun _ => ends_readSize.bind fun _ => .pure _
  | readBool => exact hnumber 1 _
  | readI32 => exact hnumber 4 _
  | readI64 => exact hnumber 8 _
  | readDouble => exact hnumber 8 _
  | readString => exact ends_readText
  | readBinary => exact ends_readText
  | skip type => exact ends_skip type
  | readMessageEnd | readStructBegin | readStructEnd | readFieldEnd | readMapEnd | readListEnd =>
    exact .pure ()

end Binary

/-- **The binary protocol.** -/
def binaryProtocol : Protocol where
  encode := Binary.encode
  run := Binary.run
  reads := Binary.reads_run
  ends := Binary.ends_run
  progress h := (Binary.takesOn_readFieldBegin _).2 _ _ h

end Thrift

end Supercell
