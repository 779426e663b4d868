import Supercell.Common.SortedMap
import Supercell.Thrift.Protocol

/-!
# Thrift — codecs

How a type is read and written over a protocol. Reading is into an object
that is there already, and `merge` says what comes of the object; only where
nothing of it stays behind (`Clean`) is this the same as what was written. A
codec carries the proofs, so that codecs of codecs need no others.
-/

namespace Supercell

namespace Thrift

variable {p : Protocol} {α β : Type}

/-- **How a type is read and written.** -/
structure Codec (p : Protocol) (α : Type) where
  type : TType
  /-- What the constructor makes. -/
  init : α
  /-- Reading into an object. -/
  read : α → Reader α
  write : α → List Token
  /-- What reading a value makes of the object read into. -/
  merge : α → α → α
  /-- The values agree in all that is written of them. -/
  Same : α → α → Prop
  /-- The lengths in the value are lengths on the wire. -/
  Fits : α → Prop
  /-- Nothing is set in the object that the value does not set. -/
  Clean : α → α → Prop
  type_ne : type ≠ .stop
  forms : ∀ {a}, Fits a → Forms (.value type) (write a)
  reads : ∀ o {a}, Fits a → Reads (read o) (p.text (write a)) (merge o a)
  ends : ∀ o, Ends (read o)
  same_merge_iff : ∀ {o a}, Same (merge o a) a ↔ Clean o a
  clean_init : ∀ a, Clean init a
  write_congr : ∀ {a b}, Same a b → write a = write b

namespace Codec

/-- Reading into a new object gives what was written. -/
theorem same_merge_init (c : Codec p α) (a : α) : c.Same (c.merge c.init a) a :=
  c.same_merge_iff.2 (c.clean_init a)

/-! ## One token -/

/-- A type whose values are one token each. -/
def single (p : Protocol) (type : TType) (op : Op α) (token : α → Token) (init : α)
    (Fits : α → Prop) (htype : type ≠ .stop)
    (hforms : ∀ {a}, Fits a → Forms (.value type) [token a])
    (hanswers : ∀ {a}, Fits a → Answers op [token a] a) : Codec p α where
  type := type
  init := init
  read _ := p.run op
  write a := [token a]
  merge _ a := a
  Same := Eq
  Fits := Fits
  Clean _ _ := True
  type_ne := htype
  forms := hforms
  reads _ _ h := p.reads (hanswers h)
  ends _ := p.ends op
  same_merge_iff := iff_of_true rfl trivial
  clean_init _ := trivial
  write_congr h := by rw [h]

variable (p)

def bool : Codec p Bool :=
  single p .bool .readBool .bool false (fun _ => True) (by decide) (fun _ => .bool _) fun _ => .bool _

def i32 : Codec p Int32 :=
  single p .i32 .readI32 .i32 0 (fun _ => True) (by decide) (fun _ => .i32 _) fun _ => .i32 _

def i64 : Codec p Int64 :=
  single p .i64 .readI64 .i64 0 (fun _ => True) (by decide) (fun _ => .i64 _) fun _ => .i64 _

def double : Codec p UInt64 :=
  single p .double .readDouble .double 0 (fun _ => True) (by decide) (fun _ => .double _)
    fun _ => .double _

def string : Codec p Bytes :=
  single p .string .readString .string [] (·.length < sizeLimit) (by decide) .string .string

def binary : Codec p Bytes :=
  single p .string .readBinary .binary [] (·.length < sizeLimit) (by decide) .binary .binary

theorem merge_string (o text : Bytes) : (string p).merge o text = text := rfl

theorem merge_binary (o text : Bytes) : (binary p).merge o text = text := rfl

/-- An enumeration, as its numbers. -/
def enum (init : α) (encode : α → Int32) (decode : Int32 → α) (h : ∀ a, decode (encode a) = a) :
    Codec p α where
  type := .i32
  init := init
  read _ := do
    let n ← p.run .readI32
    return decode n
  write a := [.i32 (encode a)]
  merge _ a := a
  Same := Eq
  Fits _ := True
  Clean _ _ := True
  type_ne := by decide
  forms _ := .i32 _
  reads _ a _ := (p.reads (.i32 (encode a))).bind_pure.congr rfl (h a)
  ends _ := (p.ends _).bind fun _ => .pure _
  same_merge_iff := iff_of_true rfl trivial
  clean_init _ := trivial
  write_congr h := by rw [h]

/-! A number or a text with a default of its own. -/

def i32Or (d : Int32) : Codec p Int32 := { i32 p with init := d, clean_init := fun _ => trivial }

def doubleOr (d : UInt64) : Codec p UInt64 :=
  { double p with init := d, clean_init := fun _ => trivial }

def stringOr (d : Bytes) : Codec p Bytes :=
  { string p with init := d, clean_init := fun _ => trivial }

variable {p}

/-- A type whose values are those of another one, under other names. -/
def transport (c : Codec p α) (e : α ≃ β) : Codec p β where
  type := c.type
  init := e c.init
  read o := do
    let a ← c.read (e.symm o)
    return e a
  write b := c.write (e.symm b)
  merge o b := e (c.merge (e.symm o) (e.symm b))
  Same b b' := c.Same (e.symm b) (e.symm b')
  Fits b := c.Fits (e.symm b)
  Clean o b := c.Clean (e.symm o) (e.symm b)
  type_ne := c.type_ne
  forms := c.forms
  reads _ _ h := (c.reads _ h).bind_pure
  ends _ := (c.ends _).bind fun _ => .pure _
  same_merge_iff := by
    intro o b
    rw [Equiv.symm_apply_apply]
    exact c.same_merge_iff
  clean_init b := by
    rw [Equiv.symm_apply_apply]
    exact c.clean_init _
  write_congr := c.write_congr

/-! ## Lists -/

/-- The loop over the elements of a list; each is read into a new object. -/
def readElements (c : Codec p α) : ℕ → Reader (List α)
  | 0 => return []
  | n + 1 => do
    let a ← c.read c.init
    let as ← readElements c n
    return a :: as

def readList (c : Codec p α) : Reader (List α) := do
  let (_, size) ← p.run .readListBegin
  let as ← readElements c size.toNat
  p.run .readListEnd
  return as

def writeList (c : Codec p α) (as : List α) : List Token :=
  .listBegin c.type (.ofNat as.length) :: (as.flatMap c.write ++ [.listEnd])

/-- The list is short enough for the wire, and its elements fit. -/
def FitsList (c : Codec p α) (as : List α) : Prop := as.length < sizeLimit ∧ ∀ a ∈ as, c.Fits a

theorem forms_elements (c : Codec p α) {as : List α} (h : ∀ a ∈ as, c.Fits a) :
    Forms (.elements c.type as.length) (as.flatMap c.write) := by
  induction as with
  | nil => exact .noElements _
  | cons a as ih =>
    rw [List.flatMap_cons]
    exact .element (c.forms (h a List.mem_cons_self)) (ih fun b hb => h b (List.mem_cons_of_mem a hb))

theorem reads_elements (c : Codec p α) {as : List α} (h : ∀ a ∈ as, c.Fits a) :
    Reads (c.readElements as.length) (p.text (as.flatMap c.write)) (as.map (c.merge c.init)) := by
  induction as with
  | nil => exact .pure _
  | cons a as ih =>
    rw [List.flatMap_cons, Protocol.text_append]
    exact (c.reads c.init (h a List.mem_cons_self)).bind
      (ih fun b hb => h b (List.mem_cons_of_mem a hb)).bind_pure

theorem ends_elements (c : Codec p α) (n : ℕ) : Ends (c.readElements n) := by
  induction n with
  | zero => exact .pure _
  | succ n ih => exact (c.ends _).bind fun _ => ih.bind fun _ => .pure _

/-- **Lists.** They are cleared before they are read into. -/
def list (c : Codec p α) : Codec p (List α) where
  type := .list
  init := []
  read _ := c.readList
  write := c.writeList
  merge _ as := as.map (c.merge c.init)
  Same := List.Forall₂ c.Same
  Fits := c.FitsList
  Clean _ _ := True
  type_ne := by decide
  forms h := .list h.1 (c.forms_elements h.2)
  reads _ as h := by
    have helements := c.reads_elements h.2
    rw [← toNat_ofNat_size h.1] at helements
    rw [writeList, Protocol.text_cons, Protocol.text_append]
    exact (Protocol.reads_encode (.listBegin c.type h.1)).bind
      (helements.bind (p.reads .listEnd).bind_pure)
  ends _ := (p.ends _).bind fun _ => (c.ends_elements _).bind fun _ => (p.ends _).bind fun _ => .pure _
  same_merge_iff := by
    intro o as
    refine iff_of_true ?_ trivial
    rw [List.forall₂_map_left_iff, List.forall₂_same]
    exact fun a _ => c.same_merge_init a
  clean_init _ := trivial
  write_congr := by
    intro as bs h
    have helements : as.flatMap c.write = bs.flatMap c.write := by
      induction h with
      | nil => rfl
      | cons hab _ ih => rw [List.flatMap_cons, List.flatMap_cons, c.write_congr hab, ih]
    rw [writeList, writeList, h.length_eq, helements]

/-! ## Maps -/

section Maps

variable {κ : Type} [LinearOrder κ]

/-- The loop over the entries of a map. The value of a key that is there
already is read into. -/
def readEntries (kc : Codec p κ) (vc : Codec p α) : ℕ → SortedMap κ α → Reader (SortedMap κ α)
  | 0, m => return m
  | n + 1, m => do
    let key ← kc.read kc.init
    let val ← vc.read ((m.find? key).getD vc.init)
    readEntries kc vc n (m.insert key val)

def readMap (kc : Codec p κ) (vc : Codec p α) : Reader (SortedMap κ α) := do
  let (_, _, size) ← p.run .readMapBegin
  let m ← readEntries kc vc size.toNat .empty
  p.run .readMapEnd
  return m

def writeEntry (kc : Codec p κ) (vc : Codec p α) (e : κ × α) : List Token :=
  kc.write e.1 ++ vc.write e.2

def writeMap (kc : Codec p κ) (vc : Codec p α) (m : SortedMap κ α) : List Token :=
  .mapBegin kc.type vc.type (.ofNat m.entries.length) ::
    (m.entries.flatMap (writeEntry kc vc) ++ [.mapEnd])

/-- The map is small enough for the wire, and its keys and values fit. -/
def FitsMap (kc : Codec p κ) (vc : Codec p α) (m : SortedMap κ α) : Prop :=
  m.entries.length < sizeLimit ∧ ∀ e ∈ m.entries, kc.Fits e.1 ∧ vc.Fits e.2

omit [LinearOrder κ] in
theorem forms_entries (kc : Codec p κ) (vc : Codec p α) {entries : List (κ × α)}
    (h : ∀ e ∈ entries, kc.Fits e.1 ∧ vc.Fits e.2) :
    Forms (.entries kc.type vc.type entries.length) (entries.flatMap (writeEntry kc vc)) := by
  induction entries with
  | nil => exact .noEntries _ _
  | cons e entries ih =>
    obtain ⟨hk, hv⟩ := h e List.mem_cons_self
    rw [List.flatMap_cons, writeEntry, List.append_assoc]
    exact .entry (kc.forms hk) (vc.forms hv) (ih fun e' he' => h e' (List.mem_cons_of_mem e he'))

/-- **Entries that come in the order of their keys** are appended, each to those
that came before it. -/
theorem reads_entries (kc : Codec p κ) (vc : Codec p α) (hk : ∀ o k, kc.merge o k = k)
    {entries : List (κ × α)} (hfits : ∀ e ∈ entries, kc.Fits e.1 ∧ vc.Fits e.2)
    (hsorted : entries.Pairwise fun e e' => e.1 < e'.1) (m : SortedMap κ α)
    (hbehind : ∀ e ∈ m.entries, ∀ e' ∈ entries, e.1 < e'.1) :
    ∃ m', m'.entries = m.entries ++ entries.map (fun e => (e.1, vc.merge vc.init e.2)) ∧
      Reads (readEntries kc vc entries.length m) (p.text (entries.flatMap (writeEntry kc vc))) m' := by
  induction entries generalizing m with
  | nil => exact ⟨m, (List.append_nil _).symm, .pure _⟩
  | cons e entries ih =>
    obtain ⟨hfirst, hrest⟩ := List.pairwise_cons.1 hsorted
    obtain ⟨hfitsKey, hfitsVal⟩ := hfits e List.mem_cons_self
    have hlast : ∀ e' ∈ m.entries, e'.1 < e.1 := fun e' he' => hbehind e' he' e List.mem_cons_self
    have hinsert := SortedMap.entries_insert_of_forall_lt hlast (vc.merge vc.init e.2)
    obtain ⟨m', hm', hreads⟩ := ih (fun e' he' => hfits e' (List.mem_cons_of_mem e he')) hrest
      (m.insert e.1 (vc.merge vc.init e.2)) (by
        intro e' he' e'' he''
        rw [hinsert, List.mem_append, List.mem_singleton] at he'
        rcases he' with he' | rfl
        · exact hbehind e' he' e'' (List.mem_cons_of_mem e he'')
        · exact hfirst e'' he'')
    refine ⟨m', ?_, ?_⟩
    · rw [hm', hinsert, List.map_cons, List.append_assoc, List.singleton_append]
    · have hkey : Reads (kc.read kc.init) (p.text (kc.write e.1)) e.1 :=
        (kc.reads kc.init hfitsKey).congr rfl (hk _ _)
      have hval : Reads (vc.read ((m.find? e.1).getD vc.init)) (p.text (vc.write e.2))
          (vc.merge vc.init e.2) := by
        rw [SortedMap.find?_of_forall_lt hlast]
        exact vc.reads vc.init hfitsVal
      rw [List.flatMap_cons, writeEntry, Protocol.text_append, Protocol.text_append,
        List.append_assoc]
      exact hkey.bind (hval.bind hreads)

theorem ends_entries (kc : Codec p κ) (vc : Codec p α) (n : ℕ) (m : SortedMap κ α) :
    Ends (readEntries kc vc n m) := by
  induction n generalizing m with
  | zero => exact .pure _
  | succ n ih => exact (kc.ends _).bind fun _ => (vc.ends _).bind fun _ => ih _

/-- **Maps.** They are cleared before they are read into. -/
def map (kc : Codec p κ) (vc : Codec p α) (hk : ∀ o k, kc.merge o k = k) :
    Codec p (SortedMap κ α) where
  type := .map
  init := .empty
  read _ := readMap kc vc
  write := writeMap kc vc
  merge _ m := m.mapValues (vc.merge vc.init)
  Same m m' := List.Forall₂ (fun e e' => e.1 = e'.1 ∧ vc.Same e.2 e'.2) m.entries m'.entries
  Fits := FitsMap kc vc
  Clean _ _ := True
  type_ne := by decide
  forms h := .map h.1 (forms_entries kc vc h.2)
  reads _ m h := by
    obtain ⟨m', hm', hentries⟩ := reads_entries kc vc hk h.2 m.sorted .empty
      fun e he => absurd he List.not_mem_nil
    obtain rfl : m' = m.mapValues (vc.merge vc.init) := SortedMap.ext hm'
    rw [← toNat_ofNat_size h.1] at hentries
    rw [writeMap, Protocol.text_cons, Protocol.text_append]
    exact (Protocol.reads_encode (.mapBegin kc.type vc.type h.1)).bind
      (hentries.bind (p.reads .mapEnd).bind_pure)
  ends _ := (p.ends _).bind fun _ => (ends_entries kc vc _ _).bind fun _ =>
    (p.ends _).bind fun _ => .pure _
  same_merge_iff := by
    intro o m
    refine iff_of_true ?_ trivial
    rw [SortedMap.entries_mapValues, List.forall₂_map_left_iff, List.forall₂_same]
    exact fun e _ => ⟨rfl, vc.same_merge_init e.2⟩
  clean_init _ := trivial
  write_congr := by
    intro m m' h
    have hentries : m.entries.flatMap (writeEntry kc vc) = m'.entries.flatMap (writeEntry kc vc) := by
      generalize m.entries = entries, m'.entries = entries' at h
      induction h with
      | nil => rfl
      | cons he _ ih =>
        rw [List.flatMap_cons, List.flatMap_cons, writeEntry, writeEntry, he.1,
          vc.write_congr he.2, ih]
    rw [writeMap, writeMap, h.length_eq, hentries]

end Maps

end Codec

end Thrift

end Supercell
