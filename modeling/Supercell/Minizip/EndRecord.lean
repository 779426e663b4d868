import Supercell.Minizip.Search

/-!
# Minizip — closing and opening an archive

What is written behind the files of an archive when it is closed, and how the
directory is found when the archive is opened. An archive of four gigabytes
or more has a second record and a locator that leads to it.
-/

namespace Supercell

namespace Minizip

/-! ## Numbers -/

/-- A number with its least significant byte first. -/
def littleEndian : ℕ → ℕ → Bytes
  | 0, _ => []
  | n + 1, x => UInt8.ofNat (x % 256) :: littleEndian n (x / 256)

def ofLittleEndian : Bytes → ℕ
  | [] => 0
  | b :: bytes => b.toNat + 256 * ofLittleEndian bytes

/-- A difference of numbers of 64 bits. -/
def subtract (x n : ℕ) : ℕ := (x + (2 ^ 64 - n)) % 2 ^ 64

theorem subtract_eq {x n : ℕ} (hx : x < 2 ^ 64) (hn : n ≤ x) : subtract x n = x - n := by
  unfold subtract
  omega

/-- `putValue`: a number that does not fit is written as ones. -/
def putValue (x nbByte : ℕ) : Bytes :=
  if x < 256 ^ nbByte then littleEndian nbByte x else List.replicate nbByte 0xff

def putValues (fields : List (ℕ × ℕ)) : Bytes := fields.flatMap fun f => putValue f.1 f.2

/-- `getShort`, `getLong` and `getLong64` one after the other. -/
def getValues : List ℕ → Bytes → Option (List ℕ)
  | [], _ => some []
  | n :: ns, bytes =>
    if n ≤ bytes.length then
      (getValues ns (bytes.drop n)).map (ofLittleEndian (bytes.take n) :: ·)
    else none

@[simp] theorem length_littleEndian (n x : ℕ) : (littleEndian n x).length = n := by
  induction n generalizing x with
  | zero => rfl
  | succ n ih => rw [littleEndian, List.length_cons, ih]

theorem ofLittleEndian_littleEndian {n x : ℕ} (h : x < 256 ^ n) :
    ofLittleEndian (littleEndian n x) = x := by
  induction n generalizing x with
  | zero =>
    rw [Nat.pow_zero] at h
    rw [littleEndian, ofLittleEndian]
    omega
  | succ n ih =>
    have hdiv : x / 256 < 256 ^ n := by
      rw [Nat.div_lt_iff_lt_mul (by decide), ← Nat.pow_succ]
      exact h
    rw [littleEndian, ofLittleEndian, ih hdiv, UInt8.toNat_ofNat', Nat.mod_mod]
    omega

@[simp] theorem length_putValue (x n : ℕ) : (putValue x n).length = n := by
  unfold putValue
  split_ifs
  · exact length_littleEndian n x
  · exact List.length_replicate

theorem putValues_cons (f : ℕ × ℕ) (fields : List (ℕ × ℕ)) :
    putValues (f :: fields) = putValue f.1 f.2 ++ putValues fields := List.flatMap_cons

theorem length_putValues (fields : List (ℕ × ℕ)) :
    (putValues fields).length = (fields.map Prod.snd).sum := by
  induction fields with
  | nil => rfl
  | cons f fields ih =>
    rw [putValues_cons, List.length_append, length_putValue, ih, List.map_cons, List.sum_cons]

/-- **What was written is read back**, where it fits. -/
theorem getValues_putValues {fields : List (ℕ × ℕ)} (h : ∀ f ∈ fields, f.1 < 256 ^ f.2)
    (rest : Bytes) :
    getValues (fields.map Prod.snd) (putValues fields ++ rest) = some (fields.map Prod.fst) := by
  induction fields with
  | nil => rfl
  | cons f fields ih =>
    have hf := h f List.mem_cons_self
    have hvalue : putValue f.1 f.2 = littleEndian f.2 f.1 := if_pos hf
    have hlength : f.2 = (littleEndian f.2 f.1).length := (length_littleEndian _ _).symm
    have htake : (littleEndian f.2 f.1 ++ (putValues fields ++ rest)).take f.2 =
        littleEndian f.2 f.1 := List.take_left' hlength.symm
    have hdrop : (littleEndian f.2 f.1 ++ (putValues fields ++ rest)).drop f.2 =
        putValues fields ++ rest := List.drop_left' hlength.symm
    rw [putValues_cons, hvalue, List.append_assoc, List.map_cons, getValues, htake, hdrop,
      ih fun g hg => h g (List.mem_cons_of_mem _ hg), ofLittleEndian_littleEndian hf]
    rw [if_pos (by rw [List.length_append, length_littleEndian]; exact Nat.le_add_right _ _)]
    rfl

/-! ## Closing -/

/-- An archive that is written, between two files: what is in front of the place
that is written to and what is behind it, and the directory so far, in blocks. -/
@[ext] structure ZipFile where
  written : Bytes
  behind : Bytes
  centralDir : List Bytes
  addPosition : ℕ
  numberEntry : ℕ
  globalcomment : Option Bytes

/-- `Write_Zip64EndOfCentralDirectoryRecord`. -/
def zip64Record (zi : ZipFile) (size_centraldir centraldir_pos_inzip : ℕ) : List (ℕ × ℕ) :=
  [(0x06064b50, 4), (44, 8), (45, 2), (45, 2), (0, 4), (0, 4), (zi.numberEntry, 8),
    (zi.numberEntry, 8), (size_centraldir, 8), (subtract centraldir_pos_inzip zi.addPosition, 8)]

/-- `Write_Zip64EndOfCentralDirectoryLocator`. -/
def zip64Locator (zi : ZipFile) (zip64eocd_pos_inzip : ℕ) : List (ℕ × ℕ) :=
  [(0x07064b50, 4), (0, 4), (subtract zip64eocd_pos_inzip zi.addPosition, 8), (1, 4)]

/-- `Write_EndOfCentralDirectoryRecord`. -/
def endRecord (zi : ZipFile) (size_centraldir centraldir_pos_inzip : ℕ) : List (ℕ × ℕ) :=
  let entries := if 0xffff ≤ zi.numberEntry then 0xffff else zi.numberEntry
  let pos := subtract centraldir_pos_inzip zi.addPosition
  [(0x06054b50, 4), (0, 2), (0, 2), (entries, 2), (entries, 2), (size_centraldir, 4),
    (if 0xffffffff ≤ pos then 0xffffffff else pos, 4)]

/-- The text of a C string: what is in front of its first zero. -/
def cString (s : Bytes) : Bytes := s.takeWhile fun b => b ≠ 0

/-- `Write_GlobalComment`, of no text where there is none. -/
def writeGlobalComment (global_comment : Bytes) : Bytes :=
  let size_global_comment := (cString global_comment).length % 2 ^ 32
  putValue size_global_comment 2 ++ global_comment.take size_global_comment

/-- The directory, as its blocks are written. -/
def ZipFile.directory (zi : ZipFile) : Bytes := zi.centralDir.flatten

/-- The comment: that of the archive that was opened, if there is no other. -/
def ZipFile.comment (zi : ZipFile) (global_comment : Option Bytes) : Bytes :=
  cString ((global_comment.or zi.globalcomment).getD [])

/-- What is written behind the directory. -/
def closing (zi : ZipFile) (global_comment : Option Bytes) : Bytes :=
  let size_centraldir := (zi.centralDir.map List.length).sum
  let centraldir_pos_inzip := zi.written.length
  (if 0xffffffff ≤ subtract centraldir_pos_inzip zi.addPosition then
      putValues (zip64Record zi size_centraldir centraldir_pos_inzip) ++
        putValues (zip64Locator zi (centraldir_pos_inzip + size_centraldir))
    else []) ++
  (putValues (endRecord zi size_centraldir centraldir_pos_inzip) ++
    writeGlobalComment ((global_comment.or zi.globalcomment).getD []))

/-- What is left of what stood behind, with no more written over it. -/
def left (zi : ZipFile) (global_comment : Option Bytes) : Bytes :=
  zi.behind.drop (zi.directory ++ closing zi global_comment).length

/-- **`zipClose`**: the file that it leaves. -/
def zipClose (zi : ZipFile) (global_comment : Option Bytes) : Bytes :=
  zi.written ++ zi.directory ++ closing zi global_comment ++ left zi global_comment

/-! ## Opening -/

def endSignature : Bytes := [0x50, 0x4b, 0x05, 0x06]

def locatorSignature : Bytes := [0x50, 0x4b, 0x06, 0x07]

/-- `SearchCentralDir64`. -/
def searchCentralDir64 (file : Bytes) : ℕ :=
  let uPosFound := searchSignature locatorSignature file
  if uPosFound = 0 then 0
  else
    match getValues [4, 4, 8, 4] (file.drop uPosFound) with
    | some [_, disk, relativeOffset, disks] =>
      if disk ≠ 0 ∨ disks ≠ 1 then 0
      else
        match getValues [4] (file.drop relativeOffset) with
        | some [signature] => if signature ≠ 0x06064b50 then 0 else relativeOffset
        | _ => 0
    | _ => 0

/-- What is known of an archive that was opened. -/
structure UnzFile where
  isZip64 : Bool
  numberEntry : ℕ
  sizeComment : ℕ
  byteBefore : ℕ
  centralPos : ℕ
  sizeCentralDir : ℕ
  offsetCentralDir : ℕ
  deriving DecidableEq

/-- The last checks of `unzOpenInternal`. -/
def opened (isZip64 : Bool) (central_pos number_disk number_disk_with_CD number_entry
    number_entry_CD size_central_dir offset_central_dir size_comment : ℕ) : Option UnzFile :=
  if number_entry_CD ≠ number_entry ∨ number_disk_with_CD ≠ 0 ∨ number_disk ≠ 0 then none
  else
    let directory_end := (offset_central_dir + size_central_dir) % 2 ^ 64
    if central_pos < directory_end then none
    else some ⟨isZip64, number_entry, size_comment, central_pos - directory_end, central_pos,
      size_central_dir, offset_central_dir⟩

/-- The second record of a large archive. -/
def readZip64Record (file : Bytes) (central_pos : ℕ) : Option UnzFile :=
  match getValues [4, 8, 2, 2, 4, 4, 8, 8, 8, 8] (file.drop central_pos) with
  | some [_, _, _, _, number_disk, number_disk_with_CD, number_entry, number_entry_CD, size,
      offset] =>
    opened true central_pos number_disk number_disk_with_CD number_entry number_entry_CD size
      offset 0
  | _ => none

/-- The record at the end of the directory. -/
def readEndRecord (file : Bytes) (central_pos : ℕ) : Option UnzFile :=
  match getValues [4, 2, 2, 2, 2, 4, 4, 2] (file.drop central_pos) with
  | some [_, number_disk, number_disk_with_CD, number_entry, number_entry_CD, size, offset,
      size_comment] =>
    opened false central_pos number_disk number_disk_with_CD number_entry number_entry_CD size
      offset size_comment
  | _ => none

/-- **`unzOpenInternal`**, up to the first file. -/
def unzOpenInternal (file : Bytes) : Option UnzFile :=
  let central_pos := searchCentralDir64 file
  if central_pos ≠ 0 then readZip64Record file central_pos
  else
    let central_pos := searchSignature endSignature file
    if central_pos = 0 then none else readEndRecord file central_pos

/-- `unzGetGlobalComment`, with a buffer of a given size. -/
def unzGetGlobalComment (file : Bytes) (s : UnzFile) (uSizeBuf : ℕ) : Option Bytes :=
  let uReadThis := min uSizeBuf s.sizeComment
  let szComment := (file.drop (s.centralPos + 22)).take uReadThis
  if szComment.length = uReadThis then some szComment else none

/-! ## Archives that were closed are found again -/

section Found

variable {zi : ZipFile} {global_comment : Option Bytes}

/-- Where the first record behind the directory stands. -/
def ZipFile.endPos (zi : ZipFile) : ℕ := zi.written.length + zi.directory.length

/-- Where the directory stands, from the start of the archive. -/
def ZipFile.offset (zi : ZipFile) : ℕ := subtract zi.written.length zi.addPosition

theorem ZipFile.offset_eq (hlength : zi.written.length < 2 ^ 64)
    (hadd : zi.addPosition ≤ zi.written.length) :
    zi.offset = zi.written.length - zi.addPosition := subtract_eq hlength hadd

theorem ZipFile.sum_blocks (zi : ZipFile) :
    (zi.centralDir.map List.length).sum = zi.directory.length := List.length_flatten.symm

theorem notMem_cString (s : Bytes) : 0 ∉ cString s := by
  intro hmem
  have hne := List.mem_takeWhile_imp hmem
  simp at hne

theorem cString_eq_self {s : Bytes} (h : 0 ∉ s) : cString s = s :=
  List.takeWhile_eq_self_iff.2 fun b hb => decide_eq_true fun hzero : b = 0 => h (hzero ▸ hb)

theorem take_cString {s : Bytes} {n : ℕ} (hn : n ≤ (cString s).length) :
    (cString s).take n = s.take n := by
  obtain ⟨rest, hrest⟩ : cString s <+: s := List.takeWhile_prefix _
  rw [← List.take_append_of_le_length hn, hrest]

/-- Nothing behind the first zero is written. -/
theorem writeGlobalComment_cString (global_comment : Bytes) :
    writeGlobalComment (cString global_comment) = writeGlobalComment global_comment := by
  dsimp only [writeGlobalComment]
  rw [cString_eq_self (notMem_cString global_comment), take_cString (Nat.mod_le _ _)]

theorem writeGlobalComment_eq {global_comment : Bytes}
    (h : (cString global_comment).length < 2 ^ 32) :
    writeGlobalComment global_comment =
      putValues [((cString global_comment).length, 2)] ++ cString global_comment := by
  dsimp only [writeGlobalComment]
  rw [Nat.mod_eq_of_lt h, ← take_cString le_rfl, List.take_length, putValues,
    List.flatMap_singleton]

theorem searchSignature_eq_zero {signature file : Bytes}
    (h : ∀ pos, ¬ Reach signature file pos) : searchSignature signature file = 0 := by
  rw [searchSignature_eq]
  exact Nat.findGreatest_eq_zero_iff.2 fun {pos} _ _ => h pos

/-- **Where the search ends**: at the last signature, if it is near enough to the
end of the file and not at its start. -/
theorem searchSignature_eq_iff {signature file : Bytes} {pos : ℕ} (hpos : pos ≠ 0)
    (hsignature : signature.length = 4) :
    searchSignature signature file = pos ↔ Reach signature file pos ∧
      ∀ pos', pos < pos' → (file.drop pos').take 4 ≠ signature := by
  rw [searchSignature_eq]
  constructor
  · intro h
    have hreach := Nat.findGreatest_of_ne_zero h hpos
    refine ⟨hreach, fun pos' hlt hmatch => ?_⟩
    have hlength := congrArg List.length hmatch
    rw [List.length_take, List.length_drop, hsignature] at hlength
    have hinside : pos' + 4 ≤ file.length := by omega
    refine Nat.findGreatest_is_greatest (P := Reach signature file) (h ▸ hlt) (by omega) ?_
    exact ⟨by omega, hinside, by have := hreach.2.2.1; omega, hmatch⟩
  · rintro ⟨hreach, hlast⟩
    exact Nat.findGreatest_eq_iff.2 ⟨by have := hreach.2.1; omega, fun _ => hreach,
      fun {pos'} hlt _ h => hlast pos' hlt h.2.2.2⟩

theorem endRecord_fits {size_centraldir centraldir_pos_inzip : ℕ} (hsize : size_centraldir < 2 ^ 32) :
    ∀ f ∈ endRecord zi size_centraldir centraldir_pos_inzip, f.1 < 256 ^ f.2 := by
  intro f hf
  simp only [endRecord, List.mem_cons, List.not_mem_nil, or_false] at hf
  rcases hf with rfl | rfl | rfl | rfl | rfl | rfl | rfl <;> dsimp only
  · decide
  · decide
  · decide
  · split_ifs <;> omega
  · split_ifs <;> omega
  · omega
  · split_ifs <;> omega

theorem opened_eq_some {isZip64 : Bool} {pos disk diskCD n nCD size offset comment : ℕ}
    {s : UnzFile} (h : opened isZip64 pos disk diskCD n nCD size offset comment = some s) :
    s.centralPos = pos := by
  rw [opened] at h
  dsimp only at h
  split_ifs at h
  rw [← Option.some.inj h]

/-- An archive below four gigabytes. -/
theorem zipClose_eq (hpos : zi.offset < 0xffffffff)
    (hcomment : (zi.comment global_comment).length < 2 ^ 16) :
    zipClose zi global_comment = (zi.written ++ zi.directory) ++
      (putValues (endRecord zi zi.directory.length zi.written.length ++
          [((zi.comment global_comment).length, 2)]) ++
        (zi.comment global_comment ++ left zi global_comment)) := by
  have hrecord : putValues (endRecord zi zi.directory.length zi.written.length ++
      [((zi.comment global_comment).length, 2)]) =
      putValues (endRecord zi zi.directory.length zi.written.length) ++
        putValues [((zi.comment global_comment).length, 2)] := List.flatMap_append
  have hbelow : ¬ 0xffffffff ≤ subtract zi.written.length zi.addPosition := Nat.not_le.2 hpos
  rw [zipClose, closing, zi.sum_blocks, if_neg hbelow, List.nil_append,
    writeGlobalComment_eq (hcomment.trans (by decide)), hrecord]
  simp only [List.append_assoc, ZipFile.comment]

theorem length_zipClose (hpos : zi.offset < 0xffffffff)
    (hcomment : (zi.comment global_comment).length < 2 ^ 16) :
    (zipClose zi global_comment).length = zi.endPos + 22 +
      (zi.comment global_comment).length + (left zi global_comment).length := by
  rw [zipClose_eq hpos hcomment]
  simp only [List.length_append, length_putValues, ZipFile.endPos]
  simp [endRecord]
  omega

theorem drop_endPos (hpos : zi.offset < 0xffffffff)
    (hcomment : (zi.comment global_comment).length < 2 ^ 16) :
    (zipClose zi global_comment).drop zi.endPos =
      putValues (endRecord zi zi.directory.length zi.written.length ++
          [((zi.comment global_comment).length, 2)]) ++
        (zi.comment global_comment ++ left zi global_comment) := by
  rw [zipClose_eq hpos hcomment]
  exact List.drop_left' List.length_append

theorem reach_endPos (hpos : zi.offset < 0xffffffff)
    (hcomment : (zi.comment global_comment).length < 2 ^ 16) :
    Reach endSignature (zipClose zi global_comment) zi.endPos ↔ 0 < zi.endPos ∧
      (zi.comment global_comment).length + (left zi global_comment).length + 22 ≤ 0xffff := by
  have hlength := length_zipClose hpos hcomment
  have hmatch : ((zipClose zi global_comment).drop zi.endPos).take 4 = endSignature := by
    rw [drop_endPos hpos hcomment]
    rfl
  constructor
  · rintro ⟨hfirst, -, hnear, -⟩
    exact ⟨hfirst, by omega⟩
  · rintro ⟨hfirst, hnear⟩
    exact ⟨hfirst, by omega, by omega, hmatch⟩

/-- What is known of an archive that was closed. -/
def ZipFile.reopened (zi : ZipFile) (global_comment : Option Bytes) : UnzFile where
  isZip64 := false
  numberEntry := min zi.numberEntry 0xffff
  sizeComment := (zi.comment global_comment).length
  byteBefore := zi.addPosition
  centralPos := zi.endPos
  sizeCentralDir := zi.directory.length
  offsetCentralDir := zi.offset

/-- **The record is read as it was written**, wherever it was found. -/
theorem readEndRecord_zipClose (hlength : zi.written.length < 2 ^ 64)
    (hadd : zi.addPosition ≤ zi.written.length) (hpos : zi.offset < 0xffffffff)
    (hsize : zi.directory.length < 2 ^ 32)
    (hcomment : (zi.comment global_comment).length < 2 ^ 16) :
    readEndRecord (zipClose zi global_comment) zi.endPos = some (zi.reopened global_comment) := by
  have hfits : ∀ f ∈ endRecord zi zi.directory.length zi.written.length ++
      [((zi.comment global_comment).length, 2)], f.1 < 256 ^ f.2 := by
    intro f hf
    rcases List.mem_append.1 hf with hf | hf
    · exact endRecord_fits hsize f hf
    · rw [List.mem_singleton.1 hf]
      exact hcomment
  have hread := getValues_putValues hfits (zi.comment global_comment ++ left zi global_comment)
  rw [← drop_endPos hpos hcomment] at hread
  have hvalues : getValues [4, 2, 2, 2, 2, 4, 4, 2]
      ((zipClose zi global_comment).drop zi.endPos) = _ := hread
  have hentries : (if 0xffff ≤ zi.numberEntry then 0xffff else zi.numberEntry) =
      min zi.numberEntry 0xffff := by split_ifs <;> omega
  have hoffset := ZipFile.offset_eq hlength hadd
  have hend : (zi.offset + zi.directory.length) % 2 ^ 64 = zi.offset + zi.directory.length :=
    Nat.mod_eq_of_lt (by omega)
  have hinside : ¬ zi.endPos < zi.offset + zi.directory.length := by
    unfold ZipFile.endPos
    omega
  have hbefore : zi.endPos - (zi.offset + zi.directory.length) = zi.addPosition := by
    unfold ZipFile.endPos
    omega
  have hbelow : ¬ 0xffffffff ≤ subtract zi.written.length zi.addPosition := Nat.not_le.2 hpos
  rw [readEndRecord, hvalues]
  simp only [endRecord, List.cons_append, List.nil_append, List.map_cons, List.map_nil]
  rw [opened, if_neg (by simp), if_neg hbelow, hentries]
  change (let directory_end := (zi.offset + zi.directory.length) % 2 ^ 64
    if zi.endPos < directory_end then none
    else some (UnzFile.mk _ _ _ (zi.endPos - directory_end) _ _ zi.offset)) = _
  rw [hend]
  dsimp only
  rw [if_neg hinside, hbefore]
  rfl

theorem readEndRecord_eq_some {file : Bytes} {pos : ℕ} {s : UnzFile}
    (h : readEndRecord file pos = some s) : s.centralPos = pos := by
  rw [readEndRecord] at h
  split at h
  · exact opened_eq_some h
  · cases h

theorem searchCentralDir64_eq_zero {file : Bytes}
    (h : ∀ pos, ¬ Reach locatorSignature file pos) : searchCentralDir64 file = 0 := by
  rw [searchCentralDir64, searchSignature_eq_zero h]
  rfl

theorem unzOpen_zipClose (hlength : zi.written.length < 2 ^ 64)
    (hadd : zi.addPosition ≤ zi.written.length) (hpos : zi.offset < 0xffffffff)
    (hsize : zi.directory.length < 2 ^ 32)
    (hcomment : (zi.comment global_comment).length < 2 ^ 16)
    (hlocator : ∀ pos, ¬ Reach locatorSignature (zipClose zi global_comment) pos) :
    unzOpenInternal (zipClose zi global_comment) = some (zi.reopened global_comment) ↔
      0 < zi.endPos ∧
      (zi.comment global_comment).length + (left zi global_comment).length + 22 ≤ 0xffff ∧
      ∀ pos, zi.endPos < pos → ((zipClose zi global_comment).drop pos).take 4 ≠ endSignature := by
  rw [unzOpenInternal, searchCentralDir64_eq_zero hlocator]
  dsimp only
  rw [if_neg (fun h => h rfl)]
  constructor
  · intro h
    split_ifs at h with hzero
    have hend : zi.endPos = searchSignature endSignature (zipClose zi global_comment) :=
      readEndRecord_eq_some h
    have hne : zi.endPos ≠ 0 := hend ▸ hzero
    obtain ⟨hreach, hlast⟩ := (searchSignature_eq_iff hne rfl).1 hend.symm
    obtain ⟨hfirst, hnear⟩ := (reach_endPos hpos hcomment).1 hreach
    exact ⟨hfirst, hnear, hlast⟩
  · rintro ⟨hfirst, hnear, hlast⟩
    have hfound : searchSignature endSignature (zipClose zi global_comment) = zi.endPos :=
      (searchSignature_eq_iff hfirst.ne' rfl).2
        ⟨(reach_endPos hpos hcomment).2 ⟨hfirst, hnear⟩, hlast⟩
    rw [hfound, if_neg hfirst.ne', readEndRecord_zipClose hlength hadd hpos hsize
      hcomment]

theorem drop_comment (hpos : zi.offset < 0xffffffff)
    (hcomment : (zi.comment global_comment).length < 2 ^ 16) :
    (zipClose zi global_comment).drop (zi.endPos + 22) =
      zi.comment global_comment ++ left zi global_comment := by
  rw [← List.drop_drop, drop_endPos hpos hcomment]
  exact List.drop_left' (by rw [length_putValues]; rfl)

/-- The comment is read back, as much of it as fits into the buffer. -/
theorem unzGetGlobalComment_zipClose (hpos : zi.offset < 0xffffffff)
    (hcomment : (zi.comment global_comment).length < 2 ^ 16) (uSizeBuf : ℕ) :
    unzGetGlobalComment (zipClose zi global_comment) (zi.reopened global_comment) uSizeBuf =
      some ((zi.comment global_comment).take uSizeBuf) := by
  have htake : (zi.comment global_comment ++ left zi global_comment).take
      (min uSizeBuf (zi.comment global_comment).length) =
      (zi.comment global_comment).take uSizeBuf := by
    rw [List.take_append_of_le_length (Nat.min_le_right _ _)]
    exact List.take_eq_take_min.symm
  have hend : (zi.reopened global_comment).centralPos = zi.endPos := rfl
  have hsize : (zi.reopened global_comment).sizeComment = (zi.comment global_comment).length := rfl
  rw [unzGetGlobalComment, hend, hsize, drop_comment hpos hcomment, htake,
    if_pos List.length_take]

/-- **What was closed is opened again**, with its own directory and comment, if and
only if the record is the last one of the file, not at its start, and in its
last 64K. What was in front of the archive is known too. -/
theorem zipClose_reopened (hlength : zi.written.length < 2 ^ 64)
    (hadd : zi.addPosition ≤ zi.written.length) (hpos : zi.offset < 0xffffffff)
    (hsize : zi.directory.length < 2 ^ 32)
    (hcomment : (zi.comment global_comment).length < 2 ^ 16)
    (hlocator : ∀ pos, ¬ Reach locatorSignature (zipClose zi global_comment) pos) :
    (unzOpenInternal (zipClose zi global_comment) = some (zi.reopened global_comment) ↔
      0 < zi.endPos ∧
      (zi.comment global_comment).length + (left zi global_comment).length + 22 ≤ 0xffff ∧
      ∀ pos, zi.endPos < pos → ((zipClose zi global_comment).drop pos).take 4 ≠ endSignature) ∧
    ∀ uSizeBuf, unzGetGlobalComment (zipClose zi global_comment) (zi.reopened global_comment)
      uSizeBuf = some ((zi.comment global_comment).take uSizeBuf) :=
  ⟨unzOpen_zipClose hlength hadd hpos hsize hcomment hlocator,
    unzGetGlobalComment_zipClose hpos hcomment⟩

/-- An archive with something in front of it, over a longer one. -/
def appendedArchive : ZipFile where
  written := [7, 7, 1, 2]
  behind := List.replicate 30 0x50
  centralDir := [[9], [8]]
  addPosition := 2
  numberEntry := 1
  globalcomment := some [65]

/-- What does not stand in the file does not stand behind its end. -/
theorem drop_ne_of_forall_lt {signature file : Bytes} {pos : ℕ} (hsignature : signature ≠ [])
    (h : ∀ pos' < file.length, pos < pos' → (file.drop pos').take 4 ≠ signature) :
    ∀ pos', pos < pos' → (file.drop pos').take 4 ≠ signature := by
  intro pos' hlt
  by_cases hinside : pos' < file.length
  · exact h pos' hinside hlt
  · rw [List.drop_eq_nil_of_le (Nat.not_lt.1 hinside), List.take_nil]
    exact hsignature.symm

theorem not_reach_of_forall_lt {signature file : Bytes}
    (h : ∀ pos < file.length, ¬ Reach signature file pos) : ∀ pos, ¬ Reach signature file pos :=
  fun pos hpos => h pos (by have := hpos.2.1; omega) hpos

theorem zipClose_reopened_appended :
    unzOpenInternal (zipClose appendedArchive none) = some (appendedArchive.reopened none) ∧
      (appendedArchive.reopened none).byteBefore = 2 ∧ (left appendedArchive none).length = 5 :=
  ⟨(zipClose_reopened (by decide) (by decide) (by decide) (by decide) (by decide)
    (not_reach_of_forall_lt (by decide))).1.2
    ⟨by decide, by decide, drop_ne_of_forall_lt (by decide) (by decide)⟩, rfl, by decide⟩

/-! ## Large archives -/

/-- An archive of four gigabytes or more. -/
theorem zipClose_eq64 (hpos : 0xffffffff ≤ zi.offset) :
    zipClose zi global_comment = (zi.written ++ zi.directory) ++
      (putValues (zip64Record zi zi.directory.length zi.written.length) ++
        (putValues (zip64Locator zi zi.endPos) ++
          (putValues (endRecord zi zi.directory.length zi.written.length) ++
            (writeGlobalComment ((global_comment.or zi.globalcomment).getD []) ++
              left zi global_comment)))) := by
  have habove : 0xffffffff ≤ subtract zi.written.length zi.addPosition := hpos
  rw [zipClose, closing, zi.sum_blocks, if_pos habove]
  simp only [List.append_assoc, ZipFile.endPos]

theorem drop_endPos64 (hpos : 0xffffffff ≤ zi.offset) :
    (zipClose zi global_comment).drop zi.endPos =
      putValues (zip64Record zi zi.directory.length zi.written.length) ++
        (putValues (zip64Locator zi zi.endPos) ++
          (putValues (endRecord zi zi.directory.length zi.written.length) ++
            (writeGlobalComment ((global_comment.or zi.globalcomment).getD []) ++
              left zi global_comment))) := by
  rw [zipClose_eq64 hpos]
  exact List.drop_left' List.length_append

theorem drop_locator (hpos : 0xffffffff ≤ zi.offset) :
    (zipClose zi global_comment).drop (zi.endPos + 56) =
      putValues (zip64Locator zi zi.endPos) ++
        (putValues (endRecord zi zi.directory.length zi.written.length) ++
          (writeGlobalComment ((global_comment.or zi.globalcomment).getD []) ++
              left zi global_comment)) := by
  rw [← List.drop_drop, drop_endPos64 hpos]
  exact List.drop_left' (by rw [length_putValues]; rfl)

theorem length_zipClose64 (hpos : 0xffffffff ≤ zi.offset)
    (hcomment : (zi.comment global_comment).length < 2 ^ 32) :
    (zipClose zi global_comment).length = zi.endPos + 56 + 42 +
      (zi.comment global_comment).length + (left zi global_comment).length := by
  have hwritten : writeGlobalComment ((global_comment.or zi.globalcomment).getD []) =
      putValues [((zi.comment global_comment).length, 2)] ++ zi.comment global_comment :=
    writeGlobalComment_eq hcomment
  rw [zipClose_eq64 hpos, hwritten]
  simp only [List.length_append, length_putValues, ZipFile.endPos]
  simp [zip64Record, zip64Locator, endRecord]
  omega

/-- **The locator is found**, where no other one follows it. -/
theorem search_locator (hpos : 0xffffffff ≤ zi.offset)
    (hcomment : (zi.comment global_comment).length + (left zi global_comment).length + 42 ≤ 0xffff)
    (hlast : ∀ pos, 56 < pos →
      ((closing zi global_comment ++ left zi global_comment).drop pos).take 4 ≠
        locatorSignature) :
    searchSignature locatorSignature (zipClose zi global_comment) = zi.endPos + 56 := by
  have hlength := @length_zipClose64 zi global_comment hpos (by omega)
  refine (searchSignature_eq_iff (by omega) rfl).2
    ⟨⟨by omega, by omega, by omega, ?_⟩, fun pos hlt => ?_⟩
  · rw [drop_locator hpos]
    rfl
  · have hbehind : (zipClose zi global_comment).drop (zi.endPos + (pos - zi.endPos)) =
        (closing zi global_comment ++ left zi global_comment).drop (pos - zi.endPos) := by
      rw [← List.drop_drop, zipClose, List.append_assoc]
      exact congrArg (List.drop _) (List.drop_left' List.length_append)
    have hback := hlast (pos - zi.endPos) (by omega)
    rw [← hbehind, Nat.add_sub_cancel' (by omega)] at hback
    exact hback

theorem zip64Locator_fits :
    ∀ f ∈ zip64Locator zi zi.endPos, f.1 < 256 ^ f.2 := by
  intro f hf
  simp only [zip64Locator, List.mem_cons, List.not_mem_nil, or_false] at hf
  rcases hf with rfl | rfl | rfl | rfl <;> dsimp only [subtract] <;> omega

theorem zip64Record_fits (hentries : zi.numberEntry < 2 ^ 64) (hend : zi.endPos < 2 ^ 64) :
    ∀ f ∈ zip64Record zi zi.directory.length zi.written.length, f.1 < 256 ^ f.2 := by
  intro f hf
  unfold ZipFile.endPos at hend
  simp only [zip64Record, List.mem_cons, List.not_mem_nil, or_false] at hf
  rcases hf with rfl | rfl | rfl | rfl | rfl | rfl | rfl | rfl | rfl | rfl <;>
    dsimp only [subtract] <;> omega

/-- **The locator leads to the record** in front of it. -/
theorem searchCentralDir64_zipClose (hadd : zi.addPosition = 0)
    (hpos : 0xffffffff ≤ zi.offset) (hend : zi.endPos < 2 ^ 64)
    (hcomment : (zi.comment global_comment).length + (left zi global_comment).length + 42 ≤ 0xffff)
    (hlast : ∀ pos, 56 < pos →
      ((closing zi global_comment ++ left zi global_comment).drop pos).take 4 ≠
        locatorSignature) :
    searchCentralDir64 (zipClose zi global_comment) = zi.endPos := by
  have hlocator : getValues [4, 4, 8, 4] ((zipClose zi global_comment).drop (zi.endPos + 56)) =
      some [0x07064b50, 0, subtract zi.endPos zi.addPosition, 1] := by
    rw [drop_locator hpos]
    exact getValues_putValues zip64Locator_fits _
  have hsignature : getValues [4] ((zipClose zi global_comment).drop zi.endPos) =
      some [0x06064b50] := by
    rw [drop_endPos64 hpos]
    exact @getValues_putValues [(0x06064b50, 4)] (by decide) _
  rw [searchCentralDir64, search_locator hpos hcomment hlast, if_neg (by omega), hlocator]
  dsimp only
  rw [if_neg (by decide), hadd, subtract_eq hend (Nat.zero_le _), Nat.sub_zero, hsignature]
  rfl

/-- **A large archive is opened again** by its second record, with a number of
files that is not cut off, but without its comment. The record is looked for
where the locator says it is, so that nothing may stand in front of the archive. -/
theorem unzOpen_zipClose64 (hadd : zi.addPosition = 0) (hpos : 0xffffffff ≤ zi.written.length)
    (hentries : zi.numberEntry < 2 ^ 64) (hend : zi.endPos < 2 ^ 64)
    (hcomment : (zi.comment global_comment).length + (left zi global_comment).length + 42 ≤ 0xffff)
    (hlast : ∀ pos, 56 < pos →
      ((closing zi global_comment ++ left zi global_comment).drop pos).take 4 ≠
        locatorSignature) :
    unzOpenInternal (zipClose zi global_comment) =
      some ⟨true, zi.numberEntry, 0, 0, zi.endPos, zi.directory.length, zi.written.length⟩ := by
  have hlength : zi.written.length < 2 ^ 64 := (Nat.le_add_right _ _).trans_lt hend
  have hoffset : zi.offset = zi.written.length := by
    rw [ZipFile.offset_eq hlength (by omega), hadd, Nat.sub_zero]
  have hlarge : 0xffffffff ≤ zi.offset := hpos.trans hoffset.ge
  have hrecord : getValues [4, 8, 2, 2, 4, 4, 8, 8, 8, 8]
      ((zipClose zi global_comment).drop zi.endPos) = some [0x06064b50, 44, 45, 45, 0, 0,
        zi.numberEntry, zi.numberEntry, zi.directory.length, zi.offset] := by
    rw [drop_endPos64 hlarge]
    exact getValues_putValues (zip64Record_fits hentries hend) _
  have hne : zi.endPos ≠ 0 := by
    unfold ZipFile.endPos
    omega
  have hdirectory : (zi.written.length + zi.directory.length) % 2 ^ 64 = zi.endPos :=
    Nat.mod_eq_of_lt hend
  rw [unzOpenInternal, searchCentralDir64_zipClose hadd hlarge hend hcomment hlast, if_pos hne,
    readZip64Record, hrecord, hoffset]
  dsimp only
  rw [opened, if_neg (by simp), hdirectory]
  dsimp only
  rw [if_neg (Nat.lt_irrefl _), Nat.sub_self]

/-- An archive without files behind four gigabytes of something else. -/
def largeArchive (written : Bytes) : ZipFile where
  written := written
  behind := []
  centralDir := []
  addPosition := 0
  numberEntry := 0
  globalcomment := none

theorem closing_largeArchive {written : Bytes} (h : written.length = 0xffffffff) :
    closing (largeArchive written) none ++ left (largeArchive written) none =
      putValues (zip64Record (largeArchive []) 0 0xffffffff) ++
        putValues (zip64Locator (largeArchive []) 0xffffffff) ++
        (putValues (endRecord (largeArchive []) 0 0xffffffff) ++ writeGlobalComment []) := by
  have hleft : left (largeArchive written) none = [] := List.drop_nil
  have hlength : (largeArchive written).written.length = 0xffffffff := h
  have habove : 0xffffffff ≤ subtract 0xffffffff (largeArchive written).addPosition := by
    change 0xffffffff ≤ subtract 0xffffffff 0
    decide
  rw [hleft, List.append_nil, closing, hlength, if_pos habove]
  rfl

theorem endPos_largeArchive {written : Bytes} (h : written.length = 0xffffffff) :
    (largeArchive written).endPos = 0xffffffff := by
  simp [ZipFile.endPos, ZipFile.directory, largeArchive, h]

theorem unzOpen_zipClose64_large :
    unzOpenInternal (zipClose (largeArchive (List.replicate 0xffffffff 0)) none) =
      some ⟨true, 0, 0, 0, (largeArchive (List.replicate 0xffffffff 0)).endPos,
        (largeArchive (List.replicate 0xffffffff 0)).directory.length,
        (largeArchive (List.replicate 0xffffffff 0)).written.length⟩ := by
  have hlength : (List.replicate 0xffffffff (0 : UInt8)).length = 0xffffffff :=
    List.length_replicate
  have hend := endPos_largeArchive hlength
  have hleft : left (largeArchive (List.replicate 0xffffffff 0)) none = [] := List.drop_nil
  refine unzOpen_zipClose64 rfl hlength.ge (Nat.pow_pos (by decide)) ?_ ?_ ?_
  · rw [hend]
    decide
  · rw [hleft]
    decide
  · rw [closing_largeArchive hlength]
    exact drop_ne_of_forall_lt (by decide) (by decide)

end Found

end Minizip

end Supercell
