import Supercell.Minizip.Appending

/-!
# Minizip — writing files

A file of an archive is opened, its bytes are written in pieces of any length,
and it is closed. They go through a buffer; the header in front of them is
written first and corrected when the file is closed. What is left is an entry
that does not depend on the pieces.
-/

namespace Supercell

namespace Minizip

/-! ## The code -/

/-- `Z_BUFSIZE`. -/
def bufSize : ℕ := 64 * 1024

/-- Sizes and places from here on do not fit into the 32 bits of a header. -/
def sizeLimit32 : ℕ := 0xffffffff

/-- `tm_zip`. -/
structure TmZip where
  sec : ℕ
  min : ℕ
  hour : ℕ
  mday : ℕ
  mon : ℕ
  year : ℕ

/-- `zip64local_TmzDateToDosDate`. -/
def tmzDateToDosDate (tm : TmZip) : ℕ :=
  let year := if 1980 ≤ tm.year then tm.year - 1980 else if 80 ≤ tm.year then tm.year - 80
    else tm.year
  ((tm.mday + 32 * (tm.mon + 1) + 512 * year) * 2 ^ 16) |||
    (tm.sec / 2 + 32 * tm.min + 2048 * tm.hour)

/-- `zip_fileinfo`. -/
structure FileInfo where
  tmzDate : TmZip
  dosDate : ℕ
  internalFa : ℕ
  externalFa : ℕ

/-- What a file is opened with. It is stored as it is, or its bytes are raw. -/
structure NewFile where
  filename : Option Bytes
  zipfi : Option FileInfo
  extrafieldLocal : Bytes
  extrafieldGlobal : Bytes
  comment : Option Bytes
  method : ℕ
  level : ℕ
  raw : Bool
  versionMadeBy : ℕ
  flagBase : ℕ
  zip64 : Bool
  stored : raw = true ∨ method = 0

namespace NewFile

def name (f : NewFile) : Bytes := f.filename.getD [0x2d]

def remark (f : NewFile) : Bytes := f.comment.getD []

def dosDate (f : NewFile) : ℕ :=
  match f.zipfi with
  | none => 0
  | some zipfi => if zipfi.dosDate ≠ 0 then zipfi.dosDate else tmzDateToDosDate zipfi.tmzDate

def flag (f : NewFile) : ℕ :=
  f.flagBase ||| (if f.level = 8 ∨ f.level = 9 then 2 else 0) ||| (if f.level = 2 then 4 else 0) |||
    (if f.level = 1 then 6 else 0)

/-- The local header, in front of its texts. -/
def localFields (f : NewFile) (crc compressed uncompressed : ℕ) : List (ℕ × ℕ) :=
  [(0x04034b50, 4), (if f.zip64 then 45 else 20, 2), (f.flag, 2), (f.method, 2), (f.dosDate, 4),
    (crc, 4), (compressed, 4), (uncompressed, 4), (f.name.length, 2),
    (f.extrafieldLocal.length + if f.zip64 then 20 else 0, 2)]

/-- What follows the local header. -/
def localTexts (f : NewFile) : Bytes :=
  f.name ++ f.extrafieldLocal ++
    if f.zip64 then putValues [(1, 2), (16, 2), (0, 8), (0, 8)] else []

/-- `Write_LocalFileHeader`: what is not known yet is nothing, or ones. -/
def localHeader (f : NewFile) : Bytes :=
  let unknown := if f.zip64 then 0xffffffff else 0
  putValues (f.localFields 0 unknown unknown) ++ f.localTexts

/-- The extended information, behind everything else of the header. -/
def centralZip64 (posLocalHeader compressed uncompressed : ℕ) : List (ℕ × ℕ) :=
  (if sizeLimit32 ≤ uncompressed then [(uncompressed, 8)] else []) ++
  (if sizeLimit32 ≤ compressed then [(compressed, 8)] else []) ++
  (if sizeLimit32 ≤ posLocalHeader then [(posLocalHeader, 8)] else [])

/-- The header of a file in the directory, as it is when the file is closed. -/
def centralHeader (f : NewFile) (addPosition posLocalHeader crc compressed uncompressed : ℕ) :
    Bytes :=
  let large := sizeLimit32 ≤ compressed ∨ sizeLimit32 ≤ uncompressed ∨ sizeLimit32 ≤ posLocalHeader
  let zip64 := centralZip64 posLocalHeader compressed uncompressed
  let datasize := 8 * zip64.length
  putValues [(0x02014b50, 4), (if large then 45 else f.versionMadeBy, 2), (if large then 45 else 20, 2),
      (f.flag, 2), (f.method, 2), (f.dosDate, 4), (crc, 4),
      (if sizeLimit32 ≤ compressed then 0xffffffff else compressed, 4),
      (if sizeLimit32 ≤ uncompressed then 0xffffffff else uncompressed, 4), (f.name.length, 2),
      (f.extrafieldGlobal.length + if 0 < datasize then datasize + 4 else 0, 2),
      (f.remark.length, 2), (0, 2), ((f.zipfi.map FileInfo.internalFa).getD 0, 2),
      ((f.zipfi.map FileInfo.externalFa).getD 0, 4),
      (if sizeLimit32 ≤ posLocalHeader then 0xffffffff else subtract posLocalHeader addPosition, 4)] ++
    f.name ++ f.extrafieldGlobal ++ f.remark ++
    if 0 < datasize then putValues ((1, 2) :: (datasize, 2) :: zip64) else []

end NewFile

/-- `curfile64_info`: the file that is written. -/
structure CurFile where
  file : NewFile
  posLocalHeader : ℕ
  crc32 : ℕ
  bufferedData : Bytes
  totalIn : ℕ
  totalCompressedData : ℕ
  totalUncompressedData : ℕ

/-- `zip64_internal`: an archive, and the file that is open in it. -/
structure Zip where
  archive : ZipFile
  ci : Option CurFile

/-- `ZWRITE64`, at the end of what was written. -/
def ZipFile.write (zi : ZipFile) (bytes : Bytes) : ZipFile :=
  { zi with written := zi.written ++ bytes, behind := zi.behind.drop bytes.length }

/-- `ZSEEK64` and `ZWRITE64`, within what was written, and back to its end. -/
def ZipFile.rewrite (zi : ZipFile) (pos : ℕ) (bytes : Bytes) : ZipFile :=
  { zi with written := zi.written.take pos ++ bytes ++ zi.written.drop (pos + bytes.length) }

/-- `zip64FlushWriteBuffer`. -/
def flushWriteBuffer (zi : ZipFile) (ci : CurFile) : ZipFile × CurFile :=
  (zi.write ci.bufferedData,
    { ci with
      bufferedData := []
      totalIn := 0
      totalCompressedData := ci.totalCompressedData + ci.bufferedData.length
      totalUncompressedData := ci.totalUncompressedData + ci.totalIn })

/-- The buffer is written where there is no room left in it. -/
def makeRoom (zi : ZipFile) (ci : CurFile) : ZipFile × CurFile :=
  if bufSize ≤ ci.bufferedData.length then flushWriteBuffer zi ci else (zi, ci)

theorem length_makeRoom_lt (zi : ZipFile) (ci : CurFile) :
    (makeRoom zi ci).2.bufferedData.length < bufSize := by
  unfold makeRoom
  split_ifs with hroom
  · exact (by decide : 0 < bufSize)
  · exact Nat.not_le.1 hroom

/-- The loop of `zipWriteInFileInZip`. -/
def writeLoop (zi : ZipFile) (ci : CurFile) (buf : Bytes) : ZipFile × CurFile :=
  if buf = [] then (zi, ci)
  else
    let z := makeRoom zi ci
    let copy_this := min buf.length (bufSize - z.2.bufferedData.length)
    writeLoop z.1
      { z.2 with
        bufferedData := z.2.bufferedData ++ buf.take copy_this
        totalIn := z.2.totalIn + copy_this }
      (buf.drop copy_this)
termination_by buf.length
decreasing_by
  have := List.length_pos_of_ne_nil ‹_›
  have := length_makeRoom_lt zi ci
  rw [List.length_drop]
  omega

section Code

variable (crc : ℕ → Bytes → ℕ)

/-- **`zipWriteInFileInZip`**. -/
def zipWriteInFileInZip (z : Zip) (buf : Bytes) : Zip :=
  match z.ci with
  | none => z
  | some ci =>
    let (zi, ci) := writeLoop z.archive { ci with crc32 := crc ci.crc32 buf } buf
    ⟨zi, some ci⟩

/-- **`zipCloseFileInZipRaw64`**. -/
def zipCloseFileInZipRaw (z : Zip) (uncompressed_size crc32 : ℕ) : Zip :=
  match z.ci with
  | none => z
  | some ci =>
    let (zi, ci) := if ci.bufferedData ≠ [] then flushWriteBuffer z.archive ci else (z.archive, ci)
    let crc32 := if ci.file.raw then crc32 else ci.crc32
    let uncompressed_size := if ci.file.raw then uncompressed_size else ci.totalUncompressedData
    let compressed_size := ci.totalCompressedData
    let zi := { zi with centralDir := addDataInDatablock zi.centralDir (ci.file.centralHeader
      zi.addPosition ci.posLocalHeader crc32 compressed_size uncompressed_size) }
    let zi := zi.rewrite (ci.posLocalHeader + 14) (putValue crc32 4)
    let zi :=
      if sizeLimit32 ≤ uncompressed_size then
        if ci.file.zip64 then
          zi.rewrite (ci.posLocalHeader + 30 + ci.file.name.length +
              ci.file.extrafieldLocal.length + 4)
            (putValue uncompressed_size 8 ++ putValue compressed_size 8)
        else zi
      else
        zi.rewrite (ci.posLocalHeader + 18) (putValue compressed_size 4 ++
          putValue uncompressed_size 4)
    ⟨{ zi with numberEntry := zi.numberEntry + 1 }, none⟩

/-- `zipCloseFileInZip`. -/
def zipCloseFileInZip (z : Zip) : Zip := zipCloseFileInZipRaw z 0 0

/-- **`zipOpenNewFileInZip4_64`**. A file that is open is closed. -/
def zipOpenNewFileInZip (z : Zip) (f : NewFile) : Zip :=
  if f.method ≠ 0 ∧ f.method ≠ 8 then z
  else
    let z := if z.ci.isSome then zipCloseFileInZip z else z
    ⟨z.archive.write f.localHeader, some {
      file := f
      posLocalHeader := z.archive.written.length
      crc32 := 0
      bufferedData := []
      totalIn := 0
      totalCompressedData := 0
      totalUncompressedData := 0 }⟩

/-- What a program does with an archive. -/
inductive Action
  | openFile (f : NewFile)
  | write (buf : Bytes)
  | close (uncompressed_size crc32 : ℕ)

def Zip.step (z : Zip) : Action → Zip
  | .openFile f => zipOpenNewFileInZip z f
  | .write buf => zipWriteInFileInZip crc z buf
  | .close uncompressed_size crc32 => zipCloseFileInZipRaw z uncompressed_size crc32

/-- `zipClose`, which closes a file that is open. -/
def Zip.close (z : Zip) (global_comment : Option Bytes) : Bytes :=
  zipClose (if z.ci.isSome then zipCloseFileInZip z else z).archive global_comment

end Code

/-! ## What is written -/

/-- An archive with whole files, and one of which some bytes are known. -/
structure Draft where
  archive : ZipFile
  pending : Option (NewFile × Bytes)

section Abstract

variable (crc : ℕ → Bytes → ℕ)

/-- **The entry of a file**: its headers with its size and checksum, and its bytes. -/
def entryWith (zi : ZipFile) (f : NewFile) (bytes : Bytes) (uncompressed_size crc32 : ℕ) : Entry where
  bytes := putValues (f.localFields crc32 bytes.length uncompressed_size) ++ f.localTexts ++ bytes
  header := f.centralHeader zi.addPosition zi.written.length crc32 bytes.length uncompressed_size

/-- The size and the checksum of raw bytes are given. -/
def entryOf (zi : ZipFile) (f : NewFile) (bytes : Bytes) (uncompressed_size crc32 : ℕ) : Entry :=
  entryWith zi f bytes (if f.raw then uncompressed_size else bytes.length)
    (if f.raw then crc32 else crc 0 bytes)

def Draft.finish (d : Draft) (uncompressed_size crc32 : ℕ) : Draft :=
  match d.pending with
  | none => d
  | some (f, bytes) => ⟨d.archive.add (entryOf crc d.archive f bytes uncompressed_size crc32), none⟩

/-- What is asked of the archive. -/
def Draft.step (d : Draft) : Action → Draft
  | .openFile f =>
    if f.method ≠ 0 ∧ f.method ≠ 8 then d else ⟨(d.finish crc 0 0).archive, some (f, [])⟩
  | .write buf => ⟨d.archive, d.pending.map fun p => (p.1, p.2 ++ buf)⟩
  | .close uncompressed_size crc32 => d.finish crc uncompressed_size crc32

end Abstract

/-! ## Pieces do not matter -/

/-- A file of which some bytes are written and the others are in the buffer. -/
structure Writing (zi : ZipFile) (ci : CurFile) (a : ZipFile) (f : NewFile) (bytes : Bytes) :
    Prop where
  written : zi.written ++ ci.bufferedData = a.written ++ (f.localHeader ++ bytes)
  behind : zi.behind.drop ci.bufferedData.length =
    a.behind.drop (f.localHeader ++ bytes).length
  centralDir : zi.centralDir = a.centralDir
  addPosition : zi.addPosition = a.addPosition
  numberEntry : zi.numberEntry = a.numberEntry
  globalcomment : zi.globalcomment = a.globalcomment
  file : ci.file = f
  posLocalHeader : ci.posLocalHeader = a.written.length
  compressed : ci.totalCompressedData + ci.bufferedData.length = bytes.length
  uncompressed : ci.totalUncompressedData + ci.totalIn = bytes.length
  totalIn : ci.totalIn = ci.bufferedData.length

section Steps

variable {zi a : ZipFile} {ci : CurFile} {f : NewFile} {bytes : Bytes}

theorem Writing.flush (h : Writing zi ci a f bytes) :
    Writing (flushWriteBuffer zi ci).1 (flushWriteBuffer zi ci).2 a f bytes :=
  { h with
    written := (List.append_nil _).trans h.written
    behind := h.behind
    compressed := h.compressed
    uncompressed := h.uncompressed
    totalIn := rfl }

theorem Writing.makeRoom (h : Writing zi ci a f bytes) :
    Writing (makeRoom zi ci).1 (makeRoom zi ci).2 a f bytes := by
  unfold Minizip.makeRoom
  split_ifs
  · exact h.flush
  · exact h

theorem Writing.copy (h : Writing zi ci a f bytes) (more : Bytes) :
    Writing zi { ci with
      bufferedData := ci.bufferedData ++ more
      totalIn := ci.totalIn + more.length } a f (bytes ++ more) :=
  { h with
    written := by
      rw [← List.append_assoc, h.written]
      simp only [List.append_assoc]
    behind := by
      rw [← List.append_assoc, List.length_append, ← List.drop_drop, h.behind, List.drop_drop,
        ← List.length_append]
    compressed := by
      have := h.compressed
      change ci.totalCompressedData + (ci.bufferedData ++ more).length = _
      rw [List.length_append, List.length_append]
      omega
    uncompressed := by
      have := h.uncompressed
      change ci.totalUncompressedData + (ci.totalIn + more.length) = _
      rw [List.length_append]
      omega
    totalIn := by
      rw [List.length_append, h.totalIn] }

/-- **The loop puts everything behind what is there.** -/
theorem Writing.loop {buf : Bytes} (h : Writing zi ci a f bytes) :
    Writing (writeLoop zi ci buf).1 (writeLoop zi ci buf).2 a f (bytes ++ buf) ∧
      (writeLoop zi ci buf).2.crc32 = ci.crc32 := by
  fun_induction writeLoop zi ci buf generalizing bytes
  case case1 zi ci => exact ⟨(List.append_nil bytes).symm ▸ h, rfl⟩
  case case2 zi ci buf hbuf z copy_this ih =>
    have hcopy : (buf.take copy_this).length = copy_this :=
      List.length_take_of_le (Nat.min_le_left _ _)
    have hnext := h.makeRoom.copy (buf.take copy_this)
    rw [hcopy] at hnext
    obtain ⟨hloop, hcrc⟩ := ih hnext
    rw [List.append_assoc, List.take_append_drop] at hloop
    refine ⟨hloop, hcrc.trans ?_⟩
    change (Minizip.makeRoom zi ci).2.crc32 = ci.crc32
    unfold Minizip.makeRoom
    split_ifs <;> rfl

theorem localFields_eq (f : NewFile) (crc compressed uncompressed : ℕ) :
    putValues (f.localFields crc compressed uncompressed) =
      putValues [(0x04034b50, 4), (if f.zip64 then 45 else 20, 2), (f.flag, 2), (f.method, 2),
        (f.dosDate, 4)] ++ (putValue crc 4 ++ ((putValue compressed 4 ++ putValue uncompressed 4) ++
          putValues [(f.name.length, 2),
            (f.extrafieldLocal.length + if f.zip64 then 20 else 0, 2)])) := by
  simp [NewFile.localFields, putValues]

/-- Bytes are replaced by as many. -/
theorem rewrite_eq {zi : ZipFile} {front middle rest bytes : Bytes} {pos : ℕ}
    (hpos : front.length = pos) (hwritten : zi.written = front ++ (middle ++ rest))
    (hlength : bytes.length = middle.length) :
    (zi.rewrite pos bytes).written = front ++ (bytes ++ rest) := by
  change zi.written.take pos ++ bytes ++ zi.written.drop (pos + bytes.length) = _
  rw [hwritten, ← hpos, hlength, List.take_left, ← List.length_append, ← List.append_assoc front,
    List.drop_left, List.append_assoc]

/-- **The header is corrected** where it stands. -/
theorem rewrite_header {zi : ZipFile} {front rest : Bytes} {f : NewFile} {unknown : ℕ}
    (hwritten : zi.written = front ++ (putValues (f.localFields 0 unknown unknown) ++ rest))
    (crc compressed uncompressed : ℕ) :
    ((zi.rewrite (front.length + 14) (putValue crc 4)).rewrite (front.length + 18)
        (putValue compressed 4 ++ putValue uncompressed 4)).written =
      front ++ (putValues (f.localFields crc compressed uncompressed) ++ rest) := by
  let five : Bytes := putValues [(0x04034b50, 4), (if f.zip64 then 45 else 20, 2), (f.flag, 2),
    (f.method, 2), (f.dosDate, 4)]
  let two : Bytes := putValues [(f.name.length, 2),
    (f.extrafieldLocal.length + if f.zip64 then 20 else 0, 2)]
  have hfive : five.length = 14 := by
    rw [length_putValues]
    rfl
  have hcrc : (zi.rewrite (front.length + 14) (putValue crc 4)).written = (front ++ five) ++
      (putValue crc 4 ++ ((putValue unknown 4 ++ putValue unknown 4) ++ (two ++ rest))) := by
    have hbefore : zi.written = (front ++ five) ++
        (putValue 0 4 ++ ((putValue unknown 4 ++ putValue unknown 4) ++ (two ++ rest))) := by
      rw [hwritten, localFields_eq]
      simp only [five, two, List.append_assoc]
    exact rewrite_eq (by rw [List.length_append, hfive]) hbefore
      ((length_putValue _ _).trans (length_putValue _ _).symm)
  have hsizes : ((zi.rewrite (front.length + 14) (putValue crc 4)).rewrite (front.length + 18)
      (putValue compressed 4 ++ putValue uncompressed 4)).written =
      (front ++ five ++ putValue crc 4) ++
        ((putValue compressed 4 ++ putValue uncompressed 4) ++ (two ++ rest)) := by
    refine @rewrite_eq _ _ (putValue unknown 4 ++ putValue unknown 4) _ _ _ ?_ ?_ ?_
    · rw [List.length_append, List.length_append, hfive, length_putValue]
    · rw [hcrc]
      simp only [List.append_assoc]
    · simp only [List.length_append, length_putValue]
  rw [hsizes, localFields_eq]
  simp only [five, two, List.append_assoc]

/-- **The file when it is closed**: its entry is added to the archive. -/
theorem Writing.close (h : Writing zi ci a f bytes) (hbuffer : ci.bufferedData = [])
    (crc uncompressed_size : ℕ) :
    ({ (({ zi with centralDir := addDataInDatablock zi.centralDir (f.centralHeader zi.addPosition
          ci.posLocalHeader crc ci.totalCompressedData uncompressed_size) } : ZipFile).rewrite
            (ci.posLocalHeader + 14) (putValue crc 4)).rewrite (ci.posLocalHeader + 18)
              (putValue ci.totalCompressedData 4 ++ putValue uncompressed_size 4) with
        numberEntry := zi.numberEntry + 1 } : ZipFile) =
      a.add (entryWith a f bytes uncompressed_size crc) := by
  have hcompressed : ci.totalCompressedData = bytes.length := by
    have := h.compressed
    rw [hbuffer] at this
    exact this
  have hwritten : zi.written = a.written ++ (f.localHeader ++ bytes) := by
    have := h.written
    rw [hbuffer, List.append_nil] at this
    exact this
  have hbehind : zi.behind = a.behind.drop (f.localHeader ++ bytes).length := by
    have := h.behind
    rw [hbuffer] at this
    exact this
  have hlengths : ∀ crc compressed uncompressed : ℕ,
      (putValues (f.localFields crc compressed uncompressed)).length = 30 := by
    intro crc compressed uncompressed
    rw [length_putValues]
    rfl
  have hlength : (putValues (f.localFields crc bytes.length uncompressed_size) ++ f.localTexts ++
      bytes).length = (f.localHeader ++ bytes).length := by
    simp only [NewFile.localHeader, List.length_append, hlengths]
  let zi' : ZipFile := { zi with centralDir := addDataInDatablock zi.centralDir (f.centralHeader
    zi.addPosition ci.posLocalHeader crc ci.totalCompressedData uncompressed_size) }
  have hwritten' : zi'.written = a.written ++ (putValues (f.localFields 0
      (if f.zip64 then 0xffffffff else 0) (if f.zip64 then 0xffffffff else 0)) ++
        (f.localTexts ++ bytes)) := by
    rw [← List.append_assoc (putValues _)]
    exact hwritten
  have hheader := rewrite_header hwritten' crc bytes.length uncompressed_size
  refine ZipFile.ext ?_ ?_ ?_ h.addPosition ?_ h.globalcomment
  · rw [h.posLocalHeader, hcompressed]
    exact hheader.trans (by rw [← List.append_assoc (putValues _)]; rfl)
  · exact hbehind.trans (congrArg (List.drop · a.behind) hlength.symm)
  · rw [h.posLocalHeader, hcompressed, h.centralDir, h.addPosition]
    rfl
  · exact congrArg (· + 1) h.numberEntry

/-- The buffer is written before the file is closed. -/
theorem Writing.emptied (h : Writing zi ci a f bytes) :
    ∃ zi' ci', (if ci.bufferedData ≠ [] then flushWriteBuffer zi ci else (zi, ci)) = (zi', ci') ∧
      Writing zi' ci' a f bytes ∧ ci'.bufferedData = [] ∧ ci'.crc32 = ci.crc32 := by
  by_cases hbuffer : ci.bufferedData = []
  · exact ⟨zi, ci, if_neg (not_not_intro hbuffer), h, hbuffer, rfl⟩
  · exact ⟨_, _, if_pos hbuffer, h.flush, rfl, rfl⟩

/-- **A file that is closed**, if its size fits into its header. -/
theorem close_eq (h : Writing zi ci a f bytes) {crc32 uncompressed_size : ℕ}
    (hsize : (if f.raw then uncompressed_size else bytes.length) < sizeLimit32) :
    zipCloseFileInZipRaw ⟨zi, some ci⟩ uncompressed_size crc32 =
      ⟨a.add (entryWith a f bytes (if f.raw then uncompressed_size else bytes.length)
        (if f.raw then crc32 else ci.crc32)), none⟩ := by
  obtain ⟨zi', ci', hemptied, h', hbuffer, hcrc⟩ := h.emptied
  have huncompressed : ci'.totalUncompressedData = bytes.length := by
    have := h'.uncompressed
    rw [h'.totalIn, hbuffer] at this
    exact this
  rw [zipCloseFileInZipRaw]
  dsimp only
  rw [hemptied]
  dsimp only
  rw [h'.file, huncompressed, hcrc, if_neg (Nat.not_le.2 hsize)]
  exact congrArg (Zip.mk · none) (h'.close hbuffer _ _)

end Steps

section Runs

variable {crc : ℕ → Bytes → ℕ}

/-- The archive that is written, and what is asked of it. -/
inductive Refines (crc : ℕ → Bytes → ℕ) : Zip → Draft → Prop
  | closed (zi : ZipFile) : Refines crc ⟨zi, none⟩ ⟨zi, none⟩
  | writing {zi a : ZipFile} {ci : CurFile} {f : NewFile} {bytes : Bytes}
      (h : Writing zi ci a f bytes) (hcrc : ci.crc32 = crc 0 bytes) :
      Refines crc ⟨zi, some ci⟩ ⟨a, some (f, bytes)⟩

/-- The size of a file that is closed here fits into its header. -/
def Draft.FitsSize (d : Draft) (uncompressed_size : ℕ) : Prop :=
  ∀ p ∈ d.pending, (if p.1.raw then uncompressed_size else p.2.length) < sizeLimit32

def Draft.Fits (d : Draft) : Action → Prop
  | .openFile _ => d.FitsSize 0
  | .write _ => True
  | .close uncompressed_size _ => d.FitsSize uncompressed_size

theorem Refines.finish {z : Zip} {d : Draft} (h : Refines crc z d) {uncompressed_size crc32 : ℕ}
    (hfit : d.FitsSize uncompressed_size) :
    Refines crc (zipCloseFileInZipRaw z uncompressed_size crc32)
      (d.finish crc uncompressed_size crc32) := by
  cases h with
  | closed zi => exact .closed zi
  | writing h hcrc =>
    rw [close_eq h (hfit _ rfl), hcrc]
    exact .closed _

theorem pending_finish (d : Draft) : (d.finish crc 0 0).pending = none := by
  unfold Draft.finish
  split
  · assumption
  · rfl

/-- A file is opened where none is open. -/
theorem refines_open (hnil : crc 0 [] = 0) {z : Zip} {d : Draft} (h : Refines crc z d)
    (hpending : d.pending = none) {f : NewFile} :
    Refines crc ⟨z.archive.write f.localHeader, some {
      file := f
      posLocalHeader := z.archive.written.length
      crc32 := 0
      bufferedData := []
      totalIn := 0
      totalCompressedData := 0
      totalUncompressedData := 0 }⟩ ⟨d.archive, some (f, [])⟩ := by
  cases h with
  | writing h hcrc => cases hpending
  | closed zi =>
    refine .writing ⟨?_, ?_, rfl, rfl, rfl, rfl, rfl, rfl, rfl, rfl, rfl⟩ hnil.symm
    · rw [List.append_nil, List.append_nil]
      rfl
    · rw [List.append_nil]
      rfl

/-- **A step of the program** is one of the archive. -/
theorem Refines.step {z : Zip} {d : Draft} (h : Refines crc z d) {action : Action}
    (hnil : crc 0 [] = 0) (happend : ∀ a b, crc (crc 0 a) b = crc 0 (a ++ b))
    (hfit : d.Fits action) :
    Refines crc (z.step crc action) (d.step crc action) := by
  cases action with
  | openFile f =>
    have hfinish : Refines crc (if z.ci.isSome then zipCloseFileInZip z else z)
        (d.finish crc 0 0) := by
      have hclose := @Refines.finish _ _ _ h 0 0 hfit
      cases h with
      | closed zi => exact .closed zi
      | writing h hcrc => exact hclose
    rw [Zip.step, Draft.step, zipOpenNewFileInZip]
    split_ifs with hmethod hopen
    · exact h
    · rw [if_pos hopen] at hfinish
      exact refines_open hnil hfinish (pending_finish d)
    · rw [if_neg hopen] at hfinish
      exact refines_open hnil hfinish (pending_finish d)
  | write buf =>
    cases h with
    | closed zi => exact .closed zi
    | @writing zi a ci f bytes h hcrc =>
      have hwriting : Writing zi { ci with crc32 := crc ci.crc32 buf } a f bytes := { h with }
      obtain ⟨hloop, hkept⟩ := @Writing.loop _ _ _ _ _ buf hwriting
      refine .writing hloop (hkept.trans ?_)
      change crc ci.crc32 buf = crc 0 (bytes ++ buf)
      rw [hcrc, happend]
  | close uncompressed_size crc32 => exact h.finish hfit

/-- The sizes of all files fit into their headers when they are closed. -/
def Draft.FitsAll (crc : ℕ → Bytes → ℕ) (d : Draft) : List Action → Prop
  | [] => d.FitsSize 0
  | action :: actions => d.Fits action ∧ (d.step crc action).FitsAll crc actions

/-- **A run of the program** is one of the archive. -/
theorem Refines.run {actions : List Action} {z : Zip} {d : Draft} (hnil : crc 0 [] = 0)
    (happend : ∀ a b, crc (crc 0 a) b = crc 0 (a ++ b)) (h : Refines crc z d)
    (hfit : d.FitsAll crc actions) :
    Refines crc (actions.foldl (Zip.step crc) z) (actions.foldl (Draft.step crc) d) ∧
      (actions.foldl (Draft.step crc) d).FitsSize 0 := by
  induction actions generalizing z d with
  | nil => exact ⟨h, hfit⟩
  | cons action actions ih => exact ih (h.step hnil happend hfit.1) hfit.2

/-- The archive that is left is the one that is asked for. -/
theorem close_run (zi : ZipFile) (actions : List Action) (global_comment : Option Bytes)
    (hnil : crc 0 [] = 0) (happend : ∀ a b, crc (crc 0 a) b = crc 0 (a ++ b))
    (hfit : Draft.FitsAll crc ⟨zi, none⟩ actions) :
    (actions.foldl (Zip.step crc) ⟨zi, none⟩).close global_comment =
      zipClose ((actions.foldl (Draft.step crc) ⟨zi, none⟩).finish crc 0 0).archive
        global_comment := by
  obtain ⟨hrun, hlast⟩ := Refines.run hnil happend (.closed zi) hfit
  rw [Zip.close]
  generalize actions.foldl (Zip.step crc) ⟨zi, none⟩ = z,
    actions.foldl (Draft.step crc) ⟨zi, none⟩ = d at hrun hlast
  cases hrun with
  | closed zi => rfl
  | @writing zi a ci f bytes h hcrc =>
    change zipClose (zipCloseFileInZipRaw ⟨zi, some ci⟩ 0 0).archive global_comment = _
    rw [close_eq h (hlast _ rfl), hcrc]
    rfl

/-! A run asks for nothing but entries behind those that are there. -/

theorem archive_finish (d : Draft) (uncompressed_size crc32 : ℕ) :
    ∃ entries : List Entry, (d.finish crc uncompressed_size crc32).archive =
      entries.foldl ZipFile.add d.archive := by
  unfold Draft.finish
  split
  · exact ⟨[], rfl⟩
  · exact ⟨[_], rfl⟩

theorem archive_step (d : Draft) (action : Action) :
    ∃ entries : List Entry, (d.step crc action).archive = entries.foldl ZipFile.add d.archive := by
  cases action with
  | openFile f =>
    rw [Draft.step]
    split_ifs
    · exact ⟨[], rfl⟩
    · exact archive_finish d 0 0
  | write buf => exact ⟨[], rfl⟩
  | close uncompressed_size crc32 => exact archive_finish d uncompressed_size crc32

theorem archive_run (actions : List Action) (d : Draft) :
    ∃ entries : List Entry, (actions.foldl (Draft.step crc) d).archive =
      entries.foldl ZipFile.add d.archive := by
  induction actions generalizing d with
  | nil => exact ⟨[], rfl⟩
  | cons action actions ih =>
    obtain ⟨entries, hstep⟩ := @archive_step crc d action
    obtain ⟨entries', hrun⟩ := ih (d.step crc action)
    exact ⟨entries ++ entries', by rw [List.foldl_cons, hrun, hstep, List.foldl_append]⟩

/-- **Any run**, with files opened, written and closed in any order: the archive that
is left has the entry of each file, with its size and its checksum in both
headers, and does not depend on the pieces in which the bytes were written. What
a program did to an archive that it loaded is a session. -/
theorem actions_close (zi : ZipFile) (actions : List Action) (global_comment : Option Bytes)
    (hnil : crc 0 [] = 0) (happend : ∀ a b, crc (crc 0 a) b = crc 0 (a ++ b))
    (hfit : Draft.FitsAll crc ⟨zi, none⟩ actions) :
    ∃ entries : List Entry,
      ((actions.foldl (Draft.step crc) ⟨zi, none⟩).finish crc 0 0).archive =
        entries.foldl ZipFile.add zi ∧
      (actions.foldl (Zip.step crc) ⟨zi, none⟩).close global_comment =
        zipClose (entries.foldl ZipFile.add zi) global_comment ∧
      ∀ file, loadCentralDirectoryRecord file = some zi →
        Session.run ⟨entries, global_comment⟩ file =
          some ((actions.foldl (Zip.step crc) ⟨zi, none⟩).close global_comment) := by
  obtain ⟨entries, hrun⟩ := @archive_run crc actions ⟨zi, none⟩
  obtain ⟨last, hlast⟩ := @archive_finish crc (actions.foldl (Draft.step crc) ⟨zi, none⟩) 0 0
  have hentries : ((actions.foldl (Draft.step crc) ⟨zi, none⟩).finish crc 0 0).archive =
      (entries ++ last).foldl ZipFile.add zi := by
    rw [hlast, hrun, List.foldl_append]
  have hclose : (actions.foldl (Zip.step crc) ⟨zi, none⟩).close global_comment =
      zipClose ((entries ++ last).foldl ZipFile.add zi) global_comment := by
    rw [close_run zi actions global_comment hnil happend hfit, hentries]
  refine ⟨entries ++ last, hentries, hclose, fun file hload => ?_⟩
  rw [hclose, Session.run, hload]
  rfl

end Runs

/-! ## The checksum -/

/-- One byte of the checksum. -/
def crcByte (c : UInt32) (b : UInt8) : UInt32 :=
  (List.range 8).foldl (fun c _ => if c &&& 1 = 1 then (c >>> 1) ^^^ 0xedb88320 else c >>> 1)
    (c ^^^ b.toUInt32)

/-- The checksum that zlib has. -/
def crc32 (c : ℕ) (bytes : Bytes) : ℕ := (~~~ (bytes.foldl crcByte (~~~ UInt32.ofNat c))).toNat

theorem crc32_nil : crc32 0 [] = 0 := by decide

/-- **It can be taken piece by piece.** -/
theorem crc32_append (a b : Bytes) : crc32 (crc32 0 a) b = crc32 0 (a ++ b) := by
  unfold crc32
  rw [UInt32.ofNat_toNat, UInt32.not_not, List.foldl_append]

example : crc32 0 [0x31, 0x32, 0x33, 0x34, 0x35, 0x36, 0x37, 0x38, 0x39] = 0xcbf43926 := by
  decide +kernel

/-- Text that is stored, with a time and a remark. -/
def storedFile : NewFile where
  filename := some [97]
  zipfi := some ⟨⟨0, 0, 0, 1, 0, 1980⟩, 0, 0, 0⟩
  extrafieldLocal := []
  extrafieldGlobal := []
  comment := some [98]
  method := 0
  level := 0
  raw := false
  versionMadeBy := 0
  flagBase := 0
  zip64 := true
  stored := .inr rfl

/-- Two files, the first of which is closed by opening the other. -/
def twoFiles : List Action :=
  [.openFile storedFile, .write [1, 2], .write [3], .openFile storedFile, .write [4]]

theorem actions_close_twoFiles :
    ∃ zi, loadCentralDirectoryRecord (zipClose appendedArchive none) = some zi ∧
      ∃ entries : List Entry,
        ((twoFiles.foldl (Draft.step crc32) ⟨zi, none⟩).finish crc32 0 0).archive =
          entries.foldl ZipFile.add zi ∧
        (twoFiles.foldl (Zip.step crc32) ⟨zi, none⟩).close none =
          zipClose (entries.foldl ZipFile.add zi) none ∧
        ∀ file, loadCentralDirectoryRecord file = some zi → Session.run ⟨entries, none⟩ file =
          some ((twoFiles.foldl (Zip.step crc32) ⟨zi, none⟩).close none) := by
  obtain ⟨zi, hload⟩ : ∃ zi, loadCentralDirectoryRecord (zipClose appendedArchive none) = some zi :=
    Option.isSome_iff_exists.1 (by decide +kernel)
  refine ⟨zi, hload, actions_close zi twoFiles none crc32_nil crc32_append
    ⟨?_, trivial, trivial, ?_, trivial, ?_⟩⟩
  · exact fun p hp => absurd hp (Option.not_mem_none p)
  all_goals
    intro p hp
    obtain rfl := Option.some.inj hp
    decide

end Minizip

end Supercell
