import Supercell.Minizip.Writing

/-!
# Minizip — reading files

A file of an archive that is stored, or whose bytes are wanted raw, is opened
where the directory says it is, its header is compared with the directory, and
its bytes are read in pieces of any length, through a buffer. When it is closed
its checksum is known, if all of it was read.
-/

namespace Supercell

namespace Minizip

/-! ## The code -/

/-- `UNZ_BUFSIZE`. -/
def unzBufSize : ℕ := 16384

/-- `cur_file_info`, as far as it is compared with the header of the file. -/
structure CurrentFile where
  offsetCurfile : ℕ
  compressionMethod : ℕ
  crc : ℕ
  compressedSize : ℕ
  uncompressedSize : ℕ
  sizeFilename : ℕ

/-- `file_in_zip64_read_info_s`. -/
structure ReadInfo where
  raw : Bool
  crc32Wait : ℕ
  crc32 : ℕ
  posInZipfile : ℕ
  byteBefore : ℕ
  restReadCompressed : ℕ
  restReadUncompressed : ℕ
  buffer : Bytes

/-- `unz64local_CheckCurrentFileCoherencyHeader`: the size of what follows the
header. -/
def checkCoherencyHeader (file : Bytes) (byteBefore : ℕ) (info : CurrentFile) : Option ℕ :=
  match getValues [4, 2, 2, 2, 4, 4, 4, 4, 2, 2] (file.drop (info.offsetCurfile + byteBefore)) with
  | some [magic, _, flags, method, _, crc, compressed, uncompressed, size_filename,
      size_extra_field] =>
    if magic ≠ 0x04034b50 then none
    else if method ≠ info.compressionMethod then none
    else if info.compressionMethod ≠ 0 ∧ info.compressionMethod ≠ 12 ∧
      info.compressionMethod ≠ 8 then none
    else if crc ≠ info.crc ∧ flags &&& 8 = 0 then none
    else if compressed ≠ 0xffffffff ∧ compressed ≠ info.compressedSize ∧ flags &&& 8 = 0 then none
    else if uncompressed ≠ 0xffffffff ∧ uncompressed ≠ info.uncompressedSize ∧ flags &&& 8 = 0 then
      none
    else if size_filename ≠ info.sizeFilename then none
    else some (size_filename + size_extra_field)
  | _ => none

/-- **`unzOpenCurrentFile3`**, for what is stored or raw. -/
def unzOpenCurrentFile (file : Bytes) (byteBefore : ℕ) (info : CurrentFile) (raw : Bool) :
    Option ReadInfo :=
  (checkCoherencyHeader file byteBefore info).map fun iSizeVar =>
    { raw := raw || info.compressionMethod = 12
      crc32Wait := info.crc
      crc32 := 0
      posInZipfile := info.offsetCurfile + 30 + iSizeVar
      byteBefore := byteBefore
      restReadCompressed := info.compressedSize
      restReadUncompressed := info.uncompressedSize
      buffer := [] }

/-- The buffer is filled where nothing is left in it. -/
def refill (file : Bytes) (r : ReadInfo) : Option ReadInfo :=
  if r.buffer = [] ∧ 0 < r.restReadCompressed then
    let uReadThis := min unzBufSize r.restReadCompressed
    let bytes := (file.drop (r.posInZipfile + r.byteBefore)).take uReadThis
    if bytes.length = uReadThis then
      some { r with
        buffer := bytes
        posInZipfile := r.posInZipfile + uReadThis
        restReadCompressed := r.restReadCompressed - uReadThis }
    else none
  else some r

/-- The loop of `unzReadCurrentFile`. -/
def readLoop (crc : ℕ → Bytes → ℕ) (file : Bytes) (r : ReadInfo) (avail_out : ℕ) (out : Bytes) :
    Option (Bytes × ReadInfo) :=
  if 0 < avail_out then
    match refill file r with
    | none => none
    | some r =>
      if r.buffer = [] then some (out, r)
      else
        let bytes := r.buffer.take avail_out
        readLoop crc file
          { r with
            crc32 := crc r.crc32 bytes
            restReadUncompressed := subtract r.restReadUncompressed bytes.length
            buffer := r.buffer.drop avail_out }
          (avail_out - bytes.length) (out ++ bytes)
  else some (out, r)
termination_by avail_out
decreasing_by
  have := List.length_pos_of_ne_nil ‹_›
  rw [List.length_take]
  omega

/-- **`unzReadCurrentFile`**, with a buffer of a given size. -/
def unzReadCurrentFile (crc : ℕ → Bytes → ℕ) (file : Bytes) (r : ReadInfo) (len : ℕ) :
    Option (Bytes × ReadInfo) :=
  let avail_out :=
    if r.raw then min len (r.restReadCompressed + r.buffer.length)
    else min len r.restReadUncompressed
  readLoop crc file r avail_out []

/-- A file is read with one buffer after the other. -/
def readPieces (crc : ℕ → Bytes → ℕ) (file : Bytes) :
    List ℕ → ReadInfo → Option (List Bytes × ReadInfo)
  | [], r => some ([], r)
  | len :: lens, r => do
    let (bytes, r) ← unzReadCurrentFile crc file r len
    let (pieces, r) ← readPieces crc file lens r
    return (bytes :: pieces, r)

/-- `unzCloseCurrentFile`: whether there is no error. -/
def closesWell (r : ReadInfo) : Bool :=
  !(r.restReadUncompressed = 0 && !r.raw && r.crc32 ≠ r.crc32Wait)

/-! ## What is read -/

/-- What is still to be read. -/
def ReadInfo.remaining (file : Bytes) (r : ReadInfo) : Bytes :=
  r.buffer ++ (file.drop (r.posInZipfile + r.byteBefore)).take r.restReadCompressed

/-- A stored file of which some bytes were read. -/
structure Reads (crc : ℕ → Bytes → ℕ) (file : Bytes) (r : ReadInfo) (done rest : Bytes) :
    Prop where
  inside : r.posInZipfile + r.byteBefore + r.restReadCompressed ≤ file.length
  remaining : r.remaining file = rest
  uncompressed : r.restReadUncompressed = rest.length
  small : rest.length < 2 ^ 64
  checksum : r.crc32 = crc 0 done
  raw : r.raw = false

section Reading

variable {crc : ℕ → Bytes → ℕ} {file : Bytes} {r : ReadInfo} {done rest : Bytes}

/-- **What is to be read stays the same** when the buffer is filled. -/
theorem Reads.refill (h : Reads crc file r done rest) :
    ∃ r', Minizip.refill file r = some r' ∧ Reads crc file r' done rest ∧
      r'.crc32Wait = r.crc32Wait ∧ (r'.buffer = [] → rest = []) := by
  by_cases hempty : r.buffer = [] ∧ 0 < r.restReadCompressed
  · have hle : min unzBufSize r.restReadCompressed ≤ r.restReadCompressed := Nat.min_le_right _ _
    have hpos : 0 < min unzBufSize r.restReadCompressed :=
      Nat.lt_min.2 ⟨by decide, hempty.2⟩
    have hinside := h.inside
    have hlength : ((file.drop (r.posInZipfile + r.byteBefore)).take
        (min unzBufSize r.restReadCompressed)).length = min unzBufSize r.restReadCompressed :=
      List.length_take_of_le (by rw [List.length_drop]; omega)
    have hrest : rest = (file.drop (r.posInZipfile + r.byteBefore)).take r.restReadCompressed := by
      rw [← h.remaining, ReadInfo.remaining, hempty.1]
      rfl
    rw [Minizip.refill, if_pos hempty]
    dsimp only
    rw [if_pos hlength]
    refine ⟨_, rfl, { h with inside := ?_, remaining := ?_ }, rfl, fun hbuffer => ?_⟩
    · dsimp only
      omega
    · have hnext : file.drop (r.posInZipfile + min unzBufSize r.restReadCompressed +
          r.byteBefore) = (file.drop (r.posInZipfile + r.byteBefore)).drop
            (min unzBufSize r.restReadCompressed) := by
        rw [List.drop_drop, Nat.add_right_comm]
      rw [ReadInfo.remaining, hrest]
      dsimp only
      rw [hnext, ← List.take_add, Nat.add_sub_cancel' hle]
    · have hnone : min unzBufSize r.restReadCompressed = 0 :=
        hlength.symm.trans (congrArg List.length hbuffer)
      exact absurd hnone hpos.ne'
  · refine ⟨r, if_neg hempty, h, rfl, fun hbuffer => ?_⟩
    have hzero : r.restReadCompressed = 0 := by
      by_contra hpos
      exact hempty ⟨hbuffer, Nat.pos_of_ne_zero hpos⟩
    rw [← h.remaining, ReadInfo.remaining, hbuffer, hzero, List.take_zero, List.append_nil]

/-- **The loop reads what is left**, as much as there is room for. -/
theorem Reads.loop (happend : ∀ a b, crc (crc 0 a) b = crc 0 (a ++ b))
    (h : Reads crc file r done rest) (n : ℕ) (out : Bytes) :
    ∃ r', readLoop crc file r n out = some (out ++ rest.take n, r') ∧
      Reads crc file r' (done ++ rest.take n) (rest.drop n) ∧ r'.crc32Wait = r.crc32Wait := by
  induction n using Nat.strong_induction_on generalizing r done rest out with
  | _ n ih =>
  rw [readLoop]
  split_ifs with hroom
  · obtain ⟨r', hrefill, h', hwait, hend⟩ := h.refill
    rw [hrefill]
    dsimp only
    by_cases hbuffer : r'.buffer = []
    · obtain rfl := hend hbuffer
      refine ⟨r', ?_, ?_, hwait⟩
      · rw [if_pos hbuffer, List.take_nil, List.append_nil]
      · rw [List.take_nil, List.drop_nil, List.append_nil]
        exact h'
    · have hsome := List.length_pos_of_ne_nil hbuffer
      have hcopied : (r'.buffer.take n).length = min n r'.buffer.length := List.length_take
      have hrest : rest = r'.buffer ++
          (file.drop (r'.posInZipfile + r'.byteBefore)).take r'.restReadCompressed :=
        h'.remaining.symm
      have hle : min n r'.buffer.length ≤ rest.length := by
        rw [hrest, List.length_append]
        omega
      have hbytes : r'.buffer.take n = rest.take (min n r'.buffer.length) := by
        rw [hrest, List.take_append_of_le_length (Nat.min_le_right _ _)]
        exact List.take_eq_take_min
      have hdrop : r'.buffer.drop n = r'.buffer.drop (min n r'.buffer.length) := by
        rcases Nat.le_total n r'.buffer.length with hn | hn
        · rw [Nat.min_eq_left hn]
        · rw [Nat.min_eq_right hn, List.drop_length, List.drop_eq_nil_of_le hn]
      have hnext : Reads crc file { r' with
          crc32 := crc r'.crc32 (r'.buffer.take n)
          restReadUncompressed := subtract r'.restReadUncompressed (r'.buffer.take n).length
          buffer := r'.buffer.drop n } (done ++ r'.buffer.take n)
          (rest.drop (min n r'.buffer.length)) :=
        { inside := h'.inside
          remaining := by
            change r'.buffer.drop n ++
              (file.drop (r'.posInZipfile + r'.byteBefore)).take r'.restReadCompressed = _
            rw [hdrop, ← List.drop_append_of_le_length (Nat.min_le_right _ _), ← hrest]
          uncompressed := by
            change subtract r'.restReadUncompressed _ = _
            rw [h'.uncompressed, hcopied, subtract_eq h'.small hle, List.length_drop]
          small := by
            have := h'.small
            rw [List.length_drop]
            omega
          checksum := by
            change crc r'.crc32 _ = _
            rw [h'.checksum, happend]
          raw := h'.raw }
      obtain ⟨r'', hloop, hreads, hwait'⟩ := ih (n - (r'.buffer.take n).length) (by omega) hnext
        (out ++ r'.buffer.take n)
      have hjoin : r'.buffer.take n ++ (rest.drop (min n r'.buffer.length)).take
          (n - (r'.buffer.take n).length) = rest.take n := by
        rw [hbytes, ← hbytes, hcopied, hbytes, ← List.take_add,
          Nat.add_sub_cancel' (Nat.min_le_left _ _)]
      refine ⟨r'', ?_, ?_, hwait'.trans hwait⟩
      · rw [if_neg hbuffer, hloop, List.append_assoc, hjoin]
      · rw [List.append_assoc, hjoin, List.drop_drop, hcopied,
          Nat.add_sub_cancel' (Nat.min_le_left _ _)] at hreads
        exact hreads
  · obtain rfl := Nat.eq_zero_of_not_pos hroom
    refine ⟨r, ?_, ?_, rfl⟩
    · rw [List.take_zero, List.append_nil]
    · rw [List.take_zero, List.append_nil, List.drop_zero]
      exact h

theorem Reads.read (happend : ∀ a b, crc (crc 0 a) b = crc 0 (a ++ b))
    (h : Reads crc file r done rest) (len : ℕ) :
    ∃ r', unzReadCurrentFile crc file r len = some (rest.take len, r') ∧
      Reads crc file r' (done ++ rest.take len) (rest.drop len) ∧ r'.crc32Wait = r.crc32Wait := by
  obtain ⟨r', hloop, hreads, hwait⟩ := h.loop happend (min len rest.length) []
  have htake : rest.take (min len rest.length) = rest.take len := List.take_eq_take_min.symm
  have hdrop : rest.drop (min len rest.length) = rest.drop len := by
    rcases Nat.le_total len rest.length with hlen | hlen
    · rw [Nat.min_eq_left hlen]
    · rw [Nat.min_eq_right hlen, List.drop_length, List.drop_eq_nil_of_le hlen]
  rw [htake, hdrop] at hreads
  rw [htake] at hloop
  refine ⟨r', ?_, hreads, hwait⟩
  rw [unzReadCurrentFile, h.raw, h.uncompressed]
  exact hloop

/-- **Pieces do not matter**: read with any buffers, the file comes out whole. -/
theorem Reads.pieces (happend : ∀ a b, crc (crc 0 a) b = crc 0 (a ++ b))
    (h : Reads crc file r done rest) (lens : List ℕ) :
    ∃ pieces r', readPieces crc file lens r = some (pieces, r') ∧
      pieces.flatten = rest.take lens.sum ∧
      Reads crc file r' (done ++ rest.take lens.sum) (rest.drop lens.sum) ∧
      r'.crc32Wait = r.crc32Wait := by
  induction lens generalizing r done rest with
  | nil =>
    refine ⟨[], r, rfl, (List.take_zero).symm, ?_, rfl⟩
    rw [List.sum_nil, List.take_zero, List.append_nil, List.drop_zero]
    exact h
  | cons len lens ih =>
    obtain ⟨r', hread, hreads, hwait⟩ := h.read happend len
    obtain ⟨pieces, r'', hpieces, hflatten, hreads', hwait'⟩ := ih hreads
    refine ⟨rest.take len :: pieces, r'', ?_, ?_, ?_, hwait'.trans hwait⟩
    · rw [readPieces, hread]
      dsimp only [Option.bind_eq_bind, Option.bind_some]
      rw [hpieces]
      rfl
    · rw [List.flatten_cons, hflatten, List.sum_cons, List.take_add]
    · rw [List.append_assoc, ← List.take_add, List.drop_drop] at hreads'
      exact hreads'

theorem closesWell_iff (h : Reads crc file r done rest) :
    closesWell r = true ↔ (rest = [] → crc 0 done = r.crc32Wait) := by
  rw [closesWell, h.uncompressed, h.raw, h.checksum]
  by_cases hrest : rest = []
  · simp [hrest]
  · simp [hrest]

theorem checkCoherencyHeader_eq {front back : Bytes} {f : NewFile} {byteBefore checksum size : ℕ}
    (hfits : ∀ field ∈ f.localFields checksum size size, field.1 < 256 ^ field.2)
    (hmethod : f.method = 0 ∨ f.method = 8) (hbefore : byteBefore ≤ front.length) :
    checkCoherencyHeader (front ++ (putValues (f.localFields checksum size size) ++ back)) byteBefore
        ⟨front.length - byteBefore, f.method, checksum, size, size, f.name.length⟩ =
      some f.localTexts.length := by
  have hdrop : (front ++ (putValues (f.localFields checksum size size) ++ back)).drop
      (front.length - byteBefore + byteBefore) =
      putValues (f.localFields checksum size size) ++ back := by
    rw [Nat.sub_add_cancel hbefore]
    exact List.drop_left
  have hread : getValues [4, 2, 2, 2, 4, 4, 4, 4, 2, 2]
      (putValues (f.localFields checksum size size) ++ back) =
      some ((f.localFields checksum size size).map Prod.fst) := getValues_putValues hfits back
  have htexts : f.localTexts.length = f.name.length + (f.extrafieldLocal.length +
      if f.zip64 then 20 else 0) := by
    unfold NewFile.localTexts
    rw [List.length_append, List.length_append, Nat.add_assoc]
    split_ifs
    · rw [length_putValues]
      rfl
    · rfl
  rw [checkCoherencyHeader]
  dsimp only
  rw [hdrop, hread]
  rcases hmethod with hmethod | hmethod <;> simp [NewFile.localFields, htexts, hmethod]

/-- **A file that was just opened** is to be read whole. -/
theorem reads_opened {front bytes back : Bytes} (hnil : crc 0 [] = 0)
    (hpos : r.posInZipfile + r.byteBefore = front.length)
    (hcompressed : r.restReadCompressed = bytes.length)
    (huncompressed : r.restReadUncompressed = bytes.length) (hbuffer : r.buffer = [])
    (hcrc : r.crc32 = 0) (hraw : r.raw = false) (hsmall : bytes.length < 2 ^ 64) :
    Reads crc (front ++ (bytes ++ back)) r [] bytes where
  inside := by
    rw [hpos, hcompressed, ← List.append_assoc, List.length_append, List.length_append]
    exact Nat.le_add_right _ _
  remaining := by
    rw [ReadInfo.remaining, hpos, hcompressed, hbuffer, List.drop_left]
    exact List.take_left
  uncompressed := huncompressed
  small := hsmall
  checksum := hcrc.trans hnil.symm
  raw := hraw

/-- **A stored file is read as it was written**, whatever is in front of it and
behind it, with buffers of any sizes; it is closed without an error if and only
if its checksum is right, or not all of it was read. -/
theorem read_entry {front back bytes : Bytes} {f : NewFile} {byteBefore checksum : ℕ}
    (hnil : crc 0 [] = 0) (happend : ∀ a b, crc (crc 0 a) b = crc 0 (a ++ b))
    (hfits : ∀ field ∈ f.localFields checksum bytes.length bytes.length, field.1 < 256 ^ field.2)
    (hmethod : f.method = 0) (hbefore : byteBefore ≤ front.length) :
    ∃ r, unzOpenCurrentFile
        (front ++ (putValues (f.localFields checksum bytes.length bytes.length) ++
          (f.localTexts ++ (bytes ++ back)))) byteBefore
        ⟨front.length - byteBefore, f.method, checksum, bytes.length, bytes.length, f.name.length⟩
        false = some r ∧
      ∀ lens : List ℕ, ∃ pieces r', readPieces crc
        (front ++ (putValues (f.localFields checksum bytes.length bytes.length) ++
          (f.localTexts ++ (bytes ++ back)))) lens r = some (pieces, r') ∧
        pieces.flatten = bytes.take lens.sum ∧
        (closesWell r' = true ↔ (bytes.length ≤ lens.sum → crc 0 bytes = checksum)) := by
  let r : ReadInfo := ⟨false, checksum, 0,
    front.length - byteBefore + 30 + f.localTexts.length, byteBefore, bytes.length, bytes.length, []⟩
  have hheader : (putValues (f.localFields checksum bytes.length bytes.length)).length = 30 :=
    length_putValues _
  have hpos : r.posInZipfile + r.byteBefore = (front ++ (putValues
      (f.localFields checksum bytes.length bytes.length) ++ f.localTexts)).length := by
    rw [List.length_append, List.length_append, hheader]
    change front.length - byteBefore + 30 + f.localTexts.length + byteBefore = _
    omega
  have hfile : front ++ (putValues (f.localFields checksum bytes.length bytes.length) ++
      (f.localTexts ++ (bytes ++ back))) = front ++ (putValues
        (f.localFields checksum bytes.length bytes.length) ++ f.localTexts) ++ (bytes ++ back) := by
    rw [List.append_assoc, List.append_assoc]
  have hsize : bytes.length < 256 ^ 4 :=
    hfits (bytes.length, 4) (by simp [NewFile.localFields])
  have hopen := @reads_opened crc r _ bytes back hnil hpos rfl rfl rfl rfl rfl
    (hsize.trans (by decide))
  rw [← hfile] at hopen
  refine ⟨r, ?_, fun lens => ?_⟩
  · rw [unzOpenCurrentFile, checkCoherencyHeader_eq hfits (.inl hmethod) hbefore, hmethod]
    rfl
  · obtain ⟨pieces, r', hpieces, hflatten, hreads, hwait⟩ := hopen.pieces happend lens
    refine ⟨pieces, r', hpieces, hflatten, ?_⟩
    rw [closesWell_iff hreads, hwait, List.drop_eq_nil_iff, List.nil_append]
    refine forall_congr' fun hall => ?_
    rw [List.take_of_length_le hall]

end Reading

theorem read_entry_storedFile :
    ∃ r, unzOpenCurrentFile ([7] ++ (putValues (storedFile.localFields 0xb6cc4292 2 2) ++
        (storedFile.localTexts ++ ([1, 2] ++ [])))) 1 ⟨0, 0, 0xb6cc4292, 2, 2, 1⟩ false = some r ∧
      ∀ lens : List ℕ, ∃ pieces r', readPieces crc32
        ([7] ++ (putValues (storedFile.localFields 0xb6cc4292 2 2) ++
          (storedFile.localTexts ++ ([1, 2] ++ [])))) lens r = some (pieces, r') ∧
        pieces.flatten = [1, 2].take lens.sum ∧
        (closesWell r' = true ↔ (2 ≤ lens.sum → crc32 0 [1, 2] = 0xb6cc4292)) :=
  @read_entry crc32 [7] [] [1, 2] storedFile 1 0xb6cc4292 crc32_nil crc32_append (by decide) rfl
    (by decide)

end Minizip

end Supercell
