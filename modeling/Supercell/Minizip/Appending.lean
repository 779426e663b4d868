import Supercell.Minizip.EndRecord

/-!
# Minizip — adding to an archive

The directory of an archive that is opened to add files to it is read into
blocks, the files are written over the old directory, and what was read is
written behind them. Over any number of such sessions no entry of the
directory is lost and none is written twice.
-/

namespace Supercell

namespace Minizip

/-! ## The code -/

/-- `SIZEDATA_INDATABLOCK`. -/
def dataBlockSize : ℕ := 4096 - 4 * 4

/-- The loop of `add_data_in_datablock`: what is in the last block, and what is
still to be copied. -/
def fillBlocks (full : List Bytes) (ldi buf : Bytes) : List Bytes :=
  if buf = [] then full ++ [ldi]
  else if dataBlockSize ≤ ldi.length then
    fillBlocks (full ++ [ldi]) (buf.take dataBlockSize) (buf.drop dataBlockSize)
  else
    fillBlocks full (ldi ++ buf.take (dataBlockSize - ldi.length))
      (buf.drop (dataBlockSize - ldi.length))
termination_by buf.length
decreasing_by
  all_goals
    have := List.length_pos_of_ne_nil ‹_›
    rw [List.length_drop]
    unfold dataBlockSize at *
    omega

/-- **`add_data_in_datablock`**. -/
def addDataInDatablock (blocks : List Bytes) (buf : Bytes) : List Bytes :=
  fillBlocks blocks.dropLast (blocks.getLast?.getD []) buf

/-- The directory of an archive is read, one block at a time. -/
def loadDirectory (bytes : Bytes) (blocks : List Bytes) (size_central_dir_to_read : ℕ) :
    Option (List Bytes) :=
  if 0 < size_central_dir_to_read then
    let read_this := min dataBlockSize size_central_dir_to_read
    if bytes.length < read_this then none
    else
      loadDirectory (bytes.drop read_this) (addDataInDatablock blocks (bytes.take read_this))
        (size_central_dir_to_read - read_this)
  else some blocks
termination_by size_central_dir_to_read
decreasing_by
  unfold dataBlockSize
  omega

/-- **`LoadCentralDirectoryRecord`**. An archive whose record stands at its start
is read too. -/
def loadCentralDirectoryRecord (file : Bytes) : Option ZipFile := do
  let central_pos := searchCentralDir64 file
  let s ← if 0 < central_pos then readZip64Record file central_pos
    else readEndRecord file (searchSignature endSignature file)
  let start := (s.offsetCentralDir + s.byteBefore) % 2 ^ 64
  let blocks ← loadDirectory (file.drop start) [] s.sizeCentralDir
  return {
    written := file.take start
    behind := file.drop start
    centralDir := blocks
    addPosition := s.byteBefore
    numberEntry := s.numberEntry
    globalcomment := if 0 < s.sizeComment then
      some ((file.drop (s.centralPos + 22)).take s.sizeComment) else none }

/-- A file of an archive: what it leaves where it is written, and its entry in
the directory. -/
structure Entry where
  bytes : Bytes
  header : Bytes

/-- The archive with one more file. -/
def ZipFile.add (zi : ZipFile) (entry : Entry) : ZipFile :=
  { zi with
    written := zi.written ++ entry.bytes
    behind := zi.behind.drop entry.bytes.length
    centralDir := addDataInDatablock zi.centralDir entry.header
    numberEntry := zi.numberEntry + 1 }

/-- An archive is opened, files are added, and it is closed. -/
structure Session where
  entries : List Entry
  global_comment : Option Bytes

def Session.run (session : Session) (file : Bytes) : Option Bytes := do
  let zi ← loadCentralDirectoryRecord file
  return zipClose (session.entries.foldl ZipFile.add zi) session.global_comment

def runSessions : List Session → Bytes → Option Bytes
  | [], file => some file
  | session :: sessions, file => (session.run file).bind (runSessions sessions)

/-! ## Blocks -/

/-- **However a text is divided into blocks**, the blocks hold it. -/
theorem flatten_fillBlocks (full : List Bytes) (ldi buf : Bytes) :
    (fillBlocks full ldi buf).flatten = full.flatten ++ (ldi ++ buf) := by
  fun_induction fillBlocks full ldi buf with
  | case1 full ldi =>
    rw [List.flatten_append, List.flatten_singleton, List.append_nil]
  | case2 full ldi buf hbuf hfull ih =>
    rw [ih, List.take_append_drop, List.flatten_append, List.flatten_singleton, List.append_assoc]
  | case3 full ldi buf hbuf hfull ih =>
    rw [ih, List.append_assoc, List.take_append_drop]

theorem flatten_addDataInDatablock (blocks : List Bytes) (buf : Bytes) :
    (addDataInDatablock blocks buf).flatten = blocks.flatten ++ buf := by
  rw [addDataInDatablock, flatten_fillBlocks]
  rcases List.eq_nil_or_concat blocks with rfl | ⟨blocks, last, rfl⟩
  · rfl
  · rw [List.concat_eq_append, List.dropLast_concat, List.getLast?_concat, List.flatten_append,
      List.flatten_singleton, List.append_assoc]
    rfl

theorem exists_loadDirectory {bytes : Bytes} {blocks : List Bytes} {size : ℕ}
    (h : size ≤ bytes.length) :
    ∃ blocks', loadDirectory bytes blocks size = some blocks' ∧
      blocks'.flatten = blocks.flatten ++ bytes.take size := by
  fun_induction loadDirectory bytes blocks size with
  | case1 bytes blocks size hsize read_this hshort =>
    exact absurd hshort (Nat.not_lt.2 ((Nat.min_le_right _ _).trans h))
  | case2 bytes blocks size hsize read_this hshort ih =>
    obtain ⟨blocks', hload, hflatten⟩ := ih (by rw [List.length_drop]; omega)
    refine ⟨blocks', hload, ?_⟩
    have hread : read_this ≤ size := Nat.min_le_right _ _
    rw [hflatten, flatten_addDataInDatablock, List.append_assoc, ← List.take_add,
      Nat.add_sub_cancel' hread]
  | case3 bytes blocks size hsize =>
    refine ⟨blocks, rfl, ?_⟩
    rw [Nat.eq_zero_of_not_pos hsize, List.take_zero, List.append_nil]

/-! ## What an archive holds -/

/-- An archive: the bytes in front of its directory, among them some that are not
its own, the directory, and the comment, which is a text without zeros. -/
@[ext] structure Archive where
  contents : Bytes
  directory : Bytes
  count : ℕ
  comment : Bytes
  before : ℕ
  comment_text : 0 ∉ comment

def ZipFile.archive (zi : ZipFile) (global_comment : Option Bytes) : Archive where
  contents := zi.written
  directory := zi.directory
  count := zi.numberEntry
  comment := zi.comment global_comment
  before := zi.addPosition
  comment_text := notMem_cString _

namespace Archive

def endPos (a : Archive) : ℕ := a.contents.length + a.directory.length

def add (a : Archive) (entry : Entry) : Archive :=
  { a with
    contents := a.contents ++ entry.bytes
    directory := a.directory ++ entry.header
    count := a.count + 1 }

/-- The archive with the comment that is given, if there is one. -/
def withComment (a : Archive) : Option Bytes → Archive
  | none => a
  | some comment => { a with comment := cString comment, comment_text := notMem_cString comment }

/-- The archive after a session, which may leave the comment as it is. -/
def after (a : Archive) (session : Session) : Archive :=
  session.entries.foldl add (a.withComment session.global_comment)

/-- **An archive that is found again** in a file: its numbers fit, and its record
is the one that the search finds. -/
structure Sound (a : Archive) (file : Bytes) : Prop where
  length_lt : a.contents.length < 2 ^ 64
  before_le : a.before ≤ a.contents.length
  offset_lt : a.contents.length - a.before < 0xffffffff
  directory_lt : a.directory.length < 2 ^ 32
  comment_lt : a.comment.length < 2 ^ 16
  count_le : a.count ≤ 0xffff
  no_locator : ∀ pos, ¬ Reach locatorSignature file pos
  endPos_pos : 0 < a.endPos
  near : file.length ≤ a.endPos + 0xffff
  last : ∀ pos, a.endPos < pos → (file.drop pos).take 4 ≠ endSignature

theorem foldl_add (a : Archive) (entries : List Entry) :
    entries.foldl add a =
      { a with
        contents := a.contents ++ (entries.map Entry.bytes).flatten
        directory := a.directory ++ (entries.map Entry.header).flatten
        count := a.count + entries.length } := by
  induction entries generalizing a with
  | nil => simp
  | cons entry entries ih =>
    rw [List.foldl_cons, ih]
    simp [add, Nat.add_assoc, Nat.add_comm 1]

end Archive

section Sessions

variable {zi : ZipFile} {global_comment : Option Bytes}

theorem archive_add (zi : ZipFile) (entry : Entry) (global_comment : Option Bytes) :
    (zi.add entry).archive global_comment = (zi.archive global_comment).add entry := by
  have hdirectory : (zi.add entry).directory = zi.directory ++ entry.header :=
    flatten_addDataInDatablock zi.centralDir entry.header
  rw [ZipFile.archive, hdirectory]
  rfl

theorem archive_foldl_add (zi : ZipFile) (entries : List Entry) (global_comment : Option Bytes) :
    (entries.foldl ZipFile.add zi).archive global_comment =
      entries.foldl Archive.add (zi.archive global_comment) := by
  induction entries generalizing zi with
  | nil => rfl
  | cons entry entries ih => rw [List.foldl_cons, ih, archive_add, List.foldl_cons]

theorem archive_comment (zi : ZipFile) (global_comment : Option Bytes) :
    zi.archive global_comment = (zi.archive none).withComment global_comment := by
  cases global_comment <;> rfl

/-- **A session adds its files** to what it has opened. -/
theorem archive_session (zi : ZipFile) (session : Session) :
    (session.entries.foldl ZipFile.add zi).archive session.global_comment =
      (zi.archive none).after session := by
  rw [archive_foldl_add, archive_comment]
  rfl

theorem Archive.Sound.offset_eq
    (h : (zi.archive global_comment).Sound (zipClose zi global_comment)) :
    zi.offset = zi.written.length - zi.addPosition := ZipFile.offset_eq h.length_lt h.before_le

theorem Archive.Sound.offset_small
    (h : (zi.archive global_comment).Sound (zipClose zi global_comment)) :
    zi.offset < 0xffffffff := h.offset_eq ▸ h.offset_lt

theorem endPos_eq_of_sound (h : (zi.archive global_comment).Sound (zipClose zi global_comment)) :
    searchSignature endSignature (zipClose zi global_comment) = zi.endPos := by
  have hlength := length_zipClose h.offset_small h.comment_lt
  have hnear := h.near
  have hend : (zi.archive global_comment).endPos = zi.endPos := rfl
  refine (searchSignature_eq_iff h.endPos_pos.ne' rfl).2 ⟨?_, h.last⟩
  exact (reach_endPos h.offset_small h.comment_lt).2 ⟨h.endPos_pos, by omega⟩

/-- The archive that is opened, with the directory in blocks of its own. -/
def loaded (zi : ZipFile) (global_comment : Option Bytes) (blocks : List Bytes) : ZipFile where
  written := zi.written
  behind := (zipClose zi global_comment).drop zi.written.length
  centralDir := blocks
  addPosition := zi.addPosition
  numberEntry := min zi.numberEntry 0xffff
  globalcomment := if 0 < (zi.comment global_comment).length then
    some (zi.comment global_comment) else none

theorem archive_loaded {blocks : List Bytes} (hblocks : blocks.flatten = zi.directory)
    (hcount : zi.numberEntry ≤ 0xffff) :
    (loaded zi global_comment blocks).archive none = zi.archive global_comment := by
  have hcomment : (loaded zi global_comment blocks).comment none = zi.comment global_comment := by
    change cString ((if 0 < (zi.comment global_comment).length then
      some (zi.comment global_comment) else none).getD []) = _
    split_ifs with hempty
    · exact cString_eq_self (notMem_cString _)
    · exact (List.eq_nil_of_length_eq_zero (Nat.eq_zero_of_not_pos hempty)).symm
  exact Archive.ext rfl hblocks (Nat.min_eq_left hcount) hcomment rfl

/-- **What is opened is what was closed.** -/
theorem load_zipClose (h : (zi.archive global_comment).Sound (zipClose zi global_comment)) :
    ∃ zi', loadCentralDirectoryRecord (zipClose zi global_comment) = some zi' ∧
      zi'.archive none = zi.archive global_comment ∧
      zi'.behind = (zipClose zi global_comment).drop zi.written.length := by
  have hrecord := readEndRecord_zipClose h.length_lt h.before_le h.offset_small h.directory_lt
    h.comment_lt
  have hstart : (zi.offset + zi.addPosition) % 2 ^ 64 = zi.written.length := by
    have hsum : zi.written.length - zi.addPosition + zi.addPosition = zi.written.length :=
      Nat.sub_add_cancel h.before_le
    rw [h.offset_eq, hsum]
    exact Nat.mod_eq_of_lt h.length_lt
  have hfile : zipClose zi global_comment = zi.written ++ (zi.directory ++
      (closing zi global_comment ++ left zi global_comment)) := by
    rw [zipClose]
    simp only [List.append_assoc]
  have hwritten : (zipClose zi global_comment).take zi.written.length = zi.written := by
    rw [hfile]
    exact List.take_left
  have hbehind : (zipClose zi global_comment).drop zi.written.length = zi.directory ++
      (closing zi global_comment ++ left zi global_comment) := by
    rw [hfile]
    exact List.drop_left
  obtain ⟨blocks, hload, hblocks⟩ := @exists_loadDirectory
    ((zipClose zi global_comment).drop zi.written.length) [] zi.directory.length
    (by rw [hbehind, List.length_append]; exact Nat.le_add_right _ _)
  have hdirectory : blocks.flatten = zi.directory := by
    rw [hblocks, hbehind]
    exact List.take_left
  have hcomment : ((zipClose zi global_comment).drop (zi.endPos + 22)).take
      (zi.comment global_comment).length = zi.comment global_comment := by
    rw [drop_comment h.offset_small h.comment_lt]
    exact List.take_left
  refine ⟨loaded zi global_comment blocks, ?_, archive_loaded hdirectory h.count_le, rfl⟩
  rw [loadCentralDirectoryRecord, searchCentralDir64_eq_zero h.no_locator, endPos_eq_of_sound h]
  dsimp only
  rw [if_neg (Nat.lt_irrefl 0), hrecord]
  dsimp only [Option.bind_eq_bind, Option.bind_some, ZipFile.reopened]
  rw [hstart, hload, hwritten, hcomment]
  rfl

/-- What is written at the end depends on what the archive holds. -/
theorem closing_congr {zi zi' : ZipFile} {global_comment global_comment' : Option Bytes}
    (h : zi'.archive global_comment' = zi.archive global_comment) :
    closing zi' global_comment' = closing zi global_comment := by
  obtain ⟨hcontents, hdirectory, hcount, hcomment, hbefore⟩ := Archive.ext_iff.1 h
  change zi'.written = zi.written at hcontents
  change zi'.directory = zi.directory at hdirectory
  change zi'.numberEntry = zi.numberEntry at hcount
  change zi'.comment global_comment' = zi.comment global_comment at hcomment
  change zi'.addPosition = zi.addPosition at hbefore
  have hwritten : writeGlobalComment ((global_comment'.or zi'.globalcomment).getD []) =
      writeGlobalComment ((global_comment.or zi.globalcomment).getD []) := by
    rw [← writeGlobalComment_cString, ← writeGlobalComment_cString ((global_comment.or _).getD _)]
    exact congrArg writeGlobalComment hcomment
  simp only [closing, ZipFile.sum_blocks, zip64Record, zip64Locator, endRecord, hcontents,
    hdirectory, hcount, hwritten, hbefore]

/-- The archive with what it holds in one block. -/
def canonical (a : Archive) (behind : Bytes) : ZipFile where
  written := a.contents
  behind := behind
  centralDir := [a.directory]
  addPosition := a.before
  numberEntry := a.count
  globalcomment := some a.comment

theorem archive_canonical (a : Archive) (behind : Bytes) : (canonical a behind).archive none = a :=
  Archive.ext rfl List.flatten_singleton rfl (cString_eq_self a.comment_text) rfl

/-- **A file depends on what the archive holds**, and on what was behind. -/
theorem zipClose_canonical (zi : ZipFile) (global_comment : Option Bytes) :
    zipClose zi global_comment = zipClose (canonical (zi.archive global_comment) zi.behind) none := by
  have hclosing := closing_congr (archive_canonical (zi.archive global_comment) zi.behind)
  have hdirectory : (canonical (zi.archive global_comment) zi.behind).directory = zi.directory :=
    List.flatten_singleton
  have hleft : left (canonical (zi.archive global_comment) zi.behind) none =
      left zi global_comment := by
    rw [left, left, hclosing, hdirectory]
    rfl
  rw [zipClose, zipClose, hclosing, hdirectory, hleft]
  rfl

theorem behind_foldl_add (zi : ZipFile) (entries : List Entry) :
    (entries.foldl ZipFile.add zi).behind =
      zi.behind.drop (entries.map Entry.bytes).flatten.length := by
  induction entries generalizing zi with
  | nil => rfl
  | cons entry entries ih =>
    rw [List.foldl_cons, ih, List.map_cons, List.flatten_cons, List.length_append]
    exact List.drop_drop

/-- **A session, on an archive that is found again.** -/
theorem run_zipClose (h : (zi.archive global_comment).Sound (zipClose zi global_comment))
    (session : Session) :
    session.run (zipClose zi global_comment) = some (zipClose
      (canonical ((zi.archive global_comment).after session)
        ((zipClose zi global_comment).drop
          (zi.written.length + (session.entries.map Entry.bytes).flatten.length))) none) := by
  obtain ⟨zi', hload, harchive, hbehind⟩ := load_zipClose h
  have hclosed := zipClose_canonical (session.entries.foldl ZipFile.add zi') session.global_comment
  rw [archive_session, harchive, behind_foldl_add, hbehind, List.drop_drop] at hclosed
  rw [Session.run, hload]
  exact congrArg some hclosed

/-- **Opened and closed at once, an archive is as it was.** -/
theorem run_nothing (h : (zi.archive global_comment).Sound (zipClose zi global_comment)) :
    Session.run ⟨[], none⟩ (zipClose zi global_comment) = some (zipClose zi global_comment) := by
  have hbehind : (zipClose zi global_comment).drop zi.written.length = zi.directory ++
      closing zi global_comment ++ left zi global_comment := by
    rw [zipClose]
    simp only [List.append_assoc, List.drop_left]
  have hclosing := closing_congr (archive_canonical (zi.archive global_comment)
    ((zipClose zi global_comment).drop zi.written.length))
  have hdirectory : (canonical (zi.archive global_comment)
      ((zipClose zi global_comment).drop zi.written.length)).directory = zi.directory :=
    List.flatten_singleton
  have hleft : left (canonical (zi.archive global_comment)
      ((zipClose zi global_comment).drop zi.written.length)) none = left zi global_comment := by
    rw [left, hclosing, hdirectory]
    change ((zipClose zi global_comment).drop zi.written.length).drop _ = _
    rw [hbehind]
    exact List.drop_left
  rw [run_zipClose h]
  refine congrArg some ?_
  change zipClose (canonical (zi.archive global_comment)
    ((zipClose zi global_comment).drop zi.written.length)) none = _
  rw [zipClose, hdirectory, hclosing, hleft]
  rfl

/-- **Any number of sessions**, where each one leaves an archive that is found
again: the next ones go on from there. -/
theorem runSessions_zipClose (sessions : List Session)
    (h : ∀ done file, done <+: sessions → runSessions done (zipClose zi global_comment) = some file →
      (done.foldl Archive.after (zi.archive global_comment)).Sound file) :
    ∃ (zi' : ZipFile) (global_comment' : Option Bytes),
      runSessions sessions (zipClose zi global_comment) = some (zipClose zi' global_comment') ∧
      zi'.archive global_comment' = sessions.foldl Archive.after (zi.archive global_comment) := by
  induction sessions generalizing zi global_comment with
  | nil => exact ⟨zi, global_comment, rfl, rfl⟩
  | cons session sessions ih =>
    have hsound := h [] _ (List.nil_prefix) rfl
    have hrun := run_zipClose hsound session
    have hrest : ∀ done file, done <+: sessions →
        runSessions done (zipClose (canonical ((zi.archive global_comment).after session)
          ((zipClose zi global_comment).drop
            (zi.written.length + (session.entries.map Entry.bytes).flatten.length))) none) =
          some file →
        (done.foldl Archive.after ((canonical ((zi.archive global_comment).after session)
          ((zipClose zi global_comment).drop
            (zi.written.length + (session.entries.map Entry.bytes).flatten.length))).archive
              none)).Sound file := by
      intro done file hdone hfile
      rw [archive_canonical]
      refine h (session :: done) file ((List.prefix_cons_inj session).2 hdone) ?_
      rw [runSessions, hrun]
      exact hfile
    obtain ⟨zi', gc, hruns, harchive⟩ := ih hrest
    refine ⟨zi', gc, ?_, ?_⟩
    · rw [runSessions, hrun]
      exact hruns
    · rw [harchive, archive_canonical, List.foldl_cons]

/-- The comment given last, as far as it is a text. -/
def lastComment (comment : Bytes) (sessions : List Session) : Bytes :=
  sessions.foldl (fun c session => (session.global_comment.map cString).getD c) comment

theorem comment_withComment (a : Archive) (global_comment : Option Bytes) :
    (a.withComment global_comment).comment = (global_comment.map cString).getD a.comment := by
  cases global_comment <;> rfl

/-- A session changes what it adds to and the comment. -/
theorem after_eq (a : Archive) (session : Session) :
    (a.after session).contents = a.contents ++ (session.entries.map Entry.bytes).flatten ∧
      (a.after session).directory = a.directory ++ (session.entries.map Entry.header).flatten ∧
      (a.after session).count = a.count + session.entries.length ∧
      (a.after session).comment = (session.global_comment.map cString).getD a.comment ∧
      (a.after session).before = a.before := by
  rw [Archive.after, Archive.foldl_add, ← comment_withComment]
  cases session.global_comment <;> exact ⟨rfl, rfl, rfl, rfl, rfl⟩

theorem foldl_after (a : Archive) (sessions : List Session) :
    (sessions.foldl Archive.after a).contents =
        a.contents ++ ((sessions.flatMap Session.entries).map Entry.bytes).flatten ∧
      (sessions.foldl Archive.after a).directory =
        a.directory ++ ((sessions.flatMap Session.entries).map Entry.header).flatten ∧
      (sessions.foldl Archive.after a).count =
        a.count + (sessions.flatMap Session.entries).length ∧
      (sessions.foldl Archive.after a).comment = lastComment a.comment sessions ∧
      (sessions.foldl Archive.after a).before = a.before := by
  induction sessions generalizing a with
  | nil => simp [lastComment]
  | cons session sessions ih =>
    obtain ⟨hcontents, hdirectory, hcount, hcomment, hbefore⟩ := after_eq a session
    obtain ⟨ihcontents, ihdirectory, ihcount, ihcomment, ihbefore⟩ := ih (a.after session)
    rw [List.foldl_cons, ihcontents, ihdirectory, ihcount, ihcomment, ihbefore, hcontents,
      hdirectory, hcount, hcomment, hbefore]
    simp [lastComment, Nat.add_assoc]

/-- **No entry is lost and none is written twice**, over any number of sessions
that each leave an archive that is found again: the directory is that of the
first archive and then the entries of all sessions in their order, they are
counted, what the files left stands in front of it in the same order, and the
comment is the last one that was given. -/
theorem sessions_keep (zi : ZipFile) (global_comment : Option Bytes) (sessions : List Session)
    (h : ∀ done file, done <+: sessions → runSessions done (zipClose zi global_comment) = some file →
      (done.foldl Archive.after (zi.archive global_comment)).Sound file) :
    ∃ file s, runSessions sessions (zipClose zi global_comment) = some file ∧
      unzOpenInternal file = some s ∧
      s.numberEntry = zi.numberEntry + (sessions.flatMap Session.entries).length ∧
      s.byteBefore = zi.addPosition ∧
      (file.drop (s.offsetCentralDir + s.byteBefore)).take s.sizeCentralDir =
        zi.directory ++ ((sessions.flatMap Session.entries).map Entry.header).flatten ∧
      file.take (s.offsetCentralDir + s.byteBefore) =
        zi.written ++ ((sessions.flatMap Session.entries).map Entry.bytes).flatten ∧
      ∀ uSizeBuf, unzGetGlobalComment file s uSizeBuf =
        some ((lastComment (zi.comment global_comment) sessions).take uSizeBuf) := by
  obtain ⟨zi', gc, hrun, harchive⟩ := runSessions_zipClose sessions h
  have hsound := h sessions _ (List.prefix_refl _) hrun
  obtain ⟨hcontents, hdirectory, hcount, hcomment, hbefore⟩ :=
    foldl_after (zi.archive global_comment) sessions
  rw [← harchive] at hsound hcontents hdirectory hcount hcomment hbefore
  change zi'.written = zi.written ++ _ at hcontents
  change zi'.directory = zi.directory ++ _ at hdirectory
  change zi'.numberEntry = zi.numberEntry + _ at hcount
  change zi'.comment gc = _ at hcomment
  change zi'.addPosition = zi.addPosition at hbefore
  have hnear : (zi'.comment gc).length + (left zi' gc).length + 22 ≤ 0xffff := by
    have hlength := length_zipClose hsound.offset_small hsound.comment_lt
    have hend : (zi'.archive gc).endPos = zi'.endPos := rfl
    have := hsound.near
    omega
  have hopen : unzOpenInternal (zipClose zi' gc) = some (zi'.reopened gc) :=
    (unzOpen_zipClose hsound.length_lt hsound.before_le hsound.offset_small hsound.directory_lt
      hsound.comment_lt hsound.no_locator).2 ⟨hsound.endPos_pos, hnear, hsound.last⟩
  have hstart : (zi'.reopened gc).offsetCentralDir + (zi'.reopened gc).byteBefore =
      zi'.written.length := by
    change zi'.offset + zi'.addPosition = _
    rw [hsound.offset_eq]
    exact Nat.sub_add_cancel hsound.before_le
  have hfile : zipClose zi' gc = zi'.written ++ (zi'.directory ++
      (closing zi' gc ++ left zi' gc)) := by
    rw [zipClose]
    simp only [List.append_assoc]
  refine ⟨zipClose zi' gc, zi'.reopened gc, hrun, hopen, ?_, hbefore, ?_, ?_, fun uSizeBuf => ?_⟩
  · exact (Nat.min_eq_left hsound.count_le).trans hcount
  · rw [hstart, hfile, List.drop_left, ← hdirectory]
    exact List.take_left
  · rw [hstart, hfile, List.take_left, hcontents]
  · rw [unzGetGlobalComment_zipClose hsound.offset_small hsound.comment_lt, hcomment]
    rfl

/-- A session that adds a file and another comment. -/
def addingSession : Session := ⟨[⟨[5], [6, 7]⟩], some [66]⟩

theorem sound_appendedArchive :
    (appendedArchive.archive none).Sound (zipClose appendedArchive none) where
  length_lt := by decide
  before_le := by decide
  offset_lt := by decide
  directory_lt := by decide
  comment_lt := by decide
  count_le := by decide
  no_locator := not_reach_of_forall_lt (by decide)
  endPos_pos := by decide
  near := by decide
  last := drop_ne_of_forall_lt (by decide) (by decide)

theorem sessions_keep_appended :
    ∃ file s, runSessions [addingSession] (zipClose appendedArchive none) = some file ∧
      unzOpenInternal file = some s ∧ s.numberEntry = 2 ∧ s.byteBefore = 2 ∧
      (file.drop (s.offsetCentralDir + s.byteBefore)).take s.sizeCentralDir = [9, 8, 6, 7] ∧
      file.take (s.offsetCentralDir + s.byteBefore) = [7, 7, 1, 2, 5] ∧
      ∀ uSizeBuf, unzGetGlobalComment file s uSizeBuf = some ([66].take uSizeBuf) := by
  refine sessions_keep appendedArchive none [addingSession] fun done file hdone hrun => ?_
  rcases List.prefix_cons_iff.1 hdone with rfl | ⟨rest, rfl, hrest⟩
  · obtain rfl := Option.some.inj hrun
    exact sound_appendedArchive
  · obtain rfl := List.prefix_nil.1 hrest
    rw [runSessions, run_zipClose sound_appendedArchive] at hrun
    obtain rfl := Option.some.inj hrun
    exact {
      length_lt := by decide
      before_le := by decide
      offset_lt := by decide
      directory_lt := by decide
      comment_lt := by decide
      count_le := by decide
      no_locator := not_reach_of_forall_lt (by decide)
      endPos_pos := by decide
      near := by decide
      last := drop_ne_of_forall_lt (by decide) (by decide) }

end Sessions

end Minizip

end Supercell
