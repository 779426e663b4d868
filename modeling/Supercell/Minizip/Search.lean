import Mathlib

/-!
# Minizip — the search for a record

The directory of an archive is found from its end: a record with a signature
stands in front of the global comment. The last 64K of the file are searched
for it, backwards and block by block; neighbouring blocks overlap, as a
signature may stand across a boundary.
-/

namespace Supercell

namespace Minizip

abbrev Bytes := List UInt8

/-! ## The code -/

/-- `BUFREADCOMMENT`. -/
def bufReadComment : ℕ := 0x400

/-- `uMaxBack`, the maximum size of the global comment, and no more than the file. -/
def maxBack (file : Bytes) : ℕ := min 0xffff file.length

/-- The loop over one block: the last of the first places where the signature
stands. -/
def scanBlock (signature buf : Bytes) : ℕ → Option ℕ
  | 0 => none
  | i + 1 => if (buf.drop i).take 4 = signature then some i else scanBlock signature buf i

/-- How far back the next block reaches. -/
def nextBack (file : Bytes) (uBackRead : ℕ) : ℕ :=
  if maxBack file < uBackRead + bufReadComment then maxBack file else uBackRead + bufReadComment

/-- What is read of a block. -/
def readSize (file : Bytes) (uReadPos : ℕ) : ℕ :=
  if bufReadComment + 4 < file.length - uReadPos then bufReadComment + 4
  else file.length - uReadPos

/-- **The search**, from a block on. It ends where a place other than the start
of the file is found. -/
def searchBlocks (signature file : Bytes) (uBackRead : ℕ) : ℕ :=
  if hback : uBackRead < maxBack file then
    let uReadPos := file.length - nextBack file uBackRead
    let buf := (file.drop uReadPos).take (readSize file uReadPos)
    let uPosFound := match scanBlock signature buf (readSize file uReadPos - 3) with
      | some i => uReadPos + i
      | none => 0
    if uPosFound ≠ 0 then uPosFound else searchBlocks signature file (nextBack file uBackRead)
  else 0
termination_by maxBack file - uBackRead
decreasing_by
  unfold nextBack bufReadComment
  split_ifs <;> omega

/-- `SearchCentralDir`, and the first half of `SearchCentralDir64`. -/
def searchSignature (signature file : Bytes) : ℕ := searchBlocks signature file 4

/-! ## What is found -/

/-- The signature stands here, not at the start of the file and in its last 64K. -/
def Reach (signature file : Bytes) (pos : ℕ) : Prop :=
  0 < pos ∧ pos + 4 ≤ file.length ∧ file.length ≤ pos + 0xffff ∧
    (file.drop pos).take 4 = signature

instance (signature file : Bytes) : DecidablePred (Reach signature file) := fun pos =>
  inferInstanceAs (Decidable (0 < pos ∧ pos + 4 ≤ file.length ∧ file.length ≤ pos + 0xffff ∧
    (file.drop pos).take 4 = signature))

section Search

variable {signature file : Bytes}

theorem scanBlock_eq_none {buf : Bytes} {n : ℕ} (h : scanBlock signature buf n = none) :
    ∀ i < n, (buf.drop i).take 4 ≠ signature := by
  induction n with
  | zero => exact fun i hi => absurd hi (Nat.not_lt_zero i)
  | succ n ih =>
    rw [scanBlock] at h
    split_ifs at h with hn
    intro i hi
    rcases Nat.lt_succ_iff_lt_or_eq.1 hi with hlt | rfl
    · exact ih h i hlt
    · exact hn

theorem scanBlock_eq_some {buf : Bytes} {n i : ℕ} (h : scanBlock signature buf n = some i) :
    i < n ∧ (buf.drop i).take 4 = signature ∧
      ∀ j < n, i < j → (buf.drop j).take 4 ≠ signature := by
  induction n with
  | zero => cases h
  | succ n ih =>
    rw [scanBlock] at h
    split_ifs at h with hn
    · obtain rfl := Option.some.inj h
      exact ⟨Nat.lt_succ_self _, hn, fun j hj hij => absurd hij (by omega)⟩
    · obtain ⟨hi, hmatch, hlast⟩ := ih h
      refine ⟨by omega, hmatch, fun j hj hij => ?_⟩
      rcases Nat.lt_succ_iff_lt_or_eq.1 hj with hlt | rfl
      · exact hlast j hlt hij
      · exact hn

/-- Four bytes of a block are four bytes of the file. -/
theorem take_drop_block {pos size i : ℕ} (h : i + 4 ≤ size) :
    (((file.drop pos).take size).drop i).take 4 = (file.drop (pos + i)).take 4 := by
  rw [List.drop_take, List.take_take, List.drop_drop, Nat.min_eq_left (by omega)]

theorem lt_nextBack {uBackRead : ℕ} (h : uBackRead < maxBack file) :
    uBackRead < nextBack file uBackRead := by
  unfold nextBack bufReadComment
  split_ifs <;> omega

theorem nextBack_le {uBackRead : ℕ} : nextBack file uBackRead ≤ maxBack file := by
  unfold nextBack
  split_ifs <;> omega

/-- **A block joins the one before it**: what is not behind a block stands
inside it or in front of it. -/
theorem le_block {uBackRead pos : ℕ} (hpos : pos + 4 ≤ file.length)
    (hbehind : pos + uBackRead ≤ file.length)
    (hin : file.length ≤ pos + nextBack file uBackRead) :
    pos - (file.length - nextBack file uBackRead) <
      readSize file (file.length - nextBack file uBackRead) - 3 := by
  have hle : nextBack file uBackRead ≤ maxBack file := nextBack_le
  have hlength : maxBack file ≤ file.length := Nat.min_le_right _ _
  have hnext : nextBack file uBackRead ≤ uBackRead + bufReadComment := by
    unfold nextBack
    split_ifs <;> omega
  unfold readSize
  unfold bufReadComment at hnext ⊢
  split_ifs <;> omega

/-- **The search, from a block on**, where nothing is left behind it. -/
theorem searchBlocks_eq {uBackRead : ℕ}
    (hbehind : ∀ pos, Reach signature file pos → pos + uBackRead ≤ file.length)
    (hall : maxBack file ≤ uBackRead → ∀ pos, ¬ Reach signature file pos) :
    searchBlocks signature file uBackRead = Nat.findGreatest (Reach signature file) file.length := by
  induction hn : maxBack file - uBackRead using Nat.strong_induction_on generalizing uBackRead with
  | _ n ih =>
  rw [searchBlocks]
  split_ifs with hback
  · have hlt := lt_nextBack hback
    have hle : nextBack file uBackRead ≤ maxBack file := nextBack_le
    have hlength : maxBack file ≤ file.length := Nat.min_le_right _ _
    have hmax : maxBack file ≤ 0xffff := Nat.min_le_left _ _
    dsimp only
    cases hscan : scanBlock signature
        ((file.drop (file.length - nextBack file uBackRead)).take
          (readSize file (file.length - nextBack file uBackRead)))
        (readSize file (file.length - nextBack file uBackRead) - 3) with
    | none =>
      have hnone := scanBlock_eq_none hscan
      -- Nothing stands in the block, so that everything stands in front of it.
      have hfront : ∀ pos, Reach signature file pos →
          pos + nextBack file uBackRead < file.length := by
        intro pos hpos
        by_contra hin
        have hi := le_block hpos.2.1 (hbehind pos hpos) (by omega)
        refine hnone _ hi ?_
        rw [take_drop_block (by omega)]
        convert hpos.2.2.2 using 3
        omega
      dsimp only
      rw [if_neg (fun h => h rfl)]
      refine ih _ (by omega) (fun pos hpos => (hfront pos hpos).le) (fun hend pos hpos => ?_) rfl
      have := hfront pos hpos
      have := hpos.1
      have := hpos.2.2.1
      unfold maxBack at *
      omega
    | some i =>
      obtain ⟨hi, hmatch, hlast⟩ := scanBlock_eq_some hscan
      rw [take_drop_block (by omega)] at hmatch
      have hbehindBlock : ∀ pos, Reach signature file pos →
          pos ≤ file.length - nextBack file uBackRead + i := by
        intro pos hpos
        by_contra hin
        have hj := le_block hpos.2.1 (hbehind pos hpos) (by omega)
        refine hlast _ hj (by omega) ?_
        rw [take_drop_block (by omega)]
        convert hpos.2.2.2 using 3
        omega
      have hsize : readSize file (file.length - nextBack file uBackRead) ≤
          nextBack file uBackRead := by
        unfold readSize
        split_ifs <;> omega
      have hend : file.length - nextBack file uBackRead + i + 4 ≤ file.length := by omega
      have hreach : file.length ≤ file.length - nextBack file uBackRead + i + 0xffff := by omega
      dsimp only
      by_cases hzero : file.length - nextBack file uBackRead + i = 0
      · -- A signature at the start of the file is not one that counts.
        rw [if_neg (fun h => h hzero)]
        have hnothing : ∀ pos, ¬ Reach signature file pos := fun pos hpos =>
          absurd hpos.1 (by have := hbehindBlock pos hpos; omega)
        exact ih _ (by omega) (fun pos hpos => absurd hpos (hnothing pos))
          (fun _ => hnothing) rfl
      · rw [if_pos hzero]
        exact (Nat.findGreatest_eq_iff.2 ⟨(Nat.le_add_right _ 4).trans hend,
          fun _ => ⟨Nat.pos_of_ne_zero hzero, hend, hreach, hmatch⟩,
          fun {pos} hpos _ h => Nat.not_le.2 hpos (hbehindBlock pos h)⟩).symm
  · refine (Nat.findGreatest_eq_zero_iff.2 fun {pos} _ _ => ?_).symm
    exact hall (by omega) pos

/-- **The search by blocks is the plain one**: what is found is the last place in
the last 64K of the file where the signature stands, other than its start. -/
theorem searchSignature_eq (signature file : Bytes) :
    searchSignature signature file = Nat.findGreatest (Reach signature file) file.length := by
  refine searchBlocks_eq (fun pos hpos => hpos.2.1) (fun hend pos hpos => ?_)
  have := hpos.1
  have := hpos.2.1
  unfold maxBack at hend
  omega

end Search

end Minizip

end Supercell
