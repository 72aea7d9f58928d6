import Hnx.BytePacking
import Hnx.HnxfsPrimitives

/-!
# Checking a superblock

The kernel works on 64-bit words, the tool on unbounded integers and without a check of the
table.
-/

namespace HnxKernel

open Bitmap ByteMemory

structure StoredSuperblock extends Superblock where
  magic : Nat
  version : Nat
  blockSize : Nat
  totalBlocks : Nat
  rootInode : Nat
  deriving DecidableEq, Repr

abbrev hnxfsMagic : Nat := 0x315346584E48

abbrev hnxfsVersion : Nat := 1

def superblockAt (block : ByteMemory) : StoredSuperblock where
  magic := block.readLE 0 8
  version := block.readLE 8 4
  blockSize := block.readLE 12 4
  totalBlocks := block.readLE 16 8
  inodeCount := block.readLE 24 8
  inodeBitmapBlock := block.readLE 32 8
  dataBitmapBlock := block.readLE 40 8
  inodeTableBlock := block.readLE 48 8
  inodeTableBlocks := block.readLE 56 8
  dataBlockStart := block.readLE 64 8
  dataBlockCount := block.readLE 72 8
  rootInode := block.readLE 80 8

namespace StoredSuperblock

structure Fits (sb : StoredSuperblock) : Prop where
  halves : sb.version < 2 ^ 32 ∧ sb.blockSize < 2 ^ 32
  words : ∀ field ∈ [sb.magic, sb.totalBlocks, sb.inodeCount, sb.inodeBitmapBlock,
    sb.dataBitmapBlock, sb.inodeTableBlock, sb.inodeTableBlocks, sb.dataBlockStart,
    sb.dataBlockCount, sb.rootInode], field < 2 ^ 64

end StoredSuperblock

lemma superblockAt_fits (block : ByteMemory) : (superblockAt block).Fits where
  halves := ⟨readLE_lt, readLE_lt⟩
  words := by
    simp only [superblockAt, List.mem_cons, List.not_mem_nil, or_false, forall_eq_or_imp, forall_eq]
    refine ⟨?_, ?_, ?_, ?_, ?_, ?_, ?_, ?_, ?_, ?_⟩
    all_goals exact readLE_lt

abbrev fsckBadMagic : Nat := 0x0001

abbrev fsckBadVersion : Nat := 0x0002

abbrev fsckBadBlocksize : Nat := 0x0004

abbrev fsckBadLayout : Nat := 0x0008

abbrev fsckBadRoot : Nat := 0x0010

abbrev fsckBadCounts : Nat := 0x0020

structure FsckReport where
  problems : Nat
  problemCount : Nat
  totalBlocks : Nat
  inodeCount : Nat
  deriving DecidableEq, Repr

namespace FsckReport

def flag (rep : FsckReport) (bit : Nat) : FsckReport :=
  { rep with
    problems := rep.problems ||| bit
    problemCount :=
      if rep.problems &&& bit = 0 then u32 (rep.problemCount + 1) else rep.problemCount }

def run (rep : FsckReport) (checks : List (Bool × Nat)) : FsckReport :=
  checks.foldl (fun rep check => if check.1 then rep.flag check.2 else rep) rep

end FsckReport

def fsckChecks (sb : StoredSuperblock) : List (Bool × Nat) :=
  [(decide (sb.magic ≠ hnxfsMagic), fsckBadMagic),
    (decide (sb.version ≠ hnxfsVersion), fsckBadVersion),
    (decide (sb.blockSize ≠ 4096), fsckBadBlocksize),
    (decide (sb.rootInode ≠ hnxfsRootInode), fsckBadRoot),
    (decide (sb.inodeCount = 0 ∨ sb.totalBlocks = 0), fsckBadCounts),
    (!decide (sb.inodeBitmapBlock ≥ 1 ∧ sb.dataBitmapBlock > sb.inodeBitmapBlock ∧
      sb.inodeTableBlock > sb.dataBitmapBlock ∧
      sb.dataBlockStart ≥ u64 (sb.inodeTableBlock + sb.inodeTableBlocks)), fsckBadLayout),
    (decide (u64 (sb.dataBlockStart + sb.dataBlockCount) > sb.totalBlocks), fsckBadLayout),
    (decide (sb.inodeTableBlocks = 0 ∨ u64 (sb.inodeTableBlocks * 32) < sb.inodeCount),
      fsckBadCounts)]

def hnxfsFsckSuperblock (sb : StoredSuperblock) : Int × FsckReport :=
  let rep := FsckReport.run ⟨0, 0, sb.totalBlocks, sb.inodeCount⟩ (fsckChecks sb)
  (if rep.problemCount ≠ 0 then -(rep.problemCount : Int) else 0, rep)

namespace FsckReport

variable {rep : FsckReport} {made : Nat}

structure Counted (rep : FsckReport) (made : Nat) : Prop where
  le : rep.problemCount ≤ made
  clean : rep.problemCount = 0 → rep.problems = 0

lemma Counted.flag_count (cnt : rep.Counted made) (few : made + 1 < 2 ^ 32) (bit : Nat) :
    (rep.flag bit).problemCount ≠ 0 ∧ (rep.flag bit).problemCount ≤ made + 1 := by
  have countLe := cnt.le
  have counts : u32 (rep.problemCount + 1) = rep.problemCount + 1 := u32_of_lt (by omega)
  simp only [FsckReport.flag]
  split
  case isTrue hf => omega
  case isFalse repeated =>
    have flagged : rep.problemCount ≠ 0 := by
      intro zero
      exact repeated (by rw [cnt.clean zero, Nat.zero_and])
    omega

lemma Counted.flag (cnt : rep.Counted made) (few : made + 1 < 2 ^ 32) (bit : Nat) :
    (rep.flag bit).Counted (made + 1) where
  le := (cnt.flag_count few bit).2
  clean zero := absurd zero (cnt.flag_count few bit).1

lemma Counted.run_count (cnt : rep.Counted made) (checks : List (Bool × Nat))
    (few : made + checks.length < 2 ^ 32) :
    (rep.run checks).problemCount = 0 ↔ rep.problemCount = 0 ∧ ∀ check ∈ checks,
      check.1 = false := by
  induction checks generalizing rep made with
  | nil => simp [run]
  | cons check _ ih =>
    rw [List.length_cons] at few
    cases bad : check.1 with
    | true =>
      have flagged := (cnt.flag_count (by omega) check.2).1
      have rest := ih (cnt.flag (by omega) check.2) (by omega)
      simp only [run, List.foldl_cons, bad, if_true] at rest ⊢
      rw [rest]
      simp [flagged, bad]
    | false =>
      have rest := ih ⟨cnt.le.trans (Nat.le_succ made), cnt.clean⟩ (by omega)
      simp only [run, List.foldl_cons, bad, Bool.false_eq_true, if_false] at rest ⊢
      rw [rest]
      simp [bad]

end FsckReport

namespace StoredSuperblock

variable {sb : StoredSuperblock}

structure Shared (sb : StoredSuperblock) : Prop where
  magic : sb.magic = hnxfsMagic
  version : sb.version = hnxfsVersion
  blockSize : sb.blockSize = 4096
  rootInode : sb.rootInode = hnxfsRootInode
  counts : sb.inodeCount ≠ 0 ∧ sb.totalBlocks ≠ 0
  inodeBitmap : 1 ≤ sb.inodeBitmapBlock
  dataBitmap : sb.inodeBitmapBlock < sb.dataBitmapBlock
  inodeTable : sb.dataBitmapBlock < sb.inodeTableBlock

def TableHolds (sb : StoredSuperblock) : Prop :=
  sb.inodeTableBlocks ≠ 0 ∧ sb.inodeCount ≤ u64 (sb.inodeTableBlocks * 32)

def WrappedEnds (sb : StoredSuperblock) : Prop :=
  u64 (sb.inodeTableBlock + sb.inodeTableBlocks) ≤ sb.dataBlockStart ∧
    u64 (sb.dataBlockStart + sb.dataBlockCount) ≤ sb.totalBlocks

def Unwrapped (sb : StoredSuperblock) : Prop :=
  sb.inodeTableBlock + sb.inodeTableBlocks < 2 ^ 64 ∧ sb.dataBlockStart + sb.dataBlockCount < 2 ^ 64

instance (sb : StoredSuperblock) : Decidable sb.Unwrapped := inferInstanceAs (Decidable (_ ∧ _))

def OneBlockBitmaps (sb : StoredSuperblock) : Prop :=
  sb.inodeCount ≤ 32768 ∧ sb.dataBlockCount ≤ 32768

lemma fsckSuperblock_eq_zero_iff :
    (hnxfsFsckSuperblock sb).1 = 0 ↔ sb.Shared ∧ sb.WrappedEnds ∧ sb.TableHolds := by
  have cnt : (FsckReport.mk 0 0 sb.totalBlocks sb.inodeCount).Counted 0 := ⟨le_rfl, fun _ => rfl⟩
  have clean := cnt.run_count (fsckChecks sb) (by simp [fsckChecks])
  have res : (hnxfsFsckSuperblock sb).1 = 0 ↔
    (FsckReport.run ⟨0, 0, sb.totalBlocks, sb.inodeCount⟩ (fsckChecks sb)).problemCount = 0 := by
    simp only [hnxfsFsckSuperblock]
    split
    · omega
    · omega
  rw [res, clean]
  simp only [fsckChecks, List.mem_cons, List.not_mem_nil, or_false, forall_eq_or_imp, forall_eq,
    decide_eq_false_iff_not, Bool.not_eq_false', decide_eq_true_eq, true_and, not_or, not_lt,
    ne_eq, not_not, gt_iff_lt, ge_iff_le]
  constructor
  · rintro ⟨magic, version, blockSize, root, counts, ⟨inodeBitmap, dataBitmap, tbl, tableEnd⟩,
      dataEnd, h⟩
    exact ⟨⟨magic, version, blockSize, root, counts, inodeBitmap, dataBitmap, tbl⟩,
      ⟨tableEnd, dataEnd⟩, h⟩
  rintro ⟨hs, ⟨tableEnd, dataEnd⟩, h⟩
  exact ⟨hs.magic, hs.version, hs.blockSize, hs.rootInode, hs.counts,
    ⟨hs.inodeBitmap, hs.dataBitmap, hs.inodeTable, tableEnd⟩, dataEnd, h⟩

end StoredSuperblock

def bitmapAllocExamined (buf : DiskBlock) : List Nat → List Nat
  | [] => []
  | idx :: indices =>
    if bitTest buf 0 idx then idx :: bitmapAllocExamined buf indices else [idx]

lemma mem_of_bitmapAllocExamined {buf : DiskBlock} {indices : List Nat} {idx : Nat}
    (examined : idx ∈ bitmapAllocExamined buf indices) : idx ∈ indices := by
  induction indices with
  | nil => simp [bitmapAllocExamined] at examined
  | cons fst _ ih =>
    simp only [bitmapAllocExamined] at examined
    split at examined
    · rcases List.mem_cons.mp examined with same | hl
      · exact same ▸ List.mem_cons_self
      · exact List.mem_cons_of_mem fst (ih hl)
    · exact (List.mem_singleton.mp examined) ▸ List.mem_cons_self

lemma bitmapAllocExamined_full (indices : List Nat) :
    bitmapAllocExamined (fun _ => 255) indices = indices := by
  have full : ∀ idx, bitTest (fun _ => 255) 0 idx = true := by
    intro idx
    have small : ∀ bit < 8, byteTest 255 bit = true := by decide
    exact small (idx % 8) (Nat.mod_lt _ (by decide))
  induction indices with
  | nil => rfl
  | cons _ _ ih => rw [bitmapAllocExamined, full, if_pos rfl, ih]

/-- Exactly if the limit is no more than the bits of a block. -/
lemma bitmapAllocExamined_inside_iff {lim fst : Nat} (firstLe : fst ≤ 2) :
    (∀ buf, ∀ idx ∈ bitmapAllocExamined buf (List.range' fst (lim - fst)),
      idx / 8 < 4096) ↔ lim ≤ 32768 := by
  constructor
  · intro hi
    by_contra wide
    have last : 32768 ∈ bitmapAllocExamined (fun _ => 255) (List.range' fst (lim - fst)) := by
      rw [bitmapAllocExamined_full, List.mem_range'_1]
      omega
    exact absurd (hi _ _ last) (by decide)
  intro narrow buf idx examined
  have bounds := List.mem_range'_1.mp (mem_of_bitmapAllocExamined examined)
  omega

namespace StoredSuperblock

variable {sb : StoredSuperblock}

structure Usable (sb : StoredSuperblock) : Prop where
  disjoint : sb.regions.Pairwise Disjoint
  inside : ∀ region ∈ sb.regions, region ⊆ Set.Iio sb.totalBlocks
  table : sb.inodeCount ≤ 32 * sb.inodeTableBlocks
  inodeBits : ∀ buf, ∀ index ∈ bitmapAllocExamined buf (List.range' 2 (sb.inodeCount - 2)),
    index / 8 < 4096
  dataBits : ∀ buf, ∀ index ∈ bitmapAllocExamined buf (List.range' 0 (sb.dataBlockCount - 0)),
    index / 8 < 4096

lemma Shared.disjoint (hs : sb.Shared)
    (tableEnd : sb.inodeTableBlock + sb.inodeTableBlocks ≤ sb.dataBlockStart) :
    sb.regions.Pairwise Disjoint := by
  have inodeBitmap := hs.inodeBitmap
  have dataBitmap := hs.dataBitmap
  have inodeTable := hs.inodeTable
  simp only [Superblock.regions, Superblock.InTable, Superblock.InData, List.pairwise_cons,
    List.mem_cons, List.not_mem_nil, or_false, forall_eq_or_imp, forall_eq, Set.disjoint_left,
    Set.mem_singleton_iff, Set.mem_Ico, Set.mem_ofPred_eq]
  refine ⟨?_, ?_, ?_, ?_, by simp⟩
  all_goals omega

lemma Shared.inside_iff (hs : sb.Shared) (hf : sb.Fits) (ends : sb.WrappedEnds)
    (h : sb.TableHolds) : (∀ rg ∈ sb.regions, rg ⊆ Set.Iio sb.totalBlocks) ↔ sb.Unwrapped := by
  have words := hf.words
  simp only [List.mem_cons, List.not_mem_nil, or_false, forall_eq_or_imp, forall_eq] at words
  have inodeBitmap := hs.inodeBitmap
  have dataBitmap := hs.dataBitmap
  have inodeTable := hs.inodeTable
  have counts := hs.counts
  have notEmpty := h.1
  simp only [Superblock.regions, Superblock.InTable, Superblock.InData, List.mem_cons,
    List.not_mem_nil, or_false, forall_eq_or_imp, forall_eq, Set.mem_singleton_iff,
    Set.mem_Iio, Set.subset_def, Set.mem_Ico, Set.mem_ofPred_eq]
  constructor
  · rintro ⟨-, -, -, tbl, area⟩
    constructor
    · have last := tbl (sb.inodeTableBlock + sb.inodeTableBlocks - 1) (by omega)
      omega
    by_contra wraps
    have last := area (sb.dataBlockStart + sb.dataBlockCount - 1) (by omega)
    omega
  rintro ⟨tableBound, dataBound⟩
  obtain ⟨tableEnd, dataEnd⟩ := ends
  rw [u64_of_lt tableBound] at tableEnd
  rw [u64_of_lt dataBound] at dataEnd
  refine ⟨by omega, by omega, by omega, ?_, ?_⟩
  · intro blk inTable
    omega
  intro blk inData
  omega

lemma usable_iff (hf : sb.Fits) (hs : sb.Shared) (ends : sb.WrappedEnds)
    (h : sb.TableHolds) : sb.Usable ↔ sb.Unwrapped ∧ sb.OneBlockBitmaps := by
  constructor
  · intro usable
    exact ⟨(hs.inside_iff hf ends h).mp usable.inside,
      (bitmapAllocExamined_inside_iff le_rfl).mp usable.inodeBits,
      (bitmapAllocExamined_inside_iff (Nat.zero_le 2)).mp usable.dataBits⟩
  rintro ⟨unwrapped, inodes, bs⟩
  have tableEnd := ends.1
  rw [u64_of_lt unwrapped.1] at tableEnd
  have room : sb.inodeCount ≤ sb.inodeTableBlocks * 32 := h.2.trans (Nat.mod_le _ _)
  exact
    { disjoint := hs.disjoint tableEnd
      inside := (hs.inside_iff hf ends h).mpr unwrapped
      table := by omega
      inodeBits := (bitmapAllocExamined_inside_iff le_rfl).mpr inodes
      dataBits := (bitmapAllocExamined_inside_iff (Nat.zero_le 2)).mpr bs }

/-- The driver can use what is accepted, exactly if no end wraps and each bitmap fits its block. -/
theorem fsckSuperblock_sufficient_iff (hf : sb.Fits) :
    ((hnxfsFsckSuperblock sb).1 = 0 → sb.Usable) ↔
      (sb.Shared ∧ sb.WrappedEnds ∧ sb.TableHolds → sb.Unwrapped ∧ sb.OneBlockBitmaps) := by
  rw [fsckSuperblock_eq_zero_iff]
  constructor
  · rintro sufficient ⟨hs, ends, h⟩
    exact (usable_iff hf hs ends h).mp (sufficient ⟨hs, ends, h⟩)
  rintro bounded ⟨hs, ends, h⟩
  exact (usable_iff hf hs ends h).mpr (bounded ⟨hs, ends, h⟩)

def wideSuperblock : StoredSuperblock where
  magic := hnxfsMagic
  version := 1
  blockSize := 4096
  totalBlocks := 33024
  inodeCount := 256
  inodeBitmapBlock := 1
  dataBitmapBlock := 2
  inodeTableBlock := 3
  inodeTableBlocks := 8
  dataBlockStart := 11
  dataBlockCount := 33013
  rootInode := 1

lemma wideSuperblock_fits : wideSuperblock.Fits := ⟨by decide, by decide⟩

theorem wideSuperblock_sufficient_iff :
    ((hnxfsFsckSuperblock wideSuperblock).1 = 0 → wideSuperblock.Usable) ↔
      (wideSuperblock.Shared ∧ wideSuperblock.WrappedEnds ∧ wideSuperblock.TableHolds →
        wideSuperblock.Unwrapped ∧ wideSuperblock.OneBlockBitmaps) :=
  fsckSuperblock_sufficient_iff wideSuperblock_fits

/-- The kernel accepts it, and `bitmap_alloc` can leave the bitmap. -/
theorem wideSuperblock_accepted :
    (hnxfsFsckSuperblock wideSuperblock).1 = 0 ∧ ¬ wideSuperblock.Usable := by
  refine ⟨by decide +kernel, ?_⟩
  intro usable
  have narrow := (bitmapAllocExamined_inside_iff (Nat.zero_le 2)).mp usable.dataBits
  exact absurd narrow (by decide)

end StoredSuperblock

def sbFmt : List Nat := [8, 4, 4, 8, 8, 8, 8, 8, 8, 8, 8, 8]

/-- `dict(zip(SB_FIELDS, vals))`. -/
def sbFields : List Nat → Option StoredSuperblock
  | [magic, version, blockSize, totalBlocks, inodeCount, inodeBitmapBlock, dataBitmapBlock,
      inodeTableBlock, inodeTableBlocks, dataBlockStart, dataBlockCount, rootInode] =>
      some
        { magic, version, blockSize, totalBlocks, inodeCount, inodeBitmapBlock, dataBitmapBlock,
          inodeTableBlock, inodeTableBlocks, dataBlockStart, dataBlockCount, rootInode }
  | _ => none

def parseSb (data : List UInt8) : Option StoredSuperblock :=
  structUnpack sbFmt (data.take sbFmt.sum) >>= sbFields

/-- `%X`. -/
def upperHex (val : Nat) : String := String.ofList ((Nat.toDigits 16 val).map Char.toUpper)

/-- `if bad: self.fail(msg)`. -/
def failIf (bad : Bool) (msg : String) : List String :=
  if bad then [msg] else []

def checkSuperblock (sb : StoredSuperblock) : List String :=
  failIf (sb.magic ≠ hnxfsMagic)
      ("bad magic 0x" ++ upperHex sb.magic ++ " (want 0x" ++ upperHex hnxfsMagic ++ ")") ++
    failIf (sb.version ≠ hnxfsVersion) ("bad version " ++ toString sb.version) ++
    failIf (sb.blockSize ≠ 4096) ("bad block size " ++ toString sb.blockSize) ++
    failIf (sb.rootInode ≠ 1) ("bad root inode " ++ toString sb.rootInode) ++
    failIf (sb.inodeCount = 0 ∨ sb.totalBlocks = 0) "zero inode/block count" ++
    failIf
      (!decide (sb.inodeBitmapBlock ≥ 1 ∧ sb.dataBitmapBlock > sb.inodeBitmapBlock ∧
        sb.inodeTableBlock > sb.dataBitmapBlock ∧
        sb.dataBlockStart ≥ sb.inodeTableBlock + sb.inodeTableBlocks))
      "region ordering invalid" ++
    failIf (sb.dataBlockStart + sb.dataBlockCount > sb.totalBlocks)
      "data area overruns total_blocks"

lemma failIf_eq_nil_iff {bad : Bool} {msg : String} : failIf bad msg = [] ↔ bad = false := by
  cases bad with
  | true => simp [failIf]
  | false => simp [failIf]

lemma parseSb_eq {bs : List UInt8} (whole : bs.length = 88) :
    parseSb bs = some (superblockAt (ofBytes bs)) := by
  have total : bs.length = sbFmt.sum := whole
  rw [parseSb, ← total, List.take_length, structUnpack_eq_readFields total]
  rfl

namespace StoredSuperblock

variable {sb : StoredSuperblock}

def TrueEnds (sb : StoredSuperblock) : Prop :=
  sb.inodeTableBlock + sb.inodeTableBlocks ≤ sb.dataBlockStart ∧
    sb.dataBlockStart + sb.dataBlockCount ≤ sb.totalBlocks

lemma checkSuperblock_eq_nil_iff : checkSuperblock sb = [] ↔ sb.Shared ∧ sb.TrueEnds := by
  simp only [checkSuperblock, List.append_eq_nil_iff, failIf_eq_nil_iff, decide_eq_false_iff_not,
    Bool.not_eq_false', decide_eq_true_eq, not_or, not_lt, ne_eq, not_not, gt_iff_lt, ge_iff_le]
  constructor
  · rintro ⟨⟨⟨⟨⟨⟨magic, version⟩, blockSize⟩, root⟩, counts⟩,
      inodeBitmap, dataBitmap, tbl, tableEnd⟩, dataEnd⟩
    exact ⟨⟨magic, version, blockSize, root, counts, inodeBitmap, dataBitmap, tbl⟩,
      tableEnd, dataEnd⟩
  rintro ⟨hs, tableEnd, dataEnd⟩
  exact ⟨⟨⟨⟨⟨⟨hs.magic, hs.version⟩, hs.blockSize⟩, hs.rootInode⟩,
    hs.counts⟩, hs.inodeBitmap, hs.dataBitmap, hs.inodeTable, tableEnd⟩, dataEnd⟩

lemma trueEnds_iff (hf : sb.Fits) : sb.TrueEnds ↔ sb.WrappedEnds ∧ sb.Unwrapped := by
  have words := hf.words
  simp only [List.mem_cons, List.not_mem_nil, or_false, forall_eq_or_imp, forall_eq] at words
  constructor
  · rintro ⟨tableEnd, dataEnd⟩
    have unwrapped : sb.Unwrapped := ⟨by omega, by omega⟩
    rw [WrappedEnds, u64_of_lt unwrapped.1, u64_of_lt unwrapped.2]
    exact ⟨⟨tableEnd, dataEnd⟩, unwrapped⟩
  rintro ⟨ends, unwrapped⟩
  rwa [WrappedEnds, u64_of_lt unwrapped.1, u64_of_lt unwrapped.2] at ends

def Agreeable (sb : StoredSuperblock) : Prop :=
  sb.Shared → sb.WrappedEnds → (sb.TableHolds ↔ sb.Unwrapped)

lemma agree_iff_agreeable (hf : sb.Fits) :
    (checkSuperblock sb = [] ↔ (hnxfsFsckSuperblock sb).1 = 0) ↔ sb.Agreeable := by
  rw [checkSuperblock_eq_nil_iff, fsckSuperblock_eq_zero_iff, trueEnds_iff hf]
  constructor
  · intro ha hs ends
    exact ⟨fun h => (ha.mpr ⟨hs, ends, h⟩).2.2, fun unwrapped => (ha.mp ⟨hs, ends, unwrapped⟩).2.2⟩
  intro agreeable
  exact ⟨fun clean => ⟨clean.1, clean.2.1, (agreeable clean.1 clean.2.1).mpr clean.2.2⟩,
    fun clean => ⟨clean.1, clean.2.1, (agreeable clean.1 clean.2.1).mp clean.2.2⟩⟩

end StoredSuperblock

/-- The two agree exactly if only common checks pass, or the table is large enough just when no end
wraps. -/
theorem checkers_agree_iff {bs : List UInt8} (whole : bs.length = 88) :
    ((parseSb bs).map checkSuperblock = some [] ↔
      (hnxfsFsckSuperblock (superblockAt (ofBytes bs))).1 = 0) ↔
      (superblockAt (ofBytes bs)).Agreeable := by
  rw [parseSb_eq whole, Option.map_some, Option.some.injEq]
  exact StoredSuperblock.agree_iff_agreeable (superblockAt_fits _)

def crowdedBytes : List UInt8 :=
  [hnxfsMagic, 1 + 4096 * 2 ^ 32, 16, 1024, 1, 2, 3, 8, 11, 5, 1].flatMap (leBytes 8)

theorem crowdedBytes_agree_iff : ((parseSb crowdedBytes).map checkSuperblock = some [] ↔
    (hnxfsFsckSuperblock (superblockAt (ofBytes crowdedBytes))).1 = 0) ↔
    (superblockAt (ofBytes crowdedBytes)).Agreeable :=
  checkers_agree_iff (by decide)

/-- The tool finds no problem, the kernel counts one. -/
theorem crowdedBytes_disagree :
    crowdedBytes.length = 88 ∧ (parseSb crowdedBytes).map checkSuperblock = some [] ∧
      (hnxfsFsckSuperblock (superblockAt (ofBytes crowdedBytes))).1 = -1 := by
  decide +kernel

end HnxKernel
