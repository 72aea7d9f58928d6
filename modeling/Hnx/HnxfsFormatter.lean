import Hnx.HnxfsRuns
import Hnx.SuperblockChecks

/-!
# The formatter and the mount

`mkhnxfs.py` accepts every size, but the one block of its data bitmap covers 128 MiB.
-/

namespace HnxKernel

open Bitmap List Option ByteMemory Nat ByteMemory

structure ImageFile where
  size : Nat
  bytes : ByteMemory

/-- `img[start: start + len(bytes)] = bytes`. -/
def ByteMemory.store (img : ByteMemory) (start : Nat) (bytes : List UInt8) : ByteMemory :=
  img.blit start bytes.length (ofBytes bytes)

abbrev formatTableBlocks : Nat := 8

def packSuperblock (totalBlocks dataStart dataCount inodeCount : Nat) : Option (List UInt8) :=
  structPack
    [(8, hnxfsMagic), (4, hnxfsVersion), (4, 4096), (8, totalBlocks), (8, inodeCount), (8, 1),
      (8, 2), (8, 3), (8, formatTableBlocks), (8, dataStart), (8, dataCount), (8, 1)]

def packInode (itype size blocks : Nat) (direct : List Nat) : Option (List UInt8) :=
  structPack
    ([(4, itype), (4, 0o755), (8, size), (8, blocks)] ++
      ((direct ++ List.replicate 12 0).take 12).map (fun blk => (8, blk)) ++ [(8, 0)])

def packDirent (inode : Nat) (name : FileName) : Option (List UInt8) := do
  let nb := name.take 119
  return (← structPack [(8, inode)]) ++ nb ++ List.replicate (120 - nb.length) 0

def formatImage (sb root dot dotDot : List UInt8) (dataStart : Nat) : ByteMemory :=
  (((((store (fun _ => 0) 0 sb).fill (1 * 4096 + 0) 1 0b00000011).fill
    (2 * 4096 + 0) 1 0b00000001).store (3 * 4096 + 1 * 128) root).store
    (dataStart * 4096) dot).store (dataStart * 4096 + 128) dotDot

/-- A `bytearray` has fewer than 2 ^ 63 bytes. -/
def mkhnxfs (sizeMb : Int) : Option ImageFile := do
  let totalBlocks := sizeMb * 1024 * 1024 / 4096
  let dataStart := 3 + formatTableBlocks
  if totalBlocks ≤ dataStart + 1 then
    none
  else
    let totalBlocks := totalBlocks.toNat
    let dataCount := totalBlocks - dataStart
    let inodeCount := formatTableBlocks * 32
    if 2 ^ 63 ≤ totalBlocks * 4096 then
      none
    else
      let sb ← packSuperblock totalBlocks dataStart dataCount inodeCount
      let root ← packInode hnxfsTypeDir 4096 1 [dataStart]
      let dot ← packDirent 1 [46]
      let dotDot ← packDirent 1 [46, 46]
      return ⟨totalBlocks * 4096, formatImage sb root dot dotDot dataStart⟩

structure BlockDevice where
  blocks : Nat → DiskBlock
  faults : List Bool

def ImageFile.device (image : ImageFile) : BlockDevice where
  blocks blk i := image.bytes (blk * 4096 + i)
  faults := []

def hnxfsMount (dev : BlockDevice) : HnxfsM Bool := fun fs =>
  if dev.faults.headD false then (false, fs)
  else
    let sb := superblockAt (dev.blocks 0)
    if sb.magic ≠ hnxfsMagic ∨ sb.version ≠ hnxfsVersion then (false, fs)
    else
      (true, { fs with
        sb := sb.toSuperblock, blocks := dev.blocks, faults := dev.faults.tail, vnodeCount := 0 })

def formattedSuperblock (totalBlocks : Nat) : StoredSuperblock where
  magic := hnxfsMagic
  version := 1
  blockSize := 4096
  totalBlocks := totalBlocks
  inodeCount := 256
  inodeBitmapBlock := 1
  dataBitmapBlock := 2
  inodeTableBlock := 3
  inodeTableBlocks := 8
  dataBlockStart := 11
  dataBlockCount := totalBlocks - 11
  rootInode := 1

def formattedRoot : Inode where
  type := hnxfsTypeDir
  mode := 0o755
  size := 4096
  blocks := 1
  direct := fun b => if b = 0 then 11 else 0
  mtime := 0

lemma formattedRoot_direct (b : Nat) : formattedRoot.direct b = if b = 0 then 11 else 0 := rfl

structure Formatted (blocks : Nat → DiskBlock) (totalBlocks : Nat) : Prop where
  superblock : superblockAt (blocks 0) = formattedSuperblock totalBlocks
  inodeBitmap : ∀ i < 4096, blocks 1 i = if i = 0 then 3 else 0
  dataBitmap : ∀ i < 4096, blocks 2 i = if i = 0 then 1 else 0
  root : inodeAt (blocks 3) 1 = formattedRoot
  noEntry : ∀ slot < 32, isEntry (blocks 11) slot = false

variable {block : ByteMemory} {totalBlocks : Nat} {image : ImageFile}

lemma superblockAt_of_readFields {sb : StoredSuperblock}
    (fields : sbFields (block.readFields 0 sbFmt) = some sb) : superblockAt block = sb :=
  Option.some.inj fields

def inodeFmt : List Nat := [4, 4, 8, 8] ++ List.replicate 12 8 ++ [8]

lemma inodeAt_of_readFields {i type mode size blocks mtime : Nat}
    {direct : List Nat} (fields : block.readFields (i * 128) inodeFmt =
      [type, mode, size, blocks] ++ direct ++ [mtime]) :
    inodeAt block i = { type, mode, size, blocks, direct := fun b => direct.getD b 0, mtime } := by
  rw [inodeFmt, readFields_append, readFields_append, readFields_replicate] at fields
  simp only [readFields, add_assoc, Nat.reduceAdd, sum_cons, sum_nil,
    List.sum_append, sum_replicate_nat, Nat.reduceMul] at fields
  obtain ⟨front, last⟩ := append_inj' fields (by simp only [length_singleton])
  obtain ⟨header, pointers⟩ := append_inj front
    (by simp only [length_cons, length_nil])
  simp only [List.cons.injEq, and_true] at header last
  apply Inode.ext_of
  case type => exact header.1
  case mode => exact header.2.1
  case size => exact header.2.2.1
  case blocks => exact header.2.2.2
  case direct =>
    funext b
    rw [← pointers]
    by_cases bLt : b < 12
    · simp only [inodeAt, if_pos bLt, List.getD_eq_getElem?_getD, List.getElem?_map,
        List.getElem?_range bLt, map_some, getD_some, mul_comm b 8]
    simp only [inodeAt, if_neg bLt]
    rw [getD_eq_default]
    simp only [length_map, length_range]
    omega
  case mtime => exact last

lemma packDirent_bytes {inode : Nat} {name : FileName} {bytes : List UInt8}
    (packed : packDirent inode name = some bytes) :
    bytes.length = 128 ∧ ∀ i, bytes.getD (8 + i) 0 = (name.take 119).getD i 0 := by
  simp only [packDirent, Option.bind_eq_bind, Option.bind_eq_some_iff, Option.pure_def,
    Option.some.injEq] at packed
  obtain ⟨n, numberPacked, rfl⟩ := packed
  have eight : n.length = 8 := length_of_structPack numberPacked
  have short : (name.take 119).length ≤ 119 := List.length_take_le 119 name
  constructor
  · simp only [length_append, length_replicate, eight]
    omega
  intro i
  simp only [List.getD_eq_getElem?_getD]
  rw [List.append_assoc, List.getElem?_append_right (by omega), eight, Nat.add_sub_cancel_left]
  by_cases inName : i < (name.take 119).length
  · rw [List.getElem?_append_left inName]
  rw [List.getElem?_append_right (by omega), List.getElem?_replicate,
    List.getElem?_eq_none (by omega)]
  split
  · rfl
  · rfl

section Layout

variable {sb root dot dotDot : List UInt8} (sbLength : sb.length = 88)
  (rootLength : root.length = 128) (dotLength : dot.length = 128)
  (dotDotLength : dotDot.length = 128)
include sbLength rootLength dotLength dotDotLength

lemma formatImage_apply (a : Nat) : formatImage sb root dot dotDot 11 a =
    if a < 88 then sb.getD a 0
    else if a = 4096 then 3
    else if a = 8192 then 1
    else if 12416 ≤ a ∧ a < 12544 then root.getD (a - 12416) 0
    else if 45056 ≤ a ∧ a < 45184 then dot.getD (a - 45056) 0
    else if 45184 ≤ a ∧ a < 45312 then dotDot.getD (a - 45184) 0
    else 0 := by
  simp only [formatImage, store, fill, blit, sbLength,
    rootLength, dotLength, dotDotLength, ofBytes]
  split_ifs
  all_goals first | rfl | omega

end Layout

lemma formatted_of_packed {sb root dot dotDot : List UInt8}
    (sbPacked : packSuperblock totalBlocks 11 (totalBlocks - 11) 256 = some sb)
    (rootPacked : packInode hnxfsTypeDir 4096 1 [11] = some root)
    (dotPacked : packDirent 1 [46] = some dot)
      (dotDotPacked : packDirent 1 [46, 46] = some dotDot) :
    Formatted (fun blk i => formatImage sb root dot dotDot 11 (blk * 4096 + i))
      totalBlocks := by
  obtain ⟨dotLength, dotName⟩ := packDirent_bytes dotPacked
  obtain ⟨dotDotLength, dotDotName⟩ := packDirent_bytes dotDotPacked
  have bytes := formatImage_apply (length_of_structPack sbPacked) (length_of_structPack rootPacked)
    dotLength dotDotLength
  constructor
  case superblock =>
    apply superblockAt_of_readFields
    have fields := readFields_structPack sbPacked
    have moved : (ofBytes sb).readFields 0 sbFmt = readFields
        (fun i => formatImage sb root dot dotDot 11 (0 * 4096 + i)) 0 sbFmt := by
      apply readFields_congr
      intro i idxLt
      have inSb : i < 88 := idxLt
      simp only [zero_add, zero_mul, bytes, if_pos inSb, ofBytes]
    rw [← moved]
    exact congrArg sbFields fields
  case inodeBitmap =>
    intro i idxLt
    rw [bytes]
    split_ifs
    all_goals first | rfl | omega
  case dataBitmap =>
    intro i idxLt
    rw [bytes]
    split_ifs
    all_goals first | rfl | omega
  case root =>
    have fields : (ofBytes root).readFields 0 inodeFmt =
      [hnxfsTypeDir, 0o755, 4096, 1] ++ (11 :: List.replicate 11 0) ++ [0] :=
      readFields_structPack rootPacked
    have moved : (ofBytes root).readFields 0 inodeFmt = readFields
        (fun i => formatImage sb root dot dotDot 11 (3 * 4096 + i)) (1 * 128)
        inodeFmt := by
      apply readFields_congr
      intro i idxLt
      have inRoot : i < 128 := idxLt
      have place : 3 * 4096 + (1 * 128 + i) - 12416 = 0 + i := by omega
      rw [bytes, if_neg (by omega), if_neg (by omega), if_neg (by omega), if_pos (by omega), place]
      rfl
    rw [inodeAt_of_readFields (moved.symm.trans fields)]
    apply Inode.ext_of
    case direct =>
      funext b
      cases b with
      | zero => rfl
      | succ b =>
        change (11 :: List.replicate 11 0).getD (b + 1) 0 = 0
        rw [getD_cons_succ, List.getD_eq_getElem?_getD, List.getElem?_replicate]
        split
        · rfl
        · rfl
    all_goals rfl
  case noEntry =>
    intro s slotLt
    -- The names of the first two entries are `.` and `..`; the rest of the block is zero.
    have dotNames : ∀ i < 120, direntName
      (fun i => formatImage sb root dot dotDot 11 (11 * 4096 + i)) 0 i =
      ([46] : FileName).getD i 0 := by
      intro i idxLt
      have place : 11 * 4096 + (0 * 128 + 8 + i) - 45056 = 8 + i := by omega
      rw [direntName, bytes, if_neg (by omega), if_neg (by omega), if_neg (by omega),
        if_neg (by omega), if_pos (by omega), place]
      exact dotName i
    have dotDotNames : ∀ i < 120, direntName
      (fun i => formatImage sb root dot dotDot 11 (11 * 4096 + i)) 1 i =
      ([46, 46] : FileName).getD i 0 := by
      intro i idxLt
      have place : 11 * 4096 + (1 * 128 + 8 + i) - 45184 = 8 + i := by omega
      rw [direntName, bytes, if_neg (by omega), if_neg (by omega), if_neg (by omega),
        if_neg (by omega), if_neg (by omega), if_pos (by omega), place]
      exact dotDotName i
    rcases s with _ | _ | s
    case zero => simp [isEntry, isDot, dotNames]
    case succ.zero => simp [isEntry, isDot, dotDotNames]
    case succ.succ =>
      have free : direntInode
        (fun i => formatImage sb root dot dotDot 11 (11 * 4096 + i)) (s + 2) = 0 := by
        apply readLE_eq_zero
        intro i idxLt
        rw [bytes, if_neg (by omega), if_neg (by omega), if_neg (by omega),
          if_neg (by omega), if_neg (by omega), if_neg (by omega)]
      simp [isEntry, free]

lemma mkhnxfs_some {sizeMb : Int} (hw : mkhnxfs sizeMb = some image) :
    ∃ totalBlocks : Nat, (totalBlocks : Int) = 256 * sizeMb ∧ 12 < totalBlocks ∧
      totalBlocks * 4096 < 2 ^ 63 ∧ Formatted image.device.blocks totalBlocks := by
  simp only [mkhnxfs] at hw
  split at hw
  · cases hw
  split at hw
  · cases hw
  case isFalse.isFalse large bounded =>
    simp only [Option.bind_eq_bind, Option.bind_eq_some_iff, Option.pure_def,
      Option.some.injEq] at hw
    obtain ⟨sb, sbPacked, root, rootPacked, dot, dotPacked, dotDot, dotDotPacked, rfl⟩ := hw
    have total : sizeMb * 1024 * 1024 / 4096 = 256 * sizeMb := by omega
    rw [total] at large bounded sbPacked
    refine ⟨(256 * sizeMb).toNat, by omega, by omega, by omega, ?_⟩
    exact formatted_of_packed sbPacked rootPacked dotPacked dotDotPacked

namespace Formatted

variable {blocks : Nat → DiskBlock} {totalBlocks n i : Nat}
  (fmt : Formatted blocks totalBlocks)

lemma layout (narrow : totalBlocks ≤ 32779) :
    (formattedSuperblock totalBlocks).toSuperblock.Layout where
  disjoint := by
    simp only [Superblock.regions, Superblock.InTable, Superblock.InData, formattedSuperblock,
      pairwise_cons, mem_cons, not_mem_nil, or_false, forall_eq_or_imp, forall_eq,
      Set.disjoint_left, Set.mem_singleton_iff, Set.mem_Ico, Set.mem_ofPred_eq]
    refine ⟨?_, ?_, ?_, ?_, by simp⟩
    all_goals omega
  inodeCount_le := le_add_right 256 32512
  dataBlockCount_le := by
    simp only [formattedSuperblock]
    omega
  table_holds := le_refl 256
  addressable := by
    simp only [formattedSuperblock]
    omega

lemma byteTest_first {byte : UInt8} {bits : Nat}
    (low : ∀ bit < 8, byteTest byte bit = decide (bit < bits)) (bitsLe : bits ≤ 8) :
    byteTest (if n / 8 = 0 then byte else 0) (n % 8) = decide (n < bits) := by
  split
  case isTrue fst =>
    have numLt : n < 8 := by omega
    rw [mod_eq_of_lt numLt, low n numLt]
  case isFalse later =>
    have hc : ∀ bit < 8, byteTest 0 bit = false := by decide
    rw [hc (n % 8) (mod_lt n (by decide)), eq_comm, decide_eq_false_iff_not]
    omega

include fmt

lemma inodeUsed : (imageOf (formattedSuperblock totalBlocks).toSuperblock blocks).inodeUsed n =
    decide (n < 2) := by
  have low : ∀ bit < 8, byteTest 3 bit = decide (bit < 2) := by decide
  simp only [imageOf, formattedSuperblock]
  by_cases numLt : n < 256
  · rw [bitTest, zero_add, fmt.inodeBitmap (n / 8) (by omega), byteTest_first low (by decide)]
    simp [numLt]
  have : ¬ n < 2 := by omega
  simp [numLt, this]

lemma blockUsed (narrow : totalBlocks ≤ 32779) (some : 11 < totalBlocks) :
    (imageOf (formattedSuperblock totalBlocks).toSuperblock blocks).blockUsed i = decide
      (i = 0) := by
  have low : ∀ bit < 8, byteTest 1 bit = decide (bit < 1) := by decide
  simp only [imageOf, formattedSuperblock]
  by_cases idxLt : i < totalBlocks - 11
  · rw [bitTest, zero_add, fmt.dataBitmap (i / 8) (by omega), byteTest_first low (by decide)]
    simp [idxLt]
  have : i ≠ 0 := by omega
  simp [idxLt, this]

lemma rootInode :
    (imageOf (formattedSuperblock totalBlocks).toSuperblock blocks).inode 1 = formattedRoot :=
  fmt.root

lemma eq_one_of_inUse
    (hu : (imageOf (formattedSuperblock totalBlocks).toSuperblock blocks).InUse n) : n = 1 := by
  have used := hu.2
  rw [fmt.inodeUsed, decide_eq_true_eq] at used
  have := hu.1
  omega

lemma refers_iff {b blk : Nat} :
    (imageOf (formattedSuperblock totalBlocks).toSuperblock blocks).Refers n b blk ↔
      n = 1 ∧ b = 0 ∧ blk = 11 := by
  constructor
  · intro hr
    obtain rfl := fmt.eq_one_of_inUse hr.inUse
    have direct := hr.direct
    rw [fmt.rootInode] at direct
    by_cases fst : b = 0
    · rw [formattedRoot_direct, if_pos fst] at direct
      exact ⟨rfl, fst, direct.symm⟩
    rw [formattedRoot_direct, if_neg fst] at direct
    exact absurd direct.symm hr.ne_zero
  rintro ⟨rfl, rfl, rfl⟩
  exact
    { inUse := ⟨le_rfl, by rw [fmt.inodeUsed]; rfl⟩
      b_lt := by decide
      direct := by rw [fmt.rootInode]; rfl
      ne_zero := by decide }

lemma noEntry_image (some : 11 < totalBlocks) (dir b slot child : Nat) :
    ¬ (imageOf (formattedSuperblock totalBlocks).toSuperblock blocks).Entry dir b slot child := by
  intro e
  obtain rfl := fmt.eq_one_of_inUse e.inUse
  have bLt := e.b_lt
  have live := e.entry
  rw [fmt.rootInode] at bLt live
  obtain rfl : b = 0 := lt_one_iff.mp bLt
  have inData : (formattedSuperblock totalBlocks).InData 11 := by
    simp only [Superblock.InData, formattedSuperblock, Set.mem_Ico]
    omega
  have data : (imageOf (formattedSuperblock totalBlocks).toSuperblock blocks).data 11 = blocks 11 :=
    if_pos inData
  have place : formattedRoot.direct 0 = 11 := rfl
  rw [place, data, fmt.noEntry slot e.slot_lt] at live
  exact Bool.false_ne_true live

lemma wellFormed (narrow : totalBlocks ≤ 32779) (some : 11 < totalBlocks) :
    (imageOf (formattedSuperblock totalBlocks).toSuperblock blocks).WellFormed
      (formattedSuperblock totalBlocks).toSuperblock := by
  apply Image.WellFormed.of_parts (layout narrow)
  case zero => rw [fmt.inodeUsed]; rfl
  case r => rw [fmt.inodeUsed]; rfl
  case rootDir => rw [Image.IsDir, fmt.rootInode]; rfl
  case blocksLe =>
    intro n hu
    rw [fmt.eq_one_of_inUse hu, fmt.rootInode]
    exact le_add_left 1 11
  case refersLt =>
    intro n b blk hr
    obtain ⟨rfl, rfl, rfl⟩ := fmt.refers_iff.mp hr
    constructor
    · simp only [Superblock.InData, formattedSuperblock, Set.mem_Ico]
      omega
    rw [fmt.rootInode]
    exact zero_lt_one
  case full =>
    intro n b hu hd bLt
    rw [fmt.eq_one_of_inUse hu, fmt.rootInode] at bLt ⊢
    obtain rfl : b = 0 := lt_one_iff.mp bLt
    decide
  case used =>
    intro i idxLt
    rw [fmt.blockUsed narrow some, decide_eq_true_eq]
    constructor
    · rintro rfl
      exact ⟨1, 0, fmt.refers_iff.mpr ⟨rfl, rfl, rfl⟩⟩
    rintro ⟨n, b, hr⟩
    have eq : 11 + i = 11 := (fmt.refers_iff.mp hr).2.2
    omega
  case owner =>
    intro n b o c blk first snd
    obtain ⟨rfl, rfl, -⟩ := fmt.refers_iff.mp first
    obtain ⟨rfl, rfl, -⟩ := fmt.refers_iff.mp snd
    exact ⟨rfl, rfl⟩
  case entryUsed =>
    intro dir b s child e
    exact absurd e (fmt.noEntry_image some dir b s child)
  case entryUnique =>
    intro dir b s dir' b' slot' child e
    exact absurd e (fmt.noEntry_image some dir b s child)
  case entryExists =>
    intro n twoLe hu
    have := fmt.eq_one_of_inUse hu
    omega

end Formatted

lemma formattedSuperblock_accepted (some : 11 < totalBlocks) (bounded : totalBlocks < 2 ^ 64) :
    (hnxfsFsckSuperblock (formattedSuperblock totalBlocks)).1 = 0 := by
  rw [StoredSuperblock.fsckSuperblock_eq_zero_iff]
  refine ⟨⟨rfl, rfl, rfl, rfl, ⟨?_, ?_⟩, ?_, ?_, ?_⟩, ⟨?_, ?_⟩, ?_, ?_⟩
  all_goals simp only [formattedSuperblock, u64]
  all_goals omega

lemma hnxfsMount_formatted (fmt : Formatted image.device.blocks totalBlocks) (fs : Hnxfs) :
    hnxfsMount image.device fs = (true, { fs with
        sb := (formattedSuperblock totalBlocks).toSuperblock, blocks := image.device.blocks,
        faults := [], vnodeCount := 0 }) := by
  have h : ¬ ((formattedSuperblock totalBlocks).magic ≠ hnxfsMagic ∨
    (formattedSuperblock totalBlocks).version ≠ hnxfsVersion) := by
    simp [formattedSuperblock]
  simp only [hnxfsMount, fmt.superblock, if_neg h]
  rfl

/-- What is written meets what the driver expects, exactly up to 128 MiB. -/
theorem mkhnxfs_meets_driver_iff {sizeMb : Int} {image : ImageFile}
    (hw : mkhnxfs sizeMb = some image) (fs : Hnxfs) :
    ((hnxfsMount image.device fs).1 = true ∧ (hnxfsMount image.device fs).2.WellFormed ∧
      (hnxfsFsckSuperblock (superblockAt (image.device.blocks 0))).1 = 0 ∧
      (∀ buf, ∀ i ∈ bitmapAllocExamined buf
        (List.range' 2 ((hnxfsMount image.device fs).2.sb.inodeCount - 2)), i / 8 < 4096) ∧
      ∀ buf, ∀ i ∈ bitmapAllocExamined buf
        (List.range' 0 ((hnxfsMount image.device fs).2.sb.dataBlockCount - 0)), i / 8 < 4096) ↔
      sizeMb ≤ 128 := by
  obtain ⟨totalBlocks, total, large, bounded, fmt⟩ := mkhnxfs_some hw
  rw [hnxfsMount_formatted fmt fs, fmt.superblock,
    bitmapAllocExamined_inside_iff le_rfl, bitmapAllocExamined_inside_iff (zero_le 2)]
  constructor
  · rintro ⟨-, -, -, -, narrow⟩
    simp only [formattedSuperblock] at narrow
    omega
  intro small
  refine ⟨rfl, fmt.wellFormed (by omega) (by omega),
    formattedSuperblock_accepted (by omega) (by omega),
    (Formatted.layout (by omega)).inodeCount_le,
    (Formatted.layout (by omega)).dataBlockCount_le⟩

def wideImage : ImageFile := (mkhnxfs 129).getD ⟨0, fun _ => 0⟩

lemma wideImage_written : mkhnxfs 129 = some wideImage := rfl

def unmounted : Hnxfs where
  sb := ⟨0, 0, 0, 0, 0, 0, 0⟩
  blocks := fun _ => zeroBlock
  faults := []
  vnodes := fun _ => ⟨.file, 0, 0⟩
  vnodeInode := fun _ => 0
  vnodeCount := 0

theorem wideImage_meets_driver_iff : ((hnxfsMount wideImage.device unmounted).1 = true ∧
    (hnxfsMount wideImage.device unmounted).2.WellFormed ∧
    (hnxfsFsckSuperblock (superblockAt (wideImage.device.blocks 0))).1 = 0 ∧
    (∀ buf, ∀ i ∈ bitmapAllocExamined buf
      (List.range' 2 ((hnxfsMount wideImage.device unmounted).2.sb.inodeCount - 2)),
      i / 8 < 4096) ∧
    ∀ buf, ∀ i ∈ bitmapAllocExamined buf
      (List.range' 0 ((hnxfsMount wideImage.device unmounted).2.sb.dataBlockCount - 0)),
      i / 8 < 4096) ↔
    (129 : Int) ≤ 128 :=
  mkhnxfs_meets_driver_iff wideImage_written unmounted

/-- An image of 129 MiB passes the check of the kernel. -/
theorem wideImage_leaves_bitmap :
    mkhnxfs 129 = some wideImage ∧ (hnxfsMount wideImage.device unmounted).1 = true ∧
      (hnxfsFsckSuperblock (superblockAt (wideImage.device.blocks 0))).1 = 0 ∧
      32768 ∈ bitmapAllocExamined (fun _ => 255)
        (List.range' 0 ((hnxfsMount wideImage.device unmounted).2.sb.dataBlockCount - 0)) := by
  obtain ⟨totalBlocks, total, -, -, fmt⟩ := mkhnxfs_some wideImage_written
  obtain rfl : totalBlocks = 33024 := by omega
  rw [hnxfsMount_formatted fmt unmounted, fmt.superblock, bitmapAllocExamined_full]
  refine ⟨wideImage_written, rfl, by decide +kernel, ?_⟩
  exact mem_range'_1.mpr ⟨by decide, by decide⟩

/-- An image of at most 128 MiB mounts, and every run of the driver on it keeps the ownership
invariant. -/
theorem formatted_ownership_of_run {sizeMb : Int} {image : ImageFile}
    (hw : mkhnxfs sizeMb = some image) (small : sizeMb ≤ 128) (fs : Hnxfs) {calls : List Hnxfs.Call}
    (hv : Hnxfs.ValidRun (hnxfsMount image.device fs).2 calls) :
    (hnxfsMount image.device fs).1 = true ∧
      ((hnxfsMount image.device fs).2.performAll calls).WellFormed := by
  obtain ⟨totalBlocks, total, large, bounded, fmt⟩ := mkhnxfs_some hw
  rw [hnxfsMount_formatted fmt fs] at hv ⊢
  refine ⟨rfl, (Hnxfs.Sound.performAll ?_ hv).wellFormed⟩
  exact ⟨fmt.wellFormed (by omega) (by omega), rfl⟩

theorem formatted_ownership_of_file : ∃ image, mkhnxfs 1 = some image ∧
    (hnxfsMount image.device unmounted).1 = true ∧
    ((hnxfsMount image.device unmounted).2.performAll [.create 1 [97] .file false]).WellFormed := by
  obtain ⟨image, written⟩ : ∃ image, mkhnxfs 1 = some image := ⟨_, rfl⟩
  refine ⟨image, written, formatted_ownership_of_run written (by decide) unmounted ?_⟩
  obtain ⟨totalBlocks, total, large, bounded, fmt⟩ := mkhnxfs_some written
  rw [hnxfsMount_formatted fmt unmounted]
  exact ⟨⟨⟨le_rfl, (fmt.wellFormed (by omega) (by omega)).root_used⟩, by decide, by decide⟩,
      trivial⟩

end HnxKernel
