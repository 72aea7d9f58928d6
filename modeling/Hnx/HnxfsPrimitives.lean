import Hnx.HnxfsFormat
import Mathlib.Order.CompletePartialOrder

/-!
# The driver on a device that does not fail

When no transfer fails every primitive of the driver is a function of the state, and changes
exactly one of the four functions that are the image of a volume.
-/

namespace HnxKernel

section

open Function
open Bitmap

namespace Superblock

variable (sb : Superblock)

def InTable (blk : Nat) : Prop :=
  blk ∈ Set.Ico sb.inodeTableBlock (sb.inodeTableBlock + sb.inodeTableBlocks)

def InData (blk : Nat) : Prop :=
  blk ∈ Set.Ico sb.dataBlockStart (sb.dataBlockStart + sb.dataBlockCount)

instance (blk : Nat) : Decidable (sb.InData blk) := inferInstanceAs (Decidable (_ ∧ _))

def regions : List (Set Nat) :=
  [{0}, {sb.inodeBitmapBlock}, {sb.dataBitmapBlock}, {blk | sb.InTable blk}, {blk | sb.InData blk}]

/-- Disjoint regions, bitmaps of one block, and a table that holds all inodes. -/
structure Layout : Prop where
  disjoint : sb.regions.Pairwise Disjoint
  inodeCount_le : sb.inodeCount ≤ 32768
  dataBlockCount_le : sb.dataBlockCount ≤ 32768
  table_holds : sb.inodeCount ≤ sb.inodeTableBlocks * 32
  addressable : sb.dataBlockStart + sb.dataBlockCount ≤ 2 ^ 64

variable {sb}

namespace Layout

variable (lay : sb.Layout) {blk n : Nat}
include lay

private lemma apart : sb.inodeBitmapBlock ≠ 0 ∧ sb.dataBitmapBlock ≠ 0 ∧
    sb.inodeBitmapBlock ≠ sb.dataBitmapBlock ∧
    (∀ {blk}, sb.InTable blk → blk ≠ sb.inodeBitmapBlock ∧ blk ≠ sb.dataBitmapBlock) ∧
    ∀ {blk}, sb.InData blk → blk ≠ 0 ∧ blk ≠ sb.inodeBitmapBlock ∧
      blk ≠ sb.dataBitmapBlock ∧ ¬ sb.InTable blk := by
  have pairs := lay.disjoint
  simp only [regions, List.pairwise_cons, List.mem_cons, List.not_mem_nil, or_false,
    forall_eq_or_imp, forall_eq, Set.disjoint_singleton_left, Set.mem_singleton_iff] at pairs
  obtain ⟨⟨zeroInode, zeroData, zeroTable, zeroArea⟩, ⟨bitmaps, inodeTable, inodeArea⟩,
    ⟨dataTable, dataArea⟩, tableArea, -⟩ := pairs
  refine ⟨Ne.symm zeroInode, Ne.symm zeroData, bitmaps, ?_, ?_⟩
  · intro blk inTable
    exact ⟨fun eq => inodeTable (eq ▸ inTable), fun eq => dataTable (eq ▸ inTable)⟩
  intro blk inData
  exact ⟨fun eq => zeroArea (eq ▸ inData), fun eq => inodeArea (eq ▸ inData),
    fun eq => dataArea (eq ▸ inData),
    fun inTable => Set.disjoint_left.mp tableArea inTable inData⟩

lemma bitmaps_ne : sb.inodeBitmapBlock ≠ sb.dataBitmapBlock := lay.apart.2.2.1

lemma inTable (numLt : n < sb.inodeCount) : sb.InTable (sb.inodeTableBlock + n / 32) := by
  have holds := lay.table_holds
  constructor
  · omega
  · omega

lemma table_ne_inodeBitmap (inTable : sb.InTable blk) : blk ≠ sb.inodeBitmapBlock :=
  (lay.apart.2.2.2.1 inTable).1

lemma table_ne_dataBitmap (inTable : sb.InTable blk) : blk ≠ sb.dataBitmapBlock :=
  (lay.apart.2.2.2.1 inTable).2

section
variable (inData : sb.InData blk)
include inData

lemma data_ne_zero : blk ≠ 0 := (lay.apart.2.2.2.2 inData).1

lemma data_ne_inodeBitmap : blk ≠ sb.inodeBitmapBlock := (lay.apart.2.2.2.2 inData).2.1

lemma data_ne_dataBitmap : blk ≠ sb.dataBitmapBlock := (lay.apart.2.2.2.2 inData).2.2.1

lemma data_notTable : ¬ sb.InTable blk := (lay.apart.2.2.2.2 inData).2.2.2

end

end Layout

end Superblock

@[ext]
structure Image where
  inodeUsed : Nat → Bool
  blockUsed : Nat → Bool
  inode : Nat → Inode
  data : Nat → DiskBlock

def imageOf (sb : Superblock) (blocks : Nat → DiskBlock) : Image where
  inodeUsed n := decide (n < sb.inodeCount) && bitTest (blocks sb.inodeBitmapBlock) 0 n
  blockUsed i := decide (i < sb.dataBlockCount) && bitTest (blocks sb.dataBitmapBlock) 0 i
  inode n :=
    if n < sb.inodeCount then inodeAt (blocks (sb.inodeTableBlock + n / 32)) (n % 32)
    else newInode .file
  data blk := if sb.InData blk then blocks blk else zeroBlock

namespace Hnxfs

def image (fs : Hnxfs) : Image := imageOf fs.sb fs.blocks

def setInode (fs : Hnxfs) (num : Nat) (inode : Inode) : Hnxfs :=
  fs.putBlock (fs.sb.inodeTableBlock + num / 32)
    (putInode (fs.blocks (fs.sb.inodeTableBlock + num / 32)) (num % 32) inode)

def markInode (fs : Hnxfs) (num : Nat) : Hnxfs :=
  fs.putBlock fs.sb.inodeBitmapBlock (bitSet (fs.blocks fs.sb.inodeBitmapBlock) 0 num)

def unmarkInode (fs : Hnxfs) (num : Nat) : Hnxfs :=
  fs.putBlock fs.sb.inodeBitmapBlock (bitClear (fs.blocks fs.sb.inodeBitmapBlock) 0 num)

def markBlock (fs : Hnxfs) (idx : Nat) : Hnxfs :=
  fs.putBlock fs.sb.dataBitmapBlock (bitSet (fs.blocks fs.sb.dataBitmapBlock) 0 idx)

def unmarkBlock (fs : Hnxfs) (idx : Nat) : Hnxfs :=
  fs.putBlock fs.sb.dataBitmapBlock (bitClear (fs.blocks fs.sb.dataBitmapBlock) 0 idx)

structure SameFrame (pre after : Hnxfs) : Prop where
  sb : after.sb = pre.sb
  faults : after.faults = pre.faults
  vnodes : after.vnodes = pre.vnodes
  vnodeInode : after.vnodeInode = pre.vnodeInode
  vnodeCount : after.vnodeCount = pre.vnodeCount

lemma SameFrame.refl (fs : Hnxfs) : fs.SameFrame fs := ⟨rfl, rfl, rfl, rfl, rfl⟩

lemma SameFrame.trans {fst snd third : Hnxfs} (left : fst.SameFrame snd)
    (right : snd.SameFrame third) : fst.SameFrame third :=
  ⟨right.sb.trans left.sb, right.faults.trans left.faults, right.vnodes.trans left.vnodes,
    right.vnodeInode.trans left.vnodeInode, right.vnodeCount.trans left.vnodeCount⟩

variable {fs : Hnxfs} {n i blk : Nat} {inode : Inode} {buf : DiskBlock}

lemma sameFrame_putBlock : fs.SameFrame (fs.putBlock blk buf) := ⟨rfl, rfl, rfl, rfl, rfl⟩

lemma image_putBlock : (fs.putBlock blk buf).image = imageOf fs.sb (update fs.blocks blk buf) := rfl

lemma inode_putBlock (apart : ∀ n < fs.sb.inodeCount, fs.sb.inodeTableBlock + n / 32 ≠ blk) :
    (fs.putBlock blk buf).image.inode = fs.image.inode := by
  rw [image_putBlock]
  funext n
  simp only [image, imageOf]
  by_cases numLt : n < fs.sb.inodeCount
  · rw [update_of_ne (apart n numLt)]
  · rw [if_neg numLt, if_neg numLt]

lemma data_putBlock (apart : ∀ o, fs.sb.InData o → o ≠ blk) :
    (fs.putBlock blk buf).image.data = fs.image.data := by
  rw [image_putBlock]
  funext o
  simp only [image, imageOf]
  by_cases inData : fs.sb.InData o
  · rw [update_of_ne (apart o inData)]
  · rw [if_neg inData, if_neg inData]

variable (lay : fs.sb.Layout)
include lay

lemma image_putData (inData : fs.sb.InData blk) : (fs.putBlock blk buf).image =
    { fs.image with data := update fs.image.data blk buf } := by
  have inodeBits : update fs.blocks blk buf fs.sb.inodeBitmapBlock =
    fs.blocks fs.sb.inodeBitmapBlock :=
    update_of_ne (lay.data_ne_inodeBitmap inData).symm _ _
  have blockBits : update fs.blocks blk buf fs.sb.dataBitmapBlock =
    fs.blocks fs.sb.dataBitmapBlock :=
    update_of_ne (lay.data_ne_dataBitmap inData).symm _ _
  rw [image_putBlock]
  apply Image.ext
  · simp [image, imageOf, inodeBits]
  · simp [image, imageOf, blockBits]
  · exact inode_putBlock fun n numLt eq => lay.data_notTable inData (eq ▸ lay.inTable numLt)
  funext pos
  simp only [image, imageOf]
  by_cases eq : pos = blk
  · subst eq
    rw [if_pos inData, update_self, update_self]
  · rw [update_of_ne eq, update_of_ne eq]

private lemma image_putInodeBitmap {bits : Nat → Bool}
    (bitsEq : ∀ n < fs.sb.inodeCount, bitTest buf 0 n = bits n)
    (beyond : ∀ n, fs.sb.inodeCount ≤ n → bits n = false) :
    (fs.putBlock fs.sb.inodeBitmapBlock buf).image = { fs.image with inodeUsed := bits } := by
  rw [image_putBlock]
  apply Image.ext
  · funext n
    simp only [imageOf, update_self]
    by_cases numLt : n < fs.sb.inodeCount
    · simp [numLt, bitsEq n numLt]
    · simp [numLt, beyond n (by omega)]
  · simp [image, imageOf, update_of_ne lay.bitmaps_ne.symm]
  · exact inode_putBlock fun n numLt => lay.table_ne_inodeBitmap (lay.inTable numLt)
  · exact data_putBlock fun blk => lay.data_ne_inodeBitmap

private lemma image_putDataBitmap {bits : Nat → Bool}
    (bitsEq : ∀ i < fs.sb.dataBlockCount, bitTest buf 0 i = bits i)
    (beyond : ∀ i, fs.sb.dataBlockCount ≤ i → bits i = false) :
    (fs.putBlock fs.sb.dataBitmapBlock buf).image = { fs.image with blockUsed := bits } := by
  rw [image_putBlock]
  apply Image.ext
  · simp [image, imageOf, update_of_ne lay.bitmaps_ne]
  · funext i
    simp only [imageOf, update_self]
    by_cases idxLt : i < fs.sb.dataBlockCount
    · simp [idxLt, bitsEq i idxLt]
    · simp [idxLt, beyond i (by omega)]
  · exact inode_putBlock fun n numLt => lay.table_ne_dataBitmap (lay.inTable numLt)
  · exact data_putBlock fun blk => lay.data_ne_dataBitmap

omit lay in
lemma inodeUsed_of_lt (numLt : n < fs.sb.inodeCount) :
    fs.image.inodeUsed n = bitTest (fs.blocks fs.sb.inodeBitmapBlock) 0 n := by
  simp [image, imageOf, numLt]

omit lay in
lemma inodeUsed_beyond (beyond : fs.sb.inodeCount ≤ n) : fs.image.inodeUsed n = false := by
  have notLt : ¬ n < fs.sb.inodeCount := by omega
  simp [image, imageOf, notLt]

omit lay in
lemma blockUsed_of_lt (idxLt : i < fs.sb.dataBlockCount) :
    fs.image.blockUsed i = bitTest (fs.blocks fs.sb.dataBitmapBlock) 0 i := by
  simp [image, imageOf, idxLt]

omit lay in
lemma blockUsed_beyond (beyond : fs.sb.dataBlockCount ≤ i) : fs.image.blockUsed i = false := by
  have notLt : ¬ i < fs.sb.dataBlockCount := by omega
  simp [image, imageOf, notLt]

lemma image_markInode (numLt : n < fs.sb.inodeCount) : (fs.markInode n).image =
    { fs.image with inodeUsed := update fs.image.inodeUsed n true } := by
  apply image_putInodeBitmap lay
  · intro pos posLt
    rw [bitTest_bitSet]
    by_cases eq : pos = n
    · rw [eq, update_self, update_self]
    · rw [update_of_ne eq, update_of_ne eq, inodeUsed_of_lt posLt]
  intro pos beyond
  rw [update_of_ne (by omega), inodeUsed_beyond beyond]

lemma image_unmarkInode : (fs.unmarkInode n).image =
    { fs.image with inodeUsed := update fs.image.inodeUsed n false } := by
  apply image_putInodeBitmap lay
  · intro pos posLt
    rw [bitTest_bitClear]
    by_cases eq : pos = n
    · rw [eq, update_self, update_self]
    · rw [update_of_ne eq, update_of_ne eq, inodeUsed_of_lt posLt]
  intro pos beyond
  by_cases eq : pos = n
  · rw [eq, update_self]
  · rw [update_of_ne eq, inodeUsed_beyond beyond]

lemma image_markBlock (idxLt : i < fs.sb.dataBlockCount) : (fs.markBlock i).image =
    { fs.image with blockUsed := update fs.image.blockUsed i true } := by
  apply image_putDataBitmap lay
  · intro pos posLt
    rw [bitTest_bitSet]
    by_cases eq : pos = i
    · rw [eq, update_self, update_self]
    · rw [update_of_ne eq, update_of_ne eq, blockUsed_of_lt posLt]
  intro pos beyond
  rw [update_of_ne (by omega), blockUsed_beyond beyond]

lemma image_unmarkBlock : (fs.unmarkBlock i).image =
    { fs.image with blockUsed := update fs.image.blockUsed i false } := by
  apply image_putDataBitmap lay
  · intro pos posLt
    rw [bitTest_bitClear]
    by_cases eq : pos = i
    · rw [eq, update_self, update_self]
    · rw [update_of_ne eq, update_of_ne eq, blockUsed_of_lt posLt]
  intro pos beyond
  by_cases eq : pos = i
  · rw [eq, update_self]
  · rw [update_of_ne eq, blockUsed_beyond beyond]

lemma image_setInode (numLt : n < fs.sb.inodeCount) (fits : inode.Fits) :
    (fs.setInode n inode).image = { fs.image with inode := update fs.image.inode n inode } := by
  have inTable := lay.inTable numLt
  rw [setInode, image_putBlock]
  apply Image.ext
  · simp [image, imageOf, update_of_ne (lay.table_ne_inodeBitmap inTable).symm]
  · simp [image, imageOf, update_of_ne (lay.table_ne_dataBitmap inTable).symm]
  · funext pos
    simp only [image, imageOf]
    by_cases posLt : pos < fs.sb.inodeCount
    · rw [if_pos posLt]
      by_cases eq : pos = n
      · rw [eq, update_self, update_self, inodeAt_putInode_same fits]
      rw [update_of_ne eq, if_pos posLt]
      by_cases sameBlock : pos / 32 = n / 32
      · rw [sameBlock, update_self, inodeAt_putInode_of_ne (by omega)]
      · rw [update_of_ne (by omega)]
    · rw [if_neg posLt, update_of_ne (by omega), if_neg posLt]
  funext blk
  simp only [image, imageOf]
  by_cases inData : fs.sb.InData blk
  · have ne : blk ≠ fs.sb.inodeTableBlock + n / 32 :=
      fun eq => lay.data_notTable inData (eq ▸ inTable)
    rw [update_of_ne ne]
  · rw [if_neg inData, if_neg inData]

end Hnxfs

end

open Bitmap List

namespace HnxfsM

variable {Value Result : Type}

lemma bind_apply (fst : HnxfsM Value) (next : Value → HnxfsM Result) (fs : Hnxfs) :
    (fst >>= next) fs = next (fst fs).1 (fst fs).2 :=
  rfl

lemma pure_apply (val : Value) (fs : Hnxfs) : (pure val : HnxfsM Value) fs = (val, fs) := rfl

lemma get_apply (fs : Hnxfs) : (get : HnxfsM Hnxfs) fs = (fs, fs) := rfl

lemma modify_apply (g : Hnxfs → Hnxfs) (fs : Hnxfs) : (modify g : HnxfsM PUnit) fs = (⟨⟩, g fs) :=
  rfl

lemma set_apply (state fs : Hnxfs) : (set state : HnxfsM PUnit) fs = (⟨⟩, state) := rfl

end HnxfsM

open HnxfsM

namespace Hnxfs

def Steady (fs : Hnxfs) : Prop := fs.faults = []

variable {fs post : Hnxfs} {n i blk c : Nat} {inode : Inode} {buf : DiskBlock}

section
variable (h : fs.Steady)
include h

lemma Steady.of_sameFrame (f : fs.SameFrame post) : post.Steady := f.faults.trans h

lemma transfer_eq : transfer fs = (true, fs) := by
  obtain ⟨sb, blocks, faults, vnodes, vnodeInode, vnodeCount⟩ := fs
  have none : faults = [] := h
  subst none
  rfl

lemma readBlock_eq : hnxfsReadBlock blk fs = (some (fs.blocks blk), fs) := by
  simp only [hnxfsReadBlock, bind_apply, transfer_eq h, if_true, get_apply, pure_apply]

lemma writeBlock_eq : hnxfsWriteBlock blk buf fs = (0, fs.putBlock blk buf) := by
  simp only [hnxfsWriteBlock, bind_apply, transfer_eq h, if_true, modify_apply, pure_apply]

end

lemma image_inode (numLt : n < fs.sb.inodeCount) :
    fs.image.inode n = inodeAt (fs.blocks (fs.sb.inodeTableBlock + n / 32)) (n % 32) :=
  if_pos numLt

lemma image_inode_fits : (fs.image.inode n).Fits := by
  simp only [image, imageOf]
  split
  · exact inodeAt_fits
  · exact newInode_fits .file

lemma image_data (inData : fs.sb.InData blk) : fs.image.data blk = fs.blocks blk := if_pos inData

lemma readInode_eq (h : fs.Steady) (pos : n ≠ 0) (numLt : n < fs.sb.inodeCount) :
    hnxfsReadInode n fs = (some (fs.image.inode n), fs) := by
  have valid : ¬ (n = 0 ∨ n ≥ fs.sb.inodeCount) := by omega
  show (if n = 0 ∨ n ≥ fs.sb.inodeCount then _ else _ : HnxfsM _) fs = _
  simp [if_neg valid, bind_apply, readBlock_eq h, pure_apply, image_inode numLt]

lemma readInode_none (invalid : n = 0 ∨ fs.sb.inodeCount ≤ n) :
    hnxfsReadInode n fs = (none, fs) := by
  have no : n = 0 ∨ n ≥ fs.sb.inodeCount := invalid
  show (if n = 0 ∨ n ≥ fs.sb.inodeCount then _ else _ : HnxfsM _) fs = _
  simp [if_pos no, pure_apply]

lemma writeInode_eq (h : fs.Steady) (pos : n ≠ 0) (numLt : n < fs.sb.inodeCount) :
    hnxfsWriteInode n inode fs = (0, fs.setInode n inode) := by
  have valid : ¬ (n = 0 ∨ n ≥ fs.sb.inodeCount) := by omega
  show (if n = 0 ∨ n ≥ fs.sb.inodeCount then _ else _ : HnxfsM _) fs = _
  simp only [if_neg valid, bind_apply, readBlock_eq h, writeBlock_eq h, pure_apply,
    if_true, setInode]

lemma bitmapFree_eq (h : fs.Steady) :
    bitmapFree blk i fs = ((), fs.putBlock blk (bitClear (fs.blocks blk) 0 i)) := by
  simp only [bitmapFree, bind_apply, readBlock_eq h, writeBlock_eq h, pure_apply]

lemma bitmapAlloc_eq {limit fst : Nat} (h : fs.Steady) : bitmapAlloc blk limit fst fs =
    match (List.range' fst (limit - fst)).find? fun i => !bitTest (fs.blocks blk) 0 i with
    | none => (none, fs)
    | some i => (some i, fs.putBlock blk (bitSet (fs.blocks blk) 0 i)) := by
  simp only [bitmapAlloc, bind_apply, readBlock_eq h]
  cases (List.range' fst (limit - fst)).find? fun i => !bitTest (fs.blocks blk) 0 i with
  | none => simp [pure_apply]
  | some => simp [bind_apply, writeBlock_eq h, pure_apply]

lemma find_clear {bits : Nat → Bool} {fst limit : Nat} :
    ((List.range' fst (limit - fst)).find? (fun i => !bits i) = none ∧
      ∀ i, fst ≤ i → i < limit → bits i = true) ∨
    ∃ i, (List.range' fst (limit - fst)).find? (fun i => !bits i) = some i ∧
      fst ≤ i ∧ i < limit ∧ bits i = false ∧
      ∀ lower, fst ≤ lower → lower < i → bits lower = true := by
  cases hf : (List.range' fst (limit - fst)).find? fun i => !bits i with
  | none =>
    left
    refine ⟨rfl, ?_⟩
    intro i le1 idxLt
    have bit := List.find?_eq_none.mp hf i (by
      rw [mem_range'_1]
      omega)
    simpa using bit
  | some i =>
    right
    have clear := List.find?_some hf
    have mem := mem_range'_1.mp (mem_of_find?_eq_some hf)
    refine ⟨i, rfl, by omega, by omega, by simpa using clear, ?_⟩
    intro lower le1 lowerLt
    obtain ⟨-, before, post, split, earlier⟩ := List.find?_eq_some_iff_append.mp hf
    have inPre : lower ∈ before := by
      have inRange : lower ∈ List.range' fst (limit - fst) := by
        rw [mem_range'_1]
        omega
      have sorted : (before ++ i :: post).Pairwise (· < ·) := split ▸ pairwise_lt_range'
      rw [split, mem_append, mem_cons] at inRange
      rcases inRange with inPre | same | inAfter
      · exact inPre
      · omega
      have later := pairwise_append.mp sorted
      have := (pairwise_cons.mp later.2.1).1 lower inAfter
      omega
    simpa using earlier lower inPre

lemma allocInode_cases (h : fs.Steady) : (hnxfsAllocInode fs = (0, fs) ∧
      ∀ n, 2 ≤ n → n < fs.sb.inodeCount → fs.image.inodeUsed n = true) ∨
    ∃ c, hnxfsAllocInode fs = (c, fs.markInode c) ∧ 2 ≤ c ∧
      c < fs.sb.inodeCount ∧ fs.image.inodeUsed c = false ∧
      ∀ n, 2 ≤ n → n < c → fs.image.inodeUsed n = true := by
  simp only [hnxfsAllocInode, bind_apply, get_apply, bitmapAlloc_eq h]
  rcases @find_clear (bitTest (fs.blocks fs.sb.inodeBitmapBlock) 0) 2 fs.sb.inodeCount with
    ⟨notFound, used⟩ | ⟨c, hf, twoLe, childLt, hc, lowerUsed⟩
  · left
    constructor
    · simp [notFound, pure_apply]
    intro n twoLe numLt
    rw [inodeUsed_of_lt numLt]
    exact used n twoLe numLt
  right
  refine ⟨c, ?_, twoLe, childLt, ?_, ?_⟩
  · simp [hf, pure_apply, markInode]
  · rw [inodeUsed_of_lt childLt]
    exact hc
  intro n numLe numLt
  rw [inodeUsed_of_lt (numLt.trans childLt)]
  exact lowerUsed n numLe numLt

lemma freeInode_eq (h : fs.Steady) (twoLe : 2 ≤ n) :
    hnxfsFreeInode n fs = ((), fs.unmarkInode n) := by
  have free : n ≥ 2 := twoLe
  simp [hnxfsFreeInode, bind_apply, get_apply, if_pos free, bitmapFree_eq h, unmarkInode]

lemma freeBlock_eq (h : fs.Steady) (startLe : fs.sb.dataBlockStart ≤ blk) :
    hnxfsFreeBlock blk fs = ((), fs.unmarkBlock (blk - fs.sb.dataBlockStart)) := by
  have mem : ¬ blk < fs.sb.dataBlockStart := by omega
  show (if blk < fs.sb.dataBlockStart then _ else _ : HnxfsM _) fs = _
  simp [if_neg mem, bitmapFree_eq h, unmarkBlock]

def takeBlock (fs : Hnxfs) (idx : Nat) : Hnxfs :=
  (fs.markBlock idx).putBlock (fs.sb.dataBlockStart + idx) zeroBlock

lemma allocBlock_cases (lay : fs.sb.Layout) (h : fs.Steady) : (hnxfsAllocBlock fs = (0, fs) ∧
      ∀ i < fs.sb.dataBlockCount, fs.image.blockUsed i = true) ∨
    ∃ i, hnxfsAllocBlock fs = (fs.sb.dataBlockStart + i, fs.takeBlock i) ∧
      i < fs.sb.dataBlockCount ∧ fs.image.blockUsed i = false := by
  simp only [hnxfsAllocBlock, bind_apply, get_apply, bitmapAlloc_eq h]
  rcases @find_clear (bitTest (fs.blocks fs.sb.dataBitmapBlock) 0) 0 fs.sb.dataBlockCount with
    ⟨notFound, used⟩ | ⟨i, hf, -, idxLt, hc, -⟩
  · left
    constructor
    · simp only [notFound, pure_apply]
    intro i idxLt
    rw [blockUsed_of_lt idxLt]
    exact used i (Nat.zero_le _) idxLt
  right
  refine ⟨i, ?_, idxLt, ?_⟩
  · have word : u64 (fs.sb.dataBlockStart + i) = fs.sb.dataBlockStart + i :=
      u64_of_lt (by have := lay.addressable; omega)
    have marked : (fs.putBlock fs.sb.dataBitmapBlock
      (bitSet (fs.blocks fs.sb.dataBitmapBlock) 0 i)).Steady := h
    simp only [hf, bind_apply, word, writeBlock_eq marked, pure_apply, takeBlock, markBlock]
  rw [blockUsed_of_lt idxLt]
  exact hc

lemma inData_add (idxLt : i < fs.sb.dataBlockCount) : fs.sb.InData (fs.sb.dataBlockStart + i) :=
  ⟨Nat.le_add_right _ _, by omega⟩

lemma image_takeBlock (lay : fs.sb.Layout) (idxLt : i < fs.sb.dataBlockCount) :
    (fs.takeBlock i).image = { fs.image with
        blockUsed := Function.update fs.image.blockUsed i true
        data := Function.update fs.image.data (fs.sb.dataBlockStart + i) zeroBlock } := by
  have marked : (fs.markBlock i).sb.Layout := lay
  have inData : (fs.markBlock i).sb.InData (fs.sb.dataBlockStart + i) := inData_add idxLt
  rw [takeBlock, image_putData marked inData, image_markBlock lay idxLt]

def slotIn (data : Nat → DiskBlock) (wanted : DiskBlock → Nat → Bool) (dir : Inode) :
    List Nat → Option (Nat × Nat × DiskBlock)
  | [] => none
  | b :: rest =>
    match (List.range 32).find? (wanted (data (dir.direct b))) with
    | some slot => some (b, slot, data (dir.direct b))
    | none => slotIn data wanted dir rest

variable {wanted : DiskBlock → Nat → Bool} {dir : Inode} {positions : List Nat}
  {data o : Nat → DiskBlock}

lemma findSlot_eq (h : fs.Steady) :
    findSlot wanted dir positions fs = (slotIn fs.blocks wanted dir positions, fs) := by
  induction positions with
  | nil => rfl
  | cons b _ ih =>
    simp only [findSlot, slotIn, bind_apply, readBlock_eq h]
    cases (List.range 32).find? (wanted (fs.blocks (dir.direct b))) with
    | some => simp [pure_apply]
    | none => exact ih

lemma slotIn_congr (agree : ∀ b ∈ positions, data (dir.direct b) = o (dir.direct b)) :
    slotIn data wanted dir positions = slotIn o wanted dir positions := by
  induction positions with
  | nil => rfl
  | cons b _ ih =>
    have restEq := ih fun pos mem => agree pos (by simp [mem])
    simp [slotIn, agree b (by simp), restEq]

lemma slotIn_none (notFound : slotIn data wanted dir positions = none) :
    ∀ b ∈ positions, ∀ s < 32, wanted (data (dir.direct b)) s = false := by
  induction positions with
  | nil => simp
  | cons b _ ih =>
    rw [slotIn] at notFound
    cases hf : (List.range 32).find? (wanted (data (dir.direct b))) with
    | some => simp [hf] at notFound
    | none =>
      simp only [hf] at notFound
      intro pos mem s slotLt
      rcases mem_cons.mp mem with same | inRest
      · rw [same]
        have := List.find?_eq_none.mp hf s (mem_range.mpr slotLt)
        simpa using this
      · exact ih notFound pos inRest s slotLt

lemma slotIn_some {b s : Nat} (hf : slotIn data wanted dir positions = some (b, s, buf)) :
    b ∈ positions ∧ s < 32 ∧ buf = data (dir.direct b) ∧ wanted buf s = true := by
  induction positions with
  | nil => simp [slotIn] at hf
  | cons pos rest ih =>
    rw [slotIn] at hf
    cases search : (List.range 32).find? (wanted (data (dir.direct pos))) with
    | some =>
      simp only [search, Option.some.injEq, Prod.mk.injEq] at hf
      obtain ⟨rfl, rfl, rfl⟩ := hf
      exact ⟨by simp, mem_range.mp (mem_of_find?_eq_some search), rfl, List.find?_some search⟩
    | none =>
      simp only [search] at hf
      obtain ⟨mem, rest⟩ := ih hf
      exact ⟨by simp [mem], rest⟩

lemma readDirectory_eq (h : fs.Steady) (pos : n ≠ 0)
    (numLt : n < fs.sb.inodeCount) (hd : (fs.image.inode n).type = hnxfsTypeDir) :
    readDirectory n fs = (some (fs.image.inode n), fs) := by
  simp [readDirectory, bind_apply, readInode_eq h pos numLt, pure_apply, if_pos hd]

lemma readDirectory_none (h : fs.Steady) (pos : n ≠ 0) (numLt : n < fs.sb.inodeCount)
    (notDir : (fs.image.inode n).type ≠ hnxfsTypeDir) : readDirectory n fs = (none, fs) := by
  simp [readDirectory, bind_apply, readInode_eq h pos numLt, pure_apply, if_neg notDir]

end Hnxfs

end HnxKernel
