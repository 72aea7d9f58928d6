import Hnx.HnxfsContents
import Hnx.HnxfsUnlinkFaults

/-!
# `v_create` on a device with failing transfers

Old contents become live through an inode or a directory block that could not be written.
-/

namespace HnxKernel

open Function
open HnxfsM Bitmap

namespace Hnxfs

variable {fs post : Hnxfs} {num i blk child dir : Nat} {inode : Inode} {name : FileName}
  {b slot : Nat}

lemma bitmapAlloc_apply (blk lim fst : Nat) (fs : Hnxfs) : bitmapAlloc blk lim fst fs =
    if fs.fails then (none, fs.spend)
    else
      match (List.range' fst (lim - fst)).find? fun i => !bitTest (fs.blocks blk) 0 i with
      | none => (none, fs.spend)
      | some i =>
        if fs.spend.fails then (none, fs.spend.spend)
        else (some i, fs.spend.spend.putBlock blk (bitSet (fs.blocks blk) 0 i)) := by
  simp only [bitmapAlloc, bind_apply, readBlock_apply]
  cases fs.fails with
  | true => rfl
  | false =>
    simp only [Bool.false_eq_true, if_false]
    cases (List.range' fst (lim - fst)).find? fun i => !bitTest (fs.blocks blk) 0 i with
    | none => rfl
    | some =>
      simp only [bind_apply, writeBlock_apply]
      cases fs.spend.fails with
      | true => rfl
      | false => rfl

lemma allocInode_any : ((hnxfsAllocInode fs).1 = 0 ∧ fs.SameDisk (hnxfsAllocInode fs).2) ∨
    ∃ num, 2 ≤ num ∧ num < fs.sb.inodeCount ∧ fs.image.inodeUsed num = false ∧
      (hnxfsAllocInode fs).1 = num ∧ (fs.markInode num).SameDisk (hnxfsAllocInode fs).2 := by
  have run : hnxfsAllocInode fs =
    ((bitmapAlloc fs.sb.inodeBitmapBlock fs.sb.inodeCount 2 fs).1.getD 0,
      (bitmapAlloc fs.sb.inodeBitmapBlock fs.sb.inodeCount 2 fs).2) := rfl
  rw [run, bitmapAlloc_apply]
  cases fs.fails with
  | true => exact .inl ⟨rfl, sameDisk_spend⟩
  | false =>
    simp only [Bool.false_eq_true, if_false]
    cases hf : (List.range' 2 (fs.sb.inodeCount - 2)).find? fun i =>
        !bitTest (fs.blocks fs.sb.inodeBitmapBlock) 0 i with
    | none => exact .inl ⟨rfl, sameDisk_spend⟩
    | some num =>
      cases fs.spend.fails with
      | true => exact .inl ⟨rfl, sameDisk_spend.trans sameDisk_spend⟩
      | false =>
        right
        have mem := List.mem_range'_1.mp (List.mem_of_find?_eq_some hf)
        have clear := List.find?_some hf
        have numLt : num < fs.sb.inodeCount := by omega
        refine ⟨num, mem.1, numLt, ?_, rfl, ⟨rfl, rfl⟩⟩
        rw [inodeUsed_of_lt numLt]
        simpa using clear

variable {g h : Image} {buf : DiskBlock} {bits : Nat → Bool} {type : VnodeType}

lemma noDangling_putDirent (safe : g.NoDangling)
    (used : g.inodeUsed child = true) (childLt : child < 256 ^ 8) : Image.NoDangling
      { g with data := update g.data blk (putDirent (g.data blk) slot child name) } := by
  rintro d c s n ⟨hu, hd, cLt, sLt, live, cEq⟩
  by_cases block : (g.inode d).direct c = blk
  · simp only [block, update_self] at live cEq
    by_cases eq : s = slot
    · rw [eq, direntInode_putDirent childLt] at cEq
      rw [← cEq]
      exact used
    have agree : ∀ k < 128, putDirent (g.data blk) slot child name (s * 128 + k) =
      g.data blk (s * 128 + k) := fun k kLt => putDirent_outside eq kLt
    rw [Image.isEntry_congr agree] at live
    rw [direntInode_congr agree] at cEq
    apply safe d c s n
    refine ⟨hu, hd, cLt, sLt, ?_, ?_⟩
    · rw [block]
      exact live
    rw [block]
    exact cEq
  simp only [update_of_ne block] at live cEq
  exact safe d c s n ⟨hu, hd, cLt, sLt, live, cEq⟩

def Unreferenced (g : Image) (blk : Nat) : Prop :=
  ∀ d c, g.InUse d → g.IsDir d → c < (g.inode d).blocks → (g.inode d).direct c ≠ blk

lemma noDangling_grow (free : Unreferenced g blk) (hu : g.InUse dir) (hd : g.IsDir dir) :
    Image.NoDangling
      { g with
        blockUsed := bits
        inode := update g.inode dir (grownInode (g.inode dir) blk)
        data := update g.data blk buf } ↔
      g.NoDangling ∧ ∀ s < 32, isEntry buf s = true → g.inodeUsed (direntInode buf s) = true := by
  constructor
  · intro safe
    constructor
    · rintro d c s n ⟨used, dirOk, cLt, sLt, live, cEq⟩
      have apart := free d c used dirOk cLt
      apply safe d c s n
      by_cases eq : d = dir
      · subst eq
        have cNe : c ≠ (g.inode d).blocks := by omega
        refine ⟨used, ?_, ?_, sLt, ?_, ?_⟩
        · simp only [Image.IsDir, update_self]
          exact dirOk
        · simp only [update_self, grownInode]
          omega
        · simp only [update_self, grownInode, update_of_ne cNe, update_of_ne apart]
          exact live
        simp only [update_self, grownInode, update_of_ne cNe, update_of_ne apart]
        exact cEq
      refine ⟨used, ?_, ?_, sLt, ?_, ?_⟩
      · simp only [Image.IsDir, update_of_ne eq]
        exact dirOk
      · simp only [update_of_ne eq]
        exact cLt
      · simp only [update_of_ne eq, update_of_ne apart]
        exact live
      simp only [update_of_ne eq, update_of_ne apart]
      exact cEq
    intro s sLt live
    apply safe dir (g.inode dir).blocks s
    refine ⟨hu, ?_, ?_, sLt, ?_, ?_⟩
    · simp only [Image.IsDir, update_self]
      exact hd
    · simp only [update_self, grownInode]
      omega
    · simp only [update_self, grownInode]
      exact live
    · simp [grownInode]
  rintro ⟨safe, stored⟩ d c s n ⟨used, dirOk, cLt, sLt, live, cEq⟩
  by_cases eq : d = dir
  · subst eq
    simp only [update_self, grownInode] at cLt live cEq
    by_cases last : c = (g.inode d).blocks
    · subst last
      simp only [update_self] at live cEq
      rw [← cEq]
      exact stored s sLt live
    have below : c < (g.inode d).blocks := by omega
    have apart := free d c hu hd below
    simp only [update_of_ne last, update_of_ne apart] at live cEq
    exact safe d c s n ⟨hu, hd, below, sLt, live, cEq⟩
  simp only [Image.IsDir, update_of_ne eq] at dirOk cLt live cEq
  have apart := free d c used dirOk cLt
  simp only [update_of_ne apart] at live cEq
  exact safe d c s n ⟨used, dirOk, cLt, sLt, live, cEq⟩

def failsAt (fs : Hnxfs) (pos : Nat) : Bool := fs.faults.getD pos false

lemma fails_eq : fs.fails = fs.failsAt 0 := by
  rw [fails, failsAt]
  cases fs.faults with
  | nil => rfl
  | cons => rfl

lemma failsAt_spend (pos : Nat) : fs.spend.failsAt pos = fs.failsAt (pos + 1) := by
  rw [failsAt, failsAt, spend]
  cases fs.faults with
  | nil => rfl
  | cons => rfl

def firstClear (fs : Hnxfs) : Option Nat :=
  (List.range' 0 (fs.sb.dataBlockCount - 0)).find? fun i =>
    !bitTest (fs.blocks fs.sb.dataBitmapBlock) 0 i

lemma firstClear_some (hf : fs.firstClear = some i) :
    i < fs.sb.dataBlockCount ∧ fs.image.blockUsed i = false := by
  have mem := List.mem_range'_1.mp (List.mem_of_find?_eq_some hf)
  have clear := List.find?_some hf
  have idxLt : i < fs.sb.dataBlockCount := by omega
  refine ⟨idxLt, ?_⟩
  rw [blockUsed_of_lt idxLt]
  simpa using clear

def StaleGrowth (fs : Hnxfs) : Prop :=
  fs.failsAt 0 = false ∧ fs.failsAt 1 = false ∧ fs.failsAt 2 = true ∧ fs.failsAt 3 = false ∧
    fs.failsAt 4 = false ∧ fs.failsAt 5 = true

def taken (g : Image) (blk : Nat) (bits : Nat → Bool) (buf : DiskBlock) : Image :=
  { g with blockUsed := bits, data := update g.data blk buf }

def grown (g : Image) (dir blk : Nat) (bits : Nat → Bool) (buf : DiskBlock) : Image :=
  { g with
    blockUsed := bits
    inode := update g.inode dir (grownInode (g.inode dir) blk)
    data := update g.data blk buf }

inductive GrowOutcome (fs : Hnxfs) (dir child : Nat) (name : FileName) (result : Int)
    (after : Hnxfs) : Prop
  | unchanged (failed : result ≠ 0) (notStale : ¬ (fs.firstClear ≠ none ∧ fs.StaleGrowth))
      (image : after.image = fs.image)
  | leaked (idx : Nat) (bits : Nat → Bool) (buf : DiskBlock) (failed : result ≠ 0)
      (found : fs.firstClear = some idx) (notStale : ¬ fs.StaleGrowth)
      (image : after.image = taken fs.image (fs.sb.dataBlockStart + idx) bits buf)
  | stored (idx : Nat) (bits : Nat → Bool) (succeeded : result = 0)
      (found : fs.firstClear = some idx) (notStale : ¬ fs.StaleGrowth)
      (image : after.image = grown fs.image dir (fs.sb.dataBlockStart + idx) bits
        (putDirent zeroBlock 0 child name))
  | zeroed (idx : Nat) (bits : Nat → Bool) (failed : result ≠ 0)
      (found : fs.firstClear = some idx) (notStale : ¬ fs.StaleGrowth)
      (image : after.image = grown fs.image dir (fs.sb.dataBlockStart + idx) bits zeroBlock)
  | stale (idx : Nat) (bits : Nat → Bool) (failed : result ≠ 0)
      (found : fs.firstClear = some idx) (stale : fs.StaleGrowth)
      (image : after.image = grown fs.image dir (fs.sb.dataBlockStart + idx) bits
        (fs.image.data (fs.sb.dataBlockStart + idx)))
      (first : after.failsAt 0 = fs.failsAt 6) (second : after.failsAt 1 = fs.failsAt 7)

lemma allocBlock_any (lay : fs.sb.Layout) :
    ((hnxfsAllocBlock fs).1 = 0 ∧ fs.SameDisk (hnxfsAllocBlock fs).2 ∧
      ¬ (fs.firstClear ≠ none ∧ fs.failsAt 0 = false ∧ fs.failsAt 1 = false)) ∨
    ∃ i, fs.firstClear = some i ∧ fs.failsAt 0 = false ∧ fs.failsAt 1 = false ∧
      (hnxfsAllocBlock fs).1 = fs.sb.dataBlockStart + i ∧
      (if fs.failsAt 2 then fs.markBlock i else fs.takeBlock i).SameDisk
        (hnxfsAllocBlock fs).2 ∧
      ∀ pos, (hnxfsAllocBlock fs).2.failsAt pos = fs.failsAt (pos + 3) := by
  have fst : fs.fails = fs.failsAt 0 := fails_eq
  have snd : fs.spend.fails = fs.failsAt 1 := by rw [fails_eq, failsAt_spend]
  have third : fs.spend.spend.fails = fs.failsAt 2 := by rw [fails_eq, failsAt_spend, failsAt_spend]
  simp only [hnxfsAllocBlock, bind_apply, get_apply, bitmapAlloc_apply]
  rw [← firstClear, fst, snd]
  cases bitmapRead : fs.failsAt 0 with
  | true => exact .inl ⟨rfl, sameDisk_spend, by simp⟩
  | false =>
    simp only [Bool.false_eq_true, if_false]
    cases hf : fs.firstClear with
    | none => exact .inl ⟨rfl, sameDisk_spend, by simp⟩
    | some i =>
      cases bitmapWrite : fs.failsAt 1 with
      | true => exact .inl ⟨rfl, sameDisk_spend.trans sameDisk_spend, by simp⟩
      | false =>
        right
        have wraps : u64 (fs.sb.dataBlockStart + i) = fs.sb.dataBlockStart + i := by
          apply u64_of_lt
          have := lay.addressable
          have := (firstClear_some hf).1
          omega
        refine ⟨i, rfl, by trivial, rfl, ?_⟩
        simp only [Bool.false_eq_true, if_false, bind_apply, wraps, writeBlock_apply, pure_apply]
        have zeroing : (fs.spend.spend.putBlock fs.sb.dataBitmapBlock
          (bitSet (fs.blocks fs.sb.dataBitmapBlock) 0 i)).fails = fs.failsAt 2 := third
        rw [zeroing]
        have shift : ∀ pos, fs.spend.spend.spend.failsAt pos = fs.failsAt (pos + 3) := by
          intro pos
          rw [failsAt_spend, failsAt_spend, failsAt_spend]
        cases fs.failsAt 2 with
        | true => exact ⟨trivial, ⟨rfl, rfl⟩, shift⟩
        | false => exact ⟨trivial, ⟨rfl, rfl⟩, shift⟩

lemma dirGrow_any (lay : fs.sb.Layout) (positive : dir ≠ 0) (dirLt : dir < fs.sb.inodeCount)
    (blocksLt : (fs.image.inode dir).blocks < 12) :
    fs.GrowOutcome dir child name (dirGrow dir (fs.image.inode dir) name child fs).1
      (dirGrow dir (fs.image.inode dir) name child fs).2 := by
  have full : ¬ (fs.image.inode dir).blocks ≥ 12 := by omega
  simp only [dirGrow, if_neg full, bind_apply]
  rcases allocBlock_any lay with ⟨none, eq, idle⟩ |
    ⟨i, hf, read, write, blkEq, eq, shift⟩
  · rw [none]
    simp only [if_true, pure_apply]
    apply GrowOutcome.unchanged (by decide) _ eq.image
    rintro ⟨exists_clear, stale⟩
    exact idle ⟨exists_clear, stale.1, stale.2.1⟩
  obtain ⟨idxLt, hc⟩ := firstClear_some hf
  have inData : fs.sb.InData (fs.sb.dataBlockStart + i) := inData_add idxLt
  have blkNe : fs.sb.dataBlockStart + i ≠ 0 := lay.data_ne_zero inData
  rw [blkEq]
  simp only [if_neg blkNe, bind_apply]
  set v := (hnxfsAllocBlock fs).2
  have vSb : v.sb = fs.sb := by
    rw [eq.sb]
    split
    · rfl
    · rfl
  set buf := if fs.failsAt 2 then fs.image.data (fs.sb.dataBlockStart + i) else zeroBlock
    with bufDef
  have vImage : v.image = taken fs.image (fs.sb.dataBlockStart + i)
    (update fs.image.blockUsed i true) buf := by
    rw [eq.image, bufDef, taken]
    cases fs.failsAt 2 with
    | true =>
      simp only [if_true]
      rw [image_markBlock lay idxLt, update_eq_self]
    | false =>
      simp only [Bool.false_eq_true, if_false]
      rw [image_takeBlock lay idxLt]
  have inoEq : v.image.inode dir = fs.image.inode dir := by rw [vImage, taken]
  have vLt : dir < v.sb.inodeCount := by
    rw [vSb]
    exact dirLt
  have vLayout : v.sb.Layout := by
    rw [vSb]
    exact lay
  rw [show ({ fs.image.inode dir with
    direct := update (fs.image.inode dir).direct (fs.image.inode dir).blocks
      (fs.sb.dataBlockStart + i)
    blocks := (fs.image.inode dir).blocks + 1
    size := ((fs.image.inode dir).blocks + 1) * 4096 } : Inode) =
      grownInode (fs.image.inode dir) (fs.sb.dataBlockStart + i) from rfl,
    writeInode_apply positive vLt]
  have v0 : v.fails = fs.failsAt 3 := by rw [fails_eq, shift]
  have v1 : v.spend.fails = fs.failsAt 4 := by rw [fails_eq, failsAt_spend, shift]
  have v2 : v.spend.spend.fails = fs.failsAt 5 := by
    rw [fails_eq, failsAt_spend, failsAt_spend, shift]
  have eio : (-sysEio : Int) ≠ 0 := by decide
  rw [v0, v1]
  cases tableRead : fs.failsAt 3 with
  | true =>
    simp only [if_true, if_pos eio, pure_apply]
    refine GrowOutcome.leaked i _ buf eio hf ?_ (sameDisk_spend.image.trans vImage)
    intro stale
    rw [stale.2.2.2.1] at tableRead
    exact Bool.noConfusion tableRead
  | false =>
    cases tableWrite : fs.failsAt 4 with
    | true =>
      simp only [Bool.false_eq_true, if_false, if_true, if_pos eio, pure_apply]
      refine GrowOutcome.leaked i _ buf eio hf ?_
        ((sameDisk_spend.trans sameDisk_spend).image.trans vImage)
      intro stale
      rw [stale.2.2.2.2.1] at tableWrite
      exact Bool.noConfusion tableWrite
    | false =>
      have wImage : (v.spend.spend.setInode dir (grownInode (fs.image.inode dir)
        (fs.sb.dataBlockStart + i))).image = grown fs.image dir (fs.sb.dataBlockStart + i)
            (update fs.image.blockUsed i true) buf := by
        have fits : (grownInode (fs.image.inode dir) (fs.sb.dataBlockStart + i)).Fits := by
          apply grownInode_fits image_inode_fits _ blocksLt
          have := lay.addressable
          omega
        have spent : v.spend.spend.image = v.image := (sameDisk_spend.trans sameDisk_spend).image
        rw [@image_setInode v.spend.spend dir _ vLayout vLt fits, spent, vImage, taken, grown]
      set w := v.spend.spend.setInode dir (grownInode (fs.image.inode dir)
        (fs.sb.dataBlockStart + i))
      have wFails : w.fails = fs.failsAt 5 := v2
      have wShift : ∀ pos, w.failsAt pos = fs.failsAt (pos + 5) := by
        intro pos
        show v.spend.spend.failsAt pos = _
        rw [failsAt_spend, failsAt_spend, shift]
      simp only [Bool.false_eq_true, if_false, ne_eq, not_true, bind_apply, writeBlock_apply,
        wFails]
      cases last : fs.failsAt 5 with
      | true =>
        simp only [if_true, pure_apply]
        have failed : (if (-1 : Int) = 0 then (0 : Int) else -sysEio) ≠ 0 := by decide
        have spent : w.spend.image = w.image := sameDisk_spend.image
        cases zeroing : fs.failsAt 2 with
        | true =>
          refine GrowOutcome.stale i (update fs.image.blockUsed i true)
            failed hf ⟨read, write, zeroing, tableRead, tableWrite, last⟩ ?_ ?_ ?_
          · rw [spent, wImage, bufDef, zeroing, if_pos rfl]
          · rw [failsAt_spend, wShift]
          · rw [failsAt_spend, wShift]
        | false =>
          refine GrowOutcome.zeroed i (update fs.image.blockUsed i true)
            failed hf ?_ ?_
          · intro stale
            rw [stale.2.2.1] at zeroing
            exact Bool.noConfusion zeroing
          rw [spent, wImage, bufDef, zeroing]
          rfl
      | false =>
        simp only [Bool.false_eq_true, if_false, pure_apply, if_true]
        refine GrowOutcome.stored i (update fs.image.blockUsed i true)
          rfl hf ?_ ?_
        · intro stale
          rw [stale.2.2.2.2.2] at last
          exact Bool.noConfusion last
        have wInData : w.spend.sb.InData (fs.sb.dataBlockStart + i) := by
          show v.sb.InData _
          rw [vSb]
          exact inData
        have spent : w.spend.image = w.image := sameDisk_spend.image
        rw [@image_putData w.spend _ _ vLayout wInData, spent, wImage, grown, grown]
        simp

def upToInode (dir : Nat) (name : FileName) : HnxfsM (Option Nat) := do
  if (← hnxfsDirLookup dir name) ≠ 0 then
    return none
  else
    let child ← hnxfsAllocInode
    return if child = 0 then none else some child

def upToGrowth (dir : Nat) : HnxfsM Bool := do
  match ← readDirectory dir with
  | none => return false
  | some inode =>
    match ← findSlot isFreeSlot inode inode.dirBlocks with
    | some _ => return false
    | none => return decide (inode.blocks < 12)

lemma upToInode_any : ((upToInode dir name fs).1 = none ∧ fs.SameDisk (upToInode dir name fs).2) ∨
    ∃ child, (upToInode dir name fs).1 = some child ∧ 2 ≤ child ∧ child < fs.sb.inodeCount ∧
      fs.image.inodeUsed child = false ∧
      (fs.markInode child).SameDisk (upToInode dir name fs).2 := by
  have lookup := keeps_dirLookup sameDisk_readBlock dir name fs
  simp only [upToInode, bind_apply]
  by_cases pres : (hnxfsDirLookup dir name fs).1 ≠ 0
  · left
    simp only [if_pos pres, pure_apply]
    exact ⟨trivial, lookup⟩
  simp only [if_neg pres, bind_apply, pure_apply]
  set looked := (hnxfsDirLookup dir name fs).2
  rcases allocInode_any with ⟨zero, same⟩ | ⟨child, twoLe, childLt, hc, eq, same⟩
  · left
    exact ⟨if_pos zero, lookup.trans same⟩
  right
  have childNe : (hnxfsAllocInode looked).1 ≠ 0 := by omega
  refine ⟨child, ?_, twoLe, ?_, ?_, ?_⟩
  · rw [if_neg childNe, eq]
  · rw [← lookup.sb]
    exact childLt
  · rw [← lookup.image]
    exact hc
  refine ⟨same.sb.trans lookup.sb, same.blocks.trans ?_⟩
  rw [markInode, markInode, putBlock, putBlock, lookup.sb, lookup.blocks]

lemma sameDisk_getVnode (num : Nat) : Keeps SameDisk (hnxfsGetVnode num) := by
  refine .bind Keeps.get fun st => ?_
  have read := keeps_readInode sameDisk_readBlock num
  cases st.cached num with
  | some =>
    apply read.bind
    rintro (_ | inode)
    · exact .pure _
    · exact .bind (fun _ => ⟨rfl, rfl⟩) fun _ => Keeps.pure _
  | none =>
    have claim : Keeps SameDisk (claimSlot num) := by
      intro pre
      rw [claimSlot_eq]
      exact ⟨sameVolume_claimed.sb, sameVolume_claimed.blocks⟩
    apply claim.bind
    intro slot
    apply read.bind
    rintro (_ | inode)
    · exact .pure _
    · exact .bind (fun _ => ⟨rfl, rfl⟩) fun _ => Keeps.pure _

/-- After the bit was set, `v_create` adds the entry or takes the bit back. -/
lemma vCreate_eq_inode (dir : Nat) (name : FileName) (type : VnodeType) (outp : Bool) (fs : Hnxfs) :
    (vCreate dir name type outp fs).2 =
      match (upToInode dir name fs).1 with
    | none => (upToInode dir name fs).2
    | some child =>
      let wrote := hnxfsWriteInode child (newInode type) (upToInode dir name fs).2
        let added := hnxfsDirAdd dir name child wrote.2
        if wrote.1 ≠ 0 then (hnxfsFreeInode child wrote.2).2
        else if added.1 ≠ 0 then (hnxfsFreeInode child added.2).2
        else if outp then (hnxfsGetVnode child added.2).2 else added.2 := by
  simp only [vCreate, upToInode, bind_apply]
  by_cases pres : (hnxfsDirLookup dir name fs).1 ≠ 0
  · simp [if_pos pres, pure_apply]
  simp only [if_neg pres, bind_apply, pure_apply]
  set looked := (hnxfsDirLookup dir name fs).2
  by_cases full : (hnxfsAllocInode looked).1 = 0
  · simp [if_pos full, pure_apply]
  simp only [if_neg full, bind_apply]
  set child := (hnxfsAllocInode looked).1
  set allocated := (hnxfsAllocInode looked).2
  by_cases failed : (hnxfsWriteInode child (newInode type) allocated).1 ≠ 0
  · simp only [if_pos failed, bind_apply, pure_apply]
  simp only [if_neg failed, bind_apply]
  by_cases notAdded : (hnxfsDirAdd dir name child
      (hnxfsWriteInode child (newInode type) allocated).2).1 ≠ 0
  · simp only [if_pos notAdded, bind_apply, pure_apply]
  simp only [if_neg notAdded]
  cases outp with
  | true => simp [bind_apply, pure_apply]
  | false => simp [pure_apply]

lemma freeInode_image (lay : fs.sb.Layout) (twoLe : 2 ≤ num) :
    ((fs.fails = true ∨ fs.spend.fails = true) ∧ (hnxfsFreeInode num fs).2.image = fs.image) ∨
    (¬ (fs.fails = true ∨ fs.spend.fails = true) ∧ (hnxfsFreeInode num fs).2.image =
        { fs.image with inodeUsed := update fs.image.inodeUsed num false }) := by
  rw [freeInode_apply twoLe]
  cases fst : fs.fails with
  | true => exact .inl ⟨.inl rfl, sameDisk_spend.image⟩
  | false =>
    cases snd : fs.spend.fails with
    | true => exact .inl ⟨.inr rfl, (sameDisk_spend.trans sameDisk_spend).image⟩
    | false =>
      right
      refine ⟨by simp, ?_⟩
      exact image_unmarkInode lay

/-- What the old contents of a free inode would have as entries is in use. -/
def StaleInodeSafe (fs : Hnxfs) (child : Nat) : Prop :=
  ∀ b slot n, Image.Entry
      { fs.image with inodeUsed := update fs.image.inodeUsed child true } child b slot n →
    update fs.image.inodeUsed child true n = true

/-- The same for the old contents of the block that is taken. -/
def StaleBlockSafe (fs : Hnxfs) (child : Nat) (kept : Prop) : Prop :=
  ∀ i, fs.firstClear = some i → ∀ slot < 32,
    isEntry (fs.image.data (fs.sb.dataBlockStart + i)) slot = true →
      fs.image.inodeUsed (direntInode (fs.image.data (fs.sb.dataBlockStart + i)) slot) = true ∨
        direntInode (fs.image.data (fs.sb.dataBlockStart + i)) slot = child ∧ kept

/-- The old contents of an inode or a block that could not be written have no dangling entry. -/
def CreateSafe (fs : Hnxfs) (dir : Nat) (name : FileName) (type : VnodeType) : Prop :=
  ∀ child, (upToInode dir name fs).1 = some child →
    let made := (upToInode dir name fs).2
    let wrote := (hnxfsWriteInode child (newInode type) made).2
    let scanned := upToGrowth dir wrote
    (made.fails = true ∨ made.spend.fails = true → wrote.fails = true ∨ wrote.spend.fails = true →
      fs.StaleInodeSafe child) ∧
    (¬ (made.fails = true ∨ made.spend.fails = true) → scanned.1 = true → scanned.2.StaleGrowth →
      fs.StaleBlockSafe child (scanned.2.failsAt 6 = true ∨ scanned.2.failsAt 7 = true))

lemma noDangling_taken (safe : g.NoDangling)
    (free : Unreferenced g blk) : (taken g blk bits buf).NoDangling := by
  rintro d c s n ⟨hu, hd, cLt, sLt, live, cEq⟩
  have apart := free d c hu hd cLt
  simp only [taken, update_of_ne apart] at live cEq
  exact safe d c s n ⟨hu, hd, cLt, sLt, live, cEq⟩

lemma isEntry_zeroBlock (slot : Nat) : isEntry zeroBlock slot = false := by
  have zero : direntInode zeroBlock slot = 0 := ByteMemory.readLE_eq_zero fun _ _ => rfl
  rw [← Bool.not_eq_true, Image.isEntry_iff, zero]
  exact fun both => both.1 rfl

lemma dirAdd_any (lay : fs.sb.Layout) (pos : dir ≠ 0) (dirLt : dir < fs.sb.inodeCount)
    (bs : fs.image.IsDir dir → fs.DirBlocks (fs.image.inode dir)) : ((upToGrowth dir fs).1 = false ∧
      ((hnxfsDirAdd dir name child fs).1 ≠ 0 ∧ fs.SameDisk (hnxfsDirAdd dir name child fs).2 ∨
        (hnxfsDirAdd dir name child fs).1 = 0 ∧ ∃ blk slot,
          (hnxfsDirAdd dir name child fs).2.image =
            { fs.image with
              data := update fs.image.data blk (putDirent (fs.image.data blk) slot child name) })) ∨
    (upToGrowth dir fs).1 = true ∧ fs.image.IsDir dir ∧ fs.SameDisk (upToGrowth dir fs).2 ∧
      (upToGrowth dir fs).2.GrowOutcome dir child name (hnxfsDirAdd dir name child fs).1
        (hnxfsDirAdd dir name child fs).2 := by
  have run := readDirectory_apply fs dir pos dirLt
  simp only [hnxfsDirAdd, upToGrowth, bind_apply, run]
  by_cases readable : fs.fails = false ∧ fs.image.IsDir dir
  · have dirBlocks := bs readable.2
    simp only [if_pos readable, bind_apply, findSlot_apply]
    set scan := firstRead (slotOf fs.spend.blocks isFreeSlot (fs.image.inode dir)) fs.spend.faults
      (fs.image.inode dir).dirBlocks with scanDef
    set scanned : Hnxfs := { fs.spend with faults := scan.2 } with scannedDef
    have eq : fs.SameDisk scanned := ⟨rfl, rfl⟩
    cases hf : scan.1 with
    | some place =>
      left
      obtain ⟨b, slot⟩ := place
      have inData := dirBlocks b (firstRead_some hf).1
      simp only [Option.map_some, bind_apply, pure_apply, writeBlock_apply]
      refine ⟨trivial, ?_⟩
      cases scanned.fails with
      | true =>
        left
        simp only [if_true]
        exact ⟨by decide, eq.trans sameDisk_spend⟩
      | false =>
        right
        refine ⟨rfl, (fs.image.inode dir).direct b, slot, ?_⟩
        have scannedImage : scanned.spend.image = fs.image := (eq.trans sameDisk_spend).image
        have blockEq : fs.spend.blocks ((fs.image.inode dir).direct b) =
          fs.image.data ((fs.image.inode dir).direct b) := (image_data inData).symm
        simp only [Bool.false_eq_true, if_false]
        rw [blockEq, @image_putData scanned.spend _ _ lay inData, scannedImage]
    | none =>
      simp only [Option.map_none, pure_apply]
      by_cases room : (fs.image.inode dir).blocks < 12
      · right
        refine ⟨decide_eq_true room, readable.2, eq, ?_⟩
        have out := @dirGrow_any scanned child dir name lay pos dirLt
          (by rw [eq.image]; exact room)
        rw [eq.image] at out
        exact out
      left
      refine ⟨decide_eq_false room, .inl ?_⟩
      have full : (fs.image.inode dir).blocks ≥ 12 := by omega
      simp only [dirGrow, if_pos full, pure_apply]
      exact ⟨by decide, eq⟩
  left
  simp only [if_neg readable, pure_apply]
  exact ⟨trivial, .inl ⟨by decide, sameDisk_spend⟩⟩

def withChild (g : Image) (child : Nat) (type : VnodeType) (bits : Nat → Bool) : Image :=
  { g with inodeUsed := bits, inode := update g.inode child (newInode type) }

section WithChild

variable {type : VnodeType} {bits : Nat → Bool} (wf : fs.WellFormed)
  (only : ∀ num, bits num = true → num = child ∨ fs.image.inodeUsed num = true)
include only

omit wf in
lemma withChild_dir {d c : Nat} (hu : (withChild fs.image child type bits).InUse d)
    (cLt : c < ((withChild fs.image child type bits).inode d).blocks) :
    fs.image.InUse d ∧ (withChild fs.image child type bits).inode d = fs.image.inode d := by
  have dNe : d ≠ child := by
    intro eq
    rw [withChild, eq] at cLt
    simp only [update_self, newInode] at cLt
    omega
  rcases only d hu.2 with eq | used
  · exact absurd eq dNe
  · exact ⟨⟨hu.1, used⟩, update_of_ne dNe _ _⟩

include wf

lemma withChild_unreferenced (idxLt : i < fs.sb.dataBlockCount)
    (hc : fs.image.blockUsed i = false) :
    Unreferenced (withChild fs.image child type bits) (fs.sb.dataBlockStart + i) := by
  intro d c hu hd cLt eq
  obtain ⟨used, inoEq⟩ := withChild_dir only hu cLt
  rw [Image.IsDir, inoEq] at hd
  rw [inoEq] at cLt eq
  have bound := wf.blocks_le d used
  exact wf.clear i idxLt hc d c
    ⟨used, by omega, eq, eq ▸ wf.dir_full d c used hd cLt⟩

lemma withChild_noDangling (keeps : ∀ num, fs.image.inodeUsed num = true → bits num = true) :
    (withChild fs.image child type bits).NoDangling := by
  rintro d c s n ⟨hu, hd, cLt, sLt, live, cEq⟩
  obtain ⟨used, inoEq⟩ := withChild_dir only hu cLt
  rw [Image.IsDir, inoEq] at hd
  rw [inoEq] at cLt live cEq
  exact keeps n (wf.entry_used d c s n ⟨used, hd, cLt, sLt, live, cEq⟩).2.2

end WithChild

lemma noDangling_congr (usedEq : h.inodeUsed = g.inodeUsed)
    (inoEq : h.inode = g.inode) (dataEq : h.data = g.data) : h.NoDangling ↔ g.NoDangling := by
  cases g with
  | mk =>
    cases h with
    | mk =>
      subst usedEq inoEq dataEq
      constructor
      · intro safe d c s n e
        exact safe d c s n { e with }
      intro safe d c s n e
      exact safe d c s n { e with }

lemma noDangling_of_growth {res : Int} {scanned : Hnxfs} {kept : Prop} (wf : fs.WellFormed)
    (only : ∀ num, bits num = true → num = child ∨ fs.image.inodeUsed num = true)
    (keeps : ∀ num, fs.image.inodeUsed num = true → bits num = true)
    (child_iff : fs.firstClear ≠ none → scanned.StaleGrowth → (bits child = true ↔ kept))
    (hu : fs.image.InUse dir) (apart : dir ≠ child) (hd : fs.image.IsDir dir)
    (clearEq : scanned.firstClear = fs.firstClear) (failed : res ≠ 0)
    (out : scanned.GrowOutcome dir child name res post) (sbEq : scanned.sb = fs.sb)
    (dataEq : scanned.image.data = fs.image.data)
    (inoEq : scanned.image.inode = (withChild fs.image child type bits).inode)
    (hUsed : h.inodeUsed = bits) (hInode : h.inode = post.image.inode)
    (hData : h.data = post.image.data) :
    h.NoDangling ↔ (scanned.StaleGrowth → fs.StaleBlockSafe child kept) := by
  have safe : (withChild fs.image child type bits).NoDangling := withChild_noDangling wf only keeps
  have baseUse : (withChild fs.image child type bits).InUse dir := ⟨hu.1, keeps dir hu.2⟩
  have baseDir : (withChild fs.image child type bits).IsDir dir := by
    rw [Image.IsDir, withChild]
    simp only [update_of_ne apart]
    exact hd
  have unreferenced : ∀ {i}, fs.firstClear = some i →
    Unreferenced (withChild fs.image child type bits) (fs.sb.dataBlockStart + i) := by
    intro i hf
    obtain ⟨idxLt, hc⟩ := firstClear_some hf
    exact withChild_unreferenced wf only idxLt hc
  cases out with
  | unchanged _ notStale im =>
    have eq : h.NoDangling ↔ (withChild fs.image child type bits).NoDangling :=
      noDangling_congr hUsed (by rw [hInode, im, inoEq]) (by rw [hData, im, dataEq]; rfl)
    refine ⟨?_, fun _ => eq.mpr safe⟩
    intro _ stale i hf
    rw [clearEq, hf] at notStale
    exact absurd ⟨Option.some_ne_none i, stale⟩ notStale
  | leaked i blockBits buf _ hf notStale im =>
    rw [clearEq] at hf
    have eq : h.NoDangling ↔ (taken (withChild fs.image child type bits)
      (fs.sb.dataBlockStart + i) blockBits buf).NoDangling :=
      noDangling_congr hUsed (by rw [hInode, im, taken, inoEq, taken])
        (by rw [hData, im, taken, dataEq, sbEq, taken]; rfl)
    exact ⟨fun _ stale => absurd stale notStale,
      fun _ => eq.mpr (noDangling_taken safe (unreferenced hf))⟩
  | stored _ _ succeeded => exact absurd succeeded failed
  | zeroed i blockBits _ hf notStale im =>
    rw [clearEq] at hf
    have eq : h.NoDangling ↔ (grown (withChild fs.image child type bits) dir
      (fs.sb.dataBlockStart + i) blockBits zeroBlock).NoDangling :=
      noDangling_congr hUsed (by rw [hInode, im, grown, inoEq, sbEq, grown])
        (by rw [hData, im, grown, dataEq, sbEq, grown]; rfl)
    refine ⟨fun _ stale => absurd stale notStale, fun _ => eq.mpr ?_⟩
    apply (noDangling_grow (unreferenced hf) baseUse baseDir).mpr
    refine ⟨safe, ?_⟩
    intro s _ live
    rw [isEntry_zeroBlock] at live
    exact Bool.noConfusion live
  | stale i blockBits _ hf stale im =>
    rw [clearEq] at hf
    have eq : h.NoDangling ↔ (grown (withChild fs.image child type bits) dir
      (fs.sb.dataBlockStart + i) blockBits
      (fs.image.data (fs.sb.dataBlockStart + i))).NoDangling :=
      noDangling_congr hUsed (by rw [hInode, im, grown, inoEq, sbEq, grown])
        (by rw [hData, im, grown, dataEq, sbEq, grown]; rfl)
    rw [eq, grown, noDangling_grow (unreferenced hf) baseUse baseDir]
    constructor
    · rintro ⟨-, stored⟩ _ index' found' slot slotLt live
      rw [hf] at found'
      cases found'
      rcases only _ (stored slot slotLt live) with isChild | used
      · right
        refine ⟨isChild, (child_iff (by simp [hf]) stale).mp ?_⟩
        rw [← isChild]
        exact stored slot slotLt live
      · exact .inl used
    intro blockSafe
    refine ⟨safe, ?_⟩
    intro slot slotLt live
    rcases blockSafe stale i hf slot slotLt live with used | ⟨isChild, isKept⟩
    · exact keeps _ used
    show bits _ = true
    rw [isChild]
    exact (child_iff (by simp [hf]) stale).mpr isKept

structure AtInode (fs made : Hnxfs) (dir child : Nat) : Prop where
  wellFormed : fs.WellFormed
  inUse : fs.image.InUse dir
  two_le : 2 ≤ child
  child_lt : child < fs.sb.inodeCount
  clear : fs.image.inodeUsed child = false
  same : (fs.markInode child).SameDisk made

namespace AtInode

variable {made : Hnxfs} {type : VnodeType} {outp : Bool} (hr : AtInode fs made dir child)
include hr

lemma noDangling : fs.image.NoDangling := fun d c s n e => (hr.wellFormed.entry_used d c s n e).2.2

lemma sb : made.sb = fs.sb := hr.same.sb

lemma layout : made.sb.Layout := by
  rw [hr.sb]
  exact hr.wellFormed.layout

lemma lt : child < made.sb.inodeCount := by
  rw [hr.sb]
  exact hr.child_lt

lemma child_ne : child ≠ 0 := by
  have := hr.two_le
  omega

lemma image : made.image = { fs.image with inodeUsed := update fs.image.inodeUsed child true } :=
  hr.same.image.trans (image_markInode hr.wellFormed.layout hr.child_lt)

lemma unmark : update (update fs.image.inodeUsed child true) child false = fs.image.inodeUsed := by
  rw [update_idem, ← hr.clear, update_eq_self]

lemma apart : dir ≠ child := by
  intro eq
  have clear := hr.clear
  rw [← eq, hr.inUse.2] at clear
  exact Bool.noConfusion clear

lemma noDangling_iff_of_unwritten {w : Hnxfs} (sameW : made.SameDisk w) :
    (hnxfsFreeInode child w).2.image.NoDangling ↔
      (w.fails = true ∨ w.spend.fails = true → fs.StaleInodeSafe child) := by
  have wLayout : w.sb.Layout := by
    rw [sameW.sb]
    exact hr.layout
  rcases freeInode_image wLayout hr.two_le with ⟨kept, image⟩ | ⟨freed, image⟩
  · rw [image, sameW.image, hr.image]
    constructor
    · intro safe _ b slot n e
      exact safe child b slot n e
    intro staleSafe d c s n e
    by_cases isChild : d = child
    · subst isChild
      exact staleSafe kept c s n e
    obtain ⟨⟨onePos, used⟩, hd, cLt, sLt, live, cEq⟩ := e
    simp only [update_of_ne isChild] at used
    have old := hr.noDangling d c s n ⟨⟨onePos, used⟩, hd, cLt, sLt, live, cEq⟩
    by_cases named : n = child
    · rw [named]
      exact update_self _ _ _
    simp only [update_of_ne named]
    exact old
  have restored : (hnxfsFreeInode child w).2.image = fs.image := by
    rw [image, sameW.image, hr.image]
    simp [hr.unmark]
  rw [restored]
  exact ⟨fun _ kept => absurd kept freed, fun _ => hr.noDangling⟩

lemma noDangling_iff_of_written : let w := made.spend.spend.setInode child (newInode type)
    let added := hnxfsDirAdd dir name child w
    (if added.1 ≠ 0 then (hnxfsFreeInode child added.2).2
      else if outp then (hnxfsGetVnode child added.2).2 else added.2).image.NoDangling ↔
      ((upToGrowth dir w).1 = true → (upToGrowth dir w).2.StaleGrowth → fs.StaleBlockSafe child
          ((upToGrowth dir w).2.failsAt 6 = true ∨ (upToGrowth dir w).2.failsAt 7 = true)) := by
  have layout := hr.wellFormed.layout
  have wf := hr.wellFormed
  have inUse := hr.inUse
  have childLt := hr.child_lt
  have clear := hr.clear
  have apart := hr.apart
  have twoLe := hr.two_le
  have unmark := hr.unmark
  set bits := update fs.image.inodeUsed child true with bitsDef
  have spent : made.spend.spend.image = made.image := (sameDisk_spend.trans sameDisk_spend).image
  have wImage : (made.spend.spend.setInode child (newInode type)).image =
    withChild fs.image child type bits := by
    rw [@image_setInode made.spend.spend child _ hr.layout hr.lt (newInode_fits type),
      spent, hr.image, withChild]
  set w := made.spend.spend.setInode child (newInode type)
  have wSb : w.sb = fs.sb := hr.sb
  have dirLt : dir < w.sb.inodeCount := by
    rw [wSb]
    exact lt_of_inUse inUse
  have inoEq : w.image.inode dir = fs.image.inode dir := by
    rw [wImage, withChild]
    exact update_of_ne apart _ _
  have wBlocks : w.image.IsDir dir → w.DirBlocks (w.image.inode dir) := by
    rw [Image.IsDir, DirBlocks, inoEq, wSb]
    exact wf.dirBlocks inUse
  have onlySet : ∀ num, bits num = true → num = child ∨ fs.image.inodeUsed num = true := by
    intro num set
    by_cases eq : num = child
    · exact .inl eq
    rw [bitsDef, update_of_ne eq] at set
    exact .inr set
  have keepsSet : ∀ num, fs.image.inodeUsed num = true → bits num = true := by
    intro num used
    by_cases eq : num = child
    · rw [eq]
      exact update_self _ _ _
    rw [bitsDef, update_of_ne eq]
    exact used
  have safeSet : (withChild fs.image child type bits).NoDangling :=
    withChild_noDangling wf onlySet keepsSet
  have safeClear : (withChild fs.image child type fs.image.inodeUsed).NoDangling :=
    withChild_noDangling wf (fun _ => .inr) fun _ => id
  have childLt64 : child < 256 ^ 8 := by
    have := layout.inodeCount_le
    omega
  have childSet : bits child = true := update_self _ _ _
  have blocksEq : w.blocks fs.sb.dataBitmapBlock = fs.blocks fs.sb.dataBitmapBlock := by
    have tbl := layout.table_ne_dataBitmap (layout.inTable childLt)
    show update made.blocks (made.sb.inodeTableBlock + child / 32) _ fs.sb.dataBitmapBlock = _
    rw [hr.sb, update_of_ne tbl.symm, hr.same.blocks]
    exact update_of_ne layout.bitmaps_ne.symm _ _
  have clearEq : w.firstClear = fs.firstClear := by rw [firstClear, firstClear, wSb, blocksEq]
  have vnodeImage : ∀ added : Hnxfs,
    (if outp = true then (hnxfsGetVnode child added).2 else added).image = added.image := by
    intro added
    split
    · exact (sameDisk_getVnode child added).image
    · rfl
  rcases @dirAdd_any w child dir name hr.layout (ne_zero_of_inUse inUse) dirLt wBlocks with
    ⟨noGrowth, ⟨failed, sameAdded⟩ | ⟨added, blk, slot, image⟩⟩ |
    ⟨growth, hd, sameScan, out⟩
  · simp only [noGrowth, Bool.false_eq_true, false_implies, iff_true, if_pos failed]
    have addedLayout : (hnxfsDirAdd dir name child w).2.sb.Layout := by
      rw [sameAdded.sb]
      exact hr.layout
    rcases freeInode_image addedLayout twoLe with ⟨-, image⟩ | ⟨-, image⟩
    · rw [image, sameAdded.image, wImage]
      exact safeSet
    rw [image, sameAdded.image, wImage]
    simp only [withChild, unmark]
    exact safeClear
  · simp only [noGrowth, Bool.false_eq_true, false_implies, iff_true, added, ne_eq, not_true,
      if_false]
    rw [vnodeImage, image, wImage]
    exact noDangling_putDirent safeSet childSet childLt64
  set u := (upToGrowth dir w).2
  have uClear : u.firstClear = fs.firstClear := by
    rw [← clearEq, firstClear, firstClear, sameScan.sb, sameScan.blocks]
  have uImage : u.image = withChild fs.image child type bits := sameScan.image.trans wImage
  have uSb : u.sb = fs.sb := sameScan.sb.trans wSb
  have fsDir : fs.image.IsDir dir := by
    rw [Image.IsDir, ← inoEq]
    exact hd
  simp only [growth, true_implies]
  by_cases added : (hnxfsDirAdd dir name child w).1 = 0
  · simp only [added, ne_eq, not_true, if_false]
    rw [vnodeImage]
    cases out with
    | unchanged failed => exact absurd added failed
    | leaked _ _ _ failed => exact absurd added failed
    | zeroed _ _ failed => exact absurd added failed
    | stale _ _ failed => exact absurd added failed
    | stored _ _ _ hf notStale image =>
      rw [uClear] at hf
      obtain ⟨idxLt, clear⟩ := firstClear_some hf
      refine ⟨fun _ stale => absurd stale notStale, fun _ => ?_⟩
      rw [image, uImage, uSb, grown]
      apply (noDangling_grow (withChild_unreferenced wf onlySet idxLt clear)
        ⟨inUse.1, keepsSet dir inUse.2⟩ ?_).mpr
      · refine ⟨safeSet, ?_⟩
        intro s sLt live
        by_cases zero : s = 0
        · rw [zero, direntInode_putDirent childLt64]
          exact childSet
        have agree : ∀ k < 128, putDirent zeroBlock 0 child name (s * 128 + k) =
          zeroBlock (s * 128 + k) := fun k kLt => putDirent_outside zero kLt
        rw [Image.isEntry_congr agree, isEntry_zeroBlock] at live
        exact Bool.noConfusion live
      rw [Image.IsDir, withChild]
      simp only [update_of_ne apart]
      exact fsDir
  simp only [ne_eq, added, not_false_iff, if_true]
  have addedSb : (hnxfsDirAdd dir name child w).2.sb.Layout := by
    have keepsSb : (hnxfsDirAdd dir name child w).2.sb = w.sb :=
      keeps_dirAdd sameSb_readBlock sameSb_writeBlock dir name child w
    rw [keepsSb]
    exact hr.layout
  have keptIff : fs.firstClear ≠ none → u.StaleGrowth →
    ((hnxfsDirAdd dir name child w).2.fails = true ∨
      (hnxfsDirAdd dir name child w).2.spend.fails = true ↔
      u.failsAt 6 = true ∨ u.failsAt 7 = true) := by
    intro exists_clear stale
    rw [fails_eq, fails_eq, failsAt_spend]
    cases out with
    | unchanged _ notStale =>
      rw [uClear] at notStale
      exact absurd ⟨exists_clear, stale⟩ notStale
    | leaked _ _ _ _ _ notStale => exact absurd stale notStale
    | stored _ _ _ _ notStale => exact absurd stale notStale
    | zeroed _ _ _ _ notStale => exact absurd stale notStale
    | stale _ _ _ _ _ _ fst snd => rw [fst, snd]
  have uInode : ∀ bits', u.image.inode = (withChild fs.image child type bits').inode := by
    intro bits'
    rw [uImage, withChild, withChild]
  have uData : u.image.data = fs.image.data := by rw [uImage, withChild]
  have addedUsed : (hnxfsDirAdd dir name child w).2.image.inodeUsed = bits := by
    cases out with
    | unchanged _ _ image => rw [image, uImage, withChild]
    | leaked _ _ _ _ _ _ image => rw [image, uImage, taken, withChild]
    | stored _ _ _ _ _ image => rw [image, uImage, grown, withChild]
    | zeroed _ _ _ _ _ image => rw [image, uImage, grown, withChild]
    | stale _ _ _ _ _ image => rw [image, uImage, grown, withChild]
  rcases freeInode_image addedSb twoLe with ⟨kept, image⟩ | ⟨freed, image⟩
  · have child_iff : fs.firstClear ≠ none → u.StaleGrowth →
      (bits child = true ↔ u.failsAt 6 = true ∨ u.failsAt 7 = true) :=
      fun exists_clear stale => iff_of_true childSet ((keptIff exists_clear stale).mp kept)
    exact noDangling_of_growth wf onlySet keepsSet child_iff inUse apart fsDir uClear
      added out uSb uData (uInode bits) (by rw [image, addedUsed]) (by rw [image])
      (by rw [image])
  have child_iff : fs.firstClear ≠ none → u.StaleGrowth →
    (fs.image.inodeUsed child = true ↔ u.failsAt 6 = true ∨ u.failsAt 7 = true) := by
    intro exists_clear stale
    apply iff_of_false
    · rw [clear]
      exact Bool.false_ne_true
    intro fails
    exact freed ((keptIff exists_clear stale).mpr fails)
  exact noDangling_of_growth wf (fun _ => .inr) (fun _ => id) child_iff inUse
    apart fsDir uClear added out uSb uData (uInode fs.image.inodeUsed)
    (by rw [image, addedUsed]; exact unmark) (by rw [image]) (by rw [image])

end AtInode

lemma vCreate_noDangling_iff {outp : Bool} (wf : fs.WellFormed) (hu : fs.image.InUse dir) :
    (vCreate dir name type outp fs).2.image.NoDangling ↔ fs.CreateSafe dir name type := by
  rw [vCreate_eq_inode]
  rcases @upToInode_any fs dir name with ⟨none, eq⟩ |
    ⟨child, some, twoLe, childLt, hc, eq⟩
  · simp only [CreateSafe, none, reduceCtorEq, false_implies, implies_true, iff_true]
    rw [eq.image]
    intro d c s n e
    exact (wf.entry_used d c s n e).2.2
  have hr : AtInode fs (upToInode dir name fs).2 dir child := ⟨wf, hu, twoLe, childLt, hc, eq⟩
  simp only [CreateSafe, some, Option.some.injEq, forall_eq']
  set made := (upToInode dir name fs).2
  by_cases failing : made.fails = true ∨ made.spend.fails = true
  · obtain ⟨w, run, sameW⟩ : ∃ w, hnxfsWriteInode child (newInode type) made = (-sysEio, w) ∧
        made.SameDisk w := by
      rw [writeInode_apply hr.child_ne hr.lt]
      rcases failing with fst | snd
      · rw [if_pos fst]
        exact ⟨_, rfl, sameDisk_spend⟩
      split
      · exact ⟨_, rfl, sameDisk_spend⟩
      · exact ⟨_, rfl, sameDisk_spend.trans sameDisk_spend⟩
    have eio : (-sysEio : Int) ≠ 0 := by decide
    simp only [run, if_pos eio, failing, not_true, true_implies, false_implies, and_true]
    exact hr.noDangling_iff_of_unwritten sameW
  have fst : made.fails = false := by simpa using fun h => failing (.inl h)
  have snd : made.spend.fails = false := by simpa using fun h => failing (.inr h)
  have run : hnxfsWriteInode child (newInode type) made =
    (0, made.spend.spend.setInode child (newInode type)) := by
    rw [writeInode_apply hr.child_ne hr.lt, fst, snd]
    rfl
  simp only [run, failing, ne_eq, not_true, if_false, false_implies, not_false_iff,
    true_implies, true_and]
  exact hr.noDangling_iff_of_written

inductive MetadataCall where
  | create (dir : Nat) (name : FileName) (type : VnodeType) (outp : Bool)
  | unlink (dir : Nat) (name : FileName)

/-- Calls in directories in use; `.` and `..` are not unlinked. -/
def MetadataCall.Valid (fs : Hnxfs) : MetadataCall → Prop
  | .create dir _ _ _ => fs.image.InUse dir
  | .unlink dir name => fs.image.InUse dir ∧ (0 : UInt8) ∉ name ∧ ¬ name.Dots

def afterMetadata (fs : Hnxfs) : MetadataCall → Hnxfs
  | .create dir name type outp => (vCreate dir name type outp fs).2
  | .unlink dir name => (vUnlink dir name fs).2

def MetadataSafe (fs : Hnxfs) : MetadataCall → Prop
  | .create dir name type _ => fs.CreateSafe dir name type
  | .unlink dir name => fs.UnlinkSafe dir name

/-- No dangling entry, exactly if the pattern of failures is none of those that leave one. -/
theorem metadata_noDangling_iff {call : MetadataCall} (wf : fs.WellFormed) (valid : call.Valid fs) :
    (fs.afterMetadata call).image.NoDangling ↔ fs.MetadataSafe call := by
  cases call with
  | create => exact vCreate_noDangling_iff wf valid
  | unlink => exact vUnlink_noDangling_iff wf valid.1 valid.2.1 valid.2.2

def failingFile : Hnxfs := { oneFile with faults := List.replicate 8 false ++ [true] }

lemma failingFile_wellFormed : failingFile.WellFormed := oneFile_sound.wellFormed

theorem failingFile_noDangling_iff :
    (failingFile.afterMetadata (.create 1 [98] .file false)).image.NoDangling ↔
      failingFile.MetadataSafe (.create 1 [98] .file false) :=
  metadata_noDangling_iff failingFile_wellFormed ⟨le_rfl, by decide +kernel⟩

/-- The inode is released, and then the directory cannot be read. -/
theorem failingFile_dangles :
    failingFile.WellFormed ∧ (failingFile.afterMetadata (.unlink 1 [97])).image.Entry 1 0 0 2 ∧
      (failingFile.afterMetadata (.unlink 1 [97])).image.inodeUsed 2 = false ∧
      ¬ (failingFile.afterMetadata (.unlink 1 [97])).image.NoDangling := by
  have e : (failingFile.afterMetadata (.unlink 1 [97])).image.Entry 1 0 0 2 := by
    refine ⟨⟨le_rfl, ?_⟩, ?_, ?_, by decide, ?_, ?_⟩
    · decide +kernel
    · exact of_decide_eq_true (by decide +kernel)
    · decide +kernel
    · decide +kernel
    · decide +kernel
  have hc : (failingFile.afterMetadata (.unlink 1 [97])).image.inodeUsed 2 = false := by
    decide +kernel
  refine ⟨failingFile_wellFormed, e, hc, ?_⟩
  intro safe
  rw [safe 1 0 0 2 e] at hc
  exact Bool.noConfusion hc

end Hnxfs

end HnxKernel
