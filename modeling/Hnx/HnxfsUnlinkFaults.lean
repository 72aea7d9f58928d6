import Hnx.HnxfsFaults

/-!
# `v_unlink` on a device with failing transfers

`v_unlink` releases the inode before it clears the entry.
-/

namespace HnxKernel

open Function
open HnxfsM Bitmap

def Image.NoDangling (g : Image) : Prop :=
  ∀ dir b slot child, g.Entry dir b slot child → g.inodeUsed child = true

namespace Hnxfs

variable {fs post : Hnxfs} {num i blk child dir : Nat} {inode : Inode} {name : FileName}
  {b slot : Nat}

def upToRelease (dir : Nat) (name : FileName) : HnxfsM (Option Nat) := do
  let child ← hnxfsDirLookup dir name
  if child = 0 then
    return none
  else
    match ← hnxfsReadInode child with
    | none => return none
    | some inode =>
      let removable ← (if inode.type = hnxfsTypeDir then hnxfsDirEmpty child else pure true)
      if !removable then
        return none
      else
        hnxfsFileTruncate child
        return some child

lemma vUnlink_eq_release (dir : Nat) (name : FileName) (fs : Hnxfs) : (vUnlink dir name fs).2 =
    match (upToRelease dir name fs).1 with
    | none => (upToRelease dir name fs).2
    | some child =>
      (hnxfsDirRemove dir name (hnxfsFreeInode child (upToRelease dir name fs).2).2).2 := by
  simp only [vUnlink, upToRelease, bind_apply]
  by_cases ha : (hnxfsDirLookup dir name fs).1 = 0
  · simp [if_pos ha, pure_apply]
  simp only [if_neg ha, bind_apply]
  cases (hnxfsReadInode (hnxfsDirLookup dir name fs).1 (hnxfsDirLookup dir name fs).2).1 with
  | none => simp [pure_apply]
  | some inode =>
    simp only [bind_apply]
    generalize (if inode.type = hnxfsTypeDir then hnxfsDirEmpty (hnxfsDirLookup dir name fs).1
      else pure true : HnxfsM Bool) = scan
    cases (scan (hnxfsReadInode (hnxfsDirLookup dir name fs).1
        (hnxfsDirLookup dir name fs).2).2).1 with
    | true => simp [bind_apply, pure_apply]
    | false => simp [pure_apply]

/-- Either nothing was written, or the contents of the file were released last. -/
lemma upToRelease_cases (dir : Nat) (name : FileName) (fs : Hnxfs) :
    ((upToRelease dir name fs).1 = none ∧ fs.SameDisk (upToRelease dir name fs).2) ∨
      ∃ pre, fs.SameDisk pre ∧ (hnxfsDirLookup dir name fs).1 ≠ 0 ∧
        upToRelease dir name fs = (some (hnxfsDirLookup dir name fs).1,
          (hnxfsFileTruncate (hnxfsDirLookup dir name fs).1 pre).2) := by
  have lookup := keeps_dirLookup sameDisk_readBlock dir name fs
  simp only [upToRelease, bind_apply]
  by_cases ha : (hnxfsDirLookup dir name fs).1 = 0
  · simp only [if_pos ha, pure_apply]
    exact .inl ⟨trivial, lookup⟩
  simp only [if_neg ha, bind_apply]
  set child := (hnxfsDirLookup dir name fs).1
  set found := (hnxfsDirLookup dir name fs).2
  have read := keeps_readInode sameDisk_readBlock child found
  cases (hnxfsReadInode child found).1 with
  | none => exact .inl ⟨rfl, lookup.trans read⟩
  | some inode =>
    simp only [bind_apply]
    have keepsScan : Keeps SameDisk (if inode.type = hnxfsTypeDir then hnxfsDirEmpty child
      else pure true : HnxfsM Bool) :=
      Keeps.ite (keeps_dirEmpty sameDisk_readBlock child) (Keeps.pure true)
    revert keepsScan
    generalize (if inode.type = hnxfsTypeDir then hnxfsDirEmpty child
      else pure true : HnxfsM Bool) = scan
    intro keepsScan
    have pre := (lookup.trans read).trans (keepsScan (hnxfsReadInode child found).2)
    cases (scan (hnxfsReadInode child found).2).1 with
    | false => exact .inl ⟨rfl, pre⟩
    | true => exact .inr ⟨_, pre, ha, rfl⟩

lemma upToRelease_none (none : (upToRelease dir name fs).1 = none) :
    fs.SameDisk (upToRelease dir name fs).2 := by
  rcases upToRelease_cases dir name fs with ⟨-, eq⟩ | ⟨_, -, -, run⟩
  · exact eq
  · simp [run] at none

lemma firstRead_congr {wanted other : Nat → Option Nat} {positions : List Nat}
    (ha : ∀ b ∈ positions, wanted b = other b) (faults : List Bool) :
    firstRead wanted faults positions = firstRead other faults positions := by
  induction positions generalizing faults with
  | nil => rfl
  | cons b r ih =>
    have tailAgree := ih fun c mem => ha c (List.mem_cons_of_mem b mem)
    rw [firstRead, firstRead, ha b List.mem_cons_self, tailAgree]

lemma slotOf_image {wanted : DiskBlock → Nat → Bool} (bs : fs.DirBlocks inode)
    (mem : b ∈ inode.dirBlocks) :
    slotOf fs.blocks wanted inode b = slotOf fs.image.data wanted inode b := by
  rw [slotOf, slotOf, image_data (bs b mem)]

variable {g : Image} {d c s : Nat}

lemma entry_of_scan (hu : g.InUse dir) (hd : g.IsDir dir)
    (ne0 : (0 : UInt8) ∉ name) (notDots : ¬ name.Dots) {faults : List Bool}
    (hf : (firstRead (slotOf g.data (isNamed name) (g.inode dir)) faults
      (g.inode dir).dirBlocks).1 = some (b, slot)) :
    b ∈ (g.inode dir).dirBlocks ∧
      g.Entry dir b slot (direntInode (g.data ((g.inode dir).direct b)) slot) := by
  obtain ⟨mem, hit⟩ := firstRead_some hf
  have bLt : b < min (g.inode dir).blocks 12 := List.mem_range.mp mem
  have slotLt := List.mem_range.mp (List.mem_of_find?_eq_some hit)
  have named := List.find?_some hit
  rw [isNamed, Bool.and_eq_true, decide_eq_true_eq, nameEq_iff ne0] at named
  refine ⟨mem, hu, hd, by omega, slotLt, ?_, rfl⟩
  rw [Image.isEntry_iff, named.2, FileName.dots_take (by norm_num)]
  exact ⟨named.1, notDots⟩

lemma readDirectory_apply (fs : Hnxfs) (dir : Nat) (pos : dir ≠ 0)
    (dirLt : dir < fs.sb.inodeCount) : readDirectory dir fs =
      (if fs.fails = false ∧ fs.image.IsDir dir then some (fs.image.inode dir) else none,
        fs.spend) := by
  simp only [readDirectory, bind_apply, readInode_apply pos dirLt]
  cases fs.fails with
  | true => rfl
  | false =>
    simp only [Bool.false_eq_true, if_false, pure_apply, true_and]
    rfl

section
variable (wf : fs.WellFormed) (hu : fs.image.InUse dir) (ne0 : (0 : UInt8) ∉ name)
  (notDots : ¬ name.Dots)
include wf hu ne0 notDots

lemma exists_entry_of_dirLookup (pres : (hnxfsDirLookup dir name fs).1 ≠ 0) :
    ∃ b slot, fs.image.Entry dir b slot (hnxfsDirLookup dir name fs).1 := by
  have run := readDirectory_apply fs dir (ne_zero_of_inUse hu) (lt_of_inUse hu)
  simp only [hnxfsDirLookup, bind_apply, run] at pres ⊢
  by_cases readable : fs.fails = false ∧ fs.image.IsDir dir
  · have blocks := wf.dirBlocks hu readable.2
    have ha : ∀ b ∈ (fs.image.inode dir).dirBlocks,
      slotOf fs.spend.blocks (isNamed name) (fs.image.inode dir) b =
        slotOf fs.image.data (isNamed name) (fs.image.inode dir) b :=
      fun b mem => slotOf_image blocks mem
    simp only [if_pos readable, bind_apply, findSlot_apply, firstRead_congr ha] at pres ⊢
    cases hf : (firstRead (slotOf fs.image.data (isNamed name) (fs.image.inode dir))
        fs.spend.faults (fs.image.inode dir).dirBlocks).1 with
    | none => simp only [hf, Option.map_none, pure_apply, ne_eq, not_true] at pres
    | some hp =>
      obtain ⟨b, slot⟩ := hp
      obtain ⟨mem, e⟩ := entry_of_scan hu readable.2 ne0 notDots hf
      simp only [Option.map_some, pure_apply]
      refine ⟨b, slot, ?_⟩
      rw [image_data (blocks b mem)] at e
      exact e
  · simp only [if_neg readable, pure_apply, ne_eq, not_true] at pres

lemma upToRelease_some (hr : (upToRelease dir name fs).1 = some child) :
    (∃ b slot, fs.image.Entry dir b slot child) ∧
      Emptying child fs (upToRelease dir name fs).2 := by
  rcases upToRelease_cases dir name fs with ⟨none, -⟩ | ⟨before, pre, hf, run⟩
  · simp [hr] at none
  rw [run, Option.some.injEq] at hr
  rw [run]
  have named := exists_entry_of_dirLookup wf hu ne0 notDots hf
  rw [hr] at named ⊢
  refine ⟨named, ?_⟩
  obtain ⟨b, slot, e⟩ := named
  have used := (wf.entry_used _ _ _ _ e).2
  refine trans_of (Emptying child) pre.emptying
    (emptying_fileTruncate (ne_zero_of_inUse used) ?_)
  rw [pre.sb]
  exact lt_of_inUse used

end

lemma freeInode_apply (twoLe : 2 ≤ num) (fs : Hnxfs) : (hnxfsFreeInode num fs).2 =
    if fs.fails then fs.spend
    else if fs.spend.fails then fs.spend.spend
    else fs.spend.spend.unmarkInode num := by
  have run := bitmapFree_apply fs.sb.inodeBitmapBlock num fs
  show ((if num ≥ 2 then _ else _ : HnxfsM Unit) fs).2 = _
  rw [if_pos twoLe]
  exact run

/-- The place at which `hnxfs_dir_remove` stops, and the pattern left for its
write. -/
def removalScan (g : Image) (dir : Nat) (name : FileName) (faults : List Bool) :
    Option (Nat × Nat) × List Bool :=
  firstRead (slotOf g.data (isNamed name) (g.inode dir)) faults (g.inode dir).dirBlocks

lemma dirRemove_apply (fs : Hnxfs) (dir : Nat) (name : FileName) (pos : dir ≠ 0)
    (dirLt : dir < fs.sb.inodeCount)
    (bs : fs.image.IsDir dir → fs.DirBlocks (fs.image.inode dir)) :
    ((∀ b slot, ¬ (fs.fails = false ∧ fs.image.IsDir dir ∧
        (removalScan fs.image dir name fs.spend.faults).1 = some (b, slot) ∧
        (removalScan fs.image dir name fs.spend.faults).2.headD false = false)) ∧
      fs.SameDisk (hnxfsDirRemove dir name fs).2) ∨
    ∃ b slot, fs.fails = false ∧ fs.image.IsDir dir ∧
      (removalScan fs.image dir name fs.spend.faults).1 = some (b, slot) ∧
      (removalScan fs.image dir name fs.spend.faults).2.headD false = false ∧
      (fs.putBlock ((fs.image.inode dir).direct b)
        (clearDirent (fs.blocks ((fs.image.inode dir).direct b)) slot)).SameDisk
          (hnxfsDirRemove dir name fs).2 := by
  have run := readDirectory_apply fs dir pos dirLt
  simp only [hnxfsDirRemove, bind_apply, run]
  by_cases readable : fs.fails = false ∧ fs.image.IsDir dir
  · have ha : ∀ b ∈ (fs.image.inode dir).dirBlocks,
      slotOf fs.spend.blocks (isNamed name) (fs.image.inode dir) b =
        slotOf fs.image.data (isNamed name) (fs.image.inode dir) b :=
      fun b mem => slotOf_image (bs readable.2) mem
    simp only [if_pos readable, bind_apply, findSlot_apply, firstRead_congr ha]
    rw [← removalScan]
    cases hf : (removalScan fs.image dir name fs.spend.faults).1 with
    | none =>
      left
      simp only [Option.map_none, pure_apply]
      exact ⟨by simp, ⟨rfl, rfl⟩⟩
    | some hp =>
      obtain ⟨b, slot⟩ := hp
      simp only [Option.map_some, bind_apply, writeBlock_apply]
      set scanned : Hnxfs :=
        { fs.spend with faults := (removalScan fs.image dir name fs.spend.faults).2 }
      cases failed : (removalScan fs.image dir name fs.spend.faults).2.headD false with
      | true =>
        left
        have fails : scanned.fails = true := failed
        simp only [fails, if_true, pure_apply]
        exact ⟨by simp, ⟨rfl, rfl⟩⟩
      | false =>
        right
        have fails : scanned.fails = false := failed
        refine ⟨b, slot, readable.1, readable.2, rfl, rfl, ?_⟩
        simp only [fails, Bool.false_eq_true, if_false, pure_apply]
        exact ⟨rfl, rfl⟩
  left
  simp only [if_neg readable, pure_apply]
  refine ⟨?_, sameDisk_spend⟩
  rintro b slot ⟨noFailure, hd, -⟩
  exact readable ⟨noFailure, hd⟩

lemma entry_clear_iff : Image.Entry
    { g with data := update g.data blk (clearDirent (g.data blk) slot) } d c s child ↔
    g.Entry d c s child ∧ ¬ ((g.inode d).direct c = blk ∧ s = slot) := by
  have keeps (apart : ¬ ((g.inode d).direct c = blk ∧ s = slot)) (k : Nat) (kLt : k < 128) :
    update g.data blk (clearDirent (g.data blk) slot) ((g.inode d).direct c) (s * 128 + k) =
      g.data ((g.inode d).direct c) (s * 128 + k) := by
    by_cases block : (g.inode d).direct c = blk
    · rw [block, update_self]
      exact clearDirent_outside (fun eq => apart ⟨block, eq⟩) kLt
    · rw [update_of_ne block]
  constructor
  · intro e
    have apart : ¬ ((g.inode d).direct c = blk ∧ s = slot) := by
      rintro ⟨block, rfl⟩
      have live := e.entry
      simp only [block, update_self, Image.isEntry_iff, direntInode_clearDirent] at live
      exact live.1 rfl
    exact ⟨⟨e.inUse, e.isDir, e.b_lt, e.slot_lt,
      (Image.isEntry_congr (keeps apart)).symm.trans e.entry,
      (direntInode_congr (keeps apart)).symm.trans e.child⟩, apart⟩
  rintro ⟨e, apart⟩
  exact ⟨e.inUse, e.isDir, e.b_lt, e.slot_lt, (Image.isEntry_congr (keeps apart)).trans e.entry,
    (direntInode_congr (keeps apart)).trans e.child⟩

lemma entry_of_loses {h : Image} {n : Nat} (loses : Loses g h child)
    (e : h.Entry d c s n) : g.Entry d c s n := by
  have inoEq : h.inode d = g.inode d := by
    by_cases eq : d = child
    · subst eq
      rcases loses.self with kept | none
      · exact kept
      have cLt := e.b_lt
      omega
    · exact loses.others d eq
  obtain ⟨⟨onePos, used⟩, hd, cLt, sLt, live, cEq⟩ := e
  rw [Image.IsDir, inoEq] at hd
  rw [inoEq] at cLt
  rw [inoEq, loses.data] at live cEq
  rw [loses.inodeUsed] at used
  exact ⟨⟨onePos, used⟩, hd, cLt, sLt, live, cEq⟩

/-- At most the entry at which the scan stops is gone. -/
lemma dirRemove_entries (fs : Hnxfs) (dir : Nat) (name : FileName) (lay : fs.sb.Layout)
    (pos : dir ≠ 0) (dirLt : dir < fs.sb.inodeCount)
    (bs : fs.image.IsDir dir → fs.DirBlocks (fs.image.inode dir)) :
    (hnxfsDirRemove dir name fs).2.image.inodeUsed = fs.image.inodeUsed ∧
    ∀ d c s n, (hnxfsDirRemove dir name fs).2.image.Entry d c s n ↔
      fs.image.Entry d c s n ∧ ∀ b slot, fs.fails = false → fs.image.IsDir dir →
        (removalScan fs.image dir name fs.spend.faults).1 = some (b, slot) →
        (removalScan fs.image dir name fs.spend.faults).2.headD false = false →
        ¬ ((fs.image.inode d).direct c = (fs.image.inode dir).direct b ∧ s = slot) := by
  rcases dirRemove_apply fs dir name pos dirLt bs with ⟨idle, eq⟩ |
    ⟨b, slot, noFailure, hd, hf, hw, eq⟩
  · rw [eq.image]
    refine ⟨rfl, fun d c s n => ⟨fun e => ⟨e, ?_⟩, fun both => both.1⟩⟩
    intro b slot noFailure hd hf hw
    exact absurd ⟨noFailure, hd, hf, hw⟩ (idle b slot)
  have mem := (firstRead_some hf).1
  have inData := bs hd b mem
  have imageEq : (hnxfsDirRemove dir name fs).2.image = { fs.image with
      data := update fs.image.data ((fs.image.inode dir).direct b)
        (clearDirent (fs.image.data ((fs.image.inode dir).direct b)) slot) } := by
    rw [eq.image, image_putData lay inData, image_data inData]
  rw [imageEq]
  refine ⟨rfl, fun d c s n => ⟨?_, ?_⟩⟩
  · intro e
    obtain ⟨old, apart⟩ := entry_clear_iff.mp e
    refine ⟨old, ?_⟩
    intro b' slot' _ _ found' _
    rw [hf] at found'
    cases found'
    exact apart
  rintro ⟨old, apart⟩
  exact entry_clear_iff.mpr ⟨old, apart b slot noFailure hd hf hw⟩

/-- The inode is not released, or its entry is removed; or a directory was named by itself. -/
def UnlinkSafe (fs : Hnxfs) (dir : Nat) (name : FileName) : Prop :=
  ∀ child, (upToRelease dir name fs).1 = some child →
    let mid := (upToRelease dir name fs).2
    let scan := removalScan fs.image dir name mid.spend.spend.spend.faults
    mid.fails = true ∨ mid.spend.fails = true ∨ dir = child ∨
      mid.spend.spend.fails = false ∧ scan.2.headD false = false ∧
        ∃ b slot, scan.1 = some (b, slot) ∧
          direntInode (fs.image.data ((fs.image.inode dir).direct b)) slot = child

structure AtRelease (fs mid : Hnxfs) (dir b slot child : Nat) : Prop where
  wellFormed : fs.WellFormed
  entry : fs.image.Entry dir b slot child
  sb : mid.sb = fs.sb
  loses : Loses fs.image mid.image child

namespace AtRelease

variable {mid : Hnxfs} (hr : AtRelease fs mid dir b slot child)
include hr

lemma layout : mid.sb.Layout := by
  rw [hr.sb]
  exact hr.wellFormed.layout

lemma positive : dir ≠ 0 := ne_zero_of_inUse hr.entry.inUse

lemma dirLt : dir < mid.sb.inodeCount := by
  rw [hr.sb]
  exact lt_of_inUse hr.entry.inUse

lemma two_le : 2 ≤ child := (hr.wellFormed.entry_used dir b slot child hr.entry).1

lemma dirBlocks : mid.DirBlocks (mid.image.inode dir) := by
  have blocks := hr.wellFormed.dirBlocks hr.entry.inUse hr.entry.isDir
  rw [DirBlocks, hr.sb]
  by_cases eq : dir = child
  · subst eq
    rcases hr.loses.self with kept | none
    · rw [kept]
      exact blocks
    intro c mem
    rw [Inode.dirBlocks, none] at mem
    simp at mem
  rw [hr.loses.others dir eq]
  exact blocks

lemma used_of_entry {d c s n : Nat} (e : mid.image.Entry d c s n) :
    fs.image.Entry d c s n ∧ mid.image.inodeUsed n = true := by
  have old := entry_of_loses hr.loses e
  rw [hr.loses.inodeUsed]
  exact ⟨old, (hr.wellFormed.entry_used d c s n old).2.2⟩

lemma noDangling_of_kept {rel : Hnxfs} (name : FileName) (eq : mid.SameDisk rel) :
    (hnxfsDirRemove dir name rel).2.image.NoDangling := by
  have relLayout : rel.sb.Layout := by
    rw [eq.sb]
    exact hr.layout
  have relLt : dir < rel.sb.inodeCount := by
    rw [eq.sb]
    exact hr.dirLt
  have relBlocks : rel.DirBlocks (rel.image.inode dir) := by
    rw [DirBlocks, eq.sb, eq.image]
    exact hr.dirBlocks
  obtain ⟨usedEq, es⟩ :=
    dirRemove_entries rel dir name relLayout hr.positive relLt fun _ => relBlocks
  intro d c s n left
  have relEntry := ((es d c s n).mp left).1
  rw [eq.image] at relEntry
  rw [usedEq, eq.image]
  exact (hr.used_of_entry relEntry).2

lemma noDangling_iff_of_released (ne0 : (0 : UInt8) ∉ name) (notDots : ¬ name.Dots) :
    (hnxfsDirRemove dir name (mid.spend.spend.unmarkInode child)).2.image.NoDangling ↔ dir = child ∨
        mid.spend.spend.fails = false ∧
          (removalScan fs.image dir name mid.spend.spend.spend.faults).2.headD false = false ∧
          ∃ b slot, (removalScan fs.image dir name mid.spend.spend.spend.faults).1 = some (b,
            slot) ∧
            direntInode (fs.image.data ((fs.image.inode dir).direct b)) slot = child := by
  have entry := hr.entry
  set rel := mid.spend.spend.unmarkInode child with relDef
  have relImage : rel.image = { mid.image with
    inodeUsed := update mid.image.inodeUsed child false } :=
    image_unmarkInode hr.layout
  have relFails : rel.fails = mid.spend.spend.fails := rfl
  have relFaults : rel.spend.faults = mid.spend.spend.spend.faults := rfl
  obtain ⟨usedEq, es⟩ := dirRemove_entries rel dir name hr.layout
    hr.positive hr.dirLt (fun _ => by rw [relImage]; exact hr.dirBlocks)
  have scanEq : dir ≠ child → ∀ faults,
    removalScan rel.image dir name faults = removalScan fs.image dir name faults := by
    intro apart faults
    rw [relImage, removalScan, removalScan, hr.loses.data, hr.loses.others dir apart]
  have inoEq : dir ≠ child → rel.image.inode dir = fs.image.inode dir := by
    intro apart
    rw [relImage]
    exact hr.loses.others dir apart
  constructor
  · intro noDangling
    by_cases eq : dir = child
    · exact .inl eq
    right
    have cleared : (hnxfsDirRemove dir name rel).2.image.inodeUsed child = false := by
      rw [usedEq, relImage]
      exact update_self _ _ _
    have gone : ¬ (hnxfsDirRemove dir name rel).2.image.Entry dir b slot child := by
      intro kept
      rw [noDangling dir b slot child kept] at cleared
      exact Bool.noConfusion cleared
    have relEntry : rel.image.Entry dir b slot child := by
      obtain ⟨⟨onePos, used⟩, hd, bLt, slotLt, live, cEq⟩ := entry
      refine ⟨⟨onePos, ?_⟩, ?_, ?_, slotLt, ?_, ?_⟩
      · rw [relImage]
        simp only [update_of_ne eq]
        rw [hr.loses.inodeUsed]
        exact used
      · rw [Image.IsDir, inoEq eq]
        exact hd
      · rw [inoEq eq]
        exact bLt
      · rw [inoEq eq, relImage, hr.loses.data]
        exact live
      rw [inoEq eq, relImage, hr.loses.data]
      exact cEq
    rw [es] at gone
    push Not at gone
    obtain ⟨b', slot', noFailure, hd, hf, hw, blockEq, slotEq⟩ := gone relEntry
    rw [scanEq eq, relFaults] at hf hw
    rw [inoEq eq] at blockEq
    refine ⟨relFails ▸ noFailure, hw, b', slot', hf, ?_⟩
    rw [← blockEq, ← slotEq]
    exact entry.child
  intro safe d c s n old
  obtain ⟨relEntry, apart⟩ := (es d c s n).mp old
  have dUsed := relEntry.inUse.2
  rw [relImage] at dUsed
  have dNe : d ≠ child := by
    intro eq
    rw [eq] at dUsed
    simp only [update_self, Bool.false_eq_true] at dUsed
  simp only [update_of_ne dNe] at dUsed
  have midEntry : mid.image.Entry d c s n := by
    obtain ⟨⟨onePos, -⟩, hd, cLt, sLt, live, cEq⟩ := relEntry
    rw [relImage] at hd cLt live cEq
    exact ⟨⟨onePos, dUsed⟩, hd, cLt, sLt, live, cEq⟩
  obtain ⟨oldEntry, nUsed⟩ := hr.used_of_entry midEntry
  have nNe : n ≠ child := by
    intro eq
    rw [eq] at oldEntry
    obtain ⟨rfl, rfl, rfl⟩ := hr.wellFormed.entry_unique oldEntry entry
    rcases safe with self | ⟨noFailure, hw, b', slot', hf, named⟩
    · exact dNe self
    have hit := (entry_of_scan entry.inUse entry.isDir ne0 notDots hf).2
    rw [named] at hit
    obtain ⟨-, rfl, rfl⟩ := hr.wellFormed.entry_unique hit entry
    rw [← scanEq dNe, ← relFaults] at hf hw
    refine apart _ _ noFailure ?_ hf hw ⟨rfl, rfl⟩
    rw [Image.IsDir, inoEq dNe]
    exact entry.isDir
  rw [usedEq, relImage]
  simp only [update_of_ne nNe]
  exact nUsed

end AtRelease

lemma vUnlink_noDangling_iff (wf : fs.WellFormed) (hu : fs.image.InUse dir)
    (ne0 : (0 : UInt8) ∉ name) (notDots : ¬ name.Dots) :
    (vUnlink dir name fs).2.image.NoDangling ↔ fs.UnlinkSafe dir name := by
  rw [vUnlink_eq_release]
  cases hr : (upToRelease dir name fs).1 with
  | none =>
    simp only [UnlinkSafe, hr, reduceCtorEq, false_implies, implies_true, iff_true]
    rw [(upToRelease_none hr).image]
    intro d c s n e
    exact (wf.entry_used d c s n e).2.2
  | some child =>
    obtain ⟨⟨b, slot, e⟩, sbEq, loses⟩ := upToRelease_some wf hu ne0 notDots hr
    have release : AtRelease fs (upToRelease dir name fs).2 dir b slot child :=
      ⟨wf, e, sbEq, loses wf.layout⟩
    simp only [UnlinkSafe, hr, Option.some.injEq, forall_eq']
    set mid := (upToRelease dir name fs).2
    rw [freeInode_apply release.two_le]
    cases fst : mid.fails with
    | true =>
      simp only [if_true, true_or, iff_true]
      exact release.noDangling_of_kept name sameDisk_spend
    | false =>
      cases snd : mid.spend.fails with
      | true =>
        simp only [Bool.false_eq_true, if_false, if_true, true_or, or_true, iff_true]
        exact release.noDangling_of_kept name (sameDisk_spend.trans sameDisk_spend)
      | false =>
        simp only [Bool.false_eq_true, if_false, false_or]
        exact release.noDangling_iff_of_released ne0 notDots

end Hnxfs

end HnxKernel
