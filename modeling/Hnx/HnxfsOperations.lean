import Hnx.HnxfsOwnership

/-!
# Directory operations on a well-formed volume

`v_create` and `v_unlink` link and unlink one entry together with its inode.
-/

namespace HnxKernel

open Function List Bool Image Image
open HnxfsM

namespace Image

def place (g : Image) (dir : Nat) (name : FileName) : Option (Nat × Nat × DiskBlock) :=
  if g.IsDir dir then
    Hnxfs.slotIn g.data (isNamed name) (g.inode dir) (g.inode dir).dirBlocks
  else
    none

def lookup (g : Image) (dir : Nat) (name : FileName) : Nat :=
  match g.place dir name with
  | none => 0
  | some (_, s, buf) => direntInode buf s

end Image

namespace Hnxfs

variable {fs : Hnxfs} {dir child n b s i : Nat} {name : FileName} {inode : Inode}
  {type : VnodeType}

def WellFormed (fs : Hnxfs) : Prop := fs.image.WellFormed fs.sb

lemma lt_of_inUse (hu : fs.image.InUse n) : n < fs.sb.inodeCount := by
  by_contra beyond
  have used := hu.2
  rw [inodeUsed_beyond (by omega)] at used
  exact false_ne_true used

lemma ne_zero_of_inUse (hu : fs.image.InUse n) : n ≠ 0 := by
  have := hu.1
  omega

def DirBlocks (fs : Hnxfs) (inode : Inode) : Prop :=
  ∀ b ∈ inode.dirBlocks, fs.sb.InData (inode.direct b)

lemma WellFormed.dirBlocks (wf : fs.WellFormed) (hu : fs.image.InUse dir)
    (hd : fs.image.IsDir dir) : fs.DirBlocks (fs.image.inode dir) := by
  intro b mem
  have bLt : b < min (fs.image.inode dir).blocks 12 := mem_range.mp mem
  apply wf.direct_inData dir b
  exact ⟨hu, by omega, rfl, wf.dir_full dir b hu hd (by omega)⟩

lemma slotIn_image {wanted : DiskBlock → Nat → Bool} (bs : fs.DirBlocks inode) :
    slotIn fs.blocks wanted inode inode.dirBlocks =
      slotIn fs.image.data wanted inode inode.dirBlocks :=
  slotIn_congr fun b mem => (image_data (bs b mem)).symm

lemma dirLookup_eq (hs : fs.Steady) (pos : dir ≠ 0) (dirLt : dir < fs.sb.inodeCount)
    (bs : fs.image.IsDir dir → fs.DirBlocks (fs.image.inode dir)) :
    hnxfsDirLookup dir name fs = (fs.image.lookup dir name, fs) := by
  by_cases hd : fs.image.IsDir dir
  · simp only [hnxfsDirLookup, bind_apply, readDirectory_eq hs pos dirLt hd,
      findSlot_eq hs, slotIn_image (bs hd), Image.lookup, Image.place, if_pos hd]
    cases slotIn fs.image.data (isNamed name) (fs.image.inode dir)
        (fs.image.inode dir).dirBlocks with
    | none => rfl
    | some => rfl
  simp only [hnxfsDirLookup, bind_apply, readDirectory_none hs pos dirLt hd,
    Image.lookup, Image.place, if_neg hd, pure_apply]

lemma WellFormed.dirLookup_eq (wf : fs.WellFormed) (hs : fs.Steady)
    (hu : fs.image.InUse dir) : hnxfsDirLookup dir name fs = (fs.image.lookup dir name, fs) :=
  Hnxfs.dirLookup_eq hs (ne_zero_of_inUse hu) (lt_of_inUse hu)
    (wf.dirBlocks hu)

end Hnxfs

namespace Image

variable {sb : Superblock} {g : Image} {dir b s : Nat} {buf : DiskBlock} {name : FileName}

lemma place_some (hu : g.InUse dir) (ne0 : (0 : UInt8) ∉ name) (notDots : ¬ name.Dots)
    (hf : g.place dir name = some (b, s, buf)) : g.Entry dir b s (g.lookup dir name) ∧ b < 12 ∧
      buf = g.data ((g.inode dir).direct b) ∧ storedName buf s = name.take 120 := by
  have lookupEq : g.lookup dir name = direntInode buf s := by rw [lookup, hf]
  rw [place] at hf
  by_cases hd : g.IsDir dir
  · rw [if_pos hd] at hf
    obtain ⟨mem, slotLt, rfl, named⟩ := Hnxfs.slotIn_some hf
    have bLt := mem_range.mp mem
    rw [isNamed, and_eq_true, decide_eq_true_eq, nameEq_iff ne0] at named
    obtain ⟨live, stored⟩ := named
    refine ⟨⟨hu, hd, by omega, slotLt, ?_, lookupEq.symm⟩, by omega, rfl, stored⟩
    rw [isEntry_iff, stored, FileName.dots_take (by norm_num)]
    exact ⟨live, notDots⟩
  rw [if_neg hd] at hf
  exact absurd hf (by simp)

lemma lookup_ne_zero (hu : g.InUse dir) (ne0 : (0 : UInt8) ∉ name)
    (notDots : ¬ name.Dots) (pres : g.lookup dir name ≠ 0) :
    ∃ b s, g.place dir name = some (b, s, g.data ((g.inode dir).direct b)) ∧ b < 12 ∧
      g.Entry dir b s (g.lookup dir name) ∧
      storedName (g.data ((g.inode dir).direct b)) s = name.take 120 := by
  cases hf : g.place dir name with
  | none => exact absurd (by rw [lookup, hf]) pres
  | some hit =>
    obtain ⟨b, s, buf⟩ := hit
    obtain ⟨e, bLt, rfl, stored⟩ := place_some hu ne0 notDots hf
    exact ⟨b, s, rfl, bLt, e, stored⟩

lemma lookup_eq_zero {child : Nat} (wf : WellFormed sb g) (hu : g.InUse dir)
    (ne0 : (0 : UInt8) ∉ name) (notDots : ¬ name.Dots) (ha : g.lookup dir name = 0)
    (e : g.Entry dir b s child) : storedName (g.data ((g.inode dir).direct b))
      s ≠ name.take 120 := by
  intro stored
  cases hf : g.place dir name with
  | some hit =>
    obtain ⟨b', slot', buf⟩ := hit
    have hitEntry := (place_some hu ne0 notDots hf).1
    exact hitEntry.child_ne_zero ha
  | none =>
    rw [place, if_pos e.isDir] at hf
    have bLe := wf.blocks_le dir hu
    have notNamed := Hnxfs.slotIn_none hf b
      (mem_range.mpr (by have := e.b_lt; omega)) s e.slot_lt
    have named : isNamed name (g.data ((g.inode dir).direct b)) s = true := by
      rw [isNamed, and_eq_true, decide_eq_true_eq, nameEq_iff ne0, e.child]
      exact ⟨e.child_ne_zero, stored⟩
    rw [notNamed] at named
    exact false_ne_true named

end Image

namespace Hnxfs

variable {fs : Hnxfs} {dir child n b s i : Nat} {name : FileName} {inode : Inode}
  {type : VnodeType}

def grownInode (inode : Inode) (blk : Nat) : Inode :=
  { inode with
    direct := update inode.direct inode.blocks blk
    blocks := inode.blocks + 1
    size := (inode.blocks + 1) * 4096 }

lemma grownInode_fits {blk : Nat} (fits : inode.Fits) (blkLt : blk < 256 ^ 8)
    (blocksLt : inode.blocks < 12) : (grownInode inode blk).Fits where
  __ := fits
  size_lt := by
    simp only [grownInode]
    omega
  blocks_lt := by
    simp only [grownInode]
    omega
  direct_lt b := by
    by_cases same : b = inode.blocks
    · simp only [grownInode, same, update_self, blkLt]
    · simp only [grownInode, update_of_ne same, fits.direct_lt b]
  direct_beyond b beyond := by
    have ne : b ≠ inode.blocks := by omega
    simp only [grownInode, update_of_ne ne, fits.direct_beyond b beyond]

def NoFreeSlot (g : Image) (dir : Nat) : Prop :=
  ∀ b < min (g.inode dir).blocks 12, ∀ s < 32, direntInode (g.data ((g.inode dir).direct b)) s ≠ 0

def growDir (fs : Hnxfs) (dir idx child : Nat) (name : FileName) : Hnxfs :=
  ((fs.takeBlock idx).setInode dir
      (grownInode (fs.image.inode dir) (fs.sb.dataBlockStart + idx))).putBlock
    (fs.sb.dataBlockStart + idx) (putDirent zeroBlock 0 child name)

lemma dirAdd_cases (lay : fs.sb.Layout) (hs : fs.Steady) (pos : dir ≠ 0)
    (dirLt : dir < fs.sb.inodeCount)
    (bs : fs.image.IsDir dir → fs.DirBlocks (fs.image.inode dir)) :
    (hnxfsDirAdd dir name child fs = (-sysEnotdir, fs) ∧ ¬ fs.image.IsDir dir) ∨
    (fs.image.IsDir dir ∧ NoFreeSlot fs.image dir ∧
      hnxfsDirAdd dir name child fs = (-sysEnomem, fs) ∧
      (12 ≤ (fs.image.inode dir).blocks ∨ ∀ i < fs.sb.dataBlockCount,
        fs.image.blockUsed i = true)) ∨
    (fs.image.IsDir dir ∧ ∃ b s, b < min (fs.image.inode dir).blocks 12 ∧ s < 32 ∧
      direntInode (fs.image.data ((fs.image.inode dir).direct b)) s = 0 ∧
      hnxfsDirAdd dir name child fs = (0, fs.putBlock ((fs.image.inode dir).direct b)
        (putDirent (fs.image.data ((fs.image.inode dir).direct b)) s child name))) ∨
    (fs.image.IsDir dir ∧ NoFreeSlot fs.image dir ∧ (fs.image.inode dir).blocks < 12 ∧
      ∃ i < fs.sb.dataBlockCount, fs.image.blockUsed i = false ∧
        hnxfsDirAdd dir name child fs = (0, fs.growDir dir i child name)) := by
  by_cases hd : fs.image.IsDir dir
  · right
    cases hf : slotIn fs.image.data isFreeSlot (fs.image.inode dir)
        (fs.image.inode dir).dirBlocks with
    | some hit =>
      obtain ⟨b, s, buf⟩ := hit
      obtain ⟨mem, slotLt, rfl, free⟩ := slotIn_some hf
      right
      left
      refine ⟨hd, b, s, mem_range.mp mem, slotLt, of_decide_eq_true free, ?_⟩
      simp only [hnxfsDirAdd, bind_apply, readDirectory_eq hs pos dirLt hd,
        findSlot_eq hs, slotIn_image (bs hd), hf, writeBlock_eq hs, pure_apply,
        if_true]
    | none =>
      have start : hnxfsDirAdd dir name child fs =
        dirGrow dir (fs.image.inode dir) name child fs := by
        simp only [hnxfsDirAdd, bind_apply, readDirectory_eq hs pos dirLt hd,
          findSlot_eq hs, slotIn_image (bs hd), hf]
      have noFree : NoFreeSlot fs.image dir := by
        intro b bLt s slotLt
        exact of_decide_eq_false (slotIn_none hf b (mem_range.mpr bLt) s slotLt)
      by_cases full : (fs.image.inode dir).blocks ≥ 12
      · left
        refine ⟨hd, noFree, ?_, .inl full⟩
        simp only [start, dirGrow, if_pos full, pure_apply]
      rcases allocBlock_cases lay hs with ⟨run, used⟩ | ⟨i, run, idxLt, hc⟩
      · left
        refine ⟨hd, noFree, ?_, .inr used⟩
        simp only [start, dirGrow, if_neg full, bind_apply, run, if_true, pure_apply]
      right
      right
      refine ⟨hd, noFree, by omega, i, idxLt, hc, ?_⟩
      have blkNe : fs.sb.dataBlockStart + i ≠ 0 := lay.data_ne_zero (inData_add idxLt)
      have ht : (fs.takeBlock i).Steady := hs
      have written := @writeInode_eq (fs.takeBlock i) dir
        (grownInode (fs.image.inode dir) (fs.sb.dataBlockStart + i)) ht pos dirLt
      have hg : ((fs.takeBlock i).setInode dir (grownInode (fs.image.inode dir)
        (fs.sb.dataBlockStart + i))).Steady := hs
      rw [grownInode] at written hg
      simp only [start, dirGrow, if_neg full, bind_apply, run, if_neg blkNe, written,
        ne_eq, not_true_eq_false, if_false, writeBlock_eq hg, pure_apply, if_true,
        growDir, grownInode]
  left
  refine ⟨?_, hd⟩
  simp only [hnxfsDirAdd, bind_apply, readDirectory_none hs pos dirLt hd, pure_apply]

inductive Grown (sb : Superblock) (g : Image) (dir : Nat) : Image → Prop
  | same : Grown sb g dir g
  | attached {idx b : Nat} {inode : Inode} (indexLt : idx < sb.dataBlockCount)
      (clear : g.blockUsed idx = false)
      (attaches : g.Attaches (sb.dataBlockStart + idx) dir b inode) :
      Grown sb g dir (g.attach sb dir idx inode)

variable {sb : Superblock} {g post : Image}

lemma Grown.wellFormed {h : Image} (hg : Grown sb g dir h)
    (wf : g.WellFormed sb) : h.WellFormed sb := by
  cases hg with
  | same => exact wf
  | attached idxLt hc att => exact wf.attach idxLt hc att

structure Created (fs : Hnxfs) (dir child : Nat) (name : FileName) (type : VnodeType)
    (post : Image) : Prop where
  exists_link : ∃ g b s, Grown fs.sb fs.image dir g ∧
    g.Links fs.sb dir b s child name (newInode type) ∧
    post = g.link ((g.inode dir).direct b) s child name (newInode type)

lemma Created.wellFormed (made : fs.Created dir child name type post)
    (wf : fs.WellFormed) : post.WellFormed fs.sb := by
  obtain ⟨g, b, s, hg, links, rfl⟩ := made.exists_link
  exact (hg.wellFormed wf).link links

def withNewInode (fs : Hnxfs) (child : Nat) (type : VnodeType) : Hnxfs :=
  (fs.markInode child).setInode child (newInode type)

lemma image_withNewInode (lay : fs.sb.Layout) (childLt : child < fs.sb.inodeCount) :
    (fs.withNewInode child type).image = { fs.image with
        inodeUsed := update fs.image.inodeUsed child true
        inode := update fs.image.inode child (newInode type) } := by
  have marked : (fs.markInode child).sb.Layout := lay
  rw [withNewInode, image_setInode marked childLt (newInode_fits type), image_markInode lay childLt]

lemma image_giveBack (lay : fs.sb.Layout) (childLt : child < fs.sb.inodeCount)
    (unused : fs.image.inodeUsed child = false) :
    ((fs.withNewInode child type).unmarkInode child).image =
      { fs.image with inode := update fs.image.inode child (newInode type) } := by
  have marked : (fs.withNewInode child type).sb.Layout := lay
  rw [image_unmarkInode marked, image_withNewInode lay childLt]
  have restored : update fs.image.inodeUsed child false = fs.image.inodeUsed := by
    rw [← unused, update_eq_self]
  simp only [update_idem, restored]

section
variable (wf : fs.WellFormed) (hu : fs.image.InUse dir) (hd : fs.image.IsDir dir)
include wf hu hd

lemma created_of_slot (bLt : b < (fs.image.inode dir).blocks) (slotLt : s < 32)
    (free : direntInode (fs.image.data ((fs.image.inode dir).direct b)) s = 0)
    (unused : fs.image.inodeUsed child = false) (twoLe : 2 ≤ child)
    (childLt : child < fs.sb.inodeCount) (ne0 : (0 : UInt8) ∉ name) (notDots : ¬ name.Dots) :
    fs.Created dir child name type
      ((fs.withNewInode child type).putBlock ((fs.image.inode dir).direct b)
        (putDirent (fs.image.data ((fs.image.inode dir).direct b)) s child name)).image := by
  have layout := wf.layout
  have fresh : (fs.withNewInode child type).sb.Layout := layout
  have inData : (fs.withNewInode child type).sb.InData ((fs.image.inode dir).direct b) :=
    wf.dirBlocks hu hd b
      (mem_range.mpr (by have := wf.blocks_le dir hu; omega))
  refine ⟨fs.image, b, s, Grown.same, ⟨hu, hd, bLt, slotLt, free, unused, twoLe, childLt,
    ne0, notDots, fun _ _ => rfl, rfl⟩, ?_⟩
  rw [image_putData fresh inData, image_withNewInode layout childLt, Image.link]

lemma created_of_grow (blocksLt : (fs.image.inode dir).blocks < 12)
    (idxLt : i < fs.sb.dataBlockCount) (hc : fs.image.blockUsed i = false)
    (unused : fs.image.inodeUsed child = false) (twoLe : 2 ≤ child)
    (childLt : child < fs.sb.inodeCount) (ne0 : (0 : UInt8) ∉ name) (notDots : ¬ name.Dots) :
    fs.Created dir child name type
      ((fs.withNewInode child type).growDir dir i child name).image := by
  have layout := wf.layout
  have dirNe : dir ≠ child := by
    rintro rfl
    rw [hu.2] at unused
    exact Bool.noConfusion unused
  set blk := fs.sb.dataBlockStart + i with blkDef
  set grown := grownInode (fs.image.inode dir) blk with grownDef
  have hole : (fs.image.inode dir).direct (fs.image.inode dir).blocks = 0 := by
    by_contra ne0Ptr
    have hr : fs.image.Refers dir (fs.image.inode dir).blocks
      ((fs.image.inode dir).direct (fs.image.inode dir).blocks) :=
      ⟨hu, blocksLt, rfl, ne0Ptr⟩
    have := wf.direct_lt _ _ _ hr
    omega
  have att : fs.image.Attaches blk dir (fs.image.inode dir).blocks grown :=
    ⟨hu, blocksLt, hole, rfl, rfl, by simp [grownDef, grownInode], fun _ => rfl⟩
  have inoEq : (fs.withNewInode child type).image.inode dir = fs.image.inode dir := by
    rw [image_withNewInode layout childLt]
    exact update_of_ne dirNe _ _
  have attachedInode : (fs.image.attach fs.sb dir i grown).inode dir = grown := by
    simp only [Image.attach, update_self]
  have attachedData : (fs.image.attach fs.sb dir i grown).data blk = zeroBlock := by
    simp only [Image.attach, blkDef, update_self]
  have directEq : grown.direct (fs.image.inode dir).blocks = blk := by
    simp only [grownDef, grownInode, update_self]
  refine ⟨fs.image.attach fs.sb dir i grown, (fs.image.inode dir).blocks, 0,
    Grown.attached idxLt hc att, ⟨hu, ?_, ?_, by norm_num, ?_, unused, twoLe, childLt,
      ne0, notDots, fun _ _ => rfl, rfl⟩, ?_⟩
  · exact (attach_isDir att).mpr hd
  · rw [attachedInode]
    simp [grownDef, grownInode]
  · rw [attachedInode, directEq, attachedData]
    exact ByteMemory.readLE_eq_zero fun _ _ => rfl
  have fits : grown.Fits := by
    apply grownInode_fits image_inode_fits _ blocksLt
    have := layout.addressable
    have power : (256 : Nat) ^ 8 = 2 ^ 64 := by norm_num
    omega
  have fresh : (fs.withNewInode child type).sb.Layout := layout
  have ht : ((fs.withNewInode child type).takeBlock i).sb.Layout := layout
  have hw : (((fs.withNewInode child type).takeBlock i).setInode dir grown).sb.Layout := layout
  have inData : (((fs.withNewInode child type).takeBlock i).setInode dir grown).sb.InData
    blk := inData_add idxLt
  have unfolded : (fs.withNewInode child type).growDir dir i child name =
    (((fs.withNewInode child type).takeBlock i).setInode dir grown).putBlock blk
      (putDirent zeroBlock 0 child name) := by
    simp only [growDir, inoEq]
    rfl
  have dirLt : dir < fs.sb.inodeCount := lt_of_inUse hu
  rw [unfolded, image_putData hw inData, image_setInode ht dirLt fits,
    image_takeBlock fresh idxLt, image_withNewInode layout childLt, Image.link, attachedInode,
    directEq, attachedData]
  have sbEq : (fs.withNewInode child type).sb = fs.sb := rfl
  simp only [Image.attach, update_comm dirNe]
  simp only [sbEq, blkDef, update_idem]

end

structure Available (fs : Hnxfs) (child : Nat) : Prop where
  two_le : 2 ≤ child
  lt : child < fs.sb.inodeCount
  unused : fs.image.inodeUsed child = false
  alloc : hnxfsAllocInode fs = (child, fs.markInode child)

def createdVnode (child : Nat) (outp : Bool) : HnxfsM (Int × Option Nat) := do
  if outp then
    return (0, ← hnxfsGetVnode child)
  else
    return (0, none)

lemma sameFrame_withNewInode : fs.SameFrame (fs.withNewInode child type) :=
  ⟨rfl, rfl, rfl, rfl, rfl⟩

lemma sameFrame_growDir : fs.SameFrame (fs.growDir dir i child name) := ⟨rfl, rfl, rfl, rfl, rfl⟩

section Create

variable (wf : fs.WellFormed) (hs : fs.Steady) (hu : fs.image.InUse dir)
  (ha : fs.image.lookup dir name = 0) (avail : fs.Available child) {outp : Bool}
include wf hs hu ha avail

private lemma vCreate_eq_dirAdd {res : Int} {post : Hnxfs}
    (add : hnxfsDirAdd dir name child (fs.withNewInode child type) = (res, post)) :
    vCreate dir name type outp fs = (if res ≠ 0 then do
          hnxfsFreeInode child
          return (-sysEio, none)
        else createdVnode child outp : HnxfsM (Int × Option Nat)) post := by
  have childNe : child ≠ 0 := by
    have := avail.two_le
    omega
  have marked : (fs.markInode child).Steady := hs
  have hw : hnxfsWriteInode child (newInode type) (fs.markInode child) =
    (0, fs.withNewInode child type) := writeInode_eq marked childNe avail.lt
  have pres : ¬ fs.image.lookup dir name ≠ 0 := not_not.mpr ha
  simp only [vCreate, bind_apply, wf.dirLookup_eq hs hu, if_neg pres,
    avail.alloc, if_neg childNe, hw, ne_eq, not_true_eq_false, if_false, add]
  rfl

private lemma vCreate_failed {res : Int} (resultNe : res ≠ 0)
    (add : hnxfsDirAdd dir name child (fs.withNewInode child type) =
      (res, fs.withNewInode child type)) :
    ∃ post, vCreate dir name type outp fs = ((-sysEio, none), post) ∧ fs.SameFrame post ∧
      post.image =
        { fs.image with inode := update fs.image.inode child (newInode type) } := by
  have freshSteady : (fs.withNewInode child type).Steady := hs
  refine ⟨(fs.withNewInode child type).unmarkInode child, ?_,
    sameFrame_withNewInode.trans sameFrame_putBlock,
    image_giveBack wf.layout avail.lt avail.unused⟩
  rw [vCreate_eq_dirAdd wf hs hu ha avail add, if_pos resultNe]
  simp only [bind_apply, freeInode_eq freshSteady avail.two_le, pure_apply]

private lemma vCreate_available (ne0 : (0 : UInt8) ∉ name) (notDots : ¬ name.Dots) :
    (∃ post, vCreate dir name type outp fs = ((-sysEio, none), post) ∧ fs.SameFrame post ∧
      post.image = { fs.image with inode := update fs.image.inode child (newInode type) } ∧
      (¬ fs.image.IsDir dir ∨ NoFreeSlot fs.image dir)) ∨
    ∃ post, fs.SameFrame post ∧ fs.Created dir child name type post.image ∧
      vCreate dir name type outp fs = createdVnode child outp post := by
  have layout := wf.layout
  have twoLe := avail.two_le
  have childLt := avail.lt
  have unused := avail.unused
  have dirNe : dir ≠ child := by
    rintro rfl
    rw [hu.2] at unused
    exact Bool.noConfusion unused
  have dirLt : dir < fs.sb.inodeCount := lt_of_inUse hu
  have freshSteady : (fs.withNewInode child type).Steady := hs
  have freshLayout : (fs.withNewInode child type).sb.Layout := layout
  have imageEq := @image_withNewInode fs child type layout childLt
  have inoEq : (fs.withNewInode child type).image.inode dir = fs.image.inode dir := by
    rw [imageEq]
    exact update_of_ne dirNe _ _
  have dataEq : (fs.withNewInode child type).image.data = fs.image.data := by rw [imageEq]
  have isDirEq : (fs.withNewInode child type).image.IsDir dir ↔ fs.image.IsDir dir := by
    rw [Image.IsDir, inoEq, Image.IsDir]
  have bs : (fs.withNewInode child type).image.IsDir dir →
    (fs.withNewInode child type).DirBlocks ((fs.withNewInode child type).image.inode dir) := by
    intro hd
    rw [inoEq]
    exact wf.dirBlocks hu (isDirEq.mp hd)
  have failed := fun {res} => @vCreate_failed fs dir child name type wf hs hu
    ha avail outp res
  have added := fun {res} => @vCreate_eq_dirAdd fs dir child name type wf hs hu
    ha avail outp res
  rcases dirAdd_cases freshLayout freshSteady (ne_zero_of_inUse hu) dirLt bs with
    ⟨add, notDir⟩ | ⟨hd, noFree, add, -⟩ | ⟨hd, b, s, bLt, slotLt, free, add⟩ |
    ⟨hd, noFree, blocksLt, i, idxLt, hc, add⟩
  · left
    obtain ⟨post, run, f, image⟩ := failed (by decide) add
    exact ⟨post, run, f, image, .inl (mt isDirEq.mpr notDir)⟩
  · left
    obtain ⟨post, run, f, image⟩ := failed (by decide) add
    refine ⟨post, run, f, image, .inr ?_⟩
    rwa [NoFreeSlot, inoEq, dataEq] at noFree
  · right
    rw [inoEq, dataEq] at free add
    rw [inoEq] at bLt
    refine ⟨(fs.withNewInode child type).putBlock ((fs.image.inode dir).direct b)
      (putDirent (fs.image.data ((fs.image.inode dir).direct b)) s child name),
      sameFrame_withNewInode.trans sameFrame_putBlock,
      created_of_slot wf hu (isDirEq.mp hd) (by omega) slotLt free unused twoLe
        childLt ne0 notDots, ?_⟩
    rw [added add, if_neg (by simp)]
  right
  rw [inoEq] at blocksLt
  have clearBefore : fs.image.blockUsed i = false := by rwa [imageEq] at hc
  refine ⟨(fs.withNewInode child type).growDir dir i child name,
    sameFrame_withNewInode.trans sameFrame_growDir,
    created_of_grow wf hu (isDirEq.mp hd) blocksLt idxLt clearBefore unused
      twoLe childLt ne0 notDots, ?_⟩
  rw [added add, if_neg (by simp)]

end Create

lemma vCreate_cases (wf : fs.WellFormed) (hs : fs.Steady) (hu : fs.image.InUse dir)
    (ne0 : (0 : UInt8) ∉ name) (notDots : ¬ name.Dots) (outp : Bool) :
    (vCreate dir name type outp fs = ((-sysEexist, none), fs) ∧ fs.image.lookup dir name ≠ 0) ∨
    (fs.image.lookup dir name = 0 ∧ vCreate dir name type outp fs = ((-sysEnomem, none), fs) ∧
      ∀ n, 2 ≤ n → n < fs.sb.inodeCount → fs.image.inodeUsed n = true) ∨
    (fs.image.lookup dir name = 0 ∧ ∃ child post, fs.Available child ∧
      vCreate dir name type outp fs = ((-sysEio, none), post) ∧ fs.SameFrame post ∧
      post.image = { fs.image with inode := update fs.image.inode child (newInode type) } ∧
      (¬ fs.image.IsDir dir ∨ NoFreeSlot fs.image dir)) ∨
    (fs.image.lookup dir name = 0 ∧ ∃ child post, fs.Available child ∧ fs.SameFrame post ∧
      fs.Created dir child name type post.image ∧
      vCreate dir name type outp fs = createdVnode child outp post) := by
  by_cases pres : fs.image.lookup dir name ≠ 0
  · left
    refine ⟨?_, pres⟩
    simp only [vCreate, bind_apply, wf.dirLookup_eq hs hu, if_pos pres, pure_apply]
  right
  have ha : fs.image.lookup dir name = 0 := not_not.mp pres
  rcases allocInode_cases hs with ⟨alloc, used⟩ | ⟨child, alloc, twoLe, childLt, unused, -⟩
  · left
    refine ⟨ha, ?_, used⟩
    simp only [vCreate, bind_apply, wf.dirLookup_eq hs hu, if_neg pres, alloc, if_true, pure_apply]
  right
  have avail : fs.Available child := ⟨twoLe, childLt, unused, alloc⟩
  rcases vCreate_available wf hs hu ha avail ne0 notDots with
    ⟨post, failed⟩ | ⟨post, made⟩
  · exact .inl ⟨ha, child, post, avail, failed⟩
  · exact .inr ⟨ha, child, post, avail, made⟩

def emptied (inode : Inode) : Inode := { inode with direct := fun _ => 0, blocks := 0, size := 0 }

lemma emptied_fits (fits : inode.Fits) : (emptied inode).Fits where
  __ := fits
  size_lt := by norm_num [emptied]
  blocks_lt := by norm_num [emptied]
  direct_lt b := by norm_num [emptied]
  direct_beyond b beyond := rfl

lemma truncateLoop_spec (lay : fs.sb.Layout) (hs : fs.Steady) {positions : List Nat}
    (above : ∀ b ∈ positions, inode.direct b ≠ 0 → fs.sb.dataBlockStart ≤ inode.direct b) :
    ∃ post, truncateLoop positions inode fs =
        ({ inode with direct := fun b => if b ∈ positions then 0 else inode.direct b }, post) ∧
      fs.SameFrame post ∧ post.image = { fs.image with
          blockUsed := freed fs.sb fs.image.blockUsed inode.direct positions } := by
  induction positions generalizing fs inode with
  | nil =>
    refine ⟨fs, ?_, SameFrame.refl fs, ?_⟩
    · simp [truncateLoop, pure_apply]
    have kept : freed fs.sb fs.image.blockUsed inode.direct [] = fs.image.blockUsed := by
      funext i
      simp [freed]
    rw [kept]
  | cons b r ih =>
    by_cases ptr : inode.direct b ≠ 0
    · have startLe := above b (by simp) ptr
      have step := freeBlock_eq hs startLe
      set freedFs := fs.unmarkBlock (inode.direct b - fs.sb.dataBlockStart) with freedDef
      have restAbove : ∀ c ∈ r, update inode.direct b 0 c ≠ 0 →
        fs.sb.dataBlockStart ≤ update inode.direct b 0 c := by
        intro c mem ne0
        by_cases same : c = b
        · simp [same] at ne0
        rw [update_of_ne same] at ne0 ⊢
        exact above c (by simp [mem]) ne0
      have freedFrame : fs.SameFrame freedFs := sameFrame_putBlock
      have freedImage : freedFs.image = { fs.image with
          blockUsed := update fs.image.blockUsed
            (inode.direct b - fs.sb.dataBlockStart) false } :=
        image_unmarkBlock lay
      obtain ⟨post, run, f, imageEq⟩ := @ih freedFs
        { inode with direct := update inode.direct b 0 } lay hs restAbove
      refine ⟨post, ?_, freedFrame.trans f, ?_⟩
      · simp only [truncateLoop, if_pos ptr, bind_apply, step, run]
        congr 2
        funext c
        by_cases same : c = b
        · simp [same]
        · simp [same]
      suffices bits : freed fs.sb (update fs.image.blockUsed
          (inode.direct b - fs.sb.dataBlockStart) false) (update inode.direct b 0)
            r =
            freed fs.sb fs.image.blockUsed inode.direct (b :: r) by
        rw [imageEq, freedImage, freedFrame.sb]
        simp only [bits]
      funext i
      simp only [freed, forall_mem_cons]
      by_cases owned : inode.direct b = fs.sb.dataBlockStart + i
      · have indexEq : inode.direct b - fs.sb.dataBlockStart = i := by omega
        rw [indexEq, update_self, Bool.false_and, eq_comm, Bool.and_eq_false_iff,
          decide_eq_false_iff_not]
        right
        rintro ⟨zero | ne, -⟩
        · exact ptr zero
        · exact ne owned
      have indexNe : i ≠ inode.direct b - fs.sb.dataBlockStart := by omega
      rw [update_of_ne indexNe]
      congr 1
      rw [decide_eq_decide]
      constructor
      · intro kept
        refine ⟨.inr owned, ?_⟩
        intro c mem
        by_cases same : c = b
        · exact .inr (same ▸ owned)
        have := kept c mem
        rwa [update_of_ne same] at this
      rintro ⟨-, kept⟩ c mem
      by_cases same : c = b
      · simp [same]
      rw [update_of_ne same]
      exact kept c mem
    obtain ⟨post, run, f, imageEq⟩ := ih lay hs fun c mem => above c (by simp [mem])
    have zero : inode.direct b = 0 := not_not.mp ptr
    refine ⟨post, ?_, f, ?_⟩
    · simp only [truncateLoop, if_neg ptr, run]
      congr 2
      funext c
      by_cases same : c = b
      · simp [same, zero]
      · simp [same]
    suffices bits : freed fs.sb fs.image.blockUsed inode.direct r =
        freed fs.sb fs.image.blockUsed inode.direct (b :: r) by
      rw [imageEq, bits]
    funext i
    simp [freed, zero]

lemma fileTruncate_eq (wf : fs.WellFormed) (hs : fs.Steady) (hu : fs.image.InUse n) :
    ∃ post, hnxfsFileTruncate n fs = ((), post) ∧ fs.SameFrame post ∧
      post.image = fs.image.empty fs.sb n (emptied (fs.image.inode n)) := by
  have layout := wf.layout
  have numNe := ne_zero_of_inUse hu
  have numLt := lt_of_inUse hu
  have above : ∀ b ∈ (fs.image.inode n).dirBlocks, (fs.image.inode n).direct b ≠ 0 →
    fs.sb.dataBlockStart ≤ (fs.image.inode n).direct b := by
    intro b mem ptr
    have bLt := mem_range.mp mem
    exact (wf.direct_inData n b _ ⟨hu, by omega, rfl, ptr⟩).1
  obtain ⟨loop, run, f, imageEq⟩ := truncateLoop_spec layout hs above
  have directEq : (fun b => if b ∈ (fs.image.inode n).dirBlocks then 0
    else (fs.image.inode n).direct b) = fun _ => 0 := by
    funext b
    split
    · rfl
    rename_i out
    by_contra ptr
    by_cases bLt : b < 12
    · have below := wf.direct_lt n b _ ⟨hu, bLt, rfl, ptr⟩
      exact out (mem_range.mpr (by omega))
    · exact ptr (image_inode_fits.direct_beyond b (by omega))
  rw [directEq] at run
  have loopSteady : loop.Steady := hs.of_sameFrame f
  have loopLt : n < loop.sb.inodeCount := by
    rw [f.sb]
    exact numLt
  have loopLayout : loop.sb.Layout := by
    rw [f.sb]
    exact layout
  refine ⟨loop.setInode n (emptied (fs.image.inode n)), ?_, f.trans ⟨rfl, rfl, rfl, rfl, rfl⟩, ?_⟩
  · simp only [hnxfsFileTruncate, bind_apply, readInode_eq hs numNe numLt, run,
      writeInode_eq loopSteady numNe loopLt, pure_apply, emptied]
  · rw [image_setInode loopLayout loopLt (emptied_fits image_inode_fits), imageEq, Image.empty]

structure Unlinked (fs : Hnxfs) (dir child : Nat) (name : FileName) (post : Image) : Prop where
  exists_unlink : ∃ b s,
    fs.image.place dir name = some (b, s, fs.image.data ((fs.image.inode dir).direct b)) ∧
    fs.image.Entry dir b s child ∧ dir ≠ child ∧
    fs.image.Empties child (emptied (fs.image.inode child)) ∧
    post = (fs.image.empty fs.sb child (emptied (fs.image.inode child))).unlink
      ((fs.image.inode dir).direct b) s child

lemma empty_inode_of_ne (ne : dir ≠ n) : (g.empty sb n inode).inode dir = g.inode dir := by
  simp only [Image.empty, update_of_ne ne]

lemma Unlinked.wellFormed (unlinked : fs.Unlinked dir child name post)
    (wf : fs.WellFormed) : post.WellFormed fs.sb := by
  obtain ⟨b, s, -, e, dirNe, empties, rfl⟩ := unlinked.exists_unlink
  have emptyWellFormed := wf.empty empties
  have unlinks : (fs.image.empty fs.sb child (emptied (fs.image.inode child))).Unlinks dir b s
    child := by
    refine ⟨(empty_entry empties).mpr e, ?_, ?_⟩
    · intro c cLt
      simp [Image.empty, emptied]
    · simp [Image.empty, emptied]
  have res := emptyWellFormed.unlink unlinks
  rwa [empty_inode_of_ne dirNe] at res

lemma dirEmpty_eq (wf : fs.WellFormed) (hs : fs.Steady)
    (hu : fs.image.InUse n) (hd : fs.image.IsDir n) : ∃ ans, hnxfsDirEmpty n fs = (ans, fs) ∧
      (ans = true ↔ ∀ b s child, ¬ fs.image.Entry n b s child) := by
  have blocks := wf.dirBlocks hu hd
  refine ⟨(slotIn fs.image.data isEntry (fs.image.inode n)
    (fs.image.inode n).dirBlocks).isNone, ?_, ?_⟩
  · simp only [hnxfsDirEmpty, bind_apply,
      readDirectory_eq hs (ne_zero_of_inUse hu) (lt_of_inUse hu) hd,
      findSlot_eq hs, slotIn_image blocks, pure_apply]
  rw [Option.isNone_iff_eq_none]
  constructor
  · intro notFound b s child e
    have bLe := wf.blocks_le n hu
    have none := slotIn_none notFound b
      (mem_range.mpr (by have := e.b_lt; omega)) s e.slot_lt
    rw [e.entry] at none
    exact Bool.noConfusion none
  intro noEntry
  cases hf : slotIn fs.image.data isEntry (fs.image.inode n)
      (fs.image.inode n).dirBlocks with
  | none => rfl
  | some hit =>
    obtain ⟨b, s, buf⟩ := hit
    obtain ⟨mem, slotLt, rfl, live⟩ := slotIn_some hf
    have bLt := mem_range.mp mem
    exact absurd ⟨hu, hd, by omega, slotLt, live, rfl⟩ (noEntry b s _)

lemma vUnlink_cases (wf : fs.WellFormed) (hs : fs.Steady)
    (hu : fs.image.InUse dir) (ne0 : (0 : UInt8) ∉ name) (notDots : ¬ name.Dots) :
    (vUnlink dir name fs = (-sysEnoent, fs) ∧ fs.image.lookup dir name = 0) ∨
    (vUnlink dir name fs = (-sysEinval, fs) ∧ fs.image.lookup dir name ≠ 0 ∧
      fs.image.IsDir (fs.image.lookup dir name) ∧
      ∃ b s child, fs.image.Entry (fs.image.lookup dir name) b s child) ∨
    (fs.image.lookup dir name ≠ 0 ∧ ∃ post, vUnlink dir name fs = (0, post) ∧
      fs.SameFrame post ∧ fs.Unlinked dir (fs.image.lookup dir name) name post.image) := by
  have layout := wf.layout
  by_cases ha : fs.image.lookup dir name = 0
  · left
    refine ⟨?_, ha⟩
    simp only [vUnlink, bind_apply, wf.dirLookup_eq hs hu, if_pos ha, pure_apply]
  right
  obtain ⟨b, s, place, bLt, e, -⟩ := lookup_ne_zero hu ne0 notDots ha
  set child := fs.image.lookup dir name with childDef
  obtain ⟨twoLe, childInUse⟩ := wf.entry_used _ _ _ _ e
  have childNe := ne_zero_of_inUse childInUse
  have childLt := lt_of_inUse childInUse
  by_cases no : fs.image.IsDir child ∧ ∃ b s grandchild, fs.image.Entry child b s grandchild
  · left
    refine ⟨?_, ha, no⟩
    obtain ⟨hd, b', slot', grandchild, inner⟩ := no
    obtain ⟨ans, run, answerIff⟩ := dirEmpty_eq wf hs childInUse hd
    have notEmpty : ans = false := by
      rw [← not_eq_true, answerIff]
      intro noEntry
      exact noEntry b' slot' grandchild inner
    have isDirType : (fs.image.inode child).type = hnxfsTypeDir := hd
    simp only [vUnlink, bind_apply, wf.dirLookup_eq hs hu, ← childDef,
      if_neg ha, readInode_eq hs childNe childLt, if_pos isDirType, run, notEmpty,
      Bool.not_false, if_true, pure_apply]
  right
  have noEntry : ∀ b s grandchild, ¬ fs.image.Entry child b s grandchild := by
    intro b' slot' grandchild inner
    exact no ⟨inner.isDir, b', slot', grandchild, inner⟩
  have dirNe : dir ≠ child := by
    intro same
    rw [same] at e
    exact noEntry b s child e
  have empties : fs.image.Empties child (emptied (fs.image.inode child)) :=
    ⟨childInUse, rfl, fun _ _ => rfl, rfl, noEntry⟩
  obtain ⟨trunced, truncRun, truncFrame, truncImage⟩ := fileTruncate_eq wf hs childInUse
  have truncateSteady : trunced.Steady := hs.of_sameFrame truncFrame
  have truncateLayout : trunced.sb.Layout := by
    rw [truncFrame.sb]
    exact layout
  set released := trunced.unmarkInode child with releasedDef
  have releasedImage : released.image = { trunced.image with
      inodeUsed := update trunced.image.inodeUsed child false } :=
    image_unmarkInode truncateLayout
  have releasedSb : released.sb = fs.sb := truncFrame.sb
  have releasedSteady : released.Steady := truncateSteady
  have inoEq : released.image.inode dir = fs.image.inode dir := by
    rw [releasedImage, truncImage]
    simp only [Image.empty, update_of_ne dirNe]
  have dataEq : released.image.data = fs.image.data := by
    rw [releasedImage, truncImage, Image.empty]
  have hd : released.image.IsDir dir := by
    rw [Image.IsDir, inoEq]
    exact e.isDir
  have bs : released.DirBlocks (fs.image.inode dir) := by
    rw [DirBlocks, releasedSb]
    exact wf.dirBlocks hu e.isDir
  have dirLt : dir < released.sb.inodeCount := by
    rw [releasedSb]
    exact lt_of_inUse hu
  have hf : slotIn released.blocks (isNamed name) (fs.image.inode dir)
    (fs.image.inode dir).dirBlocks =
      some (b, s, fs.image.data ((fs.image.inode dir).direct b)) := by
    rw [slotIn_image bs, dataEq]
    rwa [Image.place, if_pos e.isDir] at place
  have remove : hnxfsDirRemove dir name released =
    (0, released.putBlock ((fs.image.inode dir).direct b)
      (clearDirent (fs.image.data ((fs.image.inode dir).direct b)) s)) := by
    simp only [hnxfsDirRemove, bind_apply,
      readDirectory_eq releasedSteady (ne_zero_of_inUse hu) dirLt hd,
      inoEq, findSlot_eq releasedSteady, hf, writeBlock_eq releasedSteady, pure_apply,
      if_true]
  have removable : (if (fs.image.inode child).type = hnxfsTypeDir then hnxfsDirEmpty child
    else pure true : HnxfsM Bool) fs = (true, fs) := by
    by_cases childDir : (fs.image.inode child).type = hnxfsTypeDir
    · obtain ⟨ans, run, answerIff⟩ := dirEmpty_eq wf hs childInUse childDir
      rw [if_pos childDir, run, answerIff.mpr noEntry]
    · rw [if_neg childDir, pure_apply]
  refine ⟨ha, released.putBlock ((fs.image.inode dir).direct b)
    (clearDirent (fs.image.data ((fs.image.inode dir).direct b)) s), ?_,
    truncFrame.trans ⟨rfl, rfl, rfl, rfl, rfl⟩,
    ⟨b, s, place, e, dirNe, empties, ?_⟩⟩
  · simp only [vUnlink, bind_apply, wf.dirLookup_eq hs hu, ← childDef,
      if_neg ha, readInode_eq hs childNe childLt, removable, Bool.not_true,
      Bool.false_eq_true, if_false, truncRun, freeInode_eq truncateSteady twoLe,
      ← releasedDef, remove]
  have releasedLayout : released.sb.Layout := truncateLayout
  have inData : released.sb.InData ((fs.image.inode dir).direct b) := by
    rw [releasedSb]
    exact wf.direct_inData _ _ _ (e.refers wf)
  rw [image_putData releasedLayout inData, releasedImage, truncImage, unlink]
  rfl

end Hnxfs

end HnxKernel
