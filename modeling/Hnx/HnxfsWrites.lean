import Hnx.HnxfsOperations

/-!
# Writing a file

The loop stops early only at the size limit or when a block is missing and none is free.
-/

namespace HnxKernel

section

open Function
open HnxfsM Bitmap

namespace Image

variable {sb : Superblock} {g h : Image} {n o b c blk i : Nat} {inode : Inode}
  {buf : DiskBlock}

def contents (g : Image) (num position : Nat) : UInt8 :=
  if position / 4096 < 12 ∧ (g.inode num).direct (position / 4096) ≠ 0 then
    g.data ((g.inode num).direct (position / 4096)) (position % 4096)
  else
    0

def withInode (g : Image) (num : Nat) (inode : Inode) : Image :=
  { g with inode := update g.inode num inode }

def putData (g : Image) (blk : Nat) (buf : DiskBlock) : Image :=
  { g with data := update g.data blk buf }

def freeBlocks (sb : Superblock) (g : Image) : Nat := (clearBits g.blockUsed sb.dataBlockCount).card

def pointers (g : Image) (num : Nat) : Finset Nat :=
  (Finset.range 12).filter fun b => (g.inode num).direct b ≠ 0

lemma mem_pointers : b ∈ g.pointers n ↔ b < 12 ∧ (g.inode n).direct b ≠ 0 := by simp [pointers]

/-- What storing bytes in a file keeps, whatever the bytes are. -/
structure Kept (sb : Superblock) (g h : Image) (num : Nat) : Prop where
  wellFormed : h.WellFormed sb
  inodeUsed : h.inodeUsed = g.inodeUsed
  others : ∀ o, o ≠ num → h.inode o = g.inode o
  type : (h.inode num).type = (g.inode num).type
  mode : (h.inode num).mode = (g.inode num).mode
  mtime : (h.inode num).mtime = (g.inode num).mtime
  fits : (g.inode num).Fits → (h.inode num).Fits
  otherContents : ∀ o, g.InUse o → o ≠ num → h.contents o = g.contents o
  directories : ∀ dir b, g.InUse dir → g.IsDir dir → b < (g.inode dir).blocks →
    h.data ((g.inode dir).direct b) = g.data ((g.inode dir).direct b)
  conserved : freeBlocks sb h + (h.pointers num).card = freeBlocks sb g + (g.pointers num).card

namespace Kept

variable {fst snd third : Image}

lemma refl (wf : fst.WellFormed sb) : Kept sb fst fst n where
  wellFormed := wf
  inodeUsed := rfl
  others _ _ := rfl
  type := rfl
  mode := rfl
  mtime := rfl
  fits := id
  otherContents _ _ _ := rfl
  directories _ _ _ _ _ := rfl
  conserved := rfl

lemma inUse_iff (kept : Kept sb fst snd n) : snd.InUse o ↔ fst.InUse o := by
  rw [InUse, InUse, kept.inodeUsed]

lemma isDir_iff (kept : Kept sb fst snd n) : snd.IsDir o ↔ fst.IsDir o := by
  by_cases same : o = n
  · rw [same, IsDir, IsDir, kept.type]
  · rw [IsDir, IsDir, kept.others o same]

lemma trans (notDir : ¬ fst.IsDir n) (left : Kept sb fst snd n)
    (right : Kept sb snd third n) : Kept sb fst third n where
  wellFormed := right.wellFormed
  inodeUsed := right.inodeUsed.trans left.inodeUsed
  others o ne := (right.others o ne).trans (left.others o ne)
  type := right.type.trans left.type
  mode := right.mode.trans left.mode
  mtime := right.mtime.trans left.mtime
  fits fits := right.fits (left.fits fits)
  otherContents o inUse ne :=
    (right.otherContents o (left.inUse_iff.mpr inUse) ne).trans
      (left.otherContents o inUse ne)
  directories dir b inUse isDir bLt := by
    have ne : dir ≠ n := by
      rintro rfl
      exact notDir isDir
    have inodeEq := left.others dir ne
    have step := right.directories dir b (left.inUse_iff.mpr inUse) (left.isDir_iff.mpr isDir)
      (inodeEq.symm ▸ bLt)
    rw [inodeEq] at step
    exact step.trans (left.directories dir b inUse isDir bLt)
  conserved := right.conserved.trans left.conserved

end Kept

lemma contents_congr (direct : ∀ b < 12, (h.inode n).direct b = (g.inode n).direct b)
    (data : ∀ b < 12, (g.inode n).direct b ≠ 0 →
      h.data ((g.inode n).direct b) = g.data ((g.inode n).direct b)) :
    h.contents n = g.contents n := by
  funext pos
  rw [contents, contents]
  by_cases mem : pos / 4096 < 12
  · rw [direct _ mem]
    by_cases ptr : (g.inode n).direct (pos / 4096) ≠ 0
    · rw [if_pos ⟨mem, ptr⟩, if_pos ⟨mem, ptr⟩, data _ mem ptr]
    · rw [if_neg (fun both => ptr both.2), if_neg (fun both => ptr both.2)]
  · rw [if_neg (fun both => mem both.1), if_neg (fun both => mem both.1)]

section Attach

variable (wf : WellFormed sb g) (indexLt : i < sb.dataBlockCount)
  (hc : g.blockUsed i = false)
  (att : g.Attaches (sb.dataBlockStart + i) n b inode)
include wf indexLt hc att

omit att in
lemma direct_ne_clear (hu : g.InUse o) (cLt : c < 12) :
    (g.inode o).direct c ≠ sb.dataBlockStart + i := by
  intro same
  have pos : sb.dataBlockStart + i ≠ 0 := wf.layout.data_ne_zero ⟨Nat.le_add_right _ _, by omega⟩
  exact wf.clear i indexLt hc o c ⟨hu, cLt, same, pos⟩

omit att in
lemma contents_attach_of_ne (hu : g.InUse o) (ne : o ≠ n) :
    (g.attach sb n i inode).contents o = g.contents o := by
  apply contents_congr
  · intro c cLt
    simp only [attach, update_of_ne ne]
  intro c cLt ptr
  simp only [attach, update_of_ne (direct_ne_clear wf indexLt hc hu cLt)]

lemma contents_attach : (g.attach sb n i inode).contents n = g.contents n := by
  have direct : ((g.attach sb n i inode).inode n).direct =
    update (g.inode n).direct b (sb.dataBlockStart + i) := by
    simp only [attach, update_self, att.direct]
  funext pos
  rw [contents, contents, direct]
  by_cases sameBlock : pos / 4096 = b
  · have zero : (g.attach sb n i inode).data (sb.dataBlockStart + i) = zeroBlock := by
      simp only [attach, update_self]
    have hole : ¬ (b < 12 ∧ (g.inode n).direct b ≠ 0) := fun both => both.2 att.hole
    rw [sameBlock, update_self, zero, if_neg hole]
    split
    · rfl
    · rfl
  rw [update_of_ne sameBlock]
  by_cases pres : pos / 4096 < 12 ∧ (g.inode n).direct (pos / 4096) ≠ 0
  · have fresh := direct_ne_clear wf indexLt hc att.inUse pres.1
    rw [if_pos pres, if_pos pres]
    simp only [attach, update_of_ne fresh]
  · rw [if_neg pres, if_neg pres]

omit hc in
lemma pointers_attach : (g.attach sb n i inode).pointers n = insert b (g.pointers n) := by
  have pos : sb.dataBlockStart + i ≠ 0 := wf.layout.data_ne_zero ⟨Nat.le_add_right _ _, by omega⟩
  have bLt := att.b_lt
  ext c
  rw [Finset.mem_insert, mem_pointers, mem_pointers]
  simp only [attach, update_self, att.direct]
  by_cases same : c = b
  · subst same
    simp only [update_self, true_or, iff_true]
    exact ⟨bLt, pos⟩
  · simp [same]

lemma kept_attach (mode : inode.mode = (g.inode n).mode)
    (mtime : inode.mtime = (g.inode n).mtime) (fits : (g.inode n).Fits → inode.Fits) :
      Kept sb g (g.attach sb n i inode) n where
  wellFormed := wf.attach indexLt hc att
  inodeUsed := rfl
  others o ne := by simp only [attach, update_of_ne ne]
  type := by simp only [attach, update_self, att.type]
  mode := by simp only [attach, update_self, mode]
  mtime := by simp only [attach, update_self, mtime]
  fits := by simpa only [attach, update_self] using fits
  otherContents o inUse ne := contents_attach_of_ne wf indexLt hc inUse ne
  directories dir c inUse isDir cLt := by
    have cLe := wf.blocks_le dir inUse
    have fresh := direct_ne_clear wf indexLt hc inUse (c := c) (by omega)
    simp only [attach, update_of_ne fresh]
  conserved := by
    have hole : b ∉ g.pointers n := by
      rw [mem_pointers]
      exact fun both => both.2 att.hole
    have ht : freeBlocks sb (g.attach sb n i inode) + 1 = freeBlocks sb g :=
      card_clearBits_set (mem_clearBits.mpr ⟨indexLt, hc⟩)
    rw [pointers_attach wf indexLt att, Finset.card_insert_of_notMem hole]
    omega

end Attach

section Fill

variable (wf : WellFormed sb g) (notDir : ¬ g.IsDir n) (hr : g.Refers n b blk)
include wf hr

lemma contents_putData_of_ne (hu : g.InUse o) (ne : o ≠ n) :
    (g.putData blk buf).contents o = g.contents o := by
  apply contents_congr
  · intro c cLt
    rfl
  intro c cLt ptr
  have blockNe : (g.inode o).direct c ≠ blk := by
    rintro same
    exact ne (wf.owner_unique ⟨hu, cLt, same, hr.ne_zero⟩ hr).1
  simp only [putData, update_of_ne blockNe]

lemma contents_putData (pos : Nat) : (g.putData blk buf).contents n pos =
    if pos / 4096 = b then buf (pos % 4096) else g.contents n pos := by
  by_cases sameBlock : pos / 4096 = b
  · have pres : b < 12 ∧ (g.inode n).direct b ≠ 0 := ⟨hr.b_lt, hr.direct ▸ hr.ne_zero⟩
    have blockEq : (g.putData blk buf).data blk = buf := update_self _ _ _
    have inoEq : (g.putData blk buf).inode = g.inode := rfl
    rw [if_pos sameBlock, contents, inoEq, sameBlock, if_pos pres, hr.direct, blockEq]
  rw [if_neg sameBlock, contents, contents]
  by_cases pres : pos / 4096 < 12 ∧ (g.inode n).direct (pos / 4096) ≠ 0
  · have blockNe : (g.inode n).direct (pos / 4096) ≠ blk := by
      intro same
      exact sameBlock (wf.owner_unique ⟨hr.inUse, pres.1, same, hr.ne_zero⟩
        hr).2
    have dataEq : (g.putData blk buf).data ((g.inode n).direct (pos / 4096)) =
      g.data ((g.inode n).direct (pos / 4096)) := update_of_ne blockNe _ _
    have inoEq : (g.putData blk buf).inode = g.inode := rfl
    rw [inoEq, dataEq]
  have inoEq : (g.putData blk buf).inode = g.inode := rfl
  rw [inoEq, if_neg pres, if_neg pres]

include notDir

lemma kept_putData : Kept sb g (g.putData blk buf) n := by
  have directories : ∀ dir c, g.InUse dir → g.IsDir dir → c < (g.inode dir).blocks →
    (g.putData blk buf).data ((g.inode dir).direct c) = g.data ((g.inode dir).direct c) := by
    intro dir c hu hd cLt
    have ne : n ≠ dir := by
      rintro rfl
      exact notDir hd
    have blockNe : (g.inode dir).direct c ≠ blk := fun same => ne (wf.place_unique hu cLt hr same).1
    simp only [putData, update_of_ne blockNe]
  have similar : Similar g (g.putData blk buf) :=
    ⟨rfl, rfl, fun _ _ => rfl, fun _ _ => rfl, fun _ _ => rfl, directories⟩
  exact
    { wellFormed := similar.wellFormed wf
      inodeUsed := rfl
      others := fun _ _ => rfl
      type := rfl
      mode := rfl
      mtime := rfl
      fits := id
      otherContents := fun o hu ne => contents_putData_of_ne wf hr hu ne
      directories := directories
      conserved := rfl }

end Fill

lemma kept_resize (wf : WellFormed sb g) {size : Nat} (sizeLt : size < 256 ^ 8) :
    Kept sb g (g.withInode n { g.inode n with size := size }) n := by
  have others : ∀ o, o ≠ n →
    (g.withInode n { g.inode n with size := size }).inode o = g.inode o := by
    intro o ne
    simp only [withInode, update_of_ne ne]
  have self : (g.withInode n { g.inode n with size := size }).inode n =
    { g.inode n with size := size } := by
    simp only [withInode, update_self]
  have similar : Similar g (g.withInode n { g.inode n with size := size }) := by
    refine ⟨rfl, rfl, ?_, ?_, ?_, fun _ _ _ _ _ => rfl⟩
    all_goals
      intro o hu
      by_cases same : o = n
      · rw [same, self]
      · rw [others o same]
  exact
    { wellFormed := similar.wellFormed wf
      inodeUsed := rfl
      others := others
      type := by rw [self]
      mode := by rw [self]
      mtime := by rw [self]
      fits := by
        intro fits
        rw [self]
        exact { fits with size_lt := sizeLt }
      otherContents := by
        intro o hu ne
        apply contents_congr
        · intro b bLt
          rw [others o ne]
        intro b bLt ptr
        rfl
      directories := fun _ _ _ _ _ => rfl
      conserved := by
        have pointersEq : (g.withInode n { g.inode n with size := size }).pointers n =
          g.pointers n := by
          simp only [pointers, self]
        rw [pointersEq]
        rfl }

lemma contents_resize {size : Nat} :
    (g.withInode n { g.inode n with size := size }).contents n = g.contents n := by
  apply contents_congr
  · intro b bLt
    simp only [withInode, update_self]
  intro b bLt ptr
  rfl

end Image

end

open Function Image
open HnxfsM Bitmap

namespace Image

variable {sb : Superblock} {g h : Image} {n off done : Nat} {src : ByteMemory}

structure Written (sb : Superblock) (g h : Image) (num off done : Nat) (src : ByteMemory) :
    Prop where
  kept : Kept sb g h num
  contents : ∀ position, h.contents num position =
    if off ≤ position ∧ position < off + done then src (position - off)
    else g.contents num position
  direct : ∀ b, (h.inode num).direct b ≠ 0 ↔ (g.inode num).direct b ≠ 0 ∨
    ∃ position, off ≤ position ∧ position < off + done ∧ position / 4096 = b

lemma Written.refl (wf : g.WellFormed sb) : Written sb g g n off 0 src where
  kept := Kept.refl wf
  contents pos := by rw [if_neg (by omega)]
  direct b := by
    constructor
    · exact .inl
    rintro (ptr | ⟨pos, le, lt, -⟩)
    · exact ptr
    · omega

end Image

namespace Hnxfs

variable {fs : Hnxfs} {n bidx off size done : Nat} {inode : Inode} {src : ByteMemory}

def imageWith (fs : Hnxfs) (num : Nat) (inode : Inode) : Image := fs.image.withInode num inode

lemma imageWith_self : fs.imageWith n (fs.image.inode n) = fs.image := by
  simp [imageWith, withInode]

lemma imageWith_inode : (fs.imageWith n inode).inode n = inode := by
  simp [imageWith, withInode]

lemma imageWith_takeBlock {idx : Nat} {attached : Inode} (lay : fs.sb.Layout)
    (hlt : idx < fs.sb.dataBlockCount) :
    (fs.takeBlock idx).imageWith n attached =
      (fs.imageWith n inode).attach fs.sb n idx attached := by
  simp [imageWith, image_takeBlock lay hlt, withInode, attach]

lemma imageWith_putBlock {blk : Nat} {buf : DiskBlock} (lay : fs.sb.Layout)
    (inData : fs.sb.InData blk) :
    (fs.putBlock blk buf).imageWith n inode = (fs.imageWith n inode).putData blk buf := by
  simp [imageWith, image_putData lay inData, withInode, putData]

structure Writing (fs : Hnxfs) (num : Nat) (inode : Inode) : Prop where
  steady : fs.Steady
  wellFormed : (fs.imageWith num inode).WellFormed fs.sb
  inUse : fs.image.InUse num
  notDir : ¬ (fs.imageWith num inode).IsDir num
  fits : inode.Fits

lemma attached_fits {blk : Nat} (hf : inode.Fits) (blkLt : blk < 256 ^ 8) (bidxLt : bidx < 12) :
    Inode.Fits
      { inode with
        direct := update inode.direct bidx blk
        blocks := if bidx + 1 > inode.blocks then bidx + 1 else inode.blocks } where
  __ := hf
  blocks_lt := by
    have := hf.blocks_lt
    dsimp only
    split
    · omega
    · exact this
  direct_lt b := by
    by_cases same : b = bidx
    · simp only [same, update_self, blkLt]
    · simp only [update_of_ne same, hf.direct_lt b]
  direct_beyond b beyond := by
    have ne : b ≠ bidx := by omega
    simp [update_of_ne ne, hf.direct_beyond b beyond]

lemma ensureBlock_cases (hw : fs.Writing n inode) (bidx : Nat) (bidxLt : bidx < 12) :
    (ensureBlock inode bidx fs = (none, fs) ∧ inode.direct bidx = 0 ∧
      freeBlocks fs.sb (fs.imageWith n inode) = 0) ∨
    ∃ ensured post, ensureBlock inode bidx fs = (some ensured, post) ∧ fs.SameFrame post ∧
      post.Writing n ensured ∧
      Image.Kept fs.sb (fs.imageWith n inode) (post.imageWith n ensured) n ∧
      (post.imageWith n ensured).contents n = (fs.imageWith n inode).contents n ∧
      ensured.direct bidx ≠ 0 ∧ ensured.size = inode.size ∧
      ∀ b, b ≠ bidx → ensured.direct b = inode.direct b := by
  have layout := hw.wellFormed.layout
  have steady := hw.steady
  by_cases hole : inode.direct bidx = 0
  · rcases allocBlock_cases layout steady with ⟨run, used⟩ | ⟨idx, run, hlt, hc⟩
    · left
      refine ⟨?_, hole, ?_⟩
      · simp only [ensureBlock, if_pos hole, bind_apply, run, if_true, pure_apply]
      rw [freeBlocks, Finset.card_eq_zero, Finset.eq_empty_iff_forall_notMem]
      intro idx mem
      rw [mem_clearBits] at mem
      have isUsed := used idx mem.1
      have isClear : fs.image.blockUsed idx = false := mem.2
      rw [isUsed] at isClear
      exact Bool.noConfusion isClear
    right
    set blk := fs.sb.dataBlockStart + idx with blkDef
    have blkNe : blk ≠ 0 := layout.data_ne_zero (inData_add hlt)
    set attached : Inode :=
      { inode with
        direct := update inode.direct bidx blk
        blocks := if bidx + 1 > inode.blocks then bidx + 1 else inode.blocks } with attachedDef
    have blkLt : blk < 256 ^ 8 := by
      have := layout.addressable
      have power : (256 : Nat) ^ 8 = 2 ^ 64 := by norm_num
      omega
    have att : (fs.imageWith n inode).Attaches blk n bidx attached := by
      refine ⟨hw.inUse, bidxLt, ?_, ?_, ?_, ?_, fun hd => absurd hd hw.notDir⟩
      · rw [imageWith_inode]
        exact hole
      · rw [imageWith_inode]
      · rw [imageWith_inode]
      rw [imageWith_inode]
      show (if bidx + 1 > inode.blocks then bidx + 1 else inode.blocks) =
        max inode.blocks (bidx + 1)
      split <;> omega
    have imageEq : (fs.takeBlock idx).imageWith n attached =
      (fs.imageWith n inode).attach fs.sb n idx attached :=
      imageWith_takeBlock layout hlt
    have kept : Image.Kept fs.sb (fs.imageWith n inode)
      ((fs.takeBlock idx).imageWith n attached) n := by
      rw [imageEq]
      apply kept_attach hw.wellFormed hlt hc att
      · rw [imageWith_inode]
      · rw [imageWith_inode]
      rw [imageWith_inode]
      intro hf
      exact attached_fits hf blkLt bidxLt
    refine ⟨attached, fs.takeBlock idx, ?_, ⟨rfl, rfl, rfl, rfl, rfl⟩, ?_, kept, ?_, ?_, rfl, ?_⟩
    · simp only [ensureBlock, if_pos hole, bind_apply, run, if_neg blkNe, pure_apply, ← attachedDef]
    · have stillUsed : (fs.takeBlock idx).image.InUse n := by
        have := kept.inUse_iff.mpr hw.inUse
        exact this
      exact ⟨steady, kept.wellFormed, stillUsed, mt kept.isDir_iff.mp hw.notDir,
        attached_fits hw.fits blkLt bidxLt⟩
    · rw [imageEq]
      exact contents_attach hw.wellFormed hlt hc att
    · simp only [attachedDef, update_self]
      exact blkNe
    intro b ne
    simp [attachedDef, update_of_ne ne]
  right
  refine ⟨inode, fs, ?_, SameFrame.refl fs, hw, Image.Kept.refl hw.wellFormed, rfl,
    hole, rfl, fun _ _ => rfl⟩
  simp [ensureBlock, if_neg hole, pure_apply]

lemma fillBlock_spec (within chunk : Nat) (bs : Nat → UInt8) (hw : fs.Writing n inode)
    (bidxLt : bidx < 12) (ptr : inode.direct bidx ≠ 0) (fitsBlock : within + chunk ≤ 4096) :
    ∃ post, hnxfsReadBlock (inode.direct bidx) fs = (some (fs.blocks (inode.direct bidx)), fs) ∧
      hnxfsWriteBlock (inode.direct bidx)
        ((fs.blocks (inode.direct bidx)).blit within chunk bs) fs = (0, post) ∧
      fs.SameFrame post ∧ post.Writing n inode ∧
      Image.Kept fs.sb (fs.imageWith n inode) (post.imageWith n inode) n ∧
      ∀ pos, (post.imageWith n inode).contents n pos =
        if bidx * 4096 + within ≤ pos ∧ pos < bidx * 4096 + within + chunk then
          bs (pos - (bidx * 4096 + within))
        else (fs.imageWith n inode).contents n pos := by
  have layout := hw.wellFormed.layout
  have hr : (fs.imageWith n inode).Refers n bidx (inode.direct bidx) := by
    refine ⟨hw.inUse, bidxLt, ?_, ptr⟩
    rw [imageWith_inode]
  have inData := hw.wellFormed.direct_inData _ _ _ hr
  set filled := (fs.blocks (inode.direct bidx)).blit within chunk bs with filledDef
  have imageEq : (fs.putBlock (inode.direct bidx) filled).imageWith n inode =
    (fs.imageWith n inode).putData (inode.direct bidx) filled :=
    imageWith_putBlock layout inData
  have kept : Image.Kept fs.sb (fs.imageWith n inode)
    ((fs.putBlock (inode.direct bidx) filled).imageWith n inode) n := by
    rw [imageEq]
    exact kept_putData hw.wellFormed hw.notDir hr
  refine ⟨fs.putBlock (inode.direct bidx) filled, readBlock_eq hw.steady,
    writeBlock_eq hw.steady, sameFrame_putBlock, ?_, kept, ?_⟩
  · have stillUsed : (fs.putBlock (inode.direct bidx) filled).image.InUse n :=
      kept.inUse_iff.mpr hw.inUse
    exact ⟨hw.steady, kept.wellFormed, stillUsed, mt kept.isDir_iff.mp hw.notDir, hw.fits⟩
  intro pos
  rw [imageEq, contents_putData hw.wellFormed hr]
  by_cases sameBlock : pos / 4096 = bidx
  · rw [if_pos sameBlock]
    by_cases mem : within ≤ pos % 4096 ∧ pos % 4096 < within + chunk
    · have offsetEq : pos % 4096 - within = pos - (bidx * 4096 + within) := by omega
      rw [filledDef, ByteMemory.blit, if_pos mem, if_pos (by omega), offsetEq]
    have pres : bidx < 12 ∧ ((fs.imageWith n inode).inode n).direct bidx ≠ 0 := by
      rw [imageWith_inode]
      exact ⟨bidxLt, ptr⟩
    have dataEq : (fs.imageWith n inode).data (inode.direct bidx) =
      fs.blocks (inode.direct bidx) := image_data inData
    rw [filledDef, ByteMemory.blit, if_neg mem, if_neg (by omega), contents,
      sameBlock, if_pos pres, imageWith_inode, dataEq]
  · rw [if_neg sameBlock, if_neg (by omega)]

def Stops (fs : Hnxfs) (num off size done : Nat) (inode : Inode) : Prop :=
  done = size ∨ 49152 ≤ off + done ∨ inode.direct ((off + done) / 4096) = 0 ∧
      freeBlocks fs.sb (fs.imageWith num inode) = 0

lemma written_step {g mid post : Image} {sb : Superblock} {chunk : Nat} (hn : ¬ g.IsDir n)
    (hw : Image.Written sb g mid n off done src) (kept : Image.Kept sb mid post n)
    (chunkPos : 0 < chunk) (within : (off + done) % 4096 + chunk ≤ 4096)
    (contents : ∀ pos, post.contents n pos =
        if off + done ≤ pos ∧ pos < off + done + chunk then
          src (pos - off)
        else mid.contents n pos) (direct : ∀ b, (post.inode n).direct b ≠ 0 ↔
        (mid.inode n).direct b ≠ 0 ∨ b = (off + done) / 4096) :
      Image.Written sb g post n off (done + chunk) src where
  kept := hw.kept.trans hn kept
  contents pos := by
    rw [contents, hw.contents]
    by_cases now : off + done ≤ pos ∧ pos < off + done + chunk
    · rw [if_pos now, if_pos (by omega)]
    rw [if_neg now]
    by_cases pre : off ≤ pos ∧ pos < off + done
    · rw [if_pos pre, if_pos (by omega)]
    · rw [if_neg pre, if_neg (by omega)]
  direct b := by
    rw [direct, hw.direct]
    constructor
    · rintro ((ptr | ⟨pos, le, lt, blockEq⟩) | blockEq)
      · exact .inl ptr
      · exact .inr ⟨pos, le, by omega, blockEq⟩
      · exact .inr ⟨off + done, by omega, by omega, blockEq.symm⟩
    rintro (ptr | ⟨pos, le, lt, blockEq⟩)
    · exact .inl (.inl ptr)
    by_cases pre : pos < off + done
    · exact .inl (.inr ⟨pos, le, pre, blockEq⟩)
    · exact .inr (by omega)

lemma writeLoop_spec {k : Nat} {g : Image} (writing : fs.Writing n inode)
    (hw : Image.Written fs.sb g (fs.imageWith n inode) n off done src)
    (hn : ¬ g.IsDir n) (offLt : off < 2 ^ 64) (doneLe : done ≤ size)
    (progress : done = 0 ∨ off + done ≤ 49152) (le : size - done ≤ k) :
    ∃ total final post, writeLoop src size off k done inode fs = ((total, final), post) ∧
      fs.SameFrame post ∧ post.Writing n final ∧
      Image.Written fs.sb g (post.imageWith n final) n off total src ∧
      final.size = inode.size ∧ total ≤ size ∧ (total = 0 ∨ off + total ≤ 49152) ∧
      post.Stops n off size total final := by
  induction k generalizing fs inode done with
  | zero =>
    exact ⟨done, inode, fs, rfl, SameFrame.refl fs, writing, hw, rfl, doneLe, progress,
      .inl (by omega)⟩
  | succ k ih =>
    by_cases more : done < size
    · have posEq : u64 (off + done) = off + done := u64_of_lt (by omega)
      by_cases lim : (off + done) / 4096 ≥ 12
      · refine ⟨done, inode, fs, ?_, SameFrame.refl fs, writing, hw, rfl, doneLe, progress,
          .inr (.inl (by omega))⟩
        simp only [writeLoop, if_pos more, posEq, if_pos lim, pure_apply]
      rcases ensureBlock_cases writing ((off + done) / 4096) (by omega) with
        ⟨run, hole, noFree⟩ | ⟨ensured, mid, run, f, ensuredWriting, ensuredKept,
          ensuredContents, ptr, sizeEq, others⟩
      · refine ⟨done, inode, fs, ?_, SameFrame.refl fs, writing, hw, rfl, doneLe, progress,
          .inr (.inr ⟨hole, noFree⟩)⟩
        simp [writeLoop, if_pos more, posEq, if_neg lim, bind_apply, run, pure_apply]
      set chunk := min (4096 - (off + done) % 4096) (size - done) with chunkDef
      have chunkPos : 0 < chunk := by omega
      obtain ⟨next, readRun, writeRun, fillFrame, fillWriting, fillKept, fillContents⟩ :=
        fillBlock_spec ((off + done) % 4096) chunk (fun i => src (done + i))
          ensuredWriting (by omega) ptr (by omega)
      have sbEq := f.sb
      have nextWritten : Image.Written fs.sb g (next.imageWith n ensured) n off
        (done + chunk) src := by
        rw [sbEq] at fillKept
        have bothKept := ensuredKept.trans writing.notDir fillKept
        apply written_step hn hw bothKept chunkPos (by omega)
        · intro pos
          have startEq : (off + done) / 4096 * 4096 + (off + done) % 4096 = off + done := by omega
          rw [fillContents, startEq, ensuredContents]
          by_cases mem : off + done ≤ pos ∧ pos < off + done + chunk
          · have indexEq : done + (pos - (off + done)) = pos - off := by omega
            rw [if_pos mem, if_pos mem, indexEq]
          · rw [if_neg mem, if_neg mem]
        intro b
        rw [imageWith_inode, imageWith_inode]
        by_cases same : b = (off + done) / 4096
        · rw [same]
          exact ⟨fun _ => .inr rfl, fun _ => ptr⟩
        rw [others b same]
        simp [same]
      obtain ⟨total, final, post, r, restFrame, restWriting, restWritten, restSize,
        totalLe, hb, stops⟩ := @ih next (done + chunk) ensured fillWriting
          (by rw [fillFrame.sb, sbEq]; exact nextWritten) (by omega)
          (.inr (by omega)) (by omega)
      rw [fillFrame.sb, sbEq] at restWritten
      refine ⟨total, final, post, ?_, (f.trans fillFrame).trans restFrame, restWriting,
        restWritten, restSize.trans sizeEq, totalLe, hb, stops⟩
      simp only [writeLoop, if_pos more, posEq, if_neg lim, bind_apply, run, readRun,
        ← chunkDef, writeRun, ne_eq, not_true_eq_false, if_false, r]
    refine ⟨done, inode, fs, ?_, SameFrame.refl fs, writing, hw, rfl, doneLe, progress,
      .inl (by omega)⟩
    simp [writeLoop, if_neg more, pure_apply]

lemma extendSize_eq {hr : Nat} :
    extendSize inode hr = { inode with size := max inode.size hr } := by
  rw [extendSize]
  split
  · rw [max_eq_right (by omega)]
  · rw [max_eq_left (by omega)]

lemma int64_of_lt {count : Nat} (hb : count < 2 ^ 63) : int64 count = count := by
  have word : u64 count = count := u64_of_lt (by omega)
  rw [int64, word, if_pos hb]

/-- The bytes it counts are stored, and a short count has a reason. -/
lemma fileWrite_spec (wf : fs.WellFormed) (hs : fs.Steady)
    (hu : fs.image.InUse n) (hn : ¬ fs.image.IsDir n) (offLt : off < 2 ^ 64) :
    ∃ (total : Nat) (post : Hnxfs), hnxfsFileWrite n src size off fs = ((total : Int), post) ∧
      fs.SameFrame post ∧ Image.Written fs.sb fs.image post.image n off total src ∧
      (post.image.inode n).size = max (fs.image.inode n).size (off + total) ∧
      total ≤ size ∧ (total = 0 ∨ off + total ≤ 49152) ∧
      (total = size ∨ 49152 ≤ off + total ∨ (post.image.inode n).direct ((off + total) / 4096) = 0 ∧
          freeBlocks fs.sb post.image = 0) := by
  have numNe := ne_zero_of_inUse hu
  have numLt := lt_of_inUse hu
  have writing : fs.Writing n (fs.image.inode n) := by
    refine ⟨hs, ?_, hu, ?_, image_inode_fits⟩
    · rw [imageWith_self]
      exact wf
    rw [imageWith_self]
    exact hn
  have started : Image.Written fs.sb fs.image (fs.imageWith n (fs.image.inode n)) n off 0
    src := by
    rw [imageWith_self]
    exact Image.Written.refl wf
  obtain ⟨total, final, loop, run, f, loopWriting, hw, sizeEq, totalLe, hb, stops⟩ :=
    @writeLoop_spec fs n off size 0 (fs.image.inode n) src size fs.image writing started
      hn offLt (Nat.zero_le _) (.inl rfl) (by omega)
  have hr : u64 (off + total) = off + total := u64_of_lt (by omega)
  have cnt : int64 total = total := int64_of_lt (by omega)
  have loopLt : n < loop.sb.inodeCount := by
    rw [f.sb]
    exact numLt
  set newSize := max final.size (off + total) with newSizeDef
  have newSizeLt : newSize < 256 ^ 8 := by
    have := loopWriting.fits.size_lt
    have power : (256 : Nat) ^ 8 = 2 ^ 64 := by norm_num
    omega
  have hf : ({ final with size := newSize } : Inode).Fits :=
    { loopWriting.fits with size_lt := newSizeLt }
  have imageEq : (loop.setInode n { final with size := newSize }).image =
    (loop.imageWith n final).withInode n
      { (loop.imageWith n final).inode n with size := newSize } := by
    rw [image_setInode loopWriting.wellFormed.layout loopLt hf, imageWith_inode]
    simp [imageWith, withInode]
  have resized : Image.Kept fs.sb (loop.imageWith n final)
    (loop.setInode n { final with size := newSize }).image n := by
    rw [imageEq]
    exact kept_resize (f.sb ▸ loopWriting.wellFormed) newSizeLt
  have inoEq : (loop.setInode n { final with size := newSize }).image.inode n =
    { final with size := newSize } := by
    rw [imageEq, imageWith_inode]
    simp [withInode]
  refine ⟨total, loop.setInode n { final with size := newSize }, ?_,
    f.trans ⟨rfl, rfl, rfl, rfl, rfl⟩,
    ⟨hw.kept.trans hn resized, ?_, ?_⟩, ?_, totalLe, hb, ?_⟩
  · simp only [hnxfsFileWrite, bind_apply, readInode_eq hs numNe numLt, run, hr,
      extendSize_eq, ← newSizeDef, writeInode_eq loopWriting.steady numNe loopLt, pure_apply, cnt]
  · intro pos
    rw [imageEq, contents_resize, hw.contents]
  · intro b
    rw [inoEq, ← hw.direct b, imageWith_inode]
  · rw [inoEq, newSizeDef, sizeEq]
  rw [inoEq]
  rcases stops with all | lim | ⟨hole, noFree⟩
  · exact .inl all
  · exact .inr (.inl lim)
  refine .inr (.inr ⟨hole, ?_⟩)
  rw [imageEq, ← f.sb]
  exact noFree

end Hnxfs

end HnxKernel
