import Hnx.HnxfsRuns

/-!
# What files contain

Reads return the contents of a file, writes and truncations change them as the
calls say, and no call on one file touches another one.
-/

namespace HnxKernel

section

open Function Image
open HnxfsM

namespace Hnxfs

variable {fs : Hnxfs} {n size off done : Nat} {buf dst : ByteMemory} {inode : Inode}

variable {pos o c dir : Nat} {g post : Image} {sb : Superblock} {name : FileName}
  {type : VnodeType} {bytes : FileBytes}

lemma contents_hole (wf : fs.WellFormed) (hu : fs.image.InUse n)
    (skipped : pos / 4096 ≥ (fs.image.inode n).blocks ∨
      (fs.image.inode n).direct (pos / 4096) = 0) : fs.image.contents n pos = 0 := by
  rw [contents, if_neg]
  rintro ⟨mem, ptr⟩
  rcases skipped with beyond | hole
  · have below := wf.direct_lt n _ _ ⟨hu, mem, rfl, ptr⟩
    omega
  · exact ptr hole

lemma contents_block (wf : fs.WellFormed) (hu : fs.image.InUse n)
    (read : ¬ (pos / 4096 ≥ (fs.image.inode n).blocks ∨
      (fs.image.inode n).direct (pos / 4096) = 0)) :
    fs.image.contents n pos = fs.blocks ((fs.image.inode n).direct (pos / 4096)) (pos % 4096) := by
  push Not at read
  have mem : pos / 4096 < 12 := lt_of_lt_of_le read.1 (wf.blocks_le n hu)
  have inData := wf.direct_inData n _ _ ⟨hu, mem, rfl, read.2⟩
  rw [contents, if_pos ⟨mem, read.2⟩, image_data inData]

lemma blit_filled {chunk : Nat} {contents bytes : Nat → UInt8}
    (filled : ∀ k, dst k = if k < done then contents (off + k) else buf k)
    (bytesEq : ∀ k < chunk, bytes k = contents (off + done + k)) (k : Nat) :
    dst.blit done chunk bytes k = if k < done + chunk then contents (off + k) else buf k := by
  by_cases now : done ≤ k ∧ k < done + chunk
  · have indexEq : off + done + (k - done) = off + k := by omega
    rw [ByteMemory.blit, if_pos now, if_pos now.2, bytesEq _ (by omega), indexEq]
  rw [ByteMemory.blit, if_neg now, filled]
  by_cases pre : k < done
  · rw [if_pos pre, if_pos (by omega)]
  · rw [if_neg pre, if_neg (by omega)]

lemma readLoop_spec {fuel : Nat} (wf : fs.WellFormed) (h : fs.Steady)
    (hu : fs.image.InUse n) (doneLe : done ≤ size) (endLt : off + size < 2 ^ 64)
    (enough : size - done ≤ fuel)
    (filled : ∀ k, dst k = if k < done then fs.image.contents n (off + k) else buf k) :
    ∃ res, readLoop (fs.image.inode n) size off fuel done dst fs = ((size, res), fs) ∧
      ∀ k, res k = if k < size then fs.image.contents n (off + k) else buf k := by
  induction fuel generalizing done dst with
  | zero =>
    have all : done = size := by omega
    subst all
    exact ⟨dst, rfl, filled⟩
  | succ _ ih =>
    by_cases more : done < size
    · have posEq : u64 (off + done) = off + done := u64_of_lt (by omega)
      set chunk := min (4096 - (off + done) % 4096) (size - done) with chunkDef
      have sameBlock : ∀ k < chunk, (off + done + k) / 4096 = (off + done) / 4096 := by
        intro k kLt
        omega
      by_cases skipped : (off + done) / 4096 ≥ (fs.image.inode n).blocks ∨
          (fs.image.inode n).direct ((off + done) / 4096) = 0
      · have zeros : ∀ k < chunk, (0 : UInt8) = fs.image.contents n (off + done + k) := by
          intro k kLt
          rw [contents_hole wf hu (by rwa [sameBlock k kLt])]
        obtain ⟨res, run, resEq⟩ := @ih (done + chunk) (dst.blit done chunk fun _ => 0)
          (by omega) (by omega) (blit_filled filled zeros)
        refine ⟨res, ?_, resEq⟩
        simp [readLoop, if_pos more, posEq, if_pos skipped, ← chunkDef, run]
      have bytes : ∀ k < chunk, fs.blocks ((fs.image.inode n).direct ((off + done) / 4096))
          ((off + done) % 4096 + k) = fs.image.contents n (off + done + k) := by
        intro k kLt
        have withinEq : (off + done + k) % 4096 = (off + done) % 4096 + k := by omega
        rw [contents_block wf hu (by rwa [sameBlock k kLt]), sameBlock k kLt, withinEq]
      obtain ⟨res, run, resEq⟩ := @ih (done + chunk)
        (dst.blit done chunk fun i =>
          fs.blocks ((fs.image.inode n).direct ((off + done) / 4096))
            ((off + done) % 4096 + i))
        (by omega) (by omega) (blit_filled filled bytes)
      refine ⟨res, ?_, resEq⟩
      simp [readLoop, if_pos more, posEq, if_neg skipped, bind_apply,
        readBlock_eq h, ← chunkDef, run]
    have all : done = size := by omega
    subst all
    refine ⟨dst, ?_, filled⟩
    simp [readLoop, pure_apply]

lemma fileRead_spec (wf : fs.WellFormed) (h : fs.Steady) (hu : fs.image.InUse n) :
    ∃ res, hnxfsFileRead n buf size off fs =
        ((int64 (min size ((fs.image.inode n).size - off)), res), fs) ∧
      ∀ k, res k = if k < min size ((fs.image.inode n).size - off) then
        fs.image.contents n (off + k) else buf k := by
  have numNe := ne_zero_of_inUse hu
  have numLt := lt_of_inUse hu
  by_cases beyond : off ≥ (fs.image.inode n).size
  · have none : min size ((fs.image.inode n).size - off) = 0 := by omega
    refine ⟨buf, ?_, ?_⟩
    · rw [none]
      simp only [hnxfsFileRead, bind_apply, readInode_eq h numNe numLt, if_pos beyond, pure_apply]
      rfl
    intro k
    rw [none, if_neg (Nat.not_lt_zero k)]
  have sizeLt := (@image_inode_fits fs n).size_lt
  have power : (256 : Nat) ^ 8 = 2 ^ 64 := by norm_num
  set cnt := min size ((fs.image.inode n).size - off) with countDef
  obtain ⟨res, run, resEq⟩ := @readLoop_spec fs n cnt off 0 buf buf cnt wf
    h hu (Nat.zero_le _) (by omega) (by omega) (by simp)
  refine ⟨res, ?_, resEq⟩
  simp only [hnxfsFileRead, bind_apply, readInode_eq h numNe numLt, if_neg beyond,
    ← countDef, run, pure_apply]

lemma contents_empty : (g.empty sb n (emptied inode)).contents n = fun _ => 0 := by
  funext pos
  rw [contents, if_neg]
  simp [empty, emptied]

lemma contents_empty_of_ne (ne : o ≠ n) : (g.empty sb n inode).contents o = g.contents o := by
  apply contents_congr
  · intro b bLt
    simp [empty, update_of_ne ne]
  intro b bLt ptr
  rfl

lemma contents_link {blk s : Nat} :
    (g.link blk s c name (newInode type)).contents c = fun _ => 0 := by
  funext pos
  rw [contents, if_neg]
  simp [link, newInode]

lemma Grown.inUse_iff {h : Image} (hg : Grown sb g dir h) : h.InUse o ↔ g.InUse o := by
  cases hg with
  | same => rfl
  | attached => rfl

lemma Created.contents_child (made : fs.Created dir c name type post) :
    post.contents c = fun _ => 0 := by
  obtain ⟨g, b, s, hg, links, rfl⟩ := made.exists_link
  exact contents_link

lemma Created.inUse_iff (made : fs.Created dir c name type post) :
    post.InUse o ↔ fs.image.InUse o ∨ o = c := by
  obtain ⟨g, b, s, hg, links, rfl⟩ := made.exists_link
  rw [link_inUse links, hg.inUse_iff]

lemma vCreate_contents {outp : Bool} (wf : fs.WellFormed) (h : fs.Steady)
    (hu : fs.image.InUse dir) (ne0 : (0 : UInt8) ∉ name) (notDots : ¬ name.Dots)
    (isNew : (vCreate dir name type outp fs).2.image.InUse n) (wasNot : ¬ fs.image.InUse n) :
    (vCreate dir name type outp fs).2.image.contents n = fun _ => 0 := by
  rcases vCreate_cases wf h hu ne0 notDots outp with
    ⟨run, -⟩ | ⟨-, run, -⟩ | ⟨-, c, post, avail, run, f, imageEq, -⟩ |
    ⟨-, c, post, avail, f, made, run⟩
  · rw [run] at isNew
    exact absurd isNew wasNot
  · rw [run] at isNew
    exact absurd isNew wasNot
  · rw [run, imageEq] at isNew
    exact absurd isNew wasNot
  have imageEq : (vCreate dir name type outp fs).2.image = post.image := by
    rw [run]
    cases outp with
    | false => rfl
    | true => exact (sameVolume_getVnode (h.of_sameFrame f)).image
  rw [imageEq] at isNew ⊢
  rcases made.inUse_iff.mp isNew with old | rfl
  · exact absurd old wasNot
  · exact made.contents_child

inductive FileCall where
  | write (num : Nat) (buf : ByteMemory) (size offset : Nat)
  | truncate (num : Nat)
  | read (num : Nat) (buf : ByteMemory) (size offset : Nat)

abbrev FileBytes := Nat → Nat → UInt8

structure Answer where
  result : Int
  buffer : ByteMemory

def answer (fs : Hnxfs) : FileCall → Answer × Hnxfs
  | .write n buf size off =>
    (⟨(hnxfsFileWrite n buf size off fs).1, buf⟩, (hnxfsFileWrite n buf size off fs).2)
  | .truncate n => (⟨0, zeroBlock⟩, (hnxfsFileTruncate n fs).2)
  | .read n buf size off =>
    (⟨(hnxfsFileRead n buf size off fs).1.1, (hnxfsFileRead n buf size off fs).1.2⟩,
      (hnxfsFileRead n buf size off fs).2)

def FileCall.Valid (fs : Hnxfs) : FileCall → Prop
  | .write n _ _ off => fs.IsFile n ∧ off < 2 ^ 64
  | .truncate n => fs.IsFile n
  | .read n _ _ _ => fs.IsFile n

def ValidFileRun : Hnxfs → List FileCall → Prop
  | _, [] => True
  | fs, call :: rest => call.Valid fs ∧ ValidFileRun (fs.answer call).2 rest

def FileBytes.updated (bytes : FileBytes) : FileCall → Int → FileBytes
  | .write n buf _ off, res =>
    update bytes n fun pos =>
      if off ≤ pos ∧ pos < off + res.toNat then buf (pos - off)
      else bytes n pos
  | .truncate n, _ => update bytes n fun _ => 0
  | .read _ _ _ _, _ => bytes

def FileBytes.Allows (fs : Hnxfs) (bytes : FileBytes) : FileCall → Answer → Prop
  | .write _ _ size _, answer => 0 ≤ answer.result ∧ answer.result ≤ size
  | .truncate _, _ => True
  | .read n buf size off, answer =>
    answer.result = int64 (min size ((fs.image.inode n).size - off)) ∧ ∀ k, answer.buffer k =
        if k < min size ((fs.image.inode n).size - off) then bytes n (off + k)
        else buf k

def Conforms : Hnxfs → FileBytes → List FileCall → Prop
  | fs, bytes, [] => ∀ n, fs.IsFile n → fs.image.contents n = bytes n
  | fs, bytes, call :: rest =>
    (∀ n, fs.IsFile n → fs.image.contents n = bytes n) ∧ bytes.Allows fs call (fs.answer call).1 ∧
      Conforms (fs.answer call).2 (bytes.updated call (fs.answer call).1.result) rest

structure Holds (fs : Hnxfs) (bytes : FileBytes) : Prop where
  sound : fs.Sound
  contents : ∀ n, fs.IsFile n → fs.image.contents n = bytes n

section
variable (hh : fs.Holds bytes)
include hh

lemma Holds.write (isFile : fs.IsFile n) (offsetLt : off < 2 ^ 64) :
    bytes.Allows fs (.write n buf size off) (fs.answer (.write n buf size off)).1 ∧
      (fs.answer (.write n buf size off)).2.Holds
        (bytes.updated (.write n buf size off)
          (fs.answer (.write n buf size off)).1.result) := by
  obtain ⟨total, post, run, f, hw, -, totalLe, -⟩ := @fileWrite_spec fs n off size
    buf hh.sound.wellFormed hh.sound.steady isFile.1 isFile.notDir offsetLt
  have kept := hw.kept
  simp only [answer, run, FileBytes.Allows, FileBytes.updated, Int.toNat_natCast]
  refine ⟨⟨Int.natCast_nonneg total, Int.ofNat_le.mpr totalLe⟩,
    ⟨hh.sound.of_sameFrame f kept.wellFormed, ?_⟩⟩
  rintro o ⟨otherUsed, otherType⟩
  have wasUsed := kept.inUse_iff.mp otherUsed
  by_cases same : o = n
  · subst same
    funext pos
    rw [hw.contents, update_self, hh.contents o isFile]
  rw [kept.others o same] at otherType
  rw [update_of_ne same, kept.otherContents o wasUsed same]
  exact hh.contents o ⟨wasUsed, otherType⟩

lemma Holds.truncate (isFile : fs.IsFile n) : (fs.answer (.truncate n)).2.Holds
    (bytes.updated (.truncate n) (fs.answer (.truncate n)).1.result) := by
  obtain ⟨post, run, f, imageEq⟩ := fileTruncate_eq hh.sound.wellFormed hh.sound.steady isFile.1
  simp only [answer, run, FileBytes.updated]
  refine ⟨hh.sound.of_sameFrame f ?_, ?_⟩
  · rw [imageEq]
    exact hh.sound.wellFormed.empty isFile.empties
  rintro o ⟨otherUsed, otherType⟩
  rw [imageEq] at otherUsed otherType ⊢
  by_cases same : o = n
  · subst same
    rw [contents_empty, update_self]
  rw [contents_empty_of_ne same, update_of_ne same]
  rw [empty_inode_of_ne same] at otherType
  exact hh.contents o ⟨otherUsed, otherType⟩

lemma Holds.step {call : FileCall} (hv : call.Valid fs) : bytes.Allows fs call (fs.answer call).1 ∧
    (fs.answer call).2.Holds (bytes.updated call (fs.answer call).1.result) := by
  cases call with
  | write => exact hh.write hv.1 hv.2
  | truncate => exact ⟨trivial, hh.truncate hv⟩
  | read n buf size off =>
    obtain ⟨res, run, resEq⟩ := @fileRead_spec fs n size off buf
      hh.sound.wellFormed hh.sound.steady hv.1
    simp only [answer, run, FileBytes.Allows, FileBytes.updated, true_and]
    refine ⟨?_, hh⟩
    intro k
    rw [resEq, hh.contents n hv]

lemma Holds.conforms {calls : List FileCall}
    (hv : ValidFileRun fs calls) : Conforms fs bytes calls := by
  induction calls generalizing fs bytes with
  | nil => exact hh.contents
  | cons _ _ ih =>
    obtain ⟨allows, next⟩ := hh.step hv.1
    exact ⟨hh.contents, allows, ih next hv.2⟩

end

/-- Runs of reads, writes and truncations conform to the bytes the files hold. -/
theorem fileRun_conforms (wf : fs.WellFormed) (h : fs.Steady)
    (calls : List FileCall) (hv : ValidFileRun fs calls) : Conforms fs fs.image.contents calls ∧
      ∀ dir name type outp, (Call.create dir name type outp).Valid fs →
        ∀ n, (vCreate dir name type outp fs).2.image.InUse n → ¬ fs.image.InUse n →
          (vCreate dir name type outp fs).2.image.contents n = fun _ => 0 := by
  constructor
  · exact Holds.conforms ⟨⟨wf, h⟩, fun _ _ => rfl⟩ hv
  rintro dir name type outp ⟨hu, nonzero, notDots⟩ n isNew wasNot
  exact vCreate_contents wf h hu nonzero notDots isNew wasNot

def oneFile : Hnxfs := (vCreate 1 [97] .file false freshVolume).2

def holeCalls : List FileCall :=
  [.write 2 (fun _ => 7) 10 4090, .read 2 zeroBlock 20 4085, .truncate 2]

lemma oneFile_sound : oneFile.Sound := by
  apply Sound.create ⟨freshVolume_wellFormed, freshVolume_steady⟩ _ (by decide) (by decide)
  exact ⟨le_rfl, by decide +kernel⟩

theorem holeCalls_conform :
    ValidFileRun oneFile holeCalls ∧ Conforms oneFile oneFile.image.contents holeCalls := by
  have hv : ValidFileRun oneFile holeCalls := by
    refine ⟨⟨⟨⟨by decide, ?_⟩, ?_⟩, by decide⟩, ⟨⟨by decide, ?_⟩, ?_⟩, ⟨⟨by decide, ?_⟩, ?_⟩,
      trivial⟩
    all_goals decide +kernel
  exact ⟨hv, (fileRun_conforms oneFile_sound.wellFormed oneFile_sound.steady holeCalls
    hv).1⟩

end Hnxfs

end

open HnxfsM

namespace Hnxfs

variable {fs : Hnxfs} {n size off done bidx : Nat} {src : ByteMemory} {inode : Inode}

def HasFreeBlock (fs : Hnxfs) : Prop := ∃ idx < fs.sb.dataBlockCount, fs.image.blockUsed idx = false

def Reaches (fs : Hnxfs) (inode : Inode) (bidx : Nat) : Prop :=
  inode.direct bidx ≠ 0 ∨ fs.HasFreeBlock

lemma ensureBlock_any (lay : fs.sb.Layout) (h : fs.Steady) (hf : inode.Fits) (bidxLt : bidx < 12) :
    (ensureBlock inode bidx fs = (none, fs) ∧ ¬ fs.Reaches inode bidx) ∨
    ∃ ensured post, ensureBlock inode bidx fs = (some ensured, post) ∧ fs.SameFrame post ∧
      ensured.Fits ∧ ensured.size = inode.size ∧ fs.Reaches inode bidx := by
  by_cases hole : inode.direct bidx = 0
  · rcases allocBlock_cases lay h with ⟨run, used⟩ | ⟨i, run, hlt, hc⟩
    · left
      refine ⟨?_, ?_⟩
      · simp only [ensureBlock, if_pos hole, bind_apply, run, if_true, pure_apply]
      rintro (ptr | ⟨i, hlt, hc⟩)
      · exact ptr hole
      rw [used i hlt] at hc
      exact Bool.noConfusion hc
    right
    have blkNe : fs.sb.dataBlockStart + i ≠ 0 := lay.data_ne_zero (inData_add hlt)
    have blkLt : fs.sb.dataBlockStart + i < 256 ^ 8 := by
      have := lay.addressable
      have power : (256 : Nat) ^ 8 = 2 ^ 64 := by norm_num
      omega
    refine ⟨_, fs.takeBlock i, ?_, ⟨rfl, rfl, rfl, rfl, rfl⟩,
      attached_fits hf blkLt bidxLt, rfl, .inr ⟨i, hlt, hc⟩⟩
    simp only [ensureBlock, if_pos hole, bind_apply, run, if_neg blkNe, pure_apply]
  right
  refine ⟨inode, fs, ?_, SameFrame.refl fs, hf, rfl, .inl hole⟩
  simp [ensureBlock, if_neg hole, pure_apply]

/-- The loop keeps the size in its copy of the inode, whatever the blocks hold. -/
lemma writeLoop_any {k : Nat} (lay : fs.sb.Layout) (h : fs.Steady)
    (hf : inode.Fits) (offLt : off < 2 ^ 64) (doneLe : done ≤ size)
    (progress : done = 0 ∨ off + done ≤ 49152) (le : size - done ≤ k) :
    ∃ total final post, writeLoop src size off k done inode fs = ((total, final), post) ∧
      fs.SameFrame post ∧ final.Fits ∧ final.size = inode.size ∧ done ≤ total ∧
      (total = 0 ∨ off + total ≤ 49152) ∧
      (done = total ↔ done = size ∨ 49152 ≤ off + done ∨
        ¬ fs.Reaches inode ((off + done) / 4096)) := by
  induction k generalizing fs inode done with
  | zero =>
    refine ⟨done, inode, fs, rfl, SameFrame.refl fs, hf, rfl, le_rfl, progress, ?_⟩
    simp only [true_iff]
    exact .inl (by omega)
  | succ k ih =>
    by_cases more : done < size
    · have posEq : u64 (off + done) = off + done := u64_of_lt (by omega)
      by_cases lim : (off + done) / 4096 ≥ 12
      · refine ⟨done, inode, fs, ?_, SameFrame.refl fs, hf, rfl, le_rfl, progress, ?_⟩
        · simp only [writeLoop, if_pos more, posEq, if_pos lim, pure_apply]
        simp only [true_iff]
        exact .inr (.inl (by omega))
      rcases ensureBlock_any lay h hf (show (off + done) / 4096 < 12 by omega) with
        ⟨run, out⟩ | ⟨ensured, mid, run, f, ensuredFits, sizeEq, reaches⟩
      · refine ⟨done, inode, fs, ?_, SameFrame.refl fs, hf, rfl, le_rfl, progress, ?_⟩
        · simp [writeLoop, if_pos more, posEq, if_neg lim, bind_apply, run, pure_apply]
        simp only [true_iff]
        exact .inr (.inr out)
      set chunk := min (4096 - (off + done) % 4096) (size - done) with chunkDef
      have middleSteady := h.of_sameFrame f
      set filled := (mid.blocks (ensured.direct ((off + done) / 4096))).blit
        ((off + done) % 4096) chunk (fun i => src (done + i)) with filledDef
      have nextLayout : (mid.putBlock (ensured.direct ((off + done) / 4096))
        filled).sb.Layout := by
        show mid.sb.Layout
        rw [f.sb]
        exact lay
      have nextSteady : (mid.putBlock (ensured.direct ((off + done) / 4096))
        filled).Steady := middleSteady
      obtain ⟨total, final, post, r, restFrame, finalFits, finalSize, totalLe, hb,
        -⟩ := @ih (mid.putBlock (ensured.direct ((off + done) / 4096)) filled)
          (done + chunk) ensured nextLayout nextSteady ensuredFits (by omega)
          (.inr (by omega)) (by omega)
      refine ⟨total, final, post, ?_, (f.trans sameFrame_putBlock).trans restFrame,
        finalFits, finalSize.trans sizeEq, by omega, hb, ?_⟩
      · simp only [writeLoop, if_pos more, posEq, if_neg lim, bind_apply, run,
          readBlock_eq middleSteady, ← chunkDef, ← filledDef, writeBlock_eq middleSteady,
          ne_eq, not_true_eq_false, if_false, r]
      constructor
      · intro none
        omega
      rintro (all | beyond | out)
      · omega
      · omega
      · exact absurd reaches out
    refine ⟨done, inode, fs, ?_, SameFrame.refl fs, hf, rfl, le_rfl, progress, ?_⟩
    · simp [writeLoop, if_neg more, pure_apply]
    simp only [true_iff]
    exact .inl (by omega)

lemma fileWrite_size (lay : fs.sb.Layout) (h : fs.Steady) (pos : n ≠ 0)
    (numLt : n < fs.sb.inodeCount) (offLt : off < 2 ^ 64) :
    ∃ (total : Nat) (post : Hnxfs), hnxfsFileWrite n src size off fs = ((total : Int), post) ∧
      (post.image.inode n).size = max (fs.image.inode n).size (off + total) ∧
      (total = 0 ∨ off + total ≤ 49152) ∧
      (total = 0 ↔ size = 0 ∨ 49152 ≤ off ∨ ¬ fs.Reaches (fs.image.inode n) (off / 4096)) := by
  obtain ⟨total, final, loop, run, f, finalFits, finalSize, -, hb, stalls⟩ :=
    @writeLoop_any fs size off 0 src (fs.image.inode n) size lay h image_inode_fits
      offLt (Nat.zero_le _) (.inl rfl) (by omega)
  have hr : u64 (off + total) = off + total := u64_of_lt (by omega)
  have cnt : int64 total = total := int64_of_lt (by omega)
  have loopLt : n < loop.sb.inodeCount := by
    rw [f.sb]
    exact numLt
  have loopSteady := h.of_sameFrame f
  set newSize := max final.size (off + total) with newSizeDef
  have hf : ({ final with size := newSize } : Inode).Fits := by
    have := finalFits.size_lt
    have power : (256 : Nat) ^ 8 = 2 ^ 64 := by norm_num
    exact { finalFits with size_lt := by dsimp only; omega }
  refine ⟨total, loop.setInode n { final with size := newSize }, ?_, ?_, hb, ?_⟩
  · simp only [hnxfsFileWrite, bind_apply, readInode_eq h pos numLt, run, hr,
      extendSize_eq, ← newSizeDef, writeInode_eq loopSteady pos loopLt, pure_apply, cnt]
  · have stored : (loop.setInode n { final with size := newSize }).image.inode n =
      { final with size := newSize } := by
      rw [image_setInode (f.sb ▸ lay) loopLt hf]
      exact Function.update_self _ _ _
    rw [stored, newSizeDef, finalSize]
  simp only [Nat.add_zero] at stalls
  constructor
  · intro none
    rcases stalls.mp none.symm with all | r
    · exact .inl all.symm
    · exact .inr r
  rintro (all | r)
  · exact (stalls.mpr (.inl all.symm)).symm
  · exact (stalls.mpr (.inr r)).symm

def SizeFollowsWrite (fs : Hnxfs) (num : Nat) (src : ByteMemory) (size off : Nat) : Prop :=
  let oldSize := (fs.image.inode num).size
  let stored := (hnxfsFileWrite num src size off fs).1
  let newSize := ((hnxfsFileWrite num src size off fs).2.image.inode num).size
  (0 < stored → (newSize : Int) = max (oldSize : Int) (off + stored)) ∧
    (stored = 0 → newSize = oldSize) ∧ newSize ≤ 49152

instance {fs : Hnxfs} {num size off : Nat} {src : ByteMemory} :
    Decidable (fs.SizeFollowsWrite num src size off) :=
  inferInstanceAs (Decidable (_ ∧ _ ∧ _))

/-- The size follows a write, exactly if the offset is not beyond the old size or a byte
is stored. -/
theorem fileWrite_size_iff (lay : fs.sb.Layout) (h : fs.Steady) (isFile : fs.IsFile n)
    (sizeLe : (fs.image.inode n).size ≤ 12 * 4096) (offLt : off < 2 ^ 64) :
    fs.SizeFollowsWrite n src size off ↔ off ≤ (fs.image.inode n).size ∨ 0 < size ∧
      off < 12 * 4096 ∧
          ((fs.image.inode n).direct (off / 4096) ≠ 0 ∨ fs.HasFreeBlock) := by
  obtain ⟨total, post, run, sizeEq, hb, stalls⟩ :=
    @fileWrite_size fs n size off src lay h (ne_zero_of_inUse isFile.1)
      (lt_of_inUse isFile.1) offLt
  have stores : 0 < size ∧ off < 12 * 4096 ∧
    ((fs.image.inode n).direct (off / 4096) ≠ 0 ∨ fs.HasFreeBlock) ↔ total ≠ 0 := by
    rw [Ne.eq_1 total 0, stalls]
    constructor
    · rintro ⟨sizePos, below, reaches⟩ (none | beyond | out)
      · omega
      · omega
      · exact out reaches
    intro blocked
    push Not at blocked
    exact ⟨by omega, by omega, blocked.2.2⟩
  rw [stores]
  simp only [SizeFollowsWrite, run, sizeEq]
  constructor
  · rintro ⟨-, same, -⟩
    by_cases none : total = 0
    · left
      have unchanged := same (by simp [none])
      omega
    · exact .inr none
  rintro (within | stored)
  · refine ⟨fun _ => by push_cast; rfl, ?_, by omega⟩
    intro none
    have : total = 0 := by exact_mod_cast none
    omega
  refine ⟨fun _ => by push_cast; rfl, ?_, by omega⟩
  intro none
  exact absurd (by exact_mod_cast none) stored

theorem oneFile_size_iff : oneFile.IsFile 2 ∧ (oneFile.SizeFollowsWrite 2 (fun _ => 7) 10 4090 ↔
    4090 ≤ (oneFile.image.inode 2).size ∨ 0 < 10 ∧ 4090 < 12 * 4096 ∧
      ((oneFile.image.inode 2).direct (4090 / 4096) ≠ 0 ∨ oneFile.HasFreeBlock)) := by
  have isFile : oneFile.IsFile 2 := ⟨⟨by decide, by decide +kernel⟩, by decide +kernel⟩
  exact ⟨isFile, fileWrite_size_iff oneFile_sound.wellFormed.layout oneFile_sound.steady isFile
    (by decide +kernel) (by decide)⟩

/-- One byte at offset 1000000 of an empty file stores nothing. -/
theorem farWrite_grows : (hnxfsFileWrite 2 (fun _ => 7) 1 1000000 oneFile).1 = 0 ∧
    ((hnxfsFileWrite 2 (fun _ => 7) 1 1000000 oneFile).2.image.inode 2).size = 1000000 ∧
    ¬ oneFile.SizeFollowsWrite 2 (fun _ => 7) 1 1000000 := by
  decide +kernel

end Hnxfs

end HnxKernel
