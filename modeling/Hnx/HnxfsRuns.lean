import Hnx.HnxfsWrites

/-!
# Runs of the driver

Any sequence of `v_create`, `v_unlink`, `hnxfs_file_write` and
`hnxfs_file_truncate` keeps the ownership invariant of the volume.
-/

namespace HnxKernel

section

open HnxfsM

namespace Hnxfs

variable {fs post : Hnxfs} {n s : Nat}

structure SameVolume (pre after : Hnxfs) : Prop where
  sb : after.sb = pre.sb
  blocks : after.blocks = pre.blocks
  faults : after.faults = pre.faults

lemma SameVolume.refl (fs : Hnxfs) : fs.SameVolume fs := ⟨rfl, rfl, rfl⟩

lemma SameVolume.trans {fst snd third : Hnxfs} (left : fst.SameVolume snd)
    (right : snd.SameVolume third) : fst.SameVolume third :=
  ⟨right.sb.trans left.sb, right.blocks.trans left.blocks, right.faults.trans left.faults⟩

lemma SameVolume.image (same : fs.SameVolume post) : post.image = fs.image := by
  rw [Hnxfs.image, same.sb, same.blocks, Hnxfs.image]

lemma SameVolume.steady (same : fs.SameVolume post) (h : fs.Steady) : post.Steady :=
  same.faults.trans h

def newSlot (fs : Hnxfs) (num : Nat) : Nat :=
  if fs.vnodeCount < 64 then fs.vnodeCount else num % 64

def claimed (fs : Hnxfs) : Hnxfs :=
  if fs.vnodeCount < 64 then { fs with vnodeCount := fs.vnodeCount + 1 } else fs

def refreshed (fs : Hnxfs) (slot num : Nat) : Hnxfs :=
  fs.setVnode slot
    { fs.vnodes slot with
      type := typeOf (fs.image.inode num).type
      size := (fs.image.inode num).size }

def entered (fs : Hnxfs) (slot num : Nat) : Hnxfs :=
  { fs.setVnode slot ⟨typeOf (fs.image.inode num).type, (fs.image.inode num).size, num⟩ with
    vnodeInode := Function.update fs.vnodeInode slot num }

lemma claimSlot_eq : claimSlot n fs = (fs.newSlot n, fs.claimed) := by
  rw [newSlot, claimed]
  by_cases room : fs.vnodeCount < 64
  · rw [if_pos room, if_pos room]
    show (if fs.vnodeCount < 64 then _ else _ : HnxfsM _) fs = _
    simp only [if_pos room, bind_apply, set_apply, pure_apply]
  rw [if_neg room, if_neg room]
  show (if fs.vnodeCount < 64 then _ else _ : HnxfsM _) fs = _
  simp [if_neg room, pure_apply]

lemma sameVolume_claimed : fs.SameVolume fs.claimed := by
  rw [claimed]
  split
  · exact ⟨rfl, rfl, rfl⟩
  · exact SameVolume.refl fs

lemma sameVolume_refreshed : fs.SameVolume (fs.refreshed s n) := ⟨rfl, rfl, rfl⟩

lemma sameVolume_entered : fs.SameVolume (fs.entered s n) := ⟨rfl, rfl, rfl⟩

lemma getVnode_cached (h : fs.Steady) (pos : n ≠ 0)
    (numLt : n < fs.sb.inodeCount) (hit : fs.cached n = some s) :
    hnxfsGetVnode n fs = (some s, fs.refreshed s n) := by
  simp only [hnxfsGetVnode, bind_apply, get_apply, hit, readInode_eq h pos numLt,
    modify_apply, pure_apply, refreshed]

lemma getVnode_uncached (h : fs.Steady) (pos : n ≠ 0)
    (numLt : n < fs.sb.inodeCount) (miss : fs.cached n = none) :
    hnxfsGetVnode n fs = (some (fs.newSlot n), fs.claimed.entered (fs.newSlot n) n) := by
  have volume := @sameVolume_claimed fs
  have claimedLt : n < fs.claimed.sb.inodeCount := by
    rw [volume.sb]
    exact numLt
  simp only [hnxfsGetVnode, bind_apply, get_apply, miss, claimSlot_eq,
    readInode_eq (volume.steady h) pos claimedLt, modify_apply, pure_apply, entered]

lemma getVnode_invalid (invalid : n = 0 ∨ fs.sb.inodeCount ≤ n) :
    (∃ s, fs.cached n = some s ∧ hnxfsGetVnode n fs = (some s, fs)) ∨
    (fs.cached n = none ∧ hnxfsGetVnode n fs = (none, fs.claimed)) := by
  have claimedInvalid : n = 0 ∨ fs.claimed.sb.inodeCount ≤ n := by
    rw [sameVolume_claimed.sb]
    exact invalid
  cases hit : fs.cached n with
  | some s =>
    left
    refine ⟨s, rfl, ?_⟩
    simp [hnxfsGetVnode, bind_apply, get_apply, hit, readInode_none invalid, pure_apply]
  | none =>
    right
    refine ⟨rfl, ?_⟩
    simp [hnxfsGetVnode, bind_apply, get_apply, hit, claimSlot_eq, readInode_none claimedInvalid,
      pure_apply]

lemma sameVolume_getVnode (h : fs.Steady) : fs.SameVolume (hnxfsGetVnode n fs).2 := by
  by_cases invalid : n = 0 ∨ fs.sb.inodeCount ≤ n
  · rcases getVnode_invalid invalid with ⟨s, -, run⟩ | ⟨-, run⟩
    · rw [run]
      exact SameVolume.refl fs
    rw [run]
    exact sameVolume_claimed
  have pos : n ≠ 0 := fun zero => invalid (.inl zero)
  have numLt : n < fs.sb.inodeCount := by
    by_contra beyond
    exact invalid (.inr (by omega))
  cases hit : fs.cached n with
  | some =>
    rw [getVnode_cached h pos numLt hit]
    exact sameVolume_refreshed
  | none =>
    rw [getVnode_uncached h pos numLt hit]
    exact sameVolume_claimed.trans sameVolume_entered

end Hnxfs

end

namespace Hnxfs

inductive Call where
  | create (dir : Nat) (name : FileName) (type : VnodeType) (outp : Bool)
  | unlink (dir : Nat) (name : FileName)
  | write (num : Nat) (src : ByteMemory) (size offset : Nat)
  | truncate (num : Nat)

variable {fs post : Hnxfs} {call : Call} {calls : List Call} {n : Nat}

def IsFile (fs : Hnxfs) (num : Nat) : Prop :=
  fs.image.InUse num ∧ (fs.image.inode num).type = hnxfsTypeFile

/-- Directories are any inodes in use; `.` and `..` are not created or unlinked. -/
def Call.Valid (fs : Hnxfs) : Call → Prop
  | .create dir name _ _ => fs.image.InUse dir ∧ (0 : UInt8) ∉ name ∧ ¬ name.Dots
  | .unlink dir name => fs.image.InUse dir ∧ (0 : UInt8) ∉ name ∧ ¬ name.Dots
  | .write n _ _ off => fs.IsFile n ∧ off < 2 ^ 64
  | .truncate n => fs.IsFile n

def perform (fs : Hnxfs) : Call → Hnxfs
  | .create dir name type outp => (vCreate dir name type outp fs).2
  | .unlink dir name => (vUnlink dir name fs).2
  | .write n src size off => (hnxfsFileWrite n src size off fs).2
  | .truncate n => (hnxfsFileTruncate n fs).2

def performAll (fs : Hnxfs) (calls : List Call) : Hnxfs := calls.foldl perform fs

def ValidRun : Hnxfs → List Call → Prop
  | _, [] => True
  | fs, call :: rest => call.Valid fs ∧ ValidRun (fs.perform call) rest

lemma IsFile.notDir (isFile : fs.IsFile n) : ¬ fs.image.IsDir n := by
  intro hd
  have both := isFile.2.symm.trans hd
  exact absurd both (by decide)

structure Sound (fs : Hnxfs) : Prop where
  wellFormed : fs.WellFormed
  steady : fs.Steady

lemma Sound.of_sameFrame (h : fs.Sound) (f : fs.SameFrame post)
    (wellFormed : post.image.WellFormed fs.sb) : post.Sound where
  wellFormed := by
    rw [WellFormed, f.sb]
    exact wellFormed
  steady := h.steady.of_sameFrame f

lemma Sound.of_sameVolume (h : fs.Sound) (volume : fs.SameVolume post) : post.Sound where
  wellFormed := by
    rw [WellFormed, volume.image, volume.sb]
    exact h.wellFormed
  steady := volume.steady h.steady

lemma similar_withUnused {g : Image} {inode : Inode} (unused : g.inodeUsed n = false) :
    Image.Similar g { g with inode := Function.update g.inode n inode } := by
  have inodeEq : ∀ other, g.InUse other → Function.update g.inode n inode other =
    g.inode other := by
    intro other hu
    apply Function.update_of_ne
    rintro rfl
    rw [hu.2] at unused
    exact Bool.noConfusion unused
  refine ⟨rfl, rfl, ?_, ?_, ?_, fun _ _ _ _ _ => rfl⟩
  all_goals
    intro other hu
    simp only [inodeEq other hu]

lemma Sound.create {dir : Nat} {name : FileName} (h : fs.Sound)
    (hu : fs.image.InUse dir) (ne0 : (0 : UInt8) ∉ name) (notDots : ¬ name.Dots)
    (type : VnodeType) (outp : Bool) : (vCreate dir name type outp fs).2.Sound := by
  rcases @vCreate_cases fs dir name type h.wellFormed h.steady hu ne0 notDots
      outp with ⟨run, -⟩ | ⟨-, run, -⟩ | ⟨-, c, post, avail, run, f, imageEq, -⟩ |
      ⟨-, c, post, avail, f, made, run⟩
  · rw [run]
    exact h
  · rw [run]
    exact h
  · rw [run]
    apply h.of_sameFrame f
    rw [imageEq]
    exact (similar_withUnused avail.unused).wellFormed h.wellFormed
  have hl : post.Sound := h.of_sameFrame f (made.wellFormed h.wellFormed)
  rw [run]
  cases outp with
  | false => exact hl
  | true => exact hl.of_sameVolume (sameVolume_getVnode hl.steady)

lemma Sound.unlink {dir : Nat} {name : FileName} (h : fs.Sound) (hu : fs.image.InUse dir)
    (ne0 : (0 : UInt8) ∉ name) (notDots : ¬ name.Dots) : (vUnlink dir name fs).2.Sound := by
  rcases vUnlink_cases h.wellFormed h.steady hu ne0 notDots with
    ⟨run, -⟩ | ⟨run, -⟩ | ⟨-, post, run, f, unlinked⟩
  · rw [run]
    exact h
  · rw [run]
    exact h
  rw [run]
  exact h.of_sameFrame f (unlinked.wellFormed h.wellFormed)

lemma IsFile.empties (isFile : fs.IsFile n) : fs.image.Empties n (emptied (fs.image.inode n)) :=
  ⟨isFile.1, rfl, fun _ _ => rfl, rfl, fun _ _ _ e => isFile.notDir e.isDir⟩

lemma Sound.perform (h : fs.Sound) (hv : call.Valid fs) : (fs.perform call).Sound := by
  cases call with
  | create _ _ type outp =>
    obtain ⟨hu, ne0, notDots⟩ := hv
    exact h.create hu ne0 notDots type outp
  | unlink =>
    obtain ⟨hu, ne0, notDots⟩ := hv
    exact h.unlink hu ne0 notDots
  | write n src size off =>
    obtain ⟨isFile, offsetLt⟩ := hv
    obtain ⟨total, post, run, f, hw, -⟩ := @fileWrite_spec fs n off size src
      h.wellFormed h.steady isFile.1 isFile.notDir offsetLt
    rw [Hnxfs.perform, run]
    exact h.of_sameFrame f hw.kept.wellFormed
  | truncate =>
    obtain ⟨post, run, f, imageEq⟩ := fileTruncate_eq h.wellFormed h.steady hv.1
    rw [Hnxfs.perform, run]
    apply h.of_sameFrame f
    rw [imageEq]
    exact h.wellFormed.empty hv.empties

lemma Sound.performAll (h : fs.Sound) (hv : ValidRun fs calls) : (fs.performAll calls).Sound := by
  induction calls generalizing fs with
  | nil => exact h
  | cons _ _ ih => exact ih (h.perform hv.1) hv.2

def freshVolume : Hnxfs where
  sb :=
    { inodeCount := 128
      inodeBitmapBlock := 1
      dataBitmapBlock := 2
      inodeTableBlock := 3
      inodeTableBlocks := 4
      dataBlockStart := 7
      dataBlockCount := 16 }
  blocks := fun blk =>
    if blk = 1 then ByteMemory.fill zeroBlock 0 1 3
    else if blk = 3 then putInode zeroBlock 1 (newInode .dir)
    else zeroBlock
  faults := []
  vnodes := fun _ => ⟨.file, 0, 0⟩
  vnodeInode := fun _ => 0
  vnodeCount := 0

lemma freshVolume_layout : freshVolume.sb.Layout where
  disjoint := by
    simp only [Superblock.regions, Superblock.InTable, Superblock.InData, freshVolume,
      List.pairwise_cons, List.mem_cons, List.not_mem_nil, or_false, forall_eq_or_imp, forall_eq,
      Set.disjoint_left, Set.mem_singleton_iff, Set.mem_Ico, Set.mem_ofPred_eq]
    refine ⟨?_, ?_, ?_, ?_, by simp⟩
    all_goals omega
  inodeCount_le := by decide
  dataBlockCount_le := by decide
  table_holds := by decide
  addressable := by decide

lemma freshVolume_inUse (hu : freshVolume.image.InUse n) : n = 1 := by
  have numLt : n < 128 := by
    by_contra beyond
    have used := hu.2
    rw [inodeUsed_beyond (by simpa [freshVolume] using beyond)] at used
    exact Bool.false_ne_true used
  have only : ∀ n < 128, 1 ≤ n → freshVolume.image.inodeUsed n = true → n = 1 := by decide +kernel
  exact only n numLt hu.1 hu.2

lemma freshVolume_root : freshVolume.image.inode 1 = newInode .dir :=
  inodeAt_putInode_same (newInode_fits .dir)

lemma freshVolume_wellFormed : freshVolume.WellFormed := by
  have noRefers : ∀ n b blk, ¬ freshVolume.image.Refers n b blk := by
    intro n b blk hr
    have root := freshVolume_inUse hr.inUse
    subst root
    have direct := hr.direct
    rw [freshVolume_root] at direct
    exact hr.ne_zero direct.symm
  have noEntry : ∀ dir b slot child, ¬ freshVolume.image.Entry dir b slot child := by
    intro dir b slot child e
    have root := freshVolume_inUse e.inUse
    subst root
    have bLt := e.b_lt
    rw [freshVolume_root] at bLt
    exact absurd bLt (Nat.not_lt_zero b)
  apply Image.WellFormed.of_parts freshVolume_layout
  · decide +kernel
  · decide +kernel
  · rw [Image.IsDir, freshVolume_root]
    rfl
  · intro n hu
    rw [freshVolume_inUse hu, freshVolume_root]
    exact Nat.zero_le 12
  · intro n b blk hr
    exact absurd hr (noRefers n b blk)
  · intro n b hu hd bLt
    rw [freshVolume_inUse hu, freshVolume_root] at bLt
    exact absurd bLt (Nat.not_lt_zero b)
  · intro i hlt
    have hc : ∀ i < 16, freshVolume.image.blockUsed i = false := by decide +kernel
    constructor
    · intro used
      rw [hc i hlt] at used
      exact absurd used Bool.false_ne_true
    rintro ⟨n, b, hr⟩
    exact absurd hr (noRefers n b _)
  · intro n b o c blk hr
    exact absurd hr (noRefers n b blk)
  · intro dir b slot child e
    exact absurd e (noEntry dir b slot child)
  · intro dir b slot dir' b' slot' child e
    exact absurd e (noEntry dir b slot child)
  intro n twoLe hu
  have := freshVolume_inUse hu
  omega

lemma freshVolume_steady : freshVolume.Steady := rfl

theorem ownership_of_run (wf : fs.WellFormed) (h : fs.Steady)
    (hv : ValidRun fs calls) : (fs.performAll calls).WellFormed :=
  (Sound.performAll ⟨wf, h⟩ hv).wellFormed

def fileCalls : List Call :=
  [.create 1 [97] .file true, .write 2 (fun _ => 7) 10 4090, .truncate 2, .unlink 1 [97]]

theorem fileCalls_ownership :
    ValidRun freshVolume fileCalls ∧ (freshVolume.performAll fileCalls).WellFormed := by
  have hv : ValidRun freshVolume fileCalls := by
    refine ⟨⟨⟨le_rfl, ?_⟩, by decide, by decide⟩, ⟨⟨⟨by decide, ?_⟩, ?_⟩, by decide⟩,
      ⟨⟨by decide, ?_⟩, ?_⟩, ⟨⟨le_rfl, ?_⟩, by decide, by decide⟩, trivial⟩
    all_goals decide +kernel
  exact ⟨hv, ownership_of_run freshVolume_wellFormed freshVolume_steady hv⟩

end Hnxfs

end HnxKernel
