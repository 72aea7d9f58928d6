import Hnx.BlockLayer

/-!
# Transfers of a partition stay in the partition

The sum in the range test is zero at sector `2 ^ 64 - 1`.
-/

namespace HnxKernel

open Function List BlockLayer

namespace BlockLayer

variable {Disks : Type} {drv : DiskDriver Disks} {dev : BlockHandle} {lba : Nat}
  {l : BlockLayer Disks} {reg : BlockRegistry}

def LinesAccepted (reg : BlockRegistry) (lines : Fin cacheLines → CacheLine) : Prop :=
  ∀ slot, (lines slot).valid = true → ∀ dev ∈ reg.devices,
    (lines slot).dev = dev.address → dev.Accepts (lines slot).lba

variable {lines : Fin cacheLines → CacheLine} {data : Sector} {info : PartitionInfo}
  {post : BlockLayer Disks} {rem i hr cnt : Nat} {made : List (Nat × Nat)}

lemma LinesAccepted.invalidate (ok : LinesAccepted reg lines) (slot : Fin cacheLines) :
    LinesAccepted reg (update lines slot { lines slot with valid := false }) := by
  intro o valid
  by_cases eq : o = slot
  · subst eq
    simp at valid
  rw [update_of_ne eq] at valid ⊢
  exact ok o valid

lemma LinesAccepted.install (ok : LinesAccepted reg lines) (s : Fin cacheLines)
    (mem : dev ∈ reg.devices) (hi : dev.Accepts lba) :
    LinesAccepted reg (update lines s ⟨dev.address, lba, true, false, data⟩) := by
  intro o valid
  by_cases eq : o = s
  · subst eq
    simp only [update_self]
    intro owner ownerMem sameAddr
    rw [← reg.distinct dev mem owner ownerMem sameAddr]
    exact hi
  rw [update_of_ne eq] at valid ⊢
  exact ok o valid

section
variable (mem : dev ∈ reg.devices)
include mem

lemma LinesAccepted.blockCacheRead (ok : LinesAccepted reg l.lines) :
    LinesAccepted reg (l.blockCacheRead drv dev lba).2.lines := by
  have out := cacheRead drv dev lba l
  generalize l.blockCacheRead drv dev lba = res at out
  cases out with
  | hit _ lines => exact lines ▸ ok
  | refused _ _ lines => exact lines ▸ ok.invalidate _
  | failed _ _ _ lines => exact lines ▸ ok.invalidate _
  | filled _ hi _ lines => exact lines ▸ ok.install _ mem hi

lemma LinesAccepted.blockCacheWrite (ok : LinesAccepted reg l.lines) :
    LinesAccepted reg (l.blockCacheWrite drv dev lba data).2.lines := by
  have out := cacheWrite drv dev lba data l
  generalize l.blockCacheWrite drv dev lba data = res at out
  cases out with
  | refused _ lines => exact lines ▸ ok
  | failed _ _ lines => exact lines ▸ ok
  | written hi _ lines => exact lines ▸ ok.install _ mem hi

lemma LinesAccepted.readSectors (rem i : Nat) (buf : ByteMemory) (ok : LinesAccepted reg l.lines) :
    LinesAccepted reg (readSectors drv dev lba rem i buf l).2.2.lines := by
  induction rem generalizing i buf l with
  | zero => exact ok
  | succ _ ih =>
    have kept : LinesAccepted reg
      (l.blockCacheRead drv dev (u64 (lba + i))).2.lines :=
      ok.blockCacheRead mem
    simp only [readSectors]
    cases (l.blockCacheRead drv dev (u64 (lba + i))).1 with
    | none => exact kept
    | some => exact ih _ _ kept

lemma LinesAccepted.writeSectors (buf : ByteMemory) (rem i : Nat) (ok : LinesAccepted reg l.lines) :
    LinesAccepted reg (writeSectors drv dev lba buf rem i l).2.lines := by
  induction rem generalizing i l with
  | zero => exact ok
  | succ _ ih =>
    simp only [writeSectors]
    split
    · exact ih _ (ok.blockCacheWrite mem)
    · exact ok.blockCacheWrite mem

end

lemma LinesAccepted.run {call : BlockCall} (mem : ∀ dev, call.dev = some dev → dev ∈ reg.devices)
    (ok : LinesAccepted reg l.lines) : LinesAccepted reg (call.run drv l).lines := by
  rcases call with ⟨_ | dev, lba, buf, cnt⟩ | ⟨_ | dev, lba, buf, cnt⟩
  · exact ok
  · simp only [BlockCall.run, blockRead]
    split <;> exact ok.readSectors (mem dev rfl) cnt 0 buf
  · exact ok
  simp only [BlockCall.run, blockWrite]
  split <;> exact ok.writeSectors (mem dev rfl) buf cnt 0

lemma Reachable.linesAccepted (reachable : Reachable drv reg l) : LinesAccepted reg l.lines := by
  induction reachable with
  | init =>
    intro s valid
    cases valid
  | call _ _ mem ih => exact ih.run mem

def Confined (info : PartitionInfo) (pre post : BlockLayer Disks) : Prop :=
  ∃ added, post.transfers = pre.transfers ++ added ∧ ∀ transfer ∈ added, transfer.1 = info.parent ∧
      info.lbaOffset ≤ transfer.2 ∧ transfer.2 < info.lbaOffset + info.lbaCount

lemma Confined.of_eq (eq : post.transfers = l.transfers) : Confined info l post :=
  ⟨[], by simp [eq], by simp⟩

lemma Confined.trans {mid : BlockLayer Disks} (fst : Confined info l mid)
    (snd : Confined info mid post) : Confined info l post := by
  obtain ⟨added, addedEq, hi⟩ := fst
  obtain ⟨more, moreEq, moreInside⟩ := snd
  refine ⟨added ++ more, by rw [moreEq, addedEq, append_assoc], ?_⟩
  intro transfer mem
  rcases mem_append.mp mem with mem | mem
  · exact hi transfer mem
  · exact moreInside transfer mem

lemma Confined.of_accepts (hf : dev.driverData = some info)
    (fits : info.lbaOffset + info.lbaCount < 2 ^ 64) (ok : dev.Accepts lba)
      (lbaLt : lba < 2 ^ 64 - 1)
    (transfers : post.transfers = l.transfers ++ targetTransfers dev lba) :
      Confined info l post := by
  have inside := ok info hf
  rw [u64_of_lt (by omega)] at inside
  refine ⟨_, transfers, ?_⟩
  intro transfer mem
  have target : dev.target lba = (info.parent, info.lbaOffset + lba) := by
    simp only [BlockHandle.target, hf]
    rw [u64_of_lt (by omega)]
  have transferEq : transfer = (info.parent, info.lbaOffset + lba) := by
    simpa [targetTransfers, sectorNumbers, target,
      u64_of_lt (show info.lbaOffset + lba < 2 ^ 64 by omega)] using mem
  subst transferEq
  exact ⟨rfl, by omega, by omega⟩

def StopsBefore (dev : BlockHandle) (lba remaining idx : Nat) : Prop :=
  ∀ step < remaining, u64 (lba + (idx + step)) = 2 ^ 64 - 1 →
    ∃ earlier < step, ¬ dev.Accepts (u64 (lba + (idx + earlier)))

lemma StopsBefore.head_ne (stops : StopsBefore dev lba (rem + 1) i) :
    u64 (lba + i) < 2 ^ 64 - 1 := by
  have bound := u64_lt (lba + i)
  by_contra last
  obtain ⟨earlier, impossible, -⟩ := stops 0 (by omega) (by rw [Nat.add_zero]; omega)
  omega

lemma StopsBefore.tail {rem i : Nat} (stops : StopsBefore dev lba (rem + 1) i)
    (ok : dev.Accepts (u64 (lba + i))) : StopsBefore dev lba rem (i + 1) := by
  intro step stepLt last
  rw [show i + 1 + step = i + (step + 1) by omega] at last
  obtain ⟨earlier, earlierLt, refused⟩ := stops (step + 1) (by omega) last
  cases earlier with
  | zero => exact absurd ok refused
  | succ earlier =>
    refine ⟨earlier, by omega, ?_⟩
    rwa [show i + 1 + earlier = i + (earlier + 1) by omega]

section
variable (hf : dev.driverData = some info) (fits : info.lbaOffset + info.lbaCount < 2 ^ 64)
include hf fits

lemma readSectors_confined (mem : dev ∈ reg.devices) (rem i : Nat)
    (buf : ByteMemory) (lines : LinesAccepted reg l.lines) (stops : StopsBefore dev lba rem i) :
    Confined info l (readSectors drv dev lba rem i buf l).2.2 := by
  induction rem generalizing i buf l with
  | zero => exact .of_eq rfl
  | succ _ ih =>
    have kept : LinesAccepted reg
      (l.blockCacheRead drv dev (u64 (lba + i))).2.lines :=
      lines.blockCacheRead mem
    have out := cacheRead drv dev (u64 (lba + i)) l
    simp only [readSectors]
    generalize l.blockCacheRead drv dev (u64 (lba + i)) = res at out kept
    cases out with
    | hit held _ transfers =>
      have ok : dev.Accepts (u64 (lba + i)) := by
        simp only [CacheLine.holds, Bool.and_eq_true, beq_iff_eq] at held
        rw [← held.2]
        exact lines _ held.1.1 dev mem held.1.2
      exact (Confined.of_eq transfers).trans (ih _ _ kept (stops.tail ok))
    | refused _ _ _ transfers => exact .of_eq transfers
    | failed _ ok _ _ transfers => exact .of_accepts hf fits ok stops.head_ne transfers
    | filled _ ok _ _ transfers =>
      exact (Confined.of_accepts hf fits ok stops.head_ne transfers).trans
        (ih _ _ kept (stops.tail ok))

lemma writeSectors_confined (buf : ByteMemory) (rem i : Nat) (stops : StopsBefore dev lba rem i) :
    Confined info l (writeSectors drv dev lba buf rem i l).2 := by
  induction rem generalizing i l with
  | zero => exact .of_eq rfl
  | succ _ ih =>
    have out := cacheWrite drv dev (u64 (lba + i))
      (sectorAt buf (i * dev.sectorSize)) l
    simp only [writeSectors]
    generalize l.blockCacheWrite drv dev (u64 (lba + i))
      (sectorAt buf (i * dev.sectorSize)) = res at out
    cases out with
    | refused _ _ transfers => exact .of_eq transfers
    | failed ok _ _ transfers => exact .of_accepts hf fits ok stops.head_ne transfers
    | written ok _ _ transfers =>
      exact (Confined.of_accepts hf fits ok stops.head_ne transfers).trans (ih _ (stops.tail ok))

end

def blankDriver : DiskDriver Unit where
  read := fun _ _ _ disks => (some fun _ _ => 0, disks)
  write := fun _ _ _ _ disks => (true, disks)

def NoneHeld (dev : BlockHandle) (lba remaining idx : Nat)
    (lines : Fin cacheLines → CacheLine) : Prop :=
  ∀ slot, ∀ step < remaining, (lines slot).holds dev (u64 (lba + (idx + step))) = false

lemma NoneHeld.tail {rem i : Nat} {lines : Fin cacheLines → CacheLine} {data : Sector}
    {s : Fin cacheLines} (short : rem < 2 ^ 33) (none : NoneHeld dev lba (rem + 1) i lines) :
    NoneHeld dev lba rem (i + 1) (update lines s
      ⟨dev.address, u64 (lba + i), true, false, data⟩) := by
  intro o step stepLt
  have pre := none o (step + 1) (by omega)
  rw [show i + (step + 1) = i + 1 + step by omega] at pre
  by_cases eq : o = s
  · subst eq
    have differ : u64 (lba + i) ≠ u64 (lba + (i + 1 + step)) := by
      simp only [u64]
      omega
    simp [CacheLine.holds, differ]
  rw [update_of_ne eq]
  exact pre

def Transferred (dev : BlockHandle) (lba remaining idx : Nat) (layer : BlockLayer Disks)
    (made : List (Nat × Nat)) : Prop :=
  (∀ transfer ∈ layer.transfers, transfer ∈ made) ∧
    ∀ step < remaining, ∀ transfer ∈ targetTransfers dev (u64 (lba + (idx + step))), transfer ∈ made

lemma Transferred.of_kept (kept : l.transfers <+: made) : Transferred dev lba 0 i l made :=
  ⟨fun _ mem => kept.subset mem, fun _ impossible => absurd impossible (by omega)⟩

lemma Transferred.cons
    (transfers : post.transfers = l.transfers ++ targetTransfers dev (u64 (lba + i)))
    (r : Transferred dev lba rem (i + 1) post made) : Transferred dev lba (rem + 1) i l made := by
  obtain ⟨kept, later⟩ := r
  rw [transfers] at kept
  constructor
  · intro transfer mem
    exact kept transfer (mem_append_left _ mem)
  intro step stepLt transfer mem
  cases step with
  | zero => exact kept transfer (mem_append_right _ mem)
  | succ step =>
    rw [show i + (step + 1) = i + 1 + step by omega] at mem
    exact later step (by omega) transfer mem

lemma accepts_tail (ok : ∀ step < rem + 1, dev.Accepts (u64 (lba + (i + step)))) :
    ∀ step < rem, dev.Accepts (u64 (lba + (i + 1 + step))) := by
  intro step stepLt
  rw [show i + 1 + step = i + (step + 1) by omega]
  exact ok (step + 1) (by omega)

lemma readSectors_keeps (rem i : Nat) (buf : ByteMemory) :
    l.transfers <+: (readSectors drv dev lba rem i buf l).2.2.transfers := by
  induction rem generalizing i buf l with
  | zero => exact prefix_rfl
  | succ _ ih =>
    have out := cacheRead drv dev (u64 (lba + i)) l
    simp only [readSectors]
    generalize l.blockCacheRead drv dev (u64 (lba + i)) = res at out
    cases out with
    | hit _ _ transfers => exact transfers ▸ ih _ _
    | refused _ _ _ transfers => exact transfers ▸ prefix_rfl
    | failed _ _ _ _ transfers => exact transfers ▸ prefix_append _ _
    | filled _ _ _ _ transfers =>
      exact (transfers ▸ prefix_append _ _ : l.transfers <+: _).trans (ih _ _)

lemma writeSectors_keeps (buf : ByteMemory) (rem i : Nat) :
    l.transfers <+: (writeSectors drv dev lba buf rem i l).2.transfers := by
  induction rem generalizing i l with
  | zero => exact prefix_rfl
  | succ _ ih =>
    have out := cacheWrite drv dev (u64 (lba + i))
      (sectorAt buf (i * dev.sectorSize)) l
    simp only [writeSectors]
    generalize l.blockCacheWrite drv dev (u64 (lba + i))
      (sectorAt buf (i * dev.sectorSize)) = res at out
    cases out with
    | refused _ _ transfers => exact transfers ▸ prefix_rfl
    | failed _ _ _ transfers => exact transfers ▸ prefix_append _ _
    | written _ _ _ transfers =>
      exact (transfers ▸ prefix_append _ _ : l.transfers <+: _).trans (ih _)

lemma readSectors_transfers {l : BlockLayer Unit}
    (readable : dev.hasRead = true) (buf : ByteMemory) (reachLe : hr ≤ rem)
    (short : hr < 2 ^ 33) (ok : ∀ step < hr, dev.Accepts (u64 (lba + (i + step))))
    (none : NoneHeld dev lba hr i l.lines) : Transferred dev lba hr i l
      (readSectors blankDriver dev lba rem i buf l).2.2.transfers := by
  induction hr generalizing rem i buf l with
  | zero => exact .of_kept (readSectors_keeps rem i buf)
  | succ _ ih =>
    obtain ⟨rem, rfl⟩ := Nat.exists_eq_add_of_lt reachLe
    have hi : dev.Accepts (u64 (lba + i)) := ok 0 (by omega)
    have notHeld : (l.lines (slotFor dev (u64 (lba + i)))).holds dev
      (u64 (lba + i)) = false := none _ 0 (by omega)
    have out := cacheRead blankDriver dev (u64 (lba + i)) l
    simp only [readSectors]
    generalize l.blockCacheRead blankDriver dev (u64 (lba + i)) = res at out
    cases out with
    | hit held => rw [notHeld] at held; cases held
    | refused _ closed =>
      rcases closed with closed | closed
      · rw [readable] at closed; cases closed
      · exact absurd hi closed
    | failed _ _ ans => cases ans
    | filled _ _ _ lines transfers =>
      refine .cons transfers (ih _ (by omega) (by omega) (accepts_tail ok) ?_)
      exact lines ▸ none.tail (by omega)

lemma writeSectors_transfers {l : BlockLayer Unit}
    (writable : dev.hasWrite = true) (buf : ByteMemory) (reachLe : hr ≤ rem)
    (ok : ∀ step < hr, dev.Accepts (u64 (lba + (i + step)))) : Transferred dev lba hr i l
      (writeSectors blankDriver dev lba buf rem i l).2.transfers := by
  induction hr generalizing rem i l with
  | zero => exact .of_kept (writeSectors_keeps buf rem i)
  | succ _ ih =>
    obtain ⟨rem, rfl⟩ := Nat.exists_eq_add_of_lt reachLe
    have hi : dev.Accepts (u64 (lba + i)) := ok 0 (by omega)
    have out := cacheWrite blankDriver dev (u64 (lba + i))
      (sectorAt buf (i * dev.sectorSize)) l
    simp only [writeSectors]
    generalize l.blockCacheWrite blankDriver dev (u64 (lba + i))
      (sectorAt buf (i * dev.sectorSize)) = res at out
    cases out with
    | refused closed =>
      rcases closed with closed | closed
      · rw [writable] at closed; cases closed
      · exact absurd hi closed
    | failed _ ans => cases ans
    | written _ _ _ transfers => exact .cons transfers (ih (by omega) (accepts_tail ok))

lemma blockRead_transfers (drv : DiskDriver Disks) (dev : BlockHandle) (lba : Nat)
    (buf : ByteMemory) (cnt : Nat) (l : BlockLayer Disks) :
    (l.blockRead drv (some dev) lba buf cnt).2.2.transfers =
      (readSectors drv dev lba cnt 0 buf l).2.2.transfers := by
  simp only [blockRead]
  split <;> rfl

lemma blockWrite_transfers (drv : DiskDriver Disks) (dev : BlockHandle) (lba : Nat)
    (buf : ByteMemory) (cnt : Nat) (l : BlockLayer Disks) :
    (l.blockWrite drv (some dev) lba buf cnt).2.transfers =
      (writeSectors drv dev lba buf cnt 0 l).2.transfers := by
  simp only [blockWrite]
  split <;> rfl

def Ends (info : PartitionInfo) (lba cnt : Nat) : Prop :=
  lba + cnt < 2 ^ 64 ∨ lba < 2 ^ 64 - 1 ∧ info.lbaCount < 2 ^ 64 - 1

lemma Ends.stopsBefore (hf : dev.driverData = some info) (lbaLt : lba < 2 ^ 64)
    (countLt : cnt < 2 ^ 32) (ends : Ends info lba cnt) : StopsBefore dev lba cnt 0 := by
  intro step stepLt last
  have sumEq : lba + step = 2 ^ 64 - 1 := by
    simp only [u64] at last
    omega
  rcases ends with short | ⟨notLast, small⟩
  · omega
  refine ⟨step - 1, by omega, ?_⟩
  intro ok
  have inside := ok info hf
  rw [show lba + (0 + (step - 1)) = 2 ^ 64 - 2 by omega] at inside
  simp only [u64] at inside
  omega

lemma not_confined_of_last {post : BlockLayer Unit} {disks : Unit}
    (hf : dev.driverData = some info) (fits : info.lbaOffset + info.lbaCount < 2 ^ 64)
    (made : ∀ transfer ∈ targetTransfers dev (2 ^ 64 - 1), transfer ∈ post.transfers) :
    ¬ Confined info (init disks) post := by
  rintro ⟨added, addedEq, hi⟩
  have mem := made (info.parent, u64 (info.lbaOffset + (2 ^ 64 - 1))) (by
    simp [targetTransfers, sectorNumbers, BlockHandle.target, hf, u64])
  rw [addedEq] at mem
  obtain ⟨-, above, below⟩ := hi _ (by simpa [init] using mem)
  simp only [u64] at above below
  omega

lemma reach_of_not_ends (reaches : ¬ Ends info lba cnt) : 2 ^ 64 - lba ≤ cnt := by
  simp only [Ends, not_or] at reaches
  omega

lemma accepts_of_not_ends
    (hf : dev.driverData = some info) (fits : info.lbaOffset + info.lbaCount < 2 ^ 64)
    (lbaLt : lba < 2 ^ 64) (reaches : ¬ Ends info lba cnt) :
    ∀ step < 2 ^ 64 - lba, dev.Accepts (u64 (lba + (0 + step))) := by
  intro step stepLt other foundOther
  have eq : info = other := by
    rw [hf] at foundOther
    exact Option.some.inj foundOther
  subst eq
  simp only [Ends, not_or, not_and] at reaches
  have wordEq : u64 (lba + (0 + step)) = lba + step := by
    rw [Nat.zero_add]
    exact u64_of_lt (by omega)
  rw [wordEq]
  by_cases last : lba + step = 2 ^ 64 - 1
  · rw [last]
    exact Nat.zero_le _
  have large := reaches.2 (by omega)
  rw [u64_of_lt (by omega)]
  omega

end BlockLayer

namespace BlockRegistry

variable {reg : BlockRegistry} {dev : BlockHandle} {info : PartitionInfo}

lemma partition_ops (mem : dev ∈ reg.devices) (hf : dev.driverData = some info) :
    dev.hasRead = true ∧ dev.hasWrite = true := by
  obtain ⟨parent, -, -, infoMem, made⟩ := reg.partitions dev mem info hf
  cases infoMem with
  | none => cases made
  | some =>
    have devEq := Option.some.inj made
    rw [← devEq]
    exact ⟨rfl, rfl⟩

end BlockRegistry

def smallDisk : BlockHandle where
  address := 0x1000
  sectorCount := 100
  sectorSize := 512
  hasRead := true
  hasWrite := true
  driverData := none

def smallPartition : BlockHandle where
  address := 0x2000
  sectorCount := 20
  sectorSize := 512
  hasRead := true
  hasWrite := true
  driverData := some ⟨0x1000, 10, 20⟩

def smallRegistry : BlockRegistry where
  devices := [smallDisk, smallPartition]
  distinct := by simp [smallDisk, smallPartition]
  words := by simp [smallDisk, smallPartition]
  partitions := by
    intro device member info found
    simp only [mem_cons, not_mem_nil, or_false] at member
    rcases member with rfl | rfl
    · cases found
    cases found
    exact ⟨smallDisk, by simp, rfl, some 0, rfl⟩

open BlockLayer in
/-- Transfers stay in the partition, exactly if the call cannot come to the last 64-bit sector
number. -/
theorem partition_confined_iff (reg : BlockRegistry) {parent dev : BlockHandle}
    {info : PartitionInfo} (parentMember : parent ∈ reg.devices) (member : dev ∈ reg.devices)
    (hf : dev.driverData = some info) (fits : info.lbaOffset + info.lbaCount ≤ parent.sectorCount)
    {lba cnt : Nat} (lbaLt : lba < 2 ^ 64) (countLt : cnt < 2 ^ 32) (buffer : ByteMemory) :
    ((∀ (Disks : Type) (drv : DiskDriver Disks) (l : BlockLayer Disks), Reachable drv reg l →
        Confined info l (l.blockRead drv (some dev) lba buffer cnt).2.2) ↔
      lba + cnt < 2 ^ 64 ∨ lba < 2 ^ 64 - 1 ∧ info.lbaCount < 2 ^ 64 - 1) ∧
    ((∀ (Disks : Type) (drv : DiskDriver Disks) (l : BlockLayer Disks), Reachable drv reg l →
        Confined info l (l.blockWrite drv (some dev) lba buffer cnt).2) ↔
      lba + cnt < 2 ^ 64 ∨ lba < 2 ^ 64 - 1 ∧ info.lbaCount < 2 ^ 64 - 1) := by
  have fitsWord : info.lbaOffset + info.lbaCount < 2 ^ 64 :=
    lt_of_le_of_lt fits (reg.words parent parentMember)
  obtain ⟨readable, writable⟩ := BlockRegistry.partition_ops member hf
  -- the sectors up to the last 64-bit number, which ends the range
  have lastReached : ¬ Ends info lba cnt → ∀ {made : List (Nat × Nat)},
    Transferred dev lba (2 ^ 64 - lba) 0 (init () : BlockLayer Unit) made →
    ∀ transfer ∈ targetTransfers dev (2 ^ 64 - 1), transfer ∈ made := by
    intro _ made transferred transfer xferMem
    refine transferred.2 (2 ^ 64 - 1 - lba) (by omega) transfer ?_
    rwa [show lba + (0 + (2 ^ 64 - 1 - lba)) = 2 ^ 64 - 1 by omega, u64_of_lt (by norm_num)]
  constructor
  · constructor
    · intro confined
      by_contra reaches
      refine not_confined_of_last hf fitsWord (lastReached reaches ?_)
        (confined Unit blankDriver (init ()) (.init ()))
      rw [blockRead_transfers]
      exact readSectors_transfers readable buffer (reach_of_not_ends reaches) (by omega)
        (accepts_of_not_ends hf fitsWord lbaLt reaches) (fun _ _ _ => rfl)
    intro ends Disks drv l reachable
    have confined : Confined info l (readSectors drv dev lba cnt 0 buffer l).2.2 :=
      readSectors_confined hf fitsWord member cnt 0 buffer reachable.linesAccepted
        (Ends.stopsBefore hf lbaLt countLt ends)
    obtain ⟨added, addedEq, hi⟩ := confined
    exact ⟨added, by rw [blockRead_transfers, addedEq], hi⟩
  constructor
  · intro confined
    by_contra reaches
    refine not_confined_of_last hf fitsWord (lastReached reaches ?_)
      (confined Unit blankDriver (init ()) (.init ()))
    rw [blockWrite_transfers]
    exact writeSectors_transfers writable buffer (reach_of_not_ends reaches)
      (accepts_of_not_ends hf fitsWord lbaLt reaches)
  intro ends Disks drv l reachable
  have confined : Confined info l (writeSectors drv dev lba buffer cnt 0 l).2 :=
    writeSectors_confined hf fitsWord buffer cnt 0
      (Ends.stopsBefore hf lbaLt countLt ends)
  obtain ⟨added, addedEq, hi⟩ := confined
  exact ⟨added, by rw [blockWrite_transfers, addedEq], hi⟩

theorem partition_confined_inside : smallPartition ∈ smallRegistry.devices ∧
    ∀ (Disks : Type) (drv : DiskDriver Disks) (l : BlockLayer Disks),
      BlockLayer.Reachable drv smallRegistry l →
      BlockLayer.Confined ⟨0x1000, 10, 20⟩ l
        (l.blockRead drv (some smallPartition) 3 (fun _ => 0) 4).2.2 := by
  have member : smallPartition ∈ smallRegistry.devices := by simp [smallRegistry]
  have parentMember : smallDisk ∈ smallRegistry.devices := by simp [smallRegistry]
  refine ⟨member, ?_⟩
  exact (partition_confined_iff smallRegistry parentMember member rfl (by decide)
    (by norm_num) (by norm_num) _).1.mpr (.inl (by norm_num))

/-- Sector `2 ^ 64 - 1` of the partition is the sector before the partition. -/
theorem partition_reads_before_start :
    ((init ()).blockRead blankDriver (some smallPartition) (2 ^ 64 - 1)
      (fun _ => 0) 1).2.2.transfers = [(0x1000, 9)] ∧
    ¬ BlockLayer.Confined ⟨0x1000, 10, 20⟩ (init ())
      ((init ()).blockRead blankDriver (some smallPartition) (2 ^ 64 - 1)
        (fun _ => 0) 1).2.2 := by
  have made : ((init ()).blockRead blankDriver (some smallPartition)
    (2 ^ 64 - 1) (fun _ => 0) 1).2.2.transfers = [(0x1000, 9)] := by
    decide +kernel
  refine ⟨made, ?_⟩
  rintro ⟨added, addedEq, hi⟩
  rw [made] at addedEq
  obtain ⟨-, above, -⟩ := hi (0x1000, 9) (by
    rw [show added = [(0x1000, 9)] from addedEq.symm]
    exact mem_singleton_self _)
  exact absurd above (by decide)

end HnxKernel
