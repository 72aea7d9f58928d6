import Hnx.PartitionConfinement

/-!
# Coherence of the sector cache

Cache lines are keyed by the handle: a write through one handle leaves the line of another as
it is.
-/

namespace HnxKernel

open Function List BlockLayer BlockCall

abbrev DiskContents := Nat → Nat → Sector

namespace DiskContents

def set (contents : DiskContents) (place : Nat × Nat) (data : Sector) : DiskContents :=
  update contents place.1 (update (contents place.1) place.2 data)

lemma set_same (contents : DiskContents) (hp : Nat × Nat) (data : Sector) :
    contents.set hp data hp.1 hp.2 = data := by
  simp [set]

lemma set_other {contents : DiskContents} {hp o : Nat × Nat} {data : Sector}
    (differ : o ≠ hp) : contents.set hp data o.1 o.2 = contents o.1 o.2 := by
  by_cases disk : o.1 = hp.1
  · have sector : o.2 ≠ hp.2 := fun eq => differ (Prod.ext disk eq)
    simp [set, disk, sector]
  · simp [set, disk]

end DiskContents

def reliableDriver : DiskDriver DiskContents where
  read := fun disk lba _ contents => (some fun idx => contents disk (u64 (lba + idx)), contents)
  write := fun disk lba data cnt contents =>
    (true, (List.range cnt).foldl
      (fun contents idx => contents.set (disk, u64 (lba + idx)) (data idx)) contents)

namespace BlockHandle

lemma target_lt {dev : BlockHandle} {lba : Nat} (lbaLt : lba < 2 ^ 64) :
    (dev.target lba).2 < 2 ^ 64 := by
  unfold target
  cases dev.driverData with
  | none => exact lbaLt
  | some => exact u64_lt _

lemma target_injective {dev : BlockHandle} {fst snd : Nat} (firstLt : fst < 2 ^ 64)
    (secondLt : snd < 2 ^ 64) (eq : dev.target fst = dev.target snd) : fst = snd := by
  unfold target at eq
  cases hf : dev.driverData with
  | none =>
    rw [hf] at eq
    exact (Prod.mk.inj eq).2
  | some info =>
    rw [hf] at eq
    have sectors : u64 (info.lbaOffset + fst) = u64 (info.lbaOffset + snd) := (Prod.mk.inj eq).2
    simp only [u64] at sectors
    omega

end BlockHandle

namespace BlockRegistry

variable {reg : BlockRegistry} {dev : BlockHandle}

lemma accepts (mem : dev ∈ reg.devices) {lba : Nat} (hi : lba < dev.sectorCount) :
    dev.Accepts lba := by
  intro info hf
  have word := reg.words dev mem
  obtain ⟨parent, -, -, infoMem, made⟩ := reg.partitions dev mem info hf
  have countEq : info.lbaCount = dev.sectorCount := by
    cases infoMem with
    | none => cases made
    | some => exact congrArg BlockHandle.sectorCount (Option.some.inj made)
  rw [countEq, u64_of_lt (by omega)]
  exact hi

end BlockRegistry

namespace BlockLayer

variable {dev : BlockHandle} {lba : Nat} {l : BlockLayer DiskContents}
  {reg : BlockRegistry}

structure Coherent (registry : BlockRegistry) (layer : BlockLayer DiskContents) : Prop where
  placed : ∀ slot, (layer.lines slot).valid = true → ∀ dev ∈ registry.devices,
    (layer.lines slot).dev = dev.address →
      slot = slotFor dev (layer.lines slot).lba ∧ (layer.lines slot).lba < 2 ^ 64
  fresh : ∀ slot, (layer.lines slot).valid = true → ∀ dev ∈ registry.devices,
    (layer.lines slot).dev = dev.address →
      (layer.lines slot).data = layer.disks (dev.target (layer.lines slot).lba).1
        (dev.target (layer.lines slot).lba).2

def Alone (reg : BlockRegistry) (dev : BlockHandle) (lba : Nat)
    (lines : Fin cacheLines → CacheLine) : Prop :=
  ∀ slot, (lines slot).valid = true → ∀ other ∈ reg.devices,
    (lines slot).dev = other.address → other ≠ dev → other.target (lines slot).lba ≠ dev.target lba

variable {data : Sector} {post : BlockLayer DiskContents}

section
variable (mem : dev ∈ reg.devices)
include mem

lemma Alone.install {hp n : Nat} {s : Fin cacheLines} {lines : Fin cacheLines → CacheLine}
    (alone : Alone reg dev hp lines) :
    Alone reg dev hp (update lines s ⟨dev.address, n, true, false, data⟩) := by
  intro o hv owner ownerMem ownerEq foreign
  by_cases eq : o = s
  · subst eq
    simp only [update_self] at ownerEq
    exact absurd (reg.distinct dev mem owner ownerMem ownerEq).symm foreign
  rw [update_of_ne eq] at hv ownerEq ⊢
  exact alone o hv owner ownerMem ownerEq foreign

lemma Coherent.install (lbaLt : lba < 2 ^ 64) (h : Coherent reg l)
    (lines : post.lines = update l.lines (slotFor dev lba) ⟨dev.address, lba, true, false, data⟩)
    (own : data = post.disks (dev.target lba).1 (dev.target lba).2)
    (others : ∀ s ≠ slotFor dev lba, (l.lines s).valid = true →
      ∀ owner ∈ reg.devices, (l.lines s).dev = owner.address →
        post.disks (owner.target (l.lines s).lba).1
            (owner.target (l.lines s).lba).2 =
          l.disks (owner.target (l.lines s).lba).1
            (owner.target (l.lines s).lba).2) : Coherent reg post := by
  constructor
  · intro s hv owner ownerMem ownerEq
    rw [lines] at hv ownerEq ⊢
    by_cases eq : s = slotFor dev lba
    · subst eq
      simp only [update_self] at ownerEq ⊢
      rw [reg.distinct dev mem owner ownerMem ownerEq]
      exact ⟨rfl, lbaLt⟩
    rw [update_of_ne eq] at hv ownerEq ⊢
    exact h.placed s hv owner ownerMem ownerEq
  intro s hv owner ownerMem ownerEq
  rw [lines] at hv ownerEq ⊢
  by_cases eq : s = slotFor dev lba
  · subst eq
    simp only [update_self] at ownerEq ⊢
    rw [← reg.distinct dev mem owner ownerMem ownerEq]
    exact own
  rw [update_of_ne eq] at hv ownerEq ⊢
  rw [others s eq hv owner ownerMem ownerEq]
  exact h.fresh s hv owner ownerMem ownerEq

lemma Coherent.write (lbaLt : lba < 2 ^ 64) (h : Coherent reg l) (alone : Alone reg dev lba l.lines)
    (disks : post.disks = l.disks.set (dev.target lba) data)
    (lines : post.lines = update l.lines (slotFor dev lba)
      ⟨dev.address, lba, true, false, data⟩) : Coherent reg post := by
  refine h.install mem lbaLt lines ?_ ?_
  · rw [disks, DiskContents.set_same]
  intro s differ hv owner ownerMem ownerEq
  obtain ⟨slotEq, cachedLt⟩ := h.placed s hv owner ownerMem ownerEq
  rw [disks, DiskContents.set_other]
  by_cases own : owner = dev
  · -- the line of another sector of the eq handle
    subst own
    intro sameTarget
    have lbaEq := BlockHandle.target_injective cachedLt lbaLt sameTarget
    rw [lbaEq] at slotEq
    exact differ slotEq
  · exact alone s hv owner ownerMem ownerEq own

lemma blockCacheRead_coherent (readable : dev.hasRead = true)
    (hi : lba < dev.sectorCount) (h : Coherent reg l) :
      (l.blockCacheRead reliableDriver dev lba).1 =
        some (l.disks (dev.target lba).1 (dev.target lba).2) ∧
      (l.blockCacheRead reliableDriver dev lba).2.disks = l.disks ∧
      Coherent reg (l.blockCacheRead reliableDriver dev lba).2 := by
  have lbaLt : lba < 2 ^ 64 := lt_trans hi (reg.words dev mem)
  have ok := reg.accepts mem hi
  have out := cacheRead reliableDriver dev lba l
  generalize l.blockCacheRead reliableDriver dev lba = res at out
  cases out with
  | hit held lines _ disks =>
    simp only [CacheLine.holds, Bool.and_eq_true, beq_iff_eq] at held
    obtain ⟨⟨hv, owner⟩, lbaEq⟩ := held
    have dataEq := h.fresh _ hv dev mem owner
    rw [lbaEq] at dataEq
    refine ⟨congrArg some dataEq, disks, ?_, ?_⟩
    · rw [lines]
      exact h.placed
    rw [lines, disks]
    exact h.fresh
  | refused _ closed =>
    rcases closed with closed | closed
    · rw [readable] at closed; cases closed
    · exact absurd ok closed
  | failed _ _ ans => cases ans
  | @filled _ data _ _ ans lines =>
    obtain ⟨dataEq, disks⟩ := Prod.mk.inj ans
    have secEq : data 0 = l.disks (dev.target lba).1 (dev.target lba).2 := by
      rw [← Option.some.inj dataEq]
      dsimp only
      rw [Nat.add_zero, u64_of_lt (BlockHandle.target_lt lbaLt)]
    refine ⟨congrArg some secEq, disks.symm, h.install mem lbaLt lines ?_ ?_⟩
    · rw [secEq, disks]
    intro s _ _ owner _ _
    rw [disks]

end

lemma blockCacheWrite_coherent (l : BlockLayer DiskContents) (data : Sector)
    (mem : dev ∈ reg.devices) (writable : dev.hasWrite = true) (hi : lba < dev.sectorCount) :
    (l.blockCacheWrite reliableDriver dev lba data).1 = true ∧
      (l.blockCacheWrite reliableDriver dev lba data).2.disks = l.disks.set (dev.target lba) data ∧
      (l.blockCacheWrite reliableDriver dev lba data).2.lines =
        update l.lines (slotFor dev lba) ⟨dev.address, lba, true, false, data⟩ := by
  have lbaLt : lba < 2 ^ 64 := lt_trans hi (reg.words dev mem)
  have ok := reg.accepts mem hi
  have out := cacheWrite reliableDriver dev lba data l
  generalize l.blockCacheWrite reliableDriver dev lba data = res at out
  cases out with
  | refused closed =>
    rcases closed with closed | closed
    · rw [writable] at closed; cases closed
    · exact absurd ok closed
  | failed _ ans => cases ans
  | written _ ans lines =>
    refine ⟨rfl, ?_, lines⟩
    rw [← (Prod.mk.inj ans).2]
    simp [u64_of_lt (BlockHandle.target_lt lbaLt)]

lemma readSectors_coherent (mem : dev ∈ reg.devices) (readable : dev.hasRead = true)
    (sectorSize : dev.sectorSize = blockSectorSize) (rem index : Nat)
    (hi : lba + (index + rem) ≤ dev.sectorCount) (buf : ByteMemory)
    (h : Coherent reg l) :
    ∃ filled post, readSectors reliableDriver dev lba rem index buf l = (true, filled, post) ∧
      post.disks = l.disks ∧ Coherent reg post ∧
      (∀ a < index * blockSectorSize, filled a = buf a) ∧
      ∀ step < rem, sectorAt filled ((index + step) * blockSectorSize) =
        l.disks (dev.target (lba + (index + step))).1
          (dev.target (lba + (index + step))).2 := by
  induction rem generalizing index buf l with
  | zero =>
    exact ⟨buf, l, rfl, rfl, h, fun _ _ => rfl, fun _ impossible => absurd impossible (by omega)⟩
  | succ _ ih =>
    have word := reg.words dev mem
    have lbaEq : u64 (lba + index) = lba + index := u64_of_lt (by omega)
    obtain ⟨ans, disks, kept⟩ := blockCacheRead_coherent mem readable
      (show lba + index < dev.sectorCount by omega) h
    simp only [readSectors, lbaEq, ans]
    obtain ⟨filled, post, eqn, disksAfter, cohAfter, pre, sectors⟩ :=
      ih (index + 1) (by omega)
        (buf.blit (index * dev.sectorSize) blockSectorSize
          (l.disks (dev.target (lba + index)).1 (dev.target (lba + index)).2).bytes) kept
    have nextEq : (index + 1) * blockSectorSize = index * blockSectorSize + blockSectorSize :=
      Nat.succ_mul _ _
    refine ⟨filled, post, eqn, disksAfter.trans disks, cohAfter, ?_, ?_⟩
    · intro a addrLt
      rw [pre a (by omega), sectorSize, ByteMemory.blit_outside (by omega)]
    intro step stepLt
    cases step with
    | zero =>
      -- the sector was copied here, and the later ones are behind it
      funext off
      have offsetLt := off.isLt
      rw [Nat.add_zero, sectorAt, pre _ (by omega), sectorSize, ByteMemory.blit_inside off.isLt]
      simp only [Sector.bytes, off.isLt, dif_pos]
    | succ step =>
      rw [show index + (step + 1) = index + 1 + step by omega, sectors step (by omega), disks]

def writeContents (dev : BlockHandle) (lba : Nat) (buffer : ByteMemory) :
    Nat → Nat → DiskContents → DiskContents
  | 0, _, contents => contents
  | remaining + 1, idx, contents =>
    writeContents dev lba buffer remaining (idx + 1)
      (contents.set (dev.target (lba + idx)) (sectorAt buffer (idx * blockSectorSize)))

lemma writeSectors_coherent (mem : dev ∈ reg.devices) (writable : dev.hasWrite = true)
    (sectorSize : dev.sectorSize = blockSectorSize) (buf : ByteMemory) (rem index : Nat)
    (hi : lba + (index + rem) ≤ dev.sectorCount)
    (alone : ∀ step < rem, Alone reg dev (lba + (index + step)) l.lines)
    (h : Coherent reg l) :
    ∃ post, writeSectors reliableDriver dev lba buf rem index l = (true, post) ∧
      post.disks = writeContents dev lba buf rem index l.disks ∧
      Coherent reg post := by
  induction rem generalizing index l with
  | zero => exact ⟨l, rfl, rfl, h⟩
  | succ _ ih =>
    have word := reg.words dev mem
    have lbaEq : u64 (lba + index) = lba + index := u64_of_lt (by omega)
    obtain ⟨ans, disks, lines⟩ := blockCacheWrite_coherent l
      (sectorAt buf (index * blockSectorSize)) mem writable
      (show lba + index < dev.sectorCount by omega)
    have kept := h.write mem (by omega) (alone 0 (by omega)) disks lines
    simp only [writeSectors, lbaEq, sectorSize, ans, if_true]
    obtain ⟨post, eqn, disksAfter, cohAfter⟩ := ih (index + 1) (by omega)
      (by
        intro step stepLt
        rw [lines, show index + 1 + step = index + (step + 1) by omega]
        exact (alone (step + 1) (by omega)).install mem) kept
    refine ⟨post, eqn, ?_, cohAfter⟩
    rw [disksAfter, disks]
    rfl

end BlockLayer

structure BlockRegistry.Plain (registry : BlockRegistry) : Prop where
  readable : ∀ dev ∈ registry.devices, dev.hasRead = true
  writable : ∀ dev ∈ registry.devices, dev.hasWrite = true
  sectorSize : ∀ dev ∈ registry.devices, dev.sectorSize = blockSectorSize

namespace BlockCall

def InRange (reg : BlockRegistry) : BlockCall → Prop
  | .read dev lba _ cnt => ∃ device ∈ reg.devices, dev = some device ∧
      lba + cnt ≤ device.sectorCount
  | .write dev lba _ cnt => ∃ device ∈ reg.devices, dev = some device ∧
      lba + cnt ≤ device.sectorCount

def Alone (reg : BlockRegistry) (lines : Fin cacheLines → CacheLine) : BlockCall → Prop
  | .read _ _ _ _ => True
  | .write none _ _ _ => True
  | .write (some dev) lba _ cnt => ∀ idx < cnt, BlockLayer.Alone reg dev (lba + idx) lines

def record (contents : DiskContents) : BlockCall → DiskContents
  | .read _ _ _ _ => contents
  | .write none _ _ _ => contents
  | .write (some dev) lba buffer cnt => writeContents dev lba buffer cnt 0 contents

end BlockCall

namespace BlockLayer

variable {reg : BlockRegistry} {l : BlockLayer DiskContents}

def runCalls (layer : BlockLayer DiskContents) (calls : List BlockCall) :
    BlockLayer DiskContents :=
  calls.foldl (BlockCall.run reliableDriver) layer

def WritesAlone (reg : BlockRegistry) :
    BlockLayer DiskContents → List BlockCall → Prop
  | _, [] => True
  | l, call :: calls => call.Alone reg l.lines ∧ WritesAlone reg (call.run reliableDriver l) calls

lemma Coherent.run (plain : reg.Plain) (h : Coherent reg l)
    {c : BlockCall} (inRange : c.InRange reg) (alone : c.Alone reg l.lines) :
    Coherent reg (c.run reliableDriver l) ∧ (c.run reliableDriver l).disks = c.record l.disks := by
  cases c with
  | read _ lba buf cnt =>
    obtain ⟨device, mem, rfl, hi⟩ := inRange
    obtain ⟨filled, post, eqn, disks, kept, -⟩ := readSectors_coherent mem
      (plain.readable device mem) (plain.sectorSize device mem) cnt 0
      (show lba + (0 + cnt) ≤ device.sectorCount by omega) buf h
    simp only [BlockCall.run, blockRead, eqn, if_true]
    exact ⟨⟨kept.placed, kept.fresh⟩, disks⟩
  | write _ lba buf cnt =>
    obtain ⟨device, mem, rfl, hi⟩ := inRange
    obtain ⟨post, eqn, disks, kept⟩ := writeSectors_coherent mem
      (plain.writable device mem) (plain.sectorSize device mem) buf cnt 0
      (show lba + (0 + cnt) ≤ device.sectorCount by omega)
      (fun step stepLt => by rw [Nat.zero_add]; exact alone step stepLt) h
    simp only [BlockCall.run, blockWrite, eqn, if_true]
    exact ⟨⟨kept.placed, kept.fresh⟩, disks⟩

lemma Coherent.runCalls (plain : reg.Plain) {cs : List BlockCall}
    (h : Coherent reg l) (inRange : ∀ c ∈ cs, c.InRange reg)
    (alone : WritesAlone reg l cs) :
    Coherent reg (l.runCalls cs) ∧ (l.runCalls cs).disks = cs.foldl record l.disks := by
  induction cs generalizing l with
  | nil => exact ⟨h, rfl⟩
  | cons c _ ih =>
    obtain ⟨kept, disks⟩ := h.run plain (inRange c mem_cons_self) alone.1
    obtain ⟨final, contents⟩ := ih kept
      (fun hl mem => inRange hl (mem_cons_of_mem _ mem)) alone.2
    refine ⟨final, ?_⟩
    rw [foldl_cons, ← disks]
    exact contents

lemma Coherent.init (contents : DiskContents) : Coherent reg (init contents) :=
  ⟨fun _ hv => absurd hv Bool.false_ne_true, fun _ hv => absurd hv Bool.false_ne_true⟩

end BlockLayer

/-- Reads return what was written last, unless a write finds another handle's line. -/
theorem blockRead_latest (reg : BlockRegistry) (plain : reg.Plain) (initial : DiskContents)
    (cs : List BlockCall) (inRange : ∀ c ∈ cs, c.InRange reg)
    (alone : BlockLayer.WritesAlone reg (init initial) cs) {dev : BlockHandle}
    (member : dev ∈ reg.devices) {lba cnt : Nat} (hi : lba + cnt ≤ dev.sectorCount)
    (buffer : ByteMemory) :
    (((init initial).runCalls cs).blockRead reliableDriver (some dev) lba buffer
      cnt).1 = 0 ∧
    ∀ i < cnt,
      sectorAt (((init initial).runCalls cs).blockRead reliableDriver (some dev) lba
        buffer cnt).2.1 (i * blockSectorSize) =
      cs.foldl record initial (dev.target (lba + i)).1
        (dev.target (lba + i)).2 := by
  obtain ⟨h, disks⟩ := (BlockLayer.Coherent.init initial).runCalls plain inRange alone
  obtain ⟨filled, post, eqn, -, -, -, sectors⟩ := readSectors_coherent member
    (plain.readable dev member) (plain.sectorSize dev member) cnt 0
    (show lba + (0 + cnt) ≤ dev.sectorCount by omega) buffer h
  simp only [blockRead, eqn, if_true, true_and]
  intro i indexLt
  have sector := sectors i indexLt
  rw [Nat.zero_add, disks] at sector
  exact sector

lemma smallRegistry_plain : smallRegistry.Plain := by
  constructor <;> simp [smallRegistry, smallDisk, smallPartition, blockSectorSize]

theorem blockRead_latest_partition : smallDisk ∈ smallRegistry.devices ∧
    sectorAt (((init fun _ _ _ => 0).runCalls
        [.write (some smallPartition) 3 (fun _ => 1) 1]).blockRead reliableDriver
          (some smallDisk) 13 (fun _ => 0) 1).2.1 0 = fun _ => 1 := by
  have member : smallDisk ∈ smallRegistry.devices := by simp [smallRegistry]
  have partitionMember : smallPartition ∈ smallRegistry.devices := by simp [smallRegistry]
  refine ⟨member, ?_⟩
  have sector := (blockRead_latest smallRegistry smallRegistry_plain (fun _ _ _ => 0)
    [.write (some smallPartition) 3 (fun _ => 1) 1]
    (by
      intro c callMem
      rw [mem_singleton.mp callMem]
      exact ⟨smallPartition, partitionMember, rfl, by decide⟩)
    ⟨fun _ _ _ hv => absurd hv Bool.false_ne_true, trivial⟩ member
    (show 13 + 1 ≤ smallDisk.sectorCount by decide) (fun _ => 0)).2 0 (by decide)
  rw [Nat.zero_mul] at sector
  rw [sector]
  rfl

/-- The line of the partition is not changed by a write through the disk. -/
theorem blockRead_stale : ∃ cs : List BlockCall, (∀ c ∈ cs, c.InRange smallRegistry) ∧
    sectorAt (((init fun _ _ _ => 0).runCalls cs).blockRead reliableDriver
        (some smallPartition) 3 (fun _ => 0) 1).2.1 0 = (fun _ => 0) ∧
    cs.foldl record (fun _ _ _ => 0) (smallPartition.target 3).1
      (smallPartition.target 3).2 = fun _ => 1 := by
  refine ⟨[.read (some smallPartition) 3 (fun _ => 0) 1,
    .write (some smallDisk) 13 (fun _ => 1) 1], ?_, ?_, ?_⟩
  · intro c member
    simp only [mem_cons, not_mem_nil, or_false] at member
    rcases member with rfl | rfl
    · exact ⟨smallPartition, by simp [smallRegistry], rfl, by decide⟩
    · exact ⟨smallDisk, by simp [smallRegistry], rfl, by decide⟩
  · funext off
    revert off
    decide +kernel
  funext off
  revert off
  decide +kernel

end HnxKernel
