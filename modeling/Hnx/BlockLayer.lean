import Hnx.ByteMemory

/-!
# The block layer

The drivers of the disks are a parameter; `transfers` records what was handed to them.
-/

namespace HnxKernel

open Function

def blockSectorSize : Nat := 512

def cacheLines : Nat := 64

abbrev Sector := Fin blockSectorSize → UInt8

def Sector.bytes (sector : Sector) : Nat → UInt8 :=
  fun idx => if inside : idx < blockSectorSize then sector ⟨idx, inside⟩ else 0

def sectorAt (buf : ByteMemory) (off : Nat) : Sector := fun idx => buf (off + idx)

/-- The parent is named by its address. -/
structure PartitionInfo where
  parent : Nat
  lbaOffset : Nat
  lbaCount : Nat

/-- The operations of a partition are `part_read` and `part_write`. -/
structure BlockHandle where
  address : Nat
  sectorCount : Nat
  sectorSize : Nat
  hasRead : Bool
  hasWrite : Bool
  driverData : Option PartitionInfo

/-- A transfer names the disk, the first sector and their number, and it can fail. -/
structure DiskDriver (Disks : Type) where
  read : Nat → Nat → Nat → Disks → Option (Nat → Sector) × Disks
  write : Nat → Nat → (Nat → Sector) → Nat → Disks → Bool × Disks

structure CacheLine where
  dev : Nat
  lba : Nat
  valid : Bool
  dirty : Bool
  data : Sector

def CacheLine.holds (line : CacheLine) (dev : BlockHandle) (lba : Nat) : Bool :=
  line.valid && line.dev == dev.address && line.lba == lba

structure CacheCounters where
  hits : Nat
  misses : Nat
  writes : Nat
  evictions : Nat

structure BlockStats where
  reads : Nat
  writes : Nat
  readSectors : Nat
  writeSectors : Nat
  errors : Nat

structure BlockLayer (Disks : Type) where
  disks : Disks
  transfers : List (Nat × Nat)
  lines : Fin cacheLines → CacheLine
  counters : CacheCounters
  stats : BlockStats

/-- The numbers of `count` sectors from `lba` on, as 64-bit words. -/
def sectorNumbers (lba cnt : Nat) : List Nat := (List.range cnt).map fun idx => u64 (lba + idx)

def blockRegisterDevice (device : BlockHandle) : BlockHandle :=
  { device with
    sectorSize := if device.sectorSize = 0 then blockSectorSize else device.sectorSize }

/-- The two allocations may fail. -/
def partitionRegister (deviceMemory infoMemory : Option Nat) (parent : BlockHandle)
    (lbaOffset lbaCount : Nat) : Option BlockHandle :=
  match deviceMemory, infoMemory with
  | some address, some _ =>
    some (blockRegisterDevice
      { address
        sectorCount := lbaCount
        sectorSize := parent.sectorSize
        hasRead := true
        hasWrite := true
        driverData := some { parent := parent.address, lbaOffset, lbaCount } })
  | _, _ => none

namespace BlockLayer

variable {Disks : Type}

def init (disks : Disks) : BlockLayer Disks where
  disks
  transfers := []
  lines := fun _ => ⟨0, 0, false, false, fun _ => 0⟩
  counters := ⟨0, 0, 0, 0⟩
  stats := ⟨0, 0, 0, 0, 0⟩

def driverRead (drv : DiskDriver Disks) (disk lba cnt : Nat) (layer : BlockLayer Disks) :
    Option (Nat → Sector) × BlockLayer Disks :=
  let res := drv.read disk lba cnt layer.disks
  (res.1, { layer with
      disks := res.2
      transfers := layer.transfers ++ (sectorNumbers lba cnt).map (Prod.mk disk) })

def driverWrite (drv : DiskDriver Disks) (disk lba : Nat) (data : Nat → Sector) (cnt : Nat)
    (layer : BlockLayer Disks) : Bool × BlockLayer Disks :=
  let res := drv.write disk lba data cnt layer.disks
  (res.1, { layer with
      disks := res.2
      transfers := layer.transfers ++ (sectorNumbers lba cnt).map (Prod.mk disk) })

def partRead (drv : DiskDriver Disks) (info : PartitionInfo) (lba cnt : Nat)
    (layer : BlockLayer Disks) : Option (Nat → Sector) × BlockLayer Disks :=
  if u64 (lba + cnt) > info.lbaCount then
    (none, layer)
  else
    layer.driverRead drv info.parent (u64 (info.lbaOffset + lba)) cnt

def partWrite (drv : DiskDriver Disks) (info : PartitionInfo) (lba : Nat)
    (data : Nat → Sector) (cnt : Nat) (layer : BlockLayer Disks) : Bool × BlockLayer Disks :=
  if u64 (lba + cnt) > info.lbaCount then
    (false, layer)
  else
    layer.driverWrite drv info.parent (u64 (info.lbaOffset + lba)) data cnt

def deviceRead (drv : DiskDriver Disks) (dev : BlockHandle) (lba cnt : Nat)
    (layer : BlockLayer Disks) : Option (Nat → Sector) × BlockLayer Disks :=
  match dev.driverData with
  | none => layer.driverRead drv dev.address lba cnt
  | some info => layer.partRead drv info lba cnt

def deviceWrite (drv : DiskDriver Disks) (dev : BlockHandle) (lba : Nat)
    (data : Nat → Sector) (cnt : Nat) (layer : BlockLayer Disks) : Bool × BlockLayer Disks :=
  match dev.driverData with
  | none => layer.driverWrite drv dev.address lba data cnt
  | some info => layer.partWrite drv info lba data cnt

def slotFor (dev : BlockHandle) (lba : Nat) : Fin cacheLines :=
  Fin.ofNat 64 (u64 (u64 (lba * 2654435761) + dev.address / 2 ^ 4))

def setLine (layer : BlockLayer Disks) (slot : Fin cacheLines) (line : CacheLine) :
    BlockLayer Disks :=
  { layer with lines := update layer.lines slot line }

/-- `g_evictions++`, if the line holds another sector. -/
def countEviction (layer : BlockLayer Disks) (dev : BlockHandle) (lba : Nat) :
    BlockLayer Disks :=
  let line := layer.lines (slotFor dev lba)
  if line.valid && (line.dev != dev.address || line.lba != lba) then
    { layer with
      counters := { layer.counters with evictions := u64 (layer.counters.evictions + 1) } }
  else
    layer

/-- A failed transfer may leave anything in the line, which is not valid afterwards. -/
def blockCacheRead (drv : DiskDriver Disks) (dev : BlockHandle) (lba : Nat)
    (layer : BlockLayer Disks) : Option Sector × BlockLayer Disks :=
  let slot := slotFor dev lba
  let line := layer.lines slot
  if line.holds dev lba then
    (some line.data,
      { layer with counters := { layer.counters with hits := u64 (layer.counters.hits + 1) } })
  else
    let layer :=
      { layer with counters := { layer.counters with misses := u64 (layer.counters.misses + 1) } }
    let layer := layer.countEviction dev lba
    let res := if dev.hasRead then layer.deviceRead drv dev lba 1 else (none, layer)
    match res.1 with
    | none => (none, res.2.setLine slot { line with valid := false })
    | some data => (some (data 0), res.2.setLine slot ⟨dev.address, lba, true, false, data 0⟩)

def blockCacheWrite (drv : DiskDriver Disks) (dev : BlockHandle) (lba : Nat) (data : Sector)
    (layer : BlockLayer Disks) : Bool × BlockLayer Disks :=
  let layer :=
    { layer with counters := { layer.counters with writes := u64 (layer.counters.writes + 1) } }
  let res :=
    if dev.hasWrite then layer.deviceWrite drv dev lba (fun _ => data) 1 else (false, layer)
  if res.1 then
    (true, (res.2.countEviction dev lba).setLine (slotFor dev lba)
      ⟨dev.address, lba, true, false, data⟩)
  else
    (false, res.2)

def readSectors (drv : DiskDriver Disks) (dev : BlockHandle) (lba : Nat) :
    Nat → Nat → ByteMemory → BlockLayer Disks → Bool × ByteMemory × BlockLayer Disks
  | 0, _, buf, l => (true, buf, l)
  | remaining + 1, idx, buf, l =>
    let res := l.blockCacheRead drv dev (u64 (lba + idx))
    match res.1 with
    | none => (false, buf, res.2)
    | some data =>
      readSectors drv dev lba remaining (idx + 1)
        (buf.blit (idx * dev.sectorSize) blockSectorSize data.bytes) res.2

def writeSectors (drv : DiskDriver Disks) (dev : BlockHandle) (lba : Nat)
    (buf : ByteMemory) : Nat → Nat → BlockLayer Disks → Bool × BlockLayer Disks
  | 0, _, l => (true, l)
  | remaining + 1, idx, l =>
    let res := l.blockCacheWrite drv dev (u64 (lba + idx))
      (sectorAt buf (idx * dev.sectorSize))
    if res.1 then
      writeSectors drv dev lba buf remaining (idx + 1) res.2
    else
      (false, res.2)

def countError (layer : BlockLayer Disks) : BlockLayer Disks :=
  { layer with stats := { layer.stats with errors := u64 (layer.stats.errors + 1) } }

def countRead (layer : BlockLayer Disks) (cnt : Nat) : BlockLayer Disks :=
  { layer with
    stats :=
      { layer.stats with
        reads := u64 (layer.stats.reads + 1)
        readSectors := u64 (layer.stats.readSectors + cnt) } }

def countWrite (layer : BlockLayer Disks) (cnt : Nat) : BlockLayer Disks :=
  { layer with
    stats :=
      { layer.stats with
        writes := u64 (layer.stats.writes + 1)
        writeSectors := u64 (layer.stats.writeSectors + cnt) } }

def blockRead (drv : DiskDriver Disks) (dev : Option BlockHandle) (lba : Nat)
    (buf : ByteMemory) (cnt : Nat) (layer : BlockLayer Disks) :
      Int × ByteMemory × BlockLayer Disks :=
  match dev with
  | none => (-1, buf, layer.countError)
  | some dev =>
    let res := readSectors drv dev lba cnt 0 buf layer
    if res.1 then
      (0, res.2.1, res.2.2.countRead cnt)
    else
      (-1, res.2.1, res.2.2.countError)

def blockWrite (drv : DiskDriver Disks) (dev : Option BlockHandle) (lba : Nat)
    (buf : ByteMemory) (cnt : Nat) (layer : BlockLayer Disks) : Int × BlockLayer Disks :=
  match dev with
  | none => (-1, layer.countError)
  | some dev =>
    let res := writeSectors drv dev lba buf cnt 0 layer
    if res.1 then
      (0, res.2.countWrite cnt)
    else
      (-1, res.2.countError)

end BlockLayer

/-- A partition was registered on a whole disk, and no two devices are at one address. -/
structure BlockRegistry where
  devices : List BlockHandle
  distinct : ∀ first ∈ devices, ∀ second ∈ devices, first.address = second.address → first = second
  words : ∀ device ∈ devices, device.sectorCount < 2 ^ 64
  partitions : ∀ device ∈ devices, ∀ info, device.driverData = some info →
    ∃ parent ∈ devices, parent.driverData = none ∧ ∃ infoMemory,
      partitionRegister (some device.address) infoMemory parent info.lbaOffset info.lbaCount =
        some device

inductive BlockCall where
  | read (dev : Option BlockHandle) (lba : Nat) (buf : ByteMemory) (count : Nat)
  | write (dev : Option BlockHandle) (lba : Nat) (buf : ByteMemory) (count : Nat)

namespace BlockCall

def dev : BlockCall → Option BlockHandle
  | .read dev _ _ _ => dev
  | .write dev _ _ _ => dev

def run {Disks : Type} (drv : DiskDriver Disks) (layer : BlockLayer Disks) :
    BlockCall → BlockLayer Disks
  | .read dev lba buf cnt => (layer.blockRead drv dev lba buf cnt).2.2
  | .write dev lba buf cnt => (layer.blockWrite drv dev lba buf cnt).2

end BlockCall

inductive BlockLayer.Reachable {Disks : Type} (drv : DiskDriver Disks)
    (reg : BlockRegistry) : BlockLayer Disks → Prop
  | init (disks : Disks) : Reachable drv reg (BlockLayer.init disks)
  | call {layer : BlockLayer Disks} (call : BlockCall) :
      Reachable drv reg layer →
      (∀ dev, call.dev = some dev → dev ∈ reg.devices) →
      Reachable drv reg (call.run drv layer)

namespace BlockHandle

def Accepts (dev : BlockHandle) (lba : Nat) : Prop :=
  ∀ info, dev.driverData = some info → u64 (lba + 1) ≤ info.lbaCount

def target (dev : BlockHandle) (lba : Nat) : Nat × Nat :=
  match dev.driverData with
  | none => (dev.address, lba)
  | some info => (info.parent, u64 (info.lbaOffset + lba))

end BlockHandle

namespace BlockLayer

variable {Disks : Type} {drv : DiskDriver Disks} {dev : BlockHandle} {lba : Nat}
  {l : BlockLayer Disks}

lemma deviceRead_of_accepts (ok : dev.Accepts lba) :
    l.deviceRead drv dev lba 1 = l.driverRead drv (dev.target lba).1 (dev.target lba).2 1 := by
  unfold deviceRead BlockHandle.target
  cases found : dev.driverData with
  | none => rfl
  | some info =>
    have inside := ok info found
    simp only [partRead]
    rw [if_neg (by omega)]

lemma deviceRead_of_not_accepts (refused : ¬ dev.Accepts lba) :
    l.deviceRead drv dev lba 1 = (none, l) := by
  unfold deviceRead
  cases found : dev.driverData with
  | none => simp [BlockHandle.Accepts, found] at refused
  | some info =>
    have out : u64 (lba + 1) > info.lbaCount := by simpa [BlockHandle.Accepts, found] using refused
    simp only [partRead]
    rw [if_pos out]

lemma deviceWrite_of_accepts {data : Nat → Sector} (ok : dev.Accepts lba) :
    l.deviceWrite drv dev lba data 1 =
      l.driverWrite drv (dev.target lba).1 (dev.target lba).2 data 1 := by
  unfold deviceWrite BlockHandle.target
  cases found : dev.driverData with
  | none => rfl
  | some info =>
    have inside := ok info found
    simp only [partWrite]
    rw [if_neg (by omega)]

lemma deviceWrite_of_not_accepts {data : Nat → Sector} (refused : ¬ dev.Accepts lba) :
    l.deviceWrite drv dev lba data 1 = (false, l) := by
  unfold deviceWrite
  cases found : dev.driverData with
  | none => simp [BlockHandle.Accepts, found] at refused
  | some info =>
    have out : u64 (lba + 1) > info.lbaCount := by simpa [BlockHandle.Accepts, found] using refused
    simp only [partWrite]
    rw [if_pos out]

lemma countEviction_lines : (l.countEviction dev lba).lines = l.lines := by
  simp only [countEviction]
  split <;> rfl

lemma countEviction_transfers : (l.countEviction dev lba).transfers = l.transfers := by
  simp only [countEviction]
  split <;> rfl

lemma countEviction_disks : (l.countEviction dev lba).disks = l.disks := by
  simp only [countEviction]
  split <;> rfl

def targetTransfers (dev : BlockHandle) (lba : Nat) : List (Nat × Nat) :=
  (sectorNumbers (dev.target lba).2 1).map (Prod.mk (dev.target lba).1)

inductive CacheRead (drv : DiskDriver Disks) (dev : BlockHandle) (lba : Nat)
    (layer : BlockLayer Disks) : Option Sector × BlockLayer Disks → Prop
  | hit {post : BlockLayer Disks} (held : (layer.lines (slotFor dev lba)).holds dev lba = true)
      (lines : post.lines = layer.lines) (transfers : post.transfers = layer.transfers)
      (disks : post.disks = layer.disks) :
      CacheRead drv dev lba layer (some (layer.lines (slotFor dev lba)).data, post)
  | refused {post : BlockLayer Disks}
      (missed : (layer.lines (slotFor dev lba)).holds dev lba = false)
      (closed : dev.hasRead = false ∨ ¬ dev.Accepts lba)
      (lines : post.lines = update layer.lines (slotFor dev lba)
        { layer.lines (slotFor dev lba) with valid := false })
      (transfers : post.transfers = layer.transfers) (disks : post.disks = layer.disks) :
      CacheRead drv dev lba layer (none, post)
  | failed {post : BlockLayer Disks}
      (missed : (layer.lines (slotFor dev lba)).holds dev lba = false)
      (accepted : dev.Accepts lba)
      (answer : (drv.read (dev.target lba).1 (dev.target lba).2 1 layer.disks).1 = none)
      (lines : post.lines = update layer.lines (slotFor dev lba)
        { layer.lines (slotFor dev lba) with valid := false })
      (transfers : post.transfers = layer.transfers ++ targetTransfers dev lba) :
      CacheRead drv dev lba layer (none, post)
  | filled {post : BlockLayer Disks} {data : Nat → Sector}
      (missed : (layer.lines (slotFor dev lba)).holds dev lba = false)
      (accepted : dev.Accepts lba)
      (answer : drv.read (dev.target lba).1 (dev.target lba).2 1 layer.disks =
        (some data, post.disks))
      (lines : post.lines = update layer.lines (slotFor dev lba)
        ⟨dev.address, lba, true, false, data 0⟩)
      (transfers : post.transfers = layer.transfers ++ targetTransfers dev lba) :
      CacheRead drv dev lba layer (some (data 0), post)

inductive CacheWrite (drv : DiskDriver Disks) (dev : BlockHandle) (lba : Nat) (data : Sector)
    (layer : BlockLayer Disks) : Bool × BlockLayer Disks → Prop
  | refused {post : BlockLayer Disks} (closed : dev.hasWrite = false ∨ ¬ dev.Accepts lba)
      (lines : post.lines = layer.lines) (transfers : post.transfers = layer.transfers) :
      CacheWrite drv dev lba data layer (false, post)
  | failed {post : BlockLayer Disks} (accepted : dev.Accepts lba)
      (answer : (drv.write (dev.target lba).1 (dev.target lba).2 (fun _ => data) 1
        layer.disks).1 = false)
      (lines : post.lines = layer.lines)
      (transfers : post.transfers = layer.transfers ++ targetTransfers dev lba) :
      CacheWrite drv dev lba data layer (false, post)
  | written {post : BlockLayer Disks} (accepted : dev.Accepts lba)
      (answer : drv.write (dev.target lba).1 (dev.target lba).2 (fun _ => data) 1
        layer.disks = (true, post.disks))
      (lines : post.lines = update layer.lines (slotFor dev lba)
        ⟨dev.address, lba, true, false, data⟩)
      (transfers : post.transfers = layer.transfers ++ targetTransfers dev lba) :
      CacheWrite drv dev lba data layer (true, post)

lemma cacheRead (drv : DiskDriver Disks) (dev : BlockHandle) (lba : Nat) (l : BlockLayer Disks) :
    CacheRead drv dev lba l (l.blockCacheRead drv dev lba) := by
  cases held : (l.lines (slotFor dev lba)).holds dev lba with
  | true =>
    simp only [blockCacheRead, held, if_true]
    exact .hit held rfl rfl rfl
  | false =>
    simp only [blockCacheRead, held, Bool.false_eq_true, if_false]
    cases readable : dev.hasRead with
    | false =>
      simp only [Bool.false_eq_true, if_false]
      refine .refused held (.inl readable) ?_ ?_ ?_
      · simp [setLine, countEviction_lines]
      · simp [setLine, countEviction_transfers]
      · simp [setLine, countEviction_disks]
    | true =>
      by_cases ok : dev.Accepts lba
      · simp only [if_true, deviceRead_of_accepts ok, driverRead, countEviction_disks]
        cases answer : (drv.read (dev.target lba).1 (dev.target lba).2 1 l.disks).1 with
        | none =>
          refine .failed held ok answer ?_ ?_
          · simp [setLine, countEviction_lines]
          · simp [setLine, countEviction_transfers, targetTransfers]
        | some =>
          refine .filled held ok ?_ ?_ ?_
          · exact Prod.ext answer rfl
          · simp [setLine, countEviction_lines]
          · simp [setLine, countEviction_transfers, targetTransfers]
      simp only [if_true, deviceRead_of_not_accepts ok]
      refine .refused held (.inr ok) ?_ ?_ ?_
      · simp [setLine, countEviction_lines]
      · simp [setLine, countEviction_transfers]
      · simp [setLine, countEviction_disks]

lemma cacheWrite (drv : DiskDriver Disks) (dev : BlockHandle) (lba : Nat) (data : Sector)
    (l : BlockLayer Disks) :
      CacheWrite drv dev lba data l (l.blockCacheWrite drv dev lba data) := by
  unfold blockCacheWrite
  cases writable : dev.hasWrite with
  | false => exact .refused (.inl writable) rfl rfl
  | true =>
    by_cases ok : dev.Accepts lba
    · simp only [if_true, deviceWrite_of_accepts ok, driverWrite]
      cases answer : (drv.write (dev.target lba).1 (dev.target lba).2 (fun _ => data) 1
          l.disks).1 with
      | false => exact .failed ok answer rfl rfl
      | true =>
        simp only [if_true]
        refine .written ok ?_ ?_ ?_
        · simp only [setLine, countEviction_disks]
          exact Prod.ext answer rfl
        · simp [setLine, countEviction_lines]
        · simp [setLine, countEviction_transfers, targetTransfers]
    simp only [if_true, deviceWrite_of_not_accepts ok, Bool.false_eq_true, if_false]
    exact .refused (.inr ok) rfl rfl

end BlockLayer

end HnxKernel
