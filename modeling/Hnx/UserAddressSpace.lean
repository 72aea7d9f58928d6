import Hnx.PageTables
import Hnx.SyscallErrors

/-!
# User address spaces

An address space is its PML4, by physical address; `sys_mmap`, `sys_munmap` and the program break
use a part of a process.
-/

namespace HnxKernel

def userImageBase : Nat := 0x400000

def userTop : Nat := 0x800000000000

def mapLargePages (pml4 flags : Nat) : Nat → Nat → EStateM Halt Machine Int
  | 0, _ => return 0
  | cnt + 1, pa => do
    if (← pagingMap2m pml4 pa pa flags) ≠ .ok then
      return -1
    else
      mapLargePages pml4 flags cnt (pa + largePageSize)

def mapSupervisor2m (pml4 phys span flags : Nat) : EStateM Halt Machine Int :=
  let start := alignDown phys largePageSize
  let last := alignUp (u64 (phys + span)) largePageSize
  mapLargePages pml4 flags ((last - start) / largePageSize) start

def freeUserFrames (pt : Nat) : EStateM Halt Machine Unit :=
  Outcome.forEach (fun idx => do
    let mach ← get
    let entry := entryAt mach.memory pt idx
    if flagSet entry pagePresent && flagSet entry pageUser then
      freePage (entry &&& pageAddrMask)) (List.finRange 512)

def freeTables (skipHuge : Bool) (freeBelow : Nat → EStateM Halt Machine Unit) (tbl : Nat) :
    EStateM Halt Machine Unit :=
  Outcome.forEach (fun idx => do
    let mach ← get
    let entry := entryAt mach.memory tbl idx
    if !flagSet entry pagePresent || (skipHuge && flagSet entry pageHuge) then
      return ()
    else
      freeBelow (entry &&& pageAddrMask)
      let mach ← get
      freePage (entryAt mach.memory tbl idx &&& pageAddrMask)) (List.finRange 512)

def userAddressSpaceDestroy (pml4 : Nat) : EStateM Halt Machine Unit := do
  if pml4 = 0 then
    return ()
  else
    freeTables false (freeTables true (freeTables true freeUserFrames)) pml4
    freePage pml4

structure Window where
  phys : Nat
  span : Nat
  flags : Nat

def supervisorWindows (boot : BootInfo) (lapicBase : Nat) : List Window :=
  let plain := pagePresent ||| pageWritable
  let mmio := pagePresent ||| pageWritable ||| pageCacheDisable ||| pageWriteThrough
  [⟨0, userImageBase, plain⟩] ++ (if boot.framebufferBase ≠ 0 ∧ boot.framebufferSize ≠ 0 then
      [⟨boot.framebufferBase, boot.framebufferSize, mmio⟩] else []) ++
    [⟨lapicBase, largePageSize, mmio⟩] ++
    (if boot.initramfsBase ≠ 0 ∧ boot.initramfsSize ≠ 0 then
      [⟨boot.initramfsBase, boot.initramfsSize, plain⟩] else [])

def mapWindows (pml4 : Nat) : List Window → EStateM Halt Machine Int
  | [] => return 0
  | window :: windows => do
    if (← mapSupervisor2m pml4 window.phys window.span window.flags) ≠ 0 then
      return -1
    else
      mapWindows pml4 windows

def allowUserWalk (pml4 : Nat) : EStateM Halt Machine Unit := do
  let mach ← get
  setEntry pml4 (idxPml4 userImageBase)
    (entryAt mach.memory pml4 (idxPml4 userImageBase) ||| pageUser)
  let mach ← get
  let pdpt := entryAt mach.memory pml4 (idxPml4 userImageBase) &&& pageAddrMask
  setEntry pdpt (idxPdpt userImageBase)
    (entryAt mach.memory pdpt (idxPdpt userImageBase) ||| pageUser)

/-- `recordAllocated` tells whether `kcalloc` returned memory for the record that holds the PML4. -/
def userAddressSpaceCreate (boot : BootInfo) (lapicBase : Nat) (recordAllocated : Bool) :
    EStateM Halt Machine (Option Nat) := do
  if u64 (boot.kernelBase + boot.kernelSize) > userImageBase then
    throw (.panic "user: kernel image overlaps user image base")
  else if !recordAllocated then
    return none
  else
    let pml4 ← pagingNewTable
    if (← mapWindows pml4 (supervisorWindows boot lapicBase)) ≠ 0 then
      userAddressSpaceDestroy pml4
      return none
    else
      allowUserWalk pml4
      return some pml4

def userMapPage (pml4 va pa flags : Nat) : EStateM Halt Machine Int := do
  if va ≥ userTop ∨ va % pageSize ≠ 0 ∨ pa % pageSize ≠ 0 then
    return -1
  else
    let status ← pagingMap4k pml4 va pa ((flags &&& pageWritable) ||| pageUser ||| pagePresent)
    return if status = .ok then 0 else -1

def mapFreshPages (pml4 flags : Nat) : Nat → Nat → EStateM Halt Machine Int
  | 0, _ => return 0
  | cnt + 1, va => do
    match ← allocPage with
    | none => return -1
    | some pa =>
      zeroBytes pa pageSize
      if (← userMapPage pml4 va pa flags) ≠ 0 then
        freePage pa
        return -1
      else
        mapFreshPages pml4 flags cnt (va + pageSize)

def userMapRange (pml4 va size flags : Nat) : EStateM Halt Machine Int :=
  let last := u64 (va + pageAlignUp size)
  if va % pageSize ≠ 0 ∨ last ≤ va ∨ last > userTop then
    return -1
  else
    mapFreshPages pml4 flags ((last - va) / pageSize) va

def unmapPage (pml4 va : Nat) : EStateM Halt Machine Unit := do
  let mach ← get
  match pagingTranslate mach.memory pml4 va with
  | none => return ()
  | some phys =>
    let _ ← pagingUnmap4k pml4 va
    freePage (phys &&& pageAddrMask)

def userUnmapRange (pml4 va size : Nat) : EStateM Halt Machine Int := do
  let last := u64 (va + pageAlignUp size)
  if va % pageSize ≠ 0 ∨ last ≤ va ∨ last > userTop then
    return -1
  else
    Outcome.forEach (fun idx => unmapPage pml4 (va + idx * pageSize))
      (List.range ((last - va) / pageSize))
    return 0

def protWrite : Nat := 2

def processBrkBase : Nat := 0x5000000000

def processBrkInitial : Nat := 0x40000

def processMmapBase : Nat := 0x6000000000

structure ProcessMemory where
  addressSpace : Nat
  brkBase : Nat
  brkCurrent : Nat
  brkMax : Nat
  mmapNext : Nat
deriving DecidableEq, Repr

def processInitExt (addressSpace : Nat) : ProcessMemory where
  addressSpace := addressSpace
  brkBase := processBrkBase
  brkCurrent := processBrkBase
  brkMax := processBrkBase + processBrkInitial
  mmapNext := processMmapBase

def mmapAddress (proc : ProcessMemory) (hint : Nat) : Nat :=
  if hint ≠ 0 then pageAlignDown hint else proc.mmapNext

def mmapFlags (prot : Nat) : Nat :=
  if flagSet prot protWrite then pageWritable else 0

def sysMmap (proc : ProcessMemory) (hint len prot : Nat) :
    EStateM Halt Machine (Int × ProcessMemory) := do
  if len = 0 then
    return (-sysEinval, proc)
  else
    let addr := mmapAddress proc hint
    let rc ← userMapRange proc.addressSpace addr (pageAlignUp len) (mmapFlags prot)
    if rc ≠ 0 then
      return (-sysEnomem, proc)
    else if hint = 0 then
      return (addr, { proc with mmapNext := u64 (addr + pageAlignUp len) })
    else
      return (addr, proc)

def sysMunmap (proc : ProcessMemory) (addr len : Nat) : EStateM Halt Machine Int := do
  if pageAlignUp len = 0 ∨ addr % pageSize ≠ 0 then
    return -sysEinval
  else
    let rc ← userUnmapRange proc.addressSpace addr (pageAlignUp len)
    return if rc ≠ 0 then -sysEinval else 0

def processBrk (proc : ProcessMemory) (newBreak : Nat) :
    EStateM Halt Machine (Nat × ProcessMemory) := do
  if newBreak = 0 then
    return (proc.brkCurrent, proc)
  else if newBreak < proc.brkBase then
    return (proc.brkCurrent, proc)
  else if newBreak ≤ proc.brkMax then
    return (newBreak, { proc with brkCurrent := newBreak })
  else
    let wantEnd := pageAlignUp newBreak
    let rc ← userMapRange proc.addressSpace proc.brkMax (sub64 wantEnd proc.brkMax)
      pageWritable
    if rc = 0 then
      return (newBreak, { proc with brkMax := wantEnd, brkCurrent := newBreak })
    else
      return (proc.brkCurrent, proc)

def sbrkTarget (proc : ProcessMemory) (delta : Int) : Nat :=
  if delta < 0 then
    let dec := (-delta).toNat
    if dec > sub64 proc.brkCurrent proc.brkBase then proc.brkBase
    else sub64 proc.brkCurrent dec
  else
    u64 (proc.brkCurrent + delta.toNat)

/-- `none` is the failure value `(uint64_t)-1`. -/
def processSbrk (proc : ProcessMemory) (delta : Int) :
    EStateM Halt Machine (Option Nat × ProcessMemory) := do
  if delta = 0 then
    return (some proc.brkCurrent, proc)
  else
    let target := sbrkTarget proc delta
    let (res, next) ← processBrk proc target
    if delta > 0 ∧ res < target then
      return (none, next)
    else
      return (some proc.brkCurrent, next)

end HnxKernel
