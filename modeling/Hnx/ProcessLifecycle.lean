import Hnx.KernelHeap
import Hnx.UserAddressSpace
import Hnx.ProcessTable

/-!
# The image and the memory of a process

Bytes behind the size of an image are those of the memory that follows it.  The fields of a record
are kept beside the heap, by pointer.  64 is `PROCESS_MAX` and `MAX_FREE_STACKS`, 32 is `FD_MAX`
and `PROCESS_MAX_ARGS`.
-/

namespace HnxKernel

/-- Every round copies at least one byte. -/
def copyChunks (pml4 : Nat) (source : Nat → UInt8) (size : Nat) :
    Nat → Nat → Nat → EStateM Halt Machine Int
  | 0, _, _ => throw .hang
  | fuel + 1, cur, copied =>
    if copied = size then
      return 0
    else do
      let mach ← get
      match pagingTranslate mach.memory pml4 cur with
      | none => return -1
      | some phys =>
        let len := min (pageSize - cur % pageSize) (size - copied)
        modify fun mach =>
          { mach with
            memory := mach.memory.blit phys len fun idx => source (copied + idx) }
        copyChunks pml4 source size fuel (u64 (cur + len)) (copied + len)

def userCopyToSpace (pml4 userDst : Nat) (source : Nat → UInt8) (size : Nat) :
    EStateM Halt Machine Int :=
  copyChunks pml4 source size (size + 1) userDst 0

/-- `HXE_MAGIC`, the letters HXE1. -/
def hxeMagic : Nat := 0x31455848

def hxeVersion : Nat := 1

def hxeSegWrite : Nat := 2

def hxeSegExec : Nat := 4

def hxeHeaderSize : Nat := 32

def hxeSegmentSize : Nat := 40

structure HxeHeader where
  magic : Nat
  version : Nat
  entry : Nat
  segmentCount : Nat
  headerSize : Nat
  deriving DecidableEq, Repr

structure HxeSegment where
  virtualAddress : Nat
  memorySize : Nat
  fileSize : Nat
  fileOffset : Nat
  flags : Nat
  deriving DecidableEq, Repr

def hxeHeader (image : ByteMemory) : HxeHeader where
  magic := image.readLE 0 4
  version := image.readLE 4 4
  entry := image.readLE 8 8
  segmentCount := image.readLE 16 8
  headerSize := image.readLE 24 8

def hxeSegment (image : ByteMemory) (tableOff idx : Nat) : HxeSegment where
  virtualAddress := image.readLE (tableOff + hxeSegmentSize * idx) 8
  memorySize := image.readLE (tableOff + hxeSegmentSize * idx + 8) 8
  fileSize := image.readLE (tableOff + hxeSegmentSize * idx + 16) 8
  fileOffset := image.readLE (tableOff + hxeSegmentSize * idx + 24) 8
  flags := image.readLE (tableOff + hxeSegmentSize * idx + 32) 8

namespace HxeSegment

def limit (seg : HxeSegment) : Nat := u64 (seg.virtualAddress + seg.memorySize)

def firstByte (seg : HxeSegment) : Nat := pageAlignDown seg.virtualAddress

def lastByte (seg : HxeSegment) : Nat := pageAlignUp seg.limit

def fileInside (imageSize : Nat) (seg : HxeSegment) : Bool :=
  seg.fileSize = 0 || (u64 (seg.fileOffset + seg.fileSize) ≤ imageSize &&
      seg.fileOffset ≤ u64 (seg.fileOffset + seg.fileSize))

def accepted (imageSize : Nat) (seg : HxeSegment) : Bool :=
  seg.fileSize ≤ seg.memorySize && seg.virtualAddress < userTop &&
    seg.limit ≤ userTop && seg.virtualAddress ≤ seg.limit &&
    userImageBase ≤ seg.virtualAddress && seg.fileInside imageSize

def overlaps (seg other : HxeSegment) : Bool :=
  seg.firstByte < other.lastByte && other.firstByte < seg.lastByte

def executable (seg : HxeSegment) : Bool := flagSet seg.flags hxeSegExec

def holdsEntry (entry : Nat) (seg : HxeSegment) : Bool :=
  seg.executable && seg.virtualAddress ≤ entry && entry < seg.limit

def pageFlags (seg : HxeSegment) : Nat :=
  if flagSet seg.flags hxeSegWrite then pageWritable else 0

end HxeSegment

def segmentsValid (imageSize : Nat) : List HxeSegment → List HxeSegment → Bool
  | _, [] => true
  | earlier, seg :: rest =>
    seg.accepted imageSize && !(earlier.any seg.overlaps) &&
      segmentsValid imageSize (seg :: earlier) rest

def hxeSegments (image : ByteMemory) (imageSize : Nat) : Option (Nat × List HxeSegment) :=
  let header := hxeHeader image
  let tableBytes := u64 (header.segmentCount * hxeSegmentSize)
  let segments := (List.range header.segmentCount).map (hxeSegment image header.headerSize)
  if imageSize < hxeHeaderSize then
    none
  else if header.magic ≠ hxeMagic ∨ header.version ≠ hxeVersion then
    none
  else if header.headerSize < hxeHeaderSize then
    none
  else if header.segmentCount = 0 ∨ u64 (header.headerSize + tableBytes) > imageSize then
    none
  else if !segmentsValid imageSize [] segments then
    none
  else if !segments.any (HxeSegment.holdsEntry header.entry) then
    none
  else
    some (header.entry, segments)

def loadSegments (pml4 : Nat) (image : ByteMemory) : List HxeSegment → EStateM Halt Machine Int
  | [] => return 0
  | seg :: rest => do
    let span := sub64 seg.lastByte seg.firstByte
    if (← userMapRange pml4 seg.firstByte span seg.pageFlags) ≠ 0 then
      return -1
    else if seg.fileSize ≠ 0 then
      let copied ← userCopyToSpace pml4 seg.virtualAddress
        (fun idx => image (seg.fileOffset + idx)) seg.fileSize
      if copied ≠ 0 then
        return -1
      else
        loadSegments pml4 image rest
    else
      loadSegments pml4 image rest

def userLoaderLoad (pml4 : Nat) (image : ByteMemory) (imageSize : Nat) :
    EStateM Halt Machine (Option Nat) := do
  match hxeSegments image imageSize with
  | none => return none
  | some (entry, segments) =>
    if (← loadSegments pml4 image segments) ≠ 0 then
      return none
    else
      return some entry

open Function

structure ProcessRecord where
  pid : Nat
  parentPid : Nat
  state : ProcessState
  exitCode : Int
  addressSpace : Nat
  mainThread : Nat
  fds : Nat

structure Kernel where
  heap : Heap
  machine : Machine
  freeStacks : List Nat
  stackBase : Nat → Nat
  pml4 : Nat → Nat
  entries : Nat → Fin 32 → Option Nat
  refcount : Nat → Int
  table : Fin 64 → Option Nat
  processes : Nat → ProcessRecord
  nextPid : Nat

structure KernelConfig where
  arena : Arena
  bootInfo : BootInfo
  lapicBase : Nat

namespace Kernel

def onHeap {Value : Type} (call : Heap → Outcome Heap Value) : EStateM Halt Kernel Value :=
  fun kern =>
    match call kern.heap with
    | .ok val heap => .ok val { kern with heap := heap }
    | .error halt heap => .error halt { kern with heap := heap }

def onMachine {Value : Type} (call : EStateM Halt Machine Value) : EStateM Halt Kernel Value :=
  fun kern =>
    match call kern.machine with
    | .ok val mach => .ok val { kern with machine := mach }
    | .error halt mach => .error halt { kern with machine := mach }

def setProcess (proc : Nat) (change : ProcessRecord → ProcessRecord) :
    EStateM Halt Kernel Unit :=
  modify fun kern =>
    { kern with
      processes := update kern.processes proc (change (kern.processes proc)) }

variable (cfg : KernelConfig)

def stackAlloc : EStateM Halt Kernel (Option Nat) := do
  let kern ← get
  match kern.freeStacks with
  | stack :: rest =>
    modify fun kern => { kern with freeStacks := rest }
    return some stack
  | [] => onHeap (kmalloc cfg.arena 16384)

def stackRelease (stack : Nat) : EStateM Halt Kernel Unit :=
  modify fun kern =>
    if stack ≠ 0 ∧ kern.freeStacks.length < 64 then
      { kern with freeStacks := stack :: kern.freeStacks }
    else
      kern

def threadCreateRaw : EStateM Halt Kernel (Option Nat) := do
  match ← onHeap (kcalloc cfg.arena 1 96) with
  | none => return none
  | some thr =>
    match ← stackAlloc cfg with
    | none => return none
    | some stack =>
      modify fun kern => { kern with stackBase := update kern.stackBase thr stack }
      return some thr

def threadReap (thr : Nat) : EStateM Halt Kernel Unit :=
  if thr = 0 then
    return ()
  else do
    let kern ← get
    stackRelease (kern.stackBase thr)
    modify fun kern => { kern with stackBase := update kern.stackBase thr 0 }

def processTableAlloc : EStateM Halt Kernel (Option Nat) := do
  let kern ← get
  match (List.finRange 64).find? fun slot => (kern.table slot).isNone with
  | none => return none
  | some slot =>
    match ← onHeap (kcalloc cfg.arena 1 1008) with
    | none => return none
    | some proc =>
      modify fun kern =>
        { kern with
          processes := update kern.processes proc
            ⟨kern.nextPid, 0, .new, 0, 0, 0, 0⟩
          nextPid := kern.nextPid + 1
          table := update kern.table slot (some proc) }
      return some proc

def processTableFree (proc : Nat) : EStateM Halt Kernel Unit :=
  if proc = 0 then
    return ()
  else do
    let kern ← get
    match (List.finRange 64).find? fun slot => kern.table slot = some proc with
    | none => return ()
    | some slot =>
      modify fun kern => { kern with table := update kern.table slot none }
      onHeap (kfree cfg.arena proc)

def processByPid (kern : Kernel) (pid : Nat) : Option Nat :=
  (List.finRange 64).findSome? fun slot =>
    (kern.table slot).filter fun proc => (kern.processes proc).pid = pid

def fileAlloc : EStateM Halt Kernel (Option Nat) := do
  match ← onHeap (kcalloc cfg.arena 1 280) with
  | none => return none
  | some file =>
    modify fun kern => { kern with refcount := update kern.refcount file 1 }
    return some file

def fileRef (file : Nat) : EStateM Halt Kernel Unit :=
  modify fun kern => { kern with refcount := update kern.refcount file (kern.refcount file + 1) }

def fileUnref (file : Nat) : EStateM Halt Kernel Unit := do
  modify fun kern => { kern with refcount := update kern.refcount file (kern.refcount file - 1) }
  let kern ← get
  if kern.refcount file ≤ 0 then
    onHeap (kfree cfg.arena file)
  else
    return ()

def setEntry (fds : Nat) (slot : Fin 32) (entry : Option Nat) : EStateM Halt Kernel Unit :=
  modify fun kern =>
    { kern with
      entries := update kern.entries fds
        (update (kern.entries fds) slot entry) }

def fdTableCreate : EStateM Halt Kernel (Option Nat) := do
  match ← onHeap (kcalloc cfg.arena 1 256) with
  | none => return none
  | some fds =>
    modify fun kern => { kern with entries := update kern.entries fds fun _ => none }
    return some fds

def dropEntry (fds : Nat) (slot : Fin 32) : EStateM Halt Kernel Unit := do
  let kern ← get
  match kern.entries fds slot with
  | none => return ()
  | some file =>
    fileUnref cfg file
    setEntry fds slot none

def fdTableDestroy (fds : Nat) : EStateM Halt Kernel Unit :=
  if fds = 0 then
    return ()
  else do
    Outcome.forEach (dropEntry cfg fds) (List.finRange 32)
    onHeap (kfree cfg.arena fds)

def descriptor (fd : Int) : Option (Fin 32) :=
  if 0 ≤ fd ∧ fd < 32 then some (Fin.ofNat 32 fd.toNat) else none

def fdInstallAt (fds : Nat) (slot : Fin 32) (file : Nat) : EStateM Halt Kernel Unit := do
  dropEntry cfg fds slot
  setEntry fds slot (some file)

/-- `console` tells whether `/dev/console` exists. -/
def wireStdio (fds : Nat) (console : Bool) : EStateM Halt Kernel Unit := do
  if console then
    match ← fileAlloc cfg with
    | none => return ()
    | some file =>
      fdInstallAt cfg fds 0 file
      fileRef file
      fdInstallAt cfg fds 1 file
      fileRef file
      fdInstallAt cfg fds 2 file
  else
    return ()

def userAddressSpaceCreate : EStateM Halt Kernel (Option Nat) := do
  let record ← onHeap (kcalloc cfg.arena 1 8)
  let pml4 ← onMachine
    (HnxKernel.userAddressSpaceCreate cfg.bootInfo cfg.lapicBase record.isSome)
  match record, pml4 with
  | some space, some pml4 =>
    modify fun kern => { kern with pml4 := update kern.pml4 space pml4 }
    return some space
  | some space, none =>
    onHeap (kfree cfg.arena space)
    return none
  | none, _ => return none

def userAddressSpaceDestroy (space : Nat) : EStateM Halt Kernel Unit :=
  if space = 0 then
    return ()
  else do
    let kern ← get
    onMachine (HnxKernel.userAddressSpaceDestroy (kern.pml4 space))
    onHeap (kfree cfg.arena space)

/-- An error of `path_resolve`, no node, or a node with the result of reading it. -/
inductive ExecTarget where
  | unresolved (error : Int) (negative : error < 0)
  | missing
  | found (isFile : Bool) (size : Nat) (bytes : ByteMemory) (got : Int64)

/-- Its result, and the entry point. -/
def execLoad (pml4 : Nat) : ExecTarget → EStateM Halt Kernel (Int × Nat)
  | .unresolved error _ => return (error, 0)
  | .missing => return (-sysEnoent, 0)
  | .found isFile size bytes got => do
    if !isFile then
      return (-sysEisdir, 0)
    else if size < hxeHeaderSize then
      return (-sysEnoexec, 0)
    else
      match ← onHeap (kmalloc cfg.arena size) with
      | none => return (-sysEnomem, 0)
      | some buf =>
        if got.toInt < 0 ∨ got.toInt ≠ size then
          onHeap (kfree cfg.arena buf)
          return (-sysEnoexec, 0)
        else
          let loaded ← onMachine (userLoaderLoad pml4 bytes size)
          onHeap (kfree cfg.arena buf)
          match loaded with
          | some entry => return (0, entry)
          | none => return (-sysEnoexec, 0)

def userStackTop : Nat := 0x7FFFFFFFE000

def userStackSize : Nat := 0x40000

def userHeapBase : Nat := 0x4000000000

def userHeapInitial : Nat := 0x100000

def mapInitialRanges (pml4 : Nat) : EStateM Halt Machine Int := do
  if (← userMapRange pml4 (userStackTop - userStackSize) userStackSize pageWritable) ≠ 0 then
    return -1
  else if (← userMapRange pml4 userHeapBase userHeapInitial pageWritable) ≠ 0 then
    return -1
  else
    userMapRange pml4 processBrkBase processBrkInitial pageWritable

def wordBytes (val idx : Nat) : UInt8 := UInt8.ofNat (val / 256 ^ idx)

/-- The stack pointer behind the strings, and their addresses. -/
def pushStrings (pml4 : Nat) : List (List UInt8) → Nat → List Nat →
    EStateM Halt Machine (Option (Nat × List Nat))
  | [], sp, addrs => return some (sp, addrs)
  | string :: rest, sp, addrs => do
    let sp := sub64 sp (string.length + 1)
    if (← userCopyToSpace pml4 sp (fun idx => string.getD idx 0) (string.length + 1)) ≠ 0 then
      return none
    else
      pushStrings pml4 rest sp (addrs ++ [sp])

def pushWords (pml4 : Nat) : List Nat → Nat → EStateM Halt Machine Int
  | [], _ => return 0
  | word :: rest, addr => do
    if (← userCopyToSpace pml4 addr (wordBytes word) 8) ≠ 0 then
      return -1
    else
      pushWords pml4 rest (u64 (addr + 8))

def buildUserStack (pml4 : Nat) (argv : List (List UInt8)) : EStateM Halt Machine Nat := do
  match ← pushStrings pml4 (argv.take 32) userStackTop [] with
  | none => return 0
  | some (sp, addrs) =>
    let slots := addrs.length + 2
    let aligned := alignDown sp 16
    let padded := if slots % 2 = 1 then sub64 aligned 8 else aligned
    let base := sub64 padded (slots * 8)
    if (← pushWords pml4 (addrs.length :: (addrs ++ [0])) base) ≠ 0 then
      return 0
    else
      return base

/-- What `process_spawn_argv` is asked for, with what it finds in the file system. -/
structure SpawnRequest where
  target : ExecTarget
  argv : List (List UInt8)
  console : Bool

def createRecord (self : Option Nat) (space : Nat) (console : Bool) :
    EStateM Halt Kernel (Option Nat) := do
  match ← processTableAlloc cfg with
  | none =>
    userAddressSpaceDestroy cfg space
    return none
  | some proc =>
    setProcess proc fun record => { record with parentPid := self.getD 0, addressSpace := space }
    match ← fdTableCreate cfg with
    | none =>
      userAddressSpaceDestroy cfg space
      processTableFree cfg proc
      return none
    | some fds =>
      setProcess proc fun record => { record with fds := fds }
      wireStdio cfg fds console
      return some proc

def fillSpace (pml4 : Nat) (req : SpawnRequest) : EStateM Halt Kernel Int := do
  let (code, _) ← execLoad cfg pml4 req.target
  if code ≠ 0 then
    return code
  else if (← onMachine (mapInitialRanges pml4)) ≠ 0 then
    return -1
  else if (← onMachine (buildUserStack pml4 req.argv)) = 0 then
    return -1
  else
    return 0

/-- `create_full`, for the process `self`, if the caller is one. -/
def createFull (self : Option Nat) (req : SpawnRequest) : EStateM Halt Kernel (Option Nat) := do
  match ← userAddressSpaceCreate cfg with
  | none => return none
  | some space =>
    let kern ← get
    if (← fillSpace cfg (kern.pml4 space) req) ≠ 0 then
      userAddressSpaceDestroy cfg space
      return none
    else
      createRecord cfg self space req.console

def processSpawnArgv (self : Option Nat) (req : SpawnRequest) : EStateM Halt Kernel Int := do
  match ← createFull cfg self req with
  | none => return -sysEnoent
  | some proc =>
    match ← threadCreateRaw cfg with
    | none =>
      let kern ← get
      userAddressSpaceDestroy cfg (kern.processes proc).addressSpace
      fdTableDestroy cfg (kern.processes proc).fds
      processTableFree cfg proc
      return -sysEnomem
    | some thr =>
      setProcess proc fun record => { record with mainThread := thr, state := .ready }
      let kern ← get
      return (kern.processes proc).pid

/-- What a process does that allocates nothing. -/
inductive UserCall where
  | close (fd : Int)
  | dup (fd : Int)
  | dup2 (oldfd newfd : Int)
  | munmap (addr length : Nat)
  | store (address : Nat) (byte : UInt8)
  | other

def fdClose (fds : Nat) (fd : Int) : EStateM Halt Kernel Unit :=
  match descriptor fd with
  | none => return ()
  | some slot => dropEntry cfg fds slot

/-- `sys_dup`, and `fcntl(F_DUPFD)`. -/
def sysDup (fds : Nat) (fd : Int) : EStateM Halt Kernel Unit := do
  let kern ← get
  match (descriptor fd).bind (kern.entries fds) with
  | none => return ()
  | some file =>
    fileRef file
    match (List.finRange 32).find? fun slot => (kern.entries fds slot).isNone with
    | none => fileUnref cfg file
    | some slot => setEntry fds slot (some file)

def sysDup2 (fds : Nat) (oldfd newfd : Int) : EStateM Halt Kernel Unit := do
  let kern ← get
  match (descriptor oldfd).bind (kern.entries fds) with
  | none => return ()
  | some file =>
    if oldfd = newfd then
      return ()
    else
      match descriptor newfd with
      | none => return ()
      | some slot =>
        fileRef file
        fdInstallAt cfg fds slot file

def userStore (pml4 addr : Nat) (byte : UInt8) : EStateM Halt Machine Unit := do
  let mach ← get
  let leaf := (walkLeaf mach.memory pml4 addr).1
  match pagingTranslate mach.memory pml4 addr with
  | none => return ()
  | some phys =>
    if flagSet leaf pageUser && flagSet leaf pageWritable then
      modify fun mach => { mach with memory := mach.memory.fill phys 1 byte }
    else
      return ()

def userCall (proc : Nat) (call : UserCall) : EStateM Halt Kernel Unit := do
  let kern ← get
  let record := kern.processes proc
  let pml4 := kern.pml4 record.addressSpace
  match call with
  | .close fd => fdClose cfg record.fds fd
  | .dup fd => sysDup cfg record.fds fd
  | .dup2 oldfd newfd => sysDup2 cfg record.fds oldfd newfd
  | .munmap addr len => do
    let _ ← onMachine (sysMunmap (processInitExt pml4) addr len)
    return ()
  | .store address byte => onMachine (userStore pml4 address byte)
  | .other => return ()

def processEnd (proc : Nat) (faulted : Bool) (code : Int) : EStateM Halt Kernel Unit :=
  setProcess proc fun record =>
    { record with state := if faulted then .faulted else .exited, exitCode := code }

def reap (child : Nat) : EStateM Halt Kernel Unit := do
  let kern ← get
  userAddressSpaceDestroy cfg (kern.processes child).addressSpace
  setProcess child fun record => { record with addressSpace := 0 }
  fdTableDestroy cfg (kern.processes child).fds
  setProcess child fun record => { record with fds := 0 }
  threadReap (kern.processes child).mainThread
  processTableFree cfg child

/-- While the child has not ended it sleeps, and here nothing else happens then. -/
def processWait (self : Option Nat) (pid : Nat) : EStateM Halt Kernel Int := do
  let kern ← get
  match kern.processByPid pid with
  | none => return -sysEchild
  | some child =>
    let record := kern.processes child
    if self.isSome && self ≠ some record.parentPid then
      return -sysEchild
    else if record.state ≠ .exited ∧ record.state ≠ .faulted then
      throw .hang
    else
      reap cfg child
      return pid

structure Lifecycle where
  request : SpawnRequest
  calls : List UserCall
  faulted : Bool
  code : Int

def processRun (pid : Nat) (life : Lifecycle) : EStateM Halt Kernel Unit := do
  let kern ← get
  match kern.processByPid pid with
  | none => return ()
  | some proc =>
    Outcome.forEach (userCall cfg proc) life.calls
    processEnd proc life.faulted life.code

def lifecycle (self : Option Nat) (life : Lifecycle) : EStateM Halt Kernel Bool := do
  let pid ← processSpawnArgv cfg self life.request
  if pid < 0 then
    return false
  else
    processRun cfg pid.toNat life
    let waited ← processWait cfg self pid.toNat
    return waited = pid

def bytesInUse (kern : Kernel) : Int :=
  kern.heap.bytesInUse - (kern.freeStacks.map fun stack =>
      (blockSize kern.heap.memory (stack - headerSize) : Int)).sum

def Conserved (pre post : Kernel) : Prop :=
  post.bytesInUse = pre.bytesInUse ∧ post.machine.pool.freePages = pre.machine.pool.freePages

def AllCollected (self : Option Nat) : List Lifecycle → Kernel → Prop
  | [], _ => True
  | life :: lives, kern =>
    ∃ post, lifecycle cfg self life kern = .ok true post ∧ AllCollected self lives post

def Conserves (self : Option Nat) : List Lifecycle → Kernel → Prop
  | [], _ => True
  | life :: lives, kern =>
    ∀ post, lifecycle cfg self life kern = .ok true post →
      Conserved kern post ∧ Conserves self lives post

end Kernel

end HnxKernel
