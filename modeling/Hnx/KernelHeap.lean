import Hnx.ByteMemory
import Hnx.KernelHalt

/-!
# The kernel heap

The block headers are stored in the arena itself, as four 32-bit fields in front of each payload,
and every walk follows the sizes found there.
-/

namespace HnxKernel

def heapArenaSize : Nat := 2 * 1024 * 1024

def heapAlign : Nat := 16

def heapMagic : Nat := 0x484E5848

def headerSize : Nat := 16

/-- Where the linker placed `g_arena`: its first byte and one past its last. -/
structure Arena where
  base : Nat
  limit : Nat
  limit_eq : limit = base + heapArenaSize
  nonNull : 0 < base
  aligned : base % heapAlign = 0
  fits : limit < 2 ^ 64

structure Heap where
  memory : ByteMemory
  allocCount : Nat
  freeCount : Nat
  bytesInUse : Nat
  highWater : Nat

def blockSize (ram : ByteMemory) (block : Nat) : Nat := ram.readLE block 4

def blockFree (ram : ByteMemory) (block : Nat) : Nat := ram.readLE (block + 4) 4

def blockMagic (ram : ByteMemory) (block : Nat) : Nat := ram.readLE (block + 8) 4

def writeHeader (ram : ByteMemory) (block size free magic : Nat) : ByteMemory :=
  (((ram.writeLE block 4 size).writeLE (block + 4) 4 free).writeLE
    (block + 8) 4 magic).writeLE (block + 12) 4 0

variable (arena : Arena)

def heapInit (ram : ByteMemory) : Heap where
  memory := writeHeader ram arena.base heapArenaSize 1 0
  allocCount := 0
  freeCount := 0
  bytesInUse := 0
  highWater := 0

def nextBlock (ram : ByteMemory) (block : Nat) : Option Nat :=
  if arena.limit ≤ block + blockSize ram block then
    none
  else
    some (block + blockSize ram block)

@[irreducible]
def walkFuel : Nat := heapArenaSize + 1

def absorbNext (block : Nat) : Nat → ByteMemory → Outcome ByteMemory Unit
  | 0, ram => .error .hang ram
  | fuel + 1, ram =>
    match nextBlock arena ram block with
    | none => .ok () ram
    | some next =>
      if blockFree ram next ≠ 0 then
        absorbNext block fuel (ram.writeLE block 4
          (u32 (blockSize ram block + blockSize ram next)))
      else
        .ok () ram

def coalesceFrom : Nat → Nat → ByteMemory → Outcome ByteMemory Unit
  | 0, _, ram => .error .hang ram
  | fuel + 1, block, ram =>
    let absorbed : Outcome ByteMemory Unit :=
      if blockFree ram block ≠ 0 then
        absorbNext arena block walkFuel ram
      else
        .ok () ram
    match absorbed with
    | .error halt ram => .error halt ram
    | .ok _ ram =>
      match nextBlock arena ram block with
      | none => .ok () ram
      | some next => coalesceFrom fuel next ram

def coalesce : ByteMemory → Outcome ByteMemory Unit := coalesceFrom arena walkFuel arena.base

/-- The block is split when the leftover can hold a header and a minimal payload. -/
def takeBlock (heap : Heap) (block need : Nat) : Heap :=
  let leftover := blockSize heap.memory block - need
  let split :=
    if headerSize + heapAlign ≤ leftover then
      (writeHeader heap.memory (block + need) (u32 leftover) 1 0).writeLE block 4 (u32 need)
    else
      heap.memory
  let ram := (split.writeLE (block + 4) 4 0).writeLE (block + 8) 4 heapMagic
  let bytesInUse := u64 (heap.bytesInUse + blockSize ram block)
  { memory := ram
    allocCount := u64 (heap.allocCount + 1)
    freeCount := heap.freeCount
    bytesInUse := bytesInUse
    highWater := if bytesInUse > heap.highWater then bytesInUse else heap.highWater }

def kmallocFrom (size need : Nat) : Nat → Nat → Heap → Outcome Heap (Option Nat)
  | 0, _, heap => .error .hang heap
  | fuel + 1, block, heap =>
    if blockFree heap.memory block ≠ 0 ∧ need ≤ blockSize heap.memory block then
      .ok (some (block + headerSize)) (takeBlock heap block need)
    else
      match nextBlock arena heap.memory block with
      | none => .error (.panicHex "heap: out of memory, requested" size) heap
      | some next => kmallocFrom size need fuel next heap

def blockNeed (size : Nat) : Nat := alignUp (u64 (headerSize + size)) heapAlign

/-- `none` is `NULL`. -/
def kmalloc (size : Nat) : Heap → Outcome Heap (Option Nat) := fun heap =>
  if size = 0 then
    .ok none heap
  else
    kmallocFrom arena size (blockNeed size) walkFuel arena.base heap

def kcalloc (cnt size : Nat) : Heap → Outcome Heap (Option Nat) := fun heap =>
  let total := u64 (cnt * size)
  if cnt ≠ 0 ∧ total / cnt ≠ size then
    .ok none heap
  else
    match kmalloc arena total heap with
    | .ok (some ptr) heap => .ok (some ptr) { heap with memory := heap.memory.fill ptr total 0 }
    | outcome => outcome

/-- The null pointer is zero. -/
def kfree (ptr : Nat) : Heap → Outcome Heap Unit := fun heap =>
  if ptr = 0 then
    .ok () heap
  else if ptr < arena.base + headerSize ∨ arena.limit ≤ ptr then
    .ok () heap
  else
    let block := ptr - headerSize
    if blockMagic heap.memory block ≠ heapMagic then
      .ok () heap
    else
      let ram := (heap.memory.writeLE (block + 4) 4 1).writeLE (block + 8) 4 0
      let size := blockSize ram block
      let freed : Heap :=
        { heap with
          memory := ram
          bytesInUse := if size ≤ heap.bytesInUse then heap.bytesInUse - size else heap.bytesInUse
          freeCount := u64 (heap.freeCount + 1) }
      match coalesce arena freed.memory with
      | .ok _ ram => .ok () { freed with memory := ram }
      | .error halt ram => .error halt { freed with memory := ram }

end HnxKernel
