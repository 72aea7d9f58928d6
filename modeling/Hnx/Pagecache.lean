import Hnx.BytePacking
import Hnx.CacheContents

/-!
# The page cache

A page is named by the number of its allocation. `unsaved` is not a field of the source.
-/

namespace HnxKernel

open Function

structure CachedPage where
  pgno : Nat
  data : DiskBlock
  dirty : Bool

structure Pagecache where
  pages : RadixTree Nat
  lru : List Nat
  page : Nat → CachedPage
  allocated : Nat → Bool
  next : Nat
  allocFaults : List Bool
  backing : BackingStore
  hasRead : Bool
  hasWrite : Bool
  capacity : Nat
  resident : Nat
  readahead : Nat
  unsaved : Nat → Option DiskBlock

namespace Pagecache

def init (backing : BackingStore) (hasRead hasWrite : Bool) (cap readahead : Nat)
    (allocFaults : List Bool) : Pagecache where
  pages := RadixTree.init
  lru := []
  page := fun _ => ⟨0, zeroBlock, false⟩
  allocated := fun _ => false
  next := 0
  allocFaults
  backing
  hasRead
  hasWrite
  capacity := if cap ≠ 0 then cap else 16
  resident := 0
  readahead
  unsaved := fun _ => none

/-- `pc->write`, whose result none of the callers looks at. -/
def writeBack (pc : Pagecache) (pg : Nat) : Pagecache :=
  let page := pc.page pg
  let written := pc.backing.write page.pgno page.data
  { pc with
    backing := written.2
    unsaved := if written.1 then update pc.unsaved page.pgno none else pc.unsaved }

def freePage (pc : Pagecache) (pg : Nat) : Pagecache :=
  let pc := if (pc.page pg).dirty && pc.hasWrite then pc.writeBack pg else pc
  { pc with allocated := update pc.allocated pg false }

def dropPage (pc : Pagecache) (pg : Nat) : Pagecache :=
  { pc with
    lru := pc.lru.erase pg
    pages := pc.pages.remove (pc.page pg).pgno }.freePage pg

def countDown (pc : Pagecache) : Pagecache :=
  { pc with resident := u32 (pc.resident + (2 ^ 32 - 1)) }

def evictLru (pc : Pagecache) : Pagecache :=
  match pc.lru.getLast? with
  | none => pc
  | some victim => (pc.dropPage victim).countDown

def makeRoom : Nat → Pagecache → Pagecache
  | 0, pc => pc
  | fuel + 1, pc => if pc.resident ≥ pc.capacity then makeRoom fuel pc.evictLru else pc

def allocate (pc : Pagecache) : Bool × Pagecache :=
  (!pc.allocFaults.headD false, { pc with allocFaults := pc.allocFaults.tail })

def fill (pc : Pagecache) (pgno : Nat) : DiskBlock × Pagecache :=
  if pc.hasRead then
    let res := pc.backing.read pgno
    (res.1.getD zeroBlock, { pc with backing := res.2 })
  else
    (zeroBlock, pc)

def linkNew (pc : Pagecache) (pgno : Nat) : Option Nat × Pagecache :=
  let filled := pc.fill pgno
  let pc := filled.2
  let pg := pc.next
  let inserted := pc.pages.insert pgno pg pc.allocFaults
  let pc :=
    { pc with
      next := pc.next + 1
      page := update pc.page pg ⟨pgno, filled.1, false⟩
      pages := inserted.tree
      allocFaults := inserted.faults }
  if inserted.ok then
    (some pg, { pc with
        allocated := update pc.allocated pg true
        lru := pg :: pc.lru
        resident := u32 (pc.resident + 1) })
  else
    (none, pc)

def allocAndFill (pc : Pagecache) (pgno : Nat) : Option Nat × Pagecache :=
  let pc := makeRoom pc.lru.length pc
  let header := pc.allocate
  if header.1 then
    let buf := header.2.allocate
    if buf.1 then buf.2.linkNew pgno else (none, buf.2)
  else
    (none, header.2)

def readAhead (pc : Pagecache) (next : Nat) : Pagecache :=
  if (pc.pages.lookup next).isNone then (pc.allocAndFill next).2 else pc

def readAheadLoop (pgno : Nat) : Nat → Nat → Pagecache → Except CacheStop Pagecache
  | 0, _, _ => .error .hangs
  | fuel + 1, i, pc =>
    if i ≤ pc.readahead then
      readAheadLoop pgno fuel (u32 (i + 1)) (pc.readAhead (u64 (pgno + i)))
    else
      .ok pc

def touch (pc : Pagecache) (pg : Nat) : Pagecache := { pc with lru := pg :: pc.lru.erase pg }

def get (pc : Pagecache) (pgno : Nat) : Except CacheStop (Option Nat × Pagecache) :=
  match pc.pages.lookup pgno with
  | some pg => .ok (some pg, pc.touch pg)
  | none =>
    let missed := pc.allocAndFill pgno
    match readAheadLoop pgno (2 ^ 32) 1 missed.2 with
    | .error stop => .error stop
    | .ok pc => .ok (missed.1, pc)

def changeData (pc : Pagecache) (pg : Nat) (data : DiskBlock) : Pagecache :=
  { pc with
    page := update pc.page pg { pc.page pg with data := data }
    unsaved := update pc.unsaved (pc.page pg).pgno (some data) }

def setDirty (pc : Pagecache) (pg : Nat) : Pagecache :=
  { pc with page := update pc.page pg { pc.page pg with dirty := true } }

def markDirty (pc : Pagecache) (pgno : Nat) : Pagecache :=
  match pc.pages.lookup pgno with
  | none => pc
  | some pg => pc.setDirty pg

/-- A caller of `pagecache_get` changes the page in place and marks it dirty. -/
def modify (pc : Pagecache) (pgno : Nat) (data : DiskBlock) : Except CacheStop Pagecache :=
  match pc.get pgno with
  | .error stop => .error stop
  | .ok (none, pc) => .ok pc
  | .ok (some pg, pc) =>
    if pc.allocated pg then .ok ((pc.changeData pg data).markDirty pgno) else .error .freed

def chunkOf (data : DiskBlock) (poff chunk : Nat) : List UInt8 :=
  (List.range chunk).map fun idx => data (poff + idx)

def chunkLength (off len : Nat) : Nat :=
  if 4096 - off % 4096 > len then len else 4096 - off % 4096

def readLoop : Nat → Pagecache → Nat → Nat → List UInt8 →
    Except CacheStop (Int × List UInt8 × Pagecache)
  | 0, pc, _, _, out => .ok (0, out, pc)
  | fuel + 1, pc, off, len, out =>
    if len > 0 then
      let chunk := chunkLength off len
      match pc.get (off / 4096) with
      | .error stop => .error stop
      | .ok (none, pc) => .ok (-1, out, pc)
      | .ok (some pg, pc) =>
        if pc.allocated pg then
          readLoop fuel pc (u64 (off + chunk)) (len - chunk)
            (out ++ chunkOf (pc.page pg).data (off % 4096) chunk)
        else
          .error .freed
    else
      .ok (0, out, pc)

/-- Every round copies at least one byte. -/
def read (pc : Pagecache) (off len : Nat) : Except CacheStop (Int × List UInt8 × Pagecache) :=
  readLoop len pc off len []

def writeLoop : Nat → Pagecache → Nat → List UInt8 → Nat → Except CacheStop (Int × Nat × Pagecache)
  | 0, pc, _, _, copied => .ok (0, copied, pc)
  | fuel + 1, pc, off, input, copied =>
    if input.length > 0 then
      let chunk := chunkLength off input.length
      match pc.get (off / 4096) with
      | .error stop => .error stop
      | .ok (none, pc) => .ok (-1, copied, pc)
      | .ok (some pg, pc) =>
        if pc.allocated pg then
          writeLoop fuel
            ((pc.changeData pg
              (ByteMemory.blit (pc.page pg).data (off % 4096) chunk
                (ByteMemory.ofBytes input))).setDirty pg)
            (u64 (off + chunk)) (input.drop chunk) (copied + chunk)
        else
          .error .freed
    else
      .ok (0, copied, pc)

def write (pc : Pagecache) (off : Nat) (input : List UInt8) :
    Except CacheStop (Int × Nat × Pagecache) :=
  writeLoop input.length pc off input 0

def syncPage (pc : Pagecache) (pg : Nat) : Pagecache :=
  if (pc.page pg).dirty && pc.hasWrite then
    let pc := pc.writeBack pg
    { pc with page := update pc.page pg { pc.page pg with dirty := false } }
  else
    pc

def sync (pc : Pagecache) : Nat × Pagecache :=
  ((pc.lru.filter fun pg => (pc.page pg).dirty && pc.hasWrite).length, pc.lru.foldl syncPage pc)

def evict (pc : Pagecache) (pgno : Nat) : Pagecache :=
  match pc.pages.lookup pgno with
  | none => pc
  | some pg => (pc.dropPage pg).countDown

def destroy (pc : Pagecache) : Pagecache :=
  { pc.lru.foldl dropPage pc with pages := RadixTree.init, resident := 0 }

end Pagecache

end HnxKernel
