import Hnx.ByteMemory
import Hnx.SyscallErrors

/-!
# The HNXFS driver

`faults` lists which of the coming transfers fail. 4096 is `HNXFS_BLOCK_SIZE`, 12 is
`HNXFS_DIRECT`, 120 is `HNXFS_NAME_MAX`, 64 is `HNXFS_VNODE_CACHE`; 32 records of 128 bytes are
in a block.
-/

namespace HnxKernel

open Function
open Bitmap

abbrev hnxfsRootInode : Nat := 1

abbrev hnxfsTypeFile : Nat := 1

abbrev hnxfsTypeDir : Nat := 2

abbrev DiskBlock := ByteMemory

/-- `struct hnxfs_superblock`, without the fields that only `hnxfs_mount` reads. -/
structure Superblock where
  inodeCount : Nat
  inodeBitmapBlock : Nat
  dataBitmapBlock : Nat
  inodeTableBlock : Nat
  inodeTableBlocks : Nat
  dataBlockStart : Nat
  dataBlockCount : Nat
  deriving DecidableEq, Repr

structure Inode where
  type : Nat
  mode : Nat
  size : Nat
  blocks : Nat
  direct : Nat → Nat
  mtime : Nat

inductive VnodeType where
  | file
  | dir
  | chardev
  deriving DecidableEq, Repr

structure Vnode where
  type : VnodeType
  size : Nat
  priv : Nat
  deriving DecidableEq, Repr

structure Hnxfs where
  sb : Superblock
  blocks : Nat → DiskBlock
  faults : List Bool
  vnodes : Nat → Vnode
  vnodeInode : Nat → Nat
  vnodeCount : Nat

abbrev HnxfsM := StateM Hnxfs

def int64 (cnt : Nat) : Int :=
  if u64 cnt < 2 ^ 63 then (u64 cnt : Int) else (u64 cnt : Int) - 2 ^ 64

def transfer : HnxfsM Bool :=
  fun fs => (!fs.faults.headD false, { fs with faults := fs.faults.tail })

def Hnxfs.putBlock (fs : Hnxfs) (fsblk : Nat) (buf : DiskBlock) : Hnxfs :=
  { fs with blocks := update fs.blocks fsblk buf }

def hnxfsReadBlock (fsblk : Nat) : HnxfsM (Option DiskBlock) := do
  if ← transfer then
    return some ((← get).blocks fsblk)
  else
    return none

def hnxfsWriteBlock (fsblk : Nat) (buf : DiskBlock) : HnxfsM Int := do
  if ← transfer then
    modify fun fs => fs.putBlock fsblk buf
    return 0
  else
    return -1

def inodeAt (block : DiskBlock) (idx : Nat) : Inode where
  type := block.readLE (idx * 128) 4
  mode := block.readLE (idx * 128 + 4) 4
  size := block.readLE (idx * 128 + 8) 8
  blocks := block.readLE (idx * 128 + 16) 8
  direct := fun b =>
    if b < 12 then block.readLE (idx * 128 + (24 + 8 * b)) 8 else 0
  mtime := block.readLE (idx * 128 + 120) 8

def inodeBytes (inode : Inode) (idx : Nat) : UInt8 :=
  if idx < 4 then UInt8.ofNat (inode.type / 256 ^ idx)
  else if idx < 8 then UInt8.ofNat (inode.mode / 256 ^ (idx - 4))
  else if idx < 16 then UInt8.ofNat (inode.size / 256 ^ (idx - 8))
  else if idx < 24 then UInt8.ofNat (inode.blocks / 256 ^ (idx - 16))
  else if idx < 120 then
    UInt8.ofNat (inode.direct ((idx - 24) / 8) / 256 ^ ((idx - 24) % 8))
  else UInt8.ofNat (inode.mtime / 256 ^ (idx - 120))

def putInode (block : DiskBlock) (idx : Nat) (inode : Inode) : DiskBlock :=
  block.blit (idx * 128) 128 (inodeBytes inode)

/-- None of its callers reads the error number. -/
def hnxfsReadInode (num : Nat) : HnxfsM (Option Inode) := do
  let sb := (← get).sb
  if num = 0 ∨ num ≥ sb.inodeCount then
    return none
  else
    match ← hnxfsReadBlock (sb.inodeTableBlock + num / 32) with
    | none => return none
    | some buf => return some (inodeAt buf (num % 32))

def hnxfsWriteInode (num : Nat) (inode : Inode) : HnxfsM Int := do
  let sb := (← get).sb
  if num = 0 ∨ num ≥ sb.inodeCount then
    return -sysEinval
  else
    let blk := sb.inodeTableBlock + num / 32
    match ← hnxfsReadBlock blk with
    | none => return -sysEio
    | some buf =>
      let res ← hnxfsWriteBlock blk (putInode buf (num % 32) inode)
      return if res = 0 then 0 else -sysEio

def bitmapAlloc (bitmapBlock limit fst : Nat) : HnxfsM (Option Nat) := do
  match ← hnxfsReadBlock bitmapBlock with
  | none => return none
  | some buf =>
    match (List.range' fst (limit - fst)).find? fun idx => !bitTest buf 0 idx with
    | none => return none
    | some idx =>
      let res ← hnxfsWriteBlock bitmapBlock (bitSet buf 0 idx)
      return if res = 0 then some idx else none

def bitmapFree (bitmapBlock idx : Nat) : HnxfsM Unit := do
  match ← hnxfsReadBlock bitmapBlock with
  | none => return ()
  | some buf =>
    let _ ← hnxfsWriteBlock bitmapBlock (bitClear buf 0 idx)
    return ()

/-- Inodes 0 and 1 are reserved. -/
def hnxfsAllocInode : HnxfsM Nat := do
  let sb := (← get).sb
  return (← bitmapAlloc sb.inodeBitmapBlock sb.inodeCount 2).getD 0

def hnxfsFreeInode (num : Nat) : HnxfsM Unit := do
  let sb := (← get).sb
  if num ≥ 2 then
    bitmapFree sb.inodeBitmapBlock num

def zeroBlock : DiskBlock := fun _ => 0

/-- `hnxfs_alloc_block`, whose zeroing of the block is not checked. -/
def hnxfsAllocBlock : HnxfsM Nat := do
  let sb := (← get).sb
  match ← bitmapAlloc sb.dataBitmapBlock sb.dataBlockCount 0 with
  | none => return 0
  | some idx =>
    let absblk := u64 (sb.dataBlockStart + idx)
    let _ ← hnxfsWriteBlock absblk zeroBlock
    return absblk

def hnxfsFreeBlock (absblk : Nat) : HnxfsM Unit := do
  let sb := (← get).sb
  if absblk < sb.dataBlockStart then
    return ()
  else
    bitmapFree sb.dataBitmapBlock (absblk - sb.dataBlockStart)

abbrev FileName := List UInt8

def cString (name : FileName) (idx : Nat) : UInt8 := name.getD idx 0

/-- `strncmp(first, second, count) == 0`. -/
def strncmpEq : Nat → (Nat → UInt8) → (Nat → UInt8) → Bool
  | 0, _, _ => true
  | cnt + 1, fst, snd =>
    if fst 0 ≠ snd 0 then false
    else if fst 0 = 0 then true
    else strncmpEq cnt (fun idx => fst (idx + 1)) fun idx => snd (idx + 1)

/-- `strlcpy(target, name, size)` for a positive size. -/
def strlcpy (memory : ByteMemory) (target : Nat) (name : FileName) (size : Nat) : ByteMemory :=
  memory.blit target (min name.length (size - 1) + 1) (cString (name.take (size - 1)))

def direntInode (block : DiskBlock) (slot : Nat) : Nat := block.readLE (slot * 128) 8

def direntName (block : DiskBlock) (slot idx : Nat) : UInt8 := block (slot * 128 + 8 + idx)

def nameEq (block : DiskBlock) (slot : Nat) (name : FileName) : Bool :=
  strncmpEq 120 (direntName block slot) (cString name)

def isDot (name : Nat → UInt8) : Bool :=
  (name 0 = 46 && name 1 = 0) || (name 0 = 46 && name 1 = 46 && name 2 = 0)

def putDirent (block : DiskBlock) (slot child : Nat) (name : FileName) : DiskBlock :=
  strlcpy (block.writeLE (slot * 128) 8 child) (slot * 128 + 8) name 120

def clearDirent (block : DiskBlock) (slot : Nat) : DiskBlock :=
  (block.writeLE (slot * 128) 8 0).fill (slot * 128 + 8) 1 0

def isFreeSlot (block : DiskBlock) (slot : Nat) : Bool := direntInode block slot = 0

def isNamed (name : FileName) (block : DiskBlock) (slot : Nat) : Bool :=
  direntInode block slot ≠ 0 && nameEq block slot name

def isEntry (block : DiskBlock) (slot : Nat) : Bool :=
  direntInode block slot ≠ 0 && !isDot (direntName block slot)

def Inode.dirBlocks (dir : Inode) : List Nat := List.range (min dir.blocks 12)

def findSlot (wanted : DiskBlock → Nat → Bool) (dir : Inode) :
    List Nat → HnxfsM (Option (Nat × Nat × DiskBlock))
  | [] => return none
  | b :: rest => do
    match ← hnxfsReadBlock (dir.direct b) with
    | none => findSlot wanted dir rest
    | some buf =>
      match (List.range 32).find? (wanted buf) with
      | some slot => return some (b, slot, buf)
      | none => findSlot wanted dir rest

def readDirectory (dirInode : Nat) : HnxfsM (Option Inode) := do
  match ← hnxfsReadInode dirInode with
  | none => return none
  | some dir => return if dir.type = hnxfsTypeDir then some dir else none

def hnxfsDirLookup (dirInode : Nat) (name : FileName) : HnxfsM Nat := do
  match ← readDirectory dirInode with
  | none => return 0
  | some dir =>
    match ← findSlot (isNamed name) dir dir.dirBlocks with
    | none => return 0
    | some (_, slot, buf) => return direntInode buf slot

def dirGrow (dirInode : Nat) (dir : Inode) (name : FileName) (child : Nat) : HnxfsM Int := do
  if dir.blocks ≥ 12 then
    return -sysEnomem
  else
    let blk ← hnxfsAllocBlock
    if blk = 0 then
      return -sysEnomem
    else
      let grown : Inode :=
        { dir with
          direct := update dir.direct dir.blocks blk
          blocks := dir.blocks + 1
          size := (dir.blocks + 1) * 4096 }
      if (← hnxfsWriteInode dirInode grown) ≠ 0 then
        return -sysEio
      else
        let res ← hnxfsWriteBlock blk (putDirent zeroBlock 0 child name)
        return if res = 0 then 0 else -sysEio

def hnxfsDirAdd (dirInode : Nat) (name : FileName) (child : Nat) : HnxfsM Int := do
  match ← readDirectory dirInode with
  | none => return -sysEnotdir
  | some dir =>
    match ← findSlot isFreeSlot dir dir.dirBlocks with
    | some (b, slot, buf) =>
      let res ← hnxfsWriteBlock (dir.direct b) (putDirent buf slot child name)
      return if res = 0 then 0 else -sysEio
    | none => dirGrow dirInode dir name child

def hnxfsDirRemove (dirInode : Nat) (name : FileName) : HnxfsM Int := do
  match ← readDirectory dirInode with
  | none => return -sysEnotdir
  | some dir =>
    match ← findSlot (isNamed name) dir dir.dirBlocks with
    | none => return -sysEnoent
    | some (b, slot, buf) =>
      let res ← hnxfsWriteBlock (dir.direct b) (clearDirent buf slot)
      return if res = 0 then 0 else -sysEio

def hnxfsDirEmpty (dirInode : Nat) : HnxfsM Bool := do
  match ← readDirectory dirInode with
  | none => return true
  | some dir => return (← findSlot isEntry dir dir.dirBlocks).isNone

/-- The loop of `hnxfs_file_read`; every round delivers at least one byte. -/
def readLoop (inode : Inode) (size off : Nat) :
    Nat → Nat → ByteMemory → HnxfsM (Nat × ByteMemory)
  | 0, done, dst => return (done, dst)
  | fuel + 1, done, dst =>
    if done < size then
      let pos := u64 (off + done)
      let bidx := pos / 4096
      let within := pos % 4096
      let chunk := min (4096 - within) (size - done)
      if bidx ≥ inode.blocks ∨ inode.direct bidx = 0 then
        readLoop inode size off fuel (done + chunk) (dst.blit done chunk fun _ => 0)
      else do
        match ← hnxfsReadBlock (inode.direct bidx) with
        | none => return (done, dst)
        | some blk =>
          readLoop inode size off fuel (done + chunk)
            (dst.blit done chunk fun idx => blk (within + idx))
    else
      return (done, dst)

def hnxfsFileRead (inodeNum : Nat) (buf : ByteMemory) (size off : Nat) :
    HnxfsM (Int × ByteMemory) := do
  match ← hnxfsReadInode inodeNum with
  | none => return (-sysEio, buf)
  | some inode =>
    if off ≥ inode.size then
      return (0, buf)
    else
      let size := min size (inode.size - off)
      let (done, buf) ← readLoop inode size off size 0 buf
      return (int64 done, buf)

def ensureBlock (inode : Inode) (bidx : Nat) : HnxfsM (Option Inode) := do
  if inode.direct bidx = 0 then
    let nb ← hnxfsAllocBlock
    if nb = 0 then
      return none
    else
      return some
        { inode with
          direct := update inode.direct bidx nb
          blocks := if bidx + 1 > inode.blocks then bidx + 1 else inode.blocks }
  else
    return some inode

/-- The loop of `hnxfs_file_write`; every round stores at least one byte. -/
def writeLoop (src : ByteMemory) (size off : Nat) :
    Nat → Nat → Inode → HnxfsM (Nat × Inode)
  | 0, done, inode => return (done, inode)
  | fuel + 1, done, inode =>
    if done < size then
      let pos := u64 (off + done)
      let bidx := pos / 4096
      let within := pos % 4096
      if bidx ≥ 12 then
        return (done, inode)
      else do
        match ← ensureBlock inode bidx with
        | none => return (done, inode)
        | some inode =>
          let chunk := min (4096 - within) (size - done)
          match ← hnxfsReadBlock (inode.direct bidx) with
          | none => return (done, inode)
          | some blk =>
            let filled := blk.blit within chunk fun idx => src (done + idx)
            if (← hnxfsWriteBlock (inode.direct bidx) filled) ≠ 0 then
              return (done, inode)
            else
              writeLoop src size off fuel (done + chunk) inode
    else
      return (done, inode)

def extendSize (inode : Inode) (reach : Nat) : Inode :=
  if reach > inode.size then { inode with size := reach } else inode

def hnxfsFileWrite (inodeNum : Nat) (buf : ByteMemory) (size off : Nat) : HnxfsM Int := do
  match ← hnxfsReadInode inodeNum with
  | none => return -sysEio
  | some inode =>
    let (done, inode) ← writeLoop buf size off size 0 inode
    let _ ← hnxfsWriteInode inodeNum (extendSize inode (u64 (off + done)))
    return int64 done

def truncateLoop : List Nat → Inode → HnxfsM Inode
  | [], inode => return inode
  | b :: rest, inode => do
    if inode.direct b ≠ 0 then
      hnxfsFreeBlock (inode.direct b)
      truncateLoop rest { inode with direct := update inode.direct b 0 }
    else
      truncateLoop rest inode

def hnxfsFileTruncate (inodeNum : Nat) : HnxfsM Unit := do
  match ← hnxfsReadInode inodeNum with
  | none => return ()
  | some inode =>
    let inode ← truncateLoop inode.dirBlocks inode
    let _ ← hnxfsWriteInode inodeNum { inode with blocks := 0, size := 0 }
    return ()

def typeOf (hnxfsType : Nat) : VnodeType :=
  if hnxfsType = hnxfsTypeDir then .dir else .file

def Hnxfs.setVnode (fs : Hnxfs) (slot : Nat) (vnode : Vnode) : Hnxfs :=
  { fs with vnodes := update fs.vnodes slot vnode }

def Hnxfs.cached (fs : Hnxfs) (inodeNum : Nat) : Option Nat :=
  (List.range fs.vnodeCount).find? fun slot => fs.vnodeInode slot = inodeNum

def claimSlot (inodeNum : Nat) : HnxfsM Nat := do
  let fs ← get
  if fs.vnodeCount < 64 then
    set { fs with vnodeCount := fs.vnodeCount + 1 }
    return fs.vnodeCount
  else
    return inodeNum % 64

/-- The vnode is given by its slot in the cache. -/
def hnxfsGetVnode (inodeNum : Nat) : HnxfsM (Option Nat) := do
  match (← get).cached inodeNum with
  | some slot =>
    match ← hnxfsReadInode inodeNum with
    | none => return some slot
    | some inode =>
      modify fun fs => fs.setVnode slot
        { fs.vnodes slot with type := typeOf inode.type, size := inode.size }
      return some slot
  | none =>
    let slot ← claimSlot inodeNum
    match ← hnxfsReadInode inodeNum with
    | none => return none
    | some inode =>
      modify fun fs =>
        { fs.setVnode slot ⟨typeOf inode.type, inode.size, inodeNum⟩ with
          vnodeInode := update fs.vnodeInode slot inodeNum }
      return some slot

def vRead (slot : Nat) (buf : ByteMemory) (size off : Nat) : HnxfsM (Int × ByteMemory) := do
  hnxfsFileRead ((← get).vnodes slot).priv buf size off

def vWrite (slot : Nat) (buf : ByteMemory) (size off : Nat) : HnxfsM Int := do
  let num := ((← get).vnodes slot).priv
  let written ← hnxfsFileWrite num buf size off
  match ← hnxfsReadInode num with
  | none => return written
  | some inode =>
    modify fun fs => fs.setVnode slot { fs.vnodes slot with size := inode.size }
    return written

def newInode (type : VnodeType) : Inode where
  type := if type = .dir then hnxfsTypeDir else hnxfsTypeFile
  mode := 420
  size := 0
  blocks := 0
  direct := fun _ => 0
  mtime := 0

/-- `outp` says whether the caller asks for the vnode. -/
def vCreate (dirInode : Nat) (name : FileName) (type : VnodeType) (outp : Bool) :
    HnxfsM (Int × Option Nat) := do
  if (← hnxfsDirLookup dirInode name) ≠ 0 then
    return (-sysEexist, none)
  else
    let child ← hnxfsAllocInode
    if child = 0 then
      return (-sysEnomem, none)
    else if (← hnxfsWriteInode child (newInode type)) ≠ 0 then
      hnxfsFreeInode child
      return (-sysEio, none)
    else if (← hnxfsDirAdd dirInode name child) ≠ 0 then
      hnxfsFreeInode child
      return (-sysEio, none)
    else if outp then
      return (0, ← hnxfsGetVnode child)
    else
      return (0, none)

def vUnlink (dirInode : Nat) (name : FileName) : HnxfsM Int := do
  let child ← hnxfsDirLookup dirInode name
  if child = 0 then
    return -sysEnoent
  else
    match ← hnxfsReadInode child with
    | none => return -sysEio
    | some inode =>
      -- only a directory is scanned, as the `&&` of the source has it
      let removable ← (if inode.type = hnxfsTypeDir then hnxfsDirEmpty child else pure true)
      if !removable then
        return -sysEinval
      else
        hnxfsFileTruncate child
        hnxfsFreeInode child
        hnxfsDirRemove dirInode name

abbrev slash : UInt8 := 47

/-- A component ends at a slash or after 119 characters. -/
def lookupFrom : Nat → Nat → FileName → HnxfsM Nat
  | 0, inode, _ => return inode
  | fuel + 1, inode, path =>
    let rest := path.dropWhile (· = slash)
    let comp := (rest.takeWhile (· ≠ slash)).take 119
    if comp = [] then
      return inode
    else do
      let child ← hnxfsDirLookup inode comp
      if child = 0 then
        return 0
      else
        lookupFrom fuel child (rest.drop comp.length)

def hnxfsLookup (rel : FileName) : HnxfsM (Option Nat) := do
  let inode ← lookupFrom rel.length hnxfsRootInode rel
  if inode = 0 then
    return none
  else
    hnxfsGetVnode inode

end HnxKernel
