import Hnx.CacheContents

/-!
# The buffer cache

The list, the tree and the allocated buffers stay together in every step.
-/

namespace HnxKernel

open Function List

structure Bbuf where
  blkno : Nat
  data : DiskBlock
  dirty : Bool
  pins : Nat

structure Bcache where
  index : RadixTree Nat
  lru : List Nat
  buf : Nat → Bbuf
  allocated : Nat → Bool
  next : Nat
  allocFaults : List Bool
  backing : BackingStore
  hasIo : Bool
  capacity : Nat
  resident : Nat
  unsaved : Nat → Option DiskBlock

namespace Bcache

def init (backing : BackingStore) (hasIo : Bool) (cap : Nat) (allocFaults : List Bool) :
    Bcache where
  index := RadixTree.init
  lru := []
  buf := fun _ => ⟨0, zeroBlock, false, 0⟩
  allocated := fun _ => false
  next := 0
  allocFaults
  backing
  hasIo
  capacity := if cap ≠ 0 then cap else 16
  resident := 0
  unsaved := fun _ => none

/-- `flush_buf`, which does not look at the result of the transfer. -/
def flushBuf (bc : Bcache) (b : Nat) : Bcache :=
  let buf := bc.buf b
  if buf.dirty && bc.hasIo then
    let written := bc.backing.write buf.blkno buf.data
    { bc with
      backing := written.2
      unsaved := if written.1 then update bc.unsaved buf.blkno none else bc.unsaved
      buf := update bc.buf b { buf with dirty := false } }
  else
    bc

def freeBuf (bc : Bcache) (b : Nat) : Bcache :=
  let bc := bc.flushBuf b
  { bc with allocated := update bc.allocated b false }

def dropBuf (bc : Bcache) (b : Nat) : Bcache :=
  { bc with
    lru := bc.lru.erase b
    index := bc.index.remove (bc.buf b).blkno }.freeBuf b

/-- The walk from the end of the list finds the first buffer that is not pinned. -/
def reclaim (bc : Bcache) : Bcache :=
  match bc.lru.reverse.find? fun b => (bc.buf b).pins == 0 with
  | none => bc
  | some b =>
    let bc := bc.dropBuf b
    { bc with resident := u32 (bc.resident + (2 ^ 32 - 1)) }

def fill (bc : Bcache) (blkno : Nat) : DiskBlock × Bcache :=
  if bc.hasIo then
    let res := bc.backing.read blkno
    (res.1.getD zeroBlock, { bc with backing := res.2 })
  else
    (zeroBlock, bc)

def allocate (bc : Bcache) : Bool × Bcache :=
  (!bc.allocFaults.headD false, { bc with allocFaults := bc.allocFaults.tail })

def linkNew (bc : Bcache) (blkno : Nat) : Option Nat × Bcache :=
  let filled := bc.fill blkno
  let bc := filled.2
  let b := bc.next
  let inserted := bc.index.insert blkno b bc.allocFaults
  let bc :=
    { bc with
      next := bc.next + 1
      buf := update bc.buf b ⟨blkno, filled.1, false, 1⟩
      index := inserted.tree
      allocFaults := inserted.faults }
  if inserted.ok then
    (some b, { bc with
        allocated := update bc.allocated b true
        lru := b :: bc.lru
        resident := u32 (bc.resident + 1) })
  else
    (none, bc)

def pin (bc : Bcache) (b : Nat) : Bcache :=
  { bc with
    buf := update bc.buf b { bc.buf b with pins := u32 ((bc.buf b).pins + 1) }
    lru := b :: bc.lru.erase b }

def makeRoom (bc : Bcache) : Bcache :=
  if bc.resident ≥ bc.capacity then bc.reclaim else bc

def bread (bc : Bcache) (blkno : Nat) : Option Nat × Bcache :=
  match bc.index.lookup blkno with
  | some b => (some b, bc.pin b)
  | none =>
    let header := bc.makeRoom.allocate
    if header.1 then
      let buffer := header.2.allocate
      if buffer.1 then buffer.2.linkNew blkno else (none, buffer.2)
    else
      (none, header.2)

def markDirty (bc : Bcache) (b : Nat) : Bcache :=
  { bc with buf := update bc.buf b { bc.buf b with dirty := true } }

def changeData (bc : Bcache) (b : Nat) (data : DiskBlock) : Bcache :=
  { bc with
    buf := update bc.buf b { bc.buf b with data := data }
    unsaved := update bc.unsaved (bc.buf b).blkno (some data) }

def modify (bc : Bcache) (b : Nat) (data : DiskBlock) : Except CacheStop Bcache :=
  if bc.allocated b then .ok ((bc.changeData b data).markDirty b) else .error .freed

def unpin (bc : Bcache) (b : Nat) : Bcache :=
  if (bc.buf b).pins > 0 then
    { bc with buf := update bc.buf b { bc.buf b with pins := (bc.buf b).pins - 1 } }
  else
    bc

def brelse (bc : Bcache) (b : Nat) : Except CacheStop Bcache :=
  if bc.allocated b then .ok (bc.unpin b) else .error .freed

def sync (bc : Bcache) : Nat × Bcache :=
  ((bc.lru.filter fun b => (bc.buf b).dirty).length, bc.lru.foldl flushBuf bc)

open Relation

variable {bc post : Bcache} {b blkno : Nat} {data : DiskBlock}

def Linked (bc : Bcache) : Prop :=
  Nodes bc.index bc.lru bc.allocated bc.next fun b => (bc.buf b).blkno

inductive Step (bc : Bcache) : Bcache → Prop
  | pin {b : Nat} (listed : b ∈ bc.lru) : Step bc (bc.pin b)
  | drop {b : Nat} (listed : b ∈ bc.lru) (resident : Nat) :
      Step bc { bc.dropBuf b with resident }
  | allocate : Step bc bc.allocate.2
  | link {blkno : Nat} (absent : bc.index.lookup blkno = none) : Step bc (bc.linkNew blkno).2
  | change {b : Nat} (data : DiskBlock) (listed : b ∈ bc.lru) :
      Step bc ((bc.changeData b data).markDirty b)
  | markDirty {b : Nat} (listed : b ∈ bc.lru) : Step bc (bc.markDirty b)
  | unpin {b : Nat} (listed : b ∈ bc.lru) : Step bc (bc.unpin b)
  | flush {b : Nat} (listed : b ∈ bc.lru) : Step bc (bc.flushBuf b)

lemma flushBuf_eq (bc : Bcache) (b : Nat) : bc.flushBuf b = { bc with
      backing := (bc.flushBuf b).backing
      unsaved := (bc.flushBuf b).unsaved
      buf := (bc.flushBuf b).buf } := by
  rw [flushBuf]
  split
  · rfl
  · rfl

lemma buf_flushBuf (bc : Bcache) (b o : Nat) : ((bc.flushBuf b).buf o).blkno = (bc.buf o).blkno ∧
    ((bc.flushBuf b).buf o).pins = (bc.buf o).pins := by
  rw [flushBuf]
  split
  · by_cases same : o = b
    · simp [same]
    · simp [same]
  · exact ⟨rfl, rfl⟩

lemma dropBuf_eq (bc : Bcache) (b : Nat) : bc.dropBuf b = { bc with
      lru := bc.lru.erase b
      index := bc.index.remove (bc.buf b).blkno
      allocated := update bc.allocated b false
      backing := (bc.flushBuf b).backing
      unsaved := (bc.flushBuf b).unsaved
      buf := (bc.flushBuf b).buf } := by
  rw [dropBuf, freeBuf, flushBuf, flushBuf]
  split
  · rfl
  · rfl

lemma fill_eq (bc : Bcache) (blkno : Nat) :
    (bc.fill blkno).2 = { bc with backing := (bc.fill blkno).2.backing } := by
  rw [fill]
  split
  · rfl
  · rfl

section
variable (h : bc.Linked)
include h

lemma Linked.relabel (buf : Bbuf) :
    Nodes bc.index bc.lru bc.allocated bc.next fun b => (update bc.buf bc.next buf b).blkno :=
  h.congr fun b mem => by rw [update_of_ne (ne_of_mem_of_not_mem mem h.fresh)]

lemma Linked.link (ha : bc.index.lookup blkno = none) : (bc.linkNew blkno).2.Linked := by
  have relabelled := h.relabel ⟨blkno, (bc.fill blkno).1, false, 1⟩
  have newKey : (update bc.buf bc.next
    ⟨blkno, (bc.fill blkno).1, false, 1⟩ bc.next).blkno = blkno := by
    rw [update_self]
  rw [linkNew, fill_eq]
  split
  case isTrue ok =>
    have added := relabelled.add bc.allocFaults (by rw [newKey]; exact ha)
      (by rw [newKey]; exact ok)
    rwa [newKey] at added
  case isFalse failed => exact relabelled.insert_failed (by simpa using failed)

lemma Linked.drop (mem : b ∈ bc.lru) : (bc.dropBuf b).Linked := by
  rw [dropBuf_eq]
  exact (h.remove mem).congr fun o _ => (buf_flushBuf bc b o).1

lemma Linked.update {buf : Bbuf} (same : buf.blkno = (bc.buf b).blkno) :
    Nodes bc.index bc.lru bc.allocated bc.next fun o => (update bc.buf b buf o).blkno :=
  h.congr fun o _ => by
    by_cases sameBuf : o = b
    · rw [sameBuf, update_self, same]
    · rw [update_of_ne sameBuf]

lemma Linked.flush : (bc.flushBuf b).Linked := by
  rw [flushBuf_eq]
  exact h.congr fun o _ => (buf_flushBuf bc b o).1

lemma Linked.step (step : Step bc post) : post.Linked := by
  cases step with
  | pin mem => exact Nodes.touch (h.update rfl) mem
  | drop mem => exact h.drop mem
  | allocate => exact h
  | link ha => exact h.link ha
  | @change b data =>
    have changed : (bc.changeData b data).Linked := h.update rfl
    exact changed.update rfl
  | markDirty => exact h.update rfl
  | unpin =>
    rw [unpin]
    split
    · exact h.update rfl
    · exact h
  | flush => exact h.flush

lemma Linked.steps (steps : ReflTransGen Step bc post) : post.Linked := by
  induction steps with
  | refl => exact h
  | tail _ step ih => exact ih.step step

end

lemma Step.setup (step : Step bc post) : post.capacity = bc.capacity ∧ post.hasIo = bc.hasIo := by
  cases step with
  | pin => exact ⟨rfl, rfl⟩
  | drop =>
    rw [dropBuf_eq]
    exact ⟨rfl, rfl⟩
  | allocate => exact ⟨rfl, rfl⟩
  | link =>
    rw [linkNew, fill_eq]
    split
    · exact ⟨rfl, rfl⟩
    · exact ⟨rfl, rfl⟩
  | change => exact ⟨rfl, rfl⟩
  | markDirty => exact ⟨rfl, rfl⟩
  | unpin =>
    rw [Bcache.unpin]
    split
    · exact ⟨rfl, rfl⟩
    · exact ⟨rfl, rfl⟩
  | flush =>
    rw [flushBuf_eq]
    exact ⟨rfl, rfl⟩

lemma setup_of_steps (steps : ReflTransGen Step bc post) :
    post.capacity = bc.capacity ∧ post.hasIo = bc.hasIo := by
  induction steps with
  | refl => exact ⟨rfl, rfl⟩
  | tail _ step ih => exact ⟨step.setup.1.trans ih.1, step.setup.2.trans ih.2⟩

lemma reclaim_cases (bc : Bcache) : (bc.reclaim = bc ∧ ∀ b ∈ bc.lru, (bc.buf b).pins ≠ 0) ∨
    ∃ b ∈ bc.lru, (bc.buf b).pins = 0 ∧ bc.reclaim =
        { bc.dropBuf b with resident := u32 ((bc.dropBuf b).resident + (2 ^ 32 - 1)) } := by
  rw [reclaim]
  cases hf : bc.lru.reverse.find? fun b => (bc.buf b).pins == 0 with
  | none =>
    refine .inl ⟨rfl, fun b hl => ?_⟩
    simpa using List.find?_eq_none.mp hf b (mem_reverse.mpr hl)
  | some b =>
    have mem := mem_reverse.mp (mem_of_find?_eq_some hf)
    exact .inr ⟨b, mem, by simpa using List.find?_some hf, rfl⟩

lemma lookup_dropBuf {n : Nat} (ha : bc.index.lookup n = none) :
    (bc.dropBuf b).index.lookup n = none := by
  rw [dropBuf_eq]
  rw [RadixTree.lookup_remove.1]
  by_cases same : n = (bc.buf b).blkno
  · rw [same, update_self]
  · rw [update_of_ne same, ha]

lemma lookup_makeRoom {n : Nat} (ha : bc.index.lookup n = none) :
    bc.makeRoom.index.lookup n = none := by
  rw [makeRoom]
  split
  · rcases reclaim_cases bc with ⟨same, -⟩ | ⟨b, -, -, dropped⟩
    · rw [same, ha]
    rw [dropped]
    dsimp only
    exact lookup_dropBuf ha
  · exact ha

lemma steps_makeRoom : ReflTransGen Step bc bc.makeRoom := by
  rw [makeRoom]
  split
  · rcases reclaim_cases bc with ⟨same, -⟩ | ⟨b, mem, -, dropped⟩
    · rw [same]
    rw [dropped]
    exact .single (Step.drop mem _)
  · exact .refl

namespace Linked

variable (h : bc.Linked)
include h

lemma steps_bread : ReflTransGen Step bc (bc.bread blkno).2 := by
  rw [bread]
  cases hf : bc.index.lookup blkno with
  | some b => exact .single (Step.pin ((h.indexes.found blkno b).mp hf).1)
  | none =>
    have missing := lookup_makeRoom hf
    have header : ReflTransGen Step bc bc.makeRoom.allocate.2 := steps_makeRoom.tail Step.allocate
    dsimp only
    split
    · have buf := header.tail Step.allocate
      split
      · exact buf.tail (Step.link missing)
      · exact buf
    · exact header

lemma steps_modify (ret : bc.modify b data = .ok post) : ReflTransGen Step bc post := by
  rw [modify] at ret
  split at ret
  case isTrue pres =>
    cases ret
    exact .single (Step.change data ((h.allocated b).mp pres))
  case isFalse => cases ret

lemma steps_brelse (ret : bc.brelse b = .ok post) : ReflTransGen Step bc post := by
  rw [brelse] at ret
  split at ret
  case isTrue pres =>
    cases ret
    exact .single (Step.unpin ((h.allocated b).mp pres))
  case isFalse => cases ret

omit h in
lemma steps_sync : ReflTransGen Step bc bc.sync.2 := by
  have buffers : ∀ (hl : List Nat) {bc : Bcache}, (∀ b ∈ hl, b ∈ bc.lru) →
    ReflTransGen Step bc (hl.foldl flushBuf bc) := by
    intro hl
    induction hl with
    | nil => exact fun _ => ReflTransGen.refl
    | cons b _ ih =>
      intro bc hi
      have step : Step bc (bc.flushBuf b) := Step.flush (hi b mem_cons_self)
      refine .head step (ih ?_)
      intro o mem
      rw [flushBuf_eq]
      exact hi o (mem_cons_of_mem b mem)
  exact buffers bc.lru fun _ mem => mem

end Linked

def blocks (bc : Bcache) : Nat → CachedBlock :=
  fun b => ⟨(bc.buf b).blkno, (bc.buf b).data, (bc.buf b).dirty⟩

def view (bc : Bcache) : CacheView := ⟨bc.blocks, bc.backing, bc.unsaved⟩

lemma blocks_of_update {buf : Bbuf} (changed : post.buf = update bc.buf b buf) :
    post.blocks = update bc.blocks b ⟨buf.blkno, buf.data, buf.dirty⟩ := by
  have updated := Function.comp_update
    (fun buf : Bbuf => (⟨buf.blkno, buf.data, buf.dirty⟩ : CachedBlock)) bc.buf b buf
  rwa [← changed] at updated

lemma buf_change : ((bc.changeData b data).markDirty b).buf =
    update bc.buf b ⟨(bc.buf b).blkno, data, true, (bc.buf b).pins⟩ := by
  rw [markDirty, changeData]
  simp

lemma view_flushBuf (hasIo : bc.hasIo = true) : (bc.flushBuf b).view = bc.view.flush b := by
  rw [flushBuf, CacheView.flush, hasIo, Bool.and_true]
  by_cases dirty : (bc.buf b).dirty = true
  · rw [if_pos dirty, if_pos (show (bc.view.block b).dirty = true from dirty), view,
      blocks_of_update rfl]
    rfl
  · rw [if_neg dirty, if_neg (show ¬(bc.view.block b).dirty = true from dirty)]

lemma view_dropBuf (hasIo : bc.hasIo = true) : (bc.dropBuf b).view = bc.view.flush b := by
  rw [dropBuf_eq, ← view_flushBuf hasIo]
  rfl

end Bcache

end HnxKernel
