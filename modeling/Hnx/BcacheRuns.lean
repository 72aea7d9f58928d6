import Hnx.Bcache

/-!
# Runs of the buffer cache

As long as no counter wraps, the pins of a buffer count how often callers hold it.
-/

namespace HnxKernel

open Function List CacheView

namespace Bcache

open Relation

variable {bc post : Bcache} {b blkno peak : Nat} {held : List Nat}
  {latest : Nat → DiskBlock} {data : DiskBlock}

structure Healthy (bc : Bcache) : Prop where
  capacity_pos : 1 ≤ bc.capacity
  capacity_lt : bc.capacity < 2 ^ 32
  hasIo : bc.hasIo = true
  allocFaults : bc.allocFaults = []
  readFaults : bc.backing.readFaults = []
  writeFaults : bc.backing.writeFaults = []

namespace Healthy

variable (healthy : bc.Healthy)
include healthy

lemma backing_flushBuf : (bc.flushBuf b).backing =
    { bc.backing with contents := Coherent.flushed bc.backing.contents (bc.blocks b) } :=
  (congrArg store (view_flushBuf healthy.hasIo)).trans
    (store_flush healthy.writeFaults)

lemma fill_eq : bc.fill blkno = (bc.backing.contents blkno, bc) := by
  rw [fill, if_pos healthy.hasIo, BackingStore.read_of_nil healthy.readFaults]
  rfl

lemma allocate_eq : bc.allocate = (true, bc) := by
  have faults := healthy.allocFaults
  cases bc
  obtain rfl := faults
  rfl

lemma flush : (bc.flushBuf b).Healthy := by
  have backing : (bc.flushBuf b).backing = _ := healthy.backing_flushBuf
  rw [flushBuf_eq]
  constructor
  case readFaults =>
    rw [backing]
    exact healthy.readFaults
  case writeFaults =>
    rw [backing]
    exact healthy.writeFaults
  case capacity_pos => exact healthy.capacity_pos
  case capacity_lt => exact healthy.capacity_lt
  case hasIo => exact healthy.hasIo
  case allocFaults => exact healthy.allocFaults

lemma drop {resident : Nat} : Healthy { bc.dropBuf b with resident } := by
  have flushed : (bc.flushBuf b).Healthy := healthy.flush
  rw [dropBuf_eq]
  exact { healthy with readFaults := flushed.readFaults, writeFaults := flushed.writeFaults }

lemma linkNew_eq (keyLe : blkno ≤ radixMaxKey) : bc.linkNew blkno = (some bc.next, { bc with
        next := bc.next + 1
        buf := update bc.buf bc.next ⟨blkno, bc.backing.contents blkno, false, 1⟩
        index := (bc.index.insert blkno bc.next []).tree
        allocated := update bc.allocated bc.next true
        lru := bc.next :: bc.lru
        resident := u32 (bc.resident + 1) }) := by
  have inserted := @RadixTree.insert_of_nil Nat bc.index blkno bc.next keyLe
  have faults := healthy.allocFaults
  rw [linkNew, healthy.fill_eq]
  rw [faults, if_pos inserted.1, inserted.2, ← faults]

end Healthy

structure Sound (bc : Bcache) (held : List Nat) (peak : Nat) (latest : Nat → DiskBlock) :
    Prop where
  linked : bc.Linked
  healthy : bc.Healthy
  resident_eq : bc.resident = bc.lru.length
  pins_eq : ∀ b ∈ bc.lru, (bc.buf b).pins = held.count b
  held_listed : ∀ b ∈ held, b ∈ bc.lru
  bounded : bc.lru.length ≤ max bc.capacity peak
  peak_lt : peak < 2 ^ 32
  coherent : Coherent bc.lru bc.blocks bc.backing.contents latest

lemma pin_buf : (bc.pin b).buf b = { bc.buf b with pins := u32 ((bc.buf b).pins + 1) } :=
  update_self ..

namespace Sound

variable (h : bc.Sound held peak latest)
include h

lemma pin (hl : b ∈ bc.lru) {newPeak : Nat} (higher : peak ≤ newPeak)
    (peakLt : newPeak < 2 ^ 32) (fits : (b :: held).count b < 2 ^ 32) :
    (bc.pin b).Sound (b :: held) newPeak latest := by
  have perm : (bc.pin b).lru.Perm bc.lru := (perm_cons_erase hl).symm
  have healthy := h.healthy
  have blocks : (bc.pin b).blocks = bc.blocks := by
    rw [blocks_of_update rfl]
    exact update_eq_self b bc.blocks
  rw [count_cons_self] at fits
  constructor
  case linked => exact h.linked.step (Step.pin hl)
  case healthy => exact { healthy with }
  case resident_eq => exact h.resident_eq.trans perm.length_eq.symm
  case pins_eq =>
    intro o oMem
    have oldPins := h.pins_eq o (perm.mem_iff.mp oMem)
    rw [Bcache.pin]
    dsimp only
    by_cases eq : o = b
    · rw [eq] at oldPins
      rw [eq, update_self, count_cons_self, ← oldPins, u32_of_lt (oldPins ▸ fits)]
    · rw [update_of_ne eq, count_cons_of_ne (Ne.symm eq), oldPins]
  case held_listed =>
    intro o mem
    rw [perm.mem_iff]
    rcases mem_cons.mp mem with rfl | old
    · exact hl
    · exact h.held_listed o old
  case bounded =>
    rw [perm.length_eq]
    exact h.bounded.trans (max_le_max_left _ higher)
  case peak_lt => exact peakLt
  case coherent =>
    rw [blocks]
    exact h.coherent.of_mem_iff fun o => perm.mem_iff

lemma flush (hl : b ∈ bc.lru) : (bc.flushBuf b).Sound held peak latest := by
  have blocks : (bc.flushBuf b).blocks = _ :=
    (congrArg block (view_flushBuf h.healthy.hasIo)).trans block_flush
  have backing : (bc.flushBuf b).backing = _ := h.healthy.backing_flushBuf
  have pins := fun o => (buf_flushBuf bc b o).2
  have flushed := h.coherent.flush h.linked.indexes hl
  have linked := h.linked.step (Step.flush hl)
  have healthy : (bc.flushBuf b).Healthy := h.healthy.flush
  rw [flushBuf_eq] at blocks linked healthy ⊢
  constructor
  case linked => exact linked
  case healthy => exact healthy
  case resident_eq => exact h.resident_eq
  case pins_eq => exact fun o mem => (pins o).trans (h.pins_eq o mem)
  case held_listed => exact h.held_listed
  case bounded => exact h.bounded
  case peak_lt => exact h.peak_lt
  case coherent =>
    rw [blocks]
    rw [backing]
    exact flushed

lemma drop (hl : b ∈ bc.lru) (free : b ∉ held) {resident : Nat}
    (counted : resident + 1 = bc.lru.length) :
    Sound { bc.dropBuf b with resident } held peak latest := by
  have shorter : (bc.lru.erase b).length + 1 = bc.lru.length := length_erase_add_one hl
  have bounded := h.bounded
  -- the buffer is clean after the write-back, and its removal loses nothing
  have flushed := h.flush hl
  have blocks : (bc.flushBuf b).blocks = _ :=
    (congrArg block (view_flushBuf h.healthy.hasIo)).trans block_flush
  have lru : (bc.flushBuf b).lru = bc.lru := by rw [flushBuf_eq]
  have removed := flushed.coherent.remove flushed.linked.indexes (lru.symm ▸ hl)
  have clean : ((bc.flushBuf b).blocks b).dirty = false := by rw [blocks, update_self]
  rw [Coherent.flushed, clean, if_neg Bool.false_ne_true, lru] at removed
  have linked := h.linked.step (Step.drop hl resident)
  have healthy : Healthy { bc.dropBuf b with resident } := h.healthy.drop
  rw [dropBuf_eq] at linked healthy ⊢
  constructor
  case linked => exact linked
  case healthy => exact healthy
  case resident_eq =>
    dsimp only
    omega
  case pins_eq =>
    intro o mem
    exact ((buf_flushBuf bc b o).2).trans (h.pins_eq o (mem_of_mem_erase mem))
  case held_listed =>
    intro o mem
    have ne : o ≠ b := ne_of_mem_of_not_mem mem free
    exact (mem_erase_of_ne ne).mpr (h.held_listed o mem)
  case bounded =>
    dsimp only
    omega
  case peak_lt => exact h.peak_lt
  case coherent => exact removed

lemma makeRoom : bc.makeRoom.Sound held peak latest ∧ bc.makeRoom.capacity = bc.capacity ∧
    (bc.makeRoom.lru.length + 1 ≤ max bc.capacity peak ∨ ∀ b ∈ bc.makeRoom.lru, b ∈ held) := by
  have residentEq := h.resident_eq
  have bounded := h.bounded
  have capLt := h.healthy.capacity_lt
  have peakLt := h.peak_lt
  rw [Bcache.makeRoom]
  split
  case isTrue full =>
    rcases reclaim_cases bc with ⟨eq, pinned⟩ | ⟨b, mem, free, dropped⟩
    · rw [eq]
      refine ⟨h, rfl, .inr fun b mem => ?_⟩
      have pins := pinned b mem
      rw [h.pins_eq b mem] at pins
      exact count_pos_iff.mp (Nat.pos_of_ne_zero pins)
    rw [h.pins_eq b mem] at free
    have notHeld : b ∉ held := count_eq_zero.mp free
    have shorter : (bc.lru.erase b).length + 1 = bc.lru.length := length_erase_add_one mem
    have resident : (bc.dropBuf b).resident = bc.resident := by rw [dropBuf_eq]
    have counted : u32 ((bc.dropBuf b).resident + (2 ^ 32 - 1)) + 1 = bc.lru.length := by
      rw [resident, u32]
      omega
    have post := h.drop mem notHeld counted
    rw [dropped]
    refine ⟨post, ?_, .inl ?_⟩
    · rw [dropBuf_eq]
    rw [dropBuf_eq]
    dsimp only
    omega
  case isFalse => exact ⟨h, rfl, .inl (by omega)⟩

lemma link (ha : bc.index.lookup blkno = none) (keyLe : blkno ≤ radixMaxKey)
    {newPeak : Nat} (higher : peak ≤ newPeak) (peakLt : newPeak < 2 ^ 32)
    (counted : (bc.next :: held).dedup.length ≤ newPeak)
    (room : bc.lru.length + 1 ≤ max bc.capacity peak ∨ ∀ b ∈ bc.lru, b ∈ held) :
    (bc.linkNew blkno).2.Sound (bc.next :: held) newPeak latest := by
  have fresh := h.linked.fresh
  have notHeld : bc.next ∉ held := fun mem => fresh (h.held_listed _ mem)
  have capLt := h.healthy.capacity_lt
  have healthy := h.healthy
  have longer : bc.lru.length + 1 ≤ max bc.capacity newPeak := by
    rcases room with hi | allHeld
    · omega
    have subset : bc.lru ⊆ held.dedup := fun b hl => mem_dedup.mpr (allHeld b hl)
    have fewer := (h.linked.indexes.distinct.subperm subset).length_le
    rw [dedup_cons_of_notMem notHeld, length_cons] at counted
    omega
  have linked := h.linked.step (Step.link ha)
  rw [healthy.linkNew_eq keyLe] at linked ⊢
  constructor
  case linked => exact linked
  case healthy => exact { healthy with }
  case resident_eq => rw [h.resident_eq, u32_of_lt (by omega), length_cons]
  case pins_eq =>
    intro o mem
    dsimp only
    rcases mem_cons.mp mem with rfl | old
    · rw [update_self, count_cons_self, count_eq_zero.mpr notHeld]
    have ne := ne_of_mem_of_not_mem old fresh
    rw [update_of_ne ne, count_cons_of_ne (Ne.symm ne), h.pins_eq o old]
  case held_listed =>
    intro o mem
    rcases mem_cons.mp mem with rfl | old
    · exact mem_cons_self
    · exact mem_cons_of_mem _ (h.held_listed o old)
  case bounded => exact longer
  case peak_lt => exact peakLt
  case coherent =>
    rw [blocks_of_update rfl]
    have kept : Coherent bc.lru
      (update bc.blocks bc.next ⟨blkno, bc.backing.contents blkno, false⟩)
      bc.backing.contents latest :=
      h.coherent.congr fun o hl => update_of_ne (ne_of_mem_of_not_mem hl fresh) ..
    apply kept.add
    · intro o hl
      rw [update_of_ne (ne_of_mem_of_not_mem hl fresh), update_self]
      intro numbered
      have found := h.linked.indexes.lookup_key hl
      rw [show (bc.buf o).blkno = blkno from numbered, ha] at found
      cases found
    · rw [update_self]

lemma bread (keyLe : blkno ≤ radixMaxKey) :
    ∃ b post, bc.bread blkno = (some b, post) ∧ (post.buf b).blkno = blkno ∧
      (post.buf b).data = latest blkno ∧ post.capacity = bc.capacity ∧
      ∀ newPeak, peak ≤ newPeak → newPeak < 2 ^ 32 → (b :: held).dedup.length ≤ newPeak →
        (b :: held).count b < 2 ^ 32 → post.Sound (b :: held) newPeak latest := by
  rw [Bcache.bread]
  cases hf : bc.index.lookup blkno with
  | some b =>
    obtain ⟨mem, numbered⟩ := (h.linked.indexes.found blkno b).mp hf
    have cached : (bc.buf b).data = latest (bc.buf b).blkno := h.coherent.cached b mem
    refine ⟨b, bc.pin b, rfl, ?_, ?_, rfl, fun newPeak higher peakLt _ fits =>
      h.pin mem higher peakLt fits⟩
    · rw [pin_buf]
      exact numbered
    rw [pin_buf, ← numbered]
    exact cached
  | none =>
    obtain ⟨roomSound, sameCapacity, room⟩ := h.makeRoom
    have healthy := roomSound.healthy
    have missing := lookup_makeRoom hf
    rw [← sameCapacity] at room
    rw [healthy.allocate_eq, if_pos rfl, healthy.allocate_eq, if_pos rfl]
    have ha : bc.makeRoom.backing.contents blkno = latest blkno := by
      refine roomSound.coherent.absent blkno fun b mem numbered => ?_
      have known := roomSound.linked.indexes.lookup_key mem
      rw [show (bc.makeRoom.buf b).blkno = blkno from numbered, missing] at known
      cases known
    refine ⟨bc.makeRoom.next, (bc.makeRoom.linkNew blkno).2, ?_, ?_, ?_, ?_,
      fun newPeak higher peakLt counted _ =>
        roomSound.link missing keyLe higher peakLt counted room⟩
    all_goals rw [healthy.linkNew_eq keyLe]
    · dsimp only
      rw [update_self]
    · dsimp only
      rw [update_self, ha]
    · exact sameCapacity

lemma change (hl : b ∈ bc.lru) (data : DiskBlock) :
    ((bc.changeData b data).markDirty b).Sound held peak (update latest (bc.buf b).blkno data) := by
  have healthy := h.healthy
  constructor
  case linked => exact h.linked.step (Step.change data hl)
  case healthy => exact { healthy with }
  case resident_eq => exact h.resident_eq
  case pins_eq =>
    intro o mem
    rw [buf_change]
    by_cases eq : o = b
    · rw [eq, update_self]
      exact h.pins_eq b hl
    rw [update_of_ne eq]
    exact h.pins_eq o mem
  case held_listed => exact h.held_listed
  case bounded => exact h.bounded
  case peak_lt => exact h.peak_lt
  case coherent =>
    rw [blocks_of_update buf_change]
    exact h.coherent.change h.linked.indexes hl data

lemma unpin (mem : b ∈ held) : (bc.unpin b).Sound (held.erase b) peak latest := by
  have healthy := h.healthy
  have listed := h.held_listed b mem
  have pins := h.pins_eq b listed
  have pos : 0 < held.count b := count_pos_iff.mpr mem
  have linked := h.linked.step (Step.unpin listed)
  rw [Bcache.unpin, if_pos (by omega)] at linked ⊢
  constructor
  case linked => exact linked
  case healthy => exact { healthy with }
  case resident_eq => exact h.resident_eq
  case pins_eq =>
    intro o oMem
    dsimp only
    by_cases eq : o = b
    · rw [eq, update_self, count_erase_self, ← pins]
    · rw [update_of_ne eq, count_erase_of_ne eq, h.pins_eq o oMem]
  case held_listed => exact fun o left => h.held_listed o (mem_of_mem_erase left)
  case bounded => exact h.bounded
  case peak_lt => exact h.peak_lt
  case coherent =>
    rw [blocks_of_update rfl]
    have eq : update bc.blocks b
      ⟨(bc.buf b).blkno, (bc.buf b).data, (bc.buf b).dirty⟩ = bc.blocks :=
      update_eq_self b bc.blocks
    rw [eq]
    exact h.coherent

lemma sync : bc.sync.2.Sound held peak latest := by
  have buffers : ∀ (hl : List Nat) {bc : Bcache}, bc.Sound held peak latest →
    (∀ b ∈ hl, b ∈ bc.lru) → (hl.foldl flushBuf bc).Sound held peak latest := by
    intro hl
    induction hl with
    | nil => exact fun h _ => h
    | cons b _ ih =>
      intro bc h hi
      refine ih (h.flush (hi b mem_cons_self)) fun o mem => ?_
      rw [flushBuf_eq]
      exact hi o (mem_cons_of_mem b mem)
  exact buffers bc.lru h fun _ mem => mem

end Sound

/-- Buffers are named by the pointer that `bcache_bread` returned. -/
inductive Call where
  | bread (blkno : Nat)
  | modify (b : Nat) (data : DiskBlock)
  | brelse (b : Nat)
  | sync

def Call.InRange : Call → Prop
  | .bread blkno => blkno < 2 ^ 36
  | .modify _ _ => True
  | .brelse _ => True
  | .sync => True

/-- The cache and what its callers hold, with the latest contents of every block. -/
structure Users where
  cache : Bcache
  held : List Nat
  peak : Nat
  latest : Nat → DiskBlock

namespace Users

def start (backing : BackingStore) (cap : Nat) : Users where
  cache := init backing true cap []
  held := []
  peak := 0
  latest := backing.contents

def step (users : Users) : Call → Except CacheStop Users
  | .bread blkno =>
    match users.cache.bread blkno with
    | (none, cache) => .ok { users with cache }
    | (some b, cache) =>
      .ok
        { users with
          cache
          held := b :: users.held
          peak := max users.peak (b :: users.held).dedup.length }
  | .modify b data =>
    if b ∈ users.held then
      (users.cache.modify b data).map fun cache =>
        { users with
          cache
          latest := update users.latest (users.cache.buf b).blkno data }
    else
      .ok users
  | .brelse b =>
    if b ∈ users.held then
      (users.cache.brelse b).map fun cache => { users with cache, held := users.held.erase b }
    else
      .ok users
  | .sync => .ok { users with cache := users.cache.sync.2 }

def run (users : Users) : List Call → Except CacheStop Users
  | [] => .ok users
  | call :: calls =>
    match users.step call with
    | .error stop => .error stop
    | .ok next => next.run calls

def Fits (users : Users) : Prop :=
  (∀ b, users.held.count b < 2 ^ 32) ∧ users.held.dedup.length < 2 ^ 32

def FitsRun (users : Users) : List Call → Prop
  | [] => users.Fits
  | call :: calls => users.Fits ∧ ∀ next, users.step call = .ok next → next.FitsRun calls

variable {users : Users} {call : Call} {calls : List Call}

lemma step_sound (inRange : call.InRange) (h : users.cache.Sound users.held users.peak users.latest)
    (fits : ∀ next, users.step call = .ok next → next.Fits) :
    ∃ next, users.step call = .ok next ∧ next.cache.Sound next.held next.peak next.latest ∧
      next.cache.capacity = users.cache.capacity := by
  cases call with
  | bread blkno =>
    have keyLe : blkno ≤ radixMaxKey := Nat.le_of_lt_succ inRange
    obtain ⟨b, cache, ret, -, -, sameCapacity, soundAfter⟩ := h.bread keyLe
    rw [step, ret] at fits ⊢
    obtain ⟨counts, few⟩ := fits _ rfl
    exact ⟨_, rfl, soundAfter _ (le_max_left _ _) (max_lt h.peak_lt few) (le_max_right _ _)
      (counts b), sameCapacity⟩
  | modify b data =>
    rw [step]
    split
    case isTrue mem =>
      have listed := h.held_listed b mem
      rw [modify, if_pos ((h.linked.allocated b).mpr listed)]
      exact ⟨_, rfl, h.change listed data, rfl⟩
    case isFalse => exact ⟨users, rfl, h, rfl⟩
  | brelse b =>
    rw [step]
    split
    case isTrue mem =>
      have listed := h.held_listed b mem
      rw [brelse, if_pos ((h.linked.allocated b).mpr listed)]
      exact ⟨_, rfl, h.unpin mem, (Step.setup (Step.unpin listed)).1⟩
    case isFalse => exact ⟨users, rfl, h, rfl⟩
  | sync => exact ⟨_, rfl, h.sync, (setup_of_steps Linked.steps_sync).1⟩

lemma run_sound (inRange : ∀ call ∈ calls, call.InRange)
    (h : users.cache.Sound users.held users.peak users.latest) (fits : users.FitsRun calls) :
    ∃ final, users.run calls = .ok final ∧ final.cache.Sound final.held final.peak final.latest ∧
      final.cache.capacity = users.cache.capacity := by
  induction calls generalizing users with
  | nil => exact ⟨users, rfl, h, rfl⟩
  | cons call calls ih =>
    have fst : ∀ next, users.step call = .ok next → next.Fits := by
      intro next stepped
      have rest := fits.2 next stepped
      cases calls with
      | nil => exact rest
      | cons => exact rest.1
    obtain ⟨next, stepped, soundNext, sameCapacity⟩ := step_sound (inRange call mem_cons_self) h fst
    obtain ⟨final, ran, soundFinal, lastCap⟩ := ih
      (fun o mem => inRange o (mem_cons_of_mem call mem)) soundNext
      (fits.2 next stepped)
    refine ⟨final, ?_, soundFinal, lastCap.trans sameCapacity⟩
    rw [run, stepped]
    exact ran

lemma start_sound {backing : BackingStore} {capacity : Nat} (capPos : 1 ≤ capacity)
    (capLt : capacity < 2 ^ 32) (readFaults : backing.readFaults = [])
    (writeFaults : backing.writeFaults = []) :
    (start backing capacity).cache.Sound [] 0 backing.contents := by
  have eq : (start backing capacity).cache.capacity = capacity := if_pos (by omega)
  constructor
  case linked => exact Nodes.init _ _
  case healthy => exact ⟨eq.symm ▸ capPos, eq.symm ▸ capLt, rfl, rfl, readFaults, writeFaults⟩
  case resident_eq => rfl
  case pins_eq => exact fun b hl => (not_mem_nil hl).elim
  case held_listed => exact fun b mem => (not_mem_nil mem).elim
  case bounded => exact Nat.zero_le _
  case peak_lt => decide
  case coherent => exact Coherent.init _ _

lemma length_held_step {next : Users} (stepped : users.step call = .ok next) :
    next.held.length ≤ users.held.length + 1 := by
  cases call with
  | bread =>
    rw [step] at stepped
    split at stepped
    · obtain rfl := Except.ok.inj stepped
      exact Nat.le_succ _
    obtain rfl := Except.ok.inj stepped
    exact le_rfl
  | modify =>
    rw [step, modify] at stepped
    split at stepped
    · split at stepped
      · obtain rfl := Except.ok.inj stepped
        exact Nat.le_succ _
      · cases stepped
    obtain rfl := Except.ok.inj stepped
    exact Nat.le_succ _
  | brelse =>
    rw [step, brelse] at stepped
    split at stepped
    · split at stepped
      · obtain rfl := Except.ok.inj stepped
        exact length_erase_le.trans (Nat.le_succ _)
      · cases stepped
    obtain rfl := Except.ok.inj stepped
    exact Nat.le_succ _
  | sync =>
    cases stepped
    exact Nat.le_succ _

lemma fitsRun_of_length
    (short : users.held.length + calls.length < 2 ^ 32) : users.FitsRun calls := by
  have fits : users.Fits := by
    refine ⟨fun b => ?_, ?_⟩
    · have cnt : users.held.count b ≤ users.held.length := count_le_length
      omega
    have nodup : users.held.dedup.length ≤ users.held.length := (dedup_sublist users.held).length_le
    omega
  induction calls generalizing users with
  | nil => exact fits
  | cons _ calls ih =>
    refine ⟨fits, fun next stepped => ?_⟩
    have added := length_held_step stepped
    rw [length_cons] at short
    have shortRest : next.held.length + calls.length < 2 ^ 32 := by omega
    refine ih shortRest ⟨fun b => ?_, ?_⟩
    · have cnt : next.held.count b ≤ next.held.length := count_le_length
      omega
    have nodup : next.held.dedup.length ≤ next.held.length := (dedup_sublist next.held).length_le
    omega

end Users

/-- In every run with fewer than 2 ^ 32 holds the cache is consistent and bounded, and reads return
the latest contents. -/
theorem bcache_runs (backing : BackingStore) (capacity : Nat) (calls : List Call)
    (capacityPos : 1 ≤ capacity) (capacityLt : capacity < 2 ^ 32)
    (readFaults : backing.readFaults = []) (writeFaults : backing.writeFaults = [])
    (inRange : ∀ call ∈ calls, call.InRange) (fits : (Users.start backing capacity).FitsRun calls) :
    ∃ users, (Users.start backing capacity).run calls = .ok users ∧ (users.cache.lru.Nodup ∧
        (∀ blkno b, users.cache.index.lookup blkno = some b ↔
          b ∈ users.cache.lru ∧ (users.cache.buf b).blkno = blkno) ∧
        users.cache.index.count = users.cache.lru.length ∧
        users.cache.resident = users.cache.lru.length) ∧
      (∀ b ∈ users.cache.lru, (users.cache.buf b).pins = users.held.count b) ∧
      (∀ b ∈ users.held, b ∈ users.cache.lru ∧ users.cache.allocated b = true) ∧
      users.cache.resident ≤ max capacity users.peak ∧
      ∀ blkno < 2 ^ 36, ∃ b post, users.cache.bread blkno = (some b, post) ∧
        (post.buf b).blkno = blkno ∧ (post.buf b).data = users.latest blkno := by
  have start := Users.start_sound capacityPos capacityLt readFaults writeFaults
  obtain ⟨users, ran, h, sameCapacity⟩ := Users.run_sound inRange start fits
  have capacityEq : users.cache.capacity = capacity := sameCapacity.trans (if_pos (by omega))
  have indexes := h.linked.indexes
  refine ⟨users, ran, ⟨indexes.distinct, indexes.found, indexes.count, h.resident_eq⟩,
    h.pins_eq, ?_, ?_, ?_⟩
  · intro b member
    have listed := h.held_listed b member
    exact ⟨listed, (h.linked.allocated b).mpr listed⟩
  · rw [h.resident_eq, ← capacityEq]
    exact h.bounded
  intro blkno blknoLt
  obtain ⟨b, post, returned, numbered, data, -⟩ := h.bread (Nat.le_of_lt_succ blknoLt)
  exact ⟨b, post, returned, numbered, data⟩

theorem bcache_runs_changed : ∃ users, (Users.start (BackingStore.zeros []) 1).run
      [.bread 7, .modify 0 (fun _ => 1), .brelse 0, .bread 8, .sync] = .ok users ∧
    users.cache.resident ≤ max 1 users.peak := by
  obtain ⟨users, ran, -, -, -, bounded, -⟩ :=
    bcache_runs (BackingStore.zeros []) 1
      [.bread 7, .modify 0 (fun _ => 1), .brelse 0, .bread 8, .sync] (by decide) (by decide) rfl rfl
      (by simp [Call.InRange]) (Users.fitsRun_of_length (by decide))
  exact ⟨users, ran, bounded⟩

/-- A cache of one buffer, whose block has been read again and again. -/
structure Wrapping (bc : Bcache) (count : Nat) : Prop where
  linked : bc.Linked
  healthy : bc.Healthy
  lru : bc.lru = [0]
  blkno : (bc.buf 0).blkno = 0
  pins : (bc.buf 0).pins = u32 count
  resident : bc.resident = 1
  capacity : bc.capacity = 1

variable {cnt : Nat} {backing : BackingStore}

lemma Wrapping.bread (wrapping : bc.Wrapping cnt) :
    bc.bread 0 = (some 0, bc.pin 0) ∧ (bc.pin 0).Wrapping (cnt + 1) := by
  have mem : 0 ∈ bc.lru := wrapping.lru ▸ mem_cons_self
  have found := (wrapping.linked.indexes.found 0 0).mpr ⟨mem, wrapping.blkno⟩
  have healthy := wrapping.healthy
  refine ⟨by rw [Bcache.bread, found], ?_⟩
  constructor
  case linked => exact wrapping.linked.step (Step.pin mem)
  case healthy => exact { healthy with }
  case lru =>
    rw [Bcache.pin, wrapping.lru]
    rfl
  case blkno =>
    rw [pin_buf]
    exact wrapping.blkno
  case pins =>
    rw [pin_buf, wrapping.pins]
    simp [u32]
  case resident => exact wrapping.resident
  case capacity => exact wrapping.capacity

lemma run_breads {users : Users} {done : Nat} (wrapping : users.cache.Wrapping done)
    (held : 0 ∈ users.held) (cnt : Nat) (calls : List Call) :
    ∃ next : Users, next.cache.Wrapping (done + cnt) ∧ 0 ∈ next.held ∧
      users.run (List.replicate cnt (.bread 0) ++ calls) = next.run calls := by
  induction cnt generalizing users done with
  | zero => exact ⟨users, wrapping, held, rfl⟩
  | succ _ ih =>
    obtain ⟨ret, wrapsNext⟩ := wrapping.bread
    obtain ⟨next, wrapsLast, heldLast, ran⟩ :=
      @ih ⟨users.cache.pin 0, 0 :: users.held, max users.peak (0 :: users.held).dedup.length,
        users.latest⟩ _ wrapsNext mem_cons_self
    refine ⟨next, ?_, heldLast, ?_⟩
    · rwa [Nat.add_right_comm] at wrapsLast
    rw [replicate_succ, cons_append, Users.run, Users.step, ret]
    exact ran

lemma wrapping_start (readFaults : backing.readFaults = [])
    (writeFaults : backing.writeFaults = []) : ∃ next : Users, next.cache.Wrapping 1 ∧
      0 ∈ next.held ∧
      (Users.start backing 1).step (.bread 0) = .ok next := by
  have h := Users.start_sound (le_refl 1) (by decide) readFaults writeFaults
  have healthy := h.healthy
  have ha : (Users.start backing 1).cache.index.lookup 0 = none := RadixTree.lookup_init
  have linked := h.linked.step (Step.link ha)
  have ret : (Users.start backing 1).cache.bread 0 = (Users.start backing 1).cache.linkNew 0 := by
    rw [Bcache.bread, ha]
    rw [show (Users.start backing 1).cache.makeRoom = (Users.start backing 1).cache from rfl,
      healthy.allocate_eq, if_pos rfl, healthy.allocate_eq, if_pos rfl]
  rw [healthy.linkNew_eq (Nat.zero_le _)] at linked ret
  rw [Users.step, ret]
  refine ⟨_, ?_, mem_cons_self, rfl⟩
  exact
    { linked
      healthy := ⟨healthy.capacity_pos, healthy.capacity_lt, rfl, rfl, readFaults, writeFaults⟩
      lru := rfl
      blkno := rfl
      pins := rfl
      resident := rfl
      capacity := rfl }

lemma Wrapping.freed (wrapping : bc.Wrapping cnt) (wraps : u32 cnt = 0) :
    ∃ b post, bc.bread 1 = (some b, post) ∧ post.allocated 0 = false := by
  have hl : 0 ∈ bc.lru := wrapping.lru ▸ mem_cons_self
  have ha : bc.index.lookup 1 = none := by
    cases hf : bc.index.lookup 1 with
    | none => rfl
    | some b =>
      obtain ⟨mem, numbered⟩ := (wrapping.linked.indexes.found 1 b).mp hf
      rw [wrapping.lru, mem_singleton] at mem
      rw [mem, wrapping.blkno] at numbered
      cases numbered
  have older := wrapping.linked.older 0 hl
  have room : bc.makeRoom =
    { bc.dropBuf 0 with resident := u32 ((bc.dropBuf 0).resident + (2 ^ 32 - 1)) } := by
    have full : bc.resident ≥ bc.capacity := by rw [wrapping.resident, wrapping.capacity]
    have unpinned : bc.lru.reverse.find? (fun b => (bc.buf b).pins == 0) = some 0 := by
      rw [wrapping.lru, reverse_singleton, List.find?_singleton, wrapping.pins, wraps]
      rfl
    rw [makeRoom, if_pos full, reclaim, unpinned]
  have healthy : bc.makeRoom.Healthy := by
    rw [room]
    exact wrapping.healthy.drop
  have next : bc.makeRoom.next = bc.next := by rw [room, dropBuf_eq]
  have gone : bc.makeRoom.allocated 0 = false := by
    rw [room, dropBuf_eq]
    dsimp only
    rw [update_self]
  have ret : bc.bread 1 = bc.makeRoom.linkNew 1 := by
    rw [Bcache.bread, ha]
    rw [healthy.allocate_eq, if_pos rfl, healthy.allocate_eq, if_pos rfl]
  rw [ret, healthy.linkNew_eq (by decide)]
  refine ⟨_, _, rfl, ?_⟩
  dsimp only
  rw [next, update_of_ne older.ne, gone]

lemma run_wrapped (readFaults : backing.readFaults = [])
    (writeFaults : backing.writeFaults = []) (wraps : u32 (1 + cnt) = 0) :
      (Users.start backing 1).run
      (.bread 0 :: (List.replicate cnt (.bread 0) ++ [.bread 1, .modify 0 zeroBlock])) =
        .error .freed := by
  obtain ⟨fst, wrapsFirst, heldFirst, stepped⟩ := wrapping_start readFaults writeFaults
  obtain ⟨last, wrapping, held, ran⟩ := run_breads wrapsFirst heldFirst cnt
    [.bread 1, .modify 0 zeroBlock]
  obtain ⟨b, post, ret, gone⟩ := wrapping.freed wraps
  have stillHeld : 0 ∈ b :: last.held := mem_cons_of_mem b held
  have notAllocated : ¬post.allocated 0 = true := by rw [gone]; exact Bool.false_ne_true
  rw [Users.run, stepped]
  dsimp only
  rw [ran, Users.run, Users.step, ret]
  dsimp only
  rw [Users.run, Users.step, if_pos stillHeld]
  rw [modify, if_neg notAllocated]
  rfl

/-- After 2 ^ 32 reads of one block the buffer that is held is freed. -/
theorem held_buffer_freed : (Users.start (BackingStore.zeros []) 1).run
    (.bread 0 :: (List.replicate (2 ^ 32 - 1) (.bread 0) ++
      [.bread 1, .modify 0 zeroBlock])) = .error .freed :=
  run_wrapped rfl rfl (by decide)

end Bcache

end HnxKernel
