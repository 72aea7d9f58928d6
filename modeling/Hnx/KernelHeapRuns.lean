import Hnx.KernelHeapTiling

/-!
# Runs of the kernel heap

Clients allocate, free and write into the payloads they hold.
-/

namespace HnxKernel

open BlockTiling List

structure HeapSystem where
  heap : Heap
  live : List (Nat × Nat)

inductive HeapCall
  | kmalloc (size : Nat)
  | kcalloc (count size : Nat)
  | kfree (pointer : Nat)
  | store (address : Nat) (byte : UInt8)

variable (arena : Arena)

def HeapCall.Allowed (sys : HeapSystem) : HeapCall → Prop
  | .kmalloc size => size ≤ 2 ^ 63
  | .kcalloc cnt size => cnt < 2 ^ 64 ∧ size < 2 ^ 64 ∧ cnt * size ≤ 2 ^ 63
  | .kfree ptr =>
    ptr = 0 ∨ ptr < arena.base ∨ arena.limit ≤ ptr ∨ ∃ request, (ptr, request) ∈ sys.live
  | .store addr _ => ∃ ptr request, (ptr, request) ∈ sys.live ∧ ptr ≤ addr ∧ addr < ptr + request

def recordAllocation (live : List (Nat × Nat)) (size : Nat) :
    Outcome Heap (Option Nat) → Outcome HeapSystem Unit
  | .ok none heap => .ok () ⟨heap, live⟩
  | .ok (some ptr) heap => .ok () ⟨heap, (ptr, size) :: live⟩
  | .error halt heap => .error halt ⟨heap, live⟩

def HeapCall.perform (sys : HeapSystem) : HeapCall → Outcome HeapSystem Unit
  | .kmalloc size => recordAllocation sys.live size (HnxKernel.kmalloc arena size sys.heap)
  | .kcalloc cnt size =>
    recordAllocation sys.live (cnt * size)
      (HnxKernel.kcalloc arena cnt size sys.heap)
  | .kfree ptr =>
    match HnxKernel.kfree arena ptr sys.heap with
    | .ok _ heap => .ok () ⟨heap, sys.live.filter fun entry => entry.1 ≠ ptr⟩
    | .error halt heap => .error halt ⟨heap, sys.live⟩
  | .store addr byte =>
    .ok () { sys with heap := { sys.heap with memory := sys.heap.memory.fill addr 1 byte } }

def performCalls : List HeapCall → HeapSystem → Outcome HeapSystem Unit
  | [], s => .ok () s
  | call :: calls, s =>
    match call.perform arena s with
    | .ok _ next => performCalls calls next
    | .error halt next => .error halt next

def AllowedCalls : List HeapCall → HeapSystem → Prop
  | [], _ => True
  | call :: calls, s =>
    call.Allowed arena s ∧ ∀ next, call.perform arena s = .ok () next → AllowedCalls calls next

/-- The shape of the arena, and its allocated blocks as the held payloads. -/
structure HeapInvariant (system : HeapSystem) (blocks : List Block) : Prop where
  shape : HeapShape arena system.heap blocks
  held : system.live.Perm ((allocated arena.base blocks).map fun entry =>
    (entry.1 + headerSize, entry.2.request.getD 0))
  requests : ∀ block ∈ blocks, block.isFree = false → headerSize + block.request.getD 0 ≤ block.size

variable {arena} {s : HeapSystem} {blocks : List Block}

lemma heapInit_invariant (ram : ByteMemory) :
    HeapInvariant arena ⟨heapInit arena ram, []⟩ [⟨heapArenaSize, none⟩] where
  shape := heapInit_shape ram
  held := by simp [allocated]
  requests := by simp

section
variable (inv : HeapInvariant arena s blocks)
include inv

/-- A panic leaves the heap as it was. -/
lemma kmalloc_invariant {sz : Nat} (pos : 0 < sz) (bound : sz + 31 < 2 ^ 64) :
    kmalloc arena sz s.heap =
        .error (.panicHex "heap: out of memory, requested" sz) s.heap ∨
      ∃ ptr h blocks', kmalloc arena sz s.heap = .ok (some ptr) h ∧
        HeapInvariant arena ⟨h, (ptr, sz) :: s.live⟩ blocks' := by
  obtain ⟨aligned, roomy, le⟩ := blockNeed_spec pos bound
  rcases kmalloc_spec inv.shape pos with
    ⟨_, res⟩ | ⟨pre, b, post, rfl, fits, res⟩
  · exact .inl res
  right
  refine ⟨_, _, _, res, takeBlock_shape sz inv.shape fits aligned roomy, ?_, ?_⟩
  · have held := inv.held
    rw [allocated_append, allocated_append, allocated_serve, total_serve fits.2]
    simp only [allocated_append, allocated, fits.1, if_true, map_append] at held
    simp only [map_append, map_cons, map_nil, Option.getD_some]
    exact (held.cons _).trans perm_middle.symm
  intro o mem ht
  simp only [mem_append] at mem
  rcases mem with earlier | hi | later
  · exact inv.requests o (by simp [earlier]) ht
  · rw [serve] at hi
    have fitsBlock := fits.2
    split at hi
    · simp only [mem_cons, not_mem_nil, or_false] at hi
      rcases hi with rfl | rfl
      · exact le
      · simp at ht
    simp only [mem_cons, not_mem_nil, or_false] at hi
    subst hi
    exact le_trans le fitsBlock
  · exact inv.requests o (by simp [later]) ht

lemma HeapInvariant.block_of_held {ptr req : Nat} (held : (ptr, req) ∈ s.live) :
    ∃ a b, (a, b) ∈ allocated arena.base blocks ∧ ptr = a + headerSize ∧ req = b.request.getD 0 ∧
      headerSize + req ≤ b.size := by
  obtain ⟨⟨a, b⟩, mem, equal⟩ := mem_map.mp (inv.held.mem_iff.mp held)
  cases equal
  obtain ⟨pre, post, split, _, ht⟩ := exists_split_of_mem_allocated mem
  exact ⟨a, b, mem, rfl, rfl, inv.requests b (by simp [split]) ht⟩

lemma store_invariant {ptr req : Nat} {ram : ByteMemory} (held : (ptr, req) ∈ s.live)
    (hi : ∀ a, a < ptr ∨ ptr + req ≤ a → ram a = s.heap.memory a) :
    HeapInvariant arena ⟨{ s.heap with memory := ram }, s.live⟩ blocks := by
  obtain ⟨a, b, mem, rfl, _, le⟩ := inv.block_of_held held
  refine ⟨inv.shape.store mem fun o out => hi o ?_, inv.held, inv.requests⟩
  omega

lemma kfree_held {ptr req : Nat} (held : (ptr, req) ∈ s.live) :
    ∃ h blocks', kfree arena ptr s.heap = .ok () h ∧
      HeapInvariant arena ⟨h, s.live.filter fun e => e.1 ≠ ptr⟩ blocks' := by
  obtain ⟨a, b, mem, rfl, _, _⟩ := inv.block_of_held held
  obtain ⟨before, post, rfl, rfl, ht⟩ := exists_split_of_mem_allocated mem
  have blockRoomy := inv.shape.holdHeaders b (by simp)
  simp only [headerSize, heapAlign] at blockRoomy
  obtain ⟨freed, res, hs⟩ := kfree_shape inv.shape ht
  refine ⟨freed, _, res, hs, ?_, ?_⟩
  · have earlier {a : Nat} {o : Block}
      (mem : (a, o) ∈ allocated arena.base before) :
      a ≠ arena.base + total before := by
      have bounds := le_of_mem_allocated mem
      obtain ⟨front, back, split, _, _⟩ := exists_split_of_mem_allocated mem
      have roomy := inv.shape.holdHeaders o (by simp [split])
      simp only [headerSize, heapAlign] at roomy
      omega
    have later {a : Nat} {o : Block}
      (mem : (a, o) ∈ allocated (arena.base + total before + b.size) post) :
      a ≠ arena.base + total before := by
      have bounds := le_of_mem_allocated mem
      omega
    have kept := inv.held.filter fun e => e.1 ≠ arena.base + total before + headerSize
    rw [allocated_mergeFree]
    refine kept.trans (List.Perm.of_eq ?_)
    simp only [allocated_append, allocated, ht, Block.isFree_none, if_true, Bool.false_eq_true,
      if_false, map_append, map_cons, filter_append]
    rw [filter_cons_of_neg (by simp)]
    congr 1 <;>
    · refine filter_eq_self.mpr ?_
      intro e entryMem
      obtain ⟨⟨a, o⟩, oMem, rfl⟩ := mem_map.mp entryMem
      first
      | simpa using earlier oMem
      | simpa using later oMem
  refine forall_mergeFree (by simp) ?_
  intro o mem
  rcases mem_append.mp mem with earlier | r
  · exact inv.requests o (by simp [earlier])
  rcases mem_cons.mp r with rfl | later
  · simp
  · exact inv.requests o (by simp [later])

lemma kcalloc_invariant {cnt size : Nat} (bound : cnt * size ≤ 2 ^ 63) :
    (∃ req heap, kcalloc arena cnt size s.heap =
        .error (.panicHex "heap: out of memory, requested" req) heap) ∨
      kcalloc arena cnt size s.heap = .ok none s.heap ∨
      ∃ ptr heap blocks', kcalloc arena cnt size s.heap = .ok (some ptr) heap ∧
        (∀ i < cnt * size, heap.memory (ptr + i) = 0) ∧
        HeapInvariant arena ⟨heap, (ptr, cnt * size) :: s.live⟩ blocks' := by
  have totalEq : u64 (cnt * size) = cnt * size := u64_of_lt (by omega)
  have acc : ¬ (cnt ≠ 0 ∧ cnt * size / cnt ≠ size) := by
    rintro ⟨positive, wrapped⟩
    exact wrapped (Nat.mul_div_cancel_left size (by omega))
  simp only [kcalloc, totalEq, if_neg acc]
  rcases Nat.eq_zero_or_pos (cnt * size) with zero | positive
  · right
    left
    simp [zero, kmalloc]
  rcases kmalloc_invariant inv positive (by omega) with
    panic | ⟨ptr, heap, blocks', res, kept⟩
  · left
    exact ⟨_, _, by rw [panic]⟩
  right
  right
  refine ⟨ptr, { heap with memory := heap.memory.fill ptr (cnt * size) 0 },
    blocks', by rw [res], fun i idxLt => ByteMemory.fill_inside idxLt, ?_⟩
  exact store_invariant kept (by simp) fun a out => ByteMemory.fill_outside out

lemma perform_invariant {c : HeapCall} (allowed : c.Allowed arena s) :
    (∃ req next, c.perform arena s =
        .error (.panicHex "heap: out of memory, requested" req) next) ∨
      ∃ next blocks', c.perform arena s = .ok () next ∧ HeapInvariant arena next blocks' := by
  cases c with
  | kmalloc sz =>
    have bound : sz ≤ 2 ^ 63 := allowed
    rcases Nat.eq_zero_or_pos sz with rfl | positive
    · right
      exact ⟨s, blocks, by simp [HeapCall.perform, kmalloc, recordAllocation], inv⟩
    rcases kmalloc_invariant inv positive (by omega) with
      panic | ⟨ptr, h, blocks', res, kept⟩
    · left
      exact ⟨_, _, by rw [HeapCall.perform, panic]; rfl⟩
    right
    exact ⟨_, blocks', by rw [HeapCall.perform, res]; rfl, kept⟩
  | kcalloc =>
    rcases kcalloc_invariant inv allowed.2.2 with
      ⟨_, _, panic⟩ | no | ⟨ptr, h, blocks', res, _, kept⟩
    · left
      exact ⟨_, _, by rw [HeapCall.perform, panic]; rfl⟩
    · right
      exact ⟨s, blocks, by rw [HeapCall.perform, no]; rfl, inv⟩
    right
    exact ⟨_, blocks', by rw [HeapCall.perform, res]; rfl, kept⟩
  | kfree ptr =>
    right
    by_cases held : ∃ request, (ptr, request) ∈ s.live
    · obtain ⟨request, mem⟩ := held
      obtain ⟨h, blocks', res, kept⟩ := kfree_held inv mem
      exact ⟨_, blocks', by rw [HeapCall.perform, res], kept⟩
    have foreign : ptr = 0 ∨ ptr < arena.base ∨ arena.limit ≤ ptr := by
      rcases allowed with null | below | above | mem
      · exact .inl null
      · exact .inr (.inl below)
      · exact .inr (.inr above)
      · exact absurd mem held
    have eq : (s.live.filter fun e => e.1 ≠ ptr) = s.live := by
      refine filter_eq_self.mpr ?_
      rintro ⟨o, request⟩ mem
      have : o ≠ ptr := by
        rintro rfl
        exact held ⟨request, mem⟩
      simpa using this
    refine ⟨s, blocks, ?_, inv⟩
    rw [HeapCall.perform, kfree_foreign _ foreign, eq]
  | store =>
    right
    obtain ⟨ptr, request, mem, above, below⟩ := allowed
    refine ⟨_, blocks, rfl, store_invariant inv mem fun o out => ?_⟩
    exact ByteMemory.fill_outside (by omega)

end

def payloadSize (ram : ByteMemory) (ptr : Nat) : Nat :=
  blockSize ram (ptr - headerSize) - headerSize

structure SoundHeap (arena : Arena) (system : HeapSystem) (blocks : List Block) : Prop where
  tiles : Tiles system.heap.memory arena.base blocks arena.limit
  sizes : ∀ block ∈ blocks, block.size % 16 = 0 ∧ 32 ≤ block.size
  separated : NoAdjacentFree blocks
  aligned : ∀ held ∈ system.live, held.1 % 16 = 0
  large : ∀ held ∈ system.live, held.2 ≤ payloadSize system.heap.memory held.1
  disjoint : system.live.Pairwise fun first second =>
    first.1 + payloadSize system.heap.memory first.1 ≤ second.1 ∨
      second.1 + payloadSize system.heap.memory second.1 ≤ first.1
  apart : ∀ held ∈ system.live, ∀ header ∈ positions arena.base blocks,
    header + 16 ≤ held.1 ∨ held.1 + payloadSize system.heap.memory held.1 ≤ header
  inUse : system.heap.bytesInUse = used blocks
  idle : system.live = [] → blocks = [⟨heapArenaSize, none⟩]

lemma HeapInvariant.sound (inv : HeapInvariant arena s blocks) : SoundHeap arena s blocks := by
  have payload {a : Nat} {b : Block}
    (mem : (a, b) ∈ allocated arena.base blocks) :
    payloadSize s.heap.memory (a + headerSize) = b.size - headerSize := by
    rw [payloadSize, Nat.add_sub_cancel, inv.shape.tiles.blockSize_of_mem_allocated mem]
  have roomy {a : Nat} {b : Block}
    (mem : (a, b) ∈ allocated arena.base blocks) : 32 ≤ b.size := by
    obtain ⟨pre, post, split, _, _⟩ := exists_split_of_mem_allocated mem
    exact inv.shape.holdHeaders b (by simp [split])
  refine ⟨inv.shape.tiles, inv.shape.sizes, inv.shape.separated, ?_, ?_, ?_, ?_,
    inv.shape.inUse, ?_⟩
  · rintro ⟨ptr, req⟩ held
    obtain ⟨a, b, mem, rfl, _, _⟩ := inv.block_of_held held
    obtain ⟨pre, post, split, rfl, _⟩ := exists_split_of_mem_allocated mem
    have preAligned : total pre % 16 = 0 :=
      total_mod_eq_zero fun o oMem => (inv.shape.sizes o (by simp [split, oMem])).1
    have baseAligned := arena.aligned
    simp only [headerSize, heapAlign] at baseAligned ⊢
    omega
  · rintro ⟨ptr, req⟩ held
    obtain ⟨a, b, mem, rfl, _, le⟩ := inv.block_of_held held
    rw [payload mem]
    omega
  · have apart : ((allocated arena.base blocks).map fun e =>
      (e.1 + headerSize, e.2.request.getD 0)).Pairwise fun fst snd =>
        fst.1 + payloadSize s.heap.memory fst.1 ≤ snd.1 ∨
          snd.1 + payloadSize s.heap.memory snd.1 ≤ fst.1 := by
      refine pairwise_map.mpr ((allocated_pairwise arena.base blocks).imp_of_mem ?_)
      rintro ⟨fst, blk1⟩ ⟨snd, blk2⟩ mem1 _ sorted
      have firstRoomy := roomy mem1
      left
      rw [payload mem1]
      simp only [headerSize] at sorted ⊢
      omega
    exact (inv.held.pairwise_iff Or.symm).mpr apart
  · rintro ⟨ptr, req⟩ held header starts
    obtain ⟨a, b, mem, rfl, _, le⟩ := inv.block_of_held held
    have blockRoomy := roomy mem
    change header + 16 ≤ a + headerSize ∨ a + headerSize + payloadSize _ (a + headerSize) ≤ header
    rw [payload mem]
    simp only [headerSize]
    rcases position_outside_allocated mem starts with pre | post <;> omega
  intro idle
  have none : allocated arena.base blocks = [] := by
    have held := inv.held
    rw [idle] at held
    exact map_eq_nil_iff.mp held.symm.eq_nil
  rw [← inv.shape.total_eq]
  exact eq_singleton_of_allocated_nil inv.shape.separated none inv.shape.nonempty

lemma performCalls_invariant {cs : List HeapCall}
    (inv : HeapInvariant arena s blocks) (allowed : AllowedCalls arena cs s) :
    (∃ req next, performCalls arena cs s =
        .error (.panicHex "heap: out of memory, requested" req) next) ∨
      ∃ next blocks', performCalls arena cs s = .ok () next ∧ HeapInvariant arena next blocks' := by
  induction cs generalizing s blocks with
  | nil => exact .inr ⟨s, blocks, rfl, inv⟩
  | cons _ _ ih =>
    rcases perform_invariant inv allowed.1 with
      ⟨req, next, panic⟩ | ⟨next, blocks', res, kept⟩
    · left
      exact ⟨req, next, by rw [performCalls, panic]⟩
    rw [performCalls, res]
    exact ih kept (allowed.2 next res)

/-- Every sequence of allowed calls reaches a sound heap, or stops in the out-of-memory panic. -/
theorem heap_sound_of_allowedCalls (arena : Arena) (ram : ByteMemory)
    (cs : List HeapCall) (allowed : AllowedCalls arena cs ⟨heapInit arena ram, []⟩) :
    (∃ req next, performCalls arena cs ⟨heapInit arena ram, []⟩ =
        .error (.panicHex "heap: out of memory, requested" req) next) ∨
      ∃ s, performCalls arena cs ⟨heapInit arena ram, []⟩ = .ok () s ∧
        (∃ blocks, SoundHeap arena s blocks) ∧
        ∀ cnt sz ptr h, cnt * sz ≤ 2 ^ 63 → kcalloc arena cnt sz s.heap = .ok (some ptr) h →
          ∀ i < cnt * sz, h.memory (ptr + i) = 0 := by
  rcases performCalls_invariant (heapInit_invariant ram) allowed with
    panicked | ⟨s, blocks, res, inv⟩
  · exact .inl panicked
  right
  refine ⟨s, res, ⟨blocks, inv.sound⟩, ?_⟩
  intro cnt sz ptr h bound returned
  rcases kcalloc_invariant inv bound with
    ⟨_, _, panicked⟩ | no | ⟨o, otherHeap, _, otherResult, zeros, _⟩
  · simp [panicked] at returned
  · simp [no] at returned
  rw [otherResult] at returned
  cases returned
  exact zeros

theorem lowArena_sound_run : AllowedCalls lowArena [.kmalloc 24, .kcalloc 2 8, .kfree 0]
      ⟨heapInit lowArena fun _ => 0, []⟩ ∧
    ((∃ req next, performCalls lowArena [.kmalloc 24, .kcalloc 2 8, .kfree 0]
        ⟨heapInit lowArena fun _ => 0, []⟩ =
          .error (.panicHex "heap: out of memory, requested" req) next) ∨
      ∃ s, performCalls lowArena [.kmalloc 24, .kcalloc 2 8, .kfree 0]
          ⟨heapInit lowArena fun _ => 0, []⟩ = .ok () s ∧
        (∃ blocks, SoundHeap lowArena s blocks) ∧
        ∀ cnt sz ptr h, cnt * sz ≤ 2 ^ 63 → kcalloc lowArena cnt sz s.heap = .ok (some ptr) h →
          ∀ i < cnt * sz, h.memory (ptr + i) = 0) := by
  have allowed : AllowedCalls lowArena [.kmalloc 24, .kcalloc 2 8, .kfree 0]
    ⟨heapInit lowArena fun _ => 0, []⟩ :=
    ⟨by norm_num [HeapCall.Allowed], fun _ _ => ⟨by norm_num [HeapCall.Allowed],
      fun _ _ => ⟨.inl rfl, fun _ _ => trivial⟩⟩⟩
  exact ⟨allowed, heap_sound_of_allowedCalls lowArena _ _ allowed⟩

end HnxKernel
