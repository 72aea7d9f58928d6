import Hnx.KernelHeapTiling

/-!
# Request sizes of the kernel heap

The block size for a request is computed modulo 2^64.
-/

namespace HnxKernel

open BlockTiling

variable (arena : Arena)

def headerWalk (ram : ByteMemory) : Nat → Nat → Option Nat
  | 0, start => some start
  | steps + 1, start => (nextBlock arena ram start).bind (headerWalk ram steps)

def ReachesEnd (ram : ByteMemory) : Prop :=
  ∃ steps last, headerWalk arena ram steps arena.base = some last ∧
    last + blockSize ram last = arena.limit

def PayloadInside (ram : ByteMemory) (ptr size : Nat) : Prop :=
  arena.base ≤ ptr ∧ headerSize + size ≤ blockSize ram (ptr - headerSize) ∧
    ptr - headerSize + blockSize ram (ptr - headerSize) ≤ arena.limit

/-- Served, refused or panicked, with an arena that can still be walked. -/
def ServesRequest (size : Nat) : Outcome Heap (Option Nat) → Prop
  | .ok none h => (∃ blocks, HeapShape arena h blocks) ∧ ReachesEnd arena h.memory
  | .ok (some ptr) h => PayloadInside arena h.memory ptr size ∧ ReachesEnd arena h.memory
  | .error halt h => halt ≠ .hang ∧ (∃ blocks, HeapShape arena h blocks) ∧ ReachesEnd arena h.memory

variable {arena} {h : Heap} {blocks : List Block}

variable {ram : ByteMemory} {size cnt : Nat} {b : Block}

lemma Tiles.walk_ends {start : Nat} (tiles : Tiles ram start blocks arena.limit)
    (hold : HoldHeaders blocks) (nonempty : blocks ≠ []) :
    ∃ steps last, headerWalk arena ram steps start = some last ∧
      last + blockSize ram last = arena.limit := by
  induction blocks generalizing start with
  | nil => exact absurd rfl nonempty
  | cons b blocks ih =>
    cases blocks with
    | nil =>
      refine ⟨0, start, rfl, ?_⟩
      rw [tiles.1.size]
      exact tiles.2
    | cons =>
      obtain ⟨steps, last, hr, ended⟩ := ih tiles.2 hold.tail (by simp)
      refine ⟨steps + 1, last, ?_, ended⟩
      rw [headerWalk, nextBlock_next tiles hold]
      exact hr

lemma HeapShape.reachesEnd (hs : HeapShape arena h blocks) : ReachesEnd arena h.memory :=
  hs.tiles.walk_ends hs.holdHeaders hs.nonempty

lemma HeapShape.payloadInside (hs : HeapShape arena h blocks) {a : Nat}
    (mem : (a, b) ∈ allocated arena.base blocks) (le : headerSize + size ≤ b.size) :
    PayloadInside arena h.memory (a + headerSize) size := by
  have bounds := le_of_mem_allocated mem
  have limitEq := hs.tiles.limit_eq
  have sizeEq := hs.tiles.blockSize_of_mem_allocated mem
  rw [PayloadInside, Nat.add_sub_cancel, sizeEq]
  omega

lemma not_payloadInside_of_wraps {ptr : Nat}
    (wraps : 2 ^ 64 ≤ size + 31) : ¬ PayloadInside arena ram ptr size := by
  rintro ⟨_, large, mem⟩
  have := arena.fits
  have := arena.limit_eq
  simp only [headerSize, heapArenaSize] at *
  omega

lemma kmalloc_serves (hs : HeapShape arena h blocks) (pos : 0 < size) (hb : size + 31 < 2 ^ 64) :
    kmalloc arena size h = .error (.panicHex "heap: out of memory, requested" size) h ∨
      ∃ a b ht blocks', kmalloc arena size h = .ok (some (a + headerSize)) ht ∧
        HeapShape arena ht blocks' ∧ (a, b) ∈ allocated arena.base blocks' ∧
        headerSize + size ≤ b.size := by
  obtain ⟨ha, roomy, le⟩ := blockNeed_spec pos hb
  rcases kmalloc_spec hs pos with
    ⟨_, res⟩ | ⟨pre, b, post, rfl, hf, res⟩
  · exact .inl res
  right
  refine ⟨_, ⟨servedSize (headerSize + heapAlign) (blockNeed size) b.size, some size⟩, _, _,
    res, takeBlock_shape size hs hf ha roomy, ?_, ?_⟩
  · rw [allocated_append, allocated_append, allocated_serve]
    simp
  have := hf.2
  simp only [servedSize]
  split <;> omega

lemma blockNeed_wraps (hb : size < 2 ^ 64) (wraps : 2 ^ 64 ≤ size + 31) : blockNeed size ≤ 16 := by
  have small : u64 (u64 (headerSize + size) + (heapAlign - 1)) ≤ 30 := by
    simp only [u64, headerSize, heapAlign]
    omega
  have needEq : blockNeed size =
    u64 (u64 (headerSize + size) + (heapAlign - 1)) / 2 ^ 4 * 2 ^ 4 := by
    rw [blockNeed, alignUp]
    exact alignDown_two_pow (u64_lt _) (by norm_num : 4 ≤ 64)
  omega

lemma kmalloc_wraps (hs : HeapShape arena h blocks) (hb : size < 2 ^ 64)
    (wraps : 2 ^ 64 ≤ size + 31) (mem : b ∈ blocks) (free : b.isFree = true) :
    ∃ ptr taken, kmalloc arena size h = .ok (some ptr) taken := by
  have needLe := blockNeed_wraps hb wraps
  have pos : 0 < size := by omega
  rcases kmalloc_spec hs pos with
    ⟨noneFits, _⟩ | ⟨pre, chosen, post, _, _, res⟩
  · have roomy := hs.holdHeaders b mem
    have needFits : blockNeed size ≤ b.size := by
      simp only [headerSize] at roomy
      omega
    exact absurd ⟨free, needFits⟩ (noneFits b mem)
  · exact ⟨_, _, res⟩

def Servable (blocks : List Block) (size : Nat) : Prop :=
  size + 31 < 2 ^ 64 ∨ ∀ b ∈ blocks, b.isFree = false

lemma kmalloc_full (hs : HeapShape arena h blocks) (pos : 0 < size)
    (full : ∀ b ∈ blocks, b.isFree = false) :
    kmalloc arena size h = .error (.panicHex "heap: out of memory, requested" size) h := by
  rcases kmalloc_spec hs pos with
    ⟨_, res⟩ | ⟨pre, b, post, rfl, hf, _⟩
  · exact res
  have taken := full b (by simp)
  simp [Fits, taken] at hf

lemma servesRequest_panic (hs : HeapShape arena h blocks) (size req : Nat) :
    ServesRequest arena size (.error (.panicHex "heap: out of memory, requested" req) h) :=
  ⟨by simp, ⟨blocks, hs⟩, hs.reachesEnd⟩

lemma exists_free_of_not_servable (no : ¬ Servable blocks size) :
    2 ^ 64 ≤ size + 31 ∧ ∃ b ∈ blocks, b.isFree = true := by
  simp only [Servable, not_or, not_lt, not_forall, Bool.not_eq_false] at no
  obtain ⟨wraps, b, mem, free⟩ := no
  exact ⟨wraps, b, mem, free⟩

lemma kmalloc_servesRequest (hs : HeapShape arena h blocks)
    (servable : Servable blocks size) : ServesRequest arena size (kmalloc arena size h) := by
  rcases Nat.eq_zero_or_pos size with rfl | positive
  · exact ⟨⟨blocks, hs⟩, hs.reachesEnd⟩
  rcases servable with hb | full
  · rcases kmalloc_serves hs positive hb with
      panic | ⟨a, b, ht, blocks', res, takenShape, mem, le⟩
    · rw [panic]
      exact servesRequest_panic hs size size
    rw [res]
    exact ⟨takenShape.payloadInside mem le, takenShape.reachesEnd⟩
  rw [kmalloc_full hs positive full]
  exact servesRequest_panic hs size size

lemma not_servesRequest_kmalloc (hs : HeapShape arena h blocks) (hb : size < 2 ^ 64)
    (no : ¬ Servable blocks size) : ¬ ServesRequest arena size (kmalloc arena size h) := by
  obtain ⟨wraps, b, mem, free⟩ := exists_free_of_not_servable no
  obtain ⟨ptr, ht, res⟩ := kmalloc_wraps hs hb wraps mem free
  rw [res]
  exact fun served => not_payloadInside_of_wraps wraps served.1

def KcallocAccepts (cnt size : Nat) : Prop := ¬ (cnt ≠ 0 ∧ u64 (cnt * size) / cnt ≠ size)

lemma kcalloc_accepted (ha : KcallocAccepts cnt size) (h : Heap) : kcalloc arena cnt size h =
    match kmalloc arena (u64 (cnt * size)) h with
    | .ok (some ptr) h =>
      .ok (some ptr)
        { h with memory := h.memory.fill ptr (u64 (cnt * size)) 0 }
    | outcome => outcome := by
  rw [kcalloc]
  exact if_neg ha

lemma kcalloc_servesRequest (hs : HeapShape arena h blocks)
    (ok : KcallocAccepts cnt size) (servable : Servable blocks (u64 (cnt * size))) :
    ServesRequest arena (u64 (cnt * size)) (kcalloc arena cnt size h) := by
  rw [kcalloc_accepted ok]
  rcases Nat.eq_zero_or_pos (u64 (cnt * size)) with zero | positive
  · rw [zero]
    exact ⟨⟨blocks, hs⟩, hs.reachesEnd⟩
  rcases servable with hb | full
  · rcases kmalloc_serves hs positive hb with
      panic | ⟨a, b, ht, blocks', res, takenShape, mem, le⟩
    · rw [panic]
      exact servesRequest_panic hs _ _
    rw [res]
    have untouched : ∀ other, other < a + headerSize ∨ a + b.size ≤ other →
      ht.memory.fill (a + headerSize) (u64 (cnt * size)) 0 other = ht.memory other :=
      fun other out => ByteMemory.fill_outside (by omega)
    have filled := takenShape.store mem untouched
    exact ⟨filled.payloadInside mem le, filled.reachesEnd⟩
  rw [kmalloc_full hs positive full]
  exact servesRequest_panic hs _ _

lemma not_servesRequest_kcalloc (hs : HeapShape arena h blocks)
    (ok : KcallocAccepts cnt size) (no : ¬ Servable blocks (u64 (cnt * size))) :
    ¬ ServesRequest arena (u64 (cnt * size)) (kcalloc arena cnt size h) := by
  obtain ⟨wraps, b, mem, free⟩ := exists_free_of_not_servable no
  obtain ⟨ptr, ht, res⟩ := kmalloc_wraps hs (u64_lt _) wraps mem free
  rw [kcalloc_accepted ok, res]
  exact fun served => not_payloadInside_of_wraps wraps served.1

/-- A request is served or refused, exactly if the block size does not wrap around or no block is
free. -/
theorem allocation_serves_iff (hs : HeapShape arena h blocks) : (∀ size < 2 ^ 64,
      ServesRequest arena size (kmalloc arena size h) ↔ Servable blocks size) ∧
    ∀ cnt size, KcallocAccepts cnt size →
      (ServesRequest arena (u64 (cnt * size)) (kcalloc arena cnt size h) ↔
        Servable blocks (u64 (cnt * size))) := by
  refine ⟨fun size hb => ⟨fun served => ?_, kmalloc_servesRequest hs⟩,
    fun cnt size ha => ⟨fun served => ?_, kcalloc_servesRequest hs ha⟩⟩
  · by_contra no
    exact not_servesRequest_kmalloc hs hb no served
  by_contra no
  exact not_servesRequest_kcalloc hs ha no served

theorem lowArena_serves_iff :
    HeapShape lowArena (heapInit lowArena fun _ => 0) [⟨heapArenaSize, none⟩] ∧ (∀ size < 2 ^ 64,
        ServesRequest lowArena size (kmalloc lowArena size (heapInit lowArena fun _ => 0)) ↔
          Servable [⟨heapArenaSize, none⟩] size) ∧
      ∀ cnt size, KcallocAccepts cnt size → (ServesRequest lowArena (u64 (cnt * size))
            (kcalloc lowArena cnt size (heapInit lowArena fun _ => 0)) ↔
          Servable [⟨heapArenaSize, none⟩] (u64 (cnt * size))) :=
  ⟨heapInit_shape _, allocation_serves_iff (heapInit_shape _)⟩

/-- On a fresh heap `kmalloc(2^64 - 16)` returns a pointer without a payload of
that size. -/
theorem lowArena_not_serves_wrapped :
    HeapShape lowArena (heapInit lowArena fun _ => 0) [⟨heapArenaSize, none⟩] ∧
      ¬ ServesRequest lowArena (2 ^ 64 - 16)
        (kmalloc lowArena (2 ^ 64 - 16) (heapInit lowArena fun _ => 0)) := by
  refine ⟨heapInit_shape _, not_servesRequest_kmalloc (heapInit_shape _) (by norm_num) ?_⟩
  simp [Servable, Block.isFree]

end HnxKernel
