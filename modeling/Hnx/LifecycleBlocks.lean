import Hnx.KernelHeapRuns
import Hnx.ProcessLifecycle

/-!
# Heap blocks of descriptor tables

The allocated blocks of the heap as a multiset of payload pointers and block sizes.
-/

namespace HnxKernel

section

open BlockTiling List

def HeapLedger (arena : Arena) (heap : Heap) (entries : Multiset (Nat × Nat)) : Prop :=
  ∃ blocks, HeapShape arena heap blocks ∧
    entries = ((allocated arena.base blocks).map fun entry => (entry.1 + headerSize, entry.2.size))

variable {arena : Arena} {h : Heap} {entries : Multiset (Nat × Nat)}

lemma block_of_first {bs : List Block} {ptr sz : Nat} (hl : {(ptr, sz)} + entries =
      ((allocated arena.base bs).map fun e => (e.1 + headerSize, e.2.size))) :
    ∃ a b, (a, b) ∈ allocated arena.base bs ∧ ptr = a + headerSize ∧ sz = b.size := by
  have mem : (ptr, sz) ∈ (allocated arena.base bs).map
    fun e => (e.1 + headerSize, e.2.size) := by
    rw [← Multiset.mem_coe, ← hl]
    simp
  obtain ⟨⟨a, b⟩, hi, eq⟩ := mem_map.mp mem
  cases eq
  exact ⟨a, b, hi, rfl, rfl⟩

namespace HeapLedger

lemma bytesInUse (led : HeapLedger arena h entries) :
    h.bytesInUse = (entries.map Prod.snd).sum := by
  obtain ⟨bs, hs, rfl⟩ := led
  rw [hs.inUse, used_eq_sum_allocated arena.base bs, Multiset.map_coe, Multiset.sum_coe, map_map]
  rfl

variable {ptr sz : Nat} {post : Heap}

lemma blockSize_eq (led : HeapLedger arena h entries)
    (mem : (ptr, sz) ∈ entries) : blockSize h.memory (ptr - headerSize) = sz := by
  obtain ⟨bs, hs, rfl⟩ := led
  obtain ⟨⟨a, b⟩, hi, eq⟩ := mem_map.mp (Multiset.mem_coe.mp mem)
  cases eq
  rw [Nat.add_sub_cancel]
  exact hs.tiles.blockSize_of_mem_allocated hi

lemma pointer_pos (led : HeapLedger arena h entries) (mem : (ptr, sz) ∈ entries) : ptr ≠ 0 := by
  obtain ⟨bs, _, rfl⟩ := led
  obtain ⟨⟨a, b⟩, _, eq⟩ := mem_map.mp (Multiset.mem_coe.mp mem)
  cases eq
  simp [headerSize]

lemma first_ne_zero (led : HeapLedger arena h ({(ptr, sz)} + entries)) : ptr ≠ 0 :=
  led.pointer_pos (Multiset.mem_add.mpr (.inl (Multiset.mem_singleton_self _)))

section
variable (led : HeapLedger arena h entries)
include led

lemma kmalloc (pos : 0 < sz) (hb : sz + 31 < 2 ^ 64)
    (ret : HnxKernel.kmalloc arena sz h = .ok (some ptr) post) :
    ∃ b, headerSize + sz ≤ b ∧ HeapLedger arena post ({(ptr, b)} + entries) := by
  obtain ⟨bs, hs, rfl⟩ := led
  obtain ⟨ha, roomy, le⟩ := blockNeed_spec pos hb
  rcases kmalloc_spec hs pos with ⟨_, res⟩ | ⟨pre, b, hl, rfl, hf, res⟩
  · rw [res] at ret
    simp at ret
  rw [res] at ret
  cases ret
  refine ⟨servedSize (headerSize + heapAlign) (blockNeed sz) b.size, ?_, _,
    takeBlock_shape sz hs hf ha roomy, ?_⟩
  · have fitsBlock := hf.2
    rw [servedSize]
    split <;> omega
  rw [allocated_append, allocated_append, allocated_append, allocated_serve, total_serve hf.2]
  simp only [allocated, hf.1, if_true, map_append, map_cons, map_nil, ← Multiset.coe_add]
  exact add_left_comm _ _ _

lemma store {ram : ByteMemory} (mem : (ptr, sz) ∈ entries)
    (hi : ∀ a, a < ptr ∨ ptr + (sz - headerSize) ≤ a →
      ram a = h.memory a) : HeapLedger arena { h with memory := ram } entries := by
  obtain ⟨bs, hs, rfl⟩ := led
  obtain ⟨⟨a, b⟩, hl, eq⟩ := mem_map.mp (Multiset.mem_coe.mp mem)
  cases eq
  refine ⟨bs, hs.store hl fun o out => hi o ?_, rfl⟩
  dsimp only
  omega

lemma kcalloc (pos : 0 < sz) (hb : sz + 31 < 2 ^ 64)
    (ret : HnxKernel.kcalloc arena 1 sz h = .ok (some ptr) post) :
    ∃ b, headerSize + sz ≤ b ∧ HeapLedger arena post ({(ptr, b)} + entries) := by
  have totalEq : u64 (1 * sz) = sz := by rw [one_mul, u64_of_lt (by omega)]
  rw [HnxKernel.kcalloc, totalEq, if_neg (by simp)] at ret
  cases called : HnxKernel.kmalloc arena sz h with
  | error => simp [called] at ret
  | ok val =>
    cases val with
    | none => simp [called] at ret
    | some given =>
      rw [called] at ret
      obtain ⟨pointerEq, rfl⟩ := EStateM.Result.ok.inj ret
      obtain rfl := Option.some.inj pointerEq
      obtain ⟨b, le, kept⟩ := led.kmalloc pos hb called
      have mem : (given, b) ∈ {(given, b)} + entries := by simp
      refine ⟨b, le, kept.store mem ?_⟩
      intro a out
      exact ByteMemory.fill_outside (by omega)

lemma kcalloc_ne_none (pos : 0 < sz) (hb : sz + 31 < 2 ^ 64) :
    HnxKernel.kcalloc arena 1 sz h ≠ .ok none post := by
  obtain ⟨bs, hs, _⟩ := led
  have totalEq : u64 (1 * sz) = sz := by rw [one_mul, u64_of_lt (by omega)]
  rw [HnxKernel.kcalloc, totalEq, if_neg (by simp)]
  rcases kmalloc_spec hs pos with ⟨_, res⟩ | ⟨_, _, _, _, _, res⟩ <;> simp [res]

end

lemma kfree (led : HeapLedger arena h ({(ptr, sz)} + entries)) :
    ∃ post, HnxKernel.kfree arena ptr h = .ok () post ∧ HeapLedger arena post entries := by
  obtain ⟨bs, hs, mem⟩ := led
  obtain ⟨a, b, hi, rfl, rfl⟩ := block_of_first mem
  obtain ⟨pre, hl, rfl, rfl, ht⟩ := exists_split_of_mem_allocated hi
  obtain ⟨hf, res, freedShape⟩ := kfree_shape hs ht
  refine ⟨hf, res, _, freedShape, ?_⟩
  rw [allocated_mergeFree]
  simp only [allocated_append, allocated, ht, Block.isFree_none, if_true, Bool.false_eq_true,
    if_false, map_append, map_cons, ← Multiset.coe_add, ← Multiset.cons_coe] at mem ⊢
  rw [← Multiset.singleton_add] at mem
  exact add_left_cancel (mem.trans (add_left_comm _ _ _))

end HeapLedger

def HeapRoom (arena : Arena) (heap : Heap) (spare : Nat) : Prop :=
  ∃ blocks, HeapShape arena heap blocks ∧ Roomy spare blocks

lemma Tiles.roomy {ram : ByteMemory} {start limit spare : Nat} {bs others : List Block}
    (tiles : Tiles ram start bs limit) (again : Tiles ram start others limit)
    (pos : ∀ b ∈ bs, 0 < b.size) (othersPositive : ∀ b ∈ others, 0 < b.size)
    (roomy : Roomy spare bs) : Roomy spare others := by
  induction bs generalizing start others with
  | nil =>
    obtain ⟨_, mem, _⟩ := roomy
    cases mem
  | cons b _ ih =>
    have blockPos := pos b (by simp)
    cases others with
    | nil =>
      have first := tiles.limit_eq
      have snd : start = limit := again
      rw [total_cons] at first
      omega
    | cons o =>
      have sameSize : b.size = o.size := tiles.1.size.symm.trans again.1.size
      have sameFree : b.isFree = o.isFree := by
        have flags := tiles.1.free.symm.trans again.1.free
        revert flags
        cases b.isFree <;> cases o.isFree <;> simp
      obtain ⟨large, mem, free, le⟩ := roomy
      rcases mem_cons.mp mem with rfl | later
      · exact ⟨o, mem_cons_self, sameFree ▸ free, sameSize ▸ le⟩
      obtain ⟨hf, hi, isFree, fits⟩ := ih tiles.2 (sameSize ▸ again.2)
        (fun b hl => pos b (mem_cons_of_mem _ hl))
        (fun b hl => othersPositive b (mem_cons_of_mem _ hl))
        ⟨large, later, free, le⟩
      exact ⟨hf, mem_cons_of_mem _ hi, isFree, fits⟩

lemma HeapShape.positive {bs : List Block} (hs : HeapShape arena h bs) : ∀ b ∈ bs, 0 < b.size := by
  intro b mem
  have := (hs.sizes b mem).2
  simp only [headerSize, heapAlign] at this
  omega

namespace HeapRoom

variable {spare sz ptr : Nat} {post : Heap}

lemma roomy {blocks : List Block} (room : HeapRoom arena h spare)
    (hs : HeapShape arena h blocks) : Roomy spare blocks := by
  obtain ⟨others, otherShape, roomy⟩ := room
  exact otherShape.tiles.roomy hs.tiles otherShape.positive hs.positive roomy

lemma mono {fewer : Nat} (room : HeapRoom arena h spare) (le : fewer ≤ spare) :
    HeapRoom arena h fewer := by
  obtain ⟨bs, hs, large, mem, free, enough⟩ := room
  exact ⟨bs, hs, large, mem, free, le.trans enough⟩

section
variable (room : HeapRoom arena h (blockNeed sz + spare)) (pos : 0 < sz) (hb : sz + 31 < 2 ^ 64)
  (le : 32 ≤ spare)
include room pos hb le

lemma kmalloc :
    ∃ ptr post, HnxKernel.kmalloc arena sz h = .ok (some ptr) post ∧ HeapRoom arena post spare := by
  obtain ⟨bs, hs, roomy⟩ := room
  obtain ⟨ha, hh, _⟩ := blockNeed_spec pos hb
  rcases kmalloc_spec hs pos with ⟨full, _⟩ | ⟨pre, b, hl, rfl, hf, res⟩
  · obtain ⟨large, mem, free, hf⟩ := roomy
    exact absurd ⟨free, by omega⟩ (full large mem)
  · exact ⟨_, _, res, _, takeBlock_shape sz hs hf ha hh, roomy.serve le⟩

lemma kcalloc :
    ∃ ptr post, HnxKernel.kcalloc arena 1 sz h = .ok (some ptr) post ∧
      HeapRoom arena post spare := by
  have totalEq : u64 (1 * sz) = sz := by rw [one_mul, u64_of_lt (by omega)]
  obtain ⟨ptr, post, called, left⟩ := room.kmalloc pos hb le
  refine ⟨ptr, { post with memory := post.memory.fill ptr sz 0 }, ?_, ?_⟩
  · rw [HnxKernel.kcalloc, totalEq, if_neg (by simp), called]
  -- the payload that is cleared belongs to an allocated block
  obtain ⟨_, hs, _⟩ := room
  have led : HeapLedger arena h _ := ⟨_, hs, rfl⟩
  obtain ⟨b, hh, bs, afterShape, mem⟩ := led.kmalloc pos hb called
  obtain ⟨a, ht, hi, rfl, rfl⟩ := block_of_first mem
  refine ⟨bs, afterShape.store hi ?_, left.roomy afterShape⟩
  intro o out
  exact ByteMemory.fill_outside (by omega)

end

lemma kfree (room : HeapRoom arena h spare) (led : HeapLedger arena h ({(ptr, sz)} + entries))
    (ret : HnxKernel.kfree arena ptr h = .ok () post) : HeapRoom arena post spare := by
  obtain ⟨bs, hs, mem⟩ := led
  obtain ⟨a, b, hi, rfl, rfl⟩ := block_of_first mem
  obtain ⟨pre, hl, rfl, rfl, ht⟩ := exists_split_of_mem_allocated hi
  obtain ⟨hf, res, freedShape⟩ := kfree_shape hs ht
  obtain ⟨_, rfl⟩ := EStateM.Result.ok.inj (ret.symm.trans res)
  refine ⟨_, freedShape, Roomy.mergeFree ?_⟩
  obtain ⟨large, listedLarge, free, le⟩ := room.roomy hs
  rcases mem_append.mp listedLarge with earlier | r
  · exact ⟨large, mem_append_left _ earlier, free, le⟩
  rcases mem_cons.mp r with rfl | r
  · rw [ht] at free
    cases free
  · exact ⟨large, mem_append_right _ (mem_cons_of_mem _ r), free, le⟩

end HeapRoom

end

open Function

namespace Kernel

variable {cfg : KernelConfig} {k post : Kernel} {base rest : Multiset (Nat × Nat)}

variable {Value : Type} {c : Heap → Outcome Heap Value} {val : Value}

lemma onHeap_of_ok {heap : Heap} (called : c k.heap = .ok val heap) :
    onHeap c k = .ok val { k with heap := heap } := by
  rw [onHeap, called]

lemma ok_of_onHeap (ret : onHeap c k = .ok val post) :
    ∃ heap, c k.heap = .ok val heap ∧ post = { k with heap := heap } := by
  rw [onHeap] at ret
  cases called : c k.heap with
  | ok _ heap =>
    rw [called] at ret
    cases ret
    exact ⟨heap, rfl, rfl⟩
  | error => simp [called] at ret

lemma ok_of_onMachine {c : EStateM Halt Machine Value} (ret : onMachine c k = .ok val post) :
    ∃ m, c k.machine = .ok val m ∧ post = { k with machine := m } := by
  rw [onMachine] at ret
  cases called : c k.machine with
  | ok _ m =>
    rw [called] at ret
    cases ret
    exact ⟨m, rfl, rfl⟩
  | error => simp [called] at ret

lemma onMachine_of_ok {c : EStateM Halt Machine Value}
    {m : Machine} (ret : c k.machine = .ok val m) :
    onMachine c k = .ok val { k with machine := m } := by
  rw [onMachine, ret]

lemma onHeap_kcalloc {size ptr : Nat} (led : HeapLedger cfg.arena k.heap base)
    (pos : 0 < size) (bound : size + 31 < 2 ^ 64)
    (ret : onHeap (kcalloc cfg.arena 1 size) k = .ok (some ptr) post) :
    ∃ heap b, post = { k with heap := heap } ∧ headerSize + size ≤ b ∧
      HeapLedger cfg.arena heap ({(ptr, b)} + base) := by
  obtain ⟨heap, called, rfl⟩ := ok_of_onHeap ret
  obtain ⟨b, le, kept⟩ := led.kcalloc pos bound called
  exact ⟨heap, b, rfl, le, kept⟩

lemma onHeap_kfree {ptr size : Nat} (led : HeapLedger cfg.arena k.heap ({(ptr, size)} + base)) :
    ∃ heap, onHeap (kfree cfg.arena ptr) k = .ok () { k with heap := heap } ∧
      HeapLedger cfg.arena heap base := by
  obtain ⟨heap, called, kept⟩ := led.kfree
  exact ⟨heap, onHeap_of_ok called, kept⟩

def holders (entries : Fin 32 → Option Nat) (file : Nat) : Nat :=
  (Finset.univ.filter fun s => entries s = some file).card

lemma holders_update_some {entries : Fin 32 → Option Nat} {s : Fin 32} {f : Nat}
    (free : entries s = none) : holders (update entries s (some f)) f = holders entries f + 1 := by
  have setEq : (Finset.univ.filter fun o =>
    update entries s (some f) o = some f) =
      insert s (Finset.univ.filter fun o => entries o = some f) := by
    ext o
    by_cases eq : o = s
    · simp [eq]
    · simp [eq]
  rw [holders, setEq, Finset.card_insert_of_notMem (by simp [free]), holders]

lemma holders_update_none {entries : Fin 32 → Option Nat} {s : Fin 32} {f : Nat}
    (h : entries s = some f) : holders (update entries s none) f + 1 = holders entries f := by
  have freed : update entries s none s = none := update_self ..
  have back : update (update entries s none) s (some f) = entries := by
    rw [update_idem, ← h, update_eq_self]
  rw [← holders_update_some freed, back]

/-- The blocks of the files that a table refers to, with some references that are not in
an entry yet. -/
inductive Descriptors (entries : Fin 32 → Option Nat) (refcount : Nat → Int) :
    Nat → Multiset (Nat × Nat) → Prop
  | unused (empty : ∀ s, entries s = none) : Descriptors entries refcount 0 0
  | shared (file size extra : Nat) (only : ∀ s other, entries s = some other → other = file)
      (counted : refcount file = holders entries file + extra)
      (held : 0 < holders entries file + extra) :
      Descriptors entries refcount extra {(file, size)}

variable {entries : Fin 32 → Option Nat} {refcount : Nat → Int} {extra : Nat}
  {blocks : Multiset (Nat × Nat)} {fds f size : Nat} {s : Fin 32}

namespace Descriptors

lemma file_eq (fds : Descriptors entries refcount extra blocks)
    (h : entries s = some f) : ∃ size, blocks = {(f, size)} := by
  cases fds with
  | unused empty => simp [empty] at h
  | shared o size _ only =>
    rw [only s f h]
    exact ⟨size, rfl⟩

lemma eq_zero_of_empty (fds : Descriptors entries refcount 0 blocks)
    (empty : ∀ s, entries s = none) : blocks = 0 := by
  cases fds with
  | unused => rfl
  | shared _ _ _ _ _ held => simp [holders, empty] at held

lemma ref (fds : Descriptors entries refcount extra {(f, size)}) :
    Descriptors entries (update refcount f (refcount f + 1)) (extra + 1)
      {(f, size)} := by
  generalize eq : ({(f, size)} : Multiset (Nat × Nat)) = mem at fds
  cases fds with
  | unused => simp at eq
  | shared _ _ _ only cnt =>
    obtain ⟨rfl, rfl⟩ := Prod.mk.inj (Multiset.singleton_inj.mp eq)
    refine .shared f size (extra + 1) only ?_ (by omega)
    rw [update_self, cnt]
    push_cast
    ring

lemma install (fds : Descriptors entries refcount (extra + 1) {(f, size)})
    (free : entries s = none) :
    Descriptors (update entries s (some f)) refcount extra {(f, size)} := by
  generalize eq : ({(f, size)} : Multiset (Nat × Nat)) = mem at fds
  cases fds with
  | shared _ _ _ only cnt held =>
    obtain ⟨rfl, rfl⟩ := Prod.mk.inj (Multiset.singleton_inj.mp eq)
    have more := @holders_update_some entries s f free
    refine .shared f size extra ?_ ?_ (by omega)
    · intro another held h
      by_cases here : another = s
      · subst here
        rw [update_self] at h
        exact (Option.some.inj h).symm
      rw [update_of_ne here] at h
      exact only another held h
    rw [cnt, more]
    push_cast
    ring

lemma uninstall (fds : Descriptors entries refcount extra {(f, size)}) (h : entries s = some f) :
    Descriptors (update entries s none) refcount (extra + 1) {(f, size)} := by
  generalize eq : ({(f, size)} : Multiset (Nat × Nat)) = mem at fds
  cases fds with
  | unused empty => simp [empty] at h
  | shared _ _ _ only cnt held =>
    obtain ⟨rfl, rfl⟩ := Prod.mk.inj (Multiset.singleton_inj.mp eq)
    have fewer := holders_update_none h
    refine .shared f size (extra + 1) ?_ ?_ (by omega)
    · intro another held h
      by_cases here : another = s
      · subst here
        simp at h
      rw [update_of_ne here] at h
      exact only another held h
    rw [cnt, ← fewer]
    push_cast
    ring

end Descriptors

lemma fileUnref_descriptors (led : HeapLedger cfg.arena k.heap ({(f, size)} + rest))
    (fds : Descriptors entries k.refcount (extra + 1) {(f, size)}) :
    ∃ heap refcount blocks, fileUnref cfg f k = .ok ()
      { k with heap := heap, refcount := refcount } ∧
      HeapLedger cfg.arena heap (blocks + rest) ∧
      (0 < extra → blocks = {(f, size)}) ∧ Descriptors entries refcount extra blocks := by
  generalize eq : ({(f, size)} : Multiset (Nat × Nat)) = mem at fds
  cases fds with
  | shared other _ _ only cnt =>
    obtain ⟨rfl, rfl⟩ := Prod.mk.inj (Multiset.singleton_inj.mp eq)
    have countEq : k.refcount f - 1 = holders entries f + extra := by
      rw [cnt]
      push_cast
      ring
    have hw : update k.refcount f (k.refcount f - 1) f = holders entries f + extra := by
      rw [update_self, countEq]
    rw [fileUnref, modify_bind, get_bind]
    dsimp only
    by_cases last : holders entries f + extra = 0
    · rw [if_pos (by rw [hw]; omega)]
      obtain ⟨heap, freed, kept⟩ := @onHeap_kfree cfg
        { k with
          refcount := update k.refcount f (k.refcount f - 1) } _ _ _ led
      refine ⟨heap, _, 0, freed, by rwa [zero_add], by omega, ?_⟩
      obtain rfl : extra = 0 := by omega
      refine .unused fun s => ?_
      by_contra h
      obtain ⟨other, isOther⟩ := Option.ne_none_iff_exists'.mp h
      obtain rfl := only s other isOther
      have : 0 < holders entries other := Finset.card_pos.mpr ⟨s, by simp [isOther]⟩
      omega
    rw [if_neg (by rw [hw]; omega)]
    refine ⟨k.heap, _, {(f, size)}, rfl, led, fun _ => rfl, .shared f size extra only hw (by omega)⟩

lemma dropEntry_descriptors (fds : Nat) (s : Fin 32)
    (led : HeapLedger cfg.arena k.heap (blocks + rest))
    (descriptors : Descriptors (k.entries fds) k.refcount extra blocks) :
    ∃ heap refcount left, dropEntry cfg fds s k = .ok () { k with
          heap := heap
          refcount := refcount
          entries := update k.entries fds (update (k.entries fds) s none) } ∧
      HeapLedger cfg.arena heap (left + rest) ∧ (0 < extra → left = blocks) ∧
      Descriptors (update (k.entries fds) s none) refcount extra left := by
  rw [dropEntry, get_bind]
  cases e : k.entries fds s with
  | none =>
    have eq : update (k.entries fds) s none = k.entries fds := by rw [← e, update_eq_self]
    refine ⟨k.heap, k.refcount, blocks, ?_, led, fun _ => rfl, by rwa [eq]⟩
    rw [eq, update_eq_self]
    rfl
  | some =>
    obtain ⟨size, rfl⟩ := descriptors.file_eq e
    obtain ⟨heap, refcount, left, unref, kept, waiting, fewer⟩ :=
      fileUnref_descriptors led (descriptors.uninstall e)
    refine ⟨heap, refcount, left, ?_, kept, waiting, fewer⟩
    dsimp only
    rw [bind_of_ok unref]
    rfl

lemma fdInstallAt_descriptors (fds : Nat) (s : Fin 32)
    (led : HeapLedger cfg.arena k.heap ({(f, size)} + rest))
    (descriptors : Descriptors (k.entries fds) k.refcount (extra + 1) {(f, size)}) :
    ∃ heap refcount entries, fdInstallAt cfg fds s f k = .ok () { k with
          heap := heap
          refcount := refcount
          entries := update k.entries fds entries } ∧
      HeapLedger cfg.arena heap ({(f, size)} + rest) ∧
      Descriptors entries refcount extra {(f, size)} := by
  obtain ⟨heap, refcount, left, drop, kept, waiting, fewer⟩ :=
    dropEntry_descriptors fds s led descriptors
  -- The reference that waits for its entry keeps the file.
  obtain rfl := waiting (by omega)
  refine ⟨heap, refcount, update (k.entries fds) s (some f), ?_, kept, ?_⟩
  · rw [fdInstallAt, bind_of_ok drop]
    change EStateM.Result.ok _ _ = _
    simp
  have installed := fewer.install (update_self ..)
  rwa [update_idem] at installed

def Touches (pre post : Kernel) : Prop :=
  ∃ heap mach entries refcount, post =
    { pre with heap := heap, machine := mach, entries := entries, refcount := refcount }

lemma Touches.refl (k : Kernel) : Touches k k := ⟨_, _, _, _, rfl⟩

lemma Touches.onlyHeap (k : Kernel) (heap : Heap) : Touches k { k with heap := heap } :=
  ⟨heap, k.machine, k.entries, k.refcount, rfl⟩

lemma Touches.onlyMachine (k : Kernel) (m : Machine) : Touches k { k with machine := m } :=
  ⟨k.heap, m, k.entries, k.refcount, rfl⟩

lemma Touches.trans {mid : Kernel} (fst : Touches k mid)
    (snd : Touches mid post) : Touches k post := by
  obtain ⟨_, _, _, _, rfl⟩ := fst
  obtain ⟨h, m, entries, refcount, rfl⟩ := snd
  exact ⟨h, m, entries, refcount, rfl⟩

def Owns (cfg : KernelConfig) (kern : Kernel) (fds : Nat) (rest : Multiset (Nat × Nat)) :
    Prop :=
  ∃ blocks, HeapLedger cfg.arena kern.heap (blocks + rest) ∧
    Descriptors (kern.entries fds) kern.refcount 0 blocks

lemma dropEntry_owns (owns : Owns cfg k fds rest) (s : Fin 32) :
    ∃ post, dropEntry cfg fds s k = .ok () post ∧ Touches k post ∧ Owns cfg post fds rest ∧
      post.entries fds = update (k.entries fds) s none := by
  obtain ⟨blocks, led, descriptors⟩ := owns
  obtain ⟨h, refcount, left, drop, kept, _, fewer⟩ := dropEntry_descriptors fds s led descriptors
  refine ⟨_, drop, ⟨h, k.machine, _, refcount, rfl⟩, ⟨left, kept, ?_⟩, ?_⟩
  · dsimp only
    rwa [update_self]
  · exact update_self ..

lemma dropEntries_owns (owns : Owns cfg k fds rest) (slots : List (Fin 32)) :
    ∃ post, Outcome.forEach (dropEntry cfg fds) slots k = .ok () post ∧
      Touches k post ∧ Owns cfg post fds rest ∧
      ∀ s, s ∈ slots ∨ k.entries fds s = none → post.entries fds s = none := by
  induction slots generalizing k with
  | nil => exact ⟨k, rfl, Touches.refl k, owns, by simp⟩
  | cons s _ ih =>
    obtain ⟨mid, drop, touches, owned, entriesEq⟩ := dropEntry_owns owns s
    obtain ⟨post, looped, restTouches, restOwned, emptied⟩ := ih owned
    refine ⟨post, ?_, touches.trans restTouches, restOwned, ?_⟩
    · rw [Outcome.forEach_cons_of_ok drop, looped]
    intro o reason
    apply emptied
    rw [entriesEq]
    by_cases here : o = s
    · right
      rw [here, update_self]
    rw [update_of_ne here]
    rcases reason with mem | free
    · left
      exact (List.mem_cons.mp mem).resolve_left here
    · exact .inr free

lemma fdTableDestroy_owns {fdsBlock : Nat} (owns : Owns cfg k fds ({(fds, fdsBlock)} + rest)) :
    ∃ post, fdTableDestroy cfg fds k = .ok () post ∧ Touches k post ∧
      HeapLedger cfg.arena post.heap rest := by
  obtain ⟨mid, drop, touches, ⟨blocks, led, descriptors⟩, emptied⟩ :=
    dropEntries_owns owns (List.finRange 32)
  obtain rfl : blocks = 0 :=
    descriptors.eq_zero_of_empty fun s => emptied s (.inl (List.mem_finRange s))
  rw [zero_add] at led
  have nonNull := led.first_ne_zero
  obtain ⟨heap, freed, kept⟩ := onHeap_kfree led
  refine ⟨_, ?_, touches.trans (Touches.onlyHeap mid heap), kept⟩
  rw [fdTableDestroy, if_neg nonNull, bind_of_ok drop, freed]

lemma fdInstallAt_owns (s : Fin 32) (led : HeapLedger cfg.arena k.heap ({(f, size)} + rest))
    (descriptors : Descriptors (k.entries fds) k.refcount 1 {(f, size)}) :
    ∃ post, fdInstallAt cfg fds s f k = .ok () post ∧ Touches k post ∧
      HeapLedger cfg.arena post.heap ({(f, size)} + rest) ∧
      Descriptors (post.entries fds) post.refcount 0 {(f, size)} := by
  obtain ⟨h, refcount, entries, installed, kept, moved⟩ :=
    fdInstallAt_descriptors fds s led descriptors
  refine ⟨_, installed, ⟨h, k.machine, _, refcount, rfl⟩, kept, ?_⟩
  dsimp only
  rwa [update_self]

lemma fileRef_fdInstallAt (s : Fin 32) (led : HeapLedger cfg.arena k.heap ({(f, size)} + rest))
    (descriptors : Descriptors (k.entries fds) k.refcount 0 {(f, size)}) :
    ∃ mid post, fileRef f k = .ok () mid ∧
      fdInstallAt cfg fds s f mid = .ok () post ∧ Touches k post ∧
      HeapLedger cfg.arena post.heap ({(f, size)} + rest) ∧
      Descriptors (post.entries fds) post.refcount 0 {(f, size)} := by
  obtain ⟨post, installed, touches, kept, moved⟩ := @fdInstallAt_owns cfg
    { k with refcount := update k.refcount f (k.refcount f + 1) }
    rest fds f size s led descriptors.ref
  exact ⟨_, post, rfl, installed, Touches.trans ⟨_, _, _, _, rfl⟩ touches, kept, moved⟩

lemma wireStdio_owns {console : Bool} (led : HeapLedger cfg.arena k.heap rest)
    (empty : ∀ s, k.entries fds s = none)
    (ret : wireStdio cfg fds console k = .ok () post) : Touches k post ∧
      Owns cfg post fds rest := by
  cases console with
  | false =>
    cases ret
    exact ⟨Touches.refl k, 0, by rwa [zero_add], .unused empty⟩
  | true =>
    rw [wireStdio, if_pos rfl] at ret
    obtain ⟨val, alloc, called, wired⟩ := ok_of_bind ret
    rw [fileAlloc] at called
    obtain ⟨given, mid, req, cnt⟩ := ok_of_bind called
    cases given with
    | none =>
      obtain ⟨heap, failed, _⟩ := ok_of_onHeap req
      exact absurd failed (led.kcalloc_ne_none (by norm_num) (by norm_num))
    | some f =>
      obtain ⟨heap, size, rfl, _, kept⟩ := onHeap_kcalloc led (by norm_num) (by norm_num) req
      cases cnt
      have waiting : Descriptors (k.entries fds) (update k.refcount f 1) 1
        {(f, size)} := by
        refine .shared f size 1 (by simp [empty]) ?_ (by omega)
        simp [holders, empty]
      obtain ⟨fst, installed, touches1, kept1, moved1⟩ := @fdInstallAt_owns cfg
        { k with
          heap := heap, refcount := update k.refcount f 1 }
        rest fds f size 0 kept waiting
      obtain ⟨_, snd, referred, installed2, touches2, kept2, moved2⟩ :=
        fileRef_fdInstallAt 1 kept1 moved1
      obtain ⟨_, third, refAgain, installed3, touches3, kept3, moved3⟩ :=
        fileRef_fdInstallAt 2 kept2 moved2
      dsimp only at wired
      rw [bind_of_ok installed, bind_of_ok referred, bind_of_ok installed2,
        bind_of_ok refAgain, installed3] at wired
      cases wired
      have opened : Touches k
        { k with heap := heap, refcount := update k.refcount f 1 } :=
        ⟨_, _, _, _, rfl⟩
      exact ⟨((opened.trans touches1).trans touches2).trans touches3, {(f, size)}, kept3, moved3⟩

section
variable (owns : Owns cfg k fds rest)
include owns

lemma fdClose_owns (fd : Int) :
    ∃ post, fdClose cfg fds fd k = .ok () post ∧ Touches k post ∧ Owns cfg post fds rest := by
  rw [fdClose]
  cases descriptor fd with
  | none => exact ⟨k, rfl, Touches.refl k, owns⟩
  | some s =>
    obtain ⟨post, drop, touches, owned, _⟩ := dropEntry_owns owns s
    exact ⟨post, drop, touches, owned⟩

lemma sysDup_owns (fd : Int) :
    ∃ post, sysDup cfg fds fd k = .ok () post ∧ Touches k post ∧ Owns cfg post fds rest := by
  rw [sysDup, get_bind]
  cases hf : (descriptor fd).bind (k.entries fds) with
  | none => exact ⟨k, rfl, Touches.refl k, owns⟩
  | some f =>
    obtain ⟨s, _, holds⟩ := Option.bind_eq_some_iff.mp hf
    obtain ⟨blocks, led, descriptors⟩ := owns
    obtain ⟨size, rfl⟩ := descriptors.file_eq holds
    have referred : fileRef f k = .ok ()
      { k with refcount := update k.refcount f (k.refcount f + 1) } :=
      rfl
    dsimp only
    rw [bind_of_ok referred]
    cases search : (List.finRange 32).find? fun s => (k.entries fds s).isNone with
    | none =>
      obtain ⟨h, refcount, left, unref, kept, _, fewer⟩ := @fileUnref_descriptors cfg
        { k with
          refcount := update k.refcount f (k.refcount f + 1) }
        rest _ 0 f size led descriptors.ref
      exact ⟨_, unref, ⟨h, _, _, refcount, rfl⟩, left, kept, fewer⟩
    | some free =>
      have isFree : k.entries fds free = none := by simpa using List.find?_some search
      refine ⟨_, rfl, ⟨_, _, _, _, rfl⟩, {(f, size)}, led, ?_⟩
      dsimp only
      rw [update_self]
      exact descriptors.ref.install isFree

lemma sysDup2_owns (oldfd newfd : Int) :
    ∃ post, sysDup2 cfg fds oldfd newfd k = .ok () post ∧ Touches k post ∧
      Owns cfg post fds rest := by
  have idle : ∃ post, (return () : EStateM Halt Kernel Unit) k = .ok () post ∧
    Touches k post ∧ Owns cfg post fds rest :=
    ⟨k, rfl, Touches.refl k, owns⟩
  rw [sysDup2, get_bind]
  cases hf : (descriptor oldfd).bind (k.entries fds) with
  | none => exact idle
  | some f =>
    split
    · exact idle
    cases descriptor newfd with
    | none => exact idle
    | some target =>
      obtain ⟨s, _, h⟩ := Option.bind_eq_some_iff.mp hf
      obtain ⟨blocks, led, descriptors⟩ := owns
      obtain ⟨size, rfl⟩ := descriptors.file_eq h
      obtain ⟨_, post, referred, installed, touches, kept, moved⟩ :=
        fileRef_fdInstallAt target led descriptors
      refine ⟨post, ?_, touches, {(f, size)}, kept, moved⟩
      dsimp only
      rw [bind_of_ok referred, installed]

end

end Kernel

end HnxKernel
