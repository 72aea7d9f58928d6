import Hnx.BlockTiling
import Hnx.KernelHeap

/-!
# The kernel heap as a tiling

The headers found by walking the arena describe a list of blocks.
-/

namespace HnxKernel

section

open BlockTiling ByteMemory List

structure HeaderAt (ram : ByteMemory) (address : Nat) (block : Block) : Prop where
  size : blockSize ram address = block.size
  free : blockFree ram address = if block.isFree then 1 else 0
  magic : block.isFree = false → blockMagic ram address = heapMagic

def Tiles (ram : ByteMemory) : Nat → List Block → Nat → Prop
  | start, [], limit => start = limit
  | start, b :: blocks, limit => HeaderAt ram start b ∧ Tiles ram (start + b.size) blocks limit

variable {ram o : ByteMemory} {start limit : Nat} {blocks : List Block}

lemma Tiles.limit_eq (tiles : Tiles ram start blocks limit) : start + total blocks = limit := by
  induction blocks generalizing start with
  | nil => simpa [Tiles] using tiles
  | cons _ _ ih =>
    rw [total_cons, ← Nat.add_assoc]
    exact ih tiles.2

lemma tiles_append {fst snd : List Block} :
    Tiles ram start (fst ++ snd) limit ↔ Tiles ram start fst (start + total fst) ∧
        Tiles ram (start + total fst) snd limit := by
  induction fst generalizing start with
  | nil => simp [Tiles]
  | cons _ _ ih => simp [Tiles, ih, Nat.add_assoc, and_assoc]

variable {a need k size req address : Nat} {b : Block} {h : Heap}
  {pre post : List Block}

lemma Tiles.blockSize_of_mem_allocated (tiles : Tiles ram start blocks limit)
    (mem : (a, b) ∈ allocated start blocks) : blockSize ram a = b.size := by
  obtain ⟨pre, post, rfl, rfl, _⟩ := exists_split_of_mem_allocated mem
  exact (tiles_append.mp tiles).2.1.size

lemma HeaderAt.congr (header : HeaderAt ram a b)
    (agree : ∀ i < headerSize, o (a + i) = ram (a + i)) : HeaderAt o a b := by
  have field (off : Nat) (mem : off + 4 ≤ headerSize) :
    o.readLE (a + off) 4 = ram.readLE (a + off) 4 := by
    apply readLE_congr
    intro i idxLt
    simpa [Nat.add_assoc] using agree (off + i) (by omega)
  refine ⟨?_, ?_, fun ht => ?_⟩
  · exact (field 0 (by decide)).trans header.size
  · exact (field 4 (by decide)).trans header.free
  · exact (field 8 (by decide)).trans (header.magic ht)

lemma Tiles.congr (tiles : Tiles ram start blocks limit)
    (agree : ∀ a ∈ positions start blocks, ∀ i < headerSize,
      o (a + i) = ram (a + i)) : Tiles o start blocks limit := by
  induction blocks generalizing start with
  | nil => exact tiles
  | cons _ _ ih =>
    refine ⟨tiles.1.congr (agree start (by simp [positions])), ih tiles.2 ?_⟩
    intro a mem
    exact agree a (by simp [positions, mem])

def HoldHeaders (blocks : List Block) : Prop := ∀ b ∈ blocks, headerSize + heapAlign ≤ b.size

lemma mem_positions_bounds (hold : HoldHeaders blocks) (mem : a ∈ positions start blocks) :
    start ≤ a ∧ a + headerSize ≤ start + total blocks := by
  induction blocks generalizing start with
  | nil => simp [positions] at mem
  | cons b blocks ih =>
    have sizeBound := hold b (by simp)
    have tailHold : HoldHeaders blocks := fun o mem => hold o (by simp [mem])
    rw [total_cons]
    rcases mem_cons.mp mem with rfl | later
    · simp only [headerSize, heapAlign] at sizeBound ⊢
      omega
    have := ih tailHold later
    omega

lemma Tiles.congr_inside (tiles : Tiles ram start blocks limit) (hold : HoldHeaders blocks)
    (agree : ∀ a, start ≤ a → a < limit → o a = ram a) : Tiles o start blocks limit := by
  refine tiles.congr fun a mem i idxLt => ?_
  have bounds := mem_positions_bounds hold mem
  have := tiles.limit_eq
  exact agree _ (by omega) (by omega)

variable {arena : Arena}

lemma nextBlock_last (tiles : Tiles ram start [b] arena.limit) :
    nextBlock arena ram start = none := by
  have limitEq := tiles.limit_eq
  simp only [total_cons, total_nil] at limitEq
  simp [nextBlock, tiles.1.size, ← limitEq]

lemma nextBlock_next {next : Block} (tiles : Tiles ram start (b :: next :: blocks) arena.limit)
    (hold : HoldHeaders (b :: next :: blocks)) :
    nextBlock arena ram start = some (start + b.size) := by
  have limitEq := tiles.limit_eq
  have nextSize := hold next (by simp)
  simp only [total_cons, headerSize, heapAlign] at limitEq nextSize
  have mem : ¬ arena.limit ≤ start + b.size := by omega
  simp [nextBlock, tiles.1.size, mem]

def Fits (need : Nat) (block : Block) : Prop := block.isFree = true ∧ need ≤ block.size

lemma fits_iff (header : HeaderAt ram start b) :
    (blockFree ram start ≠ 0 ∧ need ≤ blockSize ram start) ↔ Fits need b := by
  rw [header.free, header.size, Fits]
  cases b.isFree <;> simp

lemma kmallocFrom_spec (size need : Nat) (tiles : Tiles h.memory start blocks arena.limit)
    (hold : HoldHeaders blocks) (nonempty : blocks ≠ []) (le : blocks.length ≤ k) :
    ((∀ b ∈ blocks, ¬ Fits need b) ∧ kmallocFrom arena size need k start h =
        .error (.panicHex "heap: out of memory, requested" size) h) ∨
    ∃ pre b post, blocks = pre ++ b :: post ∧ Fits need b ∧ kmallocFrom arena size need k start h =
        .ok (some (start + total pre + headerSize)) (takeBlock h (start + total pre) need) := by
  induction blocks generalizing start k with
  | nil => exact absurd rfl nonempty
  | cons b blocks ih =>
    obtain ⟨k, rfl⟩ : ∃ r, k = r + 1 := ⟨k - 1, by simp at le; omega⟩
    rw [kmallocFrom]
    by_cases fitting : Fits need b
    · right
      refine ⟨[], b, blocks, rfl, fitting, ?_⟩
      rw [if_pos ((fits_iff tiles.1).mpr fitting)]
      simp
    rw [if_neg fun ht => fitting ((fits_iff tiles.1).mp ht)]
    cases blocks with
    | nil =>
      left
      refine ⟨by simpa using fitting, ?_⟩
      simp [nextBlock_last tiles]
    | cons next blocks =>
      have tailHold : HoldHeaders (next :: blocks) :=
        fun o mem => hold o (by simp [mem_cons.mp mem])
      simp only [nextBlock_next tiles hold]
      rcases ih tiles.2 tailHold (by simp) (by simpa using le) with
        ⟨noneFits, res⟩ | ⟨pre, chosen, post, split, chosenFits, res⟩
      · left
        refine ⟨?_, res⟩
        intro o mem
        rcases mem_cons.mp mem with rfl | later
        · exact fitting
        · exact noneFits o later
      right
      refine ⟨b :: pre, chosen, post, by simp [split], chosenFits, ?_⟩
      simp [res, Nat.add_assoc]

lemma headerAt_writeHeader_free {b : Nat} (bound : size < 2 ^ 32) :
    HeaderAt (writeHeader ram b size 1 0) b ⟨size, none⟩ := by
  refine ⟨?_, ?_, by simp⟩
  · rw [blockSize, writeHeader]
    simp (disch := omega) only [readLE_writeLE_outside]
    exact readLE_writeLE_same (by omega)
  rw [blockFree, writeHeader]
  simp (disch := omega) only [readLE_writeLE_outside]
  exact readLE_writeLE_same (by decide)

lemma headerAt_mark {b : Nat} (sizeEq : blockSize ram b = size) :
    HeaderAt ((ram.writeLE (b + 4) 4 0).writeLE (b + 8) 4 heapMagic) b
      ⟨size, some req⟩ := by
  refine ⟨?_, ?_, fun _ => ?_⟩
  · rw [blockSize]
    simp (disch := omega) only [readLE_writeLE_outside]
    exact sizeEq
  · rw [blockFree]
    simp (disch := omega) only [readLE_writeLE_outside]
    exact readLE_writeLE_same (by decide)
  · exact readLE_writeLE_same (by decide)

lemma writeHeader_outside {b free magic : Nat} (out : address < b ∨ b + headerSize ≤ address) :
    writeHeader ram b size free magic address = ram address := by
  simp only [headerSize] at out
  simp only [writeHeader, writeLE]
  repeat rw [blit_outside (by omega)]

lemma takeBlock_memory_outside {b : Nat} (roomy : headerSize + heapAlign ≤ blockSize h.memory b)
    (fits : need ≤ blockSize h.memory b)
    (out : address < b ∨ b + blockSize h.memory b ≤ address) :
    (takeBlock h b need).memory address = h.memory address := by
  simp only [headerSize, heapAlign] at roomy
  simp only [takeBlock, writeLE]
  rw [blit_outside (by omega), blit_outside (by omega)]
  split
  · rename_i leftover
    simp only [headerSize, heapAlign] at leftover
    rw [blit_outside (by omega), writeHeader_outside (by simp only [headerSize]; omega)]
  · rfl

lemma takeBlock_bytesInUse (h : Heap) (b need : Nat) : (takeBlock h b need).bytesInUse =
    u64 (h.bytesInUse + blockSize (takeBlock h b need).memory b) :=
  rfl

lemma takeBlock_tiles (header : HeaderAt h.memory start b) (small : b.size < 2 ^ 32)
    (roomy : headerSize + heapAlign ≤ need) (fits : need ≤ b.size) :
    Tiles (takeBlock h start need).memory start
      (serve (headerSize + heapAlign) need req b.size) (start + b.size) := by
  have sizeEq := header.size
  simp only [headerSize, heapAlign] at roomy
  simp only [takeBlock, serve, sizeEq]
  split
  · rename_i leftover
    simp only [headerSize, heapAlign] at leftover
    have needEq : u32 need = need := u32_of_lt (by omega)
    have leftoverEq : u32 (b.size - need) = b.size - need := u32_of_lt (by omega)
    rw [needEq, leftoverEq]
    refine ⟨headerAt_mark (readLE_writeLE_same (by omega)), ?_, ?_⟩
    · have hw : HeaderAt (writeHeader h.memory (start + need) (b.size - need) 1 0)
        (start + need) ⟨b.size - need, none⟩ :=
        headerAt_writeHeader_free (by omega)
      refine hw.congr ?_
      intro i idxLt
      simp only [headerSize] at idxLt
      simp only [writeLE]
      rw [blit_outside (by omega), blit_outside (by omega), blit_outside (by omega)]
    simp only [Tiles]
    omega
  · exact ⟨headerAt_mark sizeEq, rfl⟩

lemma blockSize_of_tiles_serve {least : Nat}
    (tiles : Tiles ram start (serve least need req size) limit) :
    blockSize ram start = servedSize least need size := by
  rw [serve] at tiles
  rw [servedSize]
  split at tiles
  · rename_i leftover
    rw [if_pos leftover]
    exact tiles.1.size
  rename_i leftover
  rw [if_neg leftover]
  exact tiles.1.size

lemma takeBlock_spec (tiles : Tiles h.memory start (pre ++ b :: post) limit)
    (hold : HoldHeaders (pre ++ b :: post)) (small : b.size < 2 ^ 32)
    (roomy : headerSize + heapAlign ≤ need) (fits : need ≤ b.size) :
    Tiles (takeBlock h (start + total pre) need).memory start
      (pre ++ (serve (headerSize + heapAlign) need req b.size ++ post)) limit := by
  obtain ⟨preTiles, header, afterTiles⟩ := tiles_append.mp tiles
  have blockRoomy := hold b (by simp)
  have out {address : Nat} (away : address < start + total pre ∨
    start + total pre + b.size ≤ address) :
    (takeBlock h (start + total pre) need).memory address = h.memory address := by
    apply takeBlock_memory_outside <;> rw [header.size] <;> assumption
  refine tiles_append.mpr ⟨?_, tiles_append.mpr ⟨?_, ?_⟩⟩
  · refine preTiles.congr_inside (fun o mem => hold o (by simp [mem])) ?_
    intro address _ addrLt
    exact out (.inl addrLt)
  · rw [total_serve fits]
    exact takeBlock_tiles header small roomy fits
  rw [total_serve fits]
  refine afterTiles.congr_inside (fun o mem => hold o (by simp [mem])) ?_
  intro address addrLe _
  exact out (.inr addrLe)

lemma HoldHeaders.tail {b : Block} (hold : HoldHeaders (b :: blocks)) : HoldHeaders blocks :=
  fun o mem => hold o (by simp [mem])

/-- A free block grows over the free blocks after it. -/
lemma absorbNext_spec (tiles : Tiles ram start (⟨size, none⟩ :: blocks) arena.limit)
    (hold : HoldHeaders (⟨size, none⟩ :: blocks)) (small : size + total blocks < 2 ^ 32)
    (le : blocks.length < k) : ∃ hg size' r, absorbNext arena start k ram = .ok () hg ∧
      Tiles hg start (⟨size', none⟩ :: r) arena.limit ∧
      HoldHeaders (⟨size', none⟩ :: r) ∧ size' + total r = size + total blocks ∧
      mergeFree (⟨size, none⟩ :: blocks) = mergeFree (⟨size', none⟩ :: r) ∧
      (∀ next tail, r = next :: tail → next.isFree = false) ∧
      r.length ≤ blocks.length ∧
      ∀ address, address < start ∨ start + 4 ≤ address → hg address = ram address := by
  induction blocks generalizing ram size k with
  | nil =>
    obtain ⟨k, rfl⟩ : ∃ r, k = r + 1 := ⟨k - 1, by simp at le; omega⟩
    refine ⟨ram, size, [], ?_, tiles, hold, rfl, rfl, by simp, le_rfl, fun _ _ => rfl⟩
    simp [absorbNext, nextBlock_last tiles]
  | cons next blocks ih =>
    obtain ⟨k, rfl⟩ : ∃ r, k = r + 1 := ⟨k - 1, by simp at le; omega⟩
    have nextHeader := tiles.2.1
    have sizeEq : blockSize ram start = size := tiles.1.size
    have nextSizeEq : blockSize ram (start + size) = next.size := nextHeader.size
    have nextFreeEq : blockFree ram (start + size) = if next.isFree then 1 else 0 := nextHeader.free
    cases nextFree : next.isFree with
    | false =>
      refine ⟨ram, size, next :: blocks, ?_, tiles, hold, rfl, rfl, ?_, le_rfl, fun _ _ => rfl⟩
      · simp [absorbNext, nextBlock_next tiles hold, nextFreeEq, nextFree]
      intro head tail equal
      obtain ⟨rfl, rfl⟩ := List.cons.inj equal
      exact nextFree
    | true =>
      have sizeRoomy := hold ⟨size, none⟩ (by simp)
      have nextRoomy := hold next (by simp)
      simp only [total_cons, headerSize, heapAlign] at small sizeRoomy nextRoomy
      have sumEq : u32 (size + next.size) = size + next.size := u32_of_lt (by omega)
      have agree : ∀ address, address < start ∨ start + 4 ≤ address →
        ram.writeLE start 4 (size + next.size) address = ram address :=
        fun address out => blit_outside out
      have grownHdr : HeaderAt (ram.writeLE start 4 (size + next.size)) start
        ⟨size + next.size, none⟩ := by
        refine ⟨readLE_writeLE_same (by omega), ?_, by simp⟩
        rw [blockFree, readLE_writeLE_outside (by omega)]
        exact tiles.1.free
      have restTiles : Tiles (ram.writeLE start 4 (size + next.size))
        (start + (size + next.size)) blocks arena.limit := by
        rw [← Nat.add_assoc]
        refine tiles.2.2.congr_inside hold.tail.tail fun address addrLe _ => ?_
        exact agree address (by omega)
      have grownHold : HoldHeaders (⟨size + next.size, none⟩ :: blocks) := by
        intro b mem
        rcases mem_cons.mp mem with rfl | later
        · simp only [headerSize, heapAlign]
          omega
        · exact hold b (by simp [later])
      have fewer : blocks.length < k := by simpa using le
      obtain ⟨hg, size', r, res, grownTiles, restHold, totalEq, mergeEq, ht,
        shorter, f⟩ := ih ⟨grownHdr, restTiles⟩ grownHold (by omega) fewer
      refine ⟨hg, size', r, ?_, grownTiles, restHold, by simp [totalEq, Nat.add_assoc],
        ?_, ht, by simp; omega, fun address out => ?_⟩
      · rw [absorbNext]
        simp only [nextBlock_next tiles hold, nextFreeEq, nextFree, sizeEq, nextSizeEq, sumEq]
        simpa using res
      · rw [mergeFree_absorb rfl nextFree]
        exact mergeEq
      · rw [f address out, agree address out]

/-- The block is merged with everything it can be merged with. -/
lemma absorbRound_spec (tiles : Tiles ram start (b :: blocks) arena.limit)
    (hold : HoldHeaders (b :: blocks)) (small : total (b :: blocks) < 2 ^ 32)
    (le : blocks.length < walkFuel) :
    ∃ hg head r, (if blockFree ram start ≠ 0 then absorbNext arena start walkFuel ram
        else .ok () ram) = EStateM.Result.ok () hg ∧
      Tiles hg start (head :: r) arena.limit ∧ HoldHeaders (head :: r) ∧
      mergeFree (b :: blocks) = head :: mergeFree r ∧
      r.length ≤ blocks.length ∧
      ∀ address, address < start → hg address = ram address := by
  cases blockIsFree : b.isFree with
  | false =>
    refine ⟨ram, b, blocks, ?_, tiles, hold, mergeFree_taken blockIsFree blocks,
      le_rfl, fun _ _ => rfl⟩
    simp [tiles.1.free, blockIsFree]
  | true =>
    have blockEq := Block.eq_of_isFree blockIsFree
    rw [blockEq] at tiles hold small ⊢
    obtain ⟨hg, size, r, res, grownTiles, restHold, _, mergeEq, ht, shorter,
      f⟩ := absorbNext_spec tiles hold (by simpa using small) le
    refine ⟨hg, ⟨size, none⟩, r, ?_, grownTiles, restHold, ?_, shorter,
      fun address below => f address (.inl below)⟩
    · simp [tiles.1.free, res]
    rw [mergeEq]
    cases r with
    | nil => rfl
    | cons next tail => exact mergeFree_free_taken (ht next tail rfl) tail

lemma coalesceFrom_spec (tiles : Tiles ram start blocks arena.limit)
    (hold : HoldHeaders blocks) (small : total blocks < 2 ^ 32) (nonempty : blocks ≠ [])
    (le : blocks.length ≤ k) (enoughInside : blocks.length ≤ walkFuel) :
    ∃ merged, coalesceFrom arena k start ram = .ok () merged ∧
      Tiles merged start (mergeFree blocks) arena.limit ∧
      ∀ address, address < start → merged address = ram address := by
  induction len : blocks.length using Nat.strong_induction_on
    generalizing ram start blocks k with
  | _ _ ih =>
    cases blocks with
    | nil => exact absurd rfl nonempty
    | cons b blocks =>
      simp only [length_cons] at len le enoughInside
      obtain ⟨k, rfl⟩ : ∃ r, k = r + 1 := ⟨k - 1, by omega⟩
      obtain ⟨hg, head, r, round, grownTiles, restHold, mergeEq, shorter, f⟩ :=
        absorbRound_spec tiles hold small enoughInside
      have totalEq : total (head :: r) = total (b :: blocks) := by
        have pre := tiles.limit_eq
        have post := grownTiles.limit_eq
        omega
      rw [mergeEq]
      cases r with
      | nil =>
        refine ⟨hg, ?_, grownTiles, f⟩
        rw [coalesceFrom]
        simp only [round, nextBlock_last grownTiles]
      | cons next tail =>
        have tailSmall : total (next :: tail) < 2 ^ 32 := by
          rw [total_cons] at totalEq
          omega
        have fewer : (next :: tail).length ≤ k := by omega
        obtain ⟨merged, res, mergedTiles, below⟩ :=
          ih (next :: tail).length (by omega) grownTiles.2 restHold.tail tailSmall
            (by simp) fewer (by omega) rfl
        have headRoomy := restHold head (by simp)
        refine ⟨merged, ?_, ⟨?_, mergedTiles⟩, fun address addrLt => ?_⟩
        · rw [coalesceFrom]
          simp only [round, nextBlock_next grownTiles restHold, res]
        · refine grownTiles.1.congr fun i idxLt => below _ ?_
          simp only [headerSize, heapAlign] at headRoomy idxLt
          omega
        · rw [below address (by omega), f address addrLt]

lemma freeBlock_tiles (tiles : Tiles ram start (pre ++ b :: post) limit)
    (hold : HoldHeaders (pre ++ b :: post)) :
    Tiles ((ram.writeLE (start + total pre + 4) 4 1).writeLE (start + total pre + 8) 4 0) start
      (pre ++ ⟨b.size, none⟩ :: post) limit := by
  obtain ⟨preTiles, header, afterTiles⟩ := tiles_append.mp tiles
  have roomy := hold b (by simp)
  simp only [headerSize, heapAlign] at roomy
  have out {address : Nat} (away : address < start + total pre ∨
    start + total pre + b.size ≤ address) :
    (ram.writeLE (start + total pre + 4) 4 1).writeLE (start + total pre + 8) 4 0
      address = ram address := by
    simp only [writeLE]
    rw [blit_outside (by omega), blit_outside (by omega)]
  refine tiles_append.mpr ⟨?_, ⟨?_, ?_, by simp⟩, ?_⟩
  · refine preTiles.congr_inside (fun o mem => hold o (by simp [mem])) ?_
    intro address _ addrLt
    exact out (.inl addrLt)
  · rw [blockSize]
    simp (disch := omega) only [readLE_writeLE_outside]
    exact header.size
  · rw [blockFree]
    simp (disch := omega) only [readLE_writeLE_outside]
    exact readLE_writeLE_same (by decide)
  refine afterTiles.congr_inside (fun o mem => hold o (by simp [mem])) ?_
  intro address addrLe _
  exact out (.inr addrLe)

end

open BlockTiling List

structure HeapShape (arena : Arena) (heap : Heap) (blocks : List Block) : Prop where
  tiles : Tiles heap.memory arena.base blocks arena.limit
  sizes : ∀ b ∈ blocks, b.size % heapAlign = 0 ∧ headerSize + heapAlign ≤ b.size
  separated : NoAdjacentFree blocks
  inUse : heap.bytesInUse = used blocks

variable {arena : Arena} {h : Heap} {blocks : List Block}

namespace HeapShape

section
variable (hs : HeapShape arena h blocks)
include hs

lemma holdHeaders : HoldHeaders blocks := fun b mem => (hs.sizes b mem).2

lemma total_eq : total blocks = heapArenaSize := by
  have limitEq := hs.tiles.limit_eq
  have := arena.limit_eq
  omega

lemma nonempty : blocks ≠ [] := by
  rintro rfl
  have := hs.total_eq
  simp [heapArenaSize] at this

lemma length_le : blocks.length ≤ walkFuel := by
  have counted := length_mul_le_total hs.holdHeaders
  rw [hs.total_eq] at counted
  simp only [heapArenaSize, headerSize, heapAlign, walkFuel] at counted ⊢
  omega

lemma total_lt : total blocks < 2 ^ 32 := by
  rw [hs.total_eq]
  decide

lemma store {a : Nat} {b : Block} {ram : ByteMemory} (mem : (a, b) ∈ allocated arena.base blocks)
    (hi : ∀ o, o < a + headerSize ∨ a + b.size ≤ o →
      ram o = h.memory o) : HeapShape arena { h with memory := ram } blocks := by
  refine ⟨?_, hs.sizes, hs.separated, hs.inUse⟩
  refine hs.tiles.congr fun pos starts i hlt => hi _ ?_
  rcases position_outside_allocated mem starts with pre | post <;> omega

end

end HeapShape

def lowArena : Arena where
  base := 0x200000
  limit := 0x400000
  limit_eq := rfl
  nonNull := by decide
  aligned := rfl
  fits := by decide

lemma heapInit_shape (ram : ByteMemory) :
    HeapShape arena (heapInit arena ram) [⟨heapArenaSize, none⟩] where
  tiles := ⟨headerAt_writeHeader_free (by decide), arena.limit_eq.symm⟩
  sizes := by simp [heapArenaSize, heapAlign, headerSize]
  separated := isChain_singleton _
  inUse := rfl

variable {sz need : Nat} {b : Block} {pre post : List Block}

lemma blockNeed_spec (pos : 0 < sz) (hb : sz + 31 < 2 ^ 64) :
    blockNeed sz % heapAlign = 0 ∧ headerSize + heapAlign ≤ blockNeed sz ∧
      headerSize + sz ≤ blockNeed sz := by
  have needEq : blockNeed sz = (headerSize + sz + 15) / 16 * 16 := by
    have wordEq : u64 (headerSize + sz) = headerSize + sz :=
      u64_of_lt (by simp only [headerSize]; omega)
    rw [blockNeed, wordEq]
    exact alignUp_two_pow (by norm_num : 4 ≤ 64) (by simp only [headerSize]; omega)
  simp only [headerSize, heapAlign] at needEq ⊢
  omega

lemma sizes_serve (needLe : need ≤ b.size)
    (blockSizes : b.size % heapAlign = 0 ∧ headerSize + heapAlign ≤ b.size)
    (ha : need % heapAlign = 0) (roomy : headerSize + heapAlign ≤ need) :
    ∀ o ∈ serve (headerSize + heapAlign) need sz b.size,
      o.size % heapAlign = 0 ∧ headerSize + heapAlign ≤ o.size := by
  intro o mem
  simp only [headerSize, heapAlign] at *
  rw [serve] at mem
  split at mem
  · rename_i leftover
    simp only [mem_cons, not_mem_nil, or_false] at mem
    rcases mem with rfl | rfl
    · exact ⟨ha, roomy⟩
    · exact ⟨by dsimp only; omega, leftover⟩
  simp only [mem_cons, not_mem_nil, or_false] at mem
  subst mem
  exact blockSizes

lemma takeBlock_shape (sz : Nat) (hs : HeapShape arena h (pre ++ b :: post)) (hf : Fits need b)
    (ha : need % heapAlign = 0) (roomy : headerSize + heapAlign ≤ need) :
    HeapShape arena (takeBlock h (arena.base + total pre) need)
      (pre ++ (serve (headerSize + heapAlign) need sz b.size ++ post)) := by
  obtain ⟨free, needLe⟩ := hf
  have totalLt := hs.total_lt
  have header : HeaderAt h.memory (arena.base + total pre) b := (tiles_append.mp hs.tiles).2.1
  have small : b.size < 2 ^ 32 := by
    simp only [total_append, total_cons] at totalLt
    omega
  refine ⟨takeBlock_spec hs.tiles hs.holdHeaders small roomy needLe, ?_,
    noAdjacentFree_serve free hs.separated, ?_⟩
  · intro o mem
    simp only [mem_append] at mem
    rcases mem with earlier | hi | hl
    · exact hs.sizes o (by simp [earlier])
    · exact sizes_serve needLe (hs.sizes b (by simp)) ha roomy o hi
    · exact hs.sizes o (by simp [hl])
  have sizeEq := blockSize_of_tiles_serve
    (takeBlock_tiles header small roomy needLe : Tiles _ _ (serve _ need sz b.size) _)
  have usedLe := used_le_total
    (pre ++ (serve (headerSize + heapAlign) need sz b.size ++ post))
  have unsplit : used (pre ++ b :: post) = used pre + used post := by simp [used, free]
  simp only [used_append, used_serve, total_append, total_serve needLe, total_cons]
    at usedLe totalLt ⊢
  rw [takeBlock_bytesInUse, sizeEq, hs.inUse, unsplit, u64_of_lt (by omega)]
  omega

lemma kmalloc_spec (hs : HeapShape arena h blocks) (pos : 0 < sz) :
    ((∀ b ∈ blocks, ¬ Fits (blockNeed sz) b) ∧
      kmalloc arena sz h = .error (.panicHex "heap: out of memory, requested" sz) h) ∨
    ∃ pre b post, blocks = pre ++ b :: post ∧ Fits (blockNeed sz) b ∧ kmalloc arena sz h =
        .ok (some (arena.base + total pre + headerSize))
          (takeBlock h (arena.base + total pre) (blockNeed sz)) := by
  have e : kmalloc arena sz h = kmallocFrom arena sz (blockNeed sz) walkFuel arena.base h := by
    simp [kmalloc, pos.ne']
  rw [e]
  exact kmallocFrom_spec sz (blockNeed sz) hs.tiles hs.holdHeaders
    hs.nonempty hs.length_le

lemma kfree_shape (hs : HeapShape arena h (pre ++ b :: post)) (ht : b.isFree = false) :
    ∃ hf, kfree arena (arena.base + total pre + headerSize) h = .ok () hf ∧
      HeapShape arena hf (mergeFree (pre ++ ⟨b.size, none⟩ :: post)) := by
  have header : HeaderAt h.memory (arena.base + total pre) b := (tiles_append.mp hs.tiles).2.1
  have freedTiles := freeBlock_tiles hs.tiles hs.holdHeaders
  have freedHeader := (tiles_append.mp freedTiles).2.1
  have blockSizes := hs.sizes b (by simp)
  have freedSizes : ∀ o ∈ pre ++ ⟨b.size, none⟩ :: post,
    o.size % heapAlign = 0 ∧ headerSize + heapAlign ≤ o.size := by
    intro o mem
    rcases mem_append.mp mem with earlier | r
    · exact hs.sizes o (by simp [earlier])
    rcases mem_cons.mp r with rfl | hl
    · exact blockSizes
    · exact hs.sizes o (by simp [hl])
  obtain ⟨merged, res, mergedTiles, _⟩ := coalesceFrom_spec freedTiles
    (fun o mem => (freedSizes o mem).2)
    (by simpa using hs.total_lt) (by simp) (by simpa using hs.length_le)
    (by simpa using hs.length_le)
  have hu : h.bytesInUse = used pre + (b.size + used post) := by simpa [used, ht] using hs.inUse
  refine ⟨{ h with
      memory := merged
      bytesInUse := h.bytesInUse - b.size
      freeCount := u64 (h.freeCount + 1) }, ?_, mergedTiles, ?_,
    noAdjacentFree_mergeFree _, ?_⟩
  · have hi : ¬ (arena.base + total pre + headerSize < arena.base + headerSize ∨
      arena.limit ≤ arena.base + total pre + headerSize) := by
      have limitEq := hs.tiles.limit_eq
      simp only [total_append, total_cons, headerSize, heapAlign] at limitEq blockSizes ⊢
      omega
    have notNull : arena.base + total pre + headerSize ≠ 0 := by simp [headerSize]
    have hc : b.size ≤ h.bytesInUse := by omega
    rw [kfree, if_neg notNull, if_neg hi]
    simp [header.magic ht, freedHeader.size, hc, coalesce, res]
  · refine forall_mergeFree ?_ freedSizes
    rintro fst snd ⟨aligned1, roomy1⟩ ⟨aligned2, _⟩
    simp only [heapAlign, headerSize] at *
    omega
  rw [used_mergeFree]
  simp only [used_append, used, Block.isFree_none, if_true, hu]
  omega

lemma kfree_foreign {ptr : Nat} (h : Heap)
    (foreign : ptr = 0 ∨ ptr < arena.base ∨ arena.limit ≤ ptr) : kfree arena ptr h = .ok () h := by
  rw [kfree]
  split
  · rfl
  · rw [if_pos (by simp only [headerSize]; omega)]

end HnxKernel
