import Hnx.PhysicalMemory

/-!
# Calls of the physical memory manager

Each call takes clear pages or gives used pages back, and changes nothing else.
-/

namespace HnxKernel

open Bitmap List

section

section MemoryMap

variable (memory : ByteMemory) (boot : Nat)

def mapLength : Nat := (bootInfoAt memory boot).mapSize / (bootInfoAt memory boot).descriptorSize

def mapEntry (idx : Nat) : Descriptor := descAt memory (bootInfoAt memory boot) idx

def Conventional (addr : Nat) : Prop :=
  ∃ i < mapLength memory boot, (mapEntry memory boot i).type = efiConventionalMemory ∧
    (mapEntry memory boot i).physicalStart ≤ addr ∧
    addr < (mapEntry memory boot i).physicalStart +
      (mapEntry memory boot i).numberOfPages * pageSize

/-- Aligned descriptors that do not wrap, in a map outside conventional memory. -/
structure SoundMap : Prop where
  aligned : ∀ i < mapLength memory boot, (mapEntry memory boot i).physicalStart % pageSize = 0
  fits : ∀ i < mapLength memory boot, (mapEntry memory boot i).physicalStart +
      (mapEntry memory boot i).numberOfPages * pageSize < 2 ^ 64
  infoFits : boot + bootInfoSize < 2 ^ 64
  mapFits : (bootInfoAt memory boot).mapBase + (bootInfoAt memory boot).mapSize < 2 ^ 64
  kernelFits :
    (bootInfoAt memory boot).kernelBase + (bootInfoAt memory boot).kernelSize < 2 ^ 64
  framebufferFits : (bootInfoAt memory boot).framebufferBase +
    (bootInfoAt memory boot).framebufferSize < 2 ^ 64
  infoStored : ∀ offset < bootInfoSize, ¬ Conventional memory boot (boot + offset)
  mapStored : ∀ offset < (bootInfoAt memory boot).mapSize,
    ¬ Conventional memory boot ((bootInfoAt memory boot).mapBase + offset)
  descriptorsStored : ∀ i < mapLength memory boot, ∀ offset < descriptorBytes,
    ¬ Conventional memory boot (descAddress (bootInfoAt memory boot) i + offset)

end MemoryMap

variable {memory : ByteMemory} {boot : Nat}

lemma highestRam_lt (info : BootInfo) (cnt : Nat) : highestRam memory info cnt < 2 ^ 64 := by
  unfold highestRam
  induction cnt with
  | zero => simp
  | succ _ ih =>
    rw [range_succ, foldl_append, foldl_cons, foldl_nil]
    dsimp only
    split
    · exact max_lt ih (u64_lt _)
    · exact ih

variable {info : BootInfo} {cnt i highest bitmap : Nat} {pmm next : Pmm}

lemma le_highestRam (idxLt : i < cnt) (ram : efiTypeIsRam (descAt memory info i).type = true) :
    u64 ((descAt memory info i).physicalStart +
      u64 ((descAt memory info i).numberOfPages * pageSize)) ≤ highestRam memory info cnt := by
  unfold highestRam
  induction cnt with
  | zero => omega
  | succ cnt ih =>
    rw [range_succ, foldl_append, foldl_cons, foldl_nil]
    by_cases last : i = cnt
    · rw [← last]
      simp [ram]
    have earlier := ih (by omega)
    dsimp only
    split
    · exact earlier.trans (le_max_left _ _)
    · exact earlier

lemma conventional_le_highestRam (h : SoundMap memory boot) (idxLt : i < mapLength memory boot)
    (conventional : (mapEntry memory boot i).type = efiConventionalMemory) :
    (mapEntry memory boot i).physicalStart + (mapEntry memory boot i).numberOfPages * pageSize ≤
        highestRam memory (bootInfoAt memory boot) (mapLength memory boot) := by
  have fits := h.fits i idxLt
  have ram : efiTypeIsRam (mapEntry memory boot i).type = true := by
    rw [conventional]
    decide
  have bound := le_highestRam idxLt ram
  rw [mapEntry] at fits ⊢
  rwa [u64_of_lt (lt_of_le_of_lt (Nat.le_add_left _ _) fits), u64_of_lt fits] at bound

lemma exists_of_bitmapRegion {bitmapPages : Nat}
    (hf : bitmapRegion memory info cnt bitmapPages ≠ 0) :
    ∃ i < cnt, holdsBitmap bitmapPages (descAt memory info i) = true ∧
      bitmapRegion memory info cnt bitmapPages = (descAt memory info i).physicalStart := by
  unfold bitmapRegion at hf ⊢
  cases search : (List.range cnt).find? fun i => holdsBitmap bitmapPages (descAt memory info i) with
  | none => simp [search] at hf
  | some i =>
    have mem := mem_of_find?_eq_some search
    have holds := List.find?_some search
    exact ⟨i, by simpa using mem, holds, rfl⟩

lemma used_allUsed {p : Nat} (pageLt : p < highest / pageSize) :
    (allUsed memory highest bitmap).used p = true := by
  have mem : p / 8 < (highest / pageSize + 7) / 8 := by omega
  have byte : (allUsed memory highest bitmap).memory (bitmap + p / 8) = 0xFF :=
    ByteMemory.fill_inside mem
  change byteTest ((allUsed memory highest bitmap).memory (bitmap + p / 8)) (p % 8) = true
  have full : (0xFF : UInt8).toNat = 2 ^ 8 - 1 := rfl
  rw [byte, byteTest, full, Nat.testBit_two_pow_sub_one]
  exact decide_eq_true (Nat.mod_lt _ (by norm_num))

lemma counted_allUsed (bound : highest < 2 ^ 64) : Counted (allUsed memory highest bitmap) where
  bound := lt_of_le_of_lt (Nat.div_le_self _ _) bound
  counted := by
    have none : clearBits (allUsed memory highest bitmap).used (highest / pageSize) = ∅ := by
      ext p
      simp only [mem_clearBits, Finset.notMem_empty, iff_false, not_and, Bool.not_eq_false]
      exact used_allUsed
    change 0 = (clearBits (allUsed memory highest bitmap).used (highest / pageSize)).card
    rw [none, Finset.card_empty]

structure BitmapPlaced (memory : ByteMemory) (boot : Nat) (pmm : Pmm) : Prop where
  total : pmm.totalPages =
    highestRam memory (bootInfoAt memory boot) (mapLength memory boot) / pageSize
  pagesEq : pmm.bitmapPages = pageAlignUp ((pmm.totalPages + 7) / 8) / pageSize
  region : pmm.bitmap = bitmapRegion memory (bootInfoAt memory boot)
    (mapLength memory boot) pmm.bitmapPages
  pages : (pmm.totalPages + 7) / 8 ≤ pmm.bitmapPages * pageSize
  aligned : pmm.bitmap % pageSize = 0
  high : lowMemoryReservedEnd ≤ pmm.bitmap
  fits : pmm.bitmap + pmm.bitmapPages * pageSize < 2 ^ 64
  conventional : ∀ offset < pmm.bitmapPages * pageSize,
    Conventional memory boot (pmm.bitmap + offset)

lemma BitmapPlaced.of_sameStore (hp : BitmapPlaced memory boot pmm)
    (store : SameStore pmm next) : BitmapPlaced memory boot next := by
  obtain ⟨total, pagesEq, region, pages, aligned, high, fits, conventional⟩ := hp
  rw [← store.totalPages] at total pagesEq pages
  rw [← store.bitmapPages] at pagesEq region pages fits conventional
  rw [← store.bitmap] at region aligned high fits conventional
  exact ⟨total, pagesEq, region, pages, aligned, high, fits, conventional⟩

def KeepsReserved (memory : ByteMemory) (boot : Nat) (pmm : Pmm) : Prop :=
  ∀ addr, ¬ Conventional memory boot addr → pmm.memory addr = memory addr

section

variable (keeps : KeepsReserved memory boot pmm)

include keeps

lemma KeepsReserved.of_sameStore (hp : BitmapPlaced memory boot pmm) (store : SameStore pmm next) :
    KeepsReserved memory boot next := by
  intro address reserved
  rw [← keeps address reserved]
  apply store.outside
  by_contra mem
  apply reserved
  have offLt : address - pmm.bitmap < pmm.bitmapPages * pageSize := by
    have := hp.pages
    omega
  have addrEq : pmm.bitmap + (address - pmm.bitmap) = address := by omega
  rw [← addrEq]
  exact hp.conventional _ offLt

lemma KeepsReserved.bootInfo_eq (h : SoundMap memory boot) :
    bootInfoAt pmm.memory boot = bootInfoAt memory boot :=
  bootInfoAt_congr fun off offLt => keeps _ (h.infoStored off offLt)

lemma KeepsReserved.descAt_eq (h : SoundMap memory boot) (idxLt : i < mapLength memory boot) :
    descAt pmm.memory (bootInfoAt pmm.memory boot) i = mapEntry memory boot i := by
  rw [keeps.bootInfo_eq h, mapEntry]
  exact descAt_congr fun off offLt => keeps _ (h.descriptorsStored i idxLt off offLt)

end

def ConventionalPage (memory : ByteMemory) (boot cnt page : Nat) : Prop :=
  ∃ i < cnt, (mapEntry memory boot i).type = efiConventionalMemory ∧
    (mapEntry memory boot i).physicalStart / pageSize ≤ page ∧
    page < (mapEntry memory boot i).physicalStart / pageSize +
      (mapEntry memory boot i).numberOfPages

structure Initialising (memory : ByteMemory) (boot : Nat) (pmm : Pmm) : Prop where
  placed : BitmapPlaced memory boot pmm
  keeps : KeepsReserved memory boot pmm
  counted : Counted pmm

lemma Initialising.of_sameStore (pre : Initialising memory boot pmm)
    (store : SameStore pmm next) (counted : Counted next) :
    Initialising memory boot next :=
  ⟨pre.placed.of_sameStore store, pre.keeps.of_sameStore pre.placed store, counted⟩

section

variable (h : SoundMap memory boot)

include h

lemma lastPage_le_total (hp : BitmapPlaced memory boot pmm) (idxLt : i < mapLength memory boot)
    (conventional : (mapEntry memory boot i).type = efiConventionalMemory) :
    (mapEntry memory boot i).physicalStart / pageSize +
      (mapEntry memory boot i).numberOfPages ≤ pmm.totalPages := by
  have bound := conventional_le_highestRam h idxLt conventional
  rw [hp.total]
  simp only [pageSize] at bound ⊢
  omega

lemma releaseDescriptor_spec
    (pre : Initialising memory boot pmm) (idxLt : i < mapLength memory boot)
    (released : ∀ page, pmm.used page = false ∧ page < pmm.totalPages ↔
      ConventionalPage memory boot i page) :
    Initialising memory boot (releaseDescriptor boot pmm i) ∧
      ∀ page, (releaseDescriptor boot pmm i).used page = false ∧
          page < (releaseDescriptor boot pmm i).totalPages ↔
        ConventionalPage memory boot (i + 1) page := by
  have later (page : Nat) : ConventionalPage memory boot (i + 1) page ↔
    ConventionalPage memory boot i page ∨ ((mapEntry memory boot i).type = efiConventionalMemory ∧
        (mapEntry memory boot i).physicalStart / pageSize ≤ page ∧
        page < (mapEntry memory boot i).physicalStart / pageSize +
          (mapEntry memory boot i).numberOfPages) := by
    simp only [ConventionalPage, Nat.lt_succ_iff_lt_or_eq]
    constructor
    · rintro ⟨pos, earlier | rfl, hi⟩
      · exact .inl ⟨pos, earlier, hi⟩
      · exact .inr hi
    rintro (⟨pos, earlier, hi⟩ | hi)
    · exact ⟨pos, .inl earlier, hi⟩
    · exact ⟨i, .inr rfl, hi⟩
  unfold releaseDescriptor
  rw [pre.keeps.descAt_eq h idxLt]
  dsimp only
  by_cases conventional : (mapEntry memory boot i).type = efiConventionalMemory
  · have lastLe := lastPage_le_total h pre.placed idxLt conventional
    have lastEq : u64 ((mapEntry memory boot i).physicalStart / pageSize +
      (mapEntry memory boot i).numberOfPages) = (mapEntry memory boot i).physicalStart / pageSize +
          (mapEntry memory boot i).numberOfPages :=
      u64_of_lt (lt_of_le_of_lt lastLe pre.counted.bound)
    rw [if_neg (not_not.mpr conventional), lastEq, Nat.min_eq_left lastLe, Nat.add_sub_cancel_left]
    have hi : ∀ page ∈ List.range' ((mapEntry memory boot i).physicalStart / pageSize)
      (mapEntry memory boot i).numberOfPages, page < pmm.totalPages := by
      intro page mem
      rw [mem_range'_1] at mem
      omega
    obtain ⟨store, counted, usedIff⟩ := releasePages_spec pre.counted hi
    refine ⟨pre.of_sameStore store counted, ?_⟩
    intro page
    rw [usedIff, store.totalPages, later, ← released, mem_range'_1]
    constructor
    · rintro ⟨hc | mem, pageLt⟩
      · exact .inl ⟨hc, pageLt⟩
      · exact .inr ⟨conventional, mem⟩
    rintro (⟨hc, pageLt⟩ | ⟨_, mem⟩)
    · exact ⟨.inl hc, pageLt⟩
    · exact ⟨.inr mem, by omega⟩
  rw [if_pos conventional]
  refine ⟨pre, ?_⟩
  intro page
  rw [released, later]
  simp [conventional]

lemma releaseDescriptors_spec
    (pre : Initialising memory boot pmm) (countLe : cnt ≤ mapLength memory boot)
    (allUsed : ∀ page < pmm.totalPages, pmm.used page = true) :
    Initialising memory boot ((List.range cnt).foldl (releaseDescriptor boot) pmm) ∧
      ∀ page, ((List.range cnt).foldl (releaseDescriptor boot) pmm).used page = false ∧
          page < ((List.range cnt).foldl (releaseDescriptor boot) pmm).totalPages ↔
        ConventionalPage memory boot cnt page := by
  induction cnt with
  | zero =>
    refine ⟨pre, ?_⟩
    intro page
    simp only [range_zero, foldl_nil, ConventionalPage, Nat.not_lt_zero, false_and,
      exists_false, iff_false, not_and]
    intro hc pageLt
    simp [allUsed page pageLt] at hc
  | succ _ ih =>
    obtain ⟨initing, released⟩ := ih (by omega)
    rw [range_succ, foldl_append, foldl_cons, foldl_nil]
    exact releaseDescriptor_spec h initing (by omega) released

end

lemma reserveRange_initialising (start size : Nat) (pre : Initialising memory boot pmm) :
    Initialising memory boot (reserveRange start size pmm) ∧
      SameStore pmm (reserveRange start size pmm) ∧
      ∀ p < pmm.totalPages, (reserveRange start size pmm).used p = false ↔
        pmm.used p = false ∧ p ∉ reservedPages start size := by
  obtain ⟨store, counted, usedIff⟩ := reserveRange_spec start size pre.counted
  exact ⟨pre.of_sameStore store counted, store, usedIff⟩

def initRanges (memory : ByteMemory) (boot : Nat) (pmm : Pmm) : List (Nat × Nat) :=
  let info := bootInfoAt memory boot
  [(0, lowMemoryReservedEnd), (info.kernelBase, info.kernelSize), (boot, bootInfoSize),
    (info.mapBase, info.mapSize), (info.framebufferBase, info.framebufferSize),
    (pmm.bitmap, pmm.bitmapPages * pageSize)]

lemma reserveRanges_spec (ranges : List (Nat × Nat)) (pre : Initialising memory boot pmm) :
    let reserved := ranges.foldl (fun pmm rng => reserveRange rng.1 rng.2 pmm) pmm
    Initialising memory boot reserved ∧ SameStore pmm reserved ∧
      ∀ p < pmm.totalPages, reserved.used p = false ↔
        pmm.used p = false ∧ ∀ rng ∈ ranges, p ∉ reservedPages rng.1 rng.2 := by
  induction ranges generalizing pmm with
  | nil => exact ⟨pre, SameStore.refl pmm, by simp⟩
  | cons rng _ ih =>
    obtain ⟨first, store, usedIff⟩ := reserveRange_initialising rng.1 rng.2 pre
    obtain ⟨rest, restStore, restUsed⟩ := ih first
    refine ⟨rest, store.trans restStore, ?_⟩
    intro p pageLt
    rw [foldl_cons, restUsed p (by rwa [store.totalPages]), usedIff p pageLt]
    simp [and_assoc]

lemma reserveAll_eq (h : SoundMap memory boot) (pre : Initialising memory boot pmm) :
    reserveAll boot pmm = (initRanges memory boot pmm).foldl
      (fun pmm rng => reserveRange rng.1 rng.2 pmm) pmm := by
  obtain ⟨low, lowStore, _⟩ := reserveRange_initialising 0 lowMemoryReservedEnd pre
  have kernelEq := low.keeps.bootInfo_eq h
  obtain ⟨kern, kernelStore, _⟩ := reserveRange_initialising
    (bootInfoAt memory boot).kernelBase (bootInfoAt memory boot).kernelSize low
  obtain ⟨info, infoStore, _⟩ := reserveRange_initialising boot bootInfoSize kern
  have mapEq := info.keeps.bootInfo_eq h
  obtain ⟨map, mapStore, _⟩ := reserveRange_initialising
    (bootInfoAt memory boot).mapBase (bootInfoAt memory boot).mapSize info
  have framebufferEq := map.keeps.bootInfo_eq h
  obtain ⟨framebuffer, fbStore, _⟩ := reserveRange_initialising
    (bootInfoAt memory boot).framebufferBase (bootInfoAt memory boot).framebufferSize map
  have store := (((lowStore.trans kernelStore).trans infoStore).trans mapStore).trans
    fbStore
  have bitmapFits := pre.placed.fits
  have bitmapEq : u64 (pmm.bitmapPages * pageSize) = pmm.bitmapPages * pageSize :=
    u64_of_lt (by omega)
  simp [reserveAll, reserveKernel, reserveMap, reserveFramebuffer, kernelEq, mapEq,
    framebufferEq, store.bitmap, store.bitmapPages, bitmapEq, initRanges]

lemma recordCounters_used (pmm : Pmm) : (recordCounters pmm).used = pmm.used := rfl

lemma recordCounters_totalPages (pmm : Pmm) : (recordCounters pmm).totalPages = pmm.totalPages :=
  rfl

lemma initRanges_recordCounters (pmm : Pmm) :
    initRanges memory boot (recordCounters pmm) = initRanges memory boot pmm :=
  rfl

lemma recordCounters_initialising (pre : Initialising memory boot pmm) :
    Initialising memory boot (recordCounters pmm) :=
  pre.of_sameStore ⟨rfl, rfl, rfl, fun _ _ => rfl⟩ ⟨pre.counted.bound, pre.counted.counted⟩

section

variable (h : SoundMap memory boot)

include h

lemma reserveAll_spec (pre : Initialising memory boot pmm)
    (released : ∀ p, pmm.used p = false ∧ p < pmm.totalPages ↔
      ConventionalPage memory boot (mapLength memory boot) p) :
    Initialising memory boot (recordCounters (reserveAll boot pmm)) ∧
      ∀ p < (recordCounters (reserveAll boot pmm)).totalPages,
        (recordCounters (reserveAll boot pmm)).used p = false ↔
          ConventionalPage memory boot (mapLength memory boot) p ∧
            ∀ rng ∈ initRanges memory boot (recordCounters (reserveAll boot pmm)),
              p ∉ reservedPages rng.1 rng.2 := by
  obtain ⟨reserved, store, reservedUsed⟩ := reserveRanges_spec (initRanges memory boot pmm) pre
  rw [← reserveAll_eq h pre] at reserved store reservedUsed
  have rangesEq : initRanges memory boot (reserveAll boot pmm) = initRanges memory boot pmm := by
    rw [initRanges, initRanges, store.bitmap, store.bitmapPages]
  constructor
  · exact recordCounters_initialising reserved
  intro p pageLt
  rw [recordCounters_totalPages, store.totalPages] at pageLt
  rw [recordCounters_used, initRanges_recordCounters, rangesEq, reservedUsed p pageLt, ← released p]
  simp [pageLt]

lemma allUsed_initialising (highestEq : highest =
      highestRam memory (bootInfoAt memory boot) (mapLength memory boot))
    (bitmapEq : bitmap = bitmapRegion memory (bootInfoAt memory boot)
      (mapLength memory boot) (pageAlignUp ((highest / pageSize + 7) / 8) / pageSize))
    (hf : bitmap ≠ 0) :
    Initialising memory boot (allUsed memory highest bitmap) := by
  have highestLt : highest < 2 ^ 64 := highestEq ▸ highestRam_lt _ _
  have roundUp : pageAlignUp ((highest / pageSize + 7) / 8) / pageSize =
    ((highest / pageSize + 7) / 8 + 4095) / 4096 := by
    rw [pageAlignUp_eq (by simp only [pageSize]; omega), pageSize,
      Nat.mul_div_cancel _ (by norm_num)]
  obtain ⟨i, idxLt, h, start⟩ := exists_of_bitmapRegion (bitmapEq ▸ hf)
  rw [← bitmapEq] at start
  simp only [holdsBitmap, decide_eq_true_eq] at h
  obtain ⟨conventional, le, high⟩ := h
  have aligned := h.aligned i idxLt
  have fits := h.fits i idxLt
  simp only [mapEntry] at aligned fits
  rw [← start] at aligned fits high
  have enoughBytes := Nat.mul_le_mul_right pageSize le
  have hp : BitmapPlaced memory boot (allUsed memory highest bitmap) := by
    refine ⟨congrArg (· / pageSize) highestEq, rfl, bitmapEq, ?_, aligned, high, ?_, ?_⟩
    · change (highest / pageSize + 7) / 8 ≤
        pageAlignUp ((highest / pageSize + 7) / 8) / pageSize * pageSize
      rw [roundUp]
      simp only [pageSize]
      omega
    · exact lt_of_le_of_lt (Nat.add_le_add_left enoughBytes _) fits
    intro off offLt
    refine ⟨i, idxLt, conventional, ?_⟩
    rw [mapEntry, ← start]
    constructor
    · exact Nat.le_add_right _ _
    · exact Nat.add_lt_add_left (lt_of_lt_of_le offLt enoughBytes) _
  refine ⟨hp, ?_, counted_allUsed highestLt⟩
  intro address reserved
  apply ByteMemory.fill_outside
  by_contra mem
  apply reserved
  have addrEq : bitmap + (address - bitmap) = address := by omega
  rw [← addrEq]
  apply hp.conventional
  refine lt_of_lt_of_le ?_ hp.pages
  change address - bitmap < (highest / pageSize + 7) / 8
  omega

lemma pmmInit_spec (init : pmmInit boot memory = .ok pmm) :
    Initialising memory boot pmm ∧ ∀ p < pmm.totalPages, pmm.used p = false ↔
        ConventionalPage memory boot (mapLength memory boot) p ∧
          ∀ rng ∈ initRanges memory boot pmm, p ∉ reservedPages rng.1 rng.2 := by
  unfold pmmInit at init
  by_cases divides : (bootInfoAt memory boot).descriptorSize = 0
  · simp [descCount, divides] at init
  have countEq : descCount (bootInfoAt memory boot) = some (mapLength memory boot) := by
    rw [descCount, if_neg divides]
    rfl
  simp only [countEq] at init
  split at init
  · simp at init
  rename_i hf
  rw [Except.ok.injEq] at init
  have pre := allUsed_initialising h rfl rfl hf
  obtain ⟨freed, freedUsed⟩ := releaseDescriptors_spec h pre le_rfl
    fun p pageLt => used_allUsed pageLt
  rw [← init]
  exact reserveAll_spec h freed freedUsed

end

end

variable {pmm next : Pmm} {p : Nat}

variable {used : Nat → Bool} {start total cnt : Nat} {pages : List Nat}

lemma firstClear_eq_some (hf : firstClear used start total = some p) :
    start ≤ p ∧ p < total ∧ used p = false := by
  have mem := mem_of_find?_eq_some hf
  have clear := List.find?_some hf
  rw [mem_range'_1] at mem
  simp only [Bool.not_eq_true'] at clear
  exact ⟨mem.1, by omega, clear⟩

lemma firstClear_eq_none (ha : firstClear used start total = none) :
    ∀ p, start ≤ p → p < total → used p = true := by
  intro p startLe pageLt
  have taken := List.find?_eq_none.mp ha p (by rw [mem_range'_1]; omega)
  simpa using taken

lemma clearRun_le (used : Nat → Bool) (p cnt : Nat) : clearRun used p cnt ≤ cnt := by
  induction cnt generalizing p with
  | zero => simp [clearRun]
  | succ _ ih =>
    unfold clearRun
    split
    · omega
    have := ih (p + 1)
    omega

lemma clear_of_lt_clearRun {p i : Nat}
    (idxLt : i < clearRun used p cnt) : used (p + i) = false := by
  induction cnt generalizing p i with
  | zero => simp [clearRun] at idxLt
  | succ cnt ih =>
    unfold clearRun at idxLt
    split at idxLt
    · omega
    rename_i hc
    cases i with
    | zero => simpa using hc
    | succ i =>
      have rest := ih (by omega : i < clearRun used (p + 1) cnt)
      rwa [Nat.add_assoc, Nat.add_comm 1] at rest

lemma used_clearRun {p : Nat} (short : clearRun used p cnt ≠ cnt) :
    used (p + clearRun used p cnt) = true := by
  induction cnt generalizing p with
  | zero => exact absurd rfl short
  | succ _ ih =>
    unfold clearRun at short ⊢
    split at short
    next taken => rwa [if_pos taken]
    next hc =>
    have rest := @ih (p + 1) (by omega)
    rwa [if_neg hc, ← Nat.add_assoc, Nat.add_right_comm]

/-- A page that breaks a run breaks all those that would start before it. -/
lemma findRun_spec {fuel : Nat} (countLe : cnt ≤ 2 ^ 52)
    (totalLe : total < 2 ^ 63) (pageLe : p ≤ total + 1) (enough : total + 1 < fuel + p) :
    (findRun used cnt total fuel p = some none ∧
        ∀ q, p ≤ q → q + cnt ≤ total → ∃ i < cnt, used (q + i) = true) ∨
      ∃ fst, findRun used cnt total fuel p = some (some fst) ∧ p ≤ fst ∧
        fst + cnt ≤ total ∧ (∀ i < cnt, used (fst + i) = false) ∧
        ∀ q, p ≤ q → q < fst → ∃ i < cnt, used (q + i) = true := by
  induction fuel generalizing p with
  | zero => omega
  | succ _ ih =>
    unfold findRun
    rw [u64_of_lt (by omega)]
    by_cases mem : p + cnt ≤ total
    · rw [if_pos mem]
      have runLe := clearRun_le used p cnt
      by_cases whole : clearRun used p cnt = cnt
      · right
        refine ⟨p, if_pos whole, le_rfl, mem, ?_, by omega⟩
        intro i idxLt
        exact clear_of_lt_clearRun (whole.symm ▸ idxLt)
      dsimp only
      rw [if_neg whole]
      -- the used page that ended the run lies in every run that starts at a skipped page
      have before : ∀ q, p ≤ q → (p + clearRun used p cnt < q → ∃ i < cnt, used (q + i) = true) →
          ∃ i < cnt, used (q + i) = true := by
        intro q low later
        rcases Nat.lt_or_ge (p + clearRun used p cnt) q with lt | high
        · exact later lt
        refine ⟨p + clearRun used p cnt - q, by omega, ?_⟩
        rw [Nat.add_sub_cancel' high]
        exact used_clearRun whole
      rcases ih (by omega : p + clearRun used p cnt + 1 ≤ total + 1) (by omega) with
        ⟨ha, broken⟩ | ⟨fst, hf, pageLe, inside, hc, broken⟩
      · exact .inl ⟨ha, fun q low high => before q low fun later => broken q later high⟩
      exact .inr ⟨fst, hf, by omega, inside, hc, fun q low high =>
        before q low fun later => broken q later high⟩
    left
    rw [if_neg mem]
    exact ⟨rfl, by omega⟩

lemma setUsedPages_spec (nodup : pages.Nodup)
    (hc : ∀ p ∈ pages, p ∈ clearBits pmm.used pmm.totalPages) :
    SameStore pmm (pages.foldl Pmm.setUsed pmm) ∧
      (∀ p, (pages.foldl Pmm.setUsed pmm).used p = false ↔
        pmm.used p = false ∧ p ∉ pages) ∧
      (clearBits (pages.foldl Pmm.setUsed pmm).used pmm.totalPages).card + pages.length =
        (clearBits pmm.used pmm.totalPages).card := by
  induction pages generalizing pmm with
  | nil => exact ⟨SameStore.refl pmm, by simp, by simp⟩
  | cons first pages ih =>
    have firstClear := hc first (by simp)
    obtain ⟨notLater, restNodup⟩ := nodup_cons.mp nodup
    have restClear : ∀ p ∈ pages,
      p ∈ clearBits (pmm.setUsed first).used (pmm.setUsed first).totalPages := by
      intro p mem
      have ne : p ≠ first := fun same => notLater (same ▸ mem)
      have pageClear := hc p (by simp [mem])
      rw [mem_clearBits, used_setUsed, Function.update_of_ne ne]
      exact mem_clearBits.mp pageClear
    obtain ⟨store, usedIff, cardEq⟩ := ih restNodup restClear
    have oneLess := card_clearBits_set firstClear
    refine ⟨(sameStore_setUsed (mem_clearBits.mp firstClear).1).trans store, ?_, ?_⟩
    · intro p
      rw [foldl_cons, usedIff, used_setUsed]
      by_cases same : p = first
      · simp [same]
      · simp [same]
    rw [used_setUsed] at cardEq
    change (clearBits _ pmm.totalPages).card + _ = (clearBits _ pmm.totalPages).card at cardEq
    rw [foldl_cons, length_cons]
    omega

def FreeRun (pmm : Pmm) (cnt p : Nat) : Prop :=
  firstPage ≤ p ∧ p + cnt ≤ pmm.totalPages ∧ ∀ i < cnt, pmm.used (p + i) = false

lemma FreeRun.clear (run : FreeRun pmm cnt p) : ∀ q ∈ range' p cnt,
    firstPage ≤ q ∧ q < pmm.totalPages ∧ pmm.used q = false := by
  intro q mem
  obtain ⟨high, inside, hc⟩ := run
  rw [mem_range'_1] at mem
  refine ⟨by omega, by omega, ?_⟩
  rw [← Nat.add_sub_cancel' mem.1]
  exact hc _ (by omega)

lemma findRun_firstPage (countLe : cnt ≤ 2 ^ 52) (totalLt : pmm.totalPages < 2 ^ 63) :
    (findRun pmm.used cnt pmm.totalPages (pmm.totalPages + 1) firstPage = some none ∧
        ∀ q, ¬ FreeRun pmm cnt q) ∨
      ∃ fst, findRun pmm.used cnt pmm.totalPages (pmm.totalPages + 1) firstPage =
        some (some fst) ∧ FreeRun pmm cnt fst ∧ ∀ q < fst, ¬ FreeRun pmm cnt q := by
  have notFree : ∀ {q}, (∃ i < cnt, pmm.used (q + i) = true) → ¬ FreeRun pmm cnt q := by
    rintro q ⟨i, idxLt, ht⟩ ⟨-, -, hc⟩
    exact absurd (hc i idxLt) (by simp [ht])
  have fuelPositive : 0 < firstPage := by decide
  by_cases hi : firstPage ≤ pmm.totalPages + 1
  · rcases @findRun_spec firstPage pmm.used pmm.totalPages cnt (pmm.totalPages + 1) countLe totalLt
      hi (by omega) with ⟨ha, broken⟩ | ⟨fst, hf, high, hi, hc, broken⟩
    · exact .inl ⟨ha, fun q run => notFree (broken q run.1 run.2.1) run⟩
    · exact .inr ⟨fst, hf, ⟨high, hi, hc⟩, fun q lt run => notFree (broken q run.1 lt) run⟩
  left
  -- all pages are below 1 MiB
  have small : firstPage < 2 ^ 52 := by decide
  unfold findRun
  rw [u64_of_lt (by omega), if_neg (by omega)]
  refine ⟨rfl, ?_⟩
  rintro q ⟨high, inside, -⟩
  omega

/-- The pages of a manager have 64-bit addresses. -/
theorem pmmAllocContig_lowest (two : 2 ≤ cnt) (countLe : cnt ≤ 2 ^ 52)
    (pages : pmm.totalPages ≤ 2 ^ 52) :
    (∃ p next, pmmAllocContig cnt pmm = .ok (some (p * pageSize)) next ∧ FreeRun pmm cnt p ∧
      (∀ q < p, ¬ FreeRun pmm cnt q) ∧
      ∀ q, next.used q = true ↔ pmm.used q = true ∨ p ≤ q ∧ q < p + cnt) ∨
    pmmAllocContig cnt pmm = .ok none pmm ∧ ∀ p, ¬ FreeRun pmm cnt p := by
  rw [pmmAllocContig, if_neg (by omega), if_neg (by omega)]
  rcases findRun_firstPage countLe (show pmm.totalPages < _ by omega) with
    ⟨ha, none⟩ | ⟨p, hf, run, lowest⟩
  · rw [ha]
    exact .inr ⟨rfl, none⟩
  rw [hf]
  refine .inl ⟨p, _, rfl, run, lowest, fun q => ?_⟩
  obtain ⟨-, clearIff, -⟩ := setUsedPages_spec (nodup_range' _) fun q mem =>
    mem_clearBits.mpr (run.clear q mem).2
  have iff := (clearIff q).not
  rw [mem_range'_1, Bool.not_eq_false] at iff
  refine iff.trans ?_
  rw [not_and_or, Bool.not_eq_false, not_not]

def clearPages : Pmm := ⟨fun _ => 0, 0, 0, 0, 300, 0, 0, 0, 0⟩

theorem pmmAllocContig_lowest_clearPages :
    ∃ next, pmmAllocContig 2 clearPages = .ok (some (firstPage * pageSize)) next := by
  have free : FreeRun clearPages 2 firstPage := ⟨le_rfl, by decide, by decide⟩
  rcases pmmAllocContig_lowest (by decide : 2 ≤ 2) (by decide)
    (by decide : clearPages.totalPages ≤ _) with ⟨p, next, run, isRun, lowest, -⟩ | ⟨-, none⟩
  · have isFirst : p = firstPage :=
      le_antisymm (Nat.le_of_not_lt fun lt => lowest _ lt free) isRun.1
    exact ⟨next, isFirst ▸ run⟩
  · exact absurd free (none _)

structure Takes (pmm : Pmm) (pages : List Nat) (next : Pmm) : Prop where
  store : SameStore pmm next
  counted : Counted next
  clear_iff : ∀ p, next.used p = false ↔ pmm.used p = false ∧ p ∉ pages
  distinct : pages.Nodup
  wasClear : ∀ p ∈ pages, firstPage ≤ p ∧ p < pmm.totalPages ∧ pmm.used p = false

structure Gives (pmm : Pmm) (pages : List Nat) (next : Pmm) : Prop where
  store : SameStore pmm next
  counted : Counted next
  clear_iff : ∀ p, next.used p = false ↔ pmm.used p = false ∨ p ∈ pages

section
variable (counted : Counted pmm)
include counted

lemma takes_setUsedPages (nodup : pages.Nodup)
    (wasClear : ∀ p ∈ pages, firstPage ≤ p ∧ p < pmm.totalPages ∧ pmm.used p = false) :
    Takes pmm pages { pages.foldl Pmm.setUsed pmm with
      freePages := sub64 pmm.freePages pages.length } := by
  obtain ⟨store, usedIff, cardEq⟩ := setUsedPages_spec nodup
    fun p mem => mem_clearBits.mpr (wasClear p mem).2
  have cardLe : (clearBits pmm.used pmm.totalPages).card ≤ pmm.totalPages := card_clearBits_le
  have bound := counted.bound
  have countEq := counted.counted
  refine ⟨{ store with }, ⟨?_, ?_⟩, usedIff,
    nodup, wasClear⟩
  · change (pages.foldl Pmm.setUsed pmm).totalPages < 2 ^ 64
    rw [store.totalPages]
    exact bound
  change sub64 pmm.freePages pages.length =
    (clearBits (pages.foldl Pmm.setUsed pmm).used (pages.foldl Pmm.setUsed pmm).totalPages).card
  rw [store.totalPages, sub64_of_le (by omega) (by omega)]
  omega

lemma pmmAllocPage_spec : (pmmAllocPage pmm = (none, pmm) ∧
      ∀ p, firstPage ≤ p → p < pmm.totalPages → pmm.used p = true) ∨
    ∃ p next, pmmAllocPage pmm = (some (p * pageSize), next) ∧ Takes pmm [p] next := by
  unfold pmmAllocPage
  cases search : firstClear pmm.used firstPage pmm.totalPages with
  | none => exact .inl ⟨rfl, firstClear_eq_none search⟩
  | some p =>
    obtain ⟨high, pageLt, hc⟩ := firstClear_eq_some search
    right
    refine ⟨p, _, rfl, ?_⟩
    apply takes_setUsedPages counted (nodup_singleton p)
    intro o mem
    rw [mem_singleton.mp mem]
    exact ⟨high, pageLt, hc⟩

lemma pmmAllocContig_spec (countLe : cnt ≤ 2 ^ 52) (totalLt : pmm.totalPages < 2 ^ 63) :
    pmmAllocContig cnt pmm = .ok none pmm ∨
      ∃ p next, pmmAllocContig cnt pmm = .ok (some (p * pageSize)) next ∧
        Takes pmm (List.range' p cnt) next := by
  unfold pmmAllocContig
  by_cases zero : cnt = 0
  · rw [if_pos zero]
    exact .inl rfl
  rw [if_neg zero]
  by_cases one : cnt = 1
  · rw [if_pos one]
    rcases pmmAllocPage_spec counted with ⟨ha, _⟩ | ⟨p, next, hf, takes⟩
    · rw [ha]
      exact .inl rfl
    rw [hf, one]
    exact .inr ⟨p, next, rfl, takes⟩
  rw [if_neg one]
  rcases findRun_firstPage countLe totalLt with ⟨ha, -⟩ | ⟨fst, hf, run, -⟩
  · rw [ha]
    exact .inl rfl
  rw [hf]
  right
  refine ⟨fst, _, rfl, ?_⟩
  have taken := takes_setUsedPages counted (nodup_range' _) run.clear
  rwa [length_range'] at taken

lemma pmmFreePage_spec (high : firstPage ≤ p)
    (pageLt : p < pmm.totalPages) (ht : pmm.used p = true) :
    ∃ next, pmmFreePage (p * pageSize) pmm = .ok () next ∧ Gives pmm [p] next := by
  have pageEq : p * pageSize / pageSize = p := Nat.mul_div_cancel _ (by decide)
  have whole : p * pageSize % pageSize = 0 := Nat.mul_mod_left _ _
  have above := lowMemoryReservedEnd_le high
  have pos : p * pageSize ≠ 0 := by
    have : 0 < lowMemoryReservedEnd := by decide
    omega
  unfold pmmFreePage
  rw [if_neg (by simp [pos, whole]), if_neg (by omega), pageEq, if_neg (by omega),
    if_neg (by simp [ht])]
  obtain ⟨store, released, usedEq⟩ := releasePage_spec counted pageLt
  rw [releasePage, if_pos ht] at store released usedEq
  refine ⟨_, rfl, store, released, ?_⟩
  intro o
  rw [usedEq]
  by_cases same : o = p
  · simp [same]
  · simp [same]

lemma freePages_spec (nodup : pages.Nodup)
    (freeable : ∀ p ∈ pages, firstPage ≤ p ∧ p < pmm.totalPages ∧ pmm.used p = true) :
    ∃ next, Outcome.forEach pmmFreePage (pages.map (· * pageSize)) pmm = .ok () next ∧
      Gives pmm pages next := by
  induction pages generalizing pmm with
  | nil => exact ⟨pmm, rfl, SameStore.refl pmm, counted, by simp⟩
  | cons fst pages ih =>
    obtain ⟨high, firstLt, ht⟩ := freeable fst (by simp)
    obtain ⟨notLater, restNodup⟩ := nodup_cons.mp nodup
    obtain ⟨mid, freed, gives⟩ := pmmFreePage_spec counted high firstLt ht
    have restFreeable : ∀ p ∈ pages, firstPage ≤ p ∧ p < mid.totalPages ∧ mid.used p = true := by
      intro p mem
      obtain ⟨pageHigh, pageLt, pageTaken⟩ := freeable p (by simp [mem])
      refine ⟨pageHigh, gives.store.totalPages.symm ▸ pageLt, ?_⟩
      by_contra cleared
      rw [Bool.not_eq_true, gives.clear_iff] at cleared
      rcases cleared with hc | same
      · simp [pageTaken] at hc
      · exact notLater (mem_singleton.mp same ▸ mem)
    obtain ⟨next, rest, restGives⟩ := ih gives.counted restNodup restFreeable
    refine ⟨next, ?_, gives.store.trans restGives.store, restGives.counted, ?_⟩
    · rw [map_cons, Outcome.forEach_cons_of_ok freed]
      exact rest
    intro p
    rw [restGives.clear_iff, gives.clear_iff]
    simp [or_assoc]

end

lemma pmmFreeContig_eq (fits : ∀ i < cnt, (p + i) * pageSize < 2 ^ 64) :
    pmmFreeContig (p * pageSize) cnt pmm =
      Outcome.forEach pmmFreePage ((List.range' p cnt).map (· * pageSize)) pmm := by
  have addresses : (List.range' p cnt).map (· * pageSize) = (List.range cnt).map
    fun i => u64 (p * pageSize + u64 (i * pageSize)) := by
    rw [List.range'_eq_map_range, map_map]
    apply map_congr_left
    intro i mem
    have bound := fits i (mem_range.mp mem)
    rw [Nat.add_mul] at bound
    have indexBound : i * pageSize < 2 ^ 64 := by omega
    rw [Function.comp_apply, u64_of_lt indexBound, u64_of_lt bound, Nat.add_mul]
  rw [addresses, Outcome.forEach_map, pmmFreeContig]

end HnxKernel
