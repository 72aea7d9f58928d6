import Hnx.PhysicalMemoryCalls

/-!
# Runs of the physical memory manager

`reserve_range` rounds the end of a range up to a page, which can wrap to zero.
-/

namespace HnxKernel

open Bitmap List

section

variable {next : Pmm}

structure PageSystem where
  pmm : Pmm
  held : List Nat

inductive PageCall
  | allocPage
  | allocContig (count : Nat)
  | freePage (address : Nat)
  | freeContig (address count : Nat)
  | store (address : Nat) (byte : UInt8)

def PageCall.Allowed (sys : PageSystem) : PageCall → Prop
  | .allocPage => True
  | .allocContig cnt => cnt ≤ 2 ^ 52
  | .freePage addr => ∃ page ∈ sys.held, addr = page * pageSize
  | .freeContig addr cnt => ∃ page, addr = page * pageSize ∧ ∀ idx < cnt, page + idx ∈ sys.held
  | .store addr _ => addr / pageSize ∈ sys.held

def recordPages (held : List Nat) (cnt : Nat) :
    Outcome Pmm (Option Nat) → Outcome PageSystem Unit
  | .ok (some addr) pmm => .ok () ⟨pmm, List.range' (addr / pageSize) cnt ++ held⟩
  | .ok none pmm => .ok () ⟨pmm, held⟩
  | .error halt pmm => .error halt ⟨pmm, held⟩

def dropPages (held pages : List Nat) : Outcome Pmm Unit → Outcome PageSystem Unit
  | .ok _ pmm => .ok () ⟨pmm, held.filter (· ∉ pages)⟩
  | .error halt pmm => .error halt ⟨pmm, held⟩

def PageCall.perform : PageCall → EStateM Halt PageSystem Unit
  | .allocPage => fun s =>
    recordPages s.held 1
      (.ok (pmmAllocPage s.pmm).1 (pmmAllocPage s.pmm).2)
  | .allocContig cnt => fun s => recordPages s.held cnt (pmmAllocContig cnt s.pmm)
  | .freePage addr => fun s => dropPages s.held [addr / pageSize] (pmmFreePage addr s.pmm)
  | .freeContig addr cnt => fun s =>
    dropPages s.held (List.range' (addr / pageSize) cnt)
      (pmmFreeContig addr cnt s.pmm)
  | .store addr byte => fun s =>
    .ok () { s with pmm := { s.pmm with memory := s.pmm.memory.fill addr 1 byte } }

def AllowedPageCalls : List PageCall → PageSystem → Prop
  | [], _ => True
  | call :: calls, s =>
    call.Allowed s ∧ ∀ next, call.perform s = .ok () next → AllowedPageCalls calls next

/-- Pages are handed out from a fixed set apart from the bitmap, each to one
holder at a time. -/
structure PageInvariant (available : Nat → Prop) (system : PageSystem) : Prop where
  counted : Counted system.pmm
  small : system.pmm.totalPages ≤ 2 ^ 52
  apart : ∀ page, available page → ∀ offset < (system.pmm.totalPages + 7) / 8,
    page ≠ (system.pmm.bitmap + offset) / pageSize
  clear : ∀ page < system.pmm.totalPages, firstPage ≤ page → system.pmm.used page = false →
    available page
  held : ∀ page ∈ system.held, firstPage ≤ page ∧ page < system.pmm.totalPages ∧
    system.pmm.used page = true ∧ available page
  distinct : system.held.Nodup

variable {avail : Nat → Prop} {s : PageSystem}

section
variable (inv : PageInvariant avail s)
include inv

lemma PageInvariant.takes {ps : List Nat} (takes : Takes s.pmm ps next) :
    PageInvariant avail ⟨next, ps ++ s.held⟩ where
  counted := takes.counted
  small := takes.store.totalPages.symm ▸ inv.small
  apart := by
    rw [takes.store.totalPages, takes.store.bitmap]
    exact inv.apart
  clear := by
    intro p hlt high clear
    rw [takes.store.totalPages] at hlt
    exact inv.clear p hlt high ((takes.clear_iff p).mp clear).1
  held := by
    intro p mem
    rw [takes.store.totalPages]
    have stays : ¬ (next.used p = false) := by
      rw [takes.clear_iff]
      rintro ⟨clear, notTaken⟩
      rcases mem_append.mp mem with ht | pre
      · exact notTaken ht
      · simp [(inv.held p pre).2.2.1] at clear
    rw [Bool.not_eq_false] at stays
    rcases mem_append.mp mem with ht | pre
    · obtain ⟨high, hlt, clear⟩ := takes.wasClear p ht
      exact ⟨high, hlt, stays, inv.clear p hlt high clear⟩
    obtain ⟨high, hlt, _, isAvailable⟩ := inv.held p pre
    exact ⟨high, hlt, stays, isAvailable⟩
  distinct := by
    apply takes.distinct.append inv.distinct
    intro p ht pre
    have clear := (takes.wasClear p ht).2.2
    simp [(inv.held p pre).2.2.1] at clear

lemma PageInvariant.gives {ps : List Nat} (gives : Gives s.pmm ps next)
    (ho : ∀ p ∈ ps, p ∈ s.held) : PageInvariant avail ⟨next, s.held.filter (· ∉ ps)⟩ where
  counted := gives.counted
  small := gives.store.totalPages.symm ▸ inv.small
  apart := by
    rw [gives.store.totalPages, gives.store.bitmap]
    exact inv.apart
  clear := by
    intro p hlt high clear
    rw [gives.store.totalPages] at hlt
    rcases (gives.clear_iff p).mp clear with pre | given
    · exact inv.clear p hlt high pre
    · exact (inv.held p (ho p given)).2.2.2
  held := by
    intro p mem
    rw [gives.store.totalPages]
    simp only [mem_filter, decide_eq_true_eq] at mem
    obtain ⟨pre, kept⟩ := mem
    obtain ⟨high, hlt, ht, isAvailable⟩ := inv.held p pre
    refine ⟨high, hlt, ?_, isAvailable⟩
    by_contra cleared
    rw [Bool.not_eq_true, gives.clear_iff] at cleared
    rcases cleared with clear | given
    · simp [ht] at clear
    · exact kept given
  distinct := inv.distinct.filter _

lemma PageInvariant.store {a : Nat} {byte : UInt8} (held : a / pageSize ∈ s.held) :
    PageInvariant avail { s with pmm := { s.pmm with memory := s.pmm.memory.fill a 1 byte } } := by
  have isAvailable := (inv.held _ held).2.2.2
  have sameBit : ∀ page < s.pmm.totalPages, bitTest (s.pmm.memory.fill a 1 byte) s.pmm.bitmap page =
      s.pmm.used page := by
    intro page hlt
    rw [bitTest, ByteMemory.fill_outside, Pmm.used, bitTest]
    have ne : a ≠ s.pmm.bitmap + page / 8 := by
      intro eq
      exact inv.apart _ isAvailable (page / 8) (by omega) (congrArg (· / pageSize) eq)
    omega
  constructor
  · refine ⟨inv.counted.bound, inv.counted.counted.trans ?_⟩
    congr 1
    ext page
    simp only [mem_clearBits, Pmm.used]
    constructor
    · rintro ⟨hlt, hc⟩
      exact ⟨hlt, (sameBit page hlt).trans hc⟩
    rintro ⟨hlt, hc⟩
    exact ⟨hlt, (sameBit page hlt).symm.trans hc⟩
  · exact inv.small
  · exact inv.apart
  · intro page hlt high hc
    exact inv.clear page hlt high ((sameBit page hlt).symm.trans hc)
  · intro page mem
    obtain ⟨high, hlt, ht, pageAvailable⟩ := inv.held page mem
    exact ⟨high, hlt, (sameBit page hlt).trans ht, pageAvailable⟩
  · exact inv.distinct

lemma PageInvariant.perform {c : PageCall} (allowed : c.Allowed s) :
    ∃ next, c.perform s = .ok () next ∧ PageInvariant avail next := by
  have pageEq (page : Nat) : page * pageSize / pageSize = page := Nat.mul_div_cancel _ (by decide)
  have small := inv.small
  cases c with
  | allocPage =>
    rw [PageCall.perform]
    beta_reduce
    rcases pmmAllocPage_spec inv.counted with ⟨ha, _⟩ | ⟨page, pmm, hf, takes⟩
    · rw [ha]
      exact ⟨_, rfl, inv⟩
    rw [hf, recordPages, pageEq]
    exact ⟨_, rfl, inv.takes takes⟩
  | allocContig =>
    rw [PageCall.perform]
    beta_reduce
    rcases pmmAllocContig_spec inv.counted allowed (by omega) with
      ha | ⟨page, pmm, hf, takes⟩
    · rw [ha]
      exact ⟨_, rfl, inv⟩
    rw [hf, recordPages, pageEq]
    exact ⟨_, rfl, inv.takes takes⟩
  | freePage =>
    obtain ⟨page, mem, rfl⟩ := allowed
    obtain ⟨high, pageLt, ht, _⟩ := inv.held page mem
    obtain ⟨pmm, freed, gives⟩ := pmmFreePage_spec inv.counted high pageLt ht
    rw [PageCall.perform]
    beta_reduce
    rw [freed, pageEq]
    exact ⟨_, rfl, inv.gives gives (by simpa using mem)⟩
  | freeContig a cnt =>
    obtain ⟨page, rfl, members⟩ := allowed
    have ho : ∀ other ∈ List.range' page cnt, other ∈ s.held := by
      intro other mem
      rw [mem_range'_1] at mem
      have otherEq : page + (other - page) = other := by omega
      rw [← otherEq]
      exact members _ (by omega)
    have fits : ∀ i < cnt, (page + i) * pageSize < 2 ^ 64 := by
      intro i hlt
      have pageLt := (inv.held _ (members i hlt)).2.1
      simp only [pageSize]
      omega
    obtain ⟨pmm, freed, gives⟩ := freePages_spec inv.counted (nodup_range' _)
      fun other mem =>
        have facts := inv.held other (ho other mem)
        ⟨facts.1, facts.2.1, facts.2.2.1⟩
    rw [PageCall.perform]
    beta_reduce
    rw [pmmFreeContig_eq fits, freed, pageEq]
    exact ⟨_, rfl, inv.gives gives ho⟩
  | store => exact ⟨_, rfl, inv.store allowed⟩

end

def performPageCalls (calls : List PageCall) : EStateM Halt PageSystem Unit :=
  Outcome.forEach PageCall.perform calls

lemma PageInvariant.performCalls {cs : List PageCall}
    (inv : PageInvariant avail s) (ha : AllowedPageCalls cs s) :
    ∃ next, performPageCalls cs s = .ok () next ∧ PageInvariant avail next := by
  induction cs generalizing s with
  | nil => exact ⟨s, rfl, inv⟩
  | cons _ _ ih =>
    obtain ⟨mid, performed, kept⟩ := inv.perform ha.1
    obtain ⟨next, r, final⟩ := ih kept (ha.2 mid performed)
    refine ⟨next, ?_, final⟩
    rw [performPageCalls, Outcome.forEach_cons_of_ok performed]
    exact r

end

variable {p : Nat} {pmm : Pmm}

lemma outside_of_notMem_reservedPages {start sz a : Nat}
    (hf : start + sz + 4095 < 2 ^ 64) (free : p ∉ reservedPages start sz)
    (inPage : a / pageSize = p) : ¬ (start ≤ a ∧ a < start + sz) := by
  rintro ⟨post, pre⟩
  apply free
  rw [reservedPages, if_neg (by omega), Finset.mem_Ico, u64_of_lt (by omega),
    pageAlignDown_eq (by omega), pageAlignUp_eq hf]
  simp only [pageSize] at inPage ⊢
  omega

section Statement

variable (ram : ByteMemory) (boot : Nat)

def ReservationHolds (start size : Nat) : Prop :=
  start + size + 4095 < 2 ^ 64 ∨
    ∀ address, start ≤ address → address < start + size → lowMemoryReservedEnd ≤ address →
      ¬ Conventional ram boot address

/-- The kernel image, `struct boot_info`, the UEFI map, the framebuffer and the
bitmap. -/
def protectedRanges (pmm : Pmm) : List (Nat × Nat) :=
  let info := bootInfoAt ram boot
  [(info.kernelBase, info.kernelSize), (boot, bootInfoSize), (info.mapBase, info.mapSize),
    (info.framebufferBase, info.framebufferSize), (pmm.bitmap, (pmm.totalPages + 7) / 8)]

structure SoundPages (sys : PageSystem) : Prop where
  counted : sys.pmm.freePages = (clearBits sys.pmm.used sys.pmm.totalPages).card
  high : ∀ p ∈ sys.held, lowMemoryReservedEnd ≤ p * pageSize
  conventional : ∀ p ∈ sys.held, ∀ address, address / pageSize = p → Conventional ram boot address
  outside : ∀ p ∈ sys.held, ∀ address, address / pageSize = p →
    ∀ range ∈ protectedRanges ram boot sys.pmm, ¬ (range.1 ≤ address ∧ address < range.1 + range.2)
  distinct : sys.held.Nodup

end Statement

variable {ram : ByteMemory} {boot : Nat}

def AvailablePage (ram : ByteMemory) (boot : Nat) (pmm : Pmm) (page : Nat) : Prop :=
  ConventionalPage ram boot (mapLength ram boot) page ∧
    ∀ range ∈ initRanges ram boot pmm, page ∉ reservedPages range.1 range.2

lemma AvailablePage.conventional {address : Nat}
    (h : SoundMap ram boot) (avail : AvailablePage ram boot pmm p)
    (inPage : address / pageSize = p) : Conventional ram boot address := by
  obtain ⟨⟨i, hlt, type, post, pre⟩, _⟩ := avail
  have aligned := h.aligned i hlt
  refine ⟨i, hlt, type, ?_⟩
  simp only [pageSize] at aligned inPage post pre ⊢
  omega

lemma AvailablePage.apart (hp : BitmapPlaced ram boot pmm) (avail : AvailablePage ram boot pmm p) :
    ∀ off < (pmm.totalPages + 7) / 8, p ≠ (pmm.bitmap + off) / pageSize := by
  intro off offsetLt same
  have aligned := hp.aligned
  have fits := hp.fits
  have pages := hp.pages
  have free := avail.2 (pmm.bitmap, pmm.bitmapPages * pageSize) (by simp [initRanges])
  have noWrap : pmm.bitmap + pmm.bitmapPages * pageSize + 4095 < 2 ^ 64 := by
    simp only [pageSize] at aligned fits ⊢
    omega
  apply outside_of_notMem_reservedPages noWrap free same.symm
  omega

lemma pmmInit_invariant (h : SoundMap ram boot) (init : pmmInit boot ram = .ok pmm) :
    PageInvariant (AvailablePage ram boot pmm) ⟨pmm, []⟩ := by
  obtain ⟨inited, clearIff⟩ := pmmInit_spec h init
  constructor
  · exact inited.counted
  · have total := inited.placed.total
    have hb : highestRam ram (bootInfoAt ram boot) (mapLength ram boot) <
      2 ^ 64 := highestRam_lt _ _
    simp only [pageSize] at total ⊢
    omega
  · intro p avail
    exact avail.apart inited.placed
  · intro p hlt _ hc
    exact (clearIff p hlt).mp hc
  · simp
  · simp

lemma PageInvariant.sound {sys : PageSystem} (hs : SoundMap ram boot)
    (kern : ReservationHolds ram boot (bootInfoAt ram boot).kernelBase
      (bootInfoAt ram boot).kernelSize)
    (framebuffer : ReservationHolds ram boot (bootInfoAt ram boot).framebufferBase
      (bootInfoAt ram boot).framebufferSize)
    (inv : PageInvariant (AvailablePage ram boot pmm) sys) : SoundPages ram boot sys := by
  have high : ∀ p ∈ sys.held, lowMemoryReservedEnd ≤ p * pageSize := by
    intro p mem
    exact lowMemoryReservedEnd_le (inv.held p mem).1
  have conventional : ∀ p ∈ sys.held, ∀ address, address / pageSize = p →
    Conventional ram boot address := by
    intro p mem address inPage
    exact (inv.held p mem).2.2.2.conventional hs inPage
  refine ⟨inv.counted.counted, high, conventional, ?_, inv.distinct⟩
  intro p mem address inPage range inRanges
  have isConventional := conventional p mem address inPage
  have avail := (inv.held p mem).2.2.2
  have addressHigh : lowMemoryReservedEnd ≤ address := by
    have := high p mem
    have := Nat.div_mul_le_self address pageSize
    rw [inPage] at this
    omega
  have hc {start sz : Nat} (h : ReservationHolds ram boot start sz)
    (reserved : (start, sz) ∈ initRanges ram boot pmm) :
    ¬ (start ≤ address ∧ address < start + sz) := by
    rcases h with hf | hd
    · exact outside_of_notMem_reservedPages hf (avail.2 _ reserved) inPage
    rintro ⟨post, pre⟩
    exact hd address post pre addressHigh isConventional
  have stored {start sz : Nat}
    (reserved : ∀ off < sz, ¬ Conventional ram boot (start + off)) :
    ¬ (start ≤ address ∧ address < start + sz) := by
    rintro ⟨post, pre⟩
    apply reserved (address - start) (by omega)
    rwa [Nat.add_sub_cancel' post]
  simp only [protectedRanges, mem_cons, not_mem_nil, or_false] at inRanges
  rcases inRanges with rfl | rfl | rfl | rfl | rfl
  · exact hc kern (by simp [initRanges])
  · exact stored hs.infoStored
  · exact stored hs.mapStored
  · exact hc framebuffer (by simp [initRanges])
  rintro ⟨post, pre⟩
  dsimp only at post pre
  apply inv.apart p avail (address - sys.pmm.bitmap) (by omega)
  rw [Nat.add_sub_cancel' post]
  exact inPage.symm

theorem pages_sound_of_allowedCalls {pmm : Pmm} {cs : List PageCall} (h : SoundMap ram boot)
    (kern : ReservationHolds ram boot (bootInfoAt ram boot).kernelBase
      (bootInfoAt ram boot).kernelSize)
    (framebuffer : ReservationHolds ram boot (bootInfoAt ram boot).framebufferBase
      (bootInfoAt ram boot).framebufferSize)
    (init : pmmInit boot ram = .ok pmm) (ha : AllowedPageCalls cs ⟨pmm, []⟩) :
    ∃ sys, performPageCalls cs ⟨pmm, []⟩ = .ok () sys ∧ SoundPages ram boot sys := by
  obtain ⟨sys, performed, inv⟩ := (pmmInit_invariant h init).performCalls ha
  exact ⟨sys, performed, inv.sound h kern framebuffer⟩

/-- 16 conventional pages at 2 MiB, with a framebuffer there. -/
def sampleMemory (framebufferSize : Nat) : ByteMemory :=
  [(0x1010, 0x2000), (0x1018, 40), (0x1020, 40), (0x1030, 0x200000), (0x1038, framebufferSize),
    (0x2000, 7), (0x2008, 0x200000), (0x2018, 16)].foldl
      (fun ram field => ram.writeLE field.1 8 field.2) fun _ => 0

def sampleInfo (framebufferSize : Nat) : BootInfo where
  mapBase := 0x2000
  mapSize := 40
  descriptorSize := 40
  framebufferBase := 0x200000
  framebufferSize := framebufferSize
  kernelBase := 0
  kernelSize := 0
  initramfsBase := 0
  initramfsSize := 0

structure ReadsSample (ram : ByteMemory) (framebufferSize : Nat) : Prop where
  info : bootInfoAt ram 0x1000 = sampleInfo framebufferSize
  entry : mapEntry ram 0x1000 0 = ⟨7, 0x200000, 16⟩

section Sample

variable {framebufferSize : Nat} (reads : ReadsSample ram framebufferSize)
include reads

lemma ReadsSample.mapLength_eq : mapLength ram 0x1000 = 1 := by
  rw [mapLength, reads.info]
  norm_num [sampleInfo]

lemma ReadsSample.conventional_iff {a : Nat} :
    Conventional ram 0x1000 a ↔ 0x200000 ≤ a ∧ a < 0x210000 := by
  rw [Conventional, reads.mapLength_eq]
  constructor
  · rintro ⟨i, hlt, _, mem⟩
    obtain rfl : i = 0 := by omega
    rw [reads.entry] at mem
    exact mem
  intro mem
  refine ⟨0, by norm_num, ?_⟩
  rw [reads.entry]
  exact ⟨rfl, mem⟩

lemma ReadsSample.soundMap (hb : 0x200000 + framebufferSize < 2 ^ 64) : SoundMap ram 0x1000 := by
  have onlyEntry : ∀ i < mapLength ram 0x1000, mapEntry ram 0x1000 i = ⟨7, 0x200000, 16⟩ := by
    intro i hlt
    rw [reads.mapLength_eq] at hlt
    obtain rfl : i = 0 := by omega
    exact reads.entry
  constructor
  · intro i hlt
    rw [onlyEntry i hlt]
    rfl
  · intro i hlt
    rw [onlyEntry i hlt]
    decide
  · decide
  · rw [reads.info]
    norm_num [sampleInfo]
  · rw [reads.info]
    norm_num [sampleInfo]
  · rw [reads.info]
    exact hb
  · intro off offsetLt
    rw [reads.conventional_iff]
    simp only [bootInfoSize] at offsetLt
    omega
  · intro off offsetLt
    rw [reads.info] at offsetLt ⊢
    rw [reads.conventional_iff]
    simp only [sampleInfo] at offsetLt ⊢
    omega
  intro i hlt off offsetLt
  rw [reads.mapLength_eq] at hlt
  obtain rfl : i = 0 := by omega
  rw [reads.info, reads.conventional_iff]
  have addrEq : descAddress (sampleInfo framebufferSize) 0 = 0x2000 := rfl
  rw [addrEq]
  simp only [descriptorBytes] at offsetLt
  omega

lemma ReadsSample.highestRam_eq : highestRam ram (bootInfoAt ram 0x1000) 1 = 0x210000 := by
  have entry := reads.entry
  rw [mapEntry] at entry
  simp only [highestRam, range_one, foldl_cons, foldl_nil, entry]
  decide

lemma ReadsSample.bitmapRegion_eq : bitmapRegion ram (bootInfoAt ram 0x1000) 1 1 = 0x200000 := by
  have entry := reads.entry
  rw [mapEntry] at entry
  have h : holdsBitmap 1 ⟨7, 0x200000, 16⟩ = true := by decide
  simp [bitmapRegion, range_one, entry, h]

lemma ReadsSample.bitmapPages_eq :
    pageAlignUp ((highestRam ram (bootInfoAt ram 0x1000) 1 / pageSize + 7) / 8) / pageSize = 1 := by
  rw [reads.highestRam_eq]
  decide

lemma ReadsSample.exists_init : ∃ pmm, pmmInit 0x1000 ram = .ok pmm := by
  have countEq : descCount (bootInfoAt ram 0x1000) = some 1 := by
    rw [reads.info]
    norm_num [descCount, sampleInfo]
  unfold pmmInit
  simp only [countEq, reads.bitmapPages_eq, reads.bitmapRegion_eq]
  exact ⟨_, rfl⟩

end Sample

lemma readsSample_empty : ReadsSample (sampleMemory 0) 0 := ⟨by decide, by decide⟩

theorem sampleMemory_sound_run :
    ∃ pmm, SoundMap (sampleMemory 0) 0x1000 ∧ pmmInit 0x1000 (sampleMemory 0) = .ok pmm ∧
      AllowedPageCalls [.allocPage, .allocContig 3] ⟨pmm, []⟩ ∧
      ∃ sys, performPageCalls [.allocPage, .allocContig 3] ⟨pmm, []⟩ = .ok () sys ∧
        SoundPages (sampleMemory 0) 0x1000 sys := by
  have sound := readsSample_empty.soundMap (by norm_num)
  obtain ⟨pmm, init⟩ := readsSample_empty.exists_init
  have ha : AllowedPageCalls [.allocPage, .allocContig 3] ⟨pmm, []⟩ :=
    ⟨trivial, fun _ _ => ⟨by norm_num [PageCall.Allowed], fun _ _ => trivial⟩⟩
  have kern : ReservationHolds (sampleMemory 0) 0x1000
    (bootInfoAt (sampleMemory 0) 0x1000).kernelBase
    (bootInfoAt (sampleMemory 0) 0x1000).kernelSize := by
    rw [readsSample_empty.info]
    exact .inl (by decide)
  have framebuffer : ReservationHolds (sampleMemory 0) 0x1000
    (bootInfoAt (sampleMemory 0) 0x1000).framebufferBase
    (bootInfoAt (sampleMemory 0) 0x1000).framebufferSize := by
    rw [readsSample_empty.info]
    exact .inl (by decide)
  exact ⟨pmm, sound, init, ha, pages_sound_of_allowedCalls sound kern framebuffer init ha⟩

def wideFramebuffer : Nat := 2 ^ 64 - 0x200001

lemma readsSample_wide : ReadsSample (sampleMemory wideFramebuffer) wideFramebuffer :=
  ⟨by decide, by decide⟩

lemma wideFramebuffer_clear (init : pmmInit 0x1000 (sampleMemory wideFramebuffer) = .ok pmm) :
    pmm.totalPages = 0x210 ∧ pmm.used 0x201 = false := by
  have reads := readsSample_wide
  obtain ⟨inited, clearIff⟩ := pmmInit_spec (reads.soundMap (by decide)) init
  obtain ⟨total, pagesEq, rg, _⟩ := inited.placed
  rw [reads.mapLength_eq, reads.highestRam_eq] at total
  have totalEq : pmm.totalPages = 0x210 := total
  have bitmapPages : pmm.bitmapPages = 1 := by
    rw [pagesEq, totalEq]
    decide
  rw [reads.mapLength_eq, bitmapPages, reads.bitmapRegion_eq] at rg
  refine ⟨totalEq, (clearIff 0x201 (by omega)).mpr ⟨?_, ?_⟩⟩
  · refine ⟨0, by rw [reads.mapLength_eq]; norm_num, ?_⟩
    rw [reads.entry]
    decide
  rw [initRanges, reads.info, rg, bitmapPages]
  decide

/-- `pmm_alloc_page` hands out a page of the framebuffer. -/
theorem wideFramebuffer_not_sound : ∃ pmm sys, SoundMap (sampleMemory wideFramebuffer) 0x1000 ∧
    pmmInit 0x1000 (sampleMemory wideFramebuffer) = .ok pmm ∧
    AllowedPageCalls [.allocPage] ⟨pmm, []⟩ ∧
    performPageCalls [.allocPage] ⟨pmm, []⟩ = .ok () sys ∧
    ¬ SoundPages (sampleMemory wideFramebuffer) 0x1000 sys := by
  have reads := readsSample_wide
  have sound := reads.soundMap (by decide)
  obtain ⟨pmm, init⟩ := reads.exists_init
  obtain ⟨totalEq, hc⟩ := wideFramebuffer_clear init
  have inv := pmmInit_invariant sound init
  have ha : AllowedPageCalls [.allocPage] ⟨pmm, []⟩ := ⟨trivial, fun _ _ => trivial⟩
  rcases pmmAllocPage_spec inv.counted with ⟨_, allUsed⟩ | ⟨p, next, hf, takes⟩
  · have taken := allUsed 0x201 (by decide) (by dsimp only; omega)
    simp [hc] at taken
  have pageEq : p * pageSize / pageSize = p := Nat.mul_div_cancel _ (by decide)
  have performed : performPageCalls [.allocPage] ⟨pmm, []⟩ = .ok () ⟨next, [p]⟩ := by
    have performed : PageCall.allocPage.perform ⟨pmm, []⟩ = .ok () ⟨next, [p]⟩ := by
      rw [PageCall.perform]
      beta_reduce
      rw [hf, recordPages, pageEq]
      rfl
    exact Outcome.forEach_cons_of_ok performed
  refine ⟨pmm, _, sound, init, ha, performed, ?_⟩
  intro soundPages
  have inside := reads.conventional_iff.mp
    (soundPages.conventional p (by simp) (p * pageSize) pageEq)
  apply soundPages.outside p (by simp) (p * pageSize) pageEq
    (0x200000, wideFramebuffer) (by simp [protectedRanges, reads.info, sampleInfo])
  simp only [wideFramebuffer]
  omega

end HnxKernel
