import Hnx.ByteMemory
import Hnx.KernelHalt

/-!
# The physical memory manager

The bitmap lies in the memory it manages, so every call is a function of the whole memory.
-/

namespace HnxKernel

section

def pageSize : Nat := 4096

def lowMemoryReservedEnd : Nat := 0x100000

def pageAlignDown (val : Nat) : Nat := alignDown val pageSize

def pageAlignUp (val : Nat) : Nat := alignUp val pageSize

lemma pageAlignDown_eq {val : Nat} (bound : val < 2 ^ 64) :
    pageAlignDown val = val / 4096 * 4096 := by
  have rounded := alignDown_two_pow bound (by norm_num : 12 ≤ 64)
  norm_num at rounded
  exact rounded

lemma pageAlignUp_eq {val : Nat} (bound : val + 4095 < 2 ^ 64) :
    pageAlignUp val = (val + 4095) / 4096 * 4096 := by
  have wide : val + (2 ^ 12 - 1) < 2 ^ 64 := by omega
  have rounded := alignUp_two_pow (by norm_num : 12 ≤ 64) wide
  norm_num at rounded
  exact rounded

structure BootInfo where
  mapBase : Nat
  mapSize : Nat
  descriptorSize : Nat
  framebufferBase : Nat
  framebufferSize : Nat
  kernelBase : Nat
  kernelSize : Nat
  initramfsBase : Nat
  initramfsSize : Nat
deriving DecidableEq

def bootInfoSize : Nat := 152

def bootInfoAt (ram : ByteMemory) (addr : Nat) : BootInfo where
  mapBase := ram.readLE (addr + 16) 8
  mapSize := ram.readLE (addr + 24) 8
  descriptorSize := ram.readLE (addr + 32) 8
  framebufferBase := ram.readLE (addr + 48) 8
  framebufferSize := ram.readLE (addr + 56) 8
  kernelBase := ram.readLE (addr + 104) 8
  kernelSize := ram.readLE (addr + 112) 8
  initramfsBase := ram.readLE (addr + 136) 8
  initramfsSize := ram.readLE (addr + 144) 8

structure Descriptor where
  type : Nat
  physicalStart : Nat
  numberOfPages : Nat
deriving DecidableEq

def descriptorBytes : Nat := 40

def efiConventionalMemory : Nat := 7

/-- The types from loader code to conventional memory, and the two ACPI types. -/
def efiTypeIsRam (type : Nat) : Bool := type ∈ [1, 2, 3, 4, 5, 6, 7, 9, 10]

def descAddress (boot : BootInfo) (idx : Nat) : Nat :=
  u64 (boot.mapBase + u64 (idx * boot.descriptorSize))

def descAt (ram : ByteMemory) (boot : BootInfo) (idx : Nat) : Descriptor where
  type := ram.readLE (descAddress boot idx) 4
  physicalStart := ram.readLE (descAddress boot idx + 8) 8
  numberOfPages := ram.readLE (descAddress boot idx + 24) 8

/-- `none` is the fault of a division by zero. -/
def descCount (boot : BootInfo) : Option Nat :=
  if boot.descriptorSize = 0 then
    none
  else
    some (boot.mapSize / boot.descriptorSize)

variable {ram o : ByteMemory}

lemma bootInfoAt_congr {address : Nat}
    (agree : ∀ i < bootInfoSize, ram (address + i) = o (address + i)) :
    bootInfoAt ram address = bootInfoAt o address := by
  have field (off : Nat) (mem : off + 8 ≤ bootInfoSize) :
    ram.readLE (address + off) 8 = o.readLE (address + off) 8 := by
    apply ByteMemory.readLE_congr
    intro i idxLt
    rw [Nat.add_assoc]
    exact agree _ (by omega)
  simp only [bootInfoSize] at field
  simp [bootInfoAt, field]

lemma descAt_congr {boot : BootInfo} {index : Nat}
    (agree : ∀ off < descriptorBytes, ram (descAddress boot index + off) =
      o (descAddress boot index + off)) : descAt ram boot index = descAt o boot index := by
  have field (off width : Nat) (mem : off + width ≤ descriptorBytes) :
    ram.readLE (descAddress boot index + off) width =
      o.readLE (descAddress boot index + off) width := by
    apply ByteMemory.readLE_congr
    intro pos posLt
    rw [Nat.add_assoc]
    exact agree _ (by omega)
  have typeEq := field 0 4 (by decide)
  have startEq := field 8 8 (by decide)
  have pagesEq := field 24 8 (by decide)
  simp only [Nat.add_zero] at typeEq
  simp [descAt, typeEq, startEq, pagesEq]

end

section

open Bitmap

structure Pmm where
  memory : ByteMemory
  bitmap : Nat
  bitmapBytes : Nat
  bitmapPages : Nat
  totalPages : Nat
  freePages : Nat
  reservedPages : Nat
  lowestPage : Nat
  highestAddress : Nat

namespace Pmm

def used (pmm : Pmm) (page : Nat) : Bool := bitTest pmm.memory pmm.bitmap page

def setUsed (pmm : Pmm) (page : Nat) : Pmm :=
  { pmm with memory := bitSet pmm.memory pmm.bitmap page }

def setFree (pmm : Pmm) (page : Nat) : Pmm :=
  { pmm with memory := bitClear pmm.memory pmm.bitmap page }

end Pmm

def reservePage (pmm : Pmm) (page : Nat) : Pmm :=
  if pmm.used page then
    pmm
  else
    { pmm.setUsed page with
      freePages := if pmm.freePages ≠ 0 then pmm.freePages - 1 else pmm.freePages }

def reserveRange (start size : Nat) (pmm : Pmm) : Pmm :=
  if size = 0 then
    pmm
  else
    let fst := pageAlignDown start / pageSize
    let last := pageAlignUp (u64 (start + size)) / pageSize
    (List.range' fst (min last pmm.totalPages - fst)).foldl reservePage pmm

def highestRam (ram : ByteMemory) (boot : BootInfo) (cnt : Nat) : Nat :=
  (List.range cnt).foldl (fun highest idx =>
    let descriptor := descAt ram boot idx
    if efiTypeIsRam descriptor.type then
      max highest (u64 (descriptor.physicalStart + u64 (descriptor.numberOfPages * pageSize)))
    else
      highest) 0

def holdsBitmap (bitmapPages : Nat) (descriptor : Descriptor) : Bool :=
  descriptor.type = efiConventionalMemory ∧ bitmapPages ≤ descriptor.numberOfPages ∧
    lowMemoryReservedEnd ≤ descriptor.physicalStart

def bitmapRegion (ram : ByteMemory) (boot : BootInfo) (cnt bitmapPages : Nat) : Nat :=
  match (List.range cnt).find? fun idx => holdsBitmap bitmapPages (descAt ram boot idx) with
  | some idx => (descAt ram boot idx).physicalStart
  | none => 0

def releasePage (pmm : Pmm) (page : Nat) : Pmm :=
  if pmm.used page then
    { pmm.setFree page with freePages := u64 (pmm.freePages + 1) }
  else
    pmm

def releaseDescriptor (boot : Nat) (pmm : Pmm) (idx : Nat) : Pmm :=
  let descriptor := descAt pmm.memory (bootInfoAt pmm.memory boot) idx
  if descriptor.type ≠ efiConventionalMemory then
    pmm
  else
    let fst := descriptor.physicalStart / pageSize
    let last := u64 (fst + descriptor.numberOfPages)
    (List.range' fst (min last pmm.totalPages - fst)).foldl releasePage pmm

def reserveKernel (boot : Nat) (pmm : Pmm) : Pmm :=
  let info := bootInfoAt pmm.memory boot
  reserveRange info.kernelBase info.kernelSize pmm

def reserveMap (boot : Nat) (pmm : Pmm) : Pmm :=
  let info := bootInfoAt pmm.memory boot
  reserveRange info.mapBase info.mapSize pmm

def reserveFramebuffer (boot : Nat) (pmm : Pmm) : Pmm :=
  let info := bootInfoAt pmm.memory boot
  reserveRange info.framebufferBase info.framebufferSize pmm

def reserveAll (boot : Nat) (pmm : Pmm) : Pmm :=
  let pmm := reserveRange 0 lowMemoryReservedEnd pmm
  let pmm := reserveKernel boot pmm
  let pmm := reserveRange boot bootInfoSize pmm
  let pmm := reserveMap boot pmm
  let pmm := reserveFramebuffer boot pmm
  reserveRange pmm.bitmap (u64 (pmm.bitmapPages * pageSize)) pmm

def firstClear (used : Nat → Bool) (start total : Nat) : Option Nat :=
  (List.range' start (total - start)).find? fun page => !used page

def firstPage : Nat := lowMemoryReservedEnd / pageSize

lemma lowMemoryReservedEnd_le {page : Nat} (high : firstPage ≤ page) :
    lowMemoryReservedEnd ≤ page * pageSize := by
  simp only [firstPage, lowMemoryReservedEnd, pageSize] at high ⊢
  omega

def recordCounters (pmm : Pmm) : Pmm :=
  { pmm with
    reservedPages := sub64 pmm.totalPages pmm.freePages
    lowestPage := match firstClear pmm.used firstPage pmm.totalPages with
      | some page => page * pageSize
      | none => 0 }

def allUsed (ram : ByteMemory) (highest bitmap : Nat) : Pmm :=
  let totalPages := highest / pageSize
  let bitmapBytes := (totalPages + 7) / 8
  { memory := ram.fill bitmap bitmapBytes 0xFF
    bitmap := bitmap
    bitmapBytes := bitmapBytes
    bitmapPages := pageAlignUp bitmapBytes / pageSize
    totalPages := totalPages
    freePages := 0
    reservedPages := 0
    lowestPage := 0
    highestAddress := highest }

def pmmInit (boot : Nat) (ram : ByteMemory) : Except Halt Pmm :=
  let info := bootInfoAt ram boot
  match descCount info with
  | none => .error .divideError
  | some cnt =>
    let highest := highestRam ram info cnt
    let bitmapPages := pageAlignUp ((highest / pageSize + 7) / 8) / pageSize
    let bitmap := bitmapRegion ram info cnt bitmapPages
    if bitmap = 0 then
      .error (.panic "pmm: no region for bitmap")
    else
      let freed := (List.range cnt).foldl (releaseDescriptor boot)
        (allUsed ram highest bitmap)
      .ok (recordCounters (reserveAll boot freed))

def pmmAllocPage (pmm : Pmm) : Option Nat × Pmm :=
  match firstClear pmm.used firstPage pmm.totalPages with
  | some page =>
    (some (page * pageSize), { pmm.setUsed page with freePages := sub64 pmm.freePages 1 })
  | none => (none, pmm)

def clearRun (used : Nat → Bool) (page : Nat) : Nat → Nat
  | 0 => 0
  | cnt + 1 => if used page then 0 else clearRun used (page + 1) cnt + 1

/-- The answer is `none` when the fuel does not suffice. -/
def findRun (used : Nat → Bool) (cnt total : Nat) : Nat → Nat → Option (Option Nat)
  | 0, _ => none
  | fuel + 1, page =>
    if u64 (page + cnt) ≤ total then
      let run := clearRun used page cnt
      if run = cnt then
        some (some page)
      else
        findRun used cnt total fuel (page + run + 1)
    else
      some none

def pmmAllocContig (cnt : Nat) (pmm : Pmm) : Outcome Pmm (Option Nat) :=
  if cnt = 0 then
    .ok none pmm
  else if cnt = 1 then
    let (page, pmm) := pmmAllocPage pmm
    .ok page pmm
  else
    match findRun pmm.used cnt pmm.totalPages (pmm.totalPages + 1) firstPage with
    | none => .error .hang pmm
    | some none => .ok none pmm
    | some (some page) =>
      .ok (some (page * pageSize))
        { (List.range' page cnt).foldl Pmm.setUsed pmm with
          freePages := sub64 pmm.freePages cnt }

def pmmFreePage (addr : Nat) : EStateM Halt Pmm Unit := fun pmm =>
  if addr = 0 ∨ addr % pageSize ≠ 0 then
    .error (.panicHex "pmm: invalid free" addr) pmm
  else if addr < lowMemoryReservedEnd then
    .error (.panicHex "pmm: free of reserved low memory" addr) pmm
  else if pmm.totalPages ≤ addr / pageSize then
    .error (.panicHex "pmm: free out of range" addr) pmm
  else if !pmm.used (addr / pageSize) then
    .error (.panicHex "pmm: double free" addr) pmm
  else
    .ok () { pmm.setFree (addr / pageSize) with freePages := u64 (pmm.freePages + 1) }

def pmmFreeContig (addr cnt : Nat) : EStateM Halt Pmm Unit :=
  Outcome.forEach (fun idx => pmmFreePage (u64 (addr + u64 (idx * pageSize))))
    (List.range cnt)

end

open Function
open Bitmap

structure SameStore (pmm next : Pmm) : Prop where
  bitmap : next.bitmap = pmm.bitmap
  bitmapPages : next.bitmapPages = pmm.bitmapPages
  totalPages : next.totalPages = pmm.totalPages
  outside : ∀ address, address < pmm.bitmap ∨ pmm.bitmap + (pmm.totalPages + 7) / 8 ≤ address →
      next.memory address = pmm.memory address

structure Counted (pmm : Pmm) : Prop where
  bound : pmm.totalPages < 2 ^ 64
  counted : pmm.freePages = (clearBits pmm.used pmm.totalPages).card

variable {pmm next : Pmm} {p : Nat}

lemma SameStore.refl (pmm : Pmm) : SameStore pmm pmm := ⟨rfl, rfl, rfl, fun _ _ => rfl⟩

lemma SameStore.trans {last : Pmm} (fst : SameStore pmm next) (snd : SameStore next last) :
    SameStore pmm last where
  bitmap := snd.bitmap.trans fst.bitmap
  bitmapPages := snd.bitmapPages.trans fst.bitmapPages
  totalPages := snd.totalPages.trans fst.totalPages
  outside := by
    intro a outside
    rw [← fst.outside a outside]
    apply snd.outside
    rw [fst.bitmap, fst.totalPages]
    exact outside

lemma used_setUsed : (pmm.setUsed p).used = update pmm.used p true := bitTest_bitSet

lemma used_setFree : (pmm.setFree p).used = update pmm.used p false := bitTest_bitClear

lemma sameStore_setUsed (hlt : p < pmm.totalPages) : SameStore pmm (pmm.setUsed p) where
  bitmap := rfl
  bitmapPages := rfl
  totalPages := rfl
  outside := fun _ _ => bitSet_outside (by omega)

lemma sameStore_setFree (hlt : p < pmm.totalPages) : SameStore pmm (pmm.setFree p) where
  bitmap := rfl
  bitmapPages := rfl
  totalPages := rfl
  outside := fun _ _ => bitClear_outside (by omega)

section
variable (counted : Counted pmm)
include counted

lemma reservePage_spec (hlt : p < pmm.totalPages) :
    SameStore pmm (reservePage pmm p) ∧ Counted (reservePage pmm p) ∧
      (reservePage pmm p).used = update pmm.used p true := by
  unfold reservePage
  by_cases ht : pmm.used p = true
  · rw [if_pos ht]
    refine ⟨SameStore.refl pmm, counted, ?_⟩
    rw [← ht, update_eq_self]
  rw [if_neg ht]
  have hc : p ∈ clearBits pmm.used pmm.totalPages := by simpa [hlt] using ht
  have dropped := card_clearBits_set hc
  have store := sameStore_setUsed hlt
  refine ⟨{ store with },
    ⟨counted.bound, ?_⟩, used_setUsed⟩
  have pos : pmm.freePages ≠ 0 := by
    rw [counted.counted]
    omega
  change (if pmm.freePages ≠ 0 then pmm.freePages - 1 else pmm.freePages) =
    (clearBits (pmm.setUsed p).used pmm.totalPages).card
  rw [if_pos pos, used_setUsed, counted.counted]
  omega

lemma releasePage_spec (hlt : p < pmm.totalPages) :
    SameStore pmm (releasePage pmm p) ∧ Counted (releasePage pmm p) ∧
      (releasePage pmm p).used = update pmm.used p false := by
  unfold releasePage
  by_cases ht : pmm.used p = true
  · rw [if_pos ht]
    have added := card_clearBits_clear hlt ht
    have atMost : (clearBits (update pmm.used p false) pmm.totalPages).card ≤ _ := card_clearBits_le
    have bound := counted.bound
    have store := sameStore_setFree hlt
    refine ⟨{ store with },
      ⟨counted.bound, ?_⟩, used_setFree⟩
    change u64 (pmm.freePages + 1) = (clearBits (pmm.setFree p).used pmm.totalPages).card
    rw [used_setFree, counted.counted, added, u64_of_lt (by omega)]
  rw [if_neg ht]
  refine ⟨SameStore.refl pmm, counted, ?_⟩
  have hc : pmm.used p = false := by simpa using ht
  rw [← hc, update_eq_self]

lemma foldPages_spec {step : Pmm → Nat → Pmm} {bit : Bool} {ps : List Nat}
    (each : ∀ {pmm : Pmm} {p : Nat}, Counted pmm → p < pmm.totalPages →
      SameStore pmm (step pmm p) ∧ Counted (step pmm p) ∧ (step pmm p).used = update pmm.used p bit)
    (pagesLt : ∀ p ∈ ps, p < pmm.totalPages) :
    SameStore pmm (ps.foldl step pmm) ∧ Counted (ps.foldl step pmm) ∧
      ∀ p, (ps.foldl step pmm).used p = if p ∈ ps then bit else pmm.used p := by
  induction ps generalizing pmm with
  | nil => exact ⟨SameStore.refl pmm, counted, by simp⟩
  | cons first ps ih =>
    obtain ⟨store, stepped, usedEq⟩ := each counted (pagesLt first (by simp))
    have restLt : ∀ p ∈ ps, p < (step pmm first).totalPages := by
      intro p mem
      rw [store.totalPages]
      exact pagesLt p (by simp [mem])
    obtain ⟨restStore, restCounted, restUsed⟩ := ih stepped restLt
    refine ⟨store.trans restStore, restCounted, ?_⟩
    intro p
    rw [List.foldl_cons, restUsed, usedEq]
    by_cases same : p = first
    · simp [same]
    · simp [same]

variable {ps : List Nat} (pagesLt : ∀ p ∈ ps, p < pmm.totalPages)
include pagesLt

lemma reservePages_spec :
    SameStore pmm (ps.foldl reservePage pmm) ∧ Counted (ps.foldl reservePage pmm) ∧
      ∀ p, (ps.foldl reservePage pmm).used p = false ↔ pmm.used p = false ∧ p ∉ ps := by
  obtain ⟨store, kept, usedEq⟩ := foldPages_spec counted reservePage_spec pagesLt
  exact ⟨store, kept, fun p => by simp [usedEq, and_comm]⟩

lemma releasePages_spec :
    SameStore pmm (ps.foldl releasePage pmm) ∧ Counted (ps.foldl releasePage pmm) ∧
      ∀ p, (ps.foldl releasePage pmm).used p = false ↔ pmm.used p = false ∨ p ∈ ps := by
  obtain ⟨store, kept, usedEq⟩ := foldPages_spec counted releasePage_spec pagesLt
  exact ⟨store, kept, fun p => by simp [usedEq, or_iff_not_imp_right]⟩

end

def reservedPages (start size : Nat) : Finset Nat :=
  if size = 0 then
    ∅
  else
    Finset.Ico (pageAlignDown start / pageSize) (pageAlignUp (u64 (start + size)) / pageSize)

lemma reserveRange_spec (start size : Nat) (counted : Counted pmm) :
    SameStore pmm (reserveRange start size pmm) ∧ Counted (reserveRange start size pmm) ∧
      ∀ p < pmm.totalPages, (reserveRange start size pmm).used p = false ↔
        pmm.used p = false ∧ p ∉ reservedPages start size := by
  unfold reserveRange
  by_cases he : size = 0
  · rw [if_pos he]
    refine ⟨SameStore.refl pmm, counted, ?_⟩
    simp [reservedPages, he]
  rw [if_neg he]
  have hi : ∀ p ∈ List.range' (pageAlignDown start / pageSize)
    (min (pageAlignUp (u64 (start + size)) / pageSize) pmm.totalPages -
      pageAlignDown start / pageSize), p < pmm.totalPages := by
    intro p mem
    rw [List.mem_range'_1] at mem
    omega
  obtain ⟨store, reserved, usedIff⟩ := reservePages_spec counted hi
  refine ⟨store, reserved, ?_⟩
  intro p hlt
  rw [usedIff, List.mem_range'_1, reservedPages, if_neg he, Finset.mem_Ico]
  constructor <;> rintro ⟨hc, hd⟩ <;> exact ⟨hc, by omega⟩

end HnxKernel
