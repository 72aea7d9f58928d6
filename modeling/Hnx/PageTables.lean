import Hnx.PhysicalMemoryCalls

/-!
# Page frames and page tables

The rest of the kernel sees a set of used frames, which the manager of `pmm.c` refines.
-/

namespace HnxKernel

section

open Function
open Bitmap

structure FramePool where
  totalPages : Nat
  used : Nat → Bool

namespace FramePool

def freePages (pool : FramePool) : Nat := (clearBits pool.used pool.totalPages).card

def allocPage (pool : FramePool) : Option Nat × FramePool :=
  match firstClear pool.used firstPage pool.totalPages with
  | some p => (some (p * pageSize), { pool with used := update pool.used p true })
  | none => (none, pool)

def freePage (addr : Nat) (pool : FramePool) : Outcome FramePool Unit :=
  if addr = 0 ∨ addr % pageSize ≠ 0 then
    .error (.panicHex "pmm: invalid free" addr) pool
  else if addr < lowMemoryReservedEnd then
    .error (.panicHex "pmm: free of reserved low memory" addr) pool
  else if pool.totalPages ≤ addr / pageSize then
    .error (.panicHex "pmm: free out of range" addr) pool
  else if !pool.used (addr / pageSize) then
    .error (.panicHex "pmm: double free" addr) pool
  else
    .ok () { pool with used := update pool.used (addr / pageSize) false }

def Managed (pool : FramePool) (page : Nat) : Prop := firstPage ≤ page ∧ page < pool.totalPages

variable {pool next : FramePool} {p : Nat}

lemma allocPage_cases (pool : FramePool) : pool.allocPage = (none, pool) ∨ ∃ p, pool.allocPage =
        (some (p * pageSize), { pool with used := update pool.used p true }) ∧
      pool.Managed p ∧ pool.used p = false := by
  unfold allocPage
  cases search : firstClear pool.used firstPage pool.totalPages with
  | none => exact .inl rfl
  | some p =>
    obtain ⟨high, pageLt, clear⟩ := firstClear_eq_some search
    exact .inr ⟨p, rfl, ⟨high, pageLt⟩, clear⟩

lemma freePage_of_used (managed : pool.Managed p) (taken : pool.used p = true) :
    pool.freePage (p * pageSize) = .ok () { pool with used := update pool.used p false } := by
  obtain ⟨high, pageLt⟩ := managed
  have pageEq : p * pageSize / pageSize = p := Nat.mul_div_cancel _ (by decide)
  have whole : p * pageSize % pageSize = 0 := Nat.mul_mod_left _ _
  have above := lowMemoryReservedEnd_le high
  have pos : p * pageSize ≠ 0 := by
    have : 0 < lowMemoryReservedEnd := by decide
    omega
  unfold freePage
  rw [if_neg (by simp [pos, whole]), if_neg (by omega), pageEq, if_neg (by omega),
    if_neg (by simp [taken])]

lemma used_of_freePage {a : Nat} (freed : pool.freePage a = .ok () next) :
    pool.used (a / pageSize) = true ∧ a % pageSize = 0 ∧
      next = { pool with used := update pool.used (a / pageSize) false } := by
  unfold freePage at freed
  split at freed
  · simp at freed
  rename_i valid
  split at freed
  · simp at freed
  split at freed
  · simp at freed
  split at freed
  · simp at freed
  rename_i taken
  simp only [EStateM.Result.ok.injEq, true_and] at freed
  refine ⟨by simpa using taken, ?_, freed.symm⟩
  by_contra unaligned
  exact valid (.inr unaligned)

end FramePool

def Pmm.pool (pmm : Pmm) : FramePool where
  totalPages := pmm.totalPages
  used := pmm.used

lemma pool_setUsed (pmm : Pmm) (p counter : Nat) :
    Pmm.pool { pmm.setUsed p with freePages := counter } =
      { pmm.pool with used := update pmm.pool.used p true } :=
  congrArg (FramePool.mk pmm.totalPages) used_setUsed

lemma pool_setFree (pmm : Pmm) (p counter : Nat) :
    Pmm.pool { pmm.setFree p with freePages := counter } =
      { pmm.pool with used := update pmm.pool.used p false } :=
  congrArg (FramePool.mk pmm.totalPages) used_setFree

lemma pmmAllocPage_refines (pmm : Pmm) :
    ((pmmAllocPage pmm).1, (pmmAllocPage pmm).2.pool) = pmm.pool.allocPage := by
  have searchEq : firstClear pmm.pool.used firstPage pmm.pool.totalPages =
    firstClear pmm.used firstPage pmm.totalPages := rfl
  unfold pmmAllocPage FramePool.allocPage
  rw [searchEq]
  generalize firstClear pmm.used firstPage pmm.totalPages = found
  cases found with
  | none => rfl
  | some =>
    dsimp only
    rw [pool_setUsed]

def poolOutcome {Value : Type} : Outcome Pmm Value → Outcome FramePool Value
  | .ok val pmm => .ok val pmm.pool
  | .error halt pmm => .error halt pmm.pool

lemma pmmFreePage_refines (address : Nat) (pmm : Pmm) :
    poolOutcome (pmmFreePage address pmm) = pmm.pool.freePage address := by
  have totalEq : pmm.pool.totalPages = pmm.totalPages := rfl
  have bitEq : pmm.pool.used (address / pageSize) = pmm.used (address / pageSize) := rfl
  unfold pmmFreePage FramePool.freePage
  rw [totalEq, bitEq]
  split
  · rfl
  split
  · rfl
  split
  · rfl
  split
  · rfl
  rw [poolOutcome, pool_setFree]
  rfl

/-- A frame to give back, or else a request for one. -/
def pmmServe : Option Nat → EStateM Halt Pmm (Option Nat)
  | none => fun pmm => .ok (pmmAllocPage pmm).1 (pmmAllocPage pmm).2
  | some addr => pmmFreePage addr >>= fun _ => pure none

def FramePool.serve : Option Nat → EStateM Halt FramePool (Option Nat)
  | none => fun pool => .ok pool.allocPage.1 pool.allocPage.2
  | some addr => freePage addr >>= fun _ => pure none

lemma poolOutcome_bind {Value Result : Type} {c : EStateM Halt Pmm Value}
    {d : EStateM Halt FramePool Value} {f : Value → EStateM Halt Pmm Result}
    {g : Value → EStateM Halt FramePool Result} (first : ∀ pmm, poolOutcome (c pmm) = d pmm.pool)
    (rest : ∀ val pmm, poolOutcome (f val pmm) = g val pmm.pool) (pmm : Pmm) :
    poolOutcome ((c >>= f) pmm) = (d >>= g) pmm.pool := by
  have eq := first pmm
  cases run : c pmm with
  | ok val post =>
    rw [run] at eq
    rw [bind_of_ok run, bind_of_ok eq.symm, rest]
  | error halt post =>
    rw [run] at eq
    rw [bind_of_error run, bind_of_error eq.symm]
    rfl

lemma pmmServe_refines (call : Option Nat) (pmm : Pmm) :
    poolOutcome (pmmServe call pmm) = FramePool.serve call pmm.pool := by
  cases call with
  | none =>
    show (.ok _ (pmmAllocPage pmm).2.pool : Outcome FramePool (Option Nat)) =
      .ok pmm.pool.allocPage.1 pmm.pool.allocPage.2
    rw [← pmmAllocPage_refines]
  | some addr => exact poolOutcome_bind (pmmFreePage_refines addr) (fun _ _ => rfl) pmm

/-- The manager and the pool give the same answers and halt in the same calls. -/
theorem pmm_refines_pool (calls : List (Option Nat)) (pmm : Pmm) :
    poolOutcome (calls.mapM pmmServe pmm) = calls.mapM FramePool.serve pmm.pool := by
  induction calls generalizing pmm with
  | nil => rfl
  | cons call calls ih =>
    rw [List.mapM_cons, List.mapM_cons]
    exact poolOutcome_bind (pmmServe_refines call)
      (fun _ => poolOutcome_bind ih fun _ _ => rfl) pmm

end

instance tableEntries_neZero : NeZero 512 := ⟨by decide⟩

structure Machine where
  memory : ByteMemory
  pool : FramePool

def pagePresent : Nat := 1

def pageWritable : Nat := 2

def pageUser : Nat := 4

def pageWriteThrough : Nat := 8

def pageCacheDisable : Nat := 16

def pageHuge : Nat := 128

def pageAddrMask : Nat := 0x000FFFFFFFFFF000

def largePageSize : Nat := 0x200000

inductive KStatus
  | ok
  | errAlign
  | errExists
  | errNotFound
deriving DecidableEq, Repr

def flagSet (entry flag : Nat) : Bool := entry &&& flag != 0

/-- `flags & ~PAGE_HUGE`. -/
def withoutHuge (flags : Nat) : Nat := flags &&& (2 ^ 64 - 1 - pageHuge)

def idxPml4 (va : Nat) : Fin 512 := Fin.ofNat 512 (va >>> 39)

def idxPdpt (va : Nat) : Fin 512 := Fin.ofNat 512 (va >>> 30)

def idxPd (va : Nat) : Fin 512 := Fin.ofNat 512 (va >>> 21)

def idxPt (va : Nat) : Fin 512 := Fin.ofNat 512 (va >>> 12)

/-- `table[index]`. -/
def entryAt (ram : ByteMemory) (tbl : Nat) (idx : Fin 512) : Nat := ram.readLE (tbl + 8 * idx) 8

/-- `table[index] = value`. -/
def setEntry (tbl : Nat) (idx : Fin 512) (val : Nat) : EStateM Halt Machine Unit :=
  modify fun mach => { mach with memory := mach.memory.writeLE (tbl + 8 * idx) 8 val }

def allocPage : EStateM Halt Machine (Option Nat) := fun mach =>
  .ok mach.pool.allocPage.1 { mach with pool := mach.pool.allocPage.2 }

def freePage (addr : Nat) : EStateM Halt Machine Unit := fun mach =>
  match mach.pool.freePage addr with
  | .ok _ pool => .ok () { mach with pool := pool }
  | .error halt pool => .error halt { mach with pool := pool }

def zeroBytes (addr len : Nat) : EStateM Halt Machine Unit :=
  modify fun mach => { mach with memory := mach.memory.fill addr len 0 }

def pagingNewTable : EStateM Halt Machine Nat := do
  match ← allocPage with
  | none => throw (.panic "paging: out of pages for table")
  | some phys =>
    zeroBytes phys pageSize
    return phys

def nextLevel (tbl : Nat) (idx : Fin 512) (levelFlags : Nat) : EStateM Halt Machine Nat := do
  let mach ← get
  let entry := entryAt mach.memory tbl idx
  if flagSet entry pagePresent then
    return entry &&& pageAddrMask
  else
    let next ← pagingNewTable
    setEntry tbl idx ((next &&& pageAddrMask) ||| pagePresent ||| levelFlags)
    return next

def interFlags (flags : Nat) : Nat := pagePresent ||| pageWritable ||| (flags &&& pageUser)

def pagingMap4k (pml4 va pa flags : Nat) : EStateM Halt Machine KStatus := do
  let pdpt ← nextLevel pml4 (idxPml4 va) (interFlags flags)
  let pd ← nextLevel pdpt (idxPdpt va) (interFlags flags)
  let mach ← get
  if flagSet (entryAt mach.memory pd (idxPd va)) pageHuge then
    return .errExists
  else
    let pt ← nextLevel pd (idxPd va) (interFlags flags)
    setEntry pt (idxPt va) ((pa &&& pageAddrMask) ||| withoutHuge flags ||| pagePresent)
    return .ok

def pagingMap2m (pml4 va pa flags : Nat) : EStateM Halt Machine KStatus := do
  if va % largePageSize ≠ 0 ∨ pa % largePageSize ≠ 0 then
    return .errAlign
  else
    let pdpt ← nextLevel pml4 (idxPml4 va) (interFlags flags)
    let pd ← nextLevel pdpt (idxPdpt va) (interFlags flags)
    setEntry pd (idxPd va)
      ((pa &&& pageAddrMask) ||| withoutHuge flags ||| pagePresent ||| pageHuge)
    return .ok

def pagingUnmap4k (pml4 va : Nat) : EStateM Halt Machine KStatus := do
  let mach ← get
  let pml4e := entryAt mach.memory pml4 (idxPml4 va)
  if !flagSet pml4e pagePresent then
    return .errNotFound
  else
    let pdpte := entryAt mach.memory (pml4e &&& pageAddrMask) (idxPdpt va)
    if !flagSet pdpte pagePresent then
      return .errNotFound
    else
      let pde := entryAt mach.memory (pdpte &&& pageAddrMask) (idxPd va)
      if !flagSet pde pagePresent || flagSet pde pageHuge then
        return .errNotFound
      else
        let pte := entryAt mach.memory (pde &&& pageAddrMask) (idxPt va)
        if !flagSet pte pagePresent then
          return .errNotFound
        else
          setEntry (pde &&& pageAddrMask) (idxPt va) 0
          return .ok

def pagingTranslate (ram : ByteMemory) (pml4 va : Nat) : Option Nat :=
  let pml4e := entryAt ram pml4 (idxPml4 va)
  if !flagSet pml4e pagePresent then
    none
  else
    let pdpte := entryAt ram (pml4e &&& pageAddrMask) (idxPdpt va)
    if !flagSet pdpte pagePresent then
      none
    else if flagSet pdpte pageHuge then
      some ((pdpte &&& pageAddrMask) ||| va % 2 ^ 30)
    else
      let pde := entryAt ram (pdpte &&& pageAddrMask) (idxPd va)
      if !flagSet pde pagePresent then
        none
      else if flagSet pde pageHuge then
        some ((pde &&& pageAddrMask) ||| va % largePageSize)
      else
        let pte := entryAt ram (pde &&& pageAddrMask) (idxPt va)
        if !flagSet pte pagePresent then
          none
        else
          some ((pte &&& pageAddrMask) ||| va % pageSize)

/-- The leaf entry, or zero, and whether it maps 2 MiB. -/
def walkLeaf (ram : ByteMemory) (pml4 va : Nat) : Nat × Bool :=
  let pml4e := entryAt ram pml4 (idxPml4 va)
  if !flagSet pml4e pagePresent then
    (0, false)
  else
    let pdpte := entryAt ram (pml4e &&& pageAddrMask) (idxPdpt va)
    if !flagSet pdpte pagePresent then
      (0, false)
    else if flagSet pdpte pageHuge then
      (pdpte, false)
    else
      let pde := entryAt ram (pdpte &&& pageAddrMask) (idxPd va)
      if !flagSet pde pagePresent then
        (0, false)
      else if flagSet pde pageHuge then
        (pde, true)
      else
        let pte := entryAt ram (pde &&& pageAddrMask) (idxPt va)
        if !flagSet pte pagePresent then
          (0, false)
        else
          (pte, false)

end HnxKernel
