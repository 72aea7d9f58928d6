import Hnx.LifecycleBlocks

/-!
# The accounts of a lifecycle

The stack of a process goes to the pool, and its thread stays allocated.
-/

namespace HnxKernel

open Function

namespace Kernel

variable {cfg : KernelConfig} {k post : Kernel} {base rest : Multiset (Nat × Nat)}
  {caller : Option Nat}

variable {sp proc spaceBlock t pid stack b : Nat} {req : SpawnRequest}
  {pool left : List Nat} {ht kept blocks : Multiset (Nat × Nat)} {life : Lifecycle}
  {m : Machine} {size : Nat → Nat}

lemma userAddressSpaceCreate_ledger (led : HeapLedger cfg.arena k.heap base)
    (ret : userAddressSpaceCreate cfg k = .ok (some sp) post) :
    ∃ heap m pml4 b, post = { k with heap := heap, machine := m, pml4 := pml4 } ∧
      HeapLedger cfg.arena heap ({(sp, b)} + base) := by
  rw [userAddressSpaceCreate] at ret
  obtain ⟨record, recorded, req, ret⟩ := ok_of_bind ret
  obtain ⟨pml4, built, made, ret⟩ := ok_of_bind ret
  obtain ⟨m, _, rfl⟩ := ok_of_onMachine made
  cases record with
  | none => cases EStateM.Result.ok.inj ret |>.1
  | some =>
    obtain ⟨heap, b, rfl, _, kept⟩ := onHeap_kcalloc led (by norm_num) (by norm_num) req
    cases pml4 with
    | none =>
      obtain ⟨_, _, _, ret⟩ := ok_of_bind ret
      cases ret
    | some =>
      cases ret
      exact ⟨heap, m, _, b, rfl, kept⟩

lemma execLoad_ledger {pml4 e : Nat} {target : ExecTarget} (led : HeapLedger cfg.arena k.heap base)
    (ret : execLoad cfg pml4 target k = .ok (0, e) post) :
    ∃ heap m, post = { k with heap := heap, machine := m } ∧ HeapLedger cfg.arena heap base := by
  cases target with
  | unresolved =>
    have zero := (Prod.mk.inj (EStateM.Result.ok.inj ret).1).1
    omega
  | missing =>
    have zero := (Prod.mk.inj (EStateM.Result.ok.inj ret).1).1
    simp [sysEnoent] at zero
  | found _ size _ got =>
    have failed {code : Int} {next : Kernel} (ne0 : code ≠ 0)
      (eq : (return (code, 0) : EStateM Halt Kernel (Int × Nat)) next = .ok (0, e) post) :
      False :=
      ne0 (Prod.mk.inj (EStateM.Result.ok.inj eq).1).1
    rw [execLoad] at ret
    split at ret
    · exact (failed (by decide) ret).elim
    split at ret
    · exact (failed (by decide) ret).elim
    rename_i large
    obtain ⟨given, buffered, req, ret⟩ := ok_of_bind ret
    cases given with
    | none => exact (failed (by decide) ret).elim
    | some buf =>
      dsimp only at ret
      split at ret
      · obtain ⟨_, _, _, ret⟩ := ok_of_bind ret
        exact (failed (by decide) ret).elim
      rename_i whole
      have sizeEq : got.toInt = size := by
        by_contra ne
        exact whole (.inr ne)
      have gotLt := got.toInt_lt
      obtain ⟨heap, called, rfl⟩ := ok_of_onHeap req
      obtain ⟨b, _, kept⟩ := led.kmalloc (by simp only [hxeHeaderSize] at large; omega)
        (by omega) called
      obtain ⟨loaded, filled, hm, ret⟩ := ok_of_bind ret
      obtain ⟨m, _, rfl⟩ := ok_of_onMachine hm
      obtain ⟨_, freed, released, ret⟩ := ok_of_bind ret
      obtain ⟨left, freeing, leftLedger⟩ := @onHeap_kfree cfg
        { k with heap := heap, machine := m } base buf b kept
      rw [freeing] at released
      cases released
      cases loaded with
      | none => exact (failed (by decide) ret).elim
      | some =>
        cases ret
        exact ⟨left, m, rfl, leftLedger⟩

lemma fillSpace_ledger {pml4 : Nat} {req : SpawnRequest}
    (led : HeapLedger cfg.arena k.heap base) (ret : fillSpace cfg pml4 req k = .ok 0 post) :
    ∃ heap m, post = { k with heap := heap, machine := m } ∧ HeapLedger cfg.arena heap base := by
  rw [fillSpace] at ret
  obtain ⟨⟨code, e⟩, loaded, loading, ret⟩ := ok_of_bind ret
  dsimp only at ret
  split at ret
  · rename_i ne0
    exact absurd (EStateM.Result.ok.inj ret).1 ne0
  rename_i isZero
  rw [not_not] at isZero
  subst isZero
  obtain ⟨heap, m, rfl, kept⟩ := execLoad_ledger led loading
  obtain ⟨status, ranged, ranging, ret⟩ := ok_of_bind ret
  obtain ⟨rangedMachine, _, rfl⟩ := ok_of_onMachine ranging
  split at ret
  · simp [pure, EStateM.pure] at ret
  obtain ⟨stack, pushed, pushing, ret⟩ := ok_of_bind ret
  obtain ⟨pushedMachine, _, rfl⟩ := ok_of_onMachine pushing
  split at ret
  · simp [pure, EStateM.pure] at ret
  cases ret
  exact ⟨heap, pushedMachine, rfl, kept⟩

def Numbered (kern : Kernel) : Prop :=
  ∀ slot proc, kern.table slot = some proc → (kern.processes proc).pid < kern.nextPid

structure Created (config : KernelConfig) (kernel : Kernel) (caller : Option Nat)
    (pid process : Nat) (rest : Multiset (Nat × Nat)) : Prop where
  owns : ∃ fdsBlock spaceBlock processBlock, Owns config kernel (kernel.processes process).fds
    ({((kernel.processes process).fds, fdsBlock)} +
      ({((kernel.processes process).addressSpace, spaceBlock)} +
        ({(process, processBlock)} + rest)))
  listed : ∃ slot, kernel.table slot = some process
  pidEq : (kernel.processes process).pid = pid
  parentEq : (kernel.processes process).parentPid = caller.getD 0
  only : ∀ slot other, kernel.table slot = some other → (kernel.processes other).pid = pid →
    other = process
  numbered : Numbered kernel

lemma processTableAlloc_ledger (led : HeapLedger cfg.arena k.heap base)
    (ret : processTableAlloc cfg k = .ok (some proc) post) :
    ∃ heap b s, HeapLedger cfg.arena heap ({(proc, b)} + base) ∧ post = { k with
        heap := heap
        processes := update k.processes proc ⟨k.nextPid, 0, .new, 0, 0, 0, 0⟩
        nextPid := k.nextPid + 1
        table := update k.table s (some proc) } := by
  rw [processTableAlloc, get_bind] at ret
  cases search : (List.finRange 64).find? fun s => (k.table s).isNone with
  | none =>
    rw [search] at ret
    cases ret
  | some s =>
    rw [search] at ret
    obtain ⟨given, mid, req, ret⟩ := ok_of_bind ret
    cases given with
    | none => cases EStateM.Result.ok.inj ret |>.1
    | some =>
      obtain ⟨heap, b, rfl, _, kept⟩ := onHeap_kcalloc led (by norm_num) (by norm_num) req
      cases ret
      exact ⟨heap, b, s, kept, rfl⟩

lemma createRecord_created {console : Bool}
    (led : HeapLedger cfg.arena k.heap ({(sp, spaceBlock)} + base))
    (numbered : Numbered k)
    (ret : createRecord cfg caller sp console k = .ok (some proc) post) :
    Created cfg post caller k.nextPid proc base ∧
      post.freeStacks = k.freeStacks ∧ post.stackBase = k.stackBase := by
  rw [createRecord] at ret
  obtain ⟨given, entered, alloc, ret⟩ := ok_of_bind ret
  cases given with
  | none =>
    obtain ⟨_, _, _, ret⟩ := ok_of_bind ret
    cases ret
  | some ptr =>
    obtain ⟨heap, procBlk, s, kept, rfl⟩ := processTableAlloc_ledger led alloc
    dsimp only at ret
    rw [setProcess, modify_bind] at ret
    dsimp only at ret
    rw [update_self, update_idem] at ret
    obtain ⟨table, tabled, creating, ret⟩ := ok_of_bind ret
    rw [fdTableCreate] at creating
    obtain ⟨val, req, requesting, creating⟩ := ok_of_bind creating
    cases val with
    | none =>
      obtain ⟨_, failed, _⟩ := ok_of_onHeap requesting
      exact absurd failed (kept.kcalloc_ne_none (by norm_num) (by norm_num))
    | some fds =>
      obtain ⟨tableHeap, fdsBlock, rfl, _, tableKept⟩ := @onHeap_kcalloc cfg
        { k with
          heap := heap
          processes := update k.processes ptr
            ⟨k.nextPid, caller.getD 0, .new, 0, sp, 0, 0⟩
          nextPid := k.nextPid + 1
          table := update k.table s (some ptr) }
        _ _ 256 fds kept (by norm_num) (by norm_num) requesting
      cases creating
      dsimp only at ret
      rw [setProcess, modify_bind] at ret
      dsimp only at ret
      rw [update_self, update_idem] at ret
      obtain ⟨_, wired, wiring, ret⟩ := ok_of_bind ret
      obtain ⟨eq, rfl⟩ := EStateM.Result.ok.inj ret
      obtain rfl := Option.some.inj eq
      rw [add_left_comm {(ptr, procBlk)}] at tableKept
      obtain ⟨⟨_, _, _, _, rfl⟩, owned⟩ :=
        wireStdio_owns tableKept (fun s => congrFun (update_self fds _ k.entries) s) wiring
      refine ⟨⟨⟨fdsBlock, spaceBlock, procBlk, ?_⟩, ⟨s, update_self ..⟩, ?_, ?_, ?_, ?_⟩, rfl, rfl⟩
      · simpa only [update_self] using owned
      · simp
      · simp
      · intro other otherProc mem samePid
        by_contra ne
        dsimp only at mem samePid
        rw [update_of_ne ne] at samePid
        by_cases here : other = s
        · rw [here, update_self] at mem
          exact ne (Option.some.inj mem).symm
        rw [update_of_ne here] at mem
        have := numbered other otherProc mem
        omega
      intro other otherProc mem
      dsimp only at mem ⊢
      by_cases eq : otherProc = ptr
      · rw [eq, update_self]
        exact Nat.lt_succ_self _
      rw [update_of_ne eq]
      by_cases here : other = s
      · rw [here, update_self] at mem
        exact absurd (Option.some.inj mem).symm eq
      rw [update_of_ne here] at mem
      exact Nat.lt_succ_of_lt (numbered other otherProc mem)

lemma createFull_created (led : HeapLedger cfg.arena k.heap base) (numbered : Numbered k)
    (ret : createFull cfg caller req k = .ok (some proc) post) :
    Created cfg post caller k.nextPid proc base ∧ post.freeStacks = k.freeStacks := by
  rw [createFull] at ret
  obtain ⟨given, built, creating, ret⟩ := ok_of_bind ret
  cases given with
  | none => cases EStateM.Result.ok.inj ret |>.1
  | some =>
    obtain ⟨heap, m, pml4, b, rfl, kept⟩ := userAddressSpaceCreate_ledger led creating
    dsimp only at ret
    rw [get_bind] at ret
    obtain ⟨code, filled, fill, ret⟩ := ok_of_bind ret
    split at ret
    · obtain ⟨_, _, _, ret⟩ := ok_of_bind ret
      cases ret
    rename_i isZero
    rw [not_not] at isZero
    subst isZero
    obtain ⟨filledHeap, filledMachine, rfl, filledKept⟩ := @fillSpace_ledger cfg
      { k with heap := heap, machine := m, pml4 := pml4 } filled _ _ req kept
        fill
    obtain ⟨made, poolEq, _⟩ := createRecord_created filledKept (by exact numbered) ret
    exact ⟨made, poolEq⟩

inductive StackTaken (stack : Nat) : List Nat → List Nat → Multiset (Nat × Nat) → Prop
  | pooled (pool : List Nat) : StackTaken stack (stack :: pool) pool 0
  | fresh (size : Nat) : StackTaken stack [] [] {(stack, size)}

lemma stackAlloc_ledger {stack : Nat} (led : HeapLedger cfg.arena k.heap base)
    (ret : stackAlloc cfg k = .ok (some stack) post) :
    ∃ heap pool ht, post = { k with heap := heap, freeStacks := pool } ∧
      StackTaken stack k.freeStacks pool ht ∧
      HeapLedger cfg.arena heap (ht + base) := by
  rw [stackAlloc, get_bind] at ret
  cases poolEq : k.freeStacks with
  | nil =>
    rw [poolEq] at ret
    obtain ⟨heap, called, rfl⟩ := ok_of_onHeap ret
    obtain ⟨b, _, kept⟩ := led.kmalloc (by norm_num) (by norm_num) called
    refine ⟨heap, [], {(stack, b)}, ?_, .fresh b, kept⟩
    rw [← poolEq]
  | cons _ pool =>
    rw [poolEq] at ret
    cases ret
    exact ⟨k.heap, pool, 0, rfl, .pooled pool, by rwa [zero_add]⟩

lemma threadCreateRaw_ledger (led : HeapLedger cfg.arena k.heap base)
    (ret : threadCreateRaw cfg k = .ok (some t) post) :
    ∃ heap pool ht b stack, 112 ≤ b ∧ StackTaken stack k.freeStacks pool ht ∧
      HeapLedger cfg.arena heap (ht + ({(t, b)} + base)) ∧
      post = { k with
        heap := heap
        freeStacks := pool
        stackBase := update k.stackBase t stack } := by
  rw [threadCreateRaw] at ret
  obtain ⟨given, req, requesting, ret⟩ := ok_of_bind ret
  cases given with
  | none => cases EStateM.Result.ok.inj ret |>.1
  | some =>
    obtain ⟨heap, b, rfl, le, kept⟩ := onHeap_kcalloc led (by norm_num) (by norm_num) requesting
    obtain ⟨given, stacked, stacking, ret⟩ := ok_of_bind ret
    cases given with
    | none => cases EStateM.Result.ok.inj ret |>.1
    | some stack =>
      obtain ⟨stackHeap, pool, ht, rfl, source, stackKept⟩ := @stackAlloc_ledger cfg
        { k with heap := heap } stacked _ stack kept stacking
      cases ret
      exact ⟨stackHeap, pool, ht, b, stack, le, source, stackKept, rfl⟩

/-- A process that was spawned: its thread and its stack are allocated as well. -/
structure Spawned (config : KernelConfig) (kernel : Kernel) (caller : Option Nat)
    (pid process thread stack : Nat) (kept : Multiset (Nat × Nat)) : Prop
    extends Created config kernel caller pid process kept where
  threadEq : (kernel.processes process).mainThread = thread
  stackEq : kernel.stackBase thread = stack
  threadHeld : ∃ size, (thread, size) ∈ kept
  stackHeld : ∃ size, (stack, size) ∈ kept

lemma Created.space_ne_zero (made : Created cfg k caller pid proc rest) :
    (k.processes proc).addressSpace ≠ 0 := by
  obtain ⟨fdsBlock, spaceBlock, procBlk, blocks, led, _⟩ := made.owns
  exact led.pointer_pos (show (_, spaceBlock) ∈ _ by simp)

structure Sound (config : KernelConfig) (kernel : Kernel) (blocks : Multiset (Nat × Nat)) :
    Prop where
  ledger : HeapLedger config.arena kernel.heap blocks
  pooled : ∀ stack ∈ kernel.freeStacks, ∃ size, (stack, size) ∈ blocks
  room : kernel.freeStacks.length ≤ 64
  numbered : Numbered kernel

lemma StackTaken.held (source : StackTaken stack pool left ht)
    (pooled : ∀ other ∈ pool, ∃ size, (other, size) ∈ base) : ∃ size,
      (stack, size) ∈ ht + base := by
  cases source with
  | pooled =>
    obtain ⟨size, mem⟩ := pooled stack (by simp)
    exact ⟨size, by rwa [zero_add]⟩
  | fresh size => exact ⟨size, by simp⟩

lemma processSpawnArgv_spawned {pid : Int} (hs : Sound cfg k base)
    (ret : processSpawnArgv cfg caller req k = .ok pid post) (success : 0 ≤ pid) :
    ∃ proc t b stack ht, pid = k.nextPid ∧ 112 ≤ b ∧
      StackTaken stack k.freeStacks post.freeStacks ht ∧
      Spawned cfg post caller k.nextPid proc t stack
        ({(t, b)} + (ht + base)) := by
  rw [processSpawnArgv] at ret
  obtain ⟨given, built, creating, ret⟩ := ok_of_bind ret
  cases given with
  | none =>
    have := (EStateM.Result.ok.inj ret).1
    simp only [sysEnoent] at this
    omega
  | some proc =>
    obtain ⟨made, poolEq⟩ := createFull_created hs.ledger hs.numbered creating
    obtain ⟨given, threaded, threading, ret⟩ := ok_of_bind ret
    obtain ⟨fdsBlock, spaceBlock, procBlk, blocks, led, descriptors⟩ := made.owns
    cases given with
    | none =>
      dsimp only at ret
      rw [get_bind] at ret
      obtain ⟨_, _, _, ret⟩ := ok_of_bind ret
      obtain ⟨_, _, _, ret⟩ := ok_of_bind ret
      obtain ⟨_, _, _, ret⟩ := ok_of_bind ret
      have := (EStateM.Result.ok.inj ret).1
      simp only [sysEnomem] at this
      omega
    | some t =>
      obtain ⟨h, pool, ht, b, stack, le, source, kept, rfl⟩ := threadCreateRaw_ledger led threading
      dsimp only at ret
      rw [setProcess, modify_bind, get_bind] at ret
      obtain ⟨pidEq, rfl⟩ := EStateM.Result.ok.inj ret
      dsimp only at pidEq
      rw [update_self] at pidEq
      rw [poolEq] at source
      have arranged : ht + ({(t, b)} + (blocks + ({((built.processes proc).fds, fdsBlock)} +
          ({((built.processes proc).addressSpace, spaceBlock)} + ({(proc, procBlk)} + base))))) =
        blocks + ({((built.processes proc).fds, fdsBlock)} +
          ({((built.processes proc).addressSpace, spaceBlock)} +
            ({(proc, procBlk)} + ({(t, b)} + (ht + base))))) := by
        abel
      rw [arranged] at kept
      obtain ⟨stackSize, stackMem⟩ := source.held hs.pooled
      refine ⟨proc, t, b, stack, ht, ?_, le, source, ⟨⟨?_, made.listed, ?_,
        ?_, ?_, ?_⟩, ?_, ?_, ?_, ?_⟩⟩
      · rw [← pidEq, made.pidEq]
      · simp only [update_self]
        exact ⟨fdsBlock, spaceBlock, procBlk, blocks, kept, descriptors⟩
      · simp only [update_self]
        exact made.pidEq
      · simp only [update_self]
        exact made.parentEq
      · intro s other hl samePid
        by_contra ne
        dsimp only at samePid
        rw [update_of_ne ne] at samePid
        exact ne (made.only s other hl samePid)
      · intro s other hl
        have below := made.numbered s other hl
        by_cases eq : other = proc
        · subst eq
          simpa only [update_self] using below
        dsimp only
        rwa [update_of_ne eq]
      · simp
      · exact update_self ..
      · exact ⟨b, by simp⟩
      · exact ⟨stackSize, Multiset.mem_add.mpr (.inr stackMem)⟩

section
variable (spawned : Spawned cfg k caller pid proc t stack kept)
include spawned

lemma Spawned.touch {fdsBlock procBlk : Nat}
    (touches : Touches k post) (owns : Owns cfg post (k.processes proc).fds
      ({((k.processes proc).fds, fdsBlock)} +
        ({((k.processes proc).addressSpace, spaceBlock)} + ({(proc, procBlk)} + kept)))) :
    Spawned cfg post caller pid proc t stack kept := by
  obtain ⟨_, _, _, _, rfl⟩ := touches
  exact ⟨⟨⟨fdsBlock, spaceBlock, procBlk, owns⟩, spawned.listed, spawned.pidEq,
    spawned.parentEq, spawned.only, spawned.numbered⟩, spawned.threadEq, spawned.stackEq,
    spawned.threadHeld, spawned.stackHeld⟩

lemma Spawned.descriptorCall {action : EStateM Halt Kernel Unit}
    (keeps : ∀ {rest : Multiset (Nat × Nat)}, Owns cfg k (k.processes proc).fds rest →
      ∃ next, action k = .ok () next ∧ Touches k next ∧
        Owns cfg next (k.processes proc).fds rest) (ret : action k = .ok () post) :
    Spawned cfg post caller pid proc t stack kept ∧ Touches k post := by
  obtain ⟨fdsBlock, spaceBlock, procBlk, owns⟩ := spawned.owns
  obtain ⟨_, called, touches, owned⟩ := keeps owns
  rw [ret] at called
  cases called
  exact ⟨spawned.touch touches owned, touches⟩

lemma userCall_spawned {c : UserCall} (ret : userCall cfg proc c k = .ok () post) :
    Spawned cfg post caller pid proc t stack kept ∧ Touches k post := by
  obtain ⟨fdsBlock, spaceBlock, procBlk, owns⟩ := spawned.owns
  rw [userCall, get_bind] at ret
  cases c with
  | close fd => exact spawned.descriptorCall (fdClose_owns · fd) ret
  | dup fd => exact spawned.descriptorCall (sysDup_owns · fd) ret
  | dup2 oldfd newfd => exact spawned.descriptorCall (sysDup2_owns · oldfd newfd) ret
  | munmap =>
    obtain ⟨_, _, unmapping, ret⟩ := ok_of_bind ret
    obtain ⟨m, _, rfl⟩ := ok_of_onMachine unmapping
    cases ret
    exact ⟨spawned.touch (.onlyMachine k m) owns, .onlyMachine k m⟩
  | store =>
    obtain ⟨m, _, rfl⟩ := ok_of_onMachine ret
    exact ⟨spawned.touch (.onlyMachine k m) owns, .onlyMachine k m⟩
  | other =>
    cases ret
    exact ⟨spawned, .refl k⟩

lemma userCalls_spawned {cs : List UserCall}
    (ret : Outcome.forEach (userCall cfg proc) cs k = .ok () post) :
    Spawned cfg post caller pid proc t stack kept ∧ Touches k post := by
  induction cs generalizing k with
  | nil =>
    obtain ⟨_, rfl⟩ := EStateM.Result.ok.inj ret
    exact ⟨spawned, .refl k⟩
  | cons _ _ ih =>
    rw [Outcome.forEach] at ret
    obtain ⟨_, mid, called, ret⟩ := ok_of_bind ret
    obtain ⟨stays, touches⟩ := userCall_spawned spawned called
    obtain ⟨last, more⟩ := ih stays ret
    exact ⟨last, touches.trans more⟩

end

lemma Created.processByPid_eq {process : Nat}
    (made : Created cfg k caller pid process rest) : k.processByPid pid = some process := by
  obtain ⟨s, hl⟩ := made.listed
  rw [processByPid]
  cases search : (List.finRange 64).findSome? fun s =>
      (k.table s).filter fun process => (k.processes process).pid = pid with
  | none =>
    have missing := List.findSome?_eq_none_iff.mp search s (List.mem_finRange s)
    simp [hl, made.pidEq] at missing
  | some other =>
    obtain ⟨place, _, found⟩ := List.exists_of_findSome?_eq_some search
    obtain ⟨hp, samePid⟩ := Option.filter_eq_some_iff.mp found
    rw [made.only place other hp (by simpa using samePid)]

lemma processRun_spawned (spawned : Spawned cfg k caller pid proc t stack kept)
    (ret : processRun cfg pid life k = .ok () post) :
      Spawned cfg post caller pid proc t stack kept ∧
      post.freeStacks = k.freeStacks ∧ post.nextPid = k.nextPid := by
  rw [processRun, get_bind, spawned.processByPid_eq] at ret
  obtain ⟨_, mid, called, ended⟩ := ok_of_bind ret
  obtain ⟨stays, touches⟩ := userCalls_spawned spawned called
  obtain ⟨_, _, _, _, rfl⟩ := touches
  cases ended
  refine ⟨⟨⟨?_, stays.listed, ?_, ?_, ?_, ?_⟩, ?_, stays.stackEq, stays.threadHeld,
    stays.stackHeld⟩, rfl, rfl⟩
  · simp only [update_self]
    exact stays.owns
  · simp only [update_self]
    exact stays.pidEq
  · simp only [update_self]
    exact stays.parentEq
  · intro s other hl samePid
    by_contra ne
    dsimp only at samePid
    rw [update_of_ne ne] at samePid
    exact ne (stays.only s other hl samePid)
  · intro s other hl
    have below := stays.numbered s other hl
    by_cases eq : other = proc
    · subst eq
      simpa only [update_self] using below
    dsimp only
    rwa [update_of_ne eq]
  simp only [update_self]
  exact stays.threadEq

lemma userAddressSpaceDestroy_ledger (led : HeapLedger cfg.arena k.heap ({(sp, b)} + rest))
    (destroyed : HnxKernel.userAddressSpaceDestroy (k.pml4 sp) k.machine = .ok () m) :
    ∃ heap, userAddressSpaceDestroy cfg sp k = .ok () { k with heap := heap, machine := m } ∧
      HeapLedger cfg.arena heap rest := by
  obtain ⟨heap, freed, kept⟩ := @onHeap_kfree cfg
    { k with machine := m } rest sp b led
  refine ⟨heap, ?_, kept⟩
  rw [userAddressSpaceDestroy, if_neg led.first_ne_zero, get_bind,
    bind_of_ok (onMachine_of_ok destroyed), freed]

lemma threadReap_eq (threadPos : t ≠ 0)
    (stackPos : k.stackBase t ≠ 0) (roomy : k.freeStacks.length < 64) :
    threadReap t k = .ok () { k with
      freeStacks := k.stackBase t :: k.freeStacks
      stackBase := update k.stackBase t 0 } := by
  rw [threadReap, if_neg threadPos, get_bind, stackRelease, modify_bind, if_pos ⟨stackPos, roomy⟩]
  rfl

lemma processTableFree_ledger {Holds : Kernel → Prop}
    (led : HeapLedger cfg.arena k.heap ({(proc, b)} + rest))
    (mem : ∃ s, k.table s = some proc) (h : ∀ heap s, HeapLedger cfg.arena heap rest →
      Holds { k with heap := heap, table := update k.table s none }) :
    ∃ post, processTableFree cfg proc k = .ok () post ∧ Holds post := by
  rw [processTableFree, if_neg led.first_ne_zero, get_bind]
  cases search : (List.finRange 64).find? fun s => k.table s = some proc with
  | none =>
    obtain ⟨s, isListed⟩ := mem
    have missing := List.find?_eq_none.mp search s (List.mem_finRange s)
    simp [isListed] at missing
  | some s =>
    obtain ⟨heap, freed, kept⟩ := @onHeap_kfree cfg
      { k with table := update k.table s none } rest proc b led
    refine ⟨_, ?_, h heap s kept⟩
    dsimp only
    rw [modify_bind, freed]

/-- The stack goes to the pool and the thread stays. -/
lemma reap_ledger (spawned : Spawned cfg k caller pid proc t stack kept)
    (roomy : k.freeStacks.length < 64) (destroyed : HnxKernel.userAddressSpaceDestroy
      (k.pml4 (k.processes proc).addressSpace) k.machine = .ok () m) :
    ∃ post, reap cfg proc k = .ok () post ∧
      HeapLedger cfg.arena post.heap kept ∧ post.freeStacks = stack :: k.freeStacks ∧
      Numbered post := by
  obtain ⟨fdsBlock, spaceBlock, procBlk, blocks, led, descriptors⟩ := spawned.owns
  obtain ⟨threadSize, threadMem⟩ := spawned.threadHeld
  obtain ⟨stackSize, stackMem⟩ := spawned.stackHeld
  have inLedger {e : Nat × Nat} (mem : e ∈ kept) :
    e ∈ blocks + ({((k.processes proc).fds, fdsBlock)} +
      ({((k.processes proc).addressSpace, spaceBlock)} + ({(proc, procBlk)} + kept))) := by
    simp [mem]
  have threadPos := led.pointer_pos (inLedger threadMem)
  have stackPos := led.pointer_pos (inLedger stackMem)
  rw [add_left_comm {((k.processes proc).fds, fdsBlock)}, add_left_comm blocks] at led
  obtain ⟨heap, destroying, spaceFreed⟩ := userAddressSpaceDestroy_ledger led destroyed
  obtain ⟨fdsDropped, dropping, touches, fdsFreed⟩ := @fdTableDestroy_owns cfg
    { k with
      heap := heap
      machine := m
      processes := update k.processes proc
        { k.processes proc with addressSpace := 0 } }
    _ _ fdsBlock ⟨blocks, spaceFreed, descriptors⟩
  obtain ⟨_, _, _, _, rfl⟩ := touches
  rw [reap, get_bind, bind_of_ok destroying, setProcess, modify_bind]
  rw [bind_of_ok dropping, setProcess, modify_bind, spawned.threadEq]
  rw [bind_of_ok (threadReap_eq threadPos (by exact spawned.stackEq ▸ stackPos) (by exact roomy))]
  refine processTableFree_ledger (by exact fdsFreed) (by exact spawned.listed) ?_
  intro _ s recFreed
  refine ⟨recFreed, congrArg (· :: k.freeStacks) spawned.stackEq, ?_⟩
  intro place other hl
  have wasListed : k.table place = some other := by
    by_cases here : place = s
    · rw [here] at hl
      simp at hl
    dsimp only at hl
    rwa [update_of_ne here] at hl
  have below := spawned.numbered place other wasListed
  by_cases eq : other = proc
  · subst eq
    simpa only [update_self] using below
  dsimp only
  rwa [update_of_ne eq, update_of_ne eq]

lemma destroyed_of_reap (notNull : (k.processes proc).addressSpace ≠ 0)
    (ret : reap cfg proc k = .ok () post) : ∃ m, HnxKernel.userAddressSpaceDestroy
      (k.pml4 (k.processes proc).addressSpace) k.machine = .ok () m := by
  rw [reap, get_bind, userAddressSpaceDestroy, if_neg notNull] at ret
  obtain ⟨_, _, destroying, _⟩ := ok_of_bind ret
  rw [get_bind] at destroying
  obtain ⟨_, _, destroyed, _⟩ := ok_of_bind destroying
  obtain ⟨m, called, _⟩ := ok_of_onMachine destroyed
  exact ⟨m, called⟩

lemma processWait_ledger (spawned : Spawned cfg k caller pid proc t stack kept)
    (roomy : k.freeStacks.length < 64) (ret : processWait cfg caller pid k = .ok pid post) :
    HeapLedger cfg.arena post.heap kept ∧ post.freeStacks = stack :: k.freeStacks ∧
      Numbered post := by
  rw [processWait, get_bind, spawned.processByPid_eq] at ret
  dsimp only at ret
  split at ret
  · have code := (EStateM.Result.ok.inj ret).1
    simp only [sysEchild] at code
    omega
  split at ret
  · cases ret
  obtain ⟨_, _, reaping, ret⟩ := ok_of_bind ret
  cases ret
  obtain ⟨m, destroyed⟩ := destroyed_of_reap spawned.space_ne_zero reaping
  obtain ⟨_, again, collected⟩ := reap_ledger spawned roomy destroyed
  obtain ⟨_, rfl⟩ := EStateM.Result.ok.inj (reaping.symm.trans again)
  exact collected

lemma bytesInUse_eq (led : HeapLedger cfg.arena k.heap blocks)
    (pooled : ∀ stack ∈ k.freeStacks, (stack, size stack) ∈ blocks) :
    k.bytesInUse = ((blocks.map Prod.snd).sum : Nat) -
      ((k.freeStacks.map fun stack => (size stack : Int)).sum) := by
  rw [bytesInUse, led.bytesInUse]
  congr 2
  apply List.map_congr_left
  intro stack mem
  rw [led.blockSize_eq (pooled stack mem)]

lemma StackTaken.roomy
    (source : StackTaken stack pool left ht) (room : pool.length ≤ 64) : left.length < 64 := by
  cases source with
  | pooled => exact room
  | fresh => simp

lemma StackTaken.balance (source : StackTaken stack pool left ht)
    (pooled : ∀ other ∈ pool, (other, size other) ∈ base) :
    ∃ weight : Nat → Nat, (∀ other ∈ stack :: left, (other, weight other) ∈ ht + base) ∧
      ((stack :: left).map fun other => (weight other : Int)).sum =
        (pool.map fun other => (size other : Int)).sum + ((ht.map Prod.snd).sum : Nat) := by
  cases source with
  | pooled =>
    refine ⟨size, ?_, by simp⟩
    intro other mem
    rw [zero_add]
    exact pooled other mem
  | fresh stackBlk => exact ⟨fun _ => stackBlk, by simp, by simp⟩

lemma lifecycle_leaks (h : Sound cfg k blocks) (ret : lifecycle cfg caller life k = .ok true post) :
    ∃ (threadBlock : Nat) (more : Multiset (Nat × Nat)), 112 ≤ threadBlock ∧ Sound cfg post more ∧
      post.bytesInUse = k.bytesInUse + threadBlock := by
  rw [lifecycle] at ret
  obtain ⟨pid, started, spawning, ret⟩ := ok_of_bind ret
  split at ret
  · cases (EStateM.Result.ok.inj ret).1
  rename_i notNegative
  obtain ⟨proc, t, threadBlock, stack, ht, rfl, le, source, spawned⟩ :=
    processSpawnArgv_spawned h spawning (by omega)
  rw [Int.toNat_natCast] at ret
  obtain ⟨_, ended, running, ret⟩ := ok_of_bind ret
  obtain ⟨stays, poolEq, _⟩ := processRun_spawned spawned running
  obtain ⟨waited, _, waiting, ret⟩ := ok_of_bind ret
  obtain ⟨collected, rfl⟩ := EStateM.Result.ok.inj ret
  rw [of_decide_eq_true collected] at waiting
  obtain ⟨led, pushed, numbered⟩ := processWait_ledger stays (poolEq ▸ source.roomy h.room) waiting
  rw [poolEq] at pushed
  choose! size pooled using h.pooled
  obtain ⟨weight, weighed, balance⟩ := source.balance pooled
  rw [← pushed] at weighed balance
  have hl : ∀ other ∈ _, (other, weight other) ∈ {(t, threadBlock)} + (ht + blocks) :=
    fun other mem => Multiset.mem_add.mpr (.inr (weighed other mem))
  refine ⟨threadBlock, _, le, ⟨led, fun other mem => ⟨_, hl other mem⟩, ?_, numbered⟩, ?_⟩
  · rw [pushed]
    exact source.roomy h.room
  rw [bytesInUse_eq led hl, bytesInUse_eq h.ledger pooled, balance]
  simp only [Multiset.map_add, Multiset.sum_add, Multiset.map_singleton, Multiset.sum_singleton]
  push_cast
  ring

end Kernel

end HnxKernel
