import Hnx.LifecycleAccounts
import Hnx.SpaceRelease

/-!
# Lifecycles leak their threads

Every lifecycle leaves the block of its thread behind.
-/

namespace HnxKernel

open Function List

lemma RangeMapped.keeps {r fl p cnt fst size : Nat} {pre post : Machine}
    (hm : RangeMapped r fl p cnt pre post) (sp : UserSpace r pre)
    (ps : UserMapped pre.memory r fst size) : UserMapped post.memory r fst size := by
  intro a above mem
  have was := ps a above mem
  rw [← isSome_userByte] at was ⊢
  rw [hm.userByte sp]
  split
  · rfl
  · exact was

namespace Kernel

variable {cfg : KernelConfig} {k post : Kernel} {c : Option Nat} {r spare : Nat}
  {m : Machine}

lemma stackRange : UserRange (userStackTop - userStackSize) userStackSize 0x7FFFFFFBE 64 := by
  refine ⟨?_, ?_, ?_, ?_⟩ <;> decide

lemma heapRange : UserRange userHeapBase userHeapInitial 0x4000000 256 := by
  refine ⟨?_, ?_, ?_, ?_⟩ <;> decide

lemma brkRange : UserRange processBrkBase processBrkInitial 0x5000000 64 := by
  refine ⟨?_, ?_, ?_, ?_⟩ <;> decide

lemma mapInitialRanges_supplied (sp : UserSpace r m) (tidy : Tidy m.memory r)
    (noLarge : ∀ lp ∈ [0x3FFFFFF, 0x20000, 0x28000],
      largeLeaf m.memory r lp = none) (supply : Supply m.pool 1536) :
    ∃ post, mapInitialRanges (r * pageSize) m = .ok 0 post ∧ UserSpace r post ∧
      UserMapped post.memory r (userStackTop - userStackSize) userStackSize := by
  have free {fst n : Nat} {start : Machine} (lp : Nat)
    (mem : lp ∈ [0x3FFFFFF, 0x20000, 0x28000])
    (large : largeLeaf start.memory r = largeLeaf m.memory r)
    (hi : ∀ p, fst ≤ p → p < fst + n → p / 512 = lp) :
    ∀ p, fst ≤ p → p < fst + n → largeLeaf start.memory r (p / 512) = none := by
    intro p above below
    rw [large, hi p above below]
    exact noLarge lp mem
  obtain ⟨fst, run1, range1, firstTidy, left1⟩ :=
    @userMapRange_supplied r pageWritable _ m _ _ _ 1280 sp.ok tidy stackRange
      (free 0x3FFFFFF (by simp) rfl (by omega)) (supply.mono (by norm_num))
  have firstSpace := sp.mapRange range1
  obtain ⟨snd, run2, range2, secondTidy, left2⟩ :=
    @userMapRange_supplied r pageWritable _ fst _ _ _ 256 firstSpace.ok firstTidy heapRange
      (free 0x20000 (by simp) range1.largeLeaf_eq (by omega)) (left1.mono (by norm_num))
  have secondSpace := firstSpace.mapRange range2
  obtain ⟨third, run3, range3, -, -⟩ :=
    @userMapRange_supplied r pageWritable _ snd _ _ _ 0 secondSpace.ok secondTidy brkRange
      (free 0x28000 (by simp) (range2.largeLeaf_eq.trans range1.largeLeaf_eq) (by omega))
      (left2.mono (by norm_num))
  have stackMapped : UserMapped fst.memory r (userStackTop - userStackSize) userStackSize := by
    intro a above hi
    rw [← isSome_userByte, range1.userByte sp, if_pos]
    · rfl
    simp only [userStackTop, userStackSize, pageSize] at above hi ⊢
    omega
  refine ⟨third, ?_, secondSpace.mapRange range3,
    range3.keeps secondSpace (range2.keeps firstSpace stackMapped)⟩
  rw [mapInitialRanges, bind_of_ok run1, if_neg (by simp), bind_of_ok run2, if_neg (by simp), run3]

lemma buildUserStack_nil (space : UserSpace r m)
    (hm : UserMapped m.memory r (userStackTop - userStackSize) userStackSize) :
    ∃ sp post, buildUserStack (r * pageSize) [] m = .ok sp post ∧ sp ≠ 0 ∧ UserSpace r post := by
  have within {addr : Nat} {memory : ByteMemory}
    (ps : UserMapped memory r (userStackTop - userStackSize) userStackSize)
    (low : 0x7FFFFFFFDFF0 ≤ addr) (high : addr ≤ 0x7FFFFFFFDFF8) :
    UserMapped memory r addr 8 := by
    intro byte above mem
    apply ps
    all_goals
      simp only [userStackTop, userStackSize]
      omega
  have pushed : pushStrings (r * pageSize) ([].take 32) userStackTop [] m =
    .ok (some (userStackTop, [])) m := rfl
  have baseEq : sub64 (if (([] : List Nat).length + 2) % 2 = 1 then
    sub64 (alignDown userStackTop 16) 8 else alignDown userStackTop 16)
    ((([] : List Nat).length + 2) * 8) = 0x7FFFFFFFDFF0 := by decide
  obtain ⟨fst, run1, written1⟩ := @userCopyToSpace_mapped r 0x7FFFFFFFDFF0 8
    (wordBytes 0) m space (by norm_num) (within hm (by norm_num) (by norm_num))
  have firstSpace := written1.userSpace space
  obtain ⟨second, run2, written2⟩ := @userCopyToSpace_mapped r 0x7FFFFFFFDFF8 8
    (wordBytes 0) fst firstSpace (by norm_num)
    (within (written1.mapped hm) (by norm_num) (by norm_num))
  have words : pushWords (r * pageSize) [0, 0] 0x7FFFFFFFDFF0 m = .ok 0 second := by
    rw [pushWords, bind_of_ok run1, if_neg (by simp), pushWords,
      show u64 (0x7FFFFFFFDFF0 + 8) = 0x7FFFFFFFDFF8 by decide, bind_of_ok run2,
      if_neg (by simp)]
    rfl
  refine ⟨0x7FFFFFFFDFF0, second, ?_, by norm_num, written2.userSpace firstSpace⟩
  rw [buildUserStack, bind_of_ok pushed]
  dsimp only
  rw [baseEq]
  exact bind_of_ok words

lemma onHeap_kcalloc_room {sz : Nat}
    (room : HeapRoom cfg.arena k.heap (blockNeed sz + spare)) (pos : 0 < sz)
    (bound : sz + 31 < 2 ^ 64) (le : 32 ≤ spare) :
    ∃ ptr heap, onHeap (kcalloc cfg.arena 1 sz) k = .ok (some ptr) { k with heap := heap } ∧
      HeapRoom cfg.arena heap spare := by
  obtain ⟨ptr, heap, called, left⟩ := room.kcalloc pos bound le
  exact ⟨ptr, heap, onHeap_of_ok called, left⟩

lemma userAddressSpaceCreate_room (room : HeapRoom cfg.arena k.heap (blockNeed 8 + spare))
    (le : 32 ≤ spare) (made : HnxKernel.userAddressSpaceCreate cfg.bootInfo cfg.lapicBase true
      k.machine = .ok (some (r * pageSize)) m) :
    ∃ sp heap, userAddressSpaceCreate cfg k = .ok (some sp) { k with
        heap := heap
        machine := m
        pml4 := update k.pml4 sp (r * pageSize) } ∧
      HeapRoom cfg.arena heap spare := by
  obtain ⟨sp, heap, req, left⟩ := onHeap_kcalloc_room room (by norm_num) (by norm_num) le
  refine ⟨sp, heap, ?_, left⟩
  rw [userAddressSpaceCreate, bind_of_ok req, Option.isSome_some,
    bind_of_ok (onMachine_of_ok (by exact made))]
  rfl

lemma execLoad_room {size e : Nat} {bs : ByteMemory} {got : Int64}
    (room : HeapRoom cfg.arena k.heap (blockNeed size + spare)) (le : 32 ≤ spare)
    (large : hxeHeaderSize ≤ size) (whole : got.toInt = size)
    (loaded : userLoaderLoad (r * pageSize) bs size k.machine = .ok (some e) m) :
    ∃ heap, execLoad cfg (r * pageSize) (.found true size bs got) k =
        .ok (0, e) { k with heap := heap, machine := m } ∧
      HeapRoom cfg.arena heap spare := by
  have gotLt := got.toInt_lt
  have pos : 0 < size := by
    simp only [hxeHeaderSize] at large
    omega
  obtain ⟨buf, buffered, called, left⟩ := room.kmalloc pos (by omega) le
  obtain ⟨_, hs, _⟩ := room
  have led : HeapLedger cfg.arena k.heap _ := ⟨_, hs, rfl⟩
  obtain ⟨b, _, kept⟩ := led.kmalloc pos (by omega) called
  obtain ⟨freed, freeing, _⟩ := kept.kfree
  refine ⟨freed, ?_, left.kfree kept freeing⟩
  rw [execLoad, if_neg (by simp), if_neg (by omega), bind_of_ok (onHeap_of_ok called)]
  dsimp only
  rw [if_neg (by omega), bind_of_ok (onMachine_of_ok (by exact loaded)),
    bind_of_ok (onHeap_of_ok (by exact freeing))]
  rfl

lemma processTableAlloc_room (room : HeapRoom cfg.arena k.heap (blockNeed 1008 + spare))
    (le : 32 ≤ spare) (free : ∃ s, k.table s = none) :
    ∃ proc heap s, processTableAlloc cfg k = .ok (some proc) { k with
        heap := heap
        processes := update k.processes proc ⟨k.nextPid, 0, .new, 0, 0, 0, 0⟩
        nextPid := k.nextPid + 1
        table := update k.table s (some proc) } ∧
      HeapRoom cfg.arena heap spare := by
  obtain ⟨proc, heap, req, left⟩ := onHeap_kcalloc_room room (by norm_num) (by norm_num) le
  rw [processTableAlloc, get_bind]
  cases search : (List.finRange 64).find? fun s => (k.table s).isNone with
  | none =>
    obtain ⟨s, isFree⟩ := free
    have missing := List.find?_eq_none.mp search s (mem_finRange s)
    simp [isFree] at missing
  | some s => exact ⟨proc, heap, s, (bind_of_ok req).trans rfl, left⟩

lemma fdTableCreate_room (room : HeapRoom cfg.arena k.heap (blockNeed 256 + spare))
    (le : 32 ≤ spare) : ∃ fds heap, fdTableCreate cfg k = .ok (some fds) { k with
        heap := heap
        entries := update k.entries fds fun _ => none } ∧
      HeapRoom cfg.arena heap spare := by
  obtain ⟨fds, heap, req, left⟩ := onHeap_kcalloc_room room (by norm_num) (by norm_num) le
  exact ⟨fds, heap, (bind_of_ok req).trans rfl, left⟩

lemma createRecord_room {space : Nat}
    (room : HeapRoom cfg.arena k.heap (blockNeed 1008 + (blockNeed 256 + spare)))
    (le : 32 ≤ spare) (free : ∃ s, k.table s = none) :
    ∃ proc post, createRecord cfg c space false k = .ok (some proc) post ∧
      HeapRoom cfg.arena post.heap spare ∧ post.machine = k.machine ∧
      post.pml4 = k.pml4 ∧ (post.processes proc).addressSpace = space := by
  obtain ⟨proc, heap, s, entered, left⟩ := processTableAlloc_room room (by omega) free
  obtain ⟨fds, tableHeap, tabled, tableLeft⟩ := @fdTableCreate_room cfg
    { k with
      heap := heap
      processes := update k.processes proc
        ⟨k.nextPid, c.getD 0, .new, 0, space, 0, 0⟩
      nextPid := k.nextPid + 1
      table := update k.table s (some proc) } spare left le
  refine ⟨proc, { k with
    heap := tableHeap
    processes := update k.processes proc
      ⟨k.nextPid, c.getD 0, .new, 0, space, 0, fds⟩
    nextPid := k.nextPid + 1
    table := update k.table s (some proc)
    entries := update k.entries fds fun _ => none }, ?_, tableLeft, rfl, rfl, ?_⟩
  · rw [createRecord, bind_of_ok entered]
    dsimp only
    rw [setProcess, modify_bind]
    dsimp only
    rw [update_self, update_idem]
    refine (bind_of_ok tabled).trans ?_
    dsimp only
    rw [setProcess, modify_bind]
    dsimp only
    rw [update_self, update_idem]
    rfl
  · simp only [update_self]

lemma stackAlloc_room (room : HeapRoom cfg.arena k.heap (blockNeed 16384 + spare))
    (le : 32 ≤ spare) : ∃ heap pool stack, stackAlloc cfg k =
      .ok (some stack) { k with heap := heap, freeStacks := pool } := by
  rw [stackAlloc, get_bind]
  cases k.freeStacks with
  | nil =>
    obtain ⟨stack, heap, called, _⟩ := room.kmalloc (by norm_num) (by norm_num) le
    exact ⟨heap, k.freeStacks, stack, onHeap_of_ok called⟩
  | cons stack pool => exact ⟨k.heap, pool, stack, rfl⟩

lemma threadCreateRaw_room
    (room : HeapRoom cfg.arena k.heap (blockNeed 96 + (blockNeed 16384 + spare)))
    (le : 32 ≤ spare) : ∃ t heap pool stack, threadCreateRaw cfg k = .ok (some t) { k with
      heap := heap
      freeStacks := pool
      stackBase := update k.stackBase t stack } := by
  obtain ⟨t, heap, req, left⟩ := onHeap_kcalloc_room room (by norm_num) (by norm_num) (by omega)
  obtain ⟨stackHeap, pool, stack, stacking⟩ :=
    @stackAlloc_room cfg { k with heap := heap } spare left le
  refine ⟨t, stackHeap, pool, stack, ?_⟩
  rw [threadCreateRaw, bind_of_ok req]
  exact (bind_of_ok stacking).trans rfl

structure Starts (config : KernelConfig) (request : SpawnRequest) (before : Machine) (root : Nat)
    (post : Machine) : Prop where
  fills : ∃ created loaded ranged size bytes got entry sp,
    request = ⟨.found true size bytes got, [], false⟩ ∧ hxeHeaderSize ≤ size ∧ size ≤ 4096 ∧
    got.toInt = size ∧
    HnxKernel.userAddressSpaceCreate config.bootInfo config.lapicBase true before =
      .ok (some (root * pageSize)) created ∧
    userLoaderLoad (root * pageSize) bytes size created = .ok (some entry) loaded ∧
    mapInitialRanges (root * pageSize) loaded = .ok 0 ranged ∧
    buildUserStack (root * pageSize) [] ranged = .ok sp post ∧ sp ≠ 0
  space : UserSpace root post

lemma createFull_room {req : SpawnRequest} (starts : Starts cfg req k.machine r m)
    (room : HeapRoom cfg.arena k.heap 40000) (free : ∃ s, k.table s = none) :
    ∃ proc post, createFull cfg c req k = .ok (some proc) post ∧
      HeapRoom cfg.arena post.heap 20000 ∧ post.machine = m ∧
      post.pml4 (post.processes proc).addressSpace = r * pageSize := by
  obtain ⟨made, loaded, ranged, size, bs, got, e, sp, rfl, large, small, whole, creating,
    loading, ranging, stacking, notNull⟩ := starts.fills
  have needSize : blockNeed size ≤ 5000 := by
    have wordEq : u64 (headerSize + size) = headerSize + size :=
      u64_of_lt (by simp only [headerSize]; omega)
    have rounded : alignUp (headerSize + size) heapAlign = (headerSize + size + 15) / 16 * 16 :=
      alignUp_two_pow (by norm_num : 4 ≤ 64) (by simp only [headerSize]; omega)
    rw [blockNeed, wordEq, rounded]
    simp only [headerSize]
    omega
  have needImage : blockNeed size + 22000 ≤ 39000 :=
    Nat.add_le_add needSize (by norm_num : 22000 ≤ 34000)
  have needRecord : blockNeed 1008 + (blockNeed 256 + 20000) ≤ 22000 := by decide +kernel
  have needSpace : blockNeed 8 + 39000 ≤ 40000 := by decide +kernel
  obtain ⟨space, heap, spaced, left⟩ :=
    userAddressSpaceCreate_room (room.mono needSpace) (by norm_num) creating
  obtain ⟨loadedHeap, executed, loadedLeft⟩ := @execLoad_room cfg
    { k with
      heap := heap
      machine := made
      pml4 := update k.pml4 space (r * pageSize) }
    r 22000 loaded size e bs got (left.mono needImage) (by norm_num) large whole loading
  obtain ⟨proc, post, recorded, recLeft, machineEq, pml4Eq, spaceEq⟩ :=
    @createRecord_room cfg
      { k with
        heap := loadedHeap
        machine := m
        pml4 := update k.pml4 space (r * pageSize) }
      c 20000 space (loadedLeft.mono needRecord) (by norm_num) free
  refine ⟨proc, post, ?_, recLeft, machineEq, ?_⟩
  · rw [createFull, bind_of_ok spaced]
    dsimp only
    rw [get_bind]
    dsimp only
    rw [update_self]
    have filled : fillSpace cfg (r * pageSize) ⟨.found true size bs got, [], false⟩
      { k with
        heap := heap
        machine := made
        pml4 := update k.pml4 space (r * pageSize) } = .ok 0 { k with
          heap := loadedHeap
          machine := m
          pml4 := update k.pml4 space (r * pageSize) } := by
      rw [fillSpace, bind_of_ok executed]
      dsimp only
      rw [if_neg (by simp), bind_of_ok (onMachine_of_ok (by exact ranging)), if_neg (by simp),
        bind_of_ok (onMachine_of_ok (by exact stacking)), if_neg notNull]
      rfl
    rw [bind_of_ok filled, if_neg (by simp), recorded]
  rw [pml4Eq, spaceEq]
  exact update_self ..

lemma processSpawnArgv_room {req : SpawnRequest} {bs : Multiset (Nat × Nat)}
    (h : Sound cfg k bs) (starts : Starts cfg req k.machine r m)
    (room : HeapRoom cfg.arena k.heap 40000) (free : ∃ s, k.table s = none) :
    ∃ post, processSpawnArgv cfg c req k = .ok k.nextPid post ∧
      post.machine = m ∧ ∃ s proc, post.table s = some proc ∧
        (post.processes proc).pid = k.nextPid ∧
        post.pml4 (post.processes proc).addressSpace = r * pageSize := by
  obtain ⟨proc, built, creating, left, machineEq, pml4Eq⟩ :=
    createFull_room starts room free
  obtain ⟨made, _⟩ := createFull_created h.ledger h.numbered creating
  have need : blockNeed 96 + (blockNeed 16384 + 32) ≤ 20000 := by decide +kernel
  obtain ⟨t, heap, pool, stack, threaded⟩ := threadCreateRaw_room (left.mono need) (le_refl 32)
  obtain ⟨s, hl⟩ := made.listed
  refine ⟨{ built with
    heap := heap
    freeStacks := pool
    stackBase := update built.stackBase t stack
    processes := update built.processes proc
      { built.processes proc with mainThread := t, state := .ready } },
    ?_, machineEq, s, proc, hl, ?_, ?_⟩
  · rw [processSpawnArgv, bind_of_ok creating]
    dsimp only
    rw [bind_of_ok threaded]
    dsimp only
    rw [setProcess, modify_bind, get_bind]
    dsimp only
    rw [update_self, made.pidEq]
    rfl
  · simp only [update_self]
    exact made.pidEq
  simp only [update_self]
  exact pml4Eq

lemma lifecycle_collected {life : Lifecycle} {bs : Multiset (Nat × Nat)}
    (h : Sound cfg k bs) (starts : Starts cfg life.request k.machine r m)
    (room : HeapRoom cfg.arena k.heap 40000) (free : ∃ s, k.table s = none)
    (idle : life.calls = []) : ∃ post, lifecycle cfg c life k = .ok true post := by
  obtain ⟨started, spawning, machineEq, s, proc, mem, pidEq, pml4Eq⟩ :=
    @processSpawnArgv_room cfg k c r m _ _ h starts room free
  obtain ⟨owner, t, b, stack, ht, _, _, source, spawned⟩ :=
    processSpawnArgv_spawned h spawning (by omega)
  have eq : proc = owner := spawned.only s proc mem pidEq
  subst eq
  have running : processRun cfg k.nextPid life started = .ok () { started with
    processes := update started.processes proc
      { started.processes proc with
        state := if life.faulted then .faulted else .exited
        exitCode := life.code } } := by
    rw [processRun, get_bind, spawned.processByPid_eq]
    rw [idle]
    rfl
  obtain ⟨stays, poolEq, _⟩ := processRun_spawned spawned running
  have destroyed := starts.space.destroy
  rw [← machineEq, ← pml4Eq] at destroyed
  obtain ⟨post, reaping, _⟩ := reap_ledger stays (poolEq ▸ source.roomy h.room)
    (by simp only [update_self]; exact destroyed)
  have waiting : processWait cfg c k.nextPid { started with
    processes := update started.processes proc
      { started.processes proc with
        state := if life.faulted then .faulted else .exited
        exitCode := life.code } } = .ok k.nextPid post := by
    rw [processWait, get_bind, stays.processByPid_eq]
    dsimp only
    rw [if_neg, if_neg, bind_of_ok reaping]
    · rfl
    · simp only [update_self]
      cases life.faulted <;> simp
    simp only [update_self, spawned.parentEq]
    cases c <;> simp
  refine ⟨post, ?_⟩
  rw [lifecycle, bind_of_ok spawning, if_neg (by omega), Int.toNat_natCast, bind_of_ok running,
    bind_of_ok waiting]
  simp [pure, EStateM.pure]

/-- Every collected process costs the block of its `struct thread`. -/
theorem lifecycles_conserve_iff {lives : List Lifecycle} {bs : Multiset (Nat × Nat)}
    (h : Sound cfg k bs) (collected : AllCollected cfg c lives k) :
    Conserves cfg c lives k ↔ lives = [] := by
  cases lives with
  | nil => exact ⟨fun _ => rfl, fun _ => trivial⟩
  | cons =>
    obtain ⟨post, returned, _⟩ := collected
    refine ⟨fun conserves => ?_, fun impossible => by simp at impossible⟩
    obtain ⟨threadBlk, _, le, _, hg⟩ := lifecycle_leaks h returned
    have same := (conserves post returned).1.1
    omega

def bootConfig : KernelConfig where
  arena := lowArena
  bootInfo := plainInfo
  lapicBase := 0xFEE00000

def bootKernel : Kernel where
  heap := heapInit lowArena fun _ => 0
  machine := ⟨fun _ => 0, ⟨4000, fun frame => decide (frame < 260)⟩⟩
  freeStacks := []
  stackBase := fun _ => 0
  pml4 := fun _ => 0
  entries := fun _ _ => none
  refcount := fun _ => 0
  table := fun _ => none
  processes := fun _ => ⟨0, 0, .new, 0, 0, 0, 0⟩
  nextPid := 1

def idleSegment : HxeSegment where
  virtualAddress := 0x400000
  memorySize := 0x1000
  fileSize := 0
  fileOffset := 0
  flags := 5

def idleImage : ByteMemory :=
  let blank : ByteMemory := fun _ => 0
  let header := ((((blank.writeLE 0 4 hxeMagic).writeLE 4 4 hxeVersion).writeLE
    8 8 0x400000).writeLE 16 8 1).writeLE 24 8 hxeHeaderSize
  ((header.writeLE 32 8 idleSegment.virtualAddress).writeLE 40 8 idleSegment.memorySize).writeLE
    64 8 idleSegment.flags

def idleLife : Lifecycle where
  request := ⟨.found true 72 idleImage 72, [], false⟩
  calls := []
  faulted := false
  code := 0

lemma idleLife_starts : ∃ m, Starts bootConfig idleLife.request bootKernel.machine 260 m := by
  have evaluated : Outcome.returnsWith (HnxKernel.userAddressSpaceCreate bootConfig.bootInfo
    bootConfig.lapicBase true bootKernel.machine) (fun pml4 created =>
      decide (pml4 = some (260 * pageSize)) && (([2, 0x3FFFFFF, 0x20000, 0x28000].all fun lp =>
          (largeLeaf created.memory 260 lp).isNone) &&
        (decide (created.pool.totalPages = 4000) &&
          (List.range' 400 3000).all fun f => !created.pool.used f))) = true := by
    decide +kernel
  obtain ⟨pml4, created, creating, facts⟩ := Outcome.exists_of_returnsWith evaluated
  simp only [Bool.and_eq_true, decide_eq_true_eq, all_eq_true, Option.isNone_iff_eq_none,
    Bool.not_eq_true', mem_range'_1] at facts
  obtain ⟨rfl, noLarge, total, unused⟩ := facts
  have built : BuiltSpace 260 created := .created (by decide) creating
  have tidy : Tidy created.memory 260 := tidy_of_created (by decide) creating
  have supply : Supply created.pool 3000 := by
    refine ⟨Finset.Ico 400 3400, by simp, ?_⟩
    intro f mem
    obtain ⟨above, below⟩ := Finset.mem_Ico.mp mem
    exact ⟨⟨le_trans (by decide) above, by omega⟩, unused f (by omega)⟩
  have loadable : idleSegment.Loadable := ⟨by decide, by decide, by decide +kernel⟩
  have parsed : hxeSegments idleImage 72 = some (0x400000, [idleSegment]) := by decide +kernel
  have onePage : idleSegment.pageCount = 1 := by decide +kernel
  have segmentFree : NoLargeIn created.memory 260 idleSegment := by
    intro p above below
    rw [onePage] at below
    have pageEq : p / 512 = 2 := by
      simp only [idleSegment, pageSize] at above below
      omega
    rw [pageEq]
    exact noLarge 2 (by simp)
  obtain ⟨loaded, loading, left, segments⟩ := @loadSegments_supplied 260 1536 idleImage
    [idleSegment] created (by simpa using loadable) (pairwise_singleton _ _) built.userSpace
      tidy
    (by simpa using segmentFree) (supply.mono (by simp [onePage]))
  obtain ⟨ranged, ranging, rangedSpace, stackMapped⟩ :=
    mapInitialRanges_supplied segments.space segments.tidy (by
      intro lp mem
      rw [segments.largeLeaf_eq]
      exact noLarge lp (mem_cons_of_mem _ mem)) left
  obtain ⟨sp, m, stacking, notNull, space⟩ := buildUserStack_nil rangedSpace stackMapped
  refine ⟨m, ⟨created, loaded, ranged, 72, idleImage, 72, 0x400000, sp, rfl, by decide,
    by decide, by decide, creating, ?_, ranging, stacking, notNull⟩, space⟩
  rw [userLoaderLoad, parsed]
  exact bind_of_ok loading

lemma bootKernel_sound : Sound bootConfig bootKernel 0 where
  ledger := ⟨_, heapInit_shape _, rfl⟩
  pooled := by simp [bootKernel]
  room := by simp [bootKernel]
  numbered := by simp [Numbered, bootKernel]

lemma idleLife_collected :
    ∃ post, lifecycle bootConfig none idleLife bootKernel = .ok true post := by
  obtain ⟨m, starts⟩ := idleLife_starts
  refine lifecycle_collected bootKernel_sound starts ?_ ⟨0, rfl⟩ rfl
  exact ⟨_, heapInit_shape _, _, mem_singleton_self _, rfl, by decide⟩

theorem idleLife_conserves_iff : AllCollected bootConfig none [idleLife] bootKernel ∧
    (Conserves bootConfig none [idleLife] bootKernel ↔ [idleLife] = []) := by
  obtain ⟨post, returned⟩ := idleLife_collected
  have collected : AllCollected bootConfig none [idleLife] bootKernel := ⟨post, returned, trivial⟩
  exact ⟨collected, lifecycles_conserve_iff bootKernel_sound collected⟩

/-- The process is spawned and collected, and 112 bytes or more of the heap stay
allocated. -/
theorem idleLife_leaks : ∃ post, lifecycle bootConfig none idleLife bootKernel = .ok true post ∧
    bootKernel.bytesInUse + 112 ≤ post.bytesInUse ∧ ¬ Conserved bootKernel post := by
  obtain ⟨post, returned⟩ := idleLife_collected
  obtain ⟨threadBlk, _, le, _, hg⟩ := lifecycle_leaks bootKernel_sound returned
  refine ⟨post, returned, by omega, ?_⟩
  rintro ⟨eq, _⟩
  omega

end Kernel

end HnxKernel
