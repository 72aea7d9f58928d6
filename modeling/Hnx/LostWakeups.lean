import Hnx.SleepingPrimitives

/-!
# Lost wakeups

A release between a failed try and the parking that follows finds no waiter.
-/

namespace HnxKernel

open Function List Option
open SleepLock

variable {Thread : Type} [DecidableEq Thread] [Fintype Thread]

def mutexSupply (mutex : Mutex) : Int :=
  if mutex.locked = false then 1 else 0

omit [DecidableEq Thread] [Fintype Thread] in
lemma mutex_supplies (s : System Mutex Unit Thread) : Supplies mutexLock s () mutexSupply where
  granted _ shared success := by
    simp only [mutexLock, mutexTrylock, ite_none_right_eq_some, Option.some.injEq] at success
    obtain ⟨free, rfl⟩ := success
    simp [mutexSupply, free]
  refused failure := by
    simp only [mutexLock, mutexTrylock, ite_eq_right_iff, reduceCtorEq, imp_false] at failure
    rw [mutexSupply, if_neg failure]
  enter _ := le_rfl
  leave _ := le_rfl
  release _ _ := by
    right
    refine ⟨rfl, ?_⟩
    simp only [mutexLock, mutexUnlock, mutexSupply]
    split_ifs <;> omega

omit [DecidableEq Thread] [Fintype Thread] in
lemma semaphore_supplies (s : System Semaphore Unit Thread) :
    Supplies semaphoreLock s () Semaphore.count where
  granted _ shared success := by
    simp only [semaphoreLock, semaphoreTrydown, ite_none_right_eq_some,
      Option.some.injEq] at success
    obtain ⟨-, rfl⟩ := success
    simp
  refused failure := by
    simp only [semaphoreLock, semaphoreTrydown, ite_eq_right_iff, reduceCtorEq,
      imp_false] at failure
    omega
  enter _ := le_rfl
  leave _ := le_rfl
  release _ _ := by
    right
    refine ⟨rfl, ?_⟩
    simp only [semaphoreLock, semaphoreUp]
    split_ifs <;> omega

lemma attended_of_run {Shared : Type} {lock : SleepLock Shared Unit} {supply : Shared → Int}
    (supplies : ∀ s : System Shared Unit Thread, Supplies lock s () supply)
    {hs : Shared} {evs : List (Event Unit Thread)} {post : System Shared Unit Thread}
    (careful : lock.CarefulRun (System.init hs) evs)
    (ran : lock.run (System.init hs) evs = some post) : Attended post () supply := by
  have both : Queued post ∧ Attended post () supply := by
    refine invariant_of_carefulRun (fun s => Queued s ∧ Attended s () supply)
      ?_ ⟨Queued.init hs, fun hw => absurd rfl hw⟩ careful ran
    rintro t pre next ⟨hq, attended⟩ stepped carefulStep
    exact ⟨hq.stepped stepped, attended.stepped hq (supplies pre) stepped carefulStep⟩
  exact both.2

namespace RwlockSystem

variable {s post : System Rwlock RwMode Thread} {t : Thread}

def writeSupply (rw : Rwlock) : Int :=
  if rw.state = 0 then 1 else 0

def WakesReaders (pc : Pc RwMode Thread) : Prop :=
  pc = .waking .read true ∨ ∃ woken, pc = .readying .read true woken

/-- Readers wait for a reason, and the writers that wait are attended to. -/
structure Guarded (system : System Rwlock RwMode Thread) : Prop where
  exclusive : Exclusive system
  writer : ∀ each, system.pc each = .leaving .write → 0 < system.held each .write
  readers : system.queue .read ≠ [] → system.shared.state = -1 ∨ 0 < system.shared.waitingWriters ∨
    ∃ each, WakesReaders (system.pc each)
  writers : Attended system .write writeSupply

omit [DecidableEq Thread] in
lemma Exclusive.waiting_pos (excl : Exclusive s)
    (hw : s.queue .write ≠ []) : 0 < s.shared.waitingWriters := by
  obtain ⟨w, r, list⟩ := exists_cons_of_ne_nil hw
  have isParked := excl.queued.parked .write w (by rw [list]; exact mem_cons_self)
  have least := weight_le_sum counted s.pc w
  rw [isParked, show counted (.parked .write : Pc RwMode Thread) = 1 from rfl] at least
  have equal := excl.waiting
  omega

omit [DecidableEq Thread] in
lemma Exclusive.writeSupplies (excl : Exclusive s) : Supplies rwlockLock s .write writeSupply where
  granted place shared success := by
    cases place with
    | read =>
      simp only [rwlockLock, rwlockReadTrylock, ite_none_right_eq_some,
        Option.some.injEq] at success
      obtain ⟨⟨free, -⟩, rfl⟩ := success
      simp only [writeSupply, reduceCtorEq, if_false]
      split_ifs <;> omega
    | write =>
      simp only [rwlockLock, rwlockWriteTrylock, ite_none_right_eq_some,
        Option.some.injEq] at success
      obtain ⟨free, rfl⟩ := success
      simp [writeSupply, free]
  refused failure := by
    simp only [rwlockLock, rwlockWriteTrylock, ite_eq_right_iff, reduceCtorEq, imp_false] at failure
    rw [writeSupply, if_neg failure]
  enter place := by cases place <;> exact le_rfl
  leave place := by
    cases place with
    | read => exact le_rfl
    | write =>
      simp only [rwlockLock, discountWriter]
      split_ifs <;> exact le_rfl
  release place waiting := by
    have counted := excl.waiting_pos waiting
    cases place with
    | read =>
      simp only [rwlockLock, rwlockReadUnlock, writeSupply, counted, and_true]
      split_ifs <;> simp_all
    | write =>
      right
      simp only [rwlockLock, rwlockWriteUnlock, counted, if_true, writeSupply, true_and]
      split_ifs <;> omega

omit [Fintype Thread] in
lemma wakesReaders_update {pc : Pc RwMode Thread} (notHere : ¬ WakesReaders (s.pc t))
    (wakes : ∃ each, WakesReaders (s.pc each)) : ∃ each, WakesReaders (update s.pc t pc each) := by
  obtain ⟨each, here⟩ := wakes
  refine ⟨each, ?_⟩
  rw [update_of_ne]
  · exact here
  rintro rfl
  exact notHere here

section
variable (hg : Guarded s)
include hg

lemma Guarded.readers_moved (waiting : s.queue .read ≠ [])
    {pc : Pc RwMode Thread} (notHere : ¬ WakesReaders (s.pc t)) :
    s.shared.state = -1 ∨ 0 < s.shared.waitingWriters ∨
      ∃ each, WakesReaders (update s.pc t pc each) := by
  rcases hg.readers waiting with hw | writers | wakes
  · exact .inl hw
  · exact .inr (.inl writers)
  · exact .inr (.inr (wakesReaders_update notHere wakes))

lemma Guarded.readers_stepped (stepped : rwlockLock.Stepped t s post)
    (careful : rwlockLock.Careful s t) (waiting : post.queue .read ≠ []) :
    post.shared.state = -1 ∨ 0 < post.shared.waitingWriters ∨
      ∃ each, WakesReaders (post.pc each) := by
  have state := hg.exclusive.state
  have counter := hg.exclusive.waiting
  cases stepped with
  | begun _ out => exact hg.readers_moved waiting (by simp [WakesReaders, out])
  | entered mode here =>
    cases mode with
    | read => exact hg.readers_moved waiting (by simp [WakesReaders, here])
    | write =>
      right
      left
      simp only [rwlockLock, countWriter]
      omega
  | granted mode _ _ success here =>
    cases mode with
    | read =>
      simp only [rwlockLock, rwlockReadTrylock, ite_none_right_eq_some,
        Option.some.injEq] at success
      obtain ⟨⟨free, none⟩, rfl⟩ := success
      rcases hg.readers waiting with hw | writers | wakes
      · omega
      · omega
      refine .inr (.inr (wakesReaders_update ?_ wakes))
      rcases here with ⟨here | here, -⟩ | ⟨here, -⟩ <;> simp [WakesReaders, here]
    | write =>
      simp only [rwlockLock, rwlockWriteTrylock, ite_none_right_eq_some,
        Option.some.injEq] at success
      obtain ⟨free, rfl⟩ := success
      exact .inl rfl
  | refused _ _ _ here =>
    apply hg.readers_moved waiting
    rcases here with ⟨here, -⟩ | ⟨here, -⟩ | ⟨here, -⟩ <;> simp [WakesReaders, here]
  | parked mode here =>
    cases mode with
    | read =>
      have failure := careful .read here
      simp only [rwlockLock, rwlockReadTrylock, ite_eq_right_iff, reduceCtorEq,
        imp_false] at failure
      dsimp only
      omega
    | write => exact hg.readers_moved waiting (by simp [WakesReaders, here])
  | left mode here =>
    cases mode with
    | read => exact hg.readers_moved waiting (by simp [WakesReaders, here])
    | write =>
      left
      have holder := hg.writer t here
      have holdsLe := held_le_holds s t .write
      have hw : s.shared.state = -1 := by omega
      simp only [rwlockLock, discountWriter]
      split_ifs
      · exact hw
      · exact hw
  | released mode here =>
    cases mode with
    | read =>
      have holder := hg.exclusive.holder t .read here
      have holdsLe := held_le_holds s t .read
      rcases hg.readers waiting with hw | writers | wakes
      · omega
      · exact .inr (.inl writers)
      · exact .inr (.inr (wakesReaders_update (by simp [WakesReaders, here]) wakes))
    | write =>
      right
      simp only [rwlockLock, rwlockWriteUnlock]
      by_cases more : 0 < s.shared.waitingWriters
      · exact .inl more
      right
      refine ⟨t, ?_⟩
      rw [update_self, if_neg more]
      exact .inl rfl
  | emptied _ _ here he =>
    apply hg.readers_moved waiting
    rw [here]
    rintro (eq | ⟨woken, eq⟩)
    · obtain ⟨rfl, rfl⟩ := Pc.waking.inj eq
      exact waiting he
    · cases eq
  | dequeued mode _ woken _ here list =>
    have waited : s.queue .read ≠ [] := by
      intro he
      cases mode with
      | read =>
        rw [he] at list
        cases list
      | write =>
        dsimp only at waiting
        rw [update_of_ne (by decide)] at waiting
        exact waiting he
    rcases hg.readers waited with hw | writers | wakes
    · exact .inl hw
    · exact .inr (.inl writers)
    right
    right
    by_cases loop : WakesReaders (s.pc t)
    · refine ⟨t, ?_⟩
      rw [here] at loop
      dsimp only
      rw [update_self]
      rcases loop with eq | ⟨o, eq⟩
      · obtain ⟨rfl, rfl⟩ := Pc.waking.inj eq
        exact .inr ⟨woken, rfl⟩
      · cases eq
    · exact wakesReaders_update loop wakes
  | readied mode all woken _ here goes =>
    obtain ⟨isParked, -⟩ := hg.exclusive.queued.readied t mode all woken here
    rcases hg.readers waiting with hw | writers | wakes
    · exact .inl hw
    · exact .inr (.inl writers)
    right
    right
    obtain ⟨each, wakesEach⟩ := wakes
    have eachNe : each ≠ woken := by
      rintro rfl
      rw [isParked] at wakesEach
      simp [WakesReaders] at wakesEach
    refine ⟨each, ?_⟩
    dsimp only
    by_cases own : each = t
    · subst own
      rw [update_self]
      rw [here] at wakesEach
      rcases wakesEach with eq | ⟨o, eq⟩
      · cases eq
      obtain ⟨rfl, rfl, -⟩ := Pc.readying.inj eq
      rcases goes with ⟨-, rfl⟩ | ⟨impossible, -⟩
      · exact .inl rfl
      · cases impossible
    rw [update_of_ne own, update_of_ne eachNe]
    exact wakesEach

lemma Guarded.writer_stepped (stepped : rwlockLock.Stepped t s post) (each : Thread)
    (leaving : post.pc each = .leaving .write) : 0 < post.held each .write := by
  have stays {pc : Pc RwMode Thread} (hd : pc ≠ .leaving .write)
    (here : update s.pc t pc each = .leaving .write) :
    each ≠ t ∧ 0 < s.held each .write := by
    by_cases own : each = t
    · subst own
      rw [update_self] at here
      exact absurd here hd
    rw [update_of_ne own] at here
    exact ⟨own, hg.writer each here⟩
  cases stepped with
  | begun _ _ starts =>
    refine (stays ?_ leaving).2
    obtain ⟨mode, rfl | rfl | ⟨rfl, -⟩⟩ := starts <;> simp
  | entered _ _ _ goes =>
    refine (stays ?_ leaving).2
    rcases goes with rfl | rfl <;> simp
  | granted _ _ _ _ here =>
    by_cases own : each = t
    · subst own
      dsimp only [System.acquire] at leaving ⊢
      rw [update_self] at leaving ⊢
      rcases here with ⟨-, rfl⟩ | ⟨-, rfl⟩
      · rw [Pc.leaving.inj leaving, update_self]
        exact Nat.succ_pos _
      · cases leaving
    dsimp only [System.acquire] at leaving ⊢
    rw [update_of_ne own] at leaving ⊢
    exact hg.writer each leaving
  | refused _ _ _ here =>
    refine (stays ?_ leaving).2
    rcases here with ⟨-, rfl⟩ | ⟨-, rfl⟩ | ⟨-, rfl⟩ <;> simp
  | parked => exact (stays (by simp) leaving).2
  | left => exact (stays (by simp) leaving).2
  | released mode =>
    have hd : wakePc (rwlockLock.release mode s.shared).2 ≠
      (.leaving .write : Pc RwMode Thread) := by
      cases (rwlockLock.release mode s.shared).2 <;> exact fun eq => by cases eq
    obtain ⟨own, holder⟩ := stays hd leaving
    dsimp only
    rw [update_of_ne own]
    exact holder
  | emptied => exact (stays (by simp) leaving).2
  | dequeued => exact (stays (by simp) leaving).2
  | readied _ _ woken _ _ goes =>
    dsimp only at leaving
    by_cases own : each = t
    · subst own
      rw [update_self] at leaving
      rcases goes with ⟨-, rfl⟩ | ⟨-, rfl⟩ <;> cases leaving
    rw [update_of_ne own] at leaving
    by_cases isWoken : each = woken
    · subst isWoken
      rw [update_self] at leaving
      cases leaving
    rw [update_of_ne isWoken] at leaving
    exact hg.writer each leaving

lemma Guarded.stepped (stepped : rwlockLock.Stepped t s post)
    (careful : rwlockLock.Careful s t) : Guarded post where
  exclusive := hg.exclusive.stepped stepped
  writer := hg.writer_stepped stepped
  readers := hg.readers_stepped stepped careful
  writers := hg.writers.stepped hg.exclusive.queued hg.exclusive.writeSupplies
    stepped careful

end

omit [DecidableEq Thread] in
lemma Guarded.init : Guarded (System.init rwlockInit : System Rwlock RwMode Thread) where
  exclusive := Exclusive.init
  writer _ leaving := by cases leaving
  readers waiting := absurd rfl waiting
  writers waiting := absurd rfl waiting

def Available (rw : Rwlock) : RwMode → Prop
  | .read => rw.state = 0 ∧ rw.waitingWriters = 0
  | .write => rw.state = 0

omit [DecidableEq Thread] in
lemma Guarded.exists_active (hg : Guarded s) {mode : RwMode}
    (waiting : s.queue mode ≠ []) (avail : Available s.shared mode) : ∃ each,
      Active (s.pc each) := by
  cases mode with
  | read =>
    obtain ⟨free, noWriter⟩ := avail
    rcases hg.readers waiting with hw | writers | ⟨each, wakes⟩
    · omega
    · omega
    refine ⟨each, ?_⟩
    rcases wakes with here | ⟨woken, here⟩ <;> simp [here, Active]
  | write =>
    refine hg.writers.exists_active waiting ?_
    have free : s.shared.state = 0 := avail
    rw [writeSupply, if_pos free]
    exact Int.one_pos

end RwlockSystem

/-- No waiter is left behind as long as no thread parks while its try would succeed. -/
theorem no_lost_wakeup_of_run :
    (∀ (evs : List (Event Unit Thread)) (post : System Mutex Unit Thread),
      mutexLock.CarefulRun (System.init ⟨false⟩) evs →
      mutexLock.run (System.init ⟨false⟩) evs = some post →
      ∀ w ∈ post.queue (), post.shared.locked = false → ∃ o, Active (post.pc o)) ∧
    (∀ (initial max : Int) (evs : List (Event Unit Thread))
        (post : System Semaphore Unit Thread),
      semaphoreLock.CarefulRun (System.init ⟨initial, max⟩) evs →
      semaphoreLock.run (System.init ⟨initial, max⟩) evs = some post →
      ∀ w ∈ post.queue (), 0 < post.shared.count → ∃ o, Active (post.pc o)) ∧
    (∀ (evs : List (Event RwMode Thread)) (post : System Rwlock RwMode Thread),
      rwlockLock.CarefulRun (System.init rwlockInit) evs →
      rwlockLock.run (System.init rwlockInit) evs = some post →
      ∀ mode, ∀ w ∈ post.queue mode, RwlockSystem.Available post.shared mode →
        ∃ o, Active (post.pc o)) := by
  refine ⟨?_, ?_, ?_⟩
  · intro evs post careful ran w member free
    refine (attended_of_run mutex_supplies careful ran).exists_active
      (ne_nil_of_mem member) ?_
    rw [mutexSupply, if_pos free]
    exact Int.one_pos
  · intro initial max evs post careful ran w member positive
    exact (attended_of_run semaphore_supplies careful ran).exists_active
      (ne_nil_of_mem member) positive
  intro evs post careful ran mode w member avail
  have hg : RwlockSystem.Guarded post :=
    invariant_of_carefulRun RwlockSystem.Guarded
      (fun _ _ _ hg stepped carefulStep => hg.stepped stepped carefulStep)
      RwlockSystem.Guarded.init careful ran
  exact hg.exists_active (ne_nil_of_mem member) avail

def parkThenRelease : List (Event Unit (Fin 2)) :=
  [.call 0 (.lock ()), .run 0, .run 0, .run 0, .call 1 (.lock ()), .run 1, .run 1, .run 1, .run 1,
    .call 0 (.unlock ()), .run 0]

theorem parkThenRelease_attended :
    ∃ post, mutexLock.CarefulRun (System.init ⟨false⟩) parkThenRelease ∧
      mutexLock.run (System.init ⟨false⟩) parkThenRelease = some post ∧
      1 ∈ post.queue () ∧ post.shared.locked = false ∧ ∃ o, Active (post.pc o) := by
  have careful : mutexLock.CarefulRun (System.init ⟨false⟩) parkThenRelease := by decide +kernel
  have ran : ((mutexLock.run (System.init ⟨false⟩) parkThenRelease).map
    fun post => decide (1 ∈ post.queue () ∧ post.shared.locked = false)) = some true := by
    decide +kernel
  obtain ⟨post, ranEq, waits⟩ := map_eq_some_iff.mp ran
  obtain ⟨member, free⟩ := of_decide_eq_true waits
  exact ⟨post, careful, ranEq, member, free,
    no_lost_wakeup_of_run.1 _ post careful ranEq 1 member free⟩

def releaseThenPark : List (Event Unit (Fin 2)) :=
  [.call 0 (.lock ()), .run 0, .run 0, .run 0, .call 1 (.lock ()), .run 1, .run 1, .run 1,
    .call 0 (.unlock ()), .run 0, .run 0, .run 1]

/-- The second thread waits for a mutex that nobody holds. -/
theorem releaseThenPark_lost :
    ∃ post, mutexLock.run (System.init ⟨false⟩) releaseThenPark = some post ∧
      1 ∈ post.queue () ∧ post.shared.locked = false ∧
      ∀ o, o ≠ 1 → post.pc o = .outside := by
  have ran : ((mutexLock.run (System.init ⟨false⟩) releaseThenPark).map
    fun post => decide (1 ∈ post.queue () ∧ post.shared.locked = false ∧
      ∀ o, o ≠ 1 → post.pc o = .outside)) = some true := by
    decide +kernel
  obtain ⟨post, ranEq, lost⟩ := map_eq_some_iff.mp ran
  exact ⟨post, ranEq, of_decide_eq_true lost⟩

end HnxKernel
