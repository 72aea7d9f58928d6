import Hnx.LinkedLists
import Hnx.ByteMemory
import Mathlib.Tactic

/-!
# The scheduler

Every entry point runs with interrupts off. Thread 0 is the boot context, 1 the idle thread.
-/

namespace HnxKernel

section

open Function

inductive ThreadState where
  | new
  | ready
  | running
  | sleeping
  | blocked
  | dead
  deriving DecidableEq, Repr

abbrev idle : Nat := 1

abbrev bootThread : Nat := 0

abbrev timeSliceTicks : Nat := 5

structure Scheduler where
  state : Nat → ThreadState
  next : Nat → Option Nat
  wakeTick : Nat → Nat
  readyHead : Option Nat
  readyTail : Option Nat
  sleepHead : Option Nat
  /-- The threads that wait in each wait queue, the oldest first. -/
  waiters : Nat → List Nat
  current : Nat
  nextId : Nat
  slice : Nat
  needResched : Bool

namespace Scheduler

def setState (sys : Scheduler) (thr : Nat) (st : ThreadState) : Scheduler :=
  { sys with state := update sys.state thr st }

def readyDequeue (sys : Scheduler) (thr : Nat) : Scheduler :=
  { sys with
    readyHead := sys.next thr
    readyTail := if (sys.next thr).isNone then none else sys.readyTail
    next := update sys.next thr none }

def schedulerMakeReady (sys : Scheduler) (thr : Nat) : Scheduler :=
  let linked := redirect (update sys.next thr none) sys.readyHead
    sys.readyTail (some thr)
  { sys with
    state := update sys.state thr .ready
    next := linked.1
    readyHead := linked.2
    readyTail := some thr }

def switchTo (sys : Scheduler) (thr : Nat) : Scheduler :=
  { sys with
    current := thr
    state := update sys.state thr .running
    slice := timeSliceTicks }

def switchFrom (sys : Scheduler) (prev thr : Nat) : Scheduler :=
  let requeued :=
    if sys.state prev = .running ∧ prev ≠ idle then sys.schedulerMakeReady prev else sys
  if thr = prev then
    { requeued with
      state := update requeued.state prev .running
      slice := timeSliceTicks }
  else requeued.switchTo thr

def schedule (sys : Scheduler) : Scheduler :=
  match sys.readyHead with
  | some thr => (sys.readyDequeue thr).switchFrom sys.current thr
  | none =>
    if sys.state sys.current = .running then { sys with slice := timeSliceTicks }
    else sys.switchFrom sys.current idle

/-- `scheduler_init`, after `thread_system_init`: the boot context runs and the
idle thread exists. -/
def schedulerInit : Scheduler where
  state := fun thr =>
    if thr = bootThread then .running else if thr = idle then .ready else .new
  next := fun _ => none
  wakeTick := fun _ => 0
  readyHead := none
  readyTail := none
  sleepHead := none
  waiters := fun _ => []
  current := bootThread
  nextId := 2
  slice := timeSliceTicks
  needResched := false

def schedulerStart (sys : Scheduler) : Scheduler := (sys.setState bootThread .dead).schedule

/-- Without memory nothing happens. -/
def threadCreate (sys : Scheduler) (ram : Bool) : Scheduler :=
  if ram then
    schedulerMakeReady
      { sys with
        state := update sys.state sys.nextId .new
        next := update sys.next sys.nextId none
        wakeTick := update sys.wakeTick sys.nextId 0
        nextId := sys.nextId + 1 }
      sys.nextId
  else sys

def threadExit (sys : Scheduler) : Scheduler := (sys.setState sys.current .dead).schedule

def fallAsleep (sys : Scheduler) (ticks now : Nat) : Scheduler :=
  { sys with
    wakeTick := update sys.wakeTick sys.current (u64 (now + ticks))
    state := update sys.state sys.current .sleeping
    next := update sys.next sys.current sys.sleepHead
    sleepHead := some sys.current }

def threadSleepTicks (sys : Scheduler) (ticks now : Nat) : Scheduler :=
  if ticks = 0 then sys.schedule else (sys.fallAsleep ticks now).schedule

/-- `*pp = t->next; t->next = NULL` in `sleep_wakeup_expired`. -/
def unlinkSleeper (sys : Scheduler) (place : Option Nat) (thr : Nat) : Scheduler :=
  let linked := redirect sys.next sys.sleepHead place (sys.next thr)
  { sys with
    next := update linked.1 thr none
    sleepHead := linked.2 }

/-- `place` is the thread whose `next` is `*pp`; nothing if the fuel does not suffice. -/
def sleepWakeupLoop (tick : Nat) : Nat → Option Nat → Scheduler → Option Scheduler
  | 0, _, _ => none
  | fuel + 1, place, sys =>
    match pointerAt sys.next sys.sleepHead place with
    | none => some sys
    | some thr =>
      if sys.wakeTick thr ≤ tick then
        sleepWakeupLoop tick fuel place
          ((sys.unlinkSleeper place thr).schedulerMakeReady thr)
      else sleepWakeupLoop tick fuel (some thr) sys

def sleepWakeupExpired (sys : Scheduler) (tick : Nat) : Option Scheduler :=
  sleepWakeupLoop tick (sys.nextId + 1) none sys

def schedulerOnTimerTick (sys : Scheduler) (now : Nat) : Option Scheduler :=
  (sys.sleepWakeupExpired now).map fun woken =>
    { woken with
      slice := woken.slice - 1
      needResched := if woken.slice - 1 = 0 then true else woken.needResched }

def schedulerIrqExit (sys : Scheduler) : Scheduler :=
  if sys.needResched then schedule { sys with needResched := false } else sys

def setWaiters (sys : Scheduler) (queue : Nat) (threads : List Nat) : Scheduler :=
  { sys with waiters := update sys.waiters queue threads }

def waitqueueWait (sys : Scheduler) (queue : Nat) : Scheduler :=
  ((sys.setWaiters queue (sys.waiters queue ++ [sys.current])).setState
    sys.current .blocked).schedule

def waitqueueResume (sys : Scheduler) (queue : Nat) : Scheduler :=
  sys.setWaiters queue ((sys.waiters queue).erase sys.current)

def waitqueueWakeOne (sys : Scheduler) (queue : Nat) : Scheduler :=
  match sys.waiters queue with
  | [] => sys
  | thr :: rest => ((sys.setWaiters queue rest).setState thr .ready).schedulerMakeReady thr

def wakeAllLoop (queue : Nat) : Nat → Scheduler → Scheduler
  | 0, sys => sys
  | fuel + 1, sys => wakeAllLoop queue fuel (sys.waitqueueWakeOne queue)

def waitqueueWakeAll (sys : Scheduler) (queue : Nat) : Scheduler :=
  wakeAllLoop queue (sys.waiters queue).length sys

inductive Event where
  | create (ram : Bool)
  | yield
  | timerTick (now : Nat)
  | irqExit
  | sleep (ticks now : Nat)
  | wakeupExpired (tick : Nat)
  | wait (queue : Nat)
  | resume (queue : Nat)
  | wakeOne (queue : Nat)
  | wakeAll (queue : Nat)
  | exit
  deriving DecidableEq, Repr

def Event.parks : Event → Bool
  | .sleep _ _ | .wait _ | .exit => true
  | _ => false

def apply (sys : Scheduler) : Event → Option Scheduler
  | .create ram => some (sys.threadCreate ram)
  | .yield => some sys.schedule
  | .timerTick now => sys.schedulerOnTimerTick now
  | .irqExit => some sys.schedulerIrqExit
  | .sleep ticks now => some (sys.threadSleepTicks ticks now)
  | .wakeupExpired tick => sys.sleepWakeupExpired tick
  | .wait queue => some (sys.waitqueueWait queue)
  | .resume queue => some (sys.waitqueueResume queue)
  | .wakeOne queue => some (sys.waitqueueWakeOne queue)
  | .wakeAll queue => some (sys.waitqueueWakeAll queue)
  | .exit => some sys.threadExit

def run : Scheduler → List Event → Option Scheduler
  | sys, [] => some sys
  | sys, event :: rest =>
    if event.parks ∧ sys.current = idle then none
    else (sys.apply event).bind fun post => post.run rest

end Scheduler

end

open Function List

namespace Scheduler

def IsThread (sys : Scheduler) (thr : Nat) : Prop := idle < thr ∧ thr < sys.nextId

structure Shape (system : Scheduler) (ready sleepers : List Nat) : Prop where
  readyLinked : Linked system.next system.readyHead ready
  tail : system.readyTail = ready.getLast?
  sleepersLinked : Linked system.next system.sleepHead sleepers

def Home (sys : Scheduler) (ready sleepers : List Nat) (thr : Nat) : Prop :=
  match sys.state thr with
  | .new => False
  | .ready => thr ∈ ready
  | .running => thr = sys.current
  | .sleeping => thr ∈ sleepers
  | .blocked => ∃ queue, thr ∈ sys.waiters queue
  | .dead => True

structure Queued (system : Scheduler) (loose : Option Nat) (state : ThreadState)
    (thr : Nat) : Prop where
  isThread : system.IsThread thr
  state : system.state thr = state
  fixed : loose ≠ some thr

/-- All threads but a loose one are where their states say. -/
structure Placed (system : Scheduler) (ready sleepers : List Nat) (loose : Option Nat) :
    Prop where
  inReady : ∀ t ∈ ready, system.Queued loose .ready t
  inSleepers : ∀ t ∈ sleepers, system.Queued loose .sleeping t
  inWaiters : ∀ queue, ∀ t ∈ system.waiters queue, system.Queued loose .blocked t
  readyNodup : ready.Nodup
  sleepersNodup : sleepers.Nodup
  waitersNodup : ∀ queue, (system.waiters queue).Nodup
  alone : ∀ t first second, t ∈ system.waiters first → t ∈ system.waiters second → first = second
  home : ∀ t, system.IsThread t → loose ≠ some t → system.Home ready sleepers t

structure Ordered (system : Scheduler) (ready sleepers : List Nat) (loose : Option Nat) :
    Prop where
  shape : system.Shape ready sleepers
  placed : system.Placed ready sleepers loose

structure Running (system : Scheduler) : Prop where
  current : system.IsThread system.current ∨ system.current = idle
  state : system.state system.current = .running

variable {s post : Scheduler} {ready sleepers : List Nat} {loose : Option Nat}
  {t : Nat}

lemma Home.mono {ready' sleepers' : List Nat} (home : s.Home ready sleepers t)
    (st : post.state t = s.state t) (inReady : t ∈ ready → t ∈ ready')
    (inSleepers : t ∈ sleepers → t ∈ sleepers')
    (cur : s.state t = .running → t = s.current → t = post.current)
    (waits : ∀ q, t ∈ s.waiters q → ∃ o, t ∈ post.waiters o) : post.Home ready' sleepers' t := by
  unfold Home at home ⊢
  rw [st]
  cases stateEq : s.state t with
  | new => rw [stateEq] at home; exact home
  | ready => rw [stateEq] at home; exact inReady home
  | running => rw [stateEq] at home; exact cur stateEq home
  | sleeping => rw [stateEq] at home; exact inSleepers home
  | blocked =>
    rw [stateEq] at home
    obtain ⟨q, mem⟩ := home
    exact waits q mem
  | dead => exact trivial

lemma Queued.mono {loose' : Option Nat} {st : ThreadState}
    (inQ : s.Queued loose st t) (ids : s.nextId ≤ post.nextId)
    (eq : post.state t = s.state t) (fixed : loose' ≠ some t) : post.Queued loose' st t :=
  ⟨⟨inQ.isThread.1, Nat.lt_of_lt_of_le inQ.isThread.2 ids⟩, eq.trans inQ.state, fixed⟩

lemma Placed.unqueued (hp : s.Placed ready sleepers loose) (t : Nat)
    (notReady : s.state t ≠ .ready) (notSleeping : s.state t ≠ .sleeping)
    (notBlocked : s.state t ≠ .blocked) : t ∉ ready ∧ t ∉ sleepers ∧ ∀ queue, t ∉ s.waiters queue :=
  ⟨fun mem => notReady (hp.inReady t mem).state, fun mem => notSleeping (hp.inSleepers t mem).state,
    fun queue mem => notBlocked (hp.inWaiters queue t mem).state⟩

lemma Placed.notMem_sleepers (hp : s.Placed ready sleepers loose)
    (mem : t ∈ ready) : t ∉ sleepers := by
  intro asleep
  have isReady := (hp.inReady t mem).state
  rw [(hp.inSleepers t asleep).state] at isReady
  exact absurd isReady (by decide)

lemma Placed.unqueued_loose (hp : s.Placed ready sleepers (some t)) :
    t ∉ ready ∧ t ∉ sleepers ∧ ∀ queue, t ∉ s.waiters queue :=
  ⟨fun mem => (hp.inReady t mem).fixed rfl, fun mem => (hp.inSleepers t mem).fixed rfl,
    fun queue mem => (hp.inWaiters queue t mem).fixed rfl⟩

lemma state_makeReady_self : (s.schedulerMakeReady t).state t = .ready := update_self ..

lemma state_makeReady_of_ne {other : Nat} (ne : other ≠ t) :
    (s.schedulerMakeReady t).state other = s.state other :=
  update_of_ne ne _ _

lemma Ordered.makeReady (loose' : Option Nat) (sorted : s.Ordered ready sleepers loose)
    (isThread : s.IsThread t)
    (out : t ∉ ready ∧ t ∉ sleepers ∧ ∀ q, t ∉ s.waiters q)
    (fixed : loose' ≠ some t)
    (others : ∀ other, other ≠ t → (loose' = some other ↔ loose = some other)) :
    (s.schedulerMakeReady t).Ordered (ready ++ [t]) sleepers loose' := by
  obtain ⟨hs, hp⟩ := sorted
  obtain ⟨notReady, notSleeping, notWaiting⟩ := out
  have keeps {st : ThreadState} {other : Nat} (ne : other ≠ t)
    (inQ : s.Queued loose st other) :
    (s.schedulerMakeReady t).Queued loose' st other :=
    inQ.mono (Nat.le_refl _) (state_makeReady_of_ne ne) fun isLoose =>
      inQ.fixed ((others other ne).mp isLoose)
  constructor
  · constructor
    · have cleared : Linked (update s.next t none) s.readyHead ready :=
        Segment.update hs.readyLinked notReady none
      have appended := cleared.append hp.readyNodup notReady (update_self ..)
      rw [← hs.tail] at appended
      exact appended
    · exact (List.getLast?_concat ..).symm
    refine Segment.redirect_of_disjoint (Segment.update hs.sleepersLinked notSleeping none)
      ?_ _
    intro final lastEq
    rw [hs.tail] at lastEq
    exact hp.notMem_sleepers (mem_of_getLast? lastEq)
  constructor
  · intro other mem
    rcases mem_append.mp mem with mem | mem
    · exact keeps (ne_of_mem_of_not_mem mem notReady) (hp.inReady other mem)
    rw [mem_singleton.mp mem]
    exact ⟨isThread, state_makeReady_self, fixed⟩
  · intro other mem
    exact keeps (ne_of_mem_of_not_mem mem notSleeping) (hp.inSleepers other mem)
  · intro q other mem
    exact keeps (ne_of_mem_of_not_mem mem (notWaiting q)) (hp.inWaiters q other mem)
  · exact nodup_append.mpr ⟨hp.readyNodup, nodup_singleton t, fun fst mem snd isThread => by
        rw [mem_singleton.mp isThread]
        exact ne_of_mem_of_not_mem mem notReady⟩
  · exact hp.sleepersNodup
  · exact hp.waitersNodup
  · exact hp.alone
  intro other made notLoose
  by_cases ne : other = t
  · subst ne
    unfold Home
    rw [state_makeReady_self]
    exact mem_append_right ready (mem_singleton_self other)
  have pre := hp.home other made fun isLoose => notLoose ((others other ne).mpr isLoose)
  exact pre.mono (state_makeReady_of_ne ne) (mem_append_left [t]) id
    (fun _ => id)
    fun q mem => ⟨q, mem⟩

lemma Ordered.makeReady_loose (sorted : s.Ordered ready sleepers (some t))
    (isThread : s.IsThread t) : (s.schedulerMakeReady t).Ordered (ready ++ [t]) sleepers none :=
  sorted.makeReady none isThread sorted.placed.unqueued_loose (by simp)
    fun o ne => by simp [Ne.symm ne]

lemma Ordered.dequeue (sorted : s.Ordered (t :: ready) sleepers none) :
    (s.readyDequeue t).Ordered ready sleepers (some t) := by
  obtain ⟨hs, hp⟩ := sorted
  obtain ⟨fresh, nodup⟩ := nodup_cons.mp hp.readyNodup
  have isReady := (hp.inReady t mem_cons_self).state
  have keeps {st : ThreadState} {other : Nat} (ne : other ≠ t)
    (queued : s.Queued none st other) :
    (s.readyDequeue t).Queued (some t) st other :=
    queued.mono (Nat.le_refl _) rfl fun eq => ne (Option.some.inj eq).symm
  have otherState {st : ThreadState} {other : Nat} (differs : ThreadState.ready ≠ st)
    (queued : s.Queued none st other) : other ≠ t := by
    intro eq
    rw [eq] at queued
    exact differs (isReady.symm.trans queued.state)
  constructor
  · constructor
    · exact Segment.update hs.readyLinked.2 fresh none
    · have r : s.next t = ready.head? := Linked.head_eq hs.readyLinked.2
      change (if (s.next t).isNone then none else s.readyTail) = _
      rw [r, hs.tail]
      cases ready with
      | nil => rfl
      | cons => simp
    · exact Segment.update hs.sleepersLinked (hp.notMem_sleepers mem_cons_self) none
  constructor
  · intro other mem
    exact keeps (ne_of_mem_of_not_mem mem fresh)
      (hp.inReady other (mem_cons_of_mem t mem))
  · intro other mem
    have queued := hp.inSleepers other mem
    exact keeps (otherState (by decide) queued) queued
  · intro q other mem
    have queued := hp.inWaiters q other mem
    exact keeps (otherState (by decide) queued) queued
  · exact nodup
  · exact hp.sleepersNodup
  · exact hp.waitersNodup
  · exact hp.alone
  intro other made notLoose
  refine (hp.home other made (by simp)).mono rfl ?_ id (fun _ => id)
    fun q mem => ⟨q, mem⟩
  intro mem
  rcases mem_cons.mp mem with eq | mem
  · exact absurd (eq ▸ rfl) notLoose
  · exact mem

lemma Ordered.retime (sorted : s.Ordered ready sleepers loose) (slice : Nat) (needResched : Bool) :
    { s with slice := slice, needResched := needResched }.Ordered ready sleepers loose := by
  obtain ⟨hs, hp⟩ := sorted
  have keeps {st : ThreadState} {other : Nat} (inQ : s.Queued loose st other) :
    { s with slice := slice, needResched := needResched }.Queued loose st other :=
    inQ.mono (Nat.le_refl _) rfl inQ.fixed
  exact ⟨{ hs with },
    ⟨fun other mem => keeps (hp.inReady other mem),
      fun other mem => keeps (hp.inSleepers other mem),
      fun q other mem => keeps (hp.inWaiters q other mem),
      hp.readyNodup, hp.sleepersNodup, hp.waitersNodup, hp.alone, hp.home⟩⟩

lemma Ordered.switchTo (sorted : s.Ordered ready sleepers loose)
    (next : s.IsThread t ∧ loose = some t ∨ t = idle ∧ loose = none)
    (nobody : ∀ other, s.IsThread other → loose ≠ some other → s.state other ≠ .running) :
    (s.switchTo t).Ordered ready sleepers none ∧ (s.switchTo t).Running := by
  obtain ⟨hs, hp⟩ := sorted
  have keeps {st : ThreadState} {other : Nat} (inQ : s.Queued loose st other) :
    (s.switchTo t).Queued none st other := by
    refine inQ.mono (Nat.le_refl _) (update_of_ne ?_ _ _) (by simp)
    intro eq
    rw [eq] at inQ
    rcases next with ⟨-, isLoose⟩ | ⟨isIdle, -⟩
    · exact inQ.fixed isLoose
    · exact absurd inQ.isThread.1 (by omega)
  have runs : (s.switchTo t).state t = .running := update_self ..
  refine ⟨⟨{ hs with }, ?_⟩, ?_, runs⟩
  · refine ⟨fun other mem => keeps (hp.inReady other mem),
      fun other mem => keeps (hp.inSleepers other mem),
      fun q other mem => keeps (hp.inWaiters q other mem),
      hp.readyNodup, hp.sleepersNodup, hp.waitersNodup, hp.alone, ?_⟩
    intro other made _
    by_cases eq : other = t
    · unfold Home
      rw [eq, runs]
      rfl
    have fixed : loose ≠ some other := by
      rcases next with ⟨-, isLoose⟩ | ⟨-, isLoose⟩ <;> rw [isLoose] <;> simp [Ne.symm eq]
    exact (hp.home other made fixed).mono (update_of_ne eq _ _) id id
      (fun running => absurd running (nobody other made fixed))
      fun q mem => ⟨q, mem⟩
  · exact next.imp (fun isThread => isThread.1) (fun isIdle => isIdle.1)

lemma schedule_of_empty (empty : s.readyHead = none) : s.schedule =
    if s.state s.current = .running then { s with slice := timeSliceTicks }
    else s.switchFrom s.current idle := by
  simp only [Scheduler.schedule, empty]

lemma schedule_of_head (head : s.readyHead = some t) :
    s.schedule = (s.readyDequeue t).switchFrom s.current t := by
  simp only [Scheduler.schedule, head]

lemma Ordered.schedule (sorted : s.Ordered ready sleepers none)
    (notReady : s.state s.current ≠ .ready)
    (idleRuns : s.current = idle → s.state s.current = .running)
    (valid : s.state s.current = .running → s.IsThread s.current ∨ s.current = idle) :
    ∃ more, s.schedule.Ordered (ready.tail ++ more) sleepers none ∧ s.schedule.Running := by
  have running (o : Nat) (made : s.IsThread o)
    (runs : s.state o = .running) : o = s.current := by
    have home := sorted.placed.home o made (by simp)
    unfold Home at home
    rw [runs] at home
    exact home
  cases ready with
  | nil =>
    rw [schedule_of_empty sorted.shape.readyLinked]
    split_ifs with runs
    · exact ⟨[], sorted.retime timeSliceTicks s.needResched, valid runs, runs⟩
    have notIdle : idle ≠ s.current := fun same => runs (idleRuns same.symm)
    unfold switchFrom
    rw [if_neg notIdle, if_neg fun both => runs both.1]
    refine ⟨[], sorted.switchTo (.inr ⟨rfl, rfl⟩) ?_⟩
    intro o made _ otherRuns
    rw [running o made otherRuns] at otherRuns
    exact runs otherRuns
  | cons t ready =>
    rw [schedule_of_head sorted.shape.readyLinked.1]
    have head := sorted.placed.inReady t mem_cons_self
    have differs : t ≠ s.current := by
      intro same
      rw [← same] at notReady
      exact notReady head.state
    have dequeued := sorted.dequeue
    unfold switchFrom
    rw [if_neg differs]
    split_ifs with requeues
    · obtain ⟨runs, notIdle⟩ := requeues
      change s.state s.current = .running at runs
      have made := (valid runs).resolve_right notIdle
      have out := dequeued.placed.unqueued s.current
        (by change s.state _ ≠ _; rw [runs]; decide)
        (by change s.state _ ≠ _; rw [runs]; decide)
        (by change s.state _ ≠ _; rw [runs]; decide)
      have requeued := dequeued.makeReady (some t) made out
        (by simp [differs]) fun o ne => Iff.rfl
      refine ⟨[s.current], requeued.switchTo (.inl ⟨head.isThread, rfl⟩) ?_⟩
      intro o otherCreated fixed otherRuns
      by_cases same : o = s.current
      · subst same
        rw [state_makeReady_self] at otherRuns
        exact absurd otherRuns (by decide)
      rw [state_makeReady_of_ne same] at otherRuns
      exact same (running o otherCreated otherRuns)
    rw [← append_nil ready] at dequeued
    refine ⟨[], dequeued.switchTo (.inl ⟨head.isThread, rfl⟩) ?_⟩
    intro o made fixed otherRuns
    have same := running o made otherRuns
    rw [same] at otherRuns made
    have isIdle : s.current = idle := by
      by_contra notIdle
      exact requeues ⟨otherRuns, notIdle⟩
    exact absurd made.1 (by omega)

end Scheduler

end HnxKernel
