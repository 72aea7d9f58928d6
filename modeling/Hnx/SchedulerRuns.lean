import Hnx.Scheduler

/-!
# Runs of the scheduler

A thread advances by one place at each call of `schedule`, and sleeps until its tick.
-/

namespace HnxKernel

section

open Function List Nat Segment

namespace Scheduler

variable {sys post : Scheduler} {ready sleepers : List Nat} {t : Nat}

/-- Between two events: the queues are in order and a thread runs. -/
structure Settled (sys : Scheduler) (ready sleepers : List Nat) : Prop where
  ordered : sys.Ordered ready sleepers none
  running : sys.Running

section
variable (settled : sys.Settled ready sleepers)
include settled

lemma Settled.unqueued :
    sys.current ∉ ready ∧ sys.current ∉ sleepers ∧ ∀ queue, sys.current ∉ sys.waiters queue := by
  apply settled.ordered.placed.unqueued <;> rw [settled.running.state] <;> decide

lemma Settled.isThread (notIdle : sys.current ≠ idle) : sys.IsThread sys.current :=
  settled.running.current.resolve_right notIdle

lemma Settled.schedule : ∃ more, sys.schedule.Settled (ready.tail ++ more) sleepers := by
  obtain ⟨more, ho, running⟩ := settled.ordered.schedule
    (by rw [settled.running.state]; decide) (fun _ => settled.running.state)
    (fun _ => settled.running.current)
  exact ⟨more, ho, running⟩

end

lemma Ordered.scheduleParked (sorted : sys.Ordered ready sleepers none)
    (notIdle : sys.current ≠ idle) {st : ThreadState}
    (parked : sys.state sys.current = st) (notReady : st ≠ .ready)
    (notRunning : st ≠ .running) : ∃ more, sys.schedule.Settled (ready.tail ++ more) sleepers := by
  obtain ⟨more, post, running⟩ := sorted.schedule (parked ▸ notReady)
    (fun isIdle => absurd isIdle notIdle) (fun runs => absurd (parked ▸ runs) notRunning)
  exact ⟨more, post, running⟩

section
variable (settled : sys.Settled ready sleepers)
include settled

lemma Settled.keeps {state changed : ThreadState} {other : Nat}
    (inQ : sys.Queued none state other) (notRunning : state ≠ .running) (post : Scheduler)
    (ids : post.nextId = sys.nextId)
    (states : post.state = update sys.state sys.current changed) :
      post.Queued none state other := by
  refine inQ.mono (le_of_eq ids.symm) ?_ (by simp)
  rw [states, update_of_ne]
  intro same
  rw [same] at inQ
  exact notRunning (inQ.state.symm.trans settled.running.state)

lemma Settled.die : (sys.setState sys.current .dead).Ordered ready sleepers none := by
  obtain ⟨hs, hp⟩ := settled.ordered
  refine ⟨{ hs with },
    fun o mem => settled.keeps (hp.inReady o mem) (by decide) _ rfl rfl,
    fun o mem => settled.keeps (hp.inSleepers o mem) (by decide) _ rfl rfl,
    fun q o mem => settled.keeps (hp.inWaiters q o mem) (by decide) _ rfl rfl,
    hp.readyNodup, hp.sleepersNodup, hp.waitersNodup, hp.alone, ?_⟩
  intro o created _
  by_cases same : o = sys.current
  · unfold Home
    rw [same, show (sys.setState sys.current .dead).state sys.current = .dead from
      update_self ..]
    trivial
  exact (hp.home o created (by simp)).mono (update_of_ne same _ _) id id
    (fun _ => id) fun q mem => ⟨q, mem⟩

section
variable (notIdle : sys.current ≠ idle)
include notIdle

lemma Settled.threadExit : ∃ more, sys.threadExit.Settled (ready.tail ++ more) sleepers :=
  settled.die.scheduleParked notIdle (update_self ..) (by decide) (by decide)

lemma Settled.fallAsleep (ticks now : Nat) :
    (sys.fallAsleep ticks now).Ordered ready (sys.current :: sleepers) none := by
  obtain ⟨hs, hp⟩ := settled.ordered
  obtain ⟨notReady, notAsleep, -⟩ := settled.unqueued
  have sleeps : (sys.fallAsleep ticks now).state sys.current = .sleeping := update_self ..
  constructor
  · refine ⟨update hs.readyLinked notReady _, hs.tail, rfl, ?_⟩
    change Segment (update sys.next sys.current sys.sleepHead) none
      (update sys.next sys.current sys.sleepHead sys.current) sleepers
    rw [update_self]
    exact update hs.sleepersLinked notAsleep _
  refine ⟨fun o mem => settled.keeps (hp.inReady o mem) (by decide) _ rfl rfl, ?_, fun q o mem =>
      settled.keeps (hp.inWaiters q o mem) (by decide) _ rfl rfl,
    hp.readyNodup, nodup_cons.mpr ⟨notAsleep, hp.sleepersNodup⟩,
    hp.waitersNodup, hp.alone, ?_⟩
  · intro o mem
    rcases mem_cons.mp mem with same | mem
    · rw [same]
      exact ⟨settled.isThread notIdle, sleeps, by simp⟩
    · exact settled.keeps (hp.inSleepers o mem) (by decide) _ rfl rfl
  intro o created _
  by_cases same : o = sys.current
  · unfold Home
    rw [same, sleeps]
    exact mem_cons_self
  exact (hp.home o created (by simp)).mono (update_of_ne same _ _) id
    (mem_cons_of_mem _) (fun _ => id) fun q mem => ⟨q, mem⟩

lemma Settled.threadSleepTicks (ticks now : Nat) :
    ∃ more, (sys.threadSleepTicks ticks now).Settled (ready.tail ++ more)
      (if ticks = 0 then sleepers else sys.current :: sleepers) := by
  unfold Scheduler.threadSleepTicks
  split_ifs
  · exact settled.schedule
  exact (settled.fallAsleep notIdle ticks now).scheduleParked notIdle
    (update_self ..) (by decide) (by decide)

lemma Settled.park (q : Nat) : ((sys.setWaiters q (sys.waiters q ++ [sys.current])).setState
    sys.current .blocked).Ordered ready sleepers none := by
  obtain ⟨hs, hp⟩ := settled.ordered
  obtain ⟨-, -, notWaiting⟩ := settled.unqueued
  have waitersEq (o : Nat) (mem : Nat) :
    mem ∈ update sys.waiters q (sys.waiters q ++ [sys.current]) o ↔
      mem ∈ sys.waiters o ∨ o = q ∧ mem = sys.current := by
    by_cases same : o = q
    · subst same
      simp
    · simp [same]
  refine ⟨{ hs with },
    fun o mem => settled.keeps (hp.inReady o mem) (by decide) _ rfl rfl,
    fun o mem => settled.keeps (hp.inSleepers o mem) (by decide) _ rfl rfl,
    ?_, hp.readyNodup, hp.sleepersNodup, ?_, ?_, ?_⟩
  · intro each o mem
    rcases (waitersEq each o).mp mem with mem | ⟨-, same⟩
    · exact settled.keeps (hp.inWaiters each o mem) (by decide) _ rfl rfl
    rw [same]
    exact ⟨settled.isThread notIdle, update_self .., by simp⟩
  · intro each
    change (update sys.waiters q _ each).Nodup
    by_cases same : each = q
    · subst same
      rw [update_self]
      refine nodup_append.mpr ⟨hp.waitersNodup each, nodup_singleton _, ?_⟩
      intro fst mem snd isCurrent
      rw [mem_singleton.mp isCurrent]
      exact ne_of_mem_of_not_mem mem (notWaiting each)
    rw [update_of_ne same]
    exact hp.waitersNodup each
  · intro o fst snd inFirst inSecond
    rcases (waitersEq fst o).mp inFirst with inFirst | ⟨firstEq, isCurrent⟩
    · rcases (waitersEq snd o).mp inSecond with inSecond | ⟨-, isCurrent⟩
      · exact hp.alone o fst snd inFirst inSecond
      rw [isCurrent] at inFirst
      exact absurd inFirst (notWaiting fst)
    rcases (waitersEq snd o).mp inSecond with inSecond | ⟨secondEq, -⟩
    · rw [isCurrent] at inSecond
      exact absurd inSecond (notWaiting snd)
    · rw [firstEq, secondEq]
  intro o created _
  by_cases same : o = sys.current
  · unfold Home
    rw [same, show ((sys.setWaiters q _).setState sys.current .blocked).state
      sys.current = .blocked from update_self ..]
    exact ⟨q, (waitersEq q _).mpr (.inr ⟨rfl, rfl⟩)⟩
  exact (hp.home o created (by simp)).mono (update_of_ne same _ _) id id
    (fun _ => id) fun each mem => ⟨each, (waitersEq each o).mpr (.inl mem)⟩

lemma Settled.waitqueueWait (q : Nat) :
    ∃ more, (sys.waitqueueWait q).Settled (ready.tail ++ more) sleepers :=
  (settled.park notIdle q).scheduleParked notIdle (update_self ..) (by decide) (by decide)

end

end

lemma Running.makeReady (running : sys.Running) (ne : t ≠ sys.current) :
    (sys.schedulerMakeReady t).Running :=
  ⟨running.current, (state_makeReady_of_ne ne.symm).trans running.state⟩

lemma Settled.allocate (settled : sys.Settled ready sleepers) (alloc : Scheduler) (created : alloc =
    { sys with
      state := update sys.state sys.nextId .new
      next := update sys.next sys.nextId none
      wakeTick := update sys.wakeTick sys.nextId 0
      nextId := sys.nextId + 1 }) : alloc.Ordered ready sleepers (some sys.nextId) := by
  subst created
  obtain ⟨hs, hp⟩ := settled.ordered
  have older {state : ThreadState} {o : Nat} (queued : sys.Queued none state o) :
    o ≠ sys.nextId :=
    Nat.ne_of_lt queued.isThread.2
  refine ⟨⟨?_, hs.tail, ?_⟩, ?_, ?_, ?_, hp.readyNodup, hp.sleepersNodup,
    hp.waitersNodup, hp.alone, ?_⟩
  · exact update hs.readyLinked (fun mem => older (hp.inReady _ mem) rfl) none
  · exact update hs.sleepersLinked (fun mem => older (hp.inSleepers _ mem) rfl) none
  · intro o mem
    have queued := hp.inReady o mem
    exact queued.mono (le_succ _) (update_of_ne (older queued) _ _)
      (by simp [(older queued).symm])
  · intro o mem
    have queued := hp.inSleepers o mem
    exact queued.mono (le_succ _) (update_of_ne (older queued) _ _)
      (by simp [(older queued).symm])
  · intro q o mem
    have queued := hp.inWaiters q o mem
    exact queued.mono (le_succ _) (update_of_ne (older queued) _ _)
      (by simp [(older queued).symm])
  intro o isThread fixed
  have ne : o ≠ sys.nextId := fun same => fixed (same ▸ rfl)
  have bound : o < sys.nextId + 1 := isThread.2
  exact (hp.home o ⟨isThread.1, by omega⟩ (by simp)).mono
    (update_of_ne ne _ _) id id (fun _ => id) fun q mem => ⟨q, mem⟩

lemma Settled.threadCreate (settled : sys.Settled ready sleepers) (ids : idle < sys.nextId)
    (ram : Bool) : ∃ more, (sys.threadCreate ram).Settled (ready ++ more) sleepers := by
  cases ram with
  | false => exact ⟨[], (append_nil ready).symm ▸ settled⟩
  | true =>
    have older : sys.nextId ≠ sys.current := by
      rcases settled.running.current with isThread | isIdle
      · exact (Nat.ne_of_lt isThread.2).symm
      · omega
    refine ⟨_, (settled.allocate _ rfl).makeReady_loose ⟨ids, Nat.lt_succ_self _⟩, ?_⟩
    refine Running.makeReady ⟨?_, ?_⟩ older
    · exact settled.running.current.imp_left fun isThread => ⟨isThread.1, lt_succ_of_lt isThread.2⟩
    · exact (update_of_ne older.symm _ _).trans settled.running.state

lemma Ordered.unpark {r : List Nat} {queue : Nat} (sorted : sys.Ordered ready sleepers none)
    (waiting : sys.waiters queue = t :: r) :
    ((sys.setWaiters queue r).setState t .ready).Ordered ready sleepers
      (some t) := by
  obtain ⟨hs, hp⟩ := sorted
  have fst : t ∈ sys.waiters queue := waiting ▸ mem_cons_self
  have blocked := (hp.inWaiters queue t fst).state
  obtain ⟨fresh, nodup⟩ := nodup_cons.mp (waiting ▸ hp.waitersNodup queue)
  have waitersEq (each other : Nat) :
    other ∈ update sys.waiters queue r each ↔ other ∈ sys.waiters each ∧ other ≠ t := by
    by_cases same : each = queue
    · subst same
      rw [update_self, waiting, mem_cons]
      constructor
      · exact fun mem => ⟨.inr mem, ne_of_mem_of_not_mem mem fresh⟩
      · exact fun mem => mem.1.resolve_left mem.2
    rw [update_of_ne same]
    refine ⟨fun mem => ⟨mem, ?_⟩, fun mem => mem.1⟩
    intro isThread
    exact same (hp.alone t each queue (isThread ▸ mem) fst)
  have keeps {state : ThreadState} {other : Nat} (ne : other ≠ t)
    (queued : sys.Queued none state other) :
    ((sys.setWaiters queue r).setState t .ready).Queued (some t) state other :=
    queued.mono (le_refl _) (update_of_ne ne _ _) (by simp [ne.symm])
  have otherState {state : ThreadState} {other : Nat} (differs : ThreadState.blocked ≠ state)
    (queued : sys.Queued none state other) : other ≠ t := by
    intro same
    rw [same] at queued
    exact differs (blocked.symm.trans queued.state)
  refine ⟨{ hs with }, ?_, ?_, ?_, hp.readyNodup,
    hp.sleepersNodup, ?_, ?_, ?_⟩
  · intro other mem
    have queued := hp.inReady other mem
    exact keeps (otherState (by decide) queued) queued
  · intro other mem
    have queued := hp.inSleepers other mem
    exact keeps (otherState (by decide) queued) queued
  · intro each other mem
    obtain ⟨mem, ne⟩ := (waitersEq each other).mp mem
    exact keeps ne (hp.inWaiters each other mem)
  · intro each
    change (update sys.waiters queue r each).Nodup
    by_cases same : each = queue
    · rw [same, update_self]
      exact nodup
    rw [update_of_ne same]
    exact hp.waitersNodup each
  · intro other one two inOne inTwo
    exact hp.alone other one two ((waitersEq one other).mp inOne).1
      ((waitersEq two other).mp inTwo).1
  intro other isThread fixed
  have ne : other ≠ t := fun same => fixed (same ▸ rfl)
  exact (hp.home other isThread (by simp)).mono (update_of_ne ne _ _) id id
    (fun _ => id) fun each mem => ⟨each, (waitersEq each other).mpr ⟨mem, ne⟩⟩

lemma Settled.waitqueueWakeOne (settled : sys.Settled ready sleepers) (queue : Nat) :
    ∃ more, (sys.waitqueueWakeOne queue).Settled (ready ++ more) sleepers := by
  cases waiting : sys.waiters queue with
  | nil =>
    simp only [Scheduler.waitqueueWakeOne, waiting]
    exact ⟨[], (append_nil ready).symm ▸ settled⟩
  | cons t =>
    simp only [Scheduler.waitqueueWakeOne, waiting]
    have first : t ∈ sys.waiters queue := waiting ▸ mem_cons_self
    have queued := settled.ordered.placed.inWaiters queue t first
    have ne : t ≠ sys.current := ne_of_mem_of_not_mem first (settled.unqueued.2.2 queue)
    refine ⟨_, (settled.ordered.unpark waiting).makeReady_loose queued.isThread, ?_⟩
    exact Running.makeReady ⟨settled.running.current,
      (update_of_ne ne.symm _ _).trans settled.running.state⟩ ne

lemma Settled.wakeAllLoop (q k : Nat) :
    ∀ (sys : Scheduler) (ready : List Nat), sys.Settled ready sleepers →
      ∃ more, (wakeAllLoop q k sys).Settled (ready ++ more) sleepers := by
  induction k with
  | zero => exact fun sys ready settled => ⟨[], (append_nil ready).symm ▸ settled⟩
  | succ k ih =>
    intro sys ready settled
    obtain ⟨one, woken⟩ := settled.waitqueueWakeOne q
    obtain ⟨more, woken⟩ := ih _ _ woken
    exact ⟨one ++ more, append_assoc .. ▸ woken⟩

lemma Settled.waitqueueResume (settled : sys.Settled ready sleepers) (q : Nat) :
    sys.waitqueueResume q = sys := by
  unfold Scheduler.waitqueueResume setWaiters
  rw [erase_of_not_mem (settled.unqueued.2.2 q), update_eq_self]

lemma Ordered.unlinkSleeper {pre rest : List Nat}
    (sorted : sys.Ordered ready (pre ++ t :: rest) none) :
    (sys.unlinkSleeper pre.getLast? t).Ordered ready (pre ++ rest) (some t) := by
  obtain ⟨hs, hp⟩ := sorted
  have nodup := hp.sleepersNodup
  have hi : t ∈ pre ++ t :: rest := by simp
  have fresh : t ∉ pre ++ rest := (nodup_middle.mp nodup |> nodup_cons.mp).1
  have within {other : Nat} (mem : other ∈ pre ++ rest) : other ∈ pre ++ t :: rest := by
    rcases mem_append.mp mem with mem | mem
    · exact mem_append_left _ mem
    · exact mem_append_right _ (mem_cons_of_mem t mem)
  have sleeping := (hp.inSleepers t hi).state
  have awake (other : Nat) (mem : other ∈ ready) : other ∉ pre ++ t :: rest :=
    hp.notMem_sleepers mem
  have keeps {state : ThreadState} {other : Nat} (ne : other ≠ t)
    (queued : sys.Queued none state other) :
    (sys.unlinkSleeper pre.getLast? t).Queued (some t) state other :=
    queued.mono (le_refl _) rfl (by simp [ne.symm])
  have otherState {state : ThreadState} {other : Nat} (differs : ThreadState.sleeping ≠ state)
    (queued : sys.Queued none state other) : other ≠ t := by
    intro same
    rw [same] at queued
    exact differs (sleeping.symm.trans queued.state)
  refine ⟨⟨?_, hs.tail, ?_⟩, ?_, ?_, ?_, hp.readyNodup, ?_, hp.waitersNodup, hp.alone, ?_⟩
  · refine update (redirect_of_disjoint hs.readyLinked ?_ _) ?_ none
    · intro final lastEq mem
      exact awake final mem (mem_append_left _ (mem_of_getLast? lastEq))
    · exact fun mem => awake t mem hi
  · exact update (hs.sleepersLinked.unlink nodup) fresh none
  · intro other mem
    have queued := hp.inReady other mem
    exact keeps (otherState (by decide) queued) queued
  · intro other mem
    exact keeps (ne_of_mem_of_not_mem mem fresh) (hp.inSleepers other (within mem))
  · intro q other mem
    have queued := hp.inWaiters q other mem
    exact keeps (otherState (by decide) queued) queued
  · exact (nodup_middle.mp nodup |> nodup_cons.mp).2
  intro other isThread fixed
  have ne : other ≠ t := fun same => fixed (same ▸ rfl)
  refine (hp.home other isThread (by simp)).mono rfl id ?_ (fun _ => id)
    fun q mem => ⟨q, mem⟩
  intro mem
  rcases mem_append.mp mem with mem | mem
  · exact mem_append_left rest mem
  · exact mem_append_right pre ((mem_cons.mp mem).resolve_left ne)

lemma Settled.sleepWakeupLoop (tick : Nat) (k : Nat) :
    ∀ (sys : Scheduler) (ready pre rest : List Nat),
      sys.Settled ready (pre ++ rest) → rest.length < k →
        ∃ woken, sleepWakeupLoop tick k pre.getLast? sys = some woken ∧
          woken.Settled (ready ++ rest.filter (sys.wakeTick · ≤ tick))
            (pre ++ rest.filter (tick < sys.wakeTick ·)) ∧
          woken.nextId = sys.nextId ∧ woken.wakeTick = sys.wakeTick := by
  induction k with
  | zero => exact fun _ _ _ rest _ le => absurd le (not_lt_zero _)
  | succ k ih =>
    intro sys ready pre rest settled le
    obtain ⟨ptr, leading, following⟩ := segment_append.mp settled.ordered.shape.sleepersLinked
    have here := pointerAt_getLast leading
    unfold Scheduler.sleepWakeupLoop
    cases rest with
    | nil =>
      rw [here, show ptr = none from following]
      exact ⟨sys, rfl, (append_nil ready).symm ▸ settled, rfl, rfl⟩
    | cons t rest =>
      rw [here, following.1]
      simp only [length_cons] at le
      dsimp only
      split_ifs with expired
      · have mem : t ∈ pre ++ t :: rest := by simp
        have isThread := (settled.ordered.placed.inSleepers t mem).isThread
        have ne : t ≠ sys.current := ne_of_mem_of_not_mem mem settled.unqueued.2.1
        have woken := settled.ordered.unlinkSleeper.makeReady_loose isThread
        have running : ((sys.unlinkSleeper pre.getLast? t).schedulerMakeReady
          t).Running :=
          Running.makeReady ⟨settled.running.current, settled.running.state⟩ ne
        rw [filter_cons_of_pos (by simpa), filter_cons_of_neg (by simpa), append_cons]
        exact ih _ _ pre rest ⟨woken, running⟩ (by omega)
      have passed : sys.Settled ready ((pre ++ [t]) ++ rest) := by
        rw [append_assoc]
        exact settled
      have further := ih sys ready (pre ++ [t]) rest passed (by omega)
      rw [List.getLast?_concat, append_assoc] at further
      rw [filter_cons_of_neg (by simpa using expired), filter_cons_of_pos (by simpa using expired)]
      exact further

lemma Settled.sleepWakeupExpired (settled : sys.Settled ready sleepers) (tick : Nat) :
    ∃ woken, sys.sleepWakeupExpired tick = some woken ∧
      woken.Settled (ready ++ sleepers.filter (sys.wakeTick · ≤ tick))
        (sleepers.filter (tick < sys.wakeTick ·)) ∧
      woken.nextId = sys.nextId ∧ woken.wakeTick = sys.wakeTick := by
  have placed := settled.ordered.placed
  have bounded : sleepers ⊆ List.range sys.nextId := fun t mem =>
    mem_range.mpr (placed.inSleepers t mem).isThread.2
  have short := (placed.sleepersNodup.subperm bounded).length_le
  rw [length_range] at short
  exact Settled.sleepWakeupLoop tick (sys.nextId + 1) sys ready [] sleepers settled (by omega)

def Frame (sys post : Scheduler) : Prop := post.nextId = sys.nextId ∧ post.wakeTick = sys.wakeTick

lemma frame_schedule (sys : Scheduler) : sys.Frame sys.schedule := by
  unfold Scheduler.schedule switchFrom
  split <;> split_ifs <;> exact ⟨rfl, rfl⟩

lemma frame_waitqueueWakeOne (q : Nat) (sys : Scheduler) : sys.Frame (sys.waitqueueWakeOne q) := by
  unfold Scheduler.waitqueueWakeOne
  split <;> exact ⟨rfl, rfl⟩

lemma frame_wakeAllLoop (q k : Nat) (sys : Scheduler) :
    sys.Frame (Scheduler.wakeAllLoop q k sys) := by
  induction k generalizing sys with
  | zero => exact ⟨rfl, rfl⟩
  | succ k ih =>
    have one := frame_waitqueueWakeOne q sys
    exact ⟨(ih _).1.trans one.1, (ih _).2.trans one.2⟩

structure Safe (sys : Scheduler) : Prop where
  settled : ∃ ready sleepers, sys.Settled ready sleepers
  ids : idle < sys.nextId

def schedules (sys : Scheduler) : Event → Bool
  | .yield | .sleep _ _ | .wait _ | .exit => true
  | .irqExit => sys.needResched
  | _ => false

def Event.tick : Event → Option Nat
  | .timerTick now => some now
  | .wakeupExpired tick => some tick
  | _ => none

/-- Only `schedule` takes the head of the ready queue, and only expired sleepers leave. -/
structure Step (sys post : Scheduler) (ready sleepers : List Nat) (event : Event) : Prop where
  settled : ∃ more slept, post.Settled ((if sys.schedules event then ready.tail else ready) ++ more)
    (slept ++ sleepers.filter fun t => event.tick.all (· < sys.wakeTick t))
  ids : idle < post.nextId
  wakeTick : ∀ t ∈ sleepers, post.wakeTick t = sys.wakeTick t

/-- Every event that the thread may issue ends and keeps the invariant. -/
lemma Settled.apply (settled : sys.Settled ready sleepers) (ids : idle < sys.nextId) (event : Event)
    (allowed : ¬ (event.parks ∧ sys.current = idle)) :
    ∃ post, sys.apply event = some post ∧ sys.Step post ready sleepers event := by
  -- An event without a tick: the sleep list keeps all its threads.
  have calm {post : Scheduler} (ends : sys.apply event = some post) (quiet : event.tick = none)
    (slept : List Nat) (frame : sys.Frame post) (kept : ∃ more,
      post.Settled ((if sys.schedules event then ready.tail else ready) ++ more)
        (slept ++ sleepers)) :
    ∃ post, sys.apply event = some post ∧ sys.Step post ready sleepers event := by
    obtain ⟨more, kept⟩ := kept
    refine ⟨post, ends, ⟨more, slept, ?_⟩, frame.1 ▸ ids, fun t _ => congrFun frame.2 t⟩
    simpa [quiet] using kept
  have notIdle (parks : event.parks = true) : sys.current ≠ idle := fun isIdle =>
    allowed ⟨parks, isIdle⟩
  cases event with
  | create ram =>
    obtain ⟨more, made⟩ := settled.threadCreate ids ram
    refine ⟨_, rfl, ⟨more, [], by simpa [schedules, Event.tick] using made⟩, ?_, fun t mem => ?_⟩
    · cases ram with
      | false => exact ids
      | true => exact lt_succ_of_lt ids
    have older := (settled.ordered.placed.inSleepers t mem).isThread.2
    cases ram with
    | false => rfl
    | true => exact update_of_ne older.ne _ _
  | yield => exact calm rfl rfl [] (frame_schedule sys) settled.schedule
  | timerTick now =>
    obtain ⟨woken, wokenEq, wokenSettled, idsEq, ticksEq⟩ := settled.sleepWakeupExpired now
    simp only [Scheduler.apply, schedulerOnTimerTick, wokenEq, Option.map_some]
    exact ⟨_, rfl, ⟨_, [], wokenSettled.ordered.retime _ _, wokenSettled.running.current,
      wokenSettled.running.state⟩, idsEq ▸ ids, fun t _ => congrFun ticksEq t⟩
  | irqExit =>
    have cleared : { sys with needResched := false }.Settled ready sleepers :=
      ⟨settled.ordered.retime sys.slice false, settled.running.current, settled.running.state⟩
    cases needed : sys.needResched with
    | true =>
      have applied : sys.apply .irqExit = some { sys with needResched := false }.schedule := by
        simp [Scheduler.apply, schedulerIrqExit, needed]
      refine calm applied rfl [] (frame_schedule { sys with needResched := false }) ?_
      simp only [schedules, needed, if_true]
      exact cleared.schedule
    | false =>
      have applied : sys.apply .irqExit = some sys := by
        simp [Scheduler.apply, schedulerIrqExit, needed]
      exact calm applied rfl [] ⟨rfl, rfl⟩ ⟨[], by simpa [schedules, needed] using settled⟩
  | sleep ticks now =>
    obtain ⟨more, slept⟩ := settled.threadSleepTicks (notIdle rfl) ticks now
    by_cases zero : ticks = 0
    · subst zero
      exact calm rfl rfl [] (frame_schedule sys) ⟨more, slept⟩
    have frame := frame_schedule (sys.fallAsleep ticks now)
    simp only [Scheduler.apply, Scheduler.threadSleepTicks, if_neg zero] at slept ⊢
    refine ⟨_, rfl, ⟨more, [sys.current], by simpa [schedules, Event.tick] using slept⟩,
      frame.1 ▸ ids, fun t mem => ?_⟩
    rw [frame.2]
    exact update_of_ne (ne_of_mem_of_not_mem mem settled.unqueued.2.1) _ _
  | wakeupExpired tick =>
    obtain ⟨woken, wokenEq, wokenSettled, idsEq, ticksEq⟩ := settled.sleepWakeupExpired tick
    exact ⟨woken, wokenEq, ⟨_, [], wokenSettled⟩, idsEq ▸ ids, fun t _ => congrFun ticksEq t⟩
  | wait q => exact calm rfl rfl [] (frame_schedule _) (settled.waitqueueWait (notIdle rfl) q)
  | resume q =>
    refine calm rfl rfl [] ⟨rfl, rfl⟩ ⟨[], ?_⟩
    rw [settled.waitqueueResume q]
    simpa [schedules] using settled
  | wakeOne q => exact calm rfl rfl [] (frame_waitqueueWakeOne q sys) (settled.waitqueueWakeOne q)
  | wakeAll q =>
    exact calm rfl rfl [] (frame_wakeAllLoop q _ sys) (Settled.wakeAllLoop q _ sys ready settled)
  | exit => exact calm rfl rfl [] (frame_schedule _) (settled.threadExit (notIdle rfl))

lemma Safe.apply (safe : sys.Safe) (ev : Event) (allowed : ¬ (ev.parks ∧ sys.current = idle)) :
    ∃ post, sys.apply ev = some post ∧ post.Safe := by
  obtain ⟨⟨ready, sleepers, settled⟩, ids⟩ := safe
  obtain ⟨post, applied, step⟩ := settled.apply ids ev allowed
  obtain ⟨more, slept, settled⟩ := step.settled
  exact ⟨post, applied, ⟨_, _, settled⟩, step.ids⟩

lemma Safe.start : schedulerInit.schedulerStart.Safe := by
  have noThread (t : Nat) : ¬ (schedulerInit.setState bootThread .dead).IsThread t := by
    rintro ⟨above, below⟩
    change 1 < t at above
    change t < 2 at below
    omega
  have sorted : (schedulerInit.setState bootThread .dead).Ordered [] [] none :=
    ⟨⟨rfl, rfl, rfl⟩, fun _ mem => absurd mem (by simp), fun _ mem => absurd mem (by simp),
      fun _ _ mem => absurd mem (not_mem_nil), nodup_nil, nodup_nil,
      fun _ => nodup_nil, fun _ _ _ mem => absurd mem (not_mem_nil),
      fun t isThread => absurd isThread (noThread t)⟩
  obtain ⟨more, started⟩ := sorted.scheduleParked (by decide) rfl (by decide) (by decide)
  exact ⟨⟨_, [], started⟩, by decide⟩

lemma Safe.run {evs : List Event} (safe : sys.Safe)
    (ran : sys.run evs = some post) : post.Safe := by
  induction evs generalizing sys with
  | nil =>
    cases ran
    exact safe
  | cons ev r ih =>
    rw [Scheduler.run] at ran
    split_ifs at ran with allowed
    obtain ⟨mid, applied, midSafe⟩ := safe.apply ev allowed
    rw [applied] at ran
    exact ih midSafe ran

inductive Place where
  | current
  | ready
  | sleeping
  | waiting (queue : Nat)
  | dead

def Place.state : Place → ThreadState
  | .current => .running
  | .ready => .ready
  | .sleeping => .sleeping
  | .waiting _ => .blocked
  | .dead => .dead

def Occupies (sys : Scheduler) (ready sleepers : List Nat) (thr : Nat) : Place → Prop
  | .current => thr = sys.current
  | .ready => thr ∈ ready
  | .sleeping => thr ∈ sleepers
  | .waiting queue => thr ∈ sys.waiters queue
  | .dead => sys.state thr = .dead

/-- Every thread is in one place, once, and its state matches. -/
structure Partitioned (sys : Scheduler) (ready sleepers : List Nat) : Prop where
  readyLinked : Linked sys.next sys.readyHead ready
  readyTail : sys.readyTail = ready.getLast?
  readyEmpty : sys.readyTail = none ↔ sys.readyHead = none
  sleepersLinked : Linked sys.next sys.sleepHead sleepers
  once : ready.Nodup ∧ sleepers.Nodup ∧ ∀ queue, (sys.waiters queue).Nodup
  place : ∀ t, sys.IsThread t → ∃! place, sys.Occupies ready sleepers t place
  state : ∀ t place, sys.IsThread t → sys.Occupies ready sleepers t place →
    sys.state t = place.state
  idleOutside : idle ∉ ready ∧ idle ∉ sleepers ∧ ∀ queue, idle ∉ sys.waiters queue

section
variable (settled : sys.Settled ready sleepers)
include settled

lemma Settled.state_of_occupies {place : Place}
    (occupies : sys.Occupies ready sleepers t place) : sys.state t = place.state := by
  have placed := settled.ordered.placed
  cases place with
  | current =>
    rw [show t = sys.current from occupies]
    exact settled.running.state
  | ready => exact (placed.inReady t occupies).state
  | sleeping => exact (placed.inSleepers t occupies).state
  | waiting q => exact (placed.inWaiters q t occupies).state
  | dead => exact occupies

lemma Settled.exists_place (isThread : sys.IsThread t) :
    ∃ place, sys.Occupies ready sleepers t place := by
  have home := settled.ordered.placed.home t isThread (by simp)
  unfold Home at home
  cases stateEq : sys.state t with
  | new => rw [stateEq] at home; exact home.elim
  | ready => rw [stateEq] at home; exact ⟨.ready, home⟩
  | running => rw [stateEq] at home; exact ⟨.current, home⟩
  | sleeping => rw [stateEq] at home; exact ⟨.sleeping, home⟩
  | blocked =>
    rw [stateEq] at home
    obtain ⟨q, mem⟩ := home
    exact ⟨.waiting q, mem⟩
  | dead => exact ⟨.dead, stateEq⟩

lemma Settled.place_unique {fst second : Place} (inFirst : sys.Occupies ready sleepers t fst)
    (inSecond : sys.Occupies ready sleepers t second) : fst = second := by
  have same : fst.state = second.state :=
    (settled.state_of_occupies inFirst).symm.trans (settled.state_of_occupies inSecond)
  by_cases waits : ∃ q, fst = .waiting q
  · obtain ⟨q, rfl⟩ := waits
    cases second with
    | waiting o =>
      exact congrArg Place.waiting
        (settled.ordered.placed.alone t q o inFirst inSecond)
    | current | ready | sleeping | dead => exact absurd same (by simp [Place.state])
  · cases fst <;> cases second <;> simp_all [Place.state]

lemma Settled.partitioned : sys.Partitioned ready sleepers := by
  obtain ⟨hs, hp⟩ := settled.ordered
  refine ⟨hs.readyLinked, hs.tail, ?_, hs.sleepersLinked,
    ⟨hp.readyNodup, hp.sleepersNodup, hp.waitersNodup⟩, ?_,
    fun _ _ _ occupies => settled.state_of_occupies occupies, ?_, ?_, ?_⟩
  · rw [hs.tail, hs.readyLinked.head_eq, List.getLast?_eq_none_iff, List.head?_eq_none_iff]
  · intro t isThread
    obtain ⟨place, occupies⟩ := settled.exists_place isThread
    exact ⟨place, occupies, fun o inOther => settled.place_unique inOther occupies⟩
  · exact fun mem => absurd (hp.inReady idle mem).isThread.1 (lt_irrefl idle)
  · exact fun mem => absurd (hp.inSleepers idle mem).isThread.1 (lt_irrefl idle)
  · exact fun q mem => absurd (hp.inWaiters q idle mem).isThread.1 (lt_irrefl idle)

end

/-- In every run the threads are partitioned over the places, and every further event ends. -/
theorem scheduler_partition_of_run (evs : List Event) (sys : Scheduler)
    (ran : schedulerInit.schedulerStart.run evs = some sys) :
    (∃ ready sleepers, sys.Partitioned ready sleepers) ∧ ∀ ev, ¬ (ev.parks ∧ sys.current = idle) →
        ∃ post, sys.apply ev = some post := by
  have safe := Safe.start.run ran
  obtain ⟨ready, sleepers, settled⟩ := safe.settled
  refine ⟨⟨ready, sleepers, settled.partitioned⟩, ?_⟩
  intro ev allowed
  obtain ⟨post, applied, -⟩ := safe.apply ev allowed
  exact ⟨post, applied⟩

def sleepWaitExit : List Event :=
  [.create true, .create true, .create true, .yield, .sleep 3 10, .wait 7, .exit,
    .wakeupExpired 13, .wakeOne 7, .yield]

theorem sleepWaitExit_partitioned :
    ∃ sys, schedulerInit.schedulerStart.run sleepWaitExit = some sys ∧
      sys.current = 2 ∧ ∃ ready sleepers, sys.Partitioned ready sleepers := by
  have ran : ((schedulerInit.schedulerStart.run sleepWaitExit).map
    fun sys => decide (sys.current = 2)) = some true := by
    decide +kernel
  obtain ⟨sys, ranEq, current⟩ := Option.map_eq_some_iff.mp ran
  exact ⟨sys, ranEq, of_decide_eq_true current,
    (scheduler_partition_of_run sleepWaitExit sys ranEq).1⟩

end Scheduler

end

open Function List

namespace Scheduler

variable {sys post : Scheduler} {ready sl : List Nat} {t k now : Nat} {event : Event}
  {events : List Event}

def At (sys : Scheduler) (t k : Nat) : Prop :=
  ∃ ready, Linked sys.next sys.readyHead ready ∧ ready[k]? = some t

def scheduleCalls : Scheduler → List Event → Nat
  | _, [] => 0
  | sys, event :: rest =>
    (sys.schedules event).toNat + (sys.apply event).elim 0 fun post => post.scheduleCalls rest

lemma current_schedule (head : sys.readyHead = some t) : sys.schedule.current = t := by
  rw [schedule_of_head head, switchFrom]
  split
  · split <;> simp_all [schedulerMakeReady, readyDequeue]
  · rfl

lemma current_apply (cs : sys.schedules event = true) (head : sys.readyHead = some t)
    (ha : sys.apply event = some post) : post.current = t := by
  cases event with
  | create | timerTick | wakeupExpired | resume | wakeOne | wakeAll => cases cs
  | yield | wait | exit =>
    cases ha
    exact current_schedule head
  | irqExit =>
    cases ha
    rw [schedulerIrqExit, if_pos (show sys.needResched = true from cs)]
    exact current_schedule head
  | sleep =>
    cases ha
    rw [threadSleepTicks]
    split
    · exact current_schedule head
    · exact current_schedule head

lemma run_cons (ran : sys.run (event :: events) = some post) :
    ∃ mid, ¬ (event.parks ∧ sys.current = idle) ∧ sys.apply event = some mid ∧
      mid.run events = some post := by
  rw [Scheduler.run] at ran
  split_ifs at ran with hn
  obtain ⟨mid, ha, ran⟩ := Option.bind_eq_some_iff.mp ran
  exact ⟨mid, hn, ha, ran⟩

lemma Settled.moves_up (hs : sys.Settled ready sl) (ids : idle < sys.nextId)
    (ran : sys.run events = some post) (here : ready[k]? = some t)
    (few : sys.scheduleCalls events ≤ k) : ∃ ready' sleepers', post.Settled ready' sleepers' ∧
      ready'[k - sys.scheduleCalls events]? = some t := by
  induction events generalizing sys ready sl k with
  | nil =>
    cases ran
    exact ⟨ready, sl, hs, here⟩
  | cons event r ih =>
    obtain ⟨mid, hn, ha, ran⟩ := run_cons ran
    obtain ⟨_, applied', step⟩ := hs.apply ids event hn
    cases ha.symm.trans applied'
    obtain ⟨more, slept, next⟩ := step.settled
    rw [scheduleCalls, ha, Option.elim_some] at few ⊢
    have inside := (List.getElem?_eq_some_iff.mp here).1
    cases cs : sys.schedules event with
    | false =>
      simp only [cs, Bool.toNat_false, Nat.zero_add, Bool.false_eq_true, if_false] at few next ⊢
      exact ih next step.ids ran ((getElem?_append_left inside).trans here) few
    | true =>
      simp only [cs, Bool.toNat_true, if_true] at few next ⊢
      obtain ⟨k, rfl⟩ : ∃ n, k = n + 1 := ⟨k - 1, by omega⟩
      have moved : (ready.tail ++ more)[k]? = some t := by
        rw [getElem?_append_left (by rw [length_tail]; omega), getElem?_tail, here]
      have later := ih next step.ids ran moved (by omega)
      rwa [show k + 1 - (1 + mid.scheduleCalls r) = k - mid.scheduleCalls r by omega]

lemma Settled.not_current (hs : sys.Settled ready sl) (hm : t ∈ ready) : sys.current ≠ t :=
  fun isCurrent => hs.unqueued.1 (isCurrent ▸ hm)

/-- A thread at place `k` of the ready queue runs from the `k + 1`-st call of `schedule`
on, and not before. -/
theorem schedule_roundRobin {history : List Event}
    (reached : schedulerInit.schedulerStart.run history = some sys) (waits : sys.At t k)
    (ran : sys.run events = some post) (few : sys.scheduleCalls events ≤ k) : post.current ≠ t ∧
      (sys.scheduleCalls events = k → ∀ event fin, post.schedules event = true →
        post.run [event] = some fin → fin.current = t ∧ fin.state t = .running) := by
  have safe := Safe.start.run reached
  obtain ⟨ready, sl, hs⟩ := safe.settled
  obtain ⟨chain, link, here⟩ := waits
  rw [Linked.unique link hs.ordered.shape.readyLinked] at here
  obtain ⟨ready', sleepers', later, there⟩ := hs.moves_up safe.ids ran here few
  refine ⟨later.not_current (mem_of_getElem? there), fun exact event fin cs last => ?_⟩
  rw [exact, Nat.sub_self, ← head?_eq_getElem?, ← later.ordered.shape.readyLinked.head_eq] at there
  obtain ⟨mid, hn, ha, ends⟩ := run_cons last
  cases ends
  obtain ⟨_, applied', finSafe⟩ := (safe.run ran).apply event hn
  cases ha.symm.trans applied'
  obtain ⟨_, _, finSettled⟩ := finSafe.settled
  have runs := current_apply cs there ha
  exact ⟨runs, runs ▸ finSettled.running.state⟩

theorem schedule_roundRobin_created : ∃ sys mid fin,
    schedulerInit.schedulerStart.run [.create true, .create true] = some sys ∧
      sys.run [.yield, .create true] = some mid ∧ mid.current ≠ 3 ∧
      mid.run [.yield] = some fin ∧ fin.current = 3 := by
  have reached : schedulerInit.schedulerStart.run [.create true, .create true] =
    some ((schedulerInit.schedulerStart.threadCreate true).threadCreate true) := rfl
  have second : ((schedulerInit.schedulerStart.threadCreate true).threadCreate true).At 3 1 :=
    ⟨[2, 3], ⟨rfl, rfl, rfl⟩, rfl⟩
  have next := schedule_roundRobin reached second
    (show run _ [.yield, .create true] = some _ from rfl) (by decide)
  exact ⟨_, _, _, reached, rfl, next.1, rfl, (next.2 rfl .yield _ rfl rfl).1⟩

def sleepTicks (ms : Nat) : Nat :=
  let ticks := u64 (u64 (ms * 100) + 999) / 1000
  if ticks = 0 then 1 else ticks

def threadSleepMs (sys : Scheduler) (ms now : Nat) : Scheduler :=
  sys.threadSleepTicks (sleepTicks ms) now

def sysNanosleep (sys : Scheduler) (sec nsec now : Nat) : Scheduler :=
  sys.threadSleepMs (u64 (u64 (sec * 1000) + nsec / 1000000)) now

/-- Until as many ticks as asked for have passed. -/
def SleepsFor (sys slept : Scheduler) (now ms : Nat) : Prop :=
  ∀ events post, slept.run events = some post →
    (∀ event ∈ events, ∀ tick ∈ event.tick, now ≤ tick ∧ tick < now + (ms * 100 + 999) / 1000) →
      post.state sys.current = .sleeping

lemma Settled.stays_asleep (hs : sys.Settled ready sl) (ids : idle < sys.nextId)
    (hm : t ∈ sl) (ran : sys.run events = some post)
    (he : ∀ event ∈ events, ∀ tick ∈ event.tick, tick < sys.wakeTick t) :
    post.state t = .sleeping := by
  induction events generalizing sys ready sl with
  | nil =>
    cases ran
    exact (hs.ordered.placed.inSleepers t hm).state
  | cons event r ih =>
    obtain ⟨mid, hn, ha, ran⟩ := run_cons ran
    obtain ⟨_, applied', step⟩ := hs.apply ids event hn
    cases ha.symm.trans applied'
    obtain ⟨more, slept, next⟩ := step.settled
    refine ih next step.ids (mem_append_right _ (mem_filter.mpr ⟨hm, ?_⟩)) ran ?_
    · have before := he event mem_cons_self
      revert before
      cases event.tick with
      | none => exact fun _ => rfl
      | some tick => exact fun before => by simpa using before tick rfl
    intro later laterMem
    rw [step.wakeTick t hm]
    exact he later (mem_cons_of_mem _ laterMem)

lemma sleepTicks_of_lt {ms : Nat} (hf : ms * 100 + 999 < 2 ^ 64) (pos : 0 < ms) :
    sleepTicks (u64 ms) = (ms * 100 + 999) / 1000 := by
  have whole : u64 (ms * 100) = ms * 100 := u64_of_lt (by omega)
  rw [u64_of_lt (by omega), sleepTicks, whole, u64_of_lt hf]
  exact if_neg (by omega)

lemma sleepTicks_lt_of_le {ms : Nat} (wraps : 2 ^ 64 ≤ ms * 100 + 999) :
    sleepTicks (u64 ms) < (ms * 100 + 999) / 1000 := by
  have quotient : u64 (u64 (u64 ms * 100) + 999) / 1000 < (ms * 100 + 999) / 1000 := by
    simp only [u64]
    omega
  rw [sleepTicks]
  split_ifs
  · omega
  · exact quotient

/-- A thread falls asleep for long enough exactly if no sum overflows. -/
lemma Settled.sleepsFor_iff (hs : sys.Settled ready sl) (ids : idle < sys.nextId)
    (hn : sys.current ≠ idle) (hc : now < 2 ^ 64) (ms : Nat) :
    sys.SleepsFor (sys.threadSleepMs (u64 ms) now) now ms ↔
      ms = 0 ∨ ms * 100 + 999 < 2 ^ 64 ∧ now + (ms * 100 + 999) / 1000 < 2 ^ 64 := by
  have ticksPos : sleepTicks (u64 ms) ≠ 0 := by
    rw [sleepTicks]
    split_ifs <;> omega
  obtain ⟨more, slept⟩ := hs.threadSleepTicks hn (sleepTicks (u64 ms)) now
  have frame := frame_schedule (sys.fallAsleep (sleepTicks (u64 ms)) now)
  have deadline := (congrFun frame.2 sys.current).trans (update_self ..)
  rw [threadSleepMs]
  simp only [Scheduler.threadSleepTicks, if_neg ticksPos] at slept ⊢
  constructor
  · intro sleeps
    by_contra overflow
    have he : u64 (now + sleepTicks (u64 ms)) < now + (ms * 100 + 999) / 1000 := by
      rcases Nat.lt_or_ge (ms * 100 + 999) (2 ^ 64) with hf | wraps
      · rw [sleepTicks_of_lt hf (by omega), u64]
        omega
      have := sleepTicks_lt_of_le wraps
      have := Nat.mod_le (now + sleepTicks (u64 ms)) (2 ^ 64)
      rw [u64]
      omega
    obtain ⟨woken, wakes, awake, -⟩ :=
      slept.sleepWakeupExpired (max now (u64 (now + sleepTicks (u64 ms))))
    have sleeping : woken.state sys.current = .sleeping := by
      refine sleeps [.wakeupExpired (max now (u64 (now + sleepTicks (u64 ms))))] woken ?_ ?_
      · simp [Scheduler.run, Event.parks, Scheduler.apply, wakes]
      simp only [mem_singleton, forall_eq, Event.tick, Option.mem_def, Option.some.injEq,
        forall_eq', le_max_left, true_and, max_lt_iff]
      omega
    have isReady := (awake.ordered.placed.inReady sys.current (mem_append_right _
      (mem_filter.mpr ⟨mem_cons_self, by rw [deadline]; simp⟩))).state
    rw [sleeping] at isReady
    cases isReady
  intro hf events post ran ticks
  refine slept.stays_asleep (frame.1 ▸ ids) mem_cons_self ran fun event hm tick isTick => ?_
  have := ticks event hm tick isTick
  rw [deadline]
  rcases hf with rfl | ⟨hf, room⟩
  · omega
  rw [sleepTicks_of_lt hf (by omega), u64_of_lt room]
  omega

theorem sleep_lowerBound_iff {history : List Event}
    (reached : schedulerInit.schedulerStart.run history = some sys) (hn : sys.current ≠ idle)
    (hc : now < 2 ^ 64) : (∀ ms < 2 ^ 64, sys.SleepsFor (sys.threadSleepMs ms now) now ms ↔
      ms = 0 ∨ ms * 100 + 999 < 2 ^ 64 ∧ now + (ms * 100 + 999) / 1000 < 2 ^ 64) ∧
    ∀ sec nsec ms, ms = sec * 1000 + nsec / 1000000 →
      (sys.SleepsFor (sys.sysNanosleep sec nsec now) now ms ↔
        ms = 0 ∨ ms * 100 + 999 < 2 ^ 64 ∧ now + (ms * 100 + 999) / 1000 < 2 ^ 64) := by
  have safe := Safe.start.run reached
  obtain ⟨ready, sl, hs⟩ := safe.settled
  refine ⟨fun ms bound => ?_, fun sec nsec ms whole => ?_⟩
  · rw [← hs.sleepsFor_iff safe.ids hn hc ms, u64_of_lt bound]
  have msEq : u64 (u64 (sec * 1000) + nsec / 1000000) = u64 ms := by
    rw [whole, u64, u64, u64, Nat.mod_add_mod]
  rw [sysNanosleep, msEq, hs.sleepsFor_iff safe.ids hn hc ms]

def oneRuns : Scheduler := (schedulerInit.schedulerStart.threadCreate true).schedule

lemma oneRuns_reached : schedulerInit.schedulerStart.run [.create true, .yield] = some oneRuns :=
  rfl

theorem sleep_lowerBound_oneRuns : oneRuns.SleepsFor (oneRuns.threadSleepMs 1000 7) 7 1000 :=
  ((sleep_lowerBound_iff oneRuns_reached (by decide) (by decide)).1 1000 (by decide)).mpr
    (.inr (by decide))

/-- Times so long that a product wraps around. -/
theorem not_sleepsFor_oneRuns :
    schedulerInit.schedulerStart.run [.create true, .yield] = some oneRuns ∧
    ¬ oneRuns.SleepsFor (oneRuns.threadSleepMs (2 ^ 64 / 100 + 1) 7) 7 (2 ^ 64 / 100 + 1) ∧
    ¬ oneRuns.SleepsFor (oneRuns.sysNanosleep (2 ^ 64 / 1000 + 1) 0 7) 7
      ((2 ^ 64 / 1000 + 1) * 1000) := by
  have safe := Safe.start.run oneRuns_reached
  obtain ⟨ready, sl, hs⟩ := safe.settled
  have short : ∀ ms, ¬ oneRuns.SleepsFor (oneRuns.threadSleepMs (u64 ms) 7) 7 ms ↔ _ :=
    fun ms => (hs.sleepsFor_iff safe.ids (by decide) (by decide) ms).not
  refine ⟨rfl, ?_, ?_⟩
  · have early := (short (2 ^ 64 / 100 + 1)).mpr (by norm_num)
    rwa [u64_of_lt (by norm_num)] at early
  have early := (short ((2 ^ 64 / 1000 + 1) * 1000)).mpr (by norm_num)
  rwa [sysNanosleep, show u64 (u64 ((2 ^ 64 / 1000 + 1) * 1000) + 0 / 1000000) =
    u64 ((2 ^ 64 / 1000 + 1) * 1000) by norm_num [u64]]

end Scheduler

end HnxKernel
