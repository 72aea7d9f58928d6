import Mathlib.Algebra.Order.BigOperators.Group.Finset

/-!
# Locks that put their waiters to sleep

Each section that runs with interrupts disabled is one step.
-/

namespace HnxKernel

open Function List Option

/-- Whom a release wakes: nobody, the oldest waiter of a mode, or all of them. -/
inductive Wake (Mode : Type) where
  | nobody
  | one (mode : Mode)
  | all (mode : Mode)
  deriving DecidableEq, Repr

structure SleepLock (Shared Mode : Type) where
  attempt : Mode → Shared → Option Shared
  enter : Mode → Shared → Shared
  leave : Mode → Shared → Shared
  release : Mode → Shared → Shared × Wake Mode
  /-- Whether there is a try before the loop of tries and waits. -/
  fastPath : Bool
  /-- Whether a thread releases only what it holds. -/
  owned : Bool

namespace SleepLock

inductive Pc (Mode Thread : Type) where
  | outside
  | entering (mode : Mode)
  | fast (mode : Mode)
  | trying (mode : Mode)
  | parking (mode : Mode)
  | parked (mode : Mode)
  | leaving (mode : Mode)
  | trylock (mode : Mode)
  | releasing (mode : Mode)
  | waking (mode : Mode) (all : Bool)
  | readying (mode : Mode) (all : Bool) (woken : Thread)
  deriving DecidableEq, Repr

structure System (Shared Mode Thread : Type) where
  shared : Shared
  queue : Mode → List Thread
  pc : Thread → Pc Mode Thread
  held : Thread → Mode → Nat

inductive Operation (Mode : Type) where
  | lock (mode : Mode)
  | trylock (mode : Mode)
  | unlock (mode : Mode)
  deriving DecidableEq, Repr

inductive Event (Mode Thread : Type) where
  | call (thr : Thread) (operation : Operation Mode)
  | run (thr : Thread)
  deriving DecidableEq, Repr

variable {Shared Mode Thread : Type} [DecidableEq Mode] [DecidableEq Thread]

def System.init (shared : Shared) : System Shared Mode Thread where
  shared := shared
  queue := fun _ => []
  pc := fun _ => .outside
  held := fun _ _ => 0

def System.goto (sys : System Shared Mode Thread) (thr : Thread) (pc : Pc Mode Thread) :
    System Shared Mode Thread :=
  { sys with pc := update sys.pc thr pc }

def System.acquire (sys : System Shared Mode Thread) (thr : Thread) (mode : Mode)
    (shared : Shared) (pc : Pc Mode Thread) : System Shared Mode Thread where
  shared := shared
  queue := sys.queue
  pc := update sys.pc thr pc
  held := update sys.held thr
    (update (sys.held thr) mode (sys.held thr mode + 1))

def wakePc : Wake Mode → Pc Mode Thread
  | .nobody => .outside
  | .one mode => .waking mode false
  | .all mode => .waking mode true

variable (lock : SleepLock Shared Mode)

def step (thr : Thread) (sys : System Shared Mode Thread) :
    Option (System Shared Mode Thread) :=
  match sys.pc thr with
  | .outside => none
  | .parked _ => none
  | .entering mode =>
    some
      { sys with
        shared := lock.enter mode sys.shared
        pc := update sys.pc thr
          (if lock.fastPath then .fast mode else .trying mode) }
  | .fast mode =>
    match lock.attempt mode sys.shared with
    | some shared => some (sys.acquire thr mode shared (.leaving mode))
    | none => some (sys.goto thr (.trying mode))
  | .trying mode =>
    match lock.attempt mode sys.shared with
    | some shared => some (sys.acquire thr mode shared (.leaving mode))
    | none => some (sys.goto thr (.parking mode))
  | .parking mode =>
    some
      { sys with
        queue := update sys.queue mode (sys.queue mode ++ [thr])
        pc := update sys.pc thr (.parked mode) }
  | .leaving mode =>
    some
      { sys with
        shared := lock.leave mode sys.shared
        pc := update sys.pc thr .outside }
  | .trylock mode =>
    match lock.attempt mode sys.shared with
    | some shared => some (sys.acquire thr mode shared .outside)
    | none => some (sys.goto thr .outside)
  | .releasing mode =>
    some
      { sys with
        shared := (lock.release mode sys.shared).1
        pc := update sys.pc thr (wakePc (lock.release mode sys.shared).2)
        held := update sys.held thr
          (update (sys.held thr) mode (sys.held thr mode - 1)) }
  | .waking mode all =>
    match sys.queue mode with
    | [] => some (sys.goto thr .outside)
    | woken :: rest =>
      some
        { sys with
          queue := update sys.queue mode rest
          pc := update sys.pc thr (.readying mode all woken) }
  | .readying mode all woken =>
    some
      { sys with
        pc := update (update sys.pc woken (.trying mode)) thr
          (if all then .waking mode true else .outside) }

def call (thr : Thread) (sys : System Shared Mode Thread) (operation : Operation Mode) :
    Option (System Shared Mode Thread) :=
  if sys.pc thr = .outside then
    match operation with
    | .lock mode => some (sys.goto thr (.entering mode))
    | .trylock mode => some (sys.goto thr (.trylock mode))
    | .unlock mode =>
      if lock.owned ∧ sys.held thr mode = 0 then none
      else some (sys.goto thr (.releasing mode))
  else
    none

def next (sys : System Shared Mode Thread) :
    Event Mode Thread → Option (System Shared Mode Thread)
  | .call t operation => lock.call t sys operation
  | .run t => lock.step t sys

def run : System Shared Mode Thread → List (Event Mode Thread) → Option (System Shared Mode Thread)
  | s, [] => some s
  | s, event :: rest => (lock.next s event).bind fun post => run post rest

inductive Stepped (thr : Thread) (system : System Shared Mode Thread) :
    System Shared Mode Thread → Prop
  | begun (pc : Pc Mode Thread) (outside : system.pc thr = .outside)
      (starts : ∃ mode, pc = .entering mode ∨ pc = .trylock mode ∨
        pc = .releasing mode ∧ (lock.owned = true → 0 < system.held thr mode)) :
      Stepped thr system (system.goto thr pc)
  | entered (mode : Mode) (here : system.pc thr = .entering mode) (pc : Pc Mode Thread)
      (goes : pc = .fast mode ∨ pc = .trying mode) :
      Stepped thr system
        { system with
          shared := lock.enter mode system.shared
          pc := update system.pc thr pc }
  | granted (mode : Mode) (shared : Shared) (pc : Pc Mode Thread)
      (success : lock.attempt mode system.shared = some shared)
      (here : (system.pc thr = .fast mode ∨ system.pc thr = .trying mode) ∧
        pc = .leaving mode ∨ system.pc thr = .trylock mode ∧ pc = .outside) :
      Stepped thr system (system.acquire thr mode shared pc)
  | refused (mode : Mode) (pc : Pc Mode Thread) (failure : lock.attempt mode system.shared = none)
      (here : system.pc thr = .fast mode ∧ pc = .trying mode ∨
        system.pc thr = .trying mode ∧ pc = .parking mode ∨
        system.pc thr = .trylock mode ∧ pc = .outside) :
      Stepped thr system (system.goto thr pc)
  | parked (mode : Mode) (here : system.pc thr = .parking mode) :
      Stepped thr system
        { system with
          queue := update system.queue mode (system.queue mode ++ [thr])
          pc := update system.pc thr (.parked mode) }
  | left (mode : Mode) (here : system.pc thr = .leaving mode) :
      Stepped thr system
        { system with
          shared := lock.leave mode system.shared
          pc := update system.pc thr .outside }
  | released (mode : Mode) (here : system.pc thr = .releasing mode) :
      Stepped thr system
        { system with
          shared := (lock.release mode system.shared).1
          pc := update system.pc thr (wakePc (lock.release mode system.shared).2)
          held := update system.held thr
            (update (system.held thr) mode (system.held thr mode - 1)) }
  | emptied (mode : Mode) (all : Bool) (here : system.pc thr = .waking mode all)
      (empty : system.queue mode = []) : Stepped thr system (system.goto thr .outside)
  | dequeued (mode : Mode) (all : Bool) (woken : Thread) (rest : List Thread)
      (here : system.pc thr = .waking mode all) (queued : system.queue mode = woken :: rest) :
      Stepped thr system
        { system with
          queue := update system.queue mode rest
          pc := update system.pc thr (.readying mode all woken) }
  | readied (mode : Mode) (all : Bool) (woken : Thread) (pc : Pc Mode Thread)
      (here : system.pc thr = .readying mode all woken)
      (goes : all = true ∧ pc = .waking mode true ∨ all = false ∧ pc = .outside) :
      Stepped thr system
        { system with
          pc := update (update system.pc woken (.trying mode)) thr pc }

variable {lock} {s post : System Shared Mode Thread} {t : Thread}

lemma stepped_of_call {operation : Operation Mode}
    (called : lock.call t s operation = some post) : lock.Stepped t s post := by
  unfold call at called
  split_ifs at called with out
  cases operation with
  | lock mode =>
    cases called
    exact .begun _ out ⟨mode, .inl rfl⟩
  | trylock mode =>
    cases called
    exact .begun _ out ⟨mode, .inr (.inl rfl)⟩
  | unlock mode =>
    simp only [ite_none_left_eq_some] at called
    obtain ⟨ha, called⟩ := called
    cases called
    refine .begun _ out ⟨mode, .inr (.inr ⟨rfl, ?_⟩)⟩
    intro ho
    exact Nat.pos_of_ne_zero fun none => ha ⟨ho, none⟩

lemma stepped_of_step (ran : lock.step t s = some post) : lock.Stepped t s post := by
  unfold step at ran
  cases here : s.pc t with
  | outside => simp only [here, reduceCtorEq] at ran
  | parked => simp only [here, reduceCtorEq] at ran
  | entering mode =>
    simp only [here, Option.some.injEq] at ran
    rw [← ran]
    refine .entered mode here _ ?_
    cases lock.fastPath with
    | true => exact .inl rfl
    | false => exact .inr rfl
  | fast mode =>
    simp only [here] at ran
    cases attempt : lock.attempt mode s.shared with
    | some hs =>
      simp only [attempt, Option.some.injEq] at ran
      rw [← ran]
      exact .granted mode hs _ attempt (.inl ⟨.inl here, rfl⟩)
    | none =>
      simp only [attempt, Option.some.injEq] at ran
      rw [← ran]
      exact .refused mode _ attempt (.inl ⟨here, rfl⟩)
  | trying mode =>
    simp only [here] at ran
    cases attempt : lock.attempt mode s.shared with
    | some hs =>
      simp only [attempt, Option.some.injEq] at ran
      rw [← ran]
      exact .granted mode hs _ attempt (.inl ⟨.inr here, rfl⟩)
    | none =>
      simp only [attempt, Option.some.injEq] at ran
      rw [← ran]
      exact .refused mode _ attempt (.inr (.inl ⟨here, rfl⟩))
  | parking mode =>
    simp only [here, Option.some.injEq] at ran
    rw [← ran]
    exact .parked mode here
  | leaving mode =>
    simp only [here, Option.some.injEq] at ran
    rw [← ran]
    exact .left mode here
  | trylock mode =>
    simp only [here] at ran
    cases attempt : lock.attempt mode s.shared with
    | some hs =>
      simp only [attempt, Option.some.injEq] at ran
      rw [← ran]
      exact .granted mode hs _ attempt (.inr ⟨here, rfl⟩)
    | none =>
      simp only [attempt, Option.some.injEq] at ran
      rw [← ran]
      exact .refused mode _ attempt (.inr (.inr ⟨here, rfl⟩))
  | releasing mode =>
    simp only [here, Option.some.injEq] at ran
    rw [← ran]
    exact .released mode here
  | waking mode all =>
    simp only [here] at ran
    cases inQ : s.queue mode with
    | nil =>
      simp only [inQ, Option.some.injEq] at ran
      rw [← ran]
      exact .emptied mode all here inQ
    | cons woken r =>
      simp only [inQ, Option.some.injEq] at ran
      rw [← ran]
      exact .dequeued mode all woken r here inQ
  | readying mode all woken =>
    simp only [here, Option.some.injEq] at ran
    rw [← ran]
    refine .readied mode all woken _ here ?_
    cases all with
    | true => exact .inl ⟨rfl, rfl⟩
    | false => exact .inr ⟨rfl, rfl⟩

def Event.actor : Event Mode Thread → Thread
  | .call t _ => t
  | .run t => t

lemma stepped_of_next {ev : Event Mode Thread} (possible : lock.next s ev = some post) :
    lock.Stepped ev.actor s post := by
  cases ev with
  | call => exact stepped_of_call possible
  | run => exact stepped_of_step possible

variable {events : List (Event Mode Thread)} {pc : Pc Mode Thread} {mode : Mode} {all : Bool}
  {woken : Thread}

lemma invariant_of_run (inv : System Shared Mode Thread → Prop)
    (kept : ∀ t pre post, inv pre → lock.Stepped t pre post → inv post)
    (start : inv s) (ran : lock.run s events = some post) : inv post := by
  induction events generalizing s with
  | nil =>
    cases ran
    exact start
  | cons _ _ ih =>
    obtain ⟨mid, possible, ranRest⟩ := bind_eq_some_iff.mp ran
    exact ih (kept _ _ _ start (stepped_of_next possible)) ranRest

variable (lock)

def Careful (sys : System Shared Mode Thread) (thr : Thread) : Prop :=
  ∀ mode, sys.pc thr = .parking mode → lock.attempt mode sys.shared = none

def CarefulRun : System Shared Mode Thread → List (Event Mode Thread) → Prop
  | _, [] => True
  | s, event :: rest =>
    lock.Careful s event.actor ∧ ∀ post ∈ lock.next s event, CarefulRun post rest

variable {lock}

instance [Fintype Mode] [DecidableEq Shared] (sys : System Shared Mode Thread)
    (thr : Thread) : Decidable (lock.Careful sys thr) :=
  inferInstanceAs (Decidable (∀ _, _ → _))

instance CarefulRun.decidable [Fintype Mode] [DecidableEq Shared] :
    (sys : System Shared Mode Thread) → (events : List (Event Mode Thread)) →
      Decidable (lock.CarefulRun sys events)
  | _, [] => isTrue trivial
  | sys, event :: rest =>
    have (post : System Shared Mode Thread) := CarefulRun.decidable post rest
    inferInstanceAs (Decidable (_ ∧ ∀ post ∈ lock.next sys event, _))

lemma invariant_of_carefulRun (inv : System Shared Mode Thread → Prop)
    (kept : ∀ t pre post, inv pre → lock.Stepped t pre post →
      lock.Careful pre t → inv post) (start : inv s) (careful : lock.CarefulRun s events)
    (ran : lock.run s events = some post) : inv post := by
  induction events generalizing s with
  | nil =>
    cases ran
    exact start
  | cons _ _ ih =>
    obtain ⟨mid, possible, ranRest⟩ := bind_eq_some_iff.mp ran
    exact ih (kept _ _ _ start (stepped_of_next possible) careful.1)
      (careful.2 mid possible) ranRest

/-- A thread that was dequeued and not made ready yet is parked, too. -/
structure Queued (system : System Shared Mode Thread) : Prop where
  parked : ∀ mode, ∀ waiter ∈ system.queue mode, system.pc waiter = .parked mode
  nodup : ∀ mode, (system.queue mode).Nodup
  readied : ∀ waker mode all woken, system.pc waker = .readying mode all woken →
    system.pc woken = .parked mode ∧ woken ∉ system.queue mode
  single : ∀ waker other mode otherMode all otherAll woken,
    system.pc waker = .readying mode all woken →
    system.pc other = .readying otherMode otherAll woken → waker = other

omit [DecidableEq Mode] in
/-- Neither parked nor about to ready another one. -/
lemma Queued.move (inQ : Queued s) (awake : ∀ mode, s.pc t ≠ .parked mode)
    (plain : ∀ mode all woken, pc ≠ .readying mode all woken) (shared : Shared)
    (held : Thread → Mode → Nat) : Queued
      { shared := shared, queue := s.queue, pc := update s.pc t pc, held := held } := by
  have o {w : Thread} {mode : Mode} (isParked : s.pc w = .parked mode) :
    w ≠ t := by
    rintro rfl
    exact awake mode isParked
  have wakerNe {waker woken : Thread} {mode : Mode} {all : Bool}
    (here : update s.pc t pc waker = .readying mode all woken) :
    waker ≠ t := by
    rintro rfl
    rw [update_self] at here
    exact plain mode all woken here
  refine ⟨?_, inQ.nodup, ?_, ?_⟩
  · intro mode w mem
    have isParked := inQ.parked mode w mem
    exact (update_of_ne (o isParked) _ _).trans isParked
  · intro waker mode all woken here
    have apart := wakerNe here
    dsimp only at here
    rw [update_of_ne apart] at here
    obtain ⟨isParked, ha⟩ := inQ.readied waker mode all woken here
    exact ⟨(update_of_ne (o isParked) _ _).trans isParked, ha⟩
  intro waker snd mode mode2 all all2 woken here here2
  have apart := wakerNe here
  have secondApart := wakerNe here2
  dsimp only at here here2
  rw [update_of_ne apart] at here
  rw [update_of_ne secondApart] at here2
  exact inQ.single waker snd mode mode2 all all2 woken here here2

lemma Queued.park (inQ : Queued s) (here : s.pc t = .parking mode) : Queued
    { s with
      queue := update s.queue mode (s.queue mode ++ [t])
      pc := update s.pc t (.parked mode) } := by
  have ha (place : Mode) : t ∉ s.queue place := by
    intro mem
    rw [inQ.parked place t mem] at here
    cases here
  have notWoken {waker : Thread} {place : Mode} {all : Bool} :
    s.pc waker ≠ .readying place all t := by
    intro waking
    rw [(inQ.readied waker place all t waking).1] at here
    cases here
  have wakerNe {waker woken : Thread} {place : Mode} {all : Bool}
    (waking : update s.pc t (.parked mode) waker = .readying place all woken) :
    waker ≠ t := by
    rintro rfl
    rw [update_self] at waking
    cases waking
  refine ⟨?_, ?_, ?_, ?_⟩
  · intro place w mem
    dsimp only at mem ⊢
    by_cases eq : place = mode
    · subst eq
      rw [update_self, mem_append, mem_singleton] at mem
      rcases mem with old | rfl
      · rw [update_of_ne (ne_of_mem_of_not_mem old (ha place))]
        exact inQ.parked place w old
      · rw [update_self]
    rw [update_of_ne eq] at mem
    rw [update_of_ne (ne_of_mem_of_not_mem mem (ha place))]
    exact inQ.parked place w mem
  · intro place
    dsimp only
    by_cases eq : place = mode
    · subst eq
      rw [update_self]
      rw [← concat_eq_append]
      exact (inQ.nodup place).concat (ha place)
    rw [update_of_ne eq]
    exact inQ.nodup place
  · intro waker place all woken waking
    have apart := wakerNe waking
    dsimp only at waking ⊢
    rw [update_of_ne apart] at waking
    obtain ⟨isParked, notQueued⟩ := inQ.readied waker place all woken waking
    have wokenNe : woken ≠ t := by
      rintro rfl
      exact notWoken waking
    refine ⟨(update_of_ne wokenNe _ _).trans isParked, ?_⟩
    by_cases eq : place = mode
    · subst eq
      rw [update_self, mem_append, mem_singleton]
      exact fun mem => mem.elim notQueued wokenNe
    rw [update_of_ne eq]
    exact notQueued
  intro waker snd place place2 all all2 woken waking waking2
  have apart := wakerNe waking
  have secondApart := wakerNe waking2
  dsimp only at waking waking2
  rw [update_of_ne apart] at waking
  rw [update_of_ne secondApart] at waking2
  exact inQ.single waker snd place place2 all all2 woken waking waking2

lemma Queued.dequeue (inQ : Queued s) {r : List Thread}
    (here : s.pc t = .waking mode all) (list : s.queue mode = woken :: r) : Queued
      { s with
        queue := update s.queue mode r
        pc := update s.pc t (.readying mode all woken) } := by
  have nodup := inQ.nodup mode
  rw [list, nodup_cons] at nodup
  have mem : woken ∈ s.queue mode := by
    rw [list]
    exact mem_cons_self
  have isParked := inQ.parked mode woken mem
  have apartOf {w : Thread} {place : Mode} (parkedAt : s.pc w = .parked place) :
    w ≠ t := by
    rintro rfl
    rw [here] at parkedAt
    cases parkedAt
  have inOld {place : Mode} {w : Thread}
    (inNew : w ∈ update s.queue mode r place) :
    w ∈ s.queue place := by
    by_cases eq : place = mode
    · subst eq
      rw [update_self] at inNew
      rw [list]
      exact mem_cons_of_mem _ inNew
    · rwa [update_of_ne eq] at inNew
  -- the thread that was dequeued is in the hands of one waker only
  have onlyHere {waker : Thread} {place : Mode} {each : Bool}
    (waking : s.pc waker = .readying place each woken) : False := by
    obtain ⟨parkedAt, ha⟩ := inQ.readied waker place each woken waking
    have placeEq : mode = place := by
      rw [isParked] at parkedAt
      exact Pc.parked.inj parkedAt
    exact ha (placeEq ▸ mem)
  refine ⟨?_, ?_, ?_, ?_⟩
  · intro place w inNew
    have parkedAt := inQ.parked place w (inOld inNew)
    exact (update_of_ne (apartOf parkedAt) _ _).trans parkedAt
  · intro place
    dsimp only
    by_cases eq : place = mode
    · subst eq
      rw [update_self]
      exact nodup.2
    rw [update_of_ne eq]
    exact inQ.nodup place
  · intro waker place each o waking
    dsimp only at waking ⊢
    by_cases own : waker = t
    · subst own
      rw [update_self] at waking
      obtain ⟨rfl, rfl, rfl⟩ := Pc.readying.inj waking
      refine ⟨(update_of_ne (apartOf isParked) _ _).trans isParked, ?_⟩
      rw [update_self]
      exact nodup.1
    rw [update_of_ne own] at waking
    obtain ⟨parkedAt, ha⟩ := inQ.readied waker place each o waking
    refine ⟨(update_of_ne (apartOf parkedAt) _ _).trans parkedAt, ?_⟩
    exact fun inNew => ha (inOld inNew)
  intro waker snd place place2 each each2 o waking waking2
  dsimp only at waking waking2
  by_cases own : waker = t
  · subst own
    rw [update_self] at waking
    obtain ⟨rfl, rfl, rfl⟩ := Pc.readying.inj waking
    by_contra hd
    rw [update_of_ne (Ne.symm hd)] at waking2
    exact onlyHere waking2
  rw [update_of_ne own] at waking
  by_cases secondOwn : snd = t
  · subst secondOwn
    rw [update_self] at waking2
    obtain ⟨rfl, rfl, rfl⟩ := Pc.readying.inj waking2
    exact (onlyHere waking).elim
  rw [update_of_ne secondOwn] at waking2
  exact inQ.single waker snd place place2 each each2 o waking waking2

omit [DecidableEq Mode] in
lemma Queued.ready (inQ : Queued s) (here : s.pc t = .readying mode all woken)
    (plain : ∀ mode all woken, pc ≠ .readying mode all woken) : Queued
      { s with
        pc := update (update s.pc woken (.trying mode)) t pc } := by
  obtain ⟨isParked, ha⟩ := inQ.readied t mode all woken here
  have wokenNe : woken ≠ t := by
    rintro rfl
    rw [here] at isParked
    cases isParked
  have stays {w : Thread} {place : Mode} (parkedAt : s.pc w = .parked place)
    (waiterNe : w ≠ woken) :
    update (update s.pc woken (.trying mode)) t pc w = .parked place := by
    have waiterNe' : w ≠ t := by
      rintro rfl
      rw [here] at parkedAt
      cases parkedAt
    rw [update_of_ne waiterNe', update_of_ne waiterNe]
    exact parkedAt
  have wasWaking {waker o : Thread} {place : Mode} {each : Bool}
    (waking : update (update s.pc woken (.trying mode)) t pc waker = .readying place each o) :
    s.pc waker = .readying place each o ∧ waker ≠ t := by
    by_cases own : waker = t
    · subst own
      rw [update_self] at waking
      exact absurd waking (plain place each o)
    rw [update_of_ne own] at waking
    by_cases isWoken : waker = woken
    · subst isWoken
      rw [update_self] at waking
      cases waking
    rw [update_of_ne isWoken] at waking
    exact ⟨waking, own⟩
  refine ⟨?_, inQ.nodup, ?_, ?_⟩
  · intro place w mem
    have parkedAt := inQ.parked place w mem
    apply stays parkedAt
    rintro rfl
    rw [isParked] at parkedAt
    exact ha (Pc.parked.inj parkedAt ▸ mem)
  · intro waker place each o waking
    obtain ⟨was, own⟩ := wasWaking waking
    obtain ⟨parkedAt, otherAbsent⟩ := inQ.readied waker place each o was
    refine ⟨stays parkedAt ?_, otherAbsent⟩
    rintro rfl
    exact own (inQ.single waker t place mode each all o was here)
  intro waker snd place place2 each each2 o waking waking2
  exact inQ.single waker snd place place2 each each2 o (wasWaking waking).1
    (wasWaking waking2).1

omit [DecidableEq Mode] [DecidableEq Thread] in
lemma wakePc_ne_readying (wake : Wake Mode) (mode : Mode) (all : Bool) (woken : Thread) :
    wakePc wake ≠ .readying mode all woken := by
  cases wake <;> exact fun eq => by cases eq

lemma Queued.stepped (inQ : Queued s) (stepped : lock.Stepped t s post) : Queued post := by
  cases stepped with
  | begun _ out starts =>
    refine inQ.move (by simp [out]) ?_ _ _
    rintro mode all woken rfl
    simp at starts
  | entered _ here _ goes =>
    refine inQ.move (by simp [here]) ?_ _ _
    rintro place all woken rfl
    simp at goes
  | granted _ _ _ _ here =>
    refine inQ.move ?_ ?_ _ _
    · rintro place isParked
      simp [isParked] at here
    rintro place all woken rfl
    simp at here
  | refused _ _ _ here =>
    refine inQ.move ?_ ?_ _ _
    · rintro place isParked
      simp [isParked] at here
    rintro place all woken rfl
    simp at here
  | parked _ here => exact inQ.park here
  | left _ here => exact inQ.move (by simp [here]) (by simp) _ _
  | released _ here => exact inQ.move (by simp [here]) (fun _ _ _ => wakePc_ne_readying _ _ _ _) _ _
  | emptied _ _ here => exact inQ.move (by simp [here]) (by simp) _ _
  | dequeued _ _ _ _ here list => exact inQ.dequeue here list
  | readied _ _ _ _ here goes =>
    refine inQ.ready here ?_
    rintro place each o rfl
    simp at goes

omit [DecidableEq Mode] [DecidableEq Thread] in
lemma Queued.init (hs : Shared) : Queued (System.init hs : System Shared Mode Thread) where
  parked _ _ mem := by cases mem
  nodup _ := nodup_nil
  readied _ _ _ _ waking := by cases waking
  single _ _ _ _ _ _ _ waking := by cases waking

section Count

variable [Fintype Thread] {Value : Type}

lemma sum_update (weight : Value → Nat) (place : Thread → Value) (t : Thread) (value : Value) :
    ∑ each, weight (update place t value each) + weight (place t) =
      ∑ each, weight (place each) + weight value := by
  have hs (values : Thread → Value) : ∑ each, weight (values each) =
    weight (values t) + ∑ each ∈ Finset.univ.erase t, weight (values each) :=
    (Finset.add_sum_erase Finset.univ (fun each => weight (values each))
      (Finset.mem_univ t)).symm
  have others : ∑ each ∈ Finset.univ.erase t, weight (update place t value each) =
      ∑ each ∈ Finset.univ.erase t, weight (place each) := by
    apply Finset.sum_congr rfl
    intro each mem
    rw [update_of_ne (Finset.ne_of_mem_erase mem)]
  rw [hs, hs place, others, update_self]
  omega

omit [DecidableEq Thread] in
lemma weight_le_sum (weight : Value → Nat) (place : Thread → Value) (t : Thread) :
    weight (place t) ≤ ∑ each, weight (place each) :=
  Finset.single_le_sum (f := fun each => weight (place each)) (fun _ _ => Nat.zero_le _)
    (Finset.mem_univ t)

end Count

def Active (pc : Pc Mode Thread) : Prop := pc ≠ .outside ∧ ∀ mode, pc ≠ .parked mode

def pending (mode : Mode) : Pc Mode Thread → Nat
  | .fast place => if place = mode then 1 else 0
  | .trying place => if place = mode then 1 else 0
  | .waking place _ => if place = mode then 1 else 0
  | .readying place _ _ => if place = mode then 1 else 0
  | _ => 0

section Pending

variable (mode place : Mode)

omit [DecidableEq Thread] in
lemma pending_outside : pending mode (.outside : Pc Mode Thread) = 0 := rfl

omit [DecidableEq Thread] in
lemma pending_entering : pending mode (.entering place : Pc Mode Thread) = 0 := rfl

omit [DecidableEq Thread] in
lemma pending_trying :
    pending mode (.trying place : Pc Mode Thread) = if place = mode then 1 else 0 :=
  rfl

omit [DecidableEq Thread] in
lemma pending_parking : pending mode (.parking place : Pc Mode Thread) = 0 := rfl

omit [DecidableEq Thread] in
lemma pending_parked : pending mode (.parked place : Pc Mode Thread) = 0 := rfl

omit [DecidableEq Thread] in
lemma pending_leaving : pending mode (.leaving place : Pc Mode Thread) = 0 := rfl

omit [DecidableEq Thread] in
lemma pending_releasing : pending mode (.releasing place : Pc Mode Thread) = 0 := rfl

omit [DecidableEq Thread] in
lemma pending_waking (all : Bool) :
    pending mode (.waking place all : Pc Mode Thread) = if place = mode then 1 else 0 :=
  rfl

omit [DecidableEq Thread] in
lemma pending_readying (all : Bool) (woken : Thread) :
    pending mode (.readying place all woken) = if place = mode then 1 else 0 :=
  rfl

end Pending

omit [DecidableEq Thread] in
lemma active_of_pending (pos : 0 < pending mode pc) : Active pc := by
  constructor
  · rintro rfl
    exact absurd pos (by simp [pending])
  rintro place rfl
  exact absurd pos (by simp [pending])

section Supply

variable [Fintype Thread] {mode : Mode} {supply : Shared → Int}

/-- Only a release that wakes a waiter of the mode adds an acquisition. -/
structure Supplies (lock : SleepLock Shared Mode) (system : System Shared Mode Thread)
    (mode : Mode) (supply : Shared → Int) : Prop where
  granted : ∀ place shared, lock.attempt place system.shared = some shared →
    supply shared + (if place = mode then 1 else 0) ≤ supply system.shared
  refused : lock.attempt mode system.shared = none → supply system.shared ≤ 0
  enter : ∀ place, supply (lock.enter place system.shared) ≤ supply system.shared
  leave : ∀ place, supply (lock.leave place system.shared) ≤ supply system.shared
  release : ∀ place, system.queue mode ≠ [] →
    supply (lock.release place system.shared).1 ≤ supply system.shared ∨
      (lock.release place system.shared).2 = .one mode ∧
        supply (lock.release place system.shared).1 ≤ supply system.shared + 1

/-- If threads wait, every unit that they could take has a wakeup on its way. -/
def Attended (sys : System Shared Mode Thread) (mode : Mode) (supply : Shared → Int) : Prop :=
  sys.queue mode ≠ [] → supply sys.shared ≤ (∑ each, pending mode (sys.pc each) : Nat)

lemma Attended.stepped (attended : Attended s mode supply) (inQ : Queued s)
    (supplies : Supplies lock s mode supply) (stepped : lock.Stepped t s post)
    (careful : lock.Careful s t) : Attended post mode supply := by
  intro hw
  cases stepped with
  | begun pc outside =>
    have moved := sum_update (pending mode) s.pc t pc
    have pre := attended hw
    rw [outside, pending_outside] at moved
    simp only [System.goto]
    omega
  | entered place here pc =>
    have moved := sum_update (pending mode) s.pc t pc
    have pre := attended hw
    have least := supplies.enter place
    rw [here, pending_entering] at moved
    dsimp only
    omega
  | granted place hs pc success here =>
    have moved := sum_update (pending mode) s.pc t pc
    have pre := attended hw
    have least := supplies.granted place hs success
    have most : pending mode (s.pc t) ≤ if place = mode then 1 else 0 := by
      rcases here with ⟨here | here, -⟩ | ⟨here, -⟩ <;> rw [here] <;> simp [pending]
    simp only [System.acquire]
    split_ifs at least most <;> omega
  | refused place pc failure here =>
    have moved := sum_update (pending mode) s.pc t pc
    have pre := attended hw
    by_cases eq : place = mode
    · subst eq
      have none := supplies.refused failure
      simp only [System.goto]
      omega
    have zero : pending mode (s.pc t) = 0 := by
      rcases here with ⟨here, -⟩ | ⟨here, -⟩ | ⟨here, -⟩ <;> rw [here] <;> simp [pending, eq]
    simp only [System.goto]
    omega
  | parked place here =>
    by_cases eq : place = mode
    · subst eq
      have none := supplies.refused (careful place here)
      dsimp only
      omega
    have moved := sum_update (pending mode) s.pc t (.parked place)
    dsimp only at hw
    rw [update_of_ne (Ne.symm eq)] at hw
    have pre := attended hw
    rw [here, pending_parking] at moved
    dsimp only
    omega
  | left place here =>
    have moved := sum_update (pending mode) s.pc t .outside
    have pre := attended hw
    have least := supplies.leave place
    rw [here, pending_leaving] at moved
    dsimp only
    omega
  | released place here =>
    have moved := sum_update (pending mode) s.pc t
      (wakePc (lock.release place s.shared).2)
    have pre := attended hw
    rw [here, pending_releasing] at moved
    rcases supplies.release place hw with least | ⟨wake, least⟩
    · dsimp only
      omega
    rw [wake, wakePc, pending_waking, if_pos rfl] at moved
    dsimp only
    rw [wake, wakePc]
    omega
  | emptied place _ here he =>
    have moved := sum_update (pending mode) s.pc t .outside
    have pre := attended hw
    have hd : place ≠ mode := by
      rintro rfl
      exact hw he
    rw [here, pending_waking, if_neg hd] at moved
    simp only [System.goto]
    omega
  | dequeued place all woken r here list =>
    have moved := sum_update (pending mode) s.pc t (.readying place all woken)
    have waited : s.queue mode ≠ [] := by
      by_cases eq : mode = place
      · subst eq
        rw [list]
        exact cons_ne_nil woken r
      dsimp only at hw
      rwa [update_of_ne eq] at hw
    have pre := attended waited
    rw [here, pending_waking, pending_readying] at moved
    dsimp only
    omega
  | readied place all woken pc here =>
    obtain ⟨isParked, -⟩ := inQ.readied t place all woken here
    have hd : t ≠ woken := by
      rintro rfl
      rw [here] at isParked
      cases isParked
    have firstMoved := sum_update (pending mode) s.pc woken (.trying place)
    have moved := sum_update (pending mode) (update s.pc woken (.trying place)) t pc
    have pre := attended hw
    rw [update_of_ne hd, here, pending_readying] at moved
    rw [isParked, pending_parked, pending_trying] at firstMoved
    dsimp only
    omega

omit [DecidableEq Thread] in
lemma Attended.exists_active (attended : Attended s mode supply) (hw : s.queue mode ≠ [])
    (avail : 0 < supply s.shared) : ∃ each, Active (s.pc each) := by
  have least := attended hw
  have pos : 0 < ∑ each, pending mode (s.pc each) := by omega
  obtain ⟨each, -, eachPositive⟩ := Finset.exists_ne_zero_of_sum_ne_zero pos.ne'
  exact ⟨each, active_of_pending (Nat.pos_of_ne_zero eachPositive)⟩

end Supply

end SleepLock

end HnxKernel
