import Hnx.SleepLock
import Mathlib.Algebra.BigOperators.Group.Finset.Piecewise
import Mathlib.Data.Int.Basic

/-!
# Mutexes, semaphores and reader-writer locks

The critical sections of `mutex.c`, `semaphore.c` and `rwlock.c`. No `int` counter comes
to 2^31.
-/

namespace HnxKernel

structure Mutex where
  locked : Bool
  deriving DecidableEq, Repr

def mutexTrylock (mutex : Mutex) : Option Mutex :=
  if mutex.locked = false then some ⟨true⟩ else none

def mutexUnlock (_ : Mutex) : Mutex × Wake Unit := (⟨false⟩, .one ())

def mutexLock : SleepLock Mutex Unit where
  attempt _ := mutexTrylock
  enter _ := id
  leave _ := id
  release _ := mutexUnlock
  fastPath := true
  owned := false

structure Semaphore where
  count : Int
  max : Int
  deriving DecidableEq, Repr

def semaphoreTrydown (semaphore : Semaphore) : Option Semaphore :=
  if 0 < semaphore.count then some { semaphore with count := semaphore.count - 1 } else none

def semaphoreUp (semaphore : Semaphore) : Semaphore × Wake Unit :=
  let cnt := semaphore.count + 1
  ({ semaphore with
      count := if 0 < semaphore.max ∧ semaphore.max < cnt then semaphore.max else cnt },
    .one ())

/-- `semaphore_down` and `semaphore_up`, which any thread may call. -/
def semaphoreLock : SleepLock Semaphore Unit where
  attempt _ := semaphoreTrydown
  enter _ := id
  leave _ := id
  release _ := semaphoreUp
  fastPath := false
  owned := false

inductive RwMode where
  | read
  | write
  deriving DecidableEq, Repr

structure Rwlock where
  state : Int
  waitingWriters : Int
  deriving DecidableEq, Repr

def rwlockInit : Rwlock := ⟨0, 0⟩

def rwlockReadTrylock (rw : Rwlock) : Option Rwlock :=
  if 0 ≤ rw.state ∧ rw.waitingWriters = 0 then some { rw with state := rw.state + 1 } else none

def rwlockWriteTrylock (rw : Rwlock) : Option Rwlock :=
  if rw.state = 0 then some { rw with state := -1 } else none

def rwlockReadUnlock (rw : Rwlock) : Rwlock × Wake RwMode :=
  let st := if 0 < rw.state then rw.state - 1 else rw.state
  ({ rw with state := st },
    if st = 0 ∧ 0 < rw.waitingWriters then .one .write else .nobody)

def rwlockWriteUnlock (rw : Rwlock) : Rwlock × Wake RwMode :=
  ({ rw with state := 0 }, if 0 < rw.waitingWriters then .one .write else .all .read)

def countWriter (rw : Rwlock) : Rwlock := { rw with waitingWriters := rw.waitingWriters + 1 }

def discountWriter (rw : Rwlock) : Rwlock :=
  if 0 < rw.waitingWriters then { rw with waitingWriters := rw.waitingWriters - 1 } else rw

def rwlockLock : SleepLock Rwlock RwMode where
  attempt
    | .read => rwlockReadTrylock
    | .write => rwlockWriteTrylock
  enter
    | .read => id
    | .write => countWriter
  leave
    | .read => id
    | .write => discountWriter
  release
    | .read => rwlockReadUnlock
    | .write => rwlockWriteUnlock
  fastPath := false
  owned := true

open Function
open SleepLock

namespace RwlockSystem

variable {Thread : Type} [DecidableEq Thread] [Fintype Thread]
  {s post : System Rwlock RwMode Thread} {t : Thread}

def counted : Pc RwMode Thread → Nat
  | .fast .write => 1
  | .trying .write => 1
  | .parking .write => 1
  | .parked .write => 1
  | .leaving .write => 1
  | _ => 0

def holds (held : Thread → RwMode → Nat) (mode : RwMode) : Nat := ∑ each, held each mode

structure Exclusive (system : System Rwlock RwMode Thread) : Prop where
  state : holds system.held .write = 0 ∧ system.shared.state = holds system.held .read ∨
    holds system.held .write = 1 ∧ holds system.held .read = 0 ∧ system.shared.state = -1
  waiting : system.shared.waitingWriters = ∑ each, counted (system.pc each)
  holder : ∀ each mode, system.pc each = .releasing mode → 0 < system.held each mode
  queued : Queued system

lemma holds_update (held : Thread → RwMode → Nat) (t : Thread) (mode hp : RwMode) (cnt : Nat) :
    holds (update held t (update (held t) mode cnt)) hp + (if hp = mode then held t mode else 0) =
        holds held hp + if hp = mode then cnt else 0 := by
  have moved := sum_update (fun counts : RwMode → Nat => counts hp) held t
    (update (held t) mode cnt)
  by_cases eq : hp = mode
  · subst eq
    rw [update_self] at moved
    rw [if_pos rfl, if_pos rfl]
    exact moved
  rw [update_of_ne eq] at moved
  rw [if_neg eq, if_neg eq]
  exact Nat.add_right_cancel moved

omit [DecidableEq Thread] in
lemma held_le_holds (s : System Rwlock RwMode Thread) (t : Thread) (mode : RwMode) :
    s.held t mode ≤ holds s.held mode :=
  weight_le_sum (fun counts : RwMode → Nat => counts mode) s.held t

variable {pc : Pc RwMode Thread} {mode : RwMode}

lemma Exclusive.move (excl : Exclusive s) (eq : counted pc = counted (s.pc t))
    (holder : ∀ mode, pc = .releasing mode → 0 < s.held t mode) {queue : RwMode → List Thread}
    (queued : Queued { s with queue := queue, pc := update s.pc t pc }) :
      Exclusive { s with queue := queue, pc := update s.pc t pc } where
  state := excl.state
  waiting := by
    have moved := sum_update counted s.pc t pc
    have waiting := excl.waiting
    dsimp only
    omega
  holder := by
    intro each mode here
    dsimp only at here ⊢
    by_cases own : each = t
    · subst own
      rw [update_self] at here
      exact holder mode here
    rw [update_of_ne own] at here
    exact excl.holder each mode here
  queued := queued

def changed (sys : System Rwlock RwMode Thread) (thr : Thread) (pc : Pc RwMode Thread)
    (shared : Rwlock) (held : Thread → RwMode → Nat) : System Rwlock RwMode Thread where
  shared := shared
  queue := sys.queue
  pc := update sys.pc thr pc
  held := held

lemma Exclusive.change (excl : Exclusive s) {pc : Pc RwMode Thread} {hs : Rwlock}
    {held : Thread → RwMode → Nat} (st : holds held .write = 0 ∧ hs.state = holds held .read ∨
        holds held .write = 1 ∧ holds held .read = 0 ∧ hs.state = -1)
    (waiting : hs.waitingWriters + counted (s.pc t) = s.shared.waitingWriters + counted pc)
    (others : ∀ each, each ≠ t → held each = s.held each)
    (notReleasing : ∀ mode, pc ≠ .releasing mode)
    (queued : Queued (changed s t pc hs held)) : Exclusive (changed s t pc hs held) where
  state := st
  waiting := by
    have moved := sum_update counted s.pc t pc
    have pre := excl.waiting
    dsimp only [changed]
    omega
  holder := by
    intro each mode here
    dsimp only [changed] at here ⊢
    have own : each ≠ t := by
      rintro rfl
      rw [update_self] at here
      exact notReleasing mode here
    rw [update_of_ne own] at here
    rw [others each own]
    exact excl.holder each mode here
  queued := queued

lemma Exclusive.granted (excl : Exclusive s) {hs : Rwlock}
    (success : rwlockLock.attempt mode s.shared = some hs)
    (eq : counted pc = counted (s.pc t)) (notReleasing : ∀ mode, pc ≠ .releasing mode)
    (inQ : Queued (s.acquire t mode hs pc)) : Exclusive (s.acquire t mode hs pc) := by
  have st := excl.state
  have reads := holds_update s.held t mode .read (s.held t mode + 1)
  have writes := holds_update s.held t mode .write (s.held t mode + 1)
  cases mode with
  | read =>
    simp only [rwlockLock, rwlockReadTrylock, Option.ite_none_right_eq_some,
      Option.some.injEq] at success
    obtain ⟨⟨free, none⟩, rfl⟩ := success
    simp only [if_true, reduceCtorEq, if_false] at reads writes
    refine excl.change ?_ ?_ ?_ notReleasing inQ
    · dsimp only
      omega
    · dsimp only
      omega
    intro each own
    exact update_of_ne own _ _
  | write =>
    simp only [rwlockLock, rwlockWriteTrylock, Option.ite_none_right_eq_some,
      Option.some.injEq] at success
    obtain ⟨free, rfl⟩ := success
    simp only [if_true, reduceCtorEq, if_false] at reads writes
    refine excl.change ?_ ?_ ?_ notReleasing inQ
    · dsimp only
      omega
    · dsimp only
      omega
    intro each own
    exact update_of_ne own _ _

omit [DecidableEq Thread] [Fintype Thread] in
lemma counted_wakePc (wake : Wake RwMode) : counted (wakePc wake : Pc RwMode Thread) = 0 := by
  cases wake <;> rfl

omit [DecidableEq Thread] [Fintype Thread] in
lemma wakePc_ne_releasing (wake : Wake RwMode) (mode : RwMode) :
    (wakePc wake : Pc RwMode Thread) ≠ .releasing mode := by
  cases wake <;> exact fun eq => by cases eq

lemma Exclusive.released (excl : Exclusive s) (here : s.pc t = .releasing mode) (inQ : Queued
    { s with
      shared := (rwlockLock.release mode s.shared).1
      pc := update s.pc t (wakePc (rwlockLock.release mode s.shared).2)
      held := update s.held t
        (update (s.held t) mode (s.held t mode - 1)) }) :
    Exclusive
      { s with
        shared := (rwlockLock.release mode s.shared).1
        pc := update s.pc t (wakePc (rwlockLock.release mode s.shared).2)
        held := update s.held t
          (update (s.held t) mode (s.held t mode - 1)) } := by
  have st := excl.state
  have holder := excl.holder t mode here
  have holdsLe := held_le_holds s t mode
  have cnt : counted (s.pc t) = 0 := by
    rw [here]
    rfl
  have reads := holds_update s.held t mode .read (s.held t mode - 1)
  have writes := holds_update s.held t mode .write (s.held t mode - 1)
  refine excl.change ?_ ?_ ?_ (wakePc_ne_releasing _) inQ
  · cases mode with
    | read =>
      simp only [if_true, reduceCtorEq, if_false] at reads writes
      simp only [rwlockLock, rwlockReadUnlock] at reads writes ⊢
      split_ifs <;> omega
    | write =>
      simp only [if_true, reduceCtorEq, if_false] at reads writes
      simp only [rwlockLock, rwlockWriteUnlock] at reads writes ⊢
      omega
  · rw [cnt, counted_wakePc]
    cases mode <;> rfl
  intro each own
  exact update_of_ne own _ _

lemma Exclusive.stepped (excl : Exclusive s)
    (stepped : rwlockLock.Stepped t s post) : Exclusive post := by
  have queued := excl.queued.stepped stepped
  cases stepped with
  | begun _ out starts =>
    obtain ⟨mode, rfl | rfl | ⟨rfl, holder⟩⟩ := starts
    · exact excl.move (by rw [out]; rfl) (by simp) queued
    · exact excl.move (by rw [out]; rfl) (by simp) queued
    refine excl.move (by rw [out]; rfl) ?_ queued
    intro hp eq
    rw [← Pc.releasing.inj eq]
    exact holder rfl
  | entered mode here _ goes =>
    have cnt : counted (s.pc t) = 0 := by
      rw [here]
      rfl
    refine excl.change ?_ ?_ (fun _ _ => rfl) ?_ queued
    · cases mode with
      | read => exact excl.state
      | write => exact excl.state
    · rw [cnt]
      cases mode with
      | read => rcases goes with rfl | rfl <;> simp [rwlockLock, counted]
      | write => rcases goes with rfl | rfl <;> simp [rwlockLock, countWriter, counted]
    · rcases goes with rfl | rfl <;> simp
  | granted mode _ _ success here =>
    refine excl.granted success ?_ ?_ queued
    · rcases here with ⟨here | here, rfl⟩ | ⟨here, rfl⟩ <;> rw [here] <;> cases mode <;> rfl
    · rcases here with ⟨-, rfl⟩ | ⟨-, rfl⟩ <;> simp
  | refused mode _ _ here =>
    refine excl.move ?_ ?_ queued
    · rcases here with ⟨here, rfl⟩ | ⟨here, rfl⟩ | ⟨here, rfl⟩ <;>
        rw [here] <;> cases mode <;> rfl
    · rcases here with ⟨-, rfl⟩ | ⟨-, rfl⟩ | ⟨-, rfl⟩ <;> simp
  | parked mode here =>
    refine excl.move ?_ (by simp) queued
    rw [here]
    cases mode <;> rfl
  | left mode here =>
    have least := weight_le_sum counted s.pc t
    have waiting := excl.waiting
    rw [here] at least
    refine excl.change ?_ ?_ (fun _ _ => rfl) (by simp) queued
    · cases mode with
      | read => exact excl.state
      | write =>
        simp only [rwlockLock, discountWriter]
        split_ifs
        · exact excl.state
        · exact excl.state
    rw [here]
    cases mode with
    | read => rfl
    | write =>
      have one : counted (.leaving .write : Pc RwMode Thread) = 1 := rfl
      rw [one] at least ⊢
      simp only [rwlockLock, discountWriter, if_pos (show 0 < s.shared.waitingWriters
        by omega), counted]
      omega
  | released _ here => exact excl.released here queued
  | emptied _ _ here => exact excl.move (by rw [here]; rfl) (by simp) queued
  | dequeued _ _ _ _ here => exact excl.move (by rw [here]; rfl) (by simp) queued
  | readied mode all woken pc here goes =>
    obtain ⟨isParked, -⟩ := excl.queued.readied t mode all woken here
    have wokenNe : t ≠ woken := by
      rintro rfl
      rw [here] at isParked
      cases isParked
    have firstMoved := sum_update counted s.pc woken (.trying mode)
    have moved := sum_update counted (update s.pc woken (.trying mode)) t pc
    rw [update_of_ne wokenNe, here] at moved
    rw [isParked] at firstMoved
    have sameMode : counted (.parked mode : Pc RwMode Thread) =
      counted (.trying mode : Pc RwMode Thread) := by
      cases mode <;> rfl
    have readyingZero : counted (.readying mode all woken) = 0 := by cases mode <;> rfl
    have pcZero : counted pc = 0 := by rcases goes with ⟨-, rfl⟩ | ⟨-, rfl⟩ <;> cases mode <;> rfl
    refine ⟨excl.state, ?_, ?_, queued⟩
    · have waiting := excl.waiting
      dsimp only
      omega
    intro each hp releasing
    dsimp only at releasing ⊢
    by_cases own : each = t
    · subst own
      rw [update_self] at releasing
      rcases goes with ⟨-, rfl⟩ | ⟨-, rfl⟩ <;> cases releasing
    rw [update_of_ne own] at releasing
    by_cases isWoken : each = woken
    · subst isWoken
      rw [update_self] at releasing
      cases releasing
    rw [update_of_ne isWoken] at releasing
    exact excl.holder each hp releasing

omit [DecidableEq Thread] in
lemma Exclusive.init : Exclusive (System.init rwlockInit : System Rwlock RwMode Thread) where
  state := by
    left
    constructor
    · exact Finset.sum_eq_zero fun _ _ => rfl
    · simp [holds, System.init, rwlockInit]
  waiting := by simp [System.init, rwlockInit, counted]
  holder _ _ here := by cases here
  queued := Queued.init rwlockInit

def InWriteLock (pc : Pc RwMode Thread) : Prop :=
  pc = .fast .write ∨ pc = .trying .write ∨ pc = .parking .write ∨ pc = .parked .write ∨
    pc = .leaving .write

instance (pc : Pc RwMode Thread) : Decidable (InWriteLock pc) := inferInstanceAs (Decidable (_ ∨ _))

def TriesRead (pc : Pc RwMode Thread) : Prop :=
  pc = .fast .read ∨ pc = .trying .read ∨ pc = .trylock .read

/-- The counters are those of the holders and waiting writers, to which readers defer. -/
structure Exact (system : System Rwlock RwMode Thread) : Prop where
  written : system.shared.state = -1 ↔
    (∃! each, 0 < system.held each .write) ∧ ∀ each, system.held each .read = 0
  counted : system.shared.state ≠ -1 →
    system.shared.state = ∑ each, system.held each .read ∧ ∀ each, system.held each .write = 0
  waiting : system.shared.waitingWriters =
    (Finset.univ.filter fun each => InWriteLock (system.pc each)).card
  deferred : ∀ t post, TriesRead (system.pc t) → 0 < system.shared.waitingWriters →
    rwlockLock.step t system = some post → post.held = system.held

omit [Fintype Thread] in
lemma counted_eq (pc : Pc RwMode Thread) : counted pc = if InWriteLock pc then 1 else 0 := by
  unfold InWriteLock
  cases pc with
  | outside => simp [counted]
  | entering => simp [counted]
  | fast mode => cases mode <;> simp [counted]
  | trying mode => cases mode <;> simp [counted]
  | parking mode => cases mode <;> simp [counted]
  | parked mode => cases mode <;> simp [counted]
  | leaving mode => cases mode <;> simp [counted]
  | trylock => simp [counted]
  | releasing => simp [counted]
  | waking => simp [counted]
  | readying => simp [counted]

lemma existsUnique_of_holds_one (once : holds s.held mode = 1) : ∃! each, 0 < s.held each mode := by
  have some : ∃ each, 0 < s.held each mode := by
    by_contra nobody
    push Not at nobody
    have zero : holds s.held mode = 0 :=
      Finset.sum_eq_zero fun each _ => Nat.le_zero.mp (nobody each)
    omega
  obtain ⟨holder, pos⟩ := some
  refine ⟨holder, pos, ?_⟩
  intro o otherPositive
  by_contra hd
  have pair : s.held holder mode + s.held o mode ≤ holds s.held mode := by
    have split := Finset.add_sum_erase Finset.univ (fun each => s.held each mode)
      (Finset.mem_univ holder)
    have snd : s.held o mode ≤ ∑ each ∈ Finset.univ.erase holder, s.held each mode :=
      Finset.single_le_sum (f := fun each => s.held each mode) (fun _ _ => Nat.zero_le _)
        (Finset.mem_erase.mpr ⟨hd, Finset.mem_univ o⟩)
    have whole : holds s.held mode = ∑ each, s.held each mode := rfl
    omega
  omega

omit [DecidableEq Thread] in
lemma held_eq_zero (zero : holds s.held mode = 0) (each : Thread) : s.held each mode = 0 :=
  Nat.le_zero.mp (zero ▸ held_le_holds s each mode)

lemma Exclusive.exact (excl : Exclusive s) : Exact s where
  written := by
    rcases excl.state with ⟨noWriter, stateEq⟩ | ⟨oneWriter, noReader, stateEq⟩
    · constructor
      · intro neg
        omega
      rintro ⟨⟨writer, pos, -⟩, -⟩
      have zero := held_eq_zero noWriter writer
      omega
    exact ⟨fun _ => ⟨existsUnique_of_holds_one oneWriter, held_eq_zero noReader⟩, fun _ => stateEq⟩
  counted := by
    intro notWritten
    rcases excl.state with ⟨noWriter, stateEq⟩ | ⟨-, -, stateEq⟩
    · exact ⟨stateEq, held_eq_zero noWriter⟩
    · exact absurd stateEq notWritten
  waiting := by
    rw [excl.waiting, Finset.card_filter]
    simp only [counted_eq]
  deferred := by
    intro t post tries waiting ran
    have refuses : rwlockLock.attempt .read s.shared = none := by
      simp only [rwlockLock, rwlockReadTrylock]
      rw [if_neg]
      omega
    rcases tries with here | here | here <;>
      (simp only [SleepLock.step, here, refuses, Option.some.injEq] at ran; rw [← ran]; rfl)

end RwlockSystem

namespace MutexSystem

variable {Thread : Type} [DecidableEq Thread] [Fintype Thread] {s post : System Mutex Unit Thread}
  {t : Thread} {pc : Pc Unit Thread} {mutex : Mutex} {queue : Unit → List Thread}

/-- A mutex whose threads unlock it only while they hold it. -/
def ownedMutex : SleepLock Mutex Unit := { mutexLock with owned := true }

structure Exclusive (sys : System Mutex Unit Thread) : Prop where
  once : ∑ each, sys.held each () = if sys.shared.locked then 1 else 0
  holder : ∀ each, sys.pc each = .releasing () → 0 < sys.held each ()

section
variable (excl : Exclusive s)
include excl

lemma Exclusive.change {n : Nat} (own : pc = .releasing () → 0 < n)
    (moved : (if mutex.locked then 1 else 0) + s.held t () =
      (if s.shared.locked then 1 else 0) + n) :
    Exclusive ⟨mutex, queue, update s.pc t pc, update s.held t (update (s.held t) () n)⟩ where
  once := by
    have sums := sum_update (fun counts : Unit → Nat => counts ()) s.held t
      (update (s.held t) () n)
    rw [excl.once, update_self, ← moved] at sums
    exact Nat.add_right_cancel sums
  holder := by
    intro each here
    dsimp only at here ⊢
    by_cases isOwn : each = t
    · subst isOwn
      rw [update_self] at here ⊢
      rw [update_self]
      exact own here
    rw [update_of_ne isOwn] at here ⊢
    exact excl.holder each here

lemma Exclusive.goto (own : pc = .releasing () → 0 < s.held t ()) :
    Exclusive { s with queue := queue, pc := update s.pc t pc } := by
  have kept : Exclusive ⟨s.shared, queue, update s.pc t pc,
    update s.held t (update (s.held t) () (s.held t ()))⟩ := excl.change own rfl
  rwa [update_eq_self, update_eq_self] at kept

lemma Exclusive.stepped (stepped : ownedMutex.Stepped t s post) : Exclusive post := by
  cases stepped with
  | begun _ _ starts =>
    apply excl.goto
    obtain ⟨_, rfl | rfl | ⟨rfl, hold⟩⟩ := starts
    · simp
    · simp
    · exact fun _ => hold rfl
  | entered _ _ _ goes => exact excl.goto (by rcases goes with rfl | rfl <;> simp)
  | granted mode next _ success here =>
    obtain rfl : () = mode := rfl
    obtain ⟨free, rfl⟩ : s.shared.locked = false ∧ ⟨true⟩ = next := by
      simpa [ownedMutex, mutexLock, mutexTrylock] using success
    refine excl.change ?_ (by simp [free, Nat.add_comm])
    exact fun _ => Nat.succ_pos _
  | refused _ _ _ here =>
    exact excl.goto (by rcases here with ⟨-, rfl⟩ | ⟨-, rfl⟩ | ⟨-, rfl⟩ <;> simp)
  | parked => exact excl.goto (by simp)
  | left => exact excl.goto (by simp)
  | released mode here =>
    obtain rfl : () = mode := rfl
    have pos := excl.holder t here
    have least := weight_le_sum (fun counts : Unit → Nat => counts ()) s.held t
    rw [excl.once] at least
    refine excl.change (fun eq => by cases eq) ?_
    have locked : s.shared.locked = true := by
      by_contra free
      rw [if_neg free] at least
      omega
    rw [if_pos locked] at least ⊢
    show 0 + s.held t () = 1 + (s.held t () - 1)
    omega
  | emptied => exact excl.goto (by simp)
  | dequeued => exact excl.goto (by simp)
  | readied _ _ woken _ _ goes =>
    have ready : Exclusive (s.goto woken (.trying ())) := excl.goto (by simp)
    exact ready.goto (by rcases goes with ⟨-, rfl⟩ | ⟨-, rfl⟩ <;> simp)

end

/-- At most one thread holds the mutex, and one does exactly while it is locked. -/
theorem mutex_exclusive_of_run {events : List (Event Unit Thread)}
    (ran : ownedMutex.run (System.init ⟨false⟩) events = some post) :
    ∑ each, post.held each () = if post.shared.locked then 1 else 0 :=
  (invariant_of_run Exclusive (fun _ _ _ excl stepped => excl.stepped stepped)
    ⟨by simp [System.init], by simp [System.init]⟩ ran).once

def contention : List (Event Unit (Fin 3)) :=
  [.call 0 (.lock ()), .run 0, .run 0, .call 1 (.lock ()), .run 1, .run 1]

theorem mutex_exclusive_of_contention : ∃ post, ownedMutex.run (System.init ⟨false⟩) contention =
    some post ∧ ∑ each, post.held each () = if post.shared.locked then 1 else 0 := by
  obtain ⟨post, ran⟩ : ∃ post, ownedMutex.run (System.init ⟨false⟩) contention = some post :=
    ⟨_, rfl⟩
  exact ⟨post, ran, mutex_exclusive_of_run ran⟩

end MutexSystem

end HnxKernel
