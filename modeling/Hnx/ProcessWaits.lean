import Hnx.ProcessTable

/-!
# Waiting for children

`process_wait` does not look at the mark that `process_reap_zombie` leaves.
-/

namespace HnxKernel

section

open Function List Option

namespace Processes

def Has (sys : Processes) (entry : ProcessEntry) : Prop := ∃ slot, sys.slots slot = some entry

variable {sys post : Processes} {e : ProcessEntry} {pid caller c : Nat}

lemma has_of_processByPid (hf : sys.processByPid pid = some e) : sys.Has e ∧ e.pid = pid := by
  obtain ⟨s, -, kept⟩ := exists_of_findSome?_eq_some hf
  obtain ⟨pres, matching⟩ := filter_eq_some_iff.mp kept
  exact ⟨⟨s, pres⟩, of_decide_eq_true matching⟩

lemma processByPid_eq_none : sys.processByPid pid = none ↔ ∀ e, sys.Has e → e.pid ≠ pid := by
  unfold processByPid
  rw [List.findSome?_eq_none_iff]
  constructor
  · rintro missing e ⟨s, pres⟩ eq
    have absent := missing s (mem_finRange s)
    rw [pres] at absent
    simp [eq] at absent
  intro missing s _
  cases pres : sys.slots s with
  | none => rfl
  | some e => simp [missing e ⟨s, pres⟩]

lemma exists_processByPid (has : sys.Has e) (eq : e.pid = pid) :
    ∃ found, sys.processByPid pid = some found := by
  apply ne_none_iff_exists'.mp
  intro missing
  exact processByPid_eq_none.mp missing e has eq

lemma has_processTableFree : (sys.processTableFree pid).Has e ↔ sys.Has e ∧ e.pid ≠ pid := by
  constructor
  · rintro ⟨s, kept⟩
    obtain ⟨pres, differs⟩ := filter_eq_some_iff.mp kept
    exact ⟨⟨s, pres⟩, of_decide_eq_true differs⟩
  rintro ⟨⟨s, pres⟩, differs⟩
  exact ⟨s, filter_eq_some_iff.mpr ⟨pres, decide_eq_true differs⟩⟩

variable {change : ProcessEntry → ProcessEntry} {want spins : Nat} {nohang : Bool}
  {status : StatusPointer} {event : Event} {evs : List Event}

lemma has_modify : (sys.modify pid change).Has e ↔
    ∃ old, sys.Has old ∧ e = if old.pid = pid then change old else old := by
  constructor
  · rintro ⟨s, pres⟩
    obtain ⟨old, oldPresent, changed⟩ := map_eq_some_iff.mp pres
    exact ⟨old, ⟨s, oldPresent⟩, changed.symm⟩
  rintro ⟨old, ⟨s, oldPresent⟩, changed⟩
  exact ⟨s, map_eq_some_iff.mpr ⟨old, oldPresent, changed.symm⟩⟩

structure Clean (system : Processes) : Prop where
  once : (system.returned.map Prod.fst).Nodup
  released : ∀ c ∈ system.returned.map Prod.fst,
    system.processByPid c = none ∧ system.spaces c = false ∧ system.fdTables c = false

/-- Numbers are not used again, and a `process_wait` is for a child in the table. -/
structure Tidy (system : Processes) : Prop where
  clean : system.Clean
  unique : ∀ first second, system.Has first → system.Has second → first.pid = second.pid →
    first = second
  fresh : ∀ e, system.Has e → e.pid < system.nextPid
  old : ∀ c ∈ system.returned.map Prod.fst, c < system.nextPid
  sleeping : ∀ caller c status, system.sleepers caller = some (.specific c status) →
      ∃ e, system.Has e ∧ e.pid = c ∧ e.parentPid = caller

lemma Tidy.init : init.Tidy where
  clean := ⟨nodup_nil, fun _ mem => absurd mem not_mem_nil⟩
  unique := by
    rintro fst snd ⟨s, pres⟩
    exact absurd pres (by simp [Processes.init])
  fresh := by
    rintro e ⟨s, pres⟩
    exact absurd pres (by simp [Processes.init])
  old := fun _ mem => absurd mem not_mem_nil
  sleeping := fun _ _ _ asleep => absurd asleep (by simp [Processes.init])

lemma Tidy.setSleeper (tidy : sys.Tidy) (caller : Nat) (call : Option SleepingWait)
    (valid : ∀ c status, call = some (.specific c status) →
        ∃ e, sys.Has e ∧ e.pid = c ∧ e.parentPid = caller) :
      { sys with sleepers := update sys.sleepers caller call }.Tidy where
  clean := ⟨tidy.clean.once, tidy.clean.released⟩
  __ := tidy
  sleeping := by
    intro o c status asleep
    change update sys.sleepers caller call o = _ at asleep
    by_cases eq : o = caller
    · subst eq
      rw [update_self] at asleep
      exact valid c status asleep
    rw [update_of_ne eq] at asleep
    exact tidy.sleeping o c status asleep

lemma Tidy.done (tidy : sys.Tidy) (caller : Nat) : (sys.done caller).Tidy :=
  tidy.setSleeper caller none (by simp)

lemma Tidy.modify (tidy : sys.Tidy) (pid : Nat) (samePid : ∀ e, (change e).pid = e.pid)
    (sameParent : ∀ e, (change e).parentPid = e.parentPid) : (sys.modify pid change).Tidy := by
  have pidEq (old : ProcessEntry) : (if old.pid = pid then change old else old).pid = old.pid := by
    split_ifs
    · exact samePid old
    · rfl
  refine ⟨⟨tidy.clean.once, ?_⟩, ?_, ?_, tidy.old, ?_⟩
  · intro c mem
    obtain ⟨missing, released⟩ := tidy.clean.released c mem
    refine ⟨processByPid_eq_none.mpr ?_, released⟩
    intro e has
    obtain ⟨old, hasOld, rfl⟩ := has_modify.mp has
    rw [pidEq]
    exact processByPid_eq_none.mp missing old hasOld
  · intro fst snd hasFirst hasSecond eq
    obtain ⟨oldFirst, hasOldFirst, rfl⟩ := has_modify.mp hasFirst
    obtain ⟨oldSecond, hasOldSecond, rfl⟩ := has_modify.mp hasSecond
    rw [pidEq, pidEq] at eq
    rw [tidy.unique oldFirst oldSecond hasOldFirst hasOldSecond eq]
  · intro e has
    obtain ⟨old, hasOld, rfl⟩ := has_modify.mp has
    rw [pidEq]
    exact tidy.fresh old hasOld
  intro caller c status asleep
  obtain ⟨old, hasOld, oldPid, oldParent⟩ := tidy.sleeping caller c status asleep
  refine ⟨_, has_modify.mpr ⟨old, hasOld, rfl⟩, (pidEq old).trans oldPid, ?_⟩
  rw [← oldParent]
  split_ifs
  · exact sameParent old
  · rfl

lemma Tidy.number (tidy : sys.Tidy) : { sys with nextPid := sys.nextPid + 1 }.Tidy where
  clean := ⟨tidy.clean.once, tidy.clean.released⟩
  __ := tidy
  fresh := fun e has => Nat.lt_succ_of_lt (tidy.fresh e has)
  old := fun c mem => Nat.lt_succ_of_lt (tidy.old c mem)

lemma has_update {s : Fin 64} (new e : ProcessEntry) (free : sys.slots s = none) :
    (∃ each, update sys.slots s (some new) each = some e) ↔ e = new ∨ sys.Has e := by
  constructor
  · rintro ⟨each, pres⟩
    by_cases eq : each = s
    · rw [eq, update_self] at pres
      exact .inl (Option.some.inj pres).symm
    rw [update_of_ne eq] at pres
    exact .inr ⟨each, pres⟩
  rintro (rfl | ⟨each, pres⟩)
  · exact ⟨s, update_self ..⟩
  refine ⟨each, ?_⟩
  rw [update_of_ne]
  · exact pres
  intro eq
  rw [eq, free] at pres
  exact absurd pres (by simp)

lemma Tidy.processSpawn (tidy : sys.Tidy) (parent : Nat) (out : SpawnOutcome) :
    (sys.processSpawn parent out).Tidy := by
  unfold Processes.processSpawn
  cases free : sys.freeSlot with
  | none => cases out <;> exact tidy
  | some s =>
    have empty : sys.slots s = none := by
      have found := List.find?_some free
      exact isNone_iff_eq_none.mp found
    cases out with
    | refused => exact tidy
    | noFdTable => exact tidy.number
    | noThread => exact tidy.number
    | spawned =>
      have hasEq {e : ProcessEntry} := has_update ⟨sys.nextPid, parent, .ready, 0, false⟩ e empty
      refine ⟨⟨tidy.clean.once, ?_⟩, ?_, ?_, ?_, ?_⟩
      · intro c mem
        have older := Nat.ne_of_lt (tidy.old c mem)
        obtain ⟨missing, noSpace, noTable⟩ := tidy.clean.released c mem
        refine ⟨processByPid_eq_none.mpr ?_, ?_, ?_⟩
        · intro e has
          rcases hasEq.mp has with rfl | has
          · exact older.symm
          · exact processByPid_eq_none.mp missing e has
        · exact (update_of_ne older _ _).trans noSpace
        · exact (update_of_ne older _ _).trans noTable
      · intro fst snd hasFirst hasSecond eq
        rcases hasEq.mp hasFirst with rfl | hasFirst
        · rcases hasEq.mp hasSecond with rfl | hasSecond
          · rfl
          · exact absurd eq (Nat.ne_of_gt (tidy.fresh snd hasSecond))
        rcases hasEq.mp hasSecond with rfl | hasSecond
        · exact absurd eq (Nat.ne_of_lt (tidy.fresh fst hasFirst))
        · exact tidy.unique fst snd hasFirst hasSecond eq
      · intro e has
        rcases hasEq.mp has with rfl | has
        · exact Nat.lt_succ_self _
        · exact Nat.lt_succ_of_lt (tidy.fresh e has)
      · exact fun c mem => Nat.lt_succ_of_lt (tidy.old c mem)
      intro caller c status asleep
      obtain ⟨e, has, facts⟩ := tidy.sleeping caller c status asleep
      exact ⟨e, hasEq.mpr (.inr has), facts⟩

lemma has_reap : (sys.reap c).Has e ↔ sys.Has e ∧ e.pid ≠ c := has_processTableFree

section
variable (tidy : sys.Tidy)
include tidy

lemma Tidy.reapDone (has : sys.Has e) (isChild : e.pid = c)
    (parent : e.parentPid = caller) : ((sys.reap c).done caller).Tidy := by
  refine ⟨⟨tidy.clean.once, ?_⟩, ?_, ?_, tidy.old, ?_⟩
  · intro o mem
    obtain ⟨missing, noSpace, noTable⟩ := tidy.clean.released o mem
    refine ⟨processByPid_eq_none.mpr ?_, ?_, ?_⟩
    · intro each hasEach
      exact processByPid_eq_none.mp missing each (has_reap.mp hasEach).1
    · change update sys.spaces c false o = false
      rw [update_apply, noSpace, ite_self]
    change update sys.fdTables c false o = false
    rw [update_apply, noTable, ite_self]
  · intro fst snd hasFirst hasSecond
    exact tidy.unique fst snd (has_reap.mp hasFirst).1 (has_reap.mp hasSecond).1
  · exact fun each hasEach => tidy.fresh each (has_reap.mp hasEach).1
  intro o otherChild status asleep
  change update sys.sleepers caller none o = _ at asleep
  by_cases eq : o = caller
  · rw [eq, update_self] at asleep
    exact absurd asleep (by simp)
  rw [update_of_ne eq] at asleep
  obtain ⟨each, hasEach, eachPid, eachParent⟩ := tidy.sleeping o otherChild status asleep
  refine ⟨each, has_reap.mpr ⟨hasEach, ?_⟩, eachPid, eachParent⟩
  -- A second sleeper for the same child would be its parent too.
  intro isSame
  have equal := tidy.unique each e hasEach has (isSame.trans isChild.symm)
  rw [equal, parent] at eachParent
  exact eq eachParent.symm

lemma Tidy.record (code : Int) (bound : c < sys.nextPid)
    (new : c ∉ sys.returned.map Prod.fst) (missing : sys.processByPid c = none)
    (noSpace : sys.spaces c = false) (noTable : sys.fdTables c = false) :
      { sys with returned := (c, code) :: sys.returned }.Tidy where
  clean := by
    refine ⟨nodup_cons.mpr ⟨new, tidy.clean.once⟩, ?_⟩
    intro o mem
    rcases mem_cons.mp mem with rfl | mem
    · exact ⟨missing, noSpace, noTable⟩
    · exact tidy.clean.released o mem
  __ := tidy
  old := by
    intro o mem
    rcases mem_cons.mp mem with rfl | mem
    · exact bound
    · exact tidy.old o mem

lemma Tidy.deliver (has : sys.Has e) (isChild : e.pid = c)
    (parent : e.parentPid = caller) (code : Int) (status : StatusPointer) :
    ((sys.reap c).deliver caller c code status).2.Tidy := by
  have released := tidy.reapDone has isChild parent
  have new : c ∉ sys.returned.map Prod.fst := by
    intro mem
    exact processByPid_eq_none.mp (tidy.clean.released c mem).1 e has isChild
  have recorded : { (sys.reap c).done caller with
    returned := (c, code) :: sys.returned }.Tidy := by
    refine released.record code (isChild ▸ tidy.fresh e has) new ?_ ?_ ?_
    · exact processByPid_eq_none.mpr fun each hasEach => (has_reap.mp hasEach).2
    · exact update_self ..
    · exact update_self ..
  cases status with
  | null => exact recorded
  | writable => exact recorded
  | faulting => exact released

lemma Tidy.processWaitRound (has : sys.Has e)
    (isChild : e.pid = c) (parent : e.parentPid = caller) (status : StatusPointer) :
    ∃ val post, sys.processWaitRound caller c status = some (val, post) ∧ post.Tidy := by
  obtain ⟨hf, foundEq⟩ := exists_processByPid has isChild
  unfold Processes.processWaitRound
  rw [foundEq]
  dsimp only
  split_ifs
  · exact ⟨_, _, rfl, tidy.reapDone has isChild parent⟩
  · exact ⟨_, _, rfl, tidy.deliver has isChild parent hf.exitCode status⟩
  refine ⟨_, _, rfl, tidy.setSleeper caller _ ?_⟩
  intro o otherStatus asleep
  cases asleep
  exact ⟨e, has, isChild, parent⟩

lemma Tidy.sysWait (caller pid : Nat) (status : StatusPointer) :
    ∃ val post, sys.sysWait caller pid status = some (val, post) ∧ post.Tidy := by
  unfold Processes.sysWait
  cases hf : sys.processByPid pid with
  | none => exact ⟨_, _, rfl, tidy⟩
  | some =>
    obtain ⟨has, isChild⟩ := has_of_processByPid hf
    dsimp only
    split_ifs with stranger
    · exact ⟨_, _, rfl, tidy⟩
    · exact tidy.processWaitRound has isChild (not_not.mp stranger) status

end

def PollDelivers (sys : Processes) : Event → Prop
  | .waitpid caller pid nohang status =>
    polls pid nohang = true ∧ status ≠ .faulting ∧
      ∃ c ∈ scanned, sys.reapable caller (wanted pid) c = true
  | .resume caller => ∃ want status spins,
      sys.sleepers caller = some (.polling want status spins) ∧ spins < 2000 ∧
        status ≠ .faulting ∧ ∃ c ∈ scanned, sys.reapable caller want c = true
  | _ => False

lemma has_of_reapable (hf : sys.reapable caller want c = true) : ∃ e, sys.Has e ∧ e.pid = c := by
  unfold reapable at hf
  cases lookup : sys.processByPid c with
  | none => simp [lookup] at hf
  | some e => exact ⟨e, has_of_processByPid lookup⟩

lemma not_clean_pollRound (writes : status ≠ .faulting)
    (exists_child : ∃ c ∈ scanned, sys.reapable caller want c = true) :
    ¬ (sys.pollRound caller want nohang status spins).2.Clean := by
  intro clean
  cases hf : sys.processReapZombie caller want with
  | none =>
    obtain ⟨c, mem, isReapable⟩ := exists_child
    exact List.find?_eq_none.mp hf c mem isReapable
  | some c =>
    obtain ⟨e, has, isChild⟩ := has_of_reapable (List.find?_some hf)
    have delivered : (c, ((sys.processByPid c).map ProcessEntry.exitCode).getD 0) ∈
      (sys.pollRound caller want nohang status spins).2.returned := by
      simp only [pollRound, hf]
      cases status with
      | null => exact mem_cons_self
      | writable => exact mem_cons_self
      | faulting => exact absurd rfl writes
    have stays : (sys.pollRound caller want nohang status spins).2.Has
      { e with reaped := true } := by
      have kept : (sys.modify c fun e => { e with reaped := true }).Has
        { e with reaped := true } :=
        has_modify.mpr ⟨e, has, by rw [if_pos isChild]⟩
      simp only [pollRound, hf]
      cases status <;> exact kept
    have missing := (clean.released c (mem_map_of_mem delivered)).1
    exact processByPid_eq_none.mp missing _ stays isChild

lemma Tidy.pollRound (tidy : sys.Tidy)
    (silent : status = .faulting ∨ ∀ c ∈ scanned, ¬ sys.reapable caller want c = true) :
    (sys.pollRound caller want nohang status spins).2.Tidy := by
  unfold Processes.pollRound
  cases hf : sys.processReapZombie caller want with
  | none =>
    split_ifs
    · exact tidy.done caller
    · exact tidy.setSleeper caller _ (by simp)
    · exact tidy.done caller
  | some c =>
    rcases silent with rfl | nobody
    · have marked : (sys.modify c fun e => { e with reaped := true }).Tidy :=
        tidy.modify c (fun _ => rfl) (fun _ => rfl)
      exact marked.done caller
    · exact absurd (List.find?_some hf) (nobody c (mem_of_find?_eq_some hf))

lemma Tidy.apply (tidy : sys.Tidy) (allowed : sys.allowed event)
    (quiet : ¬ sys.PollDelivers event) : ∃ post, sys.apply event = some post ∧ post.Tidy := by
  cases event with
  | spawn parent out => exact ⟨_, rfl, tidy.processSpawn parent out⟩
  | exit pid => exact ⟨_, rfl, tidy.modify pid (fun _ => rfl) (fun _ => rfl)⟩
  | fault pid => exact ⟨_, rfl, tidy.modify pid (fun _ => rfl) (fun _ => rfl)⟩
  | wait caller pid status =>
    obtain ⟨val, post, waited, afterTidy⟩ := tidy.sysWait caller pid status
    exact ⟨post, by rw [Processes.apply, waited]; rfl, afterTidy⟩
  | waitpid caller pid nohang status =>
    cases isPoll : polls pid nohang with
    | false =>
      obtain ⟨val, post, waited, afterTidy⟩ := tidy.sysWait caller pid status
      exact ⟨post, by simp only [Processes.apply, sysWaitpid, isPoll, waited]; rfl, afterTidy⟩
    | true =>
      refine ⟨_, by simp only [Processes.apply, sysWaitpid, isPoll, if_true]; rfl,
        tidy.pollRound ?_⟩
      by_cases faults : status = .faulting
      · exact .inl faults
      · exact .inr fun c mem isReapable => quiet ⟨isPoll, faults, c, mem, isReapable⟩
  | resume caller =>
    cases asleep : sys.sleepers caller with
    | none => simp [Processes.allowed, asleep] at allowed
    | some call =>
      cases call with
      | specific c status =>
        obtain ⟨e, has, isChild, parent⟩ := tidy.sleeping caller c status asleep
        obtain ⟨val, post, waited, afterTidy⟩ := tidy.processWaitRound has isChild parent status
        exact ⟨post, by simp only [Processes.apply, Processes.resume, asleep, waited]; rfl,
          afterTidy⟩
      | polling want status spins =>
        simp only [Processes.apply, Processes.resume, asleep]
        split_ifs with continues
        · refine ⟨_, rfl, tidy.pollRound ?_⟩
          by_cases faults : status = .faulting
          · exact .inl faults
          exact .inr fun c mem isReapable =>
            quiet ⟨want, status, spins, asleep, continues, faults, c, mem, isReapable⟩
        · exact ⟨_, rfl, tidy.done caller⟩

lemma not_clean_of_pollDelivers (delivers : sys.PollDelivers event)
    (applied : sys.apply event = some post) : ¬ post.Clean := by
  cases event with
  | spawn | exit | fault | wait => exact delivers.elim
  | waitpid =>
    obtain ⟨isPoll, writes, hf⟩ := delivers
    simp only [Processes.apply, sysWaitpid, isPoll, if_true, map_some, Option.some.injEq] at applied
    rw [← applied]
    exact not_clean_pollRound writes hf
  | resume =>
    obtain ⟨want, status, spins, asleep, continues, writes, hf⟩ := delivers
    simp only [Processes.apply, Processes.resume, asleep, continues, if_true, map_some,
      Option.some.injEq] at applied
    rw [← applied]
    exact not_clean_pollRound writes hf

def CleanRun : Processes → List Event → Prop
  | sys, [] => sys.Clean
  | sys, event :: rest =>
    sys.Clean ∧ (sys.allowed event → ∃ post, sys.apply event = some post ∧ post.CleanRun rest)

def QuietRun : Processes → List Event → Prop
  | _, [] => True
  | sys, event :: rest =>
    sys.allowed event → ¬ sys.PollDelivers event ∧
      ∀ post, sys.apply event = some post → post.QuietRun rest

lemma CleanRun.clean (cleanRun : sys.CleanRun evs) : sys.Clean := by
  cases evs with
  | nil => exact cleanRun
  | cons => exact cleanRun.1

lemma CleanRun.quiet (cleanRun : sys.CleanRun evs) : sys.QuietRun evs := by
  induction evs generalizing sys with
  | nil => trivial
  | cons _ _ ih =>
    intro isAllowed
    obtain ⟨post, applied, afterClean⟩ := cleanRun.2 isAllowed
    refine ⟨fun delivers => not_clean_of_pollDelivers delivers applied afterClean.clean, ?_⟩
    intro o otherApplied
    rw [applied] at otherApplied
    cases otherApplied
    exact ih afterClean

lemma Tidy.cleanRun (tidy : sys.Tidy) (quietRun : sys.QuietRun evs) : sys.CleanRun evs := by
  induction evs generalizing sys with
  | nil => exact tidy.clean
  | cons _ _ ih =>
    refine ⟨tidy.clean, ?_⟩
    intro isAllowed
    obtain ⟨quiet, later⟩ := quietRun isAllowed
    obtain ⟨post, applied, afterTidy⟩ := tidy.apply isAllowed quiet
    exact ⟨post, applied, ih afterTidy (later post applied)⟩

/-- Every status is returned once, in exactly the runs in which no polling wait hands out
a status. -/
theorem clean_wait_iff (evs : List Event) : init.CleanRun evs ↔ init.QuietRun evs :=
  ⟨CleanRun.quiet, Tidy.init.cleanRun⟩

lemma CleanRun.clean_of_run (cleanRun : sys.CleanRun evs)
    (ran : sys.run evs = some post) : post.Clean := by
  induction evs generalizing sys with
  | nil =>
    cases ran
    exact cleanRun
  | cons _ _ ih =>
    rw [run] at ran
    split_ifs at ran with isAllowed
    obtain ⟨mid, applied, middleClean⟩ := cleanRun.2 isAllowed
    rw [applied] at ran
    exact ih middleClean ran

/-- `waitpid` with `WNOHANG` returns the status, and so does `wait`. -/
def polledThenWaited : List Event :=
  [.spawn 0 .spawned, .spawn 1 .spawned, .exit 2 7, .waitpid 1 0 true .null, .wait 1 2 .null]

theorem polledThenWaited_twice :
    (∃ sys, init.run polledThenWaited = some sys ∧ sys.returned = [(2, 7), (2, 7)]) ∧
      (∃ sys, init.run (polledThenWaited.take 4) = some sys ∧
        sys.returned = [(2, 7)] ∧ sys.spaces 2 = true ∧ sys.fdTables 2 = true ∧
          (sys.processByPid 2).isSome) ∧
      ¬ init.CleanRun polledThenWaited := by
  have ranAll : ((init.run polledThenWaited).map
    fun sys => decide (sys.returned = [(2, 7), (2, 7)])) = some true := by
    decide +kernel
  have ranPoll : ((init.run (polledThenWaited.take 4)).map fun sys =>
    decide (sys.returned = [(2, 7)] ∧ sys.spaces 2 = true ∧ sys.fdTables 2 = true ∧
      (sys.processByPid 2).isSome)) = some true := by
    decide +kernel
  obtain ⟨last, lastEq, lastReturned⟩ := map_eq_some_iff.mp ranAll
  obtain ⟨polled, polledEq, polledFacts⟩ := map_eq_some_iff.mp ranPoll
  have twice := of_decide_eq_true lastReturned
  refine ⟨⟨last, lastEq, twice⟩, ⟨polled, polledEq, of_decide_eq_true polledFacts⟩, ?_⟩
  intro cleanRun
  have once := (cleanRun.clean_of_run lastEq).once
  rw [twice] at once
  exact absurd once (by decide)

end Processes

end

open List

namespace Processes

variable {sys : Processes} {caller pid : Nat} {status : StatusPointer}

end Processes

end HnxKernel
