import Mathlib.Data.List.Induction
import Mathlib.Data.List.Nodup
import Mathlib.Data.List.Perm.Subperm

/-!
# Deferred work

The functions of the items may queue and cancel items of the list that the loop consumes.
-/

namespace HnxKernel

open Function List Subset

inductive WorkCall
  | queue (w : Nat)
  | cancel (w : Nat)

/-- `number` is that of the last queueing of an item; `ran` and `cancelled` hold such numbers. -/
structure WorkQueue where
  items : List Nat
  pending : Nat → Bool
  (queued executed : Nat)
  number : Nat → Nat
  (ran cancelled : List Nat)

namespace WorkQueue

def workqueueInit : WorkQueue := ⟨[], fun _ => false, 0, 0, fun _ => 0, [], []⟩

def workqueueQueue (w : Nat) (wq : WorkQueue) : Bool × WorkQueue :=
  if wq.pending w then
    (false, wq)
  else
    (true, { wq with
      items := wq.items ++ [w]
      pending := update wq.pending w true
      queued := wq.queued + 1
      number := update wq.number w wq.queued })

def workqueueCancel (w : Nat) (wq : WorkQueue) : Bool × WorkQueue :=
  if wq.pending w then
    (true, { wq with
      items := wq.items.erase w
      pending := update wq.pending w false
      cancelled := wq.cancelled ++ [wq.number w] })
  else
    (false, wq)

def perform (wq : WorkQueue) : WorkCall → WorkQueue
  | .queue w => (wq.workqueueQueue w).2
  | .cancel w => (wq.workqueueCancel w).2

/-- The item taken off the list; its function is then called without the lock. -/
def take (w : Nat) (rest : List Nat) (wq : WorkQueue) : WorkQueue :=
  { wq with
    items := rest
    pending := update wq.pending w false
    ran := wq.ran ++ [wq.number w] }

/-- `calls k` are those that the function makes which is the `k`-th to run. -/
def turn (calls : Nat → List WorkCall) (w : Nat) (rest : List Nat) (wq : WorkQueue) : WorkQueue :=
  let post := (calls wq.executed).foldl perform (wq.take w rest)
  { post with executed := post.executed + 1 }

def workqueueRunPending (calls : Nat → List WorkCall) : Nat → WorkQueue → Option WorkQueue
  | 0, _ => none
  | turns + 1, wq =>
    match wq.items with
    | [] => some wq
    | w :: rest => workqueueRunPending calls turns (wq.turn calls w rest)

inductive Step
  | call (call : WorkCall)
  | runPending (calls : Nat → List WorkCall) (turns : Nat)

def apply (wq : WorkQueue) : Step → Option WorkQueue
  | .call call => some (wq.perform call)
  | .runPending calls turns => wq.workqueueRunPending calls turns

/-- Those that were not cancelled were run in their order, or are on the list. -/
structure Ordered (wq : WorkQueue) : Prop where
  nodup : wq.items.Nodup
  linked : ∀ w, w ∈ wq.items ↔ wq.pending w = true
  order : wq.ran ++ wq.items.map wq.number = (range wq.queued).filter fun n => n ∉ wq.cancelled
  known : ∀ n ∈ wq.cancelled, n < wq.queued
  count : wq.queued = wq.ran.length + wq.cancelled.length + wq.items.length

variable {wq post : WorkQueue} {w : Nat} {rest : List Nat} {call : WorkCall}
  {calls : Nat → List WorkCall}

lemma Ordered.workqueueQueue (ho : wq.Ordered) (w : Nat) : (wq.workqueueQueue w).2.Ordered := by
  rw [WorkQueue.workqueueQueue]
  split_ifs with hp
  · exact ho
  have out : w ∉ wq.items := fun mem => hp ((ho.linked w).mp mem)
  have same : wq.items.map (update wq.number w wq.queued) = wq.items.map wq.number :=
    map_congr_left fun v mem => update_of_ne (ne_of_mem_of_not_mem mem out) ..
  have new : wq.queued ∉ wq.cancelled := fun mem => Nat.lt_irrefl _ (ho.known _ mem)
  refine ⟨by simpa using ho.nodup.concat out, ?_, ?_, ?_, ?_⟩
  · intro v
    by_cases isW : v = w
    · simp [isW]
    · simp [isW, ho.linked]
  · have order := ho.order
    simp [same, range_succ, filter_append, new, ← append_assoc, order]
  · exact fun n mem => Nat.lt_succ_of_lt (ho.known n mem)
  simp only [length_append, length_singleton]
  have := ho.count
  omega

lemma map_erase_eq_filter {f : Nat → Nat} {before items : List Nat} (mem : w ∈ items)
    (distinct : (before ++ items.map f).Nodup) :
    before ++ (items.erase w).map f = (before ++ items.map f).filter fun n => n ≠ f w := by
  obtain ⟨pre, post, -, split, erased⟩ := exists_erase_eq mem
  rw [erased, map_append, ← append_assoc]
  rw [split, map_append, map_cons, ← append_assoc] at distinct ⊢
  have out := (nodup_cons.mp (nodup_middle.mp distinct)).1
  rw [filter_append, filter_cons_of_neg (by simp), ← filter_append, filter_eq_self.mpr]
  exact fun n mem => decide_eq_true (ne_of_mem_of_not_mem mem out)

lemma Ordered.workqueueCancel (ho : wq.Ordered) (w : Nat) : (wq.workqueueCancel w).2.Ordered := by
  rw [WorkQueue.workqueueCancel]
  split_ifs with hp
  · have mem := (ho.linked w).mpr hp
    refine ⟨ho.nodup.erase w, ?_, ?_, ?_, ?_⟩
    · intro v
      by_cases isW : v = w
      · simp [isW, ho.nodup.not_mem_erase]
      · simp [isW, mem_erase_of_ne, ho.linked]
    · have distinct : (wq.ran ++ wq.items.map wq.number).Nodup := ho.order ▸ nodup_range.filter _
      rw [map_erase_eq_filter mem distinct, ho.order, filter_filter]
      refine filter_congr fun n _ => ?_
      simp [Bool.and_comm]
    · intro n old
      rcases mem_append.mp old with old | new
      · exact ho.known n old
      have listed := mem_append_right wq.ran (mem_map_of_mem mem : wq.number w ∈ _)
      rw [ho.order, ← mem_singleton.mp new] at listed
      exact mem_range.mp (mem_filter.mp listed).1
    have := ho.count
    have := length_pos_of_mem mem
    simp only [length_append, length_singleton, length_erase_of_mem mem]
    omega
  · exact ho

lemma Ordered.perform (ho : wq.Ordered) (call : WorkCall) : (wq.perform call).Ordered := by
  cases call with
  | queue w => exact ho.workqueueQueue w
  | cancel w => exact ho.workqueueCancel w

lemma Ordered.take (ho : wq.Ordered) (head : wq.items = w :: rest) : (wq.take w rest).Ordered := by
  obtain ⟨nodup, linked, order, known, count⟩ := ho
  rw [head] at nodup linked order count
  obtain ⟨out, nodup⟩ := nodup_cons.mp nodup
  refine ⟨nodup, ?_, ?_, known, ?_⟩
  · intro v
    by_cases isW : v = w
    · simp [WorkQueue.take, isW, out]
    · simp [WorkQueue.take, isW, ← linked]
  · exact (append_assoc ..).trans order
  simp only [WorkQueue.take, length_append, length_cons, length_nil] at count ⊢
  omega

/-- What a later queue still accounts for. -/
structure Later (wq post : WorkQueue) : Prop where
  ran : wq.ran ⊆ post.ran
  cancelled : wq.cancelled ⊆ post.cancelled
  queued : wq.queued ≤ post.queued

lemma Later.trans {mid : WorkQueue} (first : wq.Later mid) (second : mid.Later post) :
    wq.Later post :=
  ⟨Subset.trans first.ran second.ran, Subset.trans first.cancelled second.cancelled,
    Nat.le_trans first.queued second.queued⟩

/-- The calls of a function keep what has run. -/
lemma later_perform (wq : WorkQueue) (call : WorkCall) : (wq.perform call).ran = wq.ran ∧
    (wq.perform call).executed = wq.executed ∧ wq.Later (wq.perform call) := by
  cases call with
  | queue =>
    rw [perform, workqueueQueue]
    split
    · exact ⟨rfl, rfl, refl _, refl _, Nat.le_refl _⟩
    · exact ⟨rfl, rfl, refl _, refl _, Nat.le_succ _⟩
  | cancel =>
    rw [perform, workqueueCancel]
    split
    · exact ⟨rfl, rfl, refl _, subset_append_left .., Nat.le_refl _⟩
    · exact ⟨rfl, rfl, refl _, refl _, Nat.le_refl _⟩

lemma Ordered.foldl_perform (ho : wq.Ordered) (cs : List WorkCall) :
    (cs.foldl WorkQueue.perform wq).Ordered ∧ (cs.foldl WorkQueue.perform wq).ran = wq.ran ∧
    (cs.foldl WorkQueue.perform wq).executed = wq.executed ∧
    wq.Later (cs.foldl WorkQueue.perform wq) := by
  induction cs generalizing wq with
  | nil => exact ⟨ho, rfl, rfl, refl _, refl _, Nat.le_refl _⟩
  | cons c _ ih =>
    obtain ⟨ran, hx, later⟩ := later_perform wq c
    obtain ⟨after, hr, he, more⟩ := ih (ho.perform c)
    exact ⟨after, hr.trans ran, he.trans hx, later.trans more⟩

lemma Ordered.turn (calls : Nat → List WorkCall) (ho : wq.Ordered)
    (hx : wq.executed = wq.ran.length) (head : wq.items = w :: rest) :
      (wq.turn calls w rest).Ordered ∧
    (wq.turn calls w rest).executed = (wq.turn calls w rest).ran.length ∧
    (wq.turn calls w rest).ran = wq.ran ++ [wq.number w] ∧ wq.Later (wq.turn calls w rest) := by
  obtain ⟨after, ran, he, more⟩ := (ho.take head).foldl_perform (calls wq.executed)
  refine ⟨{ after with }, ?_, ran, ran ▸ subset_append_left .., more.cancelled, more.queued⟩
  simp only [WorkQueue.turn, ran, he]
  simp [WorkQueue.take, hx]

lemma Ordered.runPending {turns : Nat} (ho : wq.Ordered) (hx : wq.executed = wq.ran.length)
    (run : wq.workqueueRunPending calls turns = some post) : post.Ordered ∧
    post.executed = post.ran.length ∧ post.items = [] ∧ wq.Later post := by
  induction turns generalizing wq with
  | zero => cases run
  | succ _ ih =>
    rw [workqueueRunPending] at run
    split at run
    · next none =>
      cases run
      exact ⟨ho, hx, none, refl _, refl _, Nat.le_refl _⟩
    next w rest head =>
    obtain ⟨after, counted, -, later⟩ := ho.turn calls hx head
    obtain ⟨last, lastEq, none, more⟩ := ih after counted run
    exact ⟨last, lastEq, none, later.trans more⟩

lemma accounted_of_run {steps : List Step} (run : steps.foldlM apply workqueueInit = some wq) :
    wq.Ordered ∧ wq.executed = wq.ran.length := by
  induction steps using reverseRecOn generalizing wq with
  | nil =>
    cases run
    exact ⟨⟨nodup_nil, by simp [workqueueInit], rfl, by simp [workqueueInit], rfl⟩, rfl⟩
  | append_singleton _ step ih =>
    rw [foldlM_append] at run
    obtain ⟨mid, before, last⟩ := Option.bind_eq_some_iff.mp run
    obtain ⟨ho, hx⟩ := ih before
    obtain ⟨post, last, same⟩ := Option.bind_eq_some_iff.mp last
    cases same
    cases step with
    | call c =>
      cases last
      obtain ⟨ran, he, -⟩ := later_perform mid c
      exact ⟨ho.perform c, by rw [he, ran, hx]⟩
    | runPending =>
      obtain ⟨after, hx, -⟩ := ho.runPending hx last
      exact ⟨after, hx⟩

/-- The accounts hold between the calls, whatever the functions do, and a run that returns leaves
no item behind. -/
theorem workqueue_accounted {steps : List Step}
    (run : steps.foldlM apply workqueueInit = some wq) : wq.Ordered ∧ wq.executed = wq.ran.length ∧
    wq.queued = wq.executed + wq.cancelled.length + wq.items.length ∧
    ∀ calls turns post, wq.workqueueRunPending calls turns = some post →
      post.items = [] ∧ post.ran = (range post.queued).filter fun n => n ∉ post.cancelled := by
  obtain ⟨ho, hx⟩ := accounted_of_run run
  refine ⟨ho, hx, hx ▸ ho.count, fun calls turns post ret => ?_⟩
  obtain ⟨after, -, none, -⟩ := ho.runPending hx ret
  have order := after.order
  rw [none, map_nil, append_nil] at order
  exact ⟨none, order⟩

/-- The first function cancels the second item and queues a third one. -/
def mixedSteps : List Step :=
  [.call (.queue 0), .call (.queue 1),
    .runPending (fun k => if k = 0 then [.cancel 1, .queue 2] else []) 3, .call (.queue 1)]

theorem workqueue_accounted_mixedSteps : ∃ wq, mixedSteps.foldlM apply workqueueInit = some wq ∧
    (wq.queued, wq.executed, wq.cancelled, wq.items) = (4, 2, [1], [1]) ∧ wq.Ordered := by
  obtain ⟨wq, run, seen⟩ : ∃ wq, mixedSteps.foldlM apply workqueueInit = some wq ∧
      (wq.queued, wq.executed, wq.cancelled, wq.items) = (4, 2, [1], [1]) := ⟨_, rfl, rfl⟩
  exact ⟨wq, run, seen, (workqueue_accounted run).1⟩

/-- What was pending when it was called has run, unless it was cancelled. -/
def DrainsPending (wq : WorkQueue) (calls : Nat → List WorkCall) : Prop :=
  ∃ turns post, wq.workqueueRunPending calls turns = some post ∧
    post.ran = wq.ran ++ (wq.items.map wq.number).filter fun n => n ∉ post.cancelled

/-- The queue once the functions of the items with a number below `limit` have run. -/
def afterPending (calls : Nat → List WorkCall) (limit : Nat) : Nat → WorkQueue → WorkQueue
  | 0, wq => wq
  | len + 1, wq =>
    match wq.items with
    | [] => wq
    | w :: rest =>
      if wq.number w < limit then afterPending calls limit len (wq.turn calls w rest) else wq

/-- The functions of the pending items leave nothing queued. -/
def LeavesNothing (wq : WorkQueue) (calls : Nat → List WorkCall) : Prop :=
  (wq.afterPending calls wq.queued wq.queued).items = []

lemma Ordered.nodup_numbers (ho : wq.Ordered) : (wq.ran ++ wq.items.map wq.number).Nodup :=
  ho.order ▸ nodup_range.filter _

lemma Ordered.number_lt (ho : wq.Ordered) {n : Nat}
    (mem : n ∈ wq.ran ++ wq.items.map wq.number) : n < wq.queued := by
  rw [ho.order] at mem
  exact mem_range.mp (mem_filter.mp mem).1

/-- The loop returns this queue after some number of turns. -/
def Returns (wq : WorkQueue) (calls : Nat → List WorkCall) (post : WorkQueue) : Prop :=
  ∃ turns, wq.workqueueRunPending calls turns = some post

lemma returns_turn (head : wq.items = w :: rest) :
    wq.Returns calls post ↔ (wq.turn calls w rest).Returns calls post := by
  constructor
  · rintro ⟨turns, run⟩
    cases turns with
    | zero => cases run
    | succ turns =>
      simp only [workqueueRunPending, head] at run
      exact ⟨turns, run⟩
  · rintro ⟨turns, run⟩
    refine ⟨turns + 1, ?_⟩
    simp only [workqueueRunPending, head]
    exact run

/-- The old items have run, and the loop goes on with a younger one. -/
structure Between (wq : WorkQueue) (calls : Nat → List WorkCall) (limit : Nat) (mid : WorkQueue) :
    Prop where
  ordered : mid.Ordered
  counted : mid.executed = mid.ran.length
  old : ∀ n ∈ mid.ran, n < limit
  later : wq.Later mid
  young : ∀ w rest, mid.items = w :: rest → limit ≤ mid.number w
  same : ∀ post, wq.Returns calls post ↔ mid.Returns calls post

lemma Ordered.afterPending (calls : Nat → List WorkCall) {limit len : Nat} (ho : wq.Ordered)
    (hx : wq.executed = wq.ran.length) (old : ∀ n ∈ wq.ran, n < limit)
    (enough : limit ≤ wq.ran.length + len) :
    wq.Between calls limit (wq.afterPending calls limit len) := by
  induction len generalizing wq with
  | zero =>
    rw [WorkQueue.afterPending]
    refine ⟨ho, hx, old, ⟨refl _, refl _, Nat.le_refl _⟩, fun w rest head => ?_, fun _ => Iff.rfl⟩
    refine Nat.le_of_not_lt fun lt => ?_
    -- all the numbers below the limit have run
    have distinct := ho.nodup_numbers
    rw [head, map_cons] at distinct
    have fresh := nodup_cons.mp (nodup_middle.mp distinct)
    have more : (wq.number w :: wq.ran).Nodup :=
      nodup_cons.mpr ⟨fun mem => fresh.1 (mem_append_left _ mem), (nodup_append.mp fresh.2).1⟩
    have inside : wq.number w :: wq.ran ⊆ range limit := by
      intro n mem
      rcases mem_cons.mp mem with rfl | mem
      · exact mem_range.mpr lt
      · exact mem_range.mpr (old n mem)
    have fits := (more.subperm inside).length_le
    rw [length_cons, length_range] at fits
    omega
  | succ len ih =>
    rw [WorkQueue.afterPending]
    split
    · next none =>
      exact ⟨ho, hx, old, ⟨refl _, refl _, Nat.le_refl _⟩, by simp [none], fun _ => Iff.rfl⟩
    next w rest head =>
    split_ifs with lt
    · obtain ⟨after, counted, ran, later⟩ := ho.turn calls hx head
      have below : ∀ n ∈ (wq.turn calls w rest).ran, n < limit := by
        rw [ran]
        intro n mem
        rcases mem_append.mp mem with mem | mem
        · exact old n mem
        · exact mem_singleton.mp mem ▸ lt
      have between := ih after counted below (by rw [ran, length_append, length_singleton]; omega)
      exact { between with
        later := later.trans between.later
        same := fun post => (returns_turn head).trans (between.same post) }
    · refine ⟨ho, hx, old, ⟨refl _, refl _, Nat.le_refl _⟩, fun v others eq => ?_, fun _ => Iff.rfl⟩
      cases head.symm.trans eq
      exact Nat.le_of_not_lt lt

lemma filter_range_eq {limit bound : Nat} {p : Nat → Bool} (le : limit ≤ bound)
    (below : ∀ n ∈ (range bound).filter p, n < limit) :
    (range bound).filter p = (range limit).filter p := by
  obtain ⟨more, rfl⟩ := Nat.exists_eq_add_of_le le
  rw [range_add, filter_append] at below ⊢
  refine append_right_eq_self.mpr (filter_eq_nil_iff.mpr fun n mem yes => ?_)
  have := below n (mem_append_right _ (mem_filter.mpr ⟨mem, yes⟩))
  obtain ⟨k, -, rfl⟩ := mem_map.mp mem
  omega

/-- Exactly the pending items run, if their functions leave nothing queued. -/
theorem drainsPending_iff {steps : List Step} (reached : steps.foldlM apply workqueueInit = some wq)
    (calls : Nat → List WorkCall) : wq.DrainsPending calls ↔ wq.LeavesNothing calls := by
  obtain ⟨ho, hx⟩ := accounted_of_run reached
  have between := ho.afterPending calls hx
    (fun n mem => ho.number_lt (mem_append_left _ mem)) (Nat.le_add_left ..)
  unfold LeavesNothing
  generalize wq.afterPending calls wq.queued wq.queued = mid at between ⊢
  constructor
  · rintro ⟨turns, post, run, drained⟩
    obtain ⟨turns, rest⟩ := (between.same post).mp ⟨turns, run⟩
    cases items : mid.items with
    | nil => rfl
    | cons w others =>
      -- the next item is young, but all that have run are old
      exfalso
      obtain ⟨turns, rest⟩ := (returns_turn items).mp ⟨turns, rest⟩
      obtain ⟨after, counted, ran, -⟩ := between.ordered.turn calls between.counted items
      have has := (after.runPending counted rest).2.2.2.ran (ran ▸ mem_append_right _ mem_cons_self)
      rw [drained] at has
      refine Nat.not_lt.mpr (between.young w others items) (ho.number_lt ?_)
      rcases mem_append.mp has with mem | mem
      · exact mem_append_left _ mem
      · exact mem_append_right _ (mem_filter.mp mem).1
  · intro none
    have order := between.ordered.order
    rw [none, map_nil, append_nil] at order
    obtain ⟨turns, run⟩ := (between.same mid).mpr ⟨1, by simp only [workqueueRunPending, none]⟩
    refine ⟨turns, mid, run, ?_⟩
    have kept : ∀ n ∈ wq.ran, n ∉ mid.cancelled := fun n mem => by
      have := between.later.ran mem
      rw [order] at this
      exact of_decide_eq_true (mem_filter.mp this).2
    calc mid.ran
      _ = (range wq.queued).filter fun n => n ∉ mid.cancelled := by
        rw [order]
        exact filter_range_eq between.later.queued (order ▸ between.old)
      _ = ((range wq.queued).filter fun n => n ∉ wq.cancelled).filter fun n =>
          n ∉ mid.cancelled := by
        rw [filter_filter]
        refine filter_congr fun n _ => ?_
        by_cases mem : n ∈ wq.cancelled
        · simp [mem, between.later.cancelled mem]
        · simp [mem]
      _ = wq.ran ++ (wq.items.map wq.number).filter fun n => n ∉ mid.cancelled := by
        rw [← ho.order, filter_append, filter_eq_self.mpr]
        exact fun n mem => decide_eq_true (kept n mem)

/-- A function queues its own item, and the next one cancels it. -/
theorem drainsPending_cancelled :
    ∃ wq, [Step.call (.queue 0), .call (.queue 1)].foldlM apply workqueueInit = some wq ∧
      wq.DrainsPending fun k => if k = 0 then [.queue 1, .queue 0] else [.cancel 0] := by
  obtain ⟨wq, run, leaves⟩ : ∃ wq, [Step.call (.queue 0), .call (.queue 1)].foldlM apply
      workqueueInit = some wq ∧
      wq.LeavesNothing fun k => if k = 0 then [.queue 1, .queue 0] else [.cancel 0] :=
    ⟨_, rfl, rfl⟩
  exact ⟨wq, run, (drainsPending_iff run _).mpr leaves⟩

/-- A function that queues its own item. -/
theorem not_drainsPending_requeued :
    ¬ (workqueueInit.perform (.queue 0)).DrainsPending fun _ => [.queue 0] := by
  rintro ⟨turns, post, run, -⟩
  have never : ∀ turns (wq : WorkQueue), wq.items = [0] →
      wq.workqueueRunPending (fun _ => [.queue 0]) turns = none := by
    intro turns
    induction turns with
    | zero => exact fun _ _ => rfl
    | succ _ ih =>
      intro wq head
      have ht : (wq.turn (fun _ => [.queue 0]) 0 []).items = [0] := by
        simp [turn, take, perform, workqueueQueue]
      rw [workqueueRunPending, head]
      exact ih _ ht
  rw [never _ _ rfl] at run
  cases run

end WorkQueue

end HnxKernel
