import Hnx.VmRegionRemoval

/-!
# Runs of calls on a map

Without memory for the part behind a hole, that part is lost as well.
-/

namespace HnxKernel

section

open Function List
open LinkedRing

variable {st next : VmState} {nodes : List Nat} {n start stop a : Nat}

section SameRanges

lemma VmHolds.of_sameRanges (h : VmHolds st nodes) (linksEq : next.links = st.links)
    (regionsEq : next.map.regions = st.map.regions) (baseEq : next.map.base = st.map.base)
    (limitEq : next.map.limit = st.map.limit)
    (countEq : next.map.regionCount = st.map.regionCount)
    (totalEq : next.map.totalMapped = st.map.totalMapped)
    (startEq : ∀ n, (next.region n).start = (st.region n).start)
    (stopEq : ∀ n, (next.region n).stop = (st.region n).stop) : VmHolds next nodes := by
  have regions := h.regions
  constructor
  · rw [linksEq, regionsEq]
    exact h.ring
  · rw [baseEq, limitEq]
    constructor
    · intro r mem
      obtain ⟨o, oMem, rfl⟩ := mem_map.mp mem
      have inside := regions.inside (st.region o) (mem_map_of_mem oMem)
      constructor
      · rw [startEq]
        exact inside.startAligned
      · rw [stopEq]
        exact inside.stopAligned
      · rw [startEq, stopEq]
        exact inside.notEmpty
      · rw [startEq]
        exact inside.above
      rw [stopEq]
      exact inside.below
    have ordered := regions.ordered
    rw [regionsAt, pairwise_map] at ordered ⊢
    exact ordered.imp fun apart => by rwa [startEq, stopEq]
  · rw [countEq, h.count]
  · rw [totalEq, h.total, mappedBytes, mappedBytes, regionsAt, regionsAt, map_map, map_map]
    congr 1
    apply map_congr_left
    intro o _
    simp only [Function.comp_apply, VmRegion.size, startEq, stopEq]
  rw [limitEq]
  exact h.bounded

structure SameRanges (st next : VmState) : Prop where
  map : next.map = st.map
  links : next.links = st.links
  start : ∀ n, (next.region n).start = (st.region n).start
  stop : ∀ n, (next.region n).stop = (st.region n).stop

lemma VmHolds.sameRanges (h : VmHolds st nodes) (eq : SameRanges st next) : VmHolds next nodes :=
  h.of_sameRanges eq.links (by rw [eq.map]) (by rw [eq.map]) (by rw [eq.map])
    (by rw [eq.map]) (by rw [eq.map]) eq.start eq.stop

lemma SameRanges.trans {mid : VmState} (fst : SameRanges st mid)
    (snd : SameRanges mid next) : SameRanges st next where
  map := snd.map.trans fst.map
  links := snd.links.trans fst.links
  start := fun n => (snd.start n).trans (fst.start n)
  stop := fun n => (snd.stop n).trans (fst.stop n)

lemma sameRanges_setRegion {region : VmRegion} (startEq : region.start = (st.region n).start)
    (stopEq : region.stop = (st.region n).stop) : SameRanges st (setRegion st n region) where
  map := rfl
  links := rfl
  start := by
    intro o
    change (update st.region n region o).start = _
    by_cases eq : o = n
    · rw [eq, update_self, startEq]
    · rw [update_of_ne eq]
  stop := by
    intro o
    change (update st.region n region o).stop = _
    by_cases eq : o = n
    · rw [eq, update_self, stopEq]
    · rw [update_of_ne eq]

lemma sameRanges_updateOverlapping {change : VmRegion → VmRegion}
    (startEq : ∀ r, (change r).start = r.start) (stopEq : ∀ r, (change r).stop = r.stop)
    (start stop : Nat) (st : VmState) : SameRanges st (updateOverlapping change start stop st) := by
  rw [updateOverlapping]
  generalize vmEntries st = es
  induction es generalizing st with
  | nil => exact ⟨rfl, rfl, fun _ => rfl, fun _ => rfl⟩
  | cons _ _ ih =>
    rw [foldl_cons]
    apply SameRanges.trans _ (ih _)
    split
    · exact ⟨rfl, rfl, fun _ => rfl, fun _ => rfl⟩
    · exact sameRanges_setRegion (startEq _) (stopEq _)

end SameRanges

section Find

variable {region : Nat → VmRegion}

lemma findRegion_spec {base lim : Nat} (a : Nat) (rs : RegionsOk base lim (nodes.map region)) :
    (∃ n ∈ nodes, (region n).Covers a ∧ findRegion region a nodes = some n) ∨
      ((∀ n ∈ nodes, ¬ (region n).Covers a) ∧ findRegion region a nodes = none) := by
  induction nodes with
  | nil => exact .inr ⟨by simp, rfl⟩
  | cons fst _ ih =>
    obtain ⟨_, restOk, later⟩ := regionsOk_cons.mp rs
    rw [findRegion]
    by_cases covers : a ≥ (region fst).start ∧ a < (region fst).stop
    · left
      rw [if_pos covers]
      exact ⟨fst, by simp, covers, rfl⟩
    rw [if_neg covers]
    by_cases above : (region fst).start > a
    · right
      rw [if_pos above]
      refine ⟨?_, rfl⟩
      intro n mem
      rcases mem_cons.mp mem with rfl | r
      · exact covers
      rintro ⟨low, _⟩
      have apart := later (region n) (mem_map_of_mem r)
      have notEmpty := (regionsOk_cons.mp rs).1.notEmpty
      omega
    rw [if_neg above]
    rcases ih restOk with ⟨n, mem, nodeCovers, hf⟩ | ⟨none, notFound⟩
    · exact .inl ⟨n, mem_cons_of_mem fst mem, nodeCovers, hf⟩
    right
    refine ⟨?_, notFound⟩
    intro n mem
    rcases mem_cons.mp mem with rfl | r
    · exact covers
    · exact none n r

lemma VmHolds.find_spec (h : VmHolds st nodes) (a : Nat) : (∃ n ∈ nodes, (st.region n).Covers a ∧
      (∀ o ∈ nodes, (st.region o).Covers a → o = n) ∧
      vmMapFind st a = some n) ∨
    ((∀ n ∈ nodes, ¬ (st.region n).Covers a) ∧ vmMapFind st a = none) := by
  rw [vmMapFind, h.entries_eq]
  rcases findRegion_spec a h.regions with ⟨n, mem, covers, hf⟩ | none
  · left
    refine ⟨n, mem, covers, ?_, hf⟩
    intro o oMem otherCovers
    exact h.regions.eq_of_covers oMem mem otherCovers covers
  · exact .inr none

end Find

section Faults

lemma countFault_frame (map : VmMap) (r : VmRegion) (write pres : Bool) :
    (countFault map r write pres).regions = map.regions ∧
      (countFault map r write pres).base = map.base ∧
      (countFault map r write pres).limit = map.limit ∧
      (countFault map r write pres).regionCount = map.regionCount ∧
      (countFault map r write pres).totalMapped = map.totalMapped := by
  unfold countFault
  split
  · exact ⟨rfl, rfl, rfl, rfl, rfl⟩
  split
  · exact ⟨rfl, rfl, rfl, rfl, rfl⟩
  split
  · exact ⟨rfl, rfl, rfl, rfl, rfl⟩
  · exact ⟨rfl, rfl, rfl, rfl, rfl⟩

lemma VmHolds.accountFault (h : VmHolds st nodes) (a : Nat) (write pres : Bool) :
    VmHolds (vmMapAccountFault st a write pres).2 nodes ∧
      SameFrame st (vmMapAccountFault st a write pres).2 := by
  rw [vmMapAccountFault]
  cases vmMapFind st a with
  | none =>
    refine ⟨?_, ⟨rfl, rfl, rfl⟩⟩
    exact h.of_sameRanges rfl rfl rfl rfl rfl rfl (fun _ => rfl) (fun _ => rfl)
  | some n =>
    obtain ⟨regionsEq, baseEq, limitEq, countEq, totalEq⟩ :=
      countFault_frame st.map (st.region n) write pres
    have eq : SameRanges st (setRegion st n
      { st.region n with faultCount := u64 ((st.region n).faultCount + 1) }) :=
      sameRanges_setRegion rfl rfl
    refine ⟨?_, ⟨regionsEq, baseEq, limitEq⟩⟩
    exact h.of_sameRanges rfl regionsEq baseEq limitEq countEq totalEq eq.start eq.stop

end Faults

inductive VmCall
  | insert (start stop prot flags name : Nat)
  | remove (start stop : Nat)
  | protect (start stop prot : Nat)
  | markCow (start stop : Nat)
  | accountFault (addr : Nat) (write present : Bool)

def VmCall.perform (st : VmState) : VmCall → VmState
  | .insert start stop prot flags name => (vmMapInsert st start stop prot flags name).2
  | .remove start stop => (vmMapRemove st start stop).2
  | .protect start stop prot => (vmMapProtect st start stop prot).2
  | .markCow start stop => (vmMapMarkCow st start stop).2
  | .accountFault a write present => (vmMapAccountFault st a write present).2

structure VmStep where
  call : VmCall
  outcomes : List (Option Nat)

def VmStep.perform (st : VmState) (step : VmStep) : VmState :=
  step.call.perform { st with outcomes := step.outcomes }

def runVm (st : VmState) (steps : List VmStep) : VmState := steps.foldl VmStep.perform st

def AllocatesFresh (st : VmState) (step : VmStep) : Prop :=
  ∀ n, some n ∈ step.outcomes → n ≠ st.map.regions ∧ n ∉ vmEntries st

def RunAllocatesFresh : VmState → List VmStep → Prop
  | _, [] => True
  | st, step :: steps => AllocatesFresh st step ∧ RunAllocatesFresh (step.perform st) steps

lemma VmHolds.freshOutcomes (h : VmHolds st nodes) {step : VmStep}
    (fresh : AllocatesFresh st step) :
      FreshOutcomes { st with outcomes := step.outcomes } nodes := by
  intro n isOutcome mem
  obtain ⟨notHead, notLinked⟩ := fresh n isOutcome
  rw [h.entries_eq] at notLinked
  rcases mem_cons.mp mem with isHead | link
  · exact notHead isHead
  · exact notLinked link

lemma VmHolds.step (h : VmHolds st nodes) {step : VmStep} (fresh : AllocatesFresh st step) :
    ∃ post, VmHolds (step.perform st) post ∧ SameFrame st (step.perform st) := by
  have freshOutcomes := h.freshOutcomes fresh
  have armed : VmHolds { st with outcomes := step.outcomes } nodes := h.congr rfl h.ring rfl
  have armedFrame : SameFrame st { st with outcomes := step.outcomes } := ⟨rfl, rfl, rfl⟩
  rw [VmStep.perform]
  generalize ({ st with outcomes := step.outcomes } : VmState) = ready at *
  have kept (next : VmState) (eq : SameRanges ready next) :
    ∃ post, VmHolds next post ∧ SameFrame st next :=
    ⟨nodes, armed.sameRanges eq, armedFrame.trans ⟨by rw [eq.map], by rw [eq.map], by rw [eq.map]⟩⟩
  cases step.call with
  | insert start stop prot fl name =>
    obtain ⟨post, afterHolds, f⟩ := vmMapInsert_holds armed freshOutcomes start stop prot fl name
    exact ⟨post, afterHolds, armedFrame.trans f⟩
  | remove start stop =>
    rw [VmCall.perform]
    by_cases aligned : alignedRange start stop = true
    · obtain ⟨startAligned, stopAligned, sorted⟩ := (alignedRange_iff start stop).mp aligned
      have cut := vmMapRemove_spec armed freshOutcomes startAligned stopAligned sorted
      obtain ⟨post, afterHolds, _⟩ := cut.list
      exact ⟨post, afterHolds, armedFrame.trans cut.frame⟩
    rw [vmMapRemove, if_pos (by simpa using aligned)]
    exact ⟨nodes, armed, armedFrame⟩
  | protect =>
    rw [VmCall.perform, vmMapProtect]
    split
    · exact ⟨nodes, armed, armedFrame⟩
    apply kept
    dsimp only
    apply sameRanges_updateOverlapping
    · exact fun _ => rfl
    · exact fun _ => rfl
  | markCow =>
    rw [VmCall.perform, vmMapMarkCow]
    apply kept
    dsimp only
    apply sameRanges_updateOverlapping
    · intro r
      split
      · rfl
      · rfl
    intro r
    split
    · rfl
    · rfl
  | accountFault a write pres =>
    obtain ⟨afterHolds, f⟩ := armed.accountFault a write pres
    exact ⟨nodes, afterHolds, armedFrame.trans f⟩

/-- A circle of disjoint ascending regions, which the counters and `vm_map_find` agree with. -/
structure VmSound (regions base limit : Nat) (st : VmState) (nodes : List Nat) : Prop where
  ring : Ring st.links regions nodes
  ascending : nodes.Pairwise fun n other => (st.region n).start < (st.region other).start
  inside : ∀ n ∈ nodes, (st.region n).Inside base limit
  disjoint : nodes.Pairwise fun n other =>
    ∀ a, ¬ ((st.region n).Covers a ∧ (st.region other).Covers a)
  count : st.map.regionCount = nodes.length
  total : st.map.totalMapped = (nodes.map fun n => (st.region n).stop - (st.region n).start).sum
  find : ∀ a, (∃ n ∈ nodes, (st.region n).Covers a ∧
        (∀ other ∈ nodes, (st.region other).Covers a → other = n) ∧
        vmMapFind st a = some n) ∨
      ((∀ n ∈ nodes, ¬ (st.region n).Covers a) ∧ vmMapFind st a = none)

lemma VmHolds.sound (h : VmHolds st nodes) :
    VmSound st.map.regions st.map.base st.map.limit st nodes := by
  have ordered := h.regions.ordered
  rw [regionsAt, pairwise_map] at ordered
  constructor
  · exact h.ring
  · apply ordered.imp_of_mem
    intro n o mem _ apart
    have notEmpty := (h.regions.inside _ (mem_map_of_mem mem)).notEmpty
    omega
  · exact fun n mem => h.regions.inside _ (mem_map_of_mem mem)
  · apply ordered.imp
    rintro n o apart a ⟨⟨_, high⟩, low, _⟩
    omega
  · exact h.count
  · rw [h.total, mappedBytes, regionsAt, map_map]
    rfl
  · exact h.find_spec

lemma VmHolds.run (h : VmHolds st nodes) {steps : List VmStep}
    (fresh : RunAllocatesFresh st steps) :
    ∃ post, VmHolds (runVm st steps) post ∧ SameFrame st (runVm st steps) := by
  induction steps generalizing st nodes with
  | nil => exact ⟨nodes, h, rfl, rfl, rfl⟩
  | cons _ _ ih =>
    obtain ⟨freshStep, freshRest⟩ := fresh
    obtain ⟨mid, midHolds, midFrame⟩ := h.step freshStep
    obtain ⟨post, afterHolds, f⟩ := ih midHolds freshRest
    exact ⟨post, afterHolds, midFrame.trans f⟩

theorem vmMap_sound_of_run (ram : VmState) (rs name : Nat) {base lim : Nat}
    (bounded : lim < 2 ^ 64) (steps : List VmStep)
    (fresh : RunAllocatesFresh (vmMapInit ram rs base lim name) steps) : ∃ nodes,
      VmSound rs base lim
      (runVm (vmMapInit ram rs base lim name) steps) nodes := by
  obtain ⟨nodes, h, f⟩ := (vmMapInit_holds ram rs base name bounded).run fresh
  have sound := h.sound
  rw [f.regions, f.base, f.limit] at sound
  exact ⟨nodes, sound⟩

def bareMemory : VmState where
  map := ⟨0, 0, 0, 0, 0, 0, 0, 0, 0, 0⟩
  links := ⟨fun n => n, fun n => n⟩
  region := fun _ => ⟨0, 0, 0, 0, 0, 0⟩
  outcomes := []

def holeSteps : List VmStep :=
  [⟨.insert 0x1000 0x4000 3 1 0, [some 10]⟩, ⟨.remove 0x2000 0x3000, [some 20]⟩,
    ⟨.accountFault 0x3000 true true, []⟩]

theorem holeSteps_sound :
    ∃ nodes, VmSound 1 0x1000 0x10000 (runVm (vmMapInit bareMemory 1 0x1000 0x10000 0) holeSteps)
      nodes := by
  apply vmMap_sound_of_run bareMemory 1 0 (by norm_num) holeSteps
  refine ⟨?_, ?_, ?_, trivial⟩
  · intro n member
    simp only [mem_singleton, Option.some.injEq] at member
    subst member
    decide +kernel
  · intro n member
    simp only [mem_singleton, Option.some.injEq] at member
    subst member
    decide +kernel
  intro n member
  simp at member

end

open List

variable {st : VmState} {ns : List Nat} {start stop a base limit : Nat} {r : VmRegion}
  {rs : List VmRegion} {alloc : Bool}

def VmMapped (st : VmState) (addr : Nat) : Prop :=
  ∃ node ∈ vmEntries st, (st.region node).Covers addr

/-- The addresses outside stay mapped, and the bytes that are no more are counted. -/
structure RemovesRange (st : VmState) (start stop : Nat) : Prop where
  mapped : ∀ a, VmMapped (vmMapRemove st start stop).2 a ↔ VmMapped st a ∧ ¬ (start ≤ a ∧ a < stop)
  attributes : ∀ a, ∀ node ∈ vmEntries (vmMapRemove st start stop).2,
    ((vmMapRemove st start stop).2.region node).Covers a →
    ∀ old ∈ vmEntries st, (st.region old).Covers a →
      ((vmMapRemove st start stop).2.region node).prot = (st.region old).prot ∧
      ((vmMapRemove st start stop).2.region node).flags = (st.region old).flags ∧
      ((vmMapRemove st start stop).2.region node).name = (st.region old).name
  bytes : (vmMapRemove st start stop).1 =
    {a | VmMapped st a ∧ ¬ VmMapped (vmMapRemove st start stop).2 a}.ncard

instance (r : VmRegion) (addr : Nat) : Decidable (r.Covers addr) :=
  inferInstanceAs (Decidable (_ ∧ _))

instance (st : VmState) (addr : Nat) : Decidable (VmMapped st addr) :=
  inferInstanceAs (Decidable (∃ node ∈ vmEntries st, _))

section Parts

lemma part_of_cutParts (sorted : start < stop) {part : VmRegion}
    (isPart : part ∈ cutParts start stop alloc r) :
    (part.prot = r.prot ∧ part.flags = r.flags ∧ part.name = r.name) ∧
      ∀ a, part.Covers a → r.Covers a ∧ ¬ (start ≤ a ∧ a < stop) := by
  rw [cutParts] at isPart
  simp only [VmRegion.Covers]
  split at isPart
  · rw [mem_singleton.mp isPart]
    refine ⟨⟨rfl, rfl, rfl⟩, ?_⟩
    intro a covers
    omega
  split at isPart
  · simp at isPart
  split at isPart
  · rcases mem_cons.mp isPart with rfl | isRight
    · refine ⟨⟨rfl, rfl, rfl⟩, ?_⟩
      intro a covers
      dsimp only at covers
      omega
    split at isRight
    · rw [mem_singleton.mp isRight]
      refine ⟨⟨rfl, rfl, rfl⟩, ?_⟩
      intro a covers
      dsimp only at covers
      omega
    · simp at isRight
  split at isPart
  · rw [mem_singleton.mp isPart]
    refine ⟨⟨rfl, rfl, rfl⟩, ?_⟩
    intro a covers
    dsimp only at covers
    omega
  rw [mem_singleton.mp isPart]
  refine ⟨⟨rfl, rfl, rfl⟩, ?_⟩
  intro a covers
  dsimp only at covers
  omega

lemma covers_cutParts (complete : Hole start stop r → alloc = true)
    (covers : r.Covers a) (out : ¬ (start ≤ a ∧ a < stop)) :
    ∃ part ∈ cutParts start stop alloc r, part.Covers a := by
  obtain ⟨low, high⟩ := covers
  rw [cutParts]
  split
  · exact ⟨r, by simp, low, high⟩
  split
  · omega
  split
  case isTrue hole =>
    rw [complete hole]
    by_cases left : a < start
    · exact ⟨{ r with stop := start }, by simp, low, left⟩
    · exact ⟨{ r with start := stop, faultCount := 0 }, by simp, by dsimp only; omega, high⟩
  split
  · exact ⟨{ r with start := stop }, by simp, by dsimp only; omega, high⟩
  · exact ⟨{ r with stop := start }, by simp, low, by dsimp only; omega⟩

lemma mappedBytes_cutParts (sorted : start < stop)
    (complete : Hole start stop r → alloc = true) (notEmpty : r.start < r.stop) :
    mappedBytes (cutParts start stop alloc r) + overlapBytes start stop r = r.size := by
  have single (part : VmRegion) : mappedBytes [part] = part.stop - part.start := by
    rw [mappedBytes_cons]
    rfl
  rw [cutParts, overlapBytes, VmRegion.size]
  split
  · rw [single]
    omega
  split
  · change 0 + _ = _
    omega
  split
  case isTrue hole =>
    rw [complete hole, if_pos rfl, mappedBytes_cons, single]
    simp only [VmRegion.size]
    omega
  split
  · rw [single]
    dsimp only
    omega
  rw [single]
  dsimp only
  omega

lemma not_covers_failed_split (hole : Hole start stop r) (sorted : start < stop)
    {part : VmRegion} (isPart : part ∈ cutParts start stop false r) : ¬ part.Covers stop := by
  obtain ⟨left, right⟩ := hole
  rw [cutParts, if_neg (by omega), if_neg (by omega), if_pos (by omega)] at isPart
  rw [mem_cons] at isPart
  rcases isPart with rfl | nothing
  · rintro ⟨_, high⟩
    dsimp only at high
    omega
  · simp at nothing

end Parts

section Difference

variable {post : VmState} {afterNodes : List Nat}

lemma VmHolds.mapped_iff (h : VmHolds st ns) (a : Nat) :
    VmMapped st a ↔ a ∈ mappedSet (regionsAt st ns) := by
  rw [VmMapped, h.entries_eq]
  simp [mappedSet, regionsAt]

lemma mem_mappedSet_cut (sorted : start < stop)
    (complete : ∀ r ∈ rs, Hole start stop r → alloc = true) (a : Nat) :
    a ∈ mappedSet (rs.flatMap (cutParts start stop alloc)) ↔
      a ∈ mappedSet rs ∧ ¬ (start ≤ a ∧ a < stop) := by
  constructor
  · rintro ⟨part, isPart, covers⟩
    obtain ⟨r, mem, partOf⟩ := mem_flatMap.mp isPart
    obtain ⟨rCovers, out⟩ := (part_of_cutParts sorted partOf).2 a covers
    exact ⟨⟨r, mem, rCovers⟩, out⟩
  rintro ⟨⟨r, mem, covers⟩, out⟩
  obtain ⟨part, partOf, partCovers⟩ := covers_cutParts (complete r mem) covers out
  exact ⟨part, mem_flatMap.mpr ⟨r, mem, partOf⟩, partCovers⟩

lemma mappedBytes_cut (sorted : start < stop) (regions : RegionsOk base limit rs)
    (complete : ∀ r ∈ rs, Hole start stop r → alloc = true) :
    mappedBytes (rs.flatMap (cutParts start stop alloc)) +
      (rs.map (overlapBytes start stop)).sum = mappedBytes rs := by
  induction rs with
  | nil => rfl
  | cons _ _ ih =>
    obtain ⟨mem, restOk, _⟩ := regionsOk_cons.mp regions
    obtain ⟨fst, rest⟩ := forall_mem_cons.mp complete
    have restEq := ih restOk rest
    have firstEq := mappedBytes_cutParts sorted fst mem.notEmpty
    rw [flatMap_cons, mappedBytes_append, map_cons, sum_cons, mappedBytes_cons]
    omega

lemma attributes_of_cut (sorted : start < stop) (regions : RegionsOk base limit rs)
    {part old : VmRegion} (isPart : part ∈ rs.flatMap (cutParts start stop alloc))
    (partCovers : part.Covers a) (oldMem : old ∈ rs) (oldCovers : old.Covers a) :
    part.prot = old.prot ∧ part.flags = old.flags ∧ part.name = old.name := by
  obtain ⟨r, mem, partOf⟩ := mem_flatMap.mp isPart
  obtain ⟨attributes, within⟩ := part_of_cutParts sorted partOf
  have ok : RegionsOk base limit (rs.map id) := by rwa [map_id]
  have same := ok.eq_of_covers mem oldMem (within a partCovers).1 oldCovers
  rwa [← same]

section
variable (h : VmHolds st ns) (sorted : start < stop)
  (cut : RestCut start stop 0 st [] ns (vmMapRemove st start stop))
include h sorted cut

lemma VmHolds.removes_of_complete
    (complete : ∀ r ∈ regionsAt st ns, Hole start stop r → allocSucceeds st = true) :
    RemovesRange st start stop := by
  obtain ⟨bytes, ⟨afterNodes, afterHolds, regionsEq⟩, _⟩ := cut
  rw [show regionsAt st [] = [] from rfl, nil_append] at regionsEq
  have hm (a : Nat) : VmMapped (vmMapRemove st start stop).2 a ↔
    VmMapped st a ∧ ¬ (start ≤ a ∧ a < stop) := by
    rw [afterHolds.mapped_iff, h.mapped_iff, regionsEq]
    exact mem_mappedSet_cut sorted complete a
  refine ⟨hm, ?_, ?_⟩
  · intro a n nodeMem covers old oldMem oldCovers
    rw [afterHolds.entries_eq] at nodeMem
    rw [h.entries_eq] at oldMem
    have isPart : (vmMapRemove st start stop).2.region n ∈
      regionsAt (vmMapRemove st start stop).2 afterNodes := mem_map_of_mem nodeMem
    rw [regionsEq] at isPart
    exact attributes_of_cut sorted h.regions isPart covers (mem_map_of_mem oldMem)
      oldCovers
  obtain ⟨beforeCard, beforeFinite⟩ := h.regions.ncard_mappedSet
  obtain ⟨afterCard, afterFinite⟩ := afterHolds.regions.ncard_mappedSet
  have lostEq : {a | VmMapped st a ∧ ¬ VmMapped (vmMapRemove st start stop).2 a} =
    mappedSet (regionsAt st ns) \
      mappedSet (regionsAt (vmMapRemove st start stop).2 afterNodes) := by
    ext a
    rw [Set.mem_ofPred_eq, h.mapped_iff, afterHolds.mapped_iff]
    rfl
  have smaller : mappedSet (regionsAt (vmMapRemove st start stop).2 afterNodes) ⊆
    mappedSet (regionsAt st ns) := by
    intro a stillMapped
    rw [← afterHolds.mapped_iff, hm, h.mapped_iff] at stillMapped
    exact stillMapped.1
  have counted := mappedBytes_cut sorted h.regions complete
  rw [← regionsEq] at counted
  rw [lostEq, Set.ncard_sdiff smaller afterFinite, beforeCard, afterCard, bytes]
  omega

lemma VmHolds.complete_of_removes
    (removes : RemovesRange st start stop) (failed : allocSucceeds st = false) :
    ∀ node ∈ vmEntries st, ¬ Hole start stop (st.region node) := by
  obtain ⟨_, ⟨afterNodes, afterHolds, regionsEq⟩, _⟩ := cut
  rw [show regionsAt st [] = [] from rfl, nil_append, failed] at regionsEq
  intro node mem hole
  rw [h.entries_eq] at mem
  have covers : (st.region node).Covers stop := by
    obtain ⟨left, right⟩ := hole
    exact ⟨by omega, right⟩
  have wasMapped : VmMapped st stop := by
    rw [VmMapped, h.entries_eq]
    exact ⟨node, mem, covers⟩
  have stillMapped := (removes.mapped stop).mpr ⟨wasMapped, by omega⟩
  rw [afterHolds.mapped_iff, regionsEq] at stillMapped
  obtain ⟨part, isPart, partCovers⟩ := stillMapped
  obtain ⟨r, rMem, partOf⟩ := mem_flatMap.mp isPart
  have rCovers := ((part_of_cutParts sorted partOf).2 stop partCovers).1
  have ok : RegionsOk st.map.base st.map.limit ((regionsAt st ns).map id) := by
    rw [map_id]
    exact h.regions
  have eq : r = st.region node := ok.eq_of_covers rMem (mem_map_of_mem mem) rCovers covers
  rw [eq] at partOf
  exact not_covers_failed_split hole sorted partOf partCovers

end

/-- A difference of sets, unless the range is a hole and there is no memory for the part
behind it. -/
theorem vmMapRemove_removes_iff (h : VmHolds st ns)
    (fresh : FreshOutcomes st ns) (startAligned : start % pageSize = 0)
    (stopAligned : stop % pageSize = 0) (ho : start < stop) :
    RemovesRange st start stop ↔ (∀ n ∈ vmEntries st, ¬ Hole start stop (st.region n)) ∨
        allocSucceeds st = true := by
  have cut := vmMapRemove_spec h fresh startAligned stopAligned ho
  constructor
  · intro removes
    cases succeeds : allocSucceeds st with
    | true => exact .inr rfl
    | false => exact .inl (h.complete_of_removes ho cut removes succeeds)
  intro complete
  apply h.removes_of_complete ho cut
  intro r member hole
  rcases complete with noHole | succeeds
  · obtain ⟨n, nodeMem, rfl⟩ := mem_map.mp member
    rw [h.entries_eq] at noHole
    exact absurd hole (noHole n nodeMem)
  · exact succeeds

def threePages (outcomes : List (Option Nat)) : VmState :=
  { runVm (vmMapInit bareMemory 1 0x1000 0x10000 0) [⟨.insert 0x1000 0x4000 3 1 0, [some 10]⟩] with
    outcomes := outcomes }

lemma threePages_holds (outcomes : List (Option Nat)) : VmHolds (threePages outcomes) [10] := by
  have fresh : RunAllocatesFresh (vmMapInit bareMemory 1 0x1000 0x10000 0)
    [⟨.insert 0x1000 0x4000 3 1 0, [some 10]⟩] := by
    refine ⟨?_, trivial⟩
    intro n mem
    simp only [mem_singleton, Option.some.injEq] at mem
    subst mem
    decide +kernel
  obtain ⟨ns, h, _⟩ :=
    (vmMapInit_holds bareMemory 1 0x1000 0 (by norm_num : 0x10000 < 2 ^ 64)).run fresh
  have entries : vmEntries (runVm (vmMapInit bareMemory 1 0x1000 0x10000 0)
    [⟨.insert 0x1000 0x4000 3 1 0, [some 10]⟩]) = [10] := by
    decide +kernel
  rw [h.entries_eq] at entries
  subst entries
  exact h.congr rfl h.ring rfl

/-- The middle page can be removed when there is memory for the page behind it. -/
theorem threePages_removes_iff :
    RemovesRange (threePages [some 20]) 0x2000 0x3000 ↔ (∀ n ∈ vmEntries (threePages [some 20]),
        ¬ Hole 0x2000 0x3000 ((threePages [some 20]).region n)) ∨
        allocSucceeds (threePages [some 20]) = true := by
  apply vmMapRemove_removes_iff (threePages_holds [some 20])
  · intro n member
    simp only [threePages, mem_singleton, Option.some.injEq] at member
    subst member
    decide +kernel
  · decide
  · decide
  · decide

/-- Without memory, removing the middle page returns one page but loses two. -/
theorem threePages_not_removes : (vmMapRemove (threePages [none]) 0x2000 0x3000).1 = 0x1000 ∧
    VmMapped (threePages [none]) 0x3000 ∧
    ¬ VmMapped (vmMapRemove (threePages [none]) 0x2000 0x3000).2 0x3000 ∧
    ¬ RemovesRange (threePages [none]) 0x2000 0x3000 := by
  have returned : (vmMapRemove (threePages [none]) 0x2000 0x3000).1 = 0x1000 := by decide +kernel
  have pre : VmMapped (threePages [none]) 0x3000 := by decide +kernel
  have post : ¬ VmMapped (vmMapRemove (threePages [none]) 0x2000 0x3000).2 0x3000 := by
    decide +kernel
  refine ⟨returned, pre, post, ?_⟩
  intro removes
  exact post ((removes.mapped 0x3000).mpr ⟨pre, by norm_num⟩)

end Difference

end HnxKernel
