import Hnx.VmRegions
import Mathlib.Data.List.TakeWhile

/-!
# Calls on a map of regions

A map holds a list of nodes when its links form a ring of these nodes, their regions are in order
and the counters agree with them.
-/

namespace HnxKernel

open Function List
open LinkedRing

def regionsAt (st : VmState) (nodes : List Nat) : List VmRegion := nodes.map st.region

structure VmHolds (st : VmState) (nodes : List Nat) : Prop where
  ring : Ring st.links st.map.regions nodes
  regions : RegionsOk st.map.base st.map.limit (regionsAt st nodes)
  count : st.map.regionCount = nodes.length
  total : st.map.totalMapped = mappedBytes (regionsAt st nodes)
  bounded : st.map.limit < 2 ^ 64

structure SameFrame (st next : VmState) : Prop where
  regions : next.map.regions = st.map.regions
  base : next.map.base = st.map.base
  limit : next.map.limit = st.map.limit

lemma SameFrame.trans {st mid next : VmState} (fst : SameFrame st mid)
    (snd : SameFrame mid next) : SameFrame st next :=
  ⟨snd.regions.trans fst.regions, snd.base.trans fst.base, snd.limit.trans fst.limit⟩

section
variable (st : VmState)
include st

lemma setRegion_frame (n : Nat) (rg : VmRegion) : SameFrame st (setRegion st n rg) :=
  ⟨rfl, rfl, rfl⟩

lemma setMapped_frame (total : Nat) : SameFrame st (setMapped st total) := ⟨rfl, rfl, rfl⟩

section
variable (links : Links Nat) (cnt total : Nat)
include links cnt total

lemma relink_frame : SameFrame st (relink st links cnt total) :=
  ⟨rfl, rfl, rfl⟩

lemma regionsAt_relink
    (ns : List Nat) : regionsAt (relink st links cnt total) ns = regionsAt st ns :=
  rfl

lemma relink_outcomes : (relink st links cnt total).outcomes = st.outcomes := rfl

end

lemma linkRegion_frame (n : Nat) (rg : VmRegion) : SameFrame st (linkRegion st n rg) := by
  rw [linkRegion]
  apply SameFrame.trans _ (relink_frame _ _ _ _)
  exact ⟨rfl, rfl, rfl⟩

end

variable {st : VmState} {ns pre post : List Nat} {n start stop base limit : Nat}

lemma VmHolds.total_lt (h : VmHolds st ns) : st.map.totalMapped < 2 ^ 64 := by
  rw [h.total]
  exact lt_of_le_of_lt h.regions.mappedBytes_le_limit h.bounded

lemma VmHolds.length_lt (h : VmHolds st ns) : ns.length < walkLimit := by
  have counted := h.regions.length_le
  have total := h.total_lt
  rw [h.total] at total
  rw [regionsAt, length_map] at counted
  exact lt_of_le_of_lt counted total

lemma VmHolds.entries_eq (h : VmHolds st ns) : vmEntries st = ns := h.ring.walk_eq h.length_lt

lemma vmMapInit_holds (st : VmState) (regions base name : Nat) {limit : Nat}
    (bounded : limit < 2 ^ 64) : VmHolds (vmMapInit st regions base limit name) [] where
  ring := ring_init st.links regions
  regions := regionsOk_nil base limit
  count := rfl
  total := rfl
  bounded := bounded

lemma vmMapOverlaps_iff (h : VmHolds st ns) (start stop : Nat) :
    vmMapOverlaps st start stop = true ↔ ∃ r ∈ regionsAt st ns, start < r.stop ∧
      r.start < stop := by
  rw [vmMapOverlaps, h.entries_eq, any_eq_true]
  simp [regionsAt]

lemma regionsAt_update_of_notMem {rg : VmRegion} (elsewhere : n ∉ ns) :
    ns.map (update st.region n rg) = regionsAt st ns := by
  apply map_congr_left
  intro o mem
  apply update_of_ne
  rintro rfl
  exact elsewhere mem

section Insert

variable {rg : VmRegion}

def lowerNodes (st : VmState) (start : Nat) (nodes : List Nat) : List Nat :=
  nodes.takeWhile fun n => !decide ((st.region n).start > start)

def upperNodes (st : VmState) (start : Nat) (nodes : List Nat) : List Nat :=
  nodes.dropWhile fun n => !decide ((st.region n).start > start)

lemma lower_append_upper (st : VmState) (start : Nat) (ns : List Nat) :
    lowerNodes st start ns ++ upperNodes st start ns = ns :=
  takeWhile_append_dropWhile

lemma upperNodes_start (start : Nat) (rs : RegionsOk base limit (regionsAt st ns)) :
    ∀ n ∈ upperNodes st start ns, start < (st.region n).start := by
  induction ns with
  | nil => simp [upperNodes]
  | cons fst _ ih =>
    obtain ⟨hi, restOk, hl⟩ := regionsOk_cons.mp rs
    intro n mem
    by_cases high : (st.region fst).start > start
    · rw [upperNodes, dropWhile_cons_of_neg (by simp [high])] at mem
      rcases mem_cons.mp mem with rfl | r
      · exact high
      have above := hl (st.region n) (mem_map_of_mem r)
      have notEmpty := hi.notEmpty
      omega
    rw [upperNodes, dropWhile_cons_of_pos (by simp [high])] at mem
    exact ih restOk n mem

lemma lowerNodes_start (st : VmState) (start : Nat) (ns : List Nat) :
    ∀ n ∈ lowerNodes st start ns, (st.region n).start ≤ start := by
  intro n mem
  have low := mem_takeWhile_imp mem
  simpa using low

lemma upperNodes_congr {o : VmState} (regionsEq : ∀ n ∈ ns, o.region n = st.region n) :
    upperNodes o start ns = upperNodes st start ns := by
  induction ns with
  | nil => rfl
  | cons fst _ ih =>
    have rest := ih fun n mem => regionsEq n (mem_cons_of_mem fst mem)
    rw [upperNodes, dropWhile_cons, regionsEq fst (by simp)]
    rw [upperNodes] at rest
    rw [rest, upperNodes, upperNodes, dropWhile_cons]

lemma insertPosition_eq (h : VmHolds st ns) (start : Nat) :
    insertPosition st start = following st.map.regions (upperNodes st start ns) := by
  rw [insertPosition, h.entries_eq, List.find?_eq_head?_dropWhile_not]
  rfl

lemma VmHolds.congr (h : VmHolds st ns) {o : VmState}
    (mapEq : o.map = st.map) (ring : Ring o.links st.map.regions ns)
    (regionsEq : regionsAt o ns = regionsAt st ns) : VmHolds o ns where
  ring := mapEq ▸ ring
  regions := by
    rw [mapEq, regionsEq]
    exact h.regions
  count := mapEq ▸ h.count
  total := by rw [mapEq, regionsEq, h.total]
  bounded := mapEq ▸ h.bounded

lemma VmHolds.filled (h : VmHolds st ns) (hf : n ∉ st.map.regions :: ns) (rg : VmRegion) :
    VmHolds (setRegion { st with links := st.links.init n } n rg) ns ∧
      regionsAt (setRegion { st with links := st.links.init n } n rg) ns = regionsAt st ns := by
  have elsewhere : n ∉ ns := fun mem => hf (mem_cons_of_mem _ mem)
  have regionsEq : regionsAt (setRegion { st with links := st.links.init n } n rg)
    ns = regionsAt st ns := regionsAt_update_of_notMem elsewhere
  exact ⟨h.congr rfl (h.ring.init_of_notMem hf) regionsEq, regionsEq⟩

lemma RegionsOk.insert {lower upper : List VmRegion} (ok : RegionsOk base limit (lower ++ upper))
    (hi : rg.Inside base limit)
    (hd : ∀ r ∈ lower ++ upper, ¬ (rg.start < r.stop ∧ r.start < rg.stop))
    (lowerStart : ∀ r ∈ lower, r.start ≤ rg.start)
    (upperStart : ∀ r ∈ upper, rg.start < r.start) :
      RegionsOk base limit (lower ++ rg :: upper) := by
  obtain ⟨lowerOk, upperOk, sorted⟩ := regionsOk_append.mp ok
  have notEmpty := hi.notEmpty
  refine regionsOk_append.mpr ⟨lowerOk, regionsOk_cons.mpr ⟨hi, upperOk, ?_⟩, ?_⟩
  · intro r mem
    have separate := hd r (by simp [mem])
    have above := upperStart r mem
    have rNotEmpty := (upperOk.inside r mem).notEmpty
    omega
  intro r mem o isOther
  rcases mem_cons.mp isOther with rfl | hl
  · have separate := hd r (by simp [mem])
    have below := lowerStart r mem
    omega
  · exact sorted r mem o hl

lemma mappedBytes_append (pre post : List VmRegion) :
    mappedBytes (pre ++ post) = mappedBytes pre + mappedBytes post := by
  simp [mappedBytes]

lemma mappedBytes_cons (r : VmRegion) (rs : List VmRegion) :
    mappedBytes (r :: rs) = r.size + mappedBytes rs := by
  simp [mappedBytes]

lemma regionsAt_append (st : VmState) (pre post : List Nat) :
    regionsAt st (pre ++ post) = regionsAt st pre ++ regionsAt st post :=
  map_append

lemma regionsAt_linkRegion (hf : n ∉ pre ++ post) (rg : VmRegion) :
    regionsAt (linkRegion st n rg) (pre ++ n :: post) =
      regionsAt st pre ++ rg :: regionsAt st post := by
  have beforeEq : pre.map (update st.region n rg) = regionsAt st pre :=
    regionsAt_update_of_notMem fun mem => hf (by simp [mem])
  have afterEq : post.map (update st.region n rg) = regionsAt st post :=
    regionsAt_update_of_notMem fun mem => hf (by simp [mem])
  change (pre ++ n :: post).map (update st.region n rg) = _
  rw [map_append, map_cons, beforeEq, afterEq, update_self]

lemma VmHolds.linkBetween (h : VmHolds st (pre ++ post))
    (hf : n ∉ st.map.regions :: (pre ++ post)) (pos : insertPosition
      (setRegion { st with links := st.links.init n } n rg) rg.start =
        following st.map.regions post) (ok : RegionsOk st.map.base st.map.limit
      (regionsAt st pre ++ rg :: regionsAt st post)) :
    VmHolds (linkRegion st n rg) (pre ++ n :: post) := by
  have elsewhere : n ∉ pre ++ post := fun mem => hf (mem_cons_of_mem _ mem)
  have regionsEq : regionsAt (linkRegion st n rg) (pre ++ n :: post) = _ :=
    regionsAt_linkRegion elsewhere rg
  have bs : mappedBytes (regionsAt st pre ++ rg :: regionsAt st post) =
    mappedBytes (regionsAt st (pre ++ post)) + rg.size := by
    rw [regionsAt_append, mappedBytes_append, mappedBytes_append, mappedBytes_cons]
    omega
  have fits := lt_of_le_of_lt ok.mappedBytes_le_limit h.bounded
  have counted := ok.length_le
  rw [length_append, length_cons, regionsAt, regionsAt, length_map, length_map] at counted
  have countEq : u64 (st.map.regionCount + 1) = (pre ++ n :: post).length := by
    simp only [regionsAt] at fits
    rw [h.count, length_append, length_append, length_cons, u64_of_lt]
    · omega
    · omega
  have totalEq : u64 (st.map.totalMapped + rg.size) =
    mappedBytes (regionsAt st pre ++ rg :: regionsAt st post) := by
    rw [bs, h.total, u64_of_lt]
    omega
  constructor
  · have added := (h.ring.init_of_notMem hf).add hf
    rw [← pos] at added
    exact added
  · rw [regionsEq]
    exact ok
  · exact countEq
  · rw [regionsEq]
    exact totalEq
  · exact h.bounded

lemma VmHolds.linkRegion (h : VmHolds st ns) (hf : n ∉ st.map.regions :: ns)
    (hi : rg.Inside st.map.base st.map.limit)
    (hd : ∀ r ∈ regionsAt st ns, ¬ (rg.start < r.stop ∧ r.start < rg.stop)) :
    VmHolds (linkRegion st n rg)
      (lowerNodes st rg.start ns ++ n :: upperNodes st rg.start ns) := by
  have split := lower_append_upper st rg.start ns
  have elsewhere : n ∉ ns := fun mem => hf (mem_cons_of_mem _ mem)
  have pos := insertPosition_eq (h.filled hf rg).1 rg.start
  rw [upperNodes_congr] at pos
  swap
  · intro o mem
    apply update_of_ne
    rintro rfl
    exact elsewhere mem
  apply VmHolds.linkBetween
  · rwa [split]
  · rwa [split]
  · exact pos
  apply RegionsOk.insert
  · rw [← regionsAt_append, split]
    exact h.regions
  · exact hi
  · rwa [← regionsAt_append, split]
  · intro r mem
    obtain ⟨o, otherMem, rfl⟩ := mem_map.mp mem
    exact lowerNodes_start st rg.start ns o otherMem
  intro r mem
  obtain ⟨o, otherMem, rfl⟩ := mem_map.mp mem
  exact upperNodes_start rg.start h.regions o otherMem

def FreshOutcomes (st : VmState) (nodes : List Nat) : Prop :=
  ∀ n, some n ∈ st.outcomes → n ∉ st.map.regions :: nodes

def popOutcome (st : VmState) : VmState := { st with outcomes := st.outcomes.tail }

lemma VmHolds.popOutcome (h : VmHolds st ns) : VmHolds (popOutcome st) ns := h.congr rfl h.ring rfl

lemma mem_outcomes_of_head (hf : st.outcomes.head?.join = some n) : some n ∈ st.outcomes := by
  cases outcomes : st.outcomes with
  | nil => simp [outcomes] at hf
  | cons =>
    rw [outcomes] at hf
    simp only [List.head?_cons, Option.join_some] at hf
    simp [hf]

lemma vmMapInsert_eq (h : VmHolds st ns) (hi : rg.Inside st.map.base st.map.limit)
    (hd : ∀ r ∈ regionsAt st ns, ¬ (rg.start < r.stop ∧ r.start < rg.stop)) :
    vmMapInsert st rg.start rg.stop rg.prot rg.flags rg.name =
      match st.outcomes.head?.join with
    | none => (-1, popOutcome st)
    | some n => (0, HnxKernel.linkRegion (popOutcome st) n
      { rg with faultCount := 0 }) := by
  have ha : alignedRange rg.start rg.stop = true := by
    simp [alignedRange, hi.startAligned, hi.stopAligned, hi.notEmpty]
  have bounds : ¬ (rg.start < st.map.base ∨ rg.stop > st.map.limit) := by
    have above := hi.above
    have below := hi.below
    omega
  have free : ¬ vmMapOverlaps st rg.start rg.stop = true := by
    rw [vmMapOverlaps_iff h]
    rintro ⟨r, mem, overlap⟩
    exact hd r mem overlap
  rw [vmMapInsert, ha, if_neg (by simp), if_neg bounds, if_neg free, regionAlloc]
  cases st.outcomes.head?.join with
  | none => rfl
  | some => rfl

lemma vmMapInsert_holds (h : VmHolds st ns) (fresh : FreshOutcomes st ns)
    (start stop prot fl name : Nat) :
    ∃ post, VmHolds (vmMapInsert st start stop prot fl name).2 post ∧
      SameFrame st (vmMapInsert st start stop prot fl name).2 := by
  by_cases ha : alignedRange start stop = true
  swap
  · rw [vmMapInsert, if_pos (by simpa using ha)]
    exact ⟨ns, h, rfl, rfl, rfl⟩
  by_cases bounds : start < st.map.base ∨ stop > st.map.limit
  · rw [vmMapInsert, if_neg (by simp [ha]), if_pos bounds]
    exact ⟨ns, h, rfl, rfl, rfl⟩
  by_cases overlaps : vmMapOverlaps st start stop = true
  · rw [vmMapInsert, if_neg (by simp [ha]), if_neg bounds, if_pos overlaps]
    exact ⟨ns, h, rfl, rfl, rfl⟩
  have hi : (VmRegion.mk start stop prot fl name 0).Inside st.map.base
    st.map.limit := by
    simp only [alignedRange, Bool.and_eq_true, decide_eq_true_eq] at ha
    obtain ⟨⟨startAligned, stopAligned⟩, notEmpty⟩ := ha
    exact ⟨startAligned, stopAligned, notEmpty, by dsimp only; omega, by dsimp only; omega⟩
  have hd : ∀ r ∈ regionsAt st ns, ¬ (start < r.stop ∧ r.start < stop) := by
    intro r mem overlap
    exact overlaps ((vmMapOverlaps_iff h start stop).mpr ⟨r, mem, overlap⟩)
  have inserted := vmMapInsert_eq h hi hd
  rw [inserted]
  cases hf : st.outcomes.head?.join with
  | none => exact ⟨ns, h.popOutcome, rfl, rfl, rfl⟩
  | some n =>
    have popped : SameFrame st (popOutcome st) := ⟨rfl, rfl, rfl⟩
    exact ⟨_, h.popOutcome.linkRegion (fresh n (mem_outcomes_of_head hf)) hi hd,
      popped.trans (linkRegion_frame (popOutcome st) n _)⟩

end Insert

end HnxKernel
