import Hnx.VmRegionCalls

/-!
# Removing a range from a map

The part behind a hole is inserted during the walk and not visited.
-/

namespace HnxKernel

open Function List VmRegion
open LinkedRing

variable {st : VmState} {nodes pre post : List Nat} {node start stop total : Nat}
  {rg : VmRegion}

lemma VmHolds.node_notMem (holds : VmHolds st (pre ++ node :: post)) :
    node ∉ pre ∧ node ∉ post := by
  obtain ⟨_, ⟨afterNodup, _⟩, apart⟩ := holds.ring.apart
  constructor
  · intro mem
    exact apart node (mem_cons_of_mem _ mem) (by simp)
  · exact (nodup_cons.mp afterNodup).1

lemma regionsAt_setRegion (holds : VmHolds st (pre ++ node :: post)) (rg : VmRegion) (total : Nat) :
    regionsAt (setMapped (setRegion st node rg) total) (pre ++ node :: post) =
      regionsAt st pre ++ rg :: regionsAt st post := by
  obtain ⟨notPre, notAfter⟩ := holds.node_notMem
  change (pre ++ node :: post).map (update st.region node rg) = _
  rw [map_append, map_cons, regionsAt_update_of_notMem notPre,
    regionsAt_update_of_notMem notAfter, update_self]

lemma regionsAt_split (st : VmState) (pre post : List Nat) (node : Nat) :
    regionsAt st (pre ++ node :: post) = regionsAt st pre ++ st.region node :: regionsAt st post :=
  map_append

lemma VmHolds.resize (holds : VmHolds st (pre ++ node :: post))
    (mem : rg.Inside st.map.base st.map.limit)
    (low : (st.region node).start ≤ rg.start) (high : rg.stop ≤ (st.region node).stop)
    (totalEq : total + (st.region node).size = st.map.totalMapped + rg.size) :
    VmHolds (setMapped (setRegion st node rg) total) (pre ++ node :: post) := by
  have regionsEq := regionsAt_setRegion holds rg total
  have old := holds.regions
  rw [regionsAt_split] at old
  have single : RegionsOk st.map.base st.map.limit [rg] :=
    regionsOk_cons.mpr ⟨mem, regionsOk_nil _ _, by simp⟩
  have ok := old.replace single (by simpa using ⟨low, high⟩)
  constructor
  · exact holds.ring
  · rw [regionsEq]
    exact ok
  · exact holds.count
  · have oldTotal := holds.total
    rw [regionsAt_split, mappedBytes_append, mappedBytes_cons] at oldTotal
    rw [regionsEq, mappedBytes_append, mappedBytes_cons]
    change total = _
    omega
  · exact holds.bounded

lemma VmHolds.dropRegion (holds : VmHolds st (pre ++ node :: post)) :
    VmHolds (dropRegion st node) (pre ++ post) := by
  have old := holds.regions
  have oldTotal := holds.total
  have totalLt := holds.total_lt
  rw [regionsAt_split] at old oldTotal
  have ok := old.replace (regionsOk_nil _ _) (by simp)
  rw [nil_append] at ok
  rw [mappedBytes_append, mappedBytes_cons] at oldTotal
  have countEq : sub64 st.map.regionCount 1 = (pre ++ post).length := by
    have len := holds.length_lt
    simp only [walkLimit, length_append, length_cons] at len
    rw [holds.count, length_append, length_cons, length_append, sub64_of_le]
    · omega
    · omega
    · omega
  have totalEq : sub64 st.map.totalMapped (st.region node).size =
    mappedBytes (regionsAt st (pre ++ post)) := by
    rw [regionsAt_append, mappedBytes_append, sub64_of_le]
    · omega
    · omega
    · omega
  rw [size] at totalEq
  rw [HnxKernel.dropRegion, countEq, totalEq]
  constructor
  · exact holds.ring.delInit
  · rw [← regionsAt_append] at ok
    exact ok
  · rfl
  · rfl
  · exact holds.bounded

def Hole (start stop : Nat) (r : VmRegion) : Prop := r.start < start ∧ stop < r.stop

def cutParts (start stop : Nat) (allocated : Bool) (r : VmRegion) : List VmRegion :=
  if stop ≤ r.start ∨ start ≥ r.stop then
    [r]
  else if start ≤ r.start ∧ stop ≥ r.stop then
    []
  else if start > r.start ∧ stop < r.stop then
    { r with stop := start } ::
      if allocated then [{ r with start := stop, faultCount := 0 }] else []
  else if start ≤ r.start then
    [{ r with start := stop }]
  else
    [{ r with stop := start }]

def allocSucceeds (st : VmState) : Bool := st.outcomes.head?.join.isSome

structure RegionCut (start stop : Nat) (st next : VmState) (pre parts post : List Nat)
    (node : Nat) : Prop where
  holds : VmHolds next (pre ++ (parts ++ post))
  partsEq : regionsAt next parts = cutParts start stop (allocSucceeds st) (st.region node)
  beforeEq : regionsAt next pre = regionsAt st pre
  afterEq : regionsAt next post = regionsAt st post
  frame : SameFrame st next
  others : ¬ Hole start stop (st.region node) →
    next.outcomes = st.outcomes ∧ ∀ part ∈ parts, part = node

section
variable (holds : VmHolds st (pre ++ node :: post))
include holds

lemma VmHolds.inside : (st.region node).Inside st.map.base st.map.limit :=
  holds.regions.inside _ (by simp [regionsAt])

lemma VmHolds.regionCut_resize (mem : rg.Inside st.map.base st.map.limit)
    (low : (st.region node).start ≤ rg.start) (high : rg.stop ≤ (st.region node).stop)
    (totalEq : total + (st.region node).size = st.map.totalMapped + rg.size)
    (partsEq : cutParts start stop (allocSucceeds st) (st.region node) = [rg]) :
    RegionCut start stop st (setMapped (setRegion st node rg) total) pre [node] post
      node := by
  obtain ⟨notPre, notAfter⟩ := holds.node_notMem
  constructor
  · exact holds.resize mem low high totalEq
  · rw [partsEq]
    change [update st.region node rg node] = [rg]
    rw [update_self]
  · exact regionsAt_update_of_notMem notPre
  · exact regionsAt_update_of_notMem notAfter
  · exact (setRegion_frame st node rg).trans (setMapped_frame _ total)
  intro _
  exact ⟨rfl, by simp⟩

lemma VmHolds.regionCut_drop
    (partsEq : cutParts start stop (allocSucceeds st) (st.region node) = []) :
    RegionCut start stop st (HnxKernel.dropRegion st node) pre [] post node := by
  have dropped := holds.dropRegion
  rw [HnxKernel.dropRegion] at dropped ⊢
  generalize sub64 st.map.regionCount 1 = cnt at dropped ⊢
  generalize sub64 st.map.totalMapped _ = total at dropped ⊢
  exact ⟨dropped, partsEq.symm, regionsAt_relink _ _ _ _ _, regionsAt_relink _ _ _ _ _,
    relink_frame _ _ _ _, fun _ => ⟨relink_outcomes _ _ _ _, by simp⟩⟩

end

section PunchHole

lemma upperNodes_append {lower upper : List Nat}
    (lowerStart : ∀ node ∈ lower, (st.region node).start ≤ start)
    (upperStart : ∀ node ∈ upper, start < (st.region node).start) :
    lowerNodes st start (lower ++ upper) = lower ∧
      upperNodes st start (lower ++ upper) = upper := by
  have upperEmpty : lowerNodes st start upper = [] := by
    cases upper with
    | nil => rfl
    | cons fst =>
      rw [lowerNodes, takeWhile_cons_of_neg]
      simpa using upperStart fst (by simp)
  have lowerEq : lowerNodes st start (lower ++ upper) = lower := by
    rw [lowerNodes, takeWhile_append_of_pos]
    · rw [lowerNodes] at upperEmpty
      rw [upperEmpty, append_nil]
    intro node mem
    simpa using lowerStart node mem
  refine ⟨lowerEq, ?_⟩
  have split := lower_append_upper st start (lower ++ upper)
  rw [lowerEq] at split
  exact append_cancel_left split

def shrinkLeft (st : VmState) (start node : Nat) : VmState :=
  setMapped (setRegion st node { st.region node with stop := start })
    (u64 (sub64 st.map.totalMapped ((st.region node).stop - (st.region node).start) +
      (start - (st.region node).start)))

lemma shrinkLeft_frame (st : VmState) (start node : Nat) :
    SameFrame st (shrinkLeft st start node) :=
  (setRegion_frame st node _).trans (setMapped_frame _ _)

lemma punchHole_eq (st : VmState) (start stop node : Nat) :
    punchHole st start stop node =
      (vmMapInsert (shrinkLeft st start node) stop (st.region node).stop
        (st.region node).prot (st.region node).flags (st.region node).name).2 :=
  rfl

variable (holds : VmHolds st (pre ++ node :: post))
  (hole : Hole start stop (st.region node)) (startAligned : start % pageSize = 0)
  (stopAligned : stop % pageSize = 0) (ho : start < stop)
include holds hole ho

lemma leftPart_inside (startAligned : start % pageSize = 0) :
    ({ st.region node with stop := start } : VmRegion).Inside st.map.base
      st.map.limit := by
  have inside := holds.inside
  obtain ⟨left, right⟩ := hole
  have below := inside.below
  exact ⟨inside.startAligned, startAligned, left, inside.above, by dsimp only; omega⟩

lemma rightPart_inside (stopAligned : stop % pageSize = 0) :
    ({ st.region node with start := stop, faultCount := 0 } : VmRegion).Inside
      st.map.base st.map.limit := by
  have inside := holds.inside
  obtain ⟨left, right⟩ := hole
  have above := inside.above
  exact ⟨stopAligned, inside.stopAligned, right, by dsimp only; omega, inside.below⟩

lemma shrinkLeft_holds (startAligned : start % pageSize = 0) :
    VmHolds (shrinkLeft st start node) (pre ++ node :: post) := by
  have inside := leftPart_inside holds hole ho startAligned
  have totalLt := holds.total_lt
  have total := holds.total
  rw [regionsAt_split, mappedBytes_append, mappedBytes_cons, size] at total
  obtain ⟨left, right⟩ := hole
  apply holds.resize inside (le_refl _)
  · dsimp only
    omega
  simp only [size]
  rw [sub64_of_le (by omega) totalLt, u64_of_lt (by omega)]
  omega

lemma rightPart_apart : ∀ r ∈ regionsAt (shrinkLeft st start node) (pre ++ node :: post),
    ¬ (stop < r.stop ∧ r.start < (st.region node).stop) := by
  have regions := holds.regions
  rw [regionsAt_split] at regions
  obtain ⟨_, restOk, earlier⟩ := regionsOk_append.mp regions
  obtain ⟨_, _, later⟩ := regionsOk_cons.mp restOk
  obtain ⟨left, right⟩ := hole
  intro r mem
  rw [shrinkLeft, regionsAt_setRegion holds] at mem
  rcases mem_append.mp mem with inPre | inRest
  · have := earlier r inPre (st.region node) (by simp)
    omega
  rcases mem_cons.mp inRest with rfl | inAfter
  · dsimp only
    omega
  have := later r inAfter
  omega

lemma nodes_around_rightPart :
    lowerNodes (shrinkLeft st start node) stop (pre ++ node :: post) = pre ++ [node] ∧
      upperNodes (shrinkLeft st start node) stop (pre ++ node :: post) = post := by
  obtain ⟨notPre, notAfter⟩ := holds.node_notMem
  have regions := holds.regions
  rw [regionsAt_split] at regions
  obtain ⟨preOk, restOk, earlier⟩ := regionsOk_append.mp regions
  obtain ⟨_, _, later⟩ := regionsOk_cons.mp restOk
  obtain ⟨left, right⟩ := hole
  have regionOf (other : Nat) (ne : other ≠ node) :
    (shrinkLeft st start node).region other = st.region other :=
    update_of_ne ne _ _
  have regionHere : (shrinkLeft st start node).region node =
    { st.region node with stop := start } := update_self _ _ _
  rw [append_cons]
  apply upperNodes_append
  · intro other mem
    rcases mem_append.mp mem with inPre | isNode
    · have ne : other ≠ node := fun same => notPre (same ▸ inPre)
      have inside := preOk.inside (st.region other) (mem_map_of_mem inPre)
      have notEmpty := inside.notEmpty
      have below := earlier (st.region other) (mem_map_of_mem inPre)
        (st.region node) (by simp)
      rw [regionOf other ne]
      omega
    rw [mem_singleton.mp isNode, regionHere]
    dsimp only
    omega
  intro other mem
  have ne : other ≠ node := fun same => notAfter (same ▸ mem)
  have above := later (st.region other) (mem_map_of_mem mem)
  rw [regionOf other ne]
  omega

lemma VmHolds.punchHole (startAligned : start % pageSize = 0) (stopAligned : stop % pageSize = 0)
    (fresh : FreshOutcomes st (pre ++ node :: post)) :
    ∃ parts, RegionCut start stop st (punchHole st start stop node) pre parts post
      node := by
  obtain ⟨notPre, notAfter⟩ := holds.node_notMem
  have shrunk := shrinkLeft_holds holds hole ho startAligned
  have inside := rightPart_inside holds hole ho stopAligned
  have apart := rightPart_apart holds hole ho
  obtain ⟨lowerEq, upperEq⟩ := nodes_around_rightPart holds hole ho
  have inserted := vmMapInsert_eq shrunk inside apart
  have partsEq (alloc : Bool) : cutParts start stop alloc (st.region node) =
    { st.region node with stop := start } ::
      if alloc then [{ st.region node with start := stop, faultCount := 0 }] else [] := by
    obtain ⟨left, right⟩ := hole
    rw [cutParts, if_neg (by omega), if_neg (by omega), if_pos (by omega)]
  have shrunkBefore : regionsAt (shrinkLeft st start node) pre = regionsAt st pre :=
    regionsAt_update_of_notMem notPre
  have shrunkAfter : regionsAt (shrinkLeft st start node) post = regionsAt st post :=
    regionsAt_update_of_notMem notAfter
  have shrunkHere : (shrinkLeft st start node).region node =
    { st.region node with stop := start } := update_self _ _ _
  have sameOutcomes : (shrinkLeft st start node).outcomes = st.outcomes := rfl
  have shrunkFrame : SameFrame st (HnxKernel.popOutcome (shrinkLeft st start node)) := by
    have frame := shrinkLeft_frame st start node
    exact { frame with }
  rw [punchHole_eq]
  rw [inserted, sameOutcomes]
  cases hf : st.outcomes.head?.join with
  | none =>
    refine ⟨[node], shrunk.popOutcome, ?_, shrunkBefore, shrunkAfter, shrunkFrame, ?_⟩
    · rw [partsEq, allocSucceeds, hf]
      exact congrArg (fun r => [r]) shrunkHere
    · exact fun notHole => absurd hole notHole
  | some new =>
    have newFresh := fresh new (mem_outcomes_of_head hf)
    have newElsewhere : new ∉ pre ++ node :: post := fun mem => newFresh (mem_cons_of_mem _ mem)
    have linked := shrunk.popOutcome.linkRegion newFresh inside apart
    rw [show lowerNodes (HnxKernel.popOutcome (shrinkLeft st start node)) stop
        (pre ++ node :: post) = pre ++ [node] from lowerEq,
      show upperNodes (HnxKernel.popOutcome (shrinkLeft st start node)) stop
        (pre ++ node :: post) = post from upperEq] at linked
    have unlinked (other : Nat) (ne : other ≠ new) :
      update (shrinkLeft st start node).region new
        { st.region node with start := stop, faultCount := 0 } other =
          (shrinkLeft st start node).region other :=
      update_of_ne ne _ _
    refine ⟨[node, new], ?_, ?_, ?_, ?_, shrunkFrame.trans (linkRegion_frame _ _ _),
      fun notHole => absurd hole notHole⟩
    · rw [append_assoc] at linked
      exact linked
    · rw [partsEq, allocSucceeds, hf]
      have ne : node ≠ new := fun same => newElsewhere (by simp [← same])
      change [update (shrinkLeft st start node).region new _ node,
        update (shrinkLeft st start node).region new _ new] = _
      rw [unlinked node ne, update_self, shrunkHere]
      rfl
    · exact (regionsAt_update_of_notMem fun mem => newElsewhere (by simp [mem])).trans shrunkBefore
    · exact (regionsAt_update_of_notMem fun mem => newElsewhere (by simp [mem])).trans shrunkAfter

end PunchHole

section Cut

lemma VmHolds.cutRegion (holds : VmHolds st (pre ++ node :: post))
    (startAligned : start % pageSize = 0) (stopAligned : stop % pageSize = 0) (ho : start < stop)
    (overlaps : ¬ (stop ≤ (st.region node).start ∨ start ≥ (st.region node).stop))
    (fresh : Hole start stop (st.region node) → FreshOutcomes st (pre ++ node :: post)) :
    ∃ parts, RegionCut start stop st (cutRegion st start stop node) pre parts post
      node := by
  have inside := holds.inside
  have notEmpty := inside.notEmpty
  have totalLt := holds.total_lt
  have total := holds.total
  rw [regionsAt_split, mappedBytes_append, mappedBytes_cons, size] at total
  rw [HnxKernel.cutRegion]
  split
  case isTrue whole =>
    refine ⟨[], holds.regionCut_drop ?_⟩
    rw [cutParts, if_neg overlaps, if_pos whole]
  split
  case isTrue hole => exact holds.punchHole hole ho startAligned stopAligned (fresh hole)
  rename_i notWhole notHole
  split
  case isTrue front =>
    refine ⟨[node], holds.regionCut_resize ?_ ?_ ?_ ?_ ?_⟩
    · exact ⟨stopAligned, inside.stopAligned, by dsimp only; omega,
        by have := inside.above; dsimp only; omega, inside.below⟩
    · dsimp only
      omega
    · exact le_refl _
    · simp only [size]
      rw [sub64_of_le (by omega) totalLt]
      omega
    · rw [cutParts, if_neg overlaps, if_neg notWhole, if_neg notHole, if_pos front]
  case isFalse tail =>
    refine ⟨[node], holds.regionCut_resize ?_ ?_ ?_ ?_ ?_⟩
    · exact ⟨inside.startAligned, startAligned, by dsimp only; omega, inside.above,
        by have := inside.below; dsimp only; omega⟩
    · exact le_refl _
    · dsimp only
      omega
    · simp only [size]
      rw [sub64_of_le (by omega) totalLt]
      omega
    · rw [cutParts, if_neg overlaps, if_neg notWhole, if_neg notHole, if_neg tail]

end Cut

section Loop

def overlapBytes (start stop : Nat) (r : VmRegion) : Nat := min r.stop stop - max r.start start

lemma overlapBytes_le_size (start stop : Nat) (r : VmRegion) :
    overlapBytes start stop r ≤ r.size := by
  simp only [overlapBytes, size]
  omega

variable {r : VmRegion} {next : VmState} {done rest parts : List Nat} {removed : Nat}

lemma cutParts_of_not_hole (noHole : ¬ Hole start stop r) (alloc : Bool) :
    cutParts start stop alloc r = cutParts start stop true r := by
  rw [Hole] at noHole
  rw [cutParts, cutParts, if_neg noHole, if_neg noHole]

lemma flatMap_cutParts_of_not_hole {rs : List VmRegion} (noHole : ∀ r ∈ rs, ¬ Hole start stop r)
    (fst snd : Bool) :
    rs.flatMap (cutParts start stop fst) = rs.flatMap (cutParts start stop snd) := by
  apply flatMap_congr
  intro r mem
  rw [cutParts_of_not_hole (noHole r mem) fst, cutParts_of_not_hole (noHole r mem) snd]

structure RestCut (start stop removed : Nat) (st : VmState) (done rest : List Nat)
    (res : Nat × VmState) : Prop where
  bytes : res.1 = removed + ((regionsAt st rest).map (overlapBytes start stop)).sum
  list : ∃ nodes, VmHolds res.2 nodes ∧ regionsAt res.2 nodes = regionsAt st done ++
      (regionsAt st rest).flatMap (cutParts start stop (allocSucceeds st))
  frame : SameFrame st res.2

lemma RestCut.cons {res : Nat × VmState} (cut : RegionCut start stop st next done parts rest node)
    (noMoreHoles : Hole start stop (st.region node) → ∀ r ∈ regionsAt st rest, ¬ Hole start stop r)
    (tail : RestCut start stop (removed + overlapBytes start stop (st.region node)) next
      (done ++ parts) rest res) : RestCut start stop removed st done (node :: rest) res := by
  obtain ⟨bs, ⟨nodes, holds, regionsEq⟩, f⟩ := tail
  refine ⟨?_, ?_, cut.frame.trans f⟩
  · rw [bs, cut.afterEq]
    rw [Nat.add_assoc]
    rfl
  refine ⟨nodes, holds, ?_⟩
  rw [regionsEq, regionsAt_append, cut.beforeEq, cut.partsEq, cut.afterEq, append_assoc]
  congr 2
  by_cases hole : Hole start stop (st.region node)
  · exact flatMap_cutParts_of_not_hole (noMoreHoles hole) _ _
  have sameOutcomes : allocSucceeds next = allocSucceeds st := by
    rw [allocSucceeds, (cut.others hole).1, allocSucceeds]
  rw [sameOutcomes]
  rfl

lemma VmHolds.regionCut_outside (holds : VmHolds st (pre ++ node :: post))
    (out : stop ≤ (st.region node).start ∨ start ≥ (st.region node).stop) :
      RegionCut start stop st st pre [node] post node where
  holds := holds
  partsEq := by
    rw [cutParts, if_pos out]
    rfl
  beforeEq := rfl
  afterEq := rfl
  frame := ⟨rfl, rfl, rfl⟩
  others := fun _ => ⟨rfl, by simp⟩

lemma overlapBytes_of_outside (out : stop ≤ r.start ∨ start ≥ r.stop) :
    overlapBytes start stop r = 0 := by
  rw [overlapBytes]
  omega

lemma VmHolds.noMoreHoles (holds : VmHolds st (pre ++ node :: post))
    (ho : start < stop) (hole : Hole start stop (st.region node)) :
    ∀ r ∈ regionsAt st post, ¬ Hole start stop r := by
  have regions := holds.regions
  rw [regionsAt_split] at regions
  obtain ⟨_, _, later⟩ := regionsOk_cons.mp (regionsOk_append.mp regions).2.1
  intro r mem o
  have above := later r mem
  obtain ⟨_, right⟩ := hole
  obtain ⟨left, _⟩ := o
  omega

lemma RegionCut.fresh (cut : RegionCut start stop st next done parts rest node)
    (fresh : (∃ r ∈ regionsAt st (node :: rest), Hole start stop r) →
      FreshOutcomes st (done ++ node :: rest)) (noMoreHoles : Hole start stop (st.region node) →
      ∀ r ∈ regionsAt st rest, ¬ Hole start stop r) :
    (∃ r ∈ regionsAt next rest, Hole start stop r) →
      FreshOutcomes next (done ++ parts ++ rest) := by
  rintro ⟨r, mem, hole⟩
  rw [cut.afterEq] at mem
  have notHere : ¬ Hole start stop (st.region node) := fun here => noMoreHoles here r mem hole
  obtain ⟨outcomesEq, partsEq⟩ := cut.others notHere
  have pre := fresh ⟨r, mem_cons_of_mem _ mem, hole⟩
  intro new isOutcome isMem
  rw [outcomesEq] at isOutcome
  apply pre new isOutcome
  rw [cut.frame.regions] at isMem
  rcases mem_cons.mp isMem with rfl | inNodes
  · simp
  rcases mem_append.mp inNodes with inFront | inRest
  · rcases mem_append.mp inFront with inDone | inParts
    · simp [inDone]
    · simp [partsEq new inParts]
  · simp [inRest]

lemma removeLoop_spec (startAligned : start % pageSize = 0) (stopAligned : stop % pageSize = 0)
    (ho : start < stop) {k : Nat}
    (holds : VmHolds st (done ++ rest)) (le : rest.length < k)
    (fresh : (∃ r ∈ regionsAt st rest, Hole start stop r) → FreshOutcomes st (done ++ rest))
    (fits : removed + mappedBytes (regionsAt st rest) < 2 ^ 64) :
    RestCut start stop removed st done rest
      (removeLoop start stop k (following st.map.regions rest) removed st) := by
  induction rest generalizing st done k removed with
  | nil =>
    obtain ⟨k, rfl⟩ := Nat.exists_eq_succ_of_ne_zero (by omega : k ≠ 0)
    have atHead : following st.map.regions [] = st.map.regions := rfl
    rw [removeLoop, if_pos atHead]
    refine ⟨rfl, ⟨done, ?_, ?_⟩, rfl, rfl, rfl⟩
    · rwa [append_nil] at holds
    · exact (append_nil _).symm
  | cons node rest ih =>
    obtain ⟨k, rfl⟩ := Nat.exists_eq_succ_of_ne_zero (by omega : k ≠ 0)
    have notHead : node ≠ st.map.regions := by
      obtain ⟨_, ⟨_, headApart⟩, _⟩ := holds.ring.apart
      rintro rfl
      exact headApart (by simp)
    have bs : mappedBytes (regionsAt st (node :: rest)) =
      (st.region node).size + mappedBytes (regionsAt st rest) := mappedBytes_cons _ _
    have overlap := overlapBytes_le_size start stop (st.region node)
    have noMoreHoles := fun hole => holds.noMoreHoles ho hole
    rw [length_cons] at le
    -- Whatever is left of the node, the walk goes on at the node that followed it.
    have continued (next : VmState) (parts : List Nat)
      (cut : RegionCut start stop st next done parts rest node) :
      RestCut start stop removed st done (node :: rest)
        (removeLoop start stop k (following st.map.regions rest)
          (removed + overlapBytes start stop (st.region node)) next) := by
      apply RestCut.cons cut noMoreHoles
      rw [← cut.frame.regions]
      apply ih
      · rw [append_assoc]
        exact cut.holds
      · omega
      · exact cut.fresh fresh noMoreHoles
      rw [cut.afterEq]
      omega
    rw [following_cons, removeLoop, if_neg notHead, holds.ring.next_eq]
    by_cases out : stop ≤ (st.region node).start ∨ start ≥ (st.region node).stop
    · have walked := continued st [node] (holds.regionCut_outside out)
      rw [overlapBytes_of_outside out, Nat.add_zero] at walked
      rwa [if_pos out]
    obtain ⟨parts, cut⟩ := holds.cutRegion startAligned stopAligned ho out
      (fun hole => fresh ⟨_, by simp [regionsAt], hole⟩)
    have walked := continued _ parts cut
    rw [overlapBytes] at walked overlap
    rwa [if_neg out, u64_of_lt (by omega)]

lemma alignedRange_iff (start stop : Nat) :
    alignedRange start stop = true ↔ start % pageSize = 0 ∧ stop % pageSize = 0 ∧ start < stop := by
  simp [alignedRange, and_assoc]

lemma vmMapRemove_spec (holds : VmHolds st nodes) (fresh : FreshOutcomes st nodes)
    (startAligned : start % pageSize = 0) (stopAligned : stop % pageSize = 0)
    (ho : start < stop) : RestCut start stop 0 st [] nodes (vmMapRemove st start stop) := by
  have aligned := (alignedRange_iff start stop).mpr ⟨startAligned, stopAligned, ho⟩
  rw [vmMapRemove, if_neg (by simp [aligned]), holds.ring.first_eq]
  apply removeLoop_spec startAligned stopAligned ho
  · exact holds
  · exact holds.length_lt
  · exact fun _ => fresh
  rw [Nat.zero_add, ← holds.total]
  exact holds.total_lt

end Loop

end HnxKernel
