import Hnx.PhysicalMemory
import Hnx.LinkedLists
import Mathlib.Data.Set.Card

/-!
# Virtual memory regions

The regions of a map are objects on a circular list whose head lies in the map.
-/

namespace HnxKernel

section

open LinkedRing

def vmProtWrite : Nat := 2

def vmFlagCow : Nat := 8

/-- `struct vm_region` without its list node; `stop` is the field `end`, and
`name` is a pointer. -/
structure VmRegion where
  start : Nat
  stop : Nat
  prot : Nat
  flags : Nat
  name : Nat
  faultCount : Nat
deriving DecidableEq, Repr

/-- `regions` is the address of its list head. -/
structure VmMap where
  regions : Nat
  base : Nat
  limit : Nat
  regionCount : Nat
  totalMapped : Nat
  name : Nat
  minorFaults : Nat
  majorFaults : Nat
  cowFaults : Nat
  protectionFaults : Nat

/-- `outcomes` are the results of the calls of `region_alloc` to come. -/
structure VmState where
  map : VmMap
  links : Links Nat
  region : Nat → VmRegion
  outcomes : List (Option Nat)

def walkLimit : Nat := 2 ^ 64

def vmEntries (st : VmState) : List Nat :=
  st.links.walk st.map.regions walkLimit (st.links.next st.map.regions)

def setRegion (st : VmState) (node : Nat) (region : VmRegion) : VmState :=
  { st with region := Function.update st.region node region }

def regionAlloc (st : VmState) : Option Nat × VmState :=
  (st.outcomes.head?.join, { st with outcomes := st.outcomes.tail })

def vmMapInit (st : VmState) (regions base limit name : Nat) : VmState where
  map :=
    { regions := regions
      base := base
      limit := limit
      regionCount := 0
      totalMapped := 0
      name := name
      minorFaults := 0
      majorFaults := 0
      cowFaults := 0
      protectionFaults := 0 }
  links := st.links.init regions
  region := st.region
  outcomes := st.outcomes

def vmMapOverlaps (st : VmState) (start stop : Nat) : Bool :=
  (vmEntries st).any fun node => start < (st.region node).stop && (st.region node).start < stop

def alignedRange (start stop : Nat) : Bool :=
  start % pageSize = 0 && stop % pageSize = 0 && start < stop

def insertPosition (st : VmState) (start : Nat) : Nat :=
  ((vmEntries st).find? fun node => (st.region node).start > start).getD st.map.regions

def relink (st : VmState) (links : Links Nat) (regionCount totalMapped : Nat) : VmState :=
  { st with
    links := links
    map := { st.map with regionCount := regionCount, totalMapped := totalMapped } }

def linkRegion (st : VmState) (node : Nat) (region : VmRegion) : VmState :=
  let filled := setRegion { st with links := st.links.init node } node region
  let pos := insertPosition filled region.start
  relink filled (filled.links.add node (filled.links.prev pos) pos)
    (u64 (filled.map.regionCount + 1))
    (u64 (filled.map.totalMapped + (region.stop - region.start)))

def vmMapInsert (st : VmState) (start stop prot flags name : Nat) : Int × VmState :=
  if !alignedRange start stop then
    (-1, st)
  else if start < st.map.base ∨ stop > st.map.limit then
    (-1, st)
  else if vmMapOverlaps st start stop then
    (-1, st)
  else
    match regionAlloc st with
    | (none, next) => (-1, next)
    | (some node, next) => (0, linkRegion next node ⟨start, stop, prot, flags, name, 0⟩)

def findRegion (region : Nat → VmRegion) (addr : Nat) : List Nat → Option Nat
  | [] => none
  | node :: nodes =>
    if addr ≥ (region node).start ∧ addr < (region node).stop then
      some node
    else if (region node).start > addr then
      none
    else
      findRegion region addr nodes

def vmMapFind (st : VmState) (addr : Nat) : Option Nat := findRegion st.region addr (vmEntries st)

def setMapped (st : VmState) (totalMapped : Nat) : VmState :=
  { st with map := { st.map with totalMapped := totalMapped } }

def dropRegion (st : VmState) (node : Nat) : VmState :=
  relink st (st.links.delInit node) (sub64 st.map.regionCount 1)
    (sub64 st.map.totalMapped ((st.region node).stop - (st.region node).start))

def punchHole (st : VmState) (start stop node : Nat) : VmState :=
  let r := st.region node
  let shrunk := setMapped (setRegion st node { r with stop := start })
    (u64 (sub64 st.map.totalMapped (r.stop - r.start) + (start - r.start)))
  (vmMapInsert shrunk stop r.stop r.prot r.flags r.name).2

def cutRegion (st : VmState) (start stop node : Nat) : VmState :=
  let r := st.region node
  if start ≤ r.start ∧ stop ≥ r.stop then
    dropRegion st node
  else if start > r.start ∧ stop < r.stop then
    punchHole st start stop node
  else if start ≤ r.start then
    setMapped (setRegion st node { r with start := stop })
      (sub64 st.map.totalMapped (stop - r.start))
  else
    setMapped (setRegion st node { r with stop := start })
      (sub64 st.map.totalMapped (r.stop - start))

/-- The loop of `vm_map_remove`; the successor of a node is read before its
region is cut. -/
def removeLoop (start stop : Nat) : Nat → Nat → Nat → VmState → Nat × VmState
  | 0, _, removed, st => (removed, st)
  | fuel + 1, node, removed, st =>
    if node = st.map.regions then
      (removed, st)
    else
      let tmp := st.links.next node
      let r := st.region node
      if stop ≤ r.start ∨ start ≥ r.stop then
        removeLoop start stop fuel tmp removed st
      else
        removeLoop start stop fuel tmp (u64 (removed + (min r.stop stop - max r.start start)))
          (cutRegion st start stop node)

def vmMapRemove (st : VmState) (start stop : Nat) : Nat × VmState :=
  if !alignedRange start stop then
    (0, st)
  else
    removeLoop start stop walkLimit (st.links.next st.map.regions) 0 st

def updateOverlapping (change : VmRegion → VmRegion) (start stop : Nat) (st : VmState) :
    VmState :=
  (vmEntries st).foldl (fun cur node =>
    if stop ≤ (cur.region node).start ∨ start ≥ (cur.region node).stop then cur
    else setRegion cur node (change (cur.region node))) st

def touchedRegions (st : VmState) (start stop : Nat) : Nat :=
  (vmEntries st).countP fun node =>
    !decide (stop ≤ (st.region node).start ∨ start ≥ (st.region node).stop)

def vmMapProtect (st : VmState) (start stop prot : Nat) : Int × VmState :=
  if !alignedRange start stop then
    (-1, st)
  else
    (if touchedRegions st start stop ≠ 0 then 0 else -1,
      updateOverlapping (fun r => { r with prot := prot }) start stop st)

def vmMapMarkCow (st : VmState) (start stop : Nat) : Nat × VmState :=
  (touchedRegions st start stop, updateOverlapping (fun r =>
      if r.prot &&& vmProtWrite ≠ 0 then { r with flags := r.flags ||| vmFlagCow } else r)
      start stop st)

def countFault (map : VmMap) (r : VmRegion) (write present : Bool) : VmMap :=
  if write ∧ r.flags &&& vmFlagCow ≠ 0 then
    { map with cowFaults := u64 (map.cowFaults + 1) }
  else if write ∧ r.prot &&& vmProtWrite = 0 then
    { map with protectionFaults := u64 (map.protectionFaults + 1) }
  else if present then
    { map with minorFaults := u64 (map.minorFaults + 1) }
  else
    { map with majorFaults := u64 (map.majorFaults + 1) }

def vmMapAccountFault (st : VmState) (addr : Nat) (write present : Bool) :
    Option Nat × VmState :=
  match vmMapFind st addr with
  | none => (none, { st with map := { st.map with majorFaults := u64 (st.map.majorFaults + 1) } })
  | some node =>
    let r := st.region node
    let counted := setRegion st node { r with faultCount := u64 (r.faultCount + 1) }
    (some node, { counted with map := countFault counted.map r write present })

end

open List

namespace VmRegion

def size (r : VmRegion) : Nat := r.stop - r.start

def Covers (r : VmRegion) (addr : Nat) : Prop := r.start ≤ addr ∧ addr < r.stop

/-- A non-empty page-aligned region inside the bounds of a map. -/
structure Inside (base limit : Nat) (r : VmRegion) : Prop where
  startAligned : r.start % pageSize = 0
  stopAligned : r.stop % pageSize = 0
  notEmpty : r.start < r.stop
  above : base ≤ r.start
  below : r.stop ≤ limit

end VmRegion

structure RegionsOk (base limit : Nat) (rs : List VmRegion) : Prop where
  inside : ∀ r ∈ rs, r.Inside base limit
  ordered : rs.Pairwise fun r s => r.stop ≤ s.start

def mappedBytes (rs : List VmRegion) : Nat := (rs.map VmRegion.size).sum

def mappedSet (rs : List VmRegion) : Set Nat := {addr | ∃ r ∈ rs, r.Covers addr}

variable {base limit : Nat} {r s : VmRegion} {rs pre post parts : List VmRegion}

lemma regionsOk_nil (base limit : Nat) : RegionsOk base limit [] := ⟨by simp, List.Pairwise.nil⟩

lemma regionsOk_append :
    RegionsOk base limit (pre ++ post) ↔ RegionsOk base limit pre ∧ RegionsOk base limit post ∧
        ∀ r ∈ pre, ∀ s ∈ post, r.stop ≤ s.start := by
  constructor
  · rintro ⟨hi, sorted⟩
    obtain ⟨preSorted, afterSorted, hd⟩ := pairwise_append.mp sorted
    exact ⟨⟨fun r mem => hi r (by simp [mem]), preSorted⟩,
      ⟨fun r mem => hi r (by simp [mem]), afterSorted⟩, hd⟩
  rintro ⟨⟨preInside, preSorted⟩, ⟨afterInside, afterSorted⟩, hd⟩
  refine ⟨?_, pairwise_append.mpr ⟨preSorted, afterSorted, hd⟩⟩
  intro r mem
  rcases mem_append.mp mem with inPre | inAfter
  · exact preInside r inPre
  · exact afterInside r inAfter

lemma regionsOk_cons : RegionsOk base limit (r :: rs) ↔
    r.Inside base limit ∧ RegionsOk base limit rs ∧ ∀ s ∈ rs, r.stop ≤ s.start := by
  rw [← singleton_append, regionsOk_append]
  constructor
  · rintro ⟨⟨hi, _⟩, rest, hd⟩
    exact ⟨hi r (by simp), rest, hd r (by simp)⟩
  rintro ⟨hi, rest, hd⟩
  refine ⟨⟨?_, pairwise_singleton _ r⟩, rest, ?_⟩
  · intro o mem
    rwa [mem_singleton.mp mem]
  intro o mem
  rwa [mem_singleton.mp mem]

lemma RegionsOk.replace (ok : RegionsOk base limit (pre ++ r :: post))
    (partsOk : RegionsOk base limit parts)
    (within : ∀ part ∈ parts, r.start ≤ part.start ∧ part.stop ≤ r.stop) :
    RegionsOk base limit (pre ++ (parts ++ post)) := by
  obtain ⟨preOk, restOk, hd⟩ := regionsOk_append.mp ok
  obtain ⟨hi, afterOk, hl⟩ := regionsOk_cons.mp restOk
  refine regionsOk_append.mpr ⟨preOk, regionsOk_append.mpr ⟨partsOk, afterOk, ?_⟩, ?_⟩
  · intro part isPart s mem
    exact (within part isPart).2.trans (hl s mem)
  intro s mem o isOther
  rcases mem_append.mp isOther with isPart | isAfter
  · exact (hd s mem r (by simp)).trans (within o isPart).1
  · exact hd s mem o (by simp [isAfter])

section
variable (ok : RegionsOk base limit rs)
include ok

lemma RegionsOk.mappedBytes_le : mappedBytes rs + base ≤ limit ∨ rs = [] := by
  induction rs generalizing base with
  | nil => exact .inr rfl
  | cons r rs ih =>
    obtain ⟨hi, rest, hl⟩ := regionsOk_cons.mp ok
    have restOk : RegionsOk r.stop limit rs := by
      refine ⟨?_, rest.ordered⟩
      intro s mem
      have sInside := rest.inside s mem
      exact ⟨sInside.startAligned, sInside.stopAligned, sInside.notEmpty, hl s mem, sInside.below⟩
    have bytesEq : mappedBytes (r :: rs) = (r.stop - r.start) + mappedBytes rs := by
      simp [mappedBytes, VmRegion.size]
    have notEmpty := hi.notEmpty
    have above := hi.above
    have below := hi.below
    left
    rcases ih restOk with hf | rfl
    · omega
    have nothing : mappedBytes [] = 0 := rfl
    omega

lemma RegionsOk.mappedBytes_le_limit : mappedBytes rs ≤ limit := by
  rcases ok.mappedBytes_le with hf | rfl
  · omega
  · exact Nat.zero_le limit

lemma RegionsOk.length_le : rs.length ≤ mappedBytes rs := by
  induction rs with
  | nil => exact Nat.zero_le _
  | cons _ _ ih =>
    obtain ⟨mem, restOk, _⟩ := regionsOk_cons.mp ok
    have notEmpty := mem.notEmpty
    have restLe := ih restOk
    simp only [mappedBytes, map_cons, sum_cons, length_cons, VmRegion.size]
      at restLe ⊢
    omega

end

lemma RegionsOk.eq_of_covers {Object : Type} {region : Object → VmRegion} {objects : List Object}
    (ok : RegionsOk base limit (objects.map region)) {a : Nat} {left right : Object}
    (leftMem : left ∈ objects) (rightMem : right ∈ objects) (leftCovers : (region left).Covers a)
    (rightCovers : (region right).Covers a) : left = right := by
  induction objects with
  | nil => simp at leftMem
  | cons _ _ ih =>
    obtain ⟨_, restOk, hl⟩ := regionsOk_cons.mp ok
    obtain ⟨leftLow, leftHigh⟩ := leftCovers
    obtain ⟨rightLow, rightHigh⟩ := rightCovers
    rcases mem_cons.mp leftMem with rfl | leftRest <;>
      rcases mem_cons.mp rightMem with rfl | rightRest
    · rfl
    · have := hl (region right) (mem_map_of_mem rightRest)
      omega
    · have := hl (region left) (mem_map_of_mem leftRest)
      omega
    · exact ih restOk leftRest rightRest

lemma mappedSet_cons (r : VmRegion) (rs : List VmRegion) :
    mappedSet (r :: rs) = Set.Ico r.start r.stop ∪ mappedSet rs := by
  ext a
  simp [mappedSet, VmRegion.Covers]

lemma RegionsOk.ncard_mappedSet (ok : RegionsOk base limit rs) :
    (mappedSet rs).ncard = mappedBytes rs ∧ (mappedSet rs).Finite := by
  induction rs with
  | nil =>
    have nothing : mappedSet [] = ∅ := by
      ext a
      simp [mappedSet]
    rw [nothing]
    exact ⟨Set.ncard_empty Nat, Set.finite_empty⟩
  | cons r rs ih =>
    obtain ⟨_, restOk, hl⟩ := regionsOk_cons.mp ok
    obtain ⟨hc, finite⟩ := ih restOk
    have hd : Disjoint (Set.Ico r.start r.stop) (mappedSet rs) := by
      rw [Set.disjoint_left]
      rintro a ⟨_, high⟩ ⟨s, mem, low, _⟩
      have := hl s mem
      omega
    have len : (Set.Ico r.start r.stop).ncard = r.size := by
      rw [← Finset.coe_Ico, Set.ncard_coe_finset, Nat.card_Ico]
      rfl
    rw [mappedSet_cons]
    refine ⟨?_, (Set.finite_Ico _ _).union finite⟩
    rw [Set.ncard_union_eq hd (Set.finite_Ico _ _) finite, len, hc]
    simp [mappedBytes]

end HnxKernel
