import Hnx.LinkedLists

/-!
# Sorting a list

A node is put into the ring of a local head, behind the nodes that are not greater.
-/

namespace HnxKernel

open LinkedRing List Function

variable {Node : Type} (cmp : Node → Node → Int)

def Same (a b : Node) : Prop := cmp a b ≤ 0 ∧ cmp b a ≤ 0

instance (a : Node) : DecidablePred (Same cmp a) := fun _ => inferInstanceAs (Decidable (_ ∧ _))

structure StablySorts (nodes out : List Node) : Prop where
  perm : out.Perm nodes
  ascending : out.Pairwise (cmp · · ≤ 0)
  stable : ∀ a, out.filter (Same cmp a) = nodes.filter (Same cmp a)

/-- A total preorder, which does not depend on the links. -/
structure Preorders : Prop where
  total : ∀ a b, cmp a b ≤ 0 ∨ cmp b a ≤ 0
  trans : ∀ a b c, cmp a b ≤ 0 → cmp b c ≤ 0 → cmp a c ≤ 0

lemma StablySorts.insert {cmp} {n : Node} {nodes front back : List Node} (pre : Preorders cmp)
    (sorts : StablySorts cmp nodes (front ++ back))
    (before : ∀ b ∈ front, cmp b n ≤ 0) (stops : ∀ b ∈ back.head?, ¬ cmp b n ≤ 0) :
    StablySorts cmp (nodes ++ [n]) (front ++ n :: back) := by
  obtain ⟨frontSorted, backSorted, between⟩ := pairwise_append.mp sorts.ascending
  have behind : ∀ b ∈ back, ¬ cmp b n ≤ 0 := by
    cases back with
    | nil => simp
    | cons c back =>
      intro b mem le
      rcases mem_cons.mp mem with rfl | later
      · exact stops b rfl le
      · exact stops c rfl (pre.trans c b n ((pairwise_cons.mp backSorted).1 b later) le)
  refine ⟨?_, ?_, fun a => ?_⟩
  · exact perm_middle.trans ((sorts.perm.cons n).trans (perm_append_singleton n nodes).symm)
  · refine pairwise_append.mpr ⟨frontSorted, pairwise_cons.mpr ⟨fun b mem => ?_, backSorted⟩, ?_⟩
    · exact (pre.total b n).resolve_left (behind b mem)
    intro b inFront c mem
    rcases mem_cons.mp mem with rfl | inBack
    · exact before b inFront
    · exact between b inFront c inBack
  have stable := sorts.stable a
  by_cases same : Same cmp a n
  · have none : back.filter (Same cmp a) = [] := by
      simp only [filter_eq_nil_iff, decide_eq_true_eq]
      exact fun b mem eq => behind b mem (pre.trans b a n eq.2 same.1)
    simp_all
  · simp_all

variable [DecidableEq Node]

/-- The inner loop of `list_sort`. -/
def findPlace (links : Links Node) (sorted node : Node) : Nat → Node → Option Node
  | 0, _ => none
  | fuel + 1, pos =>
    if pos ≠ sorted ∧ cmp pos node ≤ 0 then findPlace links sorted node fuel (links.next pos)
    else some pos

/-- Both loops are bounded. -/
def sortLoop (head sorted : Node) (bound : Nat) : Nat → Node → Links Node → Option (Links Node)
  | 0, _, _ => none
  | fuel + 1, node, links =>
    if node = head then some links
    else (findPlace cmp links sorted node bound (links.next sorted)).bind fun pos =>
      sortLoop head sorted bound fuel (links.next node) (links.add node (links.prev pos) pos)

def listSpliceInit (links : Links Node) (src dst : Node) : Links Node :=
  if links.next src = src then links
  else
    let first := links.next src
    let last := links.prev src
    let links := { links with prev := update links.prev first dst }
    let links := { links with next := update links.next last (links.next dst) }
    let links := { links with prev := update links.prev (links.next dst) last }
    let links := { links with next := update links.next dst first }
    links.init src

/-- `sorted` is the local head. -/
def listSort (head sorted : Node) (fuel : Nat) (links : Links Node) : Option (Links Node) :=
  if links.next head = head ∨ links.next (links.next head) = head then some links
  else
    let links := links.init sorted
    let node := links.next head
    (sortLoop cmp head sorted fuel fuel node (links.init head)).map (listSpliceInit · sorted head)

variable {cmp} {links : Links Node} {head sorted n : Node} {nodes front back acc rest : List Node}

lemma findPlace_spec (ring : Ring links sorted (front ++ back)) (before : ∀ b ∈ front, cmp b n ≤ 0)
    {bound : Nat} (enough : back.length < bound) : ∃ front' back', front ++ back = front' ++ back' ∧
      findPlace cmp links sorted n bound (following sorted back) = some (following sorted back') ∧
      (∀ b ∈ front', cmp b n ≤ 0) ∧ ∀ b ∈ back'.head?, ¬ cmp b n ≤ 0 := by
  induction back generalizing front bound with
  | nil =>
    obtain ⟨k, rfl⟩ := Nat.exists_eq_succ_of_ne_zero (by omega : bound ≠ 0)
    exact ⟨front, [], rfl, by simp [findPlace, following], before, by simp⟩
  | cons b back ih =>
    rw [length_cons] at enough
    obtain ⟨k, rfl⟩ := Nat.exists_eq_succ_of_ne_zero (by omega : bound ≠ 0)
    have apart : b ≠ sorted := by
      rintro rfl
      exact ring.apart.2.1.2 mem_cons_self
    rw [following_cons, findPlace]
    by_cases le : cmp b n ≤ 0
    · rw [if_pos ⟨apart, le⟩, ring.next_eq, append_cons]
      rw [append_cons] at ring
      refine ih ring (fun c mem => ?_) (by omega)
      rcases mem_append.mp mem with old | new
      · exact before c old
      · rwa [mem_singleton.mp new]
    · rw [if_neg fun both => le both.2]
      exact ⟨front, b :: back, rfl, rfl, before, by simpa using le⟩

lemma sortLoop_spec (pre : Preorders cmp) (ring : Ring links sorted acc)
    (sorts : StablySorts cmp nodes acc)
    (chain : ∀ l n r, rest = l ++ n :: r → links.next n = following head r)
    (distinct : rest.Nodup) (apart : ∀ n ∈ rest, n ∉ sorted :: acc ∧ n ≠ head)
    (outside : head ∉ sorted :: acc) (self : links.next head = head ∧ links.prev head = head)
    {bound fuel : Nat} (inner : acc.length + rest.length < bound) (outer : rest.length < fuel) :
    ∃ after out, sortLoop cmp head sorted bound fuel (following head rest) links = some after ∧
      Ring after sorted out ∧ StablySorts cmp (nodes ++ rest) out ∧ head ∉ sorted :: out ∧
      after.next head = head ∧ after.prev head = head := by
  induction rest generalizing links acc nodes fuel with
  | nil =>
    obtain ⟨k, rfl⟩ := Nat.exists_eq_succ_of_ne_zero (by omega : fuel ≠ 0)
    exact ⟨links, acc, if_pos rfl, ring, by rwa [append_nil], outside, self⟩
  | cons n rest ih =>
    rw [length_cons] at inner outer
    obtain ⟨k, rfl⟩ := Nat.exists_eq_succ_of_ne_zero (by omega : fuel ≠ 0)
    obtain ⟨fresh, notHead⟩ := apart n mem_cons_self
    obtain ⟨notLater, distinct⟩ := nodup_cons.mp distinct
    obtain ⟨front, back, rfl, place, before, stops⟩ :=
      findPlace_spec ring (by simp : ∀ b ∈ [], cmp b n ≤ 0) (by omega : acc.length < bound)
    have later : ∀ m ∈ rest, m ∉ n :: sorted :: (front ++ back) := by
      intro m mem here
      rcases mem_cons.mp here with rfl | old
      · exact notLater mem
      · exact (apart m (mem_cons_of_mem n mem)).1 old
    have moved (m : Node) (out : m ∉ n :: sorted :: (front ++ back)) :
        m ∉ sorted :: (front ++ n :: back) := by
      simp_all
    have added := ring.add fresh
    have step : sortLoop cmp head sorted bound (k + 1) (following head (n :: rest)) links =
        sortLoop cmp head sorted bound k (following head rest)
          (links.add n (links.prev (following sorted back)) (following sorted back)) := by
      rw [following_cons, sortLoop, if_neg notHead, ring.first_eq]
      rw [place]
      rw [Option.bind_some, chain [] n rest rfl]
    rw [step, append_cons]
    have headOut : head ∉ n :: sorted :: (front ++ back) := by
      simp_all [notHead.symm]
    refine ih added (sorts.insert pre before stops) (fun l m r eq => ?_) distinct
      (fun m mem => ⟨moved m (later m mem), (apart m (mem_cons_of_mem n mem)).2⟩)
      (moved head headOut) ?_ ?_ (by omega)
    · rw [(ring.add_outside (later m (by simp [eq]))).1]
      exact chain (n :: l) m r (by rw [eq, cons_append])
    · rw [(ring.add_outside headOut).1, (ring.add_outside headOut).2]
      exact self
    · simp only [length_append, length_cons] at inner ⊢
      omega

lemma ring_listSpliceInit (ring : Ring links sorted acc) (ne : acc ≠ [])
    (outside : head ∉ sorted :: acc)
    (self : links.next head = head ∧ links.prev head = head) :
    Ring (listSpliceInit links sorted head) head acc := by
  obtain ⟨notSorted, notMem⟩ := not_or.mp (mem_cons.not.mp outside)
  obtain ⟨sortedOut, distinct⟩ := nodup_cons.mp ring.distinct
  cases acc with
  | nil => contradiction
  | cons a acc =>
    obtain ⟨first, _, path⟩ := ring.path
    have last := path.prev_mem
    have joined := path.join distinct (fun mem => notMem (mem_cons_of_mem a mem))
    have lastOut : links.prev sorted ≠ head := by
      rintro eq
      exact notMem (eq ▸ last)
    have differ : a ≠ sorted := by
      rintro rfl
      exact sortedOut mem_cons_self
    have other : a ≠ head := by
      rintro rfl
      exact notMem mem_cons_self
    -- `dst->next` is the head itself all the time, for `last` is another node.
    have stays : update links.next (links.prev sorted) (links.next head) head = head := by
      rw [update_of_ne lastOut.symm, self.1]
    rw [listSpliceInit, first, if_neg differ]
    refine ⟨⟨?_, ?_, joined.congr (fun m mem => ?_) fun m mem => ?_⟩,
      nodup_cons.mpr ⟨notMem, distinct⟩⟩
    · simp [Links.init, notSorted]
    · simp [Links.init, differ, stays, other]
    · have : m ≠ head ∧ m ≠ sorted := by
        constructor <;> rintro rfl <;> contradiction
      simp [Links.init, Links.join, this, self.1]
    · rcases mem_append.mp mem with inside | isHead
      · have : m ≠ head ∧ m ≠ sorted ∧ m ≠ a := by
          refine ⟨?_, ?_, ?_⟩ <;> rintro rfl <;> simp_all
        simp [Links.init, Links.join, this, stays]
      · rw [mem_singleton.mp isHead]
        simp [Links.init, Links.join, notSorted, stays]

lemma listSort_spec (pre : Preorders cmp) (ring : Ring links head nodes)
    (fresh : sorted ∉ head :: nodes) {fuel : Nat} (enough : nodes.length < fuel) :
    ∃ after out, listSort cmp head sorted fuel links = some after ∧ Ring after head out ∧
      StablySorts cmp nodes out := by
  obtain ⟨headOut, distinct⟩ := nodup_cons.mp ring.distinct
  rcases nodes with _ | ⟨a, _ | ⟨b, rest⟩⟩
  · exact ⟨links, [], if_pos (.inl ring.first_eq), ring, ⟨.refl [], .nil, fun _ => rfl⟩⟩
  · have back : links.next (links.next head) = head := by
      rw [ring.path.1]
      exact ring.path.2.2.1
    exact ⟨links, [a], if_pos (.inr back), ring, ⟨.refl _, pairwise_singleton _ a, fun _ => rfl⟩⟩
  obtain ⟨first, _, second, _⟩ := ring.path
  have long : ¬ (links.next head = head ∨ links.next (links.next head) = head) := by
    rw [first, second]
    rintro (rfl | rfl) <;> simp at headOut
  have differ : head ≠ sorted := by
    rintro rfl
    exact fresh mem_cons_self
  have others : ∀ n ∈ a :: b :: rest, n ≠ sorted ∧ n ≠ head := by
    intro n mem
    constructor <;> rintro rfl <;> simp_all
  have chain (l : List Node) (n : Node) (r : List Node) (eq : a :: b :: rest = l ++ n :: r) :
      ((links.init sorted).init head).next n = following head r := by
    obtain ⟨notSorted, notHead⟩ := others n (by simp [eq])
    rw [eq] at ring
    rw [← ring.next_eq]
    simp [Links.init, notSorted, notHead]
  obtain ⟨after, out, run, ringOut, sorts, outside, self⟩ :=
    sortLoop_spec pre ((ring_init links sorted).init_of_notMem (by simpa using differ))
      ⟨.refl [], .nil, fun _ => rfl⟩ chain distinct (fun n mem => by simpa using others n mem)
      (by simpa using differ) (by simp [Links.init]) (by simpa using enough) enough
  have ne : out ≠ [] := by
    rintro rfl
    simpa using sorts.perm.length_eq
  refine ⟨_, out, ?_, ring_listSpliceInit ringOut ne outside self, sorts⟩
  rw [listSort, if_neg long]
  have start : (links.init sorted).next head = a := by
    simp [Links.init, differ, first]
  simp only [start]
  rw [show a = following head (a :: b :: rest) from rfl, run, Option.map_some]

/-- No link to the local head remains. -/
theorem listSort_sorts (pre : Preorders cmp) (ring : Ring links head nodes)
    (fresh : sorted ∉ head :: nodes) {fuel : Nat} (enough : nodes.length < fuel) :
    ∃ after out, listSort cmp head sorted fuel links = some after ∧ Ring after head out ∧
      StablySorts cmp nodes out ∧
      ∀ n ∈ head :: out, after.next n ≠ sorted ∧ after.prev n ≠ sorted := by
  obtain ⟨after, out, returns, ring, sorts⟩ := listSort_spec pre ring fresh enough
  have apart : sorted ∉ head :: out := fun mem => fresh ((sorts.perm.cons head).mem_iff.mp mem)
  refine ⟨after, out, returns, ring, sorts, fun n mem => ?_⟩
  obtain ⟨next, prev⟩ := ring.closed mem
  constructor <;> rintro rfl <;> contradiction

/-- The head 0 with the nodes 2 and 1. -/
def twoNodes : Links Nat where
  next n := if n = 0 then 2 else if n = 2 then 1 else 0
  prev n := if n = 0 then 1 else if n = 1 then 2 else 0

theorem listSort_sorts_two : ∃ after out,
    listSort (fun a b : Nat => (a - b : Int)) 0 9 3 twoNodes = some after ∧ Ring after 0 out ∧
    StablySorts (fun a b : Nat => (a - b : Int)) [2, 1] out ∧
    ∀ n ∈ 0 :: out, after.next n ≠ 9 ∧ after.prev n ≠ 9 := by
  have ring : Ring twoNodes 0 [2, 1] := ⟨⟨rfl, rfl, rfl, rfl, rfl, rfl⟩, by decide⟩
  exact listSort_sorts ⟨by omega, by omega⟩ ring (by decide) (by decide)

end HnxKernel
