import Mathlib.Data.List.Nodup

/-!
# Linked lists

A ring runs from a head node through its nodes and back, in both directions.  A segment follows
the pointers to its end.
-/

namespace LinkedRing

variable {Node : Type}

structure Links (Node : Type) where
  next : Node → Node
  prev : Node → Node

namespace Links

variable [DecidableEq Node]

def init (links : Links Node) (node : Node) : Links Node where
  next := Function.update links.next node node
  prev := Function.update links.prev node node

def add (links : Links Node) (node pre post : Node) : Links Node where
  next := Function.update (Function.update links.next node post) pre node
  prev := Function.update (Function.update links.prev post node) node pre

def join (links : Links Node) (pre post : Node) : Links Node where
  next := Function.update links.next pre post
  prev := Function.update links.prev post pre

def delInit (links : Links Node) (node : Node) : Links Node :=
  (links.join (links.prev node) (links.next node)).init node

def walk (links : Links Node) (head : Node) : Nat → Node → List Node
  | 0, _ => []
  | fuel + 1, n => if n = head then [] else n :: walk links head fuel (links.next n)

end Links

def Path (links : Links Node) : Node → List Node → Node → Prop
  | fst, [], last => links.next fst = last ∧ links.prev last = fst
  | fst, n :: ns, last => links.next fst = n ∧ links.prev n = fst ∧ Path links n ns last

structure Ring (links : Links Node) (head : Node) (nodes : List Node) : Prop where
  path : Path links head nodes head
  distinct : (head :: nodes).Nodup

section Paths

variable {links o : Links Node} {fst last n : Node} {ns pre post : List Node}

lemma path_append :
    Path links fst (pre ++ n :: post) last ↔ Path links fst pre n ∧ Path links n post last := by
  induction pre generalizing fst with
  | nil => exact and_assoc.symm
  | cons _ _ ih =>
    rw [List.cons_append, Path, Path, ih]
    tauto

lemma Path.prev_mem (path : Path links fst ns last) : links.prev last ∈ fst :: ns := by
  induction ns generalizing fst with
  | nil =>
    rw [path.2]
    exact List.mem_singleton_self fst
  | cons _ _ ih => exact List.mem_cons_of_mem fst (ih path.2.2)

lemma Path.congr (path : Path links fst ns last) (nextEq : ∀ n ∈ fst :: ns, o.next n = links.next n)
    (prevEq : ∀ n ∈ ns ++ [last], o.prev n = links.prev n) : Path o fst ns last := by
  induction ns generalizing fst with
  | nil => exact ⟨(nextEq fst (by simp)).trans path.1, (prevEq last (by simp)).trans path.2⟩
  | cons n _ ih =>
    refine ⟨(nextEq fst (by simp)).trans path.1, (prevEq n (by simp)).trans path.2.1, ?_⟩
    apply ih path.2.2
    · intro hl mem
      exact nextEq hl (List.mem_cons_of_mem fst mem)
    intro hl mem
    exact prevEq hl (by simp only [List.cons_append, List.mem_cons, mem, or_true])

variable [DecidableEq Node]

lemma Path.add (path : Path links fst pre last) (nodup : (fst :: pre).Nodup)
    (lastApart : last ∉ pre) (hf : n ∉ fst :: pre) (freshLast : n ≠ last) :
    Path (links.add n (links.prev last) last) fst (pre ++ [n]) last := by
  induction pre generalizing fst with
  | nil =>
    obtain ⟨nextEq, prevEq⟩ := path
    have notFirst : n ≠ fst := fun eq => hf (by simp [eq])
    rw [List.nil_append, prevEq]
    refine ⟨?_, ?_, ?_, ?_⟩
    · simp [Links.add]
    · simp [Links.add]
    · simp [Links.add, notFirst]
    · simp [Links.add, freshLast.symm]
  | cons o _ ih =>
    obtain ⟨nextEq, prevEq, r⟩ := path
    obtain ⟨apart1, restNodup⟩ := List.nodup_cons.mp nodup
    have prevMem := r.prev_mem
    have ne1 : fst ≠ links.prev last := fun eq => apart1 (eq ▸ prevMem)
    have node1 : fst ≠ n := fun eq => hf (by simp [eq])
    have otherNode : o ≠ n := fun eq => hf (by simp [eq])
    have otherLast : o ≠ last := fun eq => lastApart (by simp [eq])
    refine ⟨?_, ?_, ih r restNodup (fun mem => lastApart (by simp [mem]))
      (fun mem => hf (List.mem_cons_of_mem fst mem))⟩
    · simp [Links.add, ne1, node1, nextEq]
    · simp [Links.add, otherNode, otherLast, prevEq]

lemma Path.join (path : Path links fst pre n) (nodup : (fst :: pre).Nodup)
    (lastApart : last ∉ pre) : Path (links.join (links.prev n) last) fst pre last := by
  induction pre generalizing fst with
  | nil =>
    obtain ⟨_, prevEq⟩ := path
    rw [prevEq]
    exact ⟨by simp [Links.join], by simp [Links.join]⟩
  | cons o _ ih =>
    obtain ⟨nextEq, prevEq, r⟩ := path
    obtain ⟨apart1, restNodup⟩ := List.nodup_cons.mp nodup
    have ne1 : fst ≠ links.prev n := fun eq => apart1 (eq ▸ r.prev_mem)
    have otherLast : o ≠ last := fun eq => lastApart (by simp [eq])
    refine ⟨?_, ?_, ih r restNodup (fun mem => lastApart (by simp [mem]))⟩
    · simp [Links.join, ne1, nextEq]
    · simp [Links.join, otherLast, prevEq]

lemma Path.walk_eq (path : Path links fst ns last) (notLast : last ∉ ns) {k : Nat}
    (enough : ns.length < k) : links.walk last k (links.next fst) = ns := by
  induction ns generalizing fst k with
  | nil =>
    obtain ⟨k, rfl⟩ := Nat.exists_eq_succ_of_ne_zero (by omega : k ≠ 0)
    rw [path.1, Links.walk, if_pos rfl]
  | cons n ns ih =>
    obtain ⟨k, rfl⟩ := Nat.exists_eq_succ_of_ne_zero (by omega : k ≠ 0)
    obtain ⟨nextEq, _, r⟩ := path
    have nodeApart : n ≠ last := fun eq => notLast (by simp [eq])
    have restApart : last ∉ ns := fun mem => notLast (by simp [mem])
    rw [List.length_cons] at enough
    rw [nextEq, Links.walk, if_neg nodeApart, ih r restApart (by omega)]

end Paths

section Rings

variable {links : Links Node} {head n : Node} {ns pre post : List Node}

def following (head : Node) (post : List Node) : Node := post.head?.getD head

lemma following_cons (head n : Node) (post : List Node) : following head (n :: post) = n :=
  rfl

lemma Ring.first_eq (ring : Ring links head ns) : links.next head = following head ns := by
  have path := ring.path
  cases ns with
  | nil => exact path.1
  | cons => exact path.1

lemma Ring.next_eq (ring : Ring links head (pre ++ n :: post)) :
    links.next n = following head post := by
  have rest := (path_append.mp ring.path).2
  cases post with
  | nil => exact rest.1
  | cons => exact rest.1

lemma following_mem (head : Node) (post : List Node) : following head post ∈ head :: post := by
  cases post <;> simp [following]

lemma Ring.prev_following (ring : Ring links head (pre ++ post)) :
    links.prev (following head post) ∈ head :: pre := by
  cases post with
  | nil => exact (List.append_nil pre ▸ ring.path).prev_mem
  | cons => exact (path_append.mp ring.path).1.prev_mem

lemma Ring.closed (ring : Ring links head ns) (mem : n ∈ head :: ns) :
    links.next n ∈ head :: ns ∧ links.prev n ∈ head :: ns := by
  rcases List.mem_cons.mp mem with rfl | inside
  · exact ⟨ring.first_eq ▸ following_mem n ns, ring.path.prev_mem⟩
  obtain ⟨pre, post, rfl⟩ := List.append_of_mem inside
  rw [ring.next_eq]
  have next := following_mem head post
  have prev := (path_append.mp ring.path).1.prev_mem
  constructor <;> simp_all <;> tauto

lemma Ring.apart (ring : Ring links head (pre ++ post)) :
    (head :: pre).Nodup ∧ (post.Nodup ∧ head ∉ post) ∧ ∀ n ∈ head :: pre, n ∉ post := by
  have nodup := ring.distinct
  rw [← List.cons_append, List.nodup_append'] at nodup
  obtain ⟨preNodup, afterNodup, hd⟩ := nodup
  exact ⟨preNodup, ⟨afterNodup, hd (by simp)⟩, fun n mem => hd mem⟩

variable [DecidableEq Node]

lemma ring_init (links : Links Node) (head : Node) : Ring (links.init head) head [] := by
  refine ⟨⟨?_, ?_⟩, by simp⟩
  · simp [Links.init]
  · simp [Links.init]

lemma Ring.walk_eq (ring : Ring links head ns) {k : Nat} (enough : ns.length < k) :
    links.walk head k (links.next head) = ns :=
  ring.path.walk_eq (List.nodup_cons.mp ring.distinct).1 enough

lemma Ring.init_of_notMem (ring : Ring links head ns) (out : n ∉ head :: ns) :
    Ring (links.init n) head ns := by
  have ne (o : Node) (mem : o ∈ head :: ns) : o ≠ n := by
    rintro rfl
    exact out mem
  refine ⟨ring.path.congr ?_ ?_, ring.distinct⟩
  · intro o mem
    simp [Links.init, ne o mem]
  intro o mem
  have mem : o ∈ head :: ns := by simpa [or_comm] using mem
  simp [Links.init, ne o mem]

lemma Ring.add (ring : Ring links head (pre ++ post)) (hf : n ∉ head :: (pre ++ post)) :
    Ring (links.add n (links.prev (following head post)) (following head post)) head
      (pre ++ n :: post) := by
  obtain ⟨preNodup, ⟨afterNodup, headApart⟩, hd⟩ := ring.apart
  have freshBefore : n ∉ head :: pre := fun mem => hf (by
    rw [← List.cons_append]
    exact List.mem_append_left post mem)
  have freshAfter : n ∉ post := fun mem => hf (by simp [mem])
  have headFresh : n ≠ head := fun eq => hf (by simp [eq])
  constructor
  · cases post with
    | nil =>
      have path := ring.path
      rw [List.append_nil] at path
      exact path.add preNodup (List.nodup_cons.mp preNodup).1 freshBefore headFresh
    | cons next =>
      obtain ⟨front, r⟩ := path_append.mp ring.path
      have nextPre : next ∉ head :: pre := fun mem => hd next mem (by simp)
      have nextFresh : n ≠ next := fun eq => freshAfter (by simp [eq])
      have added := front.add preNodup
        (fun mem => nextPre (List.mem_cons_of_mem head mem)) freshBefore nextFresh
      rw [following_cons, List.append_cons]
      refine path_append.mpr ⟨added, r.congr ?_ ?_⟩
      · intro hl mem
        have laterNode : hl ≠ n := fun eq => freshAfter (eq ▸ mem)
        have laterPrev : hl ≠ links.prev next := fun eq => hd hl (eq ▸ front.prev_mem) mem
        simp [Links.add, laterNode, laterPrev]
      intro hl mem
      have laterNode : hl ≠ n := by
        rintro rfl
        rcases List.mem_append.mp mem with inAfter | isHead
        · exact freshAfter (by simp [inAfter])
        · exact headFresh (List.mem_singleton.mp isHead)
      have laterNext : hl ≠ next := by
        rintro rfl
        rcases List.mem_append.mp mem with inAfter | isHead
        · exact (List.nodup_cons.mp afterNodup).1 inAfter
        · exact headApart (by simp [List.mem_singleton.mp isHead])
      simp [Links.add, laterNode, laterNext]
  have moved : (head :: (pre ++ n :: post)).Perm (n :: head :: (pre ++ post)) :=
    (List.Perm.cons head List.perm_middle).trans (List.Perm.swap n head _)
  exact moved.nodup_iff.mpr (List.nodup_cons.mpr ⟨hf, ring.distinct⟩)

lemma Ring.add_outside (ring : Ring links head (pre ++ post)) {m : Node}
    (out : m ∉ n :: head :: (pre ++ post)) :
    (links.add n (links.prev (following head post)) (following head post)).next m = links.next m ∧
    (links.add n (links.prev (following head post)) (following head post)).prev m = links.prev
      m := by
  have touched := ring.prev_following
  have place := following_mem head post
  have : m ≠ n ∧ m ≠ links.prev (following head post) ∧ m ≠ following head post := by
    refine ⟨?_, ?_, ?_⟩ <;> rintro rfl <;> simp_all
  simp [Links.add, this]

lemma Ring.delInit (ring : Ring links head (pre ++ n :: post)) :
    Ring (links.delInit n) head (pre ++ post) := by
  obtain ⟨preNodup, ⟨afterNodup, headApart⟩, hd⟩ := ring.apart
  obtain ⟨nodeApart, restNodup⟩ := List.nodup_cons.mp afterNodup
  obtain ⟨front, r⟩ := path_append.mp ring.path
  have nodeBefore : n ∉ head :: pre := fun mem => hd n mem (by simp)
  have nodeHead : n ≠ head := fun eq => headApart (by simp [eq])
  have untouched (path : List Node) (fst last : Node) (notHere : n ∉ fst :: path)
    (notLast : n ≠ last)
    (joined : Path (links.join (links.prev n) (links.next n)) fst path last) :
    Path (links.delInit n) fst path last := by
    refine joined.congr ?_ ?_
    · intro o mem
      have ne : o ≠ n := fun eq => notHere (eq ▸ mem)
      simp [Links.delInit, Links.init, ne]
    intro o mem
    have ne : o ≠ n := by
      rintro rfl
      rcases List.mem_append.mp mem with inPath | isLast
      · exact notHere (List.mem_cons_of_mem fst inPath)
      · exact notLast (List.mem_singleton.mp isLast)
    simp [Links.delInit, Links.init, ne]
  constructor
  · cases post with
    | nil =>
      rw [List.append_nil]
      apply untouched pre head head nodeBefore nodeHead
      rw [r.1]
      exact front.join preNodup (List.nodup_cons.mp preNodup).1
    | cons next post =>
      obtain ⟨nextEq, _, tail⟩ := r
      have nextNode : n ≠ next := fun eq => nodeApart (by simp [eq])
      have nextPre : next ∉ head :: pre := fun mem => hd next mem (by simp)
      have tailApart : n ∉ next :: post := nodeApart
      refine path_append.mpr ⟨?_, ?_⟩
      · apply untouched pre head next nodeBefore nextNode
        rw [nextEq]
        exact front.join preNodup (fun mem => nextPre (List.mem_cons_of_mem head mem))
      apply untouched post next head tailApart nodeHead
      rw [nextEq]
      refine tail.congr ?_ ?_
      · intro hl mem
        have laterPrev : hl ≠ links.prev n := fun eq =>
          hd hl (eq ▸ front.prev_mem) (List.mem_cons_of_mem n mem)
        simp [Links.join, laterPrev]
      intro hl mem
      have laterNext : hl ≠ next := by
        rintro rfl
        rcases List.mem_append.mp mem with inAfter | isHead
        · exact (List.nodup_cons.mp restNodup).1 inAfter
        · exact headApart (by simp [List.mem_singleton.mp isHead])
      simp [Links.join, laterNext]
  have moved : (head :: (pre ++ n :: post)).Perm (n :: head :: (pre ++ post)) :=
    (List.Perm.cons head List.perm_middle).trans (List.Perm.swap n head _)
  exact (List.nodup_cons.mp (moved.nodup_iff.mp ring.distinct)).2

end Rings

end LinkedRing

namespace HnxKernel

open Function List

section LinkedQueue

variable {Node : Type}

def Segment (next : Node → Option Node) (last : Option Node) : Option Node → List Node → Prop
  | head, [] => head = last
  | head, n :: ns => head = some n ∧ Segment next last (next n) ns

def Linked (next : Node → Option Node) (head : Option Node) (nodes : List Node) : Prop :=
  Segment next none head nodes

variable {next : Node → Option Node} {head last : Option Node} {ns pre after : List Node}
  {n : Node}

lemma segment_append : Segment next last head (pre ++ after) ↔
    ∃ mid, Segment next mid head pre ∧ Segment next last mid after := by
  induction pre generalizing head with
  | nil => simp [Segment]
  | cons _ _ ih => simp [Segment, ih, and_assoc]

lemma Linked.head_eq (h : Linked next head ns) : head = ns.head? := by
  cases ns with
  | nil => exact h
  | cons => exact h.1

lemma Segment.congr {other : Node → Option Node} (seg : Segment next last head ns)
    (eq : ∀ n ∈ ns, other n = next n) : Segment other last head ns := by
  induction ns generalizing head with
  | nil => exact seg
  | cons n _ ih =>
    obtain ⟨headEq, rest⟩ := seg
    refine ⟨headEq, ?_⟩
    rw [eq n mem_cons_self]
    exact ih rest fun each mem => eq each (mem_cons_of_mem n mem)

lemma Linked.unique {o : List Node} (h : Linked next head ns)
    (other : Linked next head o) : ns = o := by
  induction ns generalizing head o with
  | nil =>
    cases o with
    | nil => rfl
    | cons => exact absurd (h.symm.trans other.1) (by simp)
  | cons _ _ ih =>
    cases o with
    | nil => exact absurd (other.symm.trans h.1) (by simp)
    | cons =>
      cases h.1.symm.trans other.1
      rw [ih h.2 other.2]

variable [DecidableEq Node]

lemma Segment.update (seg : Segment next last head ns) (out : n ∉ ns)
    (ptr : Option Node) : Segment (update next n ptr) last head ns :=
  seg.congr fun _ mem => update_of_ne (ne_of_mem_of_not_mem mem out) ptr next

def redirect (next : Node → Option Node) (head : Option Node) (place ptr : Option Node) :
    (Node → Option Node) × Option Node :=
  match place with
  | none => (next, ptr)
  | some n => (update next n ptr, head)

def pointerAt (next : Node → Option Node) (head place : Option Node) : Option Node :=
  match place with
  | none => head
  | some n => next n

omit [DecidableEq Node] in
lemma pointerAt_getLast (seg : Segment next last head pre) :
    pointerAt next head pre.getLast? = last := by
  rcases eq_nil_or_concat pre with rfl | ⟨fst, n, rfl⟩
  · exact seg
  rw [concat_eq_append] at seg ⊢
  obtain ⟨mid, -, hr⟩ := segment_append.mp seg
  rw [List.getLast?_concat]
  exact hr.2

lemma Segment.redirect (seg : Segment next last head pre) (nodup : pre.Nodup) (ptr : Option Node) :
    Segment (redirect next head pre.getLast? ptr).1 ptr
      (redirect next head pre.getLast? ptr).2 pre := by
  rcases eq_nil_or_concat pre with rfl | ⟨first, n, rfl⟩
  · rfl
  rw [concat_eq_append] at seg nodup ⊢
  obtain ⟨mid, leading, hr⟩ := segment_append.mp seg
  have out : n ∉ first := by
    intro mem
    exact (nodup_append.mp nodup).2.2 n mem n (mem_singleton_self n) rfl
  rw [List.getLast?_concat]
  refine segment_append.mpr ⟨mid, leading.update out ptr, hr.1, ?_⟩
  exact update_self n ptr next

lemma Segment.redirect_of_disjoint {anchor place : Option Node}
    (seg : Segment next last head ns) (out : ∀ n, place = some n → n ∉ ns)
    (ptr : Option Node) : Segment (HnxKernel.redirect next anchor place ptr).1 last head ns := by
  cases place with
  | none => exact seg
  | some n => exact seg.update (out n rfl) ptr

lemma Linked.append (h : Linked next head ns) (nodup : ns.Nodup)
    (out : n ∉ ns) (ends : next n = none) :
    Linked (HnxKernel.redirect next head ns.getLast? (some n)).1
      (HnxKernel.redirect next head ns.getLast? (some n)).2 (ns ++ [n]) := by
  refine segment_append.mpr ⟨some n, Segment.redirect h nodup (some n), rfl, ?_⟩
  cases lastEq : ns.getLast? with
  | none => exact ends
  | some final =>
    have inside := mem_of_getLast? lastEq
    change update next final (some n) n = none
    rw [update_of_ne (ne_of_mem_of_not_mem inside out).symm, ends]

lemma Linked.unlink (h : Linked next head (pre ++ n :: after)) (nodup : (pre ++ n :: after).Nodup) :
    Linked (HnxKernel.redirect next head pre.getLast? (next n)).1
      (HnxKernel.redirect next head pre.getLast? (next n)).2 (pre ++ after) := by
  obtain ⟨mid, leading, -, rest⟩ := segment_append.mp h
  obtain ⟨fst, -, apart⟩ := nodup_append.mp nodup
  refine segment_append.mpr ⟨next n, leading.redirect fst (next n), ?_⟩
  refine Segment.redirect_of_disjoint rest (fun final lastEq mem => ?_) (next n)
  exact apart final (mem_of_getLast? lastEq) final (mem_cons_of_mem n mem) rfl

end LinkedQueue

end HnxKernel
