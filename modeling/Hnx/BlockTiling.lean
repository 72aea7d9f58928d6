import Mathlib.Data.List.Chain
import Mathlib.Algebra.BigOperators.Group.List.Basic
import Mathlib.Tactic.NormNum

/-!
# Intervals tiled by free and allocated blocks

The blocks of an implicit free list tile an interval.
-/

namespace HnxKernel

open List

/-- One block of a tiling; `request` is the size asked for by the owner of an
allocated block. -/
structure Block where
  size : Nat
  request : Option Nat
deriving DecidableEq

namespace Block

def isFree (block : Block) : Bool := block.request.isNone

@[simp]
lemma isFree_none (size : Nat) : isFree ⟨size, none⟩ = true := rfl

@[simp]
lemma isFree_some (size req : Nat) : isFree ⟨size, some req⟩ = false := rfl

lemma eq_of_isFree {b : Block} (free : b.isFree = true) : b = ⟨b.size, none⟩ := by
  cases b with
  | mk _ req =>
    cases req with
    | none => rfl
    | some => simp at free

end Block

namespace BlockTiling

def total (blocks : List Block) : Nat := (blocks.map Block.size).sum

@[simp]
lemma total_nil : total [] = 0 := rfl

@[simp]
lemma total_cons (b : Block) (blocks : List Block) :
    total (b :: blocks) = b.size + total blocks := by
  simp [total]

@[simp]
lemma total_append (fst snd : List Block) : total (fst ++ snd) = total fst + total snd := by
  simp [total]

variable {blocks pre post : List Block} {least start a pos need req : Nat}
  {b fst snd : Block}

lemma total_mod_eq_zero {granule : Nat}
    (sizes : ∀ b ∈ blocks, b.size % granule = 0) : total blocks % granule = 0 := by
  induction blocks with
  | nil => simp
  | cons b _ ih =>
    have headSize := sizes b (by simp)
    have tailSize := ih fun o mem => sizes o (by simp [mem])
    rw [total_cons, Nat.add_mod, headSize, tailSize]
    simp

lemma length_mul_le_total (sizes : ∀ b ∈ blocks, least ≤ b.size) :
    blocks.length * least ≤ total blocks := by
  induction blocks with
  | nil => simp
  | cons b _ ih =>
    have headSize := sizes b (by simp)
    have tailSize := ih fun o mem => sizes o (by simp [mem])
    rw [total_cons, length_cons, Nat.succ_mul]
    omega

def used : List Block → Nat
  | [] => 0
  | b :: blocks => (if b.isFree then 0 else b.size) + used blocks

@[simp]
lemma used_append (fst snd : List Block) : used (fst ++ snd) = used fst + used snd := by
  induction fst with
  | nil => simp [used]
  | cons _ _ ih => simp [used, ih, Nat.add_assoc]

lemma used_le_total (blocks : List Block) : used blocks ≤ total blocks := by
  induction blocks with
  | nil => simp [used]
  | cons =>
    rw [used, total_cons]
    split <;> omega

def allocated (start : Nat) : List Block → List (Nat × Block)
  | [] => []
  | b :: blocks =>
    if b.isFree then
      allocated (start + b.size) blocks
    else
      (start, b) :: allocated (start + b.size) blocks

lemma allocated_append (start : Nat) (fst snd : List Block) :
    allocated start (fst ++ snd) = allocated start fst ++ allocated (start + total fst) snd := by
  induction fst generalizing start with
  | nil => simp [allocated]
  | cons _ _ ih =>
    simp only [cons_append, allocated, ih, total_cons, Nat.add_assoc]
    split <;> simp

def positions (start : Nat) : List Block → List Nat
  | [] => []
  | b :: blocks => start :: positions (start + b.size) blocks

lemma exists_split_of_mem_allocated (mem : (a, b) ∈ allocated start blocks) :
    ∃ pre post, blocks = pre ++ b :: post ∧ a = start + total pre ∧ b.isFree = false := by
  induction blocks generalizing start with
  | nil => simp [allocated] at mem
  | cons head tail ih =>
    rw [allocated] at mem
    split at mem
    · obtain ⟨pre, post, rfl, rfl, ht⟩ := ih mem
      exact ⟨head :: pre, post, rfl, by simp [Nat.add_assoc], ht⟩
    rename_i ht
    rcases mem_cons.mp mem with fst | later
    · obtain ⟨rfl, rfl⟩ := Prod.mk.inj fst
      exact ⟨[], tail, rfl, by simp, by simpa using ht⟩
    obtain ⟨pre, post, rfl, rfl, ht⟩ := ih later
    exact ⟨head :: pre, post, rfl, by simp [Nat.add_assoc], ht⟩

lemma le_of_mem_allocated (mem : (a, b) ∈ allocated start blocks) :
    start ≤ a ∧ a + b.size ≤ start + total blocks := by
  obtain ⟨pre, post, rfl, rfl, _⟩ := exists_split_of_mem_allocated mem
  simp only [total_append, total_cons]
  omega

lemma le_of_mem_positions (mem : pos ∈ positions start blocks) : start ≤ pos := by
  induction blocks generalizing start with
  | nil => simp [positions] at mem
  | cons _ _ ih =>
    rcases mem_cons.mp mem with rfl | later
    · exact le_rfl
    have := ih later
    omega

lemma position_outside_allocated (mem : (a, b) ∈ allocated start blocks)
    (starts : pos ∈ positions start blocks) : pos ≤ a ∨ a + b.size ≤ pos := by
  induction blocks generalizing start with
  | nil => simp [allocated] at mem
  | cons head tail ih =>
    have later (tailMem : (a, b) ∈ allocated (start + head.size) tail) :
      pos ≤ a ∨ a + b.size ≤ pos := by
      rcases mem_cons.mp starts with rfl | tailStarts
      · have := (le_of_mem_allocated tailMem).1
        omega
      · exact ih tailMem tailStarts
    rw [allocated] at mem
    split at mem
    · exact later mem
    rcases mem_cons.mp mem with fst | tailMem
    · obtain ⟨rfl, rfl⟩ := Prod.mk.inj fst
      rcases mem_cons.mp starts with rfl | tailStarts
      · exact .inl le_rfl
      · exact .inr (le_of_mem_positions tailStarts)
    · exact later tailMem

lemma allocated_pairwise (start : Nat) (blocks : List Block) :
    (allocated start blocks).Pairwise fun fst snd => fst.1 + fst.2.size ≤ snd.1 := by
  induction blocks generalizing start with
  | nil => simp [allocated]
  | cons _ _ ih =>
    rw [allocated]
    split
    · exact ih _
    refine pairwise_cons.mpr ⟨?_, ih _⟩
    rintro ⟨a, o⟩ mem
    exact (le_of_mem_allocated mem).1

def NoAdjacentFree (blocks : List Block) : Prop :=
  blocks.IsChain fun fst snd => ¬ (fst.isFree = true ∧ snd.isFree = true)

def consMerge (block : Block) : List Block → List Block
  | [] => [block]
  | next :: blocks =>
    if block.isFree && next.isFree then
      ⟨block.size + next.size, none⟩ :: blocks
    else
      block :: next :: blocks

def mergeFree (blocks : List Block) : List Block := blocks.foldr consMerge []

@[simp]
lemma mergeFree_nil : mergeFree [] = [] := rfl

lemma mergeFree_cons (b : Block) (blocks : List Block) :
    mergeFree (b :: blocks) = consMerge b (mergeFree blocks) :=
  rfl

lemma consMerge_taken (ht : b.isFree = false)
    (blocks : List Block) : consMerge b blocks = b :: blocks := by
  cases blocks <;> simp [consMerge, ht]

lemma mergeFree_taken (ht : b.isFree = false)
    (blocks : List Block) : mergeFree (b :: blocks) = b :: mergeFree blocks := by
  rw [mergeFree_cons, consMerge_taken ht]

lemma mergeFree_absorb (free1 : fst.isFree = true)
    (secondFree : snd.isFree = true) (blocks : List Block) :
    mergeFree (fst :: snd :: blocks) = mergeFree (⟨fst.size + snd.size, none⟩ :: blocks) := by
  simp only [mergeFree_cons]
  cases mergeFree blocks with
  | nil => simp [consMerge, free1, secondFree]
  | cons head =>
    cases headFree : head.isFree <;>
      simp [consMerge, free1, secondFree, headFree, Nat.add_assoc]

lemma mergeFree_free_taken (taken2 : snd.isFree = false) (blocks : List Block) :
    mergeFree (fst :: snd :: blocks) = fst :: mergeFree (snd :: blocks) := by
  rw [mergeFree_cons, mergeFree_taken taken2]
  simp [consMerge, taken2]

lemma allocated_consMerge (start : Nat) (b : Block) (blocks : List Block) :
    allocated start (consMerge b blocks) = allocated start (b :: blocks) := by
  cases blocks with
  | nil => rfl
  | cons =>
    rw [consMerge]
    split
    · rename_i bothFree
      obtain ⟨blockFree, nextFree⟩ := Bool.and_eq_true_iff.mp bothFree
      simp [allocated, blockFree, nextFree, Nat.add_assoc]
    · rfl

lemma allocated_mergeFree (start : Nat) (blocks : List Block) :
    allocated start (mergeFree blocks) = allocated start blocks := by
  induction blocks generalizing start with
  | nil => rfl
  | cons _ _ ih =>
    rw [mergeFree_cons, allocated_consMerge]
    simp only [allocated, ih]

lemma used_eq_sum_allocated (start : Nat) (blocks : List Block) :
    used blocks = ((allocated start blocks).map fun e => e.2.size).sum := by
  induction blocks generalizing start with
  | nil => rfl
  | cons b _ ih =>
    rw [used, allocated]
    split <;> simp [ih (start + b.size)]

lemma used_mergeFree (blocks : List Block) : used (mergeFree blocks) = used blocks := by
  rw [used_eq_sum_allocated 0, allocated_mergeFree, ← used_eq_sum_allocated]

lemma noAdjacentFree_consMerge
    (separated : NoAdjacentFree blocks) : NoAdjacentFree (consMerge b blocks) := by
  cases blocks with
  | nil => exact isChain_singleton _
  | cons _ blocks =>
    rw [consMerge]
    split
    · rename_i bothFree
      obtain ⟨_, nextFree⟩ := Bool.and_eq_true_iff.mp bothFree
      cases blocks with
      | nil => exact isChain_singleton _
      | cons =>
        simp only [NoAdjacentFree, isChain_cons_cons] at separated ⊢
        exact ⟨fun free => separated.1 ⟨nextFree, free.2⟩, separated.2⟩
    rename_i notBoth
    simp only [NoAdjacentFree, isChain_cons_cons]
    exact ⟨fun free => notBoth (by simp [free.1, free.2]), separated⟩

lemma noAdjacentFree_mergeFree (blocks : List Block) : NoAdjacentFree (mergeFree blocks) := by
  induction blocks with
  | nil => exact isChain_nil
  | cons _ _ ih => exact noAdjacentFree_consMerge ih

def Roomy (least : Nat) (blocks : List Block) : Prop :=
  ∃ b ∈ blocks, b.isFree = true ∧ least ≤ b.size

lemma Roomy.consMerge (roomy : Roomy least (b :: blocks)) : Roomy least (consMerge b blocks) := by
  obtain ⟨large, mem, free, le⟩ := roomy
  cases blocks with
  | nil => exact ⟨large, mem, free, le⟩
  | cons =>
    rw [BlockTiling.consMerge]
    split
    · rcases mem_cons.mp mem with rfl | later
      · exact ⟨_, mem_cons_self, rfl, Nat.le_add_right_of_le le⟩
      rcases mem_cons.mp later with rfl | later
      · exact ⟨_, mem_cons_self, rfl, Nat.le_add_left_of_le le⟩
      · exact ⟨large, mem_cons_of_mem _ later, free, le⟩
    · exact ⟨large, mem, free, le⟩

lemma Roomy.mergeFree (roomy : Roomy least blocks) : Roomy least (mergeFree blocks) := by
  induction blocks with
  | nil => exact roomy
  | cons _ _ ih =>
    rw [mergeFree_cons]
    apply Roomy.consMerge
    obtain ⟨large, mem, free, le⟩ := roomy
    rcases mem_cons.mp mem with rfl | later
    · exact ⟨large, mem_cons_self, free, le⟩
    obtain ⟨merged, hi, mergedFree, mergedEnough⟩ := ih ⟨large, later, free, le⟩
    exact ⟨merged, mem_cons_of_mem _ hi, mergedFree, mergedEnough⟩

lemma forall_mergeFree {property : Block → Prop}
    (add : ∀ fst snd : Block, property fst → property snd →
      property ⟨fst.size + snd.size, none⟩) (h : ∀ b ∈ blocks, property b) :
    ∀ b ∈ mergeFree blocks, property b := by
  induction blocks with
  | nil => simp
  | cons head tail ih =>
    have headHolds := h head (by simp)
    have tailHolds := ih fun b mem => h b (by simp [mem])
    rw [mergeFree_cons]
    cases merged : mergeFree tail with
    | nil => simpa [consMerge] using headHolds
    | cons next =>
      rw [merged] at tailHolds
      have nextHolds := tailHolds next (by simp)
      rw [consMerge]
      intro b mem
      split at mem
      · rcases mem_cons.mp mem with rfl | later
        · exact add head next headHolds nextHolds
        · exact tailHolds b (by simp [later])
      rcases mem_cons.mp mem with rfl | later
      · exact headHolds
      · exact tailHolds b later

/-- The rest of a free block is split off when it can hold `least` bytes. -/
def serve (least need request size : Nat) : List Block :=
  if least ≤ size - need then
    [⟨need, some request⟩, ⟨size - need, none⟩]
  else
    [⟨size, some request⟩]

def servedSize (least need size : Nat) : Nat :=
  if least ≤ size - need then need else size

lemma Roomy.serve {spare : Nat} (roomy : Roomy (need + spare) (pre ++ b :: post))
    (le : least ≤ spare) : Roomy spare (pre ++ (serve least need req b.size ++ post)) := by
  obtain ⟨large, mem, free, fits⟩ := roomy
  rcases mem_append.mp mem with earlier | rest
  · exact ⟨large, mem_append_left _ earlier, free, by omega⟩
  rcases mem_cons.mp rest with rfl | later
  · refine ⟨⟨large.size - need, none⟩, mem_append_right _ (mem_append_left _ ?_), rfl, ?_⟩
    · rw [BlockTiling.serve, if_pos (by omega)]
      exact mem_cons_of_mem _ mem_cons_self
    dsimp only
    omega
  · exact ⟨large, mem_append_right _ (mem_append_right _ later), free, by omega⟩

lemma total_serve {size : Nat} (fits : need ≤ size) : total (serve least need req size) = size := by
  rw [serve]
  split
  · simp only [total_cons, total_nil]
    omega
  · simp

lemma used_serve (least need req size : Nat) :
    used (serve least need req size) = servedSize least need size := by
  rw [serve, servedSize]
  split <;> simp [used]

lemma allocated_serve (start least need req size : Nat) :
    allocated start (serve least need req size) =
      [(start, ⟨servedSize least need size, some req⟩)] := by
  rw [serve, servedSize]
  split <;> simp [allocated]

lemma noAdjacentFree_cons_taken (ht : b.isFree = false)
    (separated : NoAdjacentFree blocks) : NoAdjacentFree (b :: blocks) := by
  cases blocks with
  | nil => exact isChain_singleton _
  | cons =>
    refine isChain_cons_cons.mpr ⟨?_, separated⟩
    simp [ht]

/-- The split-off rest stands where the served free block stood. -/
lemma noAdjacentFree_serve
    (free : b.isFree = true) (separated : NoAdjacentFree (pre ++ b :: post)) :
    NoAdjacentFree (pre ++ (serve least need req b.size ++ post)) := by
  obtain ⟨preSep, afterSep, _⟩ := isChain_append.mp separated
  have restSep (size : Nat) : NoAdjacentFree (⟨size, none⟩ :: post) := by
    cases post with
    | nil => exact isChain_singleton _
    | cons =>
      obtain ⟨apart, tailSeparated⟩ := isChain_cons_cons.mp afterSep
      exact isChain_cons_cons.mpr ⟨fun both => apart ⟨free, both.2⟩, tailSeparated⟩
  have tailSeparated : NoAdjacentFree post := List.IsChain.tail afterSep
  refine isChain_append.mpr ⟨preSep, ?_, ?_⟩
  · rw [serve]
    split
    · exact noAdjacentFree_cons_taken rfl (restSep _)
    · exact noAdjacentFree_cons_taken rfl tailSeparated
  intro last _ head headMem
  rw [serve] at headMem
  split at headMem <;>
    · simp only [cons_append, List.head?_cons, Option.mem_some_iff] at headMem
      subst headMem
      simp

lemma eq_singleton_of_allocated_nil
    (separated : NoAdjacentFree blocks) (idle : allocated start blocks = [])
    (nonempty : blocks ≠ []) : blocks = [⟨total blocks, none⟩] := by
  have free (a : Nat) {b : Block} {rest : List Block}
    (none : allocated a (b :: rest) = []) :
    b.isFree = true ∧ allocated (a + b.size) rest = [] := by
    rw [allocated] at none
    split at none
    · exact ⟨by assumption, none⟩
    · simp at none
  cases blocks with
  | nil => exact absurd rfl nonempty
  | cons _ blocks =>
    obtain ⟨free1, restIdle⟩ := free start idle
    cases blocks with
    | nil => simpa using Block.eq_of_isFree free1
    | cons =>
      have secondFree := (free _ restIdle).1
      exact absurd ⟨free1, secondFree⟩ (isChain_cons_cons.mp separated).1

end BlockTiling

end HnxKernel
