import Mathlib.Data.Finset.Card
import Mathlib.Data.Fintype.Basic
import Mathlib.Data.Nat.Bitwise
import Mathlib.Tactic.Ring

/-!
# The radix tree

Inserting and removing a key are pointwise updates of the lookup function.
-/

namespace HnxKernel

open Function Option Finset Nat

structure RadixNode (Child : Type) where
  slots : Fin 64 → Option Child
  used : Nat
  counted : used = (Finset.univ.filter fun i => (slots i).isSome).card

namespace RadixNode

variable {Child : Type} {n : RadixNode Child} {i : Fin 64}

def new : RadixNode Child where
  slots _ := none
  used := 0
  counted := by simp

def set (node : RadixNode Child) (idx : Fin 64) (child : Child) : RadixNode Child where
  slots := update node.slots idx (some child)
  used := if (node.slots idx).isSome then node.used else node.used + 1
  counted := by
    have filled : (Finset.univ.filter fun o =>
      (update node.slots idx (some child) o).isSome) =
      insert idx (Finset.univ.filter fun o => (node.slots o).isSome) := by
      ext o
      by_cases same : o = idx
      · simp [same]
      · simp [same]
    rw [filled, node.counted]
    split
    case isTrue present => rw [insert_eq_of_mem (by simpa using present)]
    case isFalse absent => rw [card_insert_of_notMem (by simpa using absent)]

def clear (node : RadixNode Child) (idx : Fin 64) : RadixNode Child where
  slots := update node.slots idx none
  used := if (node.slots idx).isSome then node.used - 1 else node.used
  counted := by
    have emptied : (Finset.univ.filter fun o =>
      (update node.slots idx none o).isSome) =
      (Finset.univ.filter fun o => (node.slots o).isSome).erase idx := by
      ext o
      by_cases same : o = idx
      · simp [same]
      · simp [same]
    rw [emptied, node.counted]
    split
    case isTrue present => rw [card_erase_of_mem (by simpa using present)]
    case isFalse absent => rw [erase_eq_of_notMem (by simpa using absent)]

lemma slots_of_used (hu : n.used = 0) (i : Fin 64) : n.slots i = none := by
  have none := card_eq_zero.mp (n.counted.symm.trans hu)
  have out : i ∉ Finset.univ.filter fun o => (n.slots o).isSome := by
    rw [none]
    exact notMem_empty i
  simpa using out

end RadixNode

abbrev RadixLevel (Value : Type) : Nat → Type
  | 0 => RadixNode Value
  | lvl + 1 => RadixNode (RadixLevel Value lvl)

def slotIndex (key lvl : Nat) : Fin 64 :=
  ⟨(key >>> (lvl * 6)) &&& 63, lt_of_le_of_lt and_le_right (by decide)⟩

lemma slotIndex_val (key lvl : Nat) : (slotIndex key lvl).val = key / 64 ^ lvl % 64 := by
  have power : 2 ^ (lvl * 6) = 64 ^ lvl := by
    rw [mul_comm, pow_mul]
    rfl
  have mask : (key >>> (lvl * 6)) &&& 63 = (key >>> (lvl * 6)) % 64 :=
    and_two_pow_sub_one_eq_mod _ 6
  rw [shiftRight_eq_div_pow, power] at mask
  rw [← mask, ← power, ← shiftRight_eq_div_pow]
  rfl

def SameSlots (lvl fst snd : Nat) : Prop := fst % 64 ^ (lvl + 1) = snd % 64 ^ (lvl + 1)

instance (lvl fst snd : Nat) : Decidable (SameSlots lvl fst snd) :=
  inferInstanceAs (Decidable (_ = _))

lemma sameSlots_zero {fst snd : Nat} : SameSlots 0 fst snd ↔ slotIndex fst 0 = slotIndex snd 0 := by
  rw [Fin.ext_iff, slotIndex_val, slotIndex_val, SameSlots, pow_zero, Nat.div_one, Nat.div_one,
    Nat.zero_add, pow_one]

lemma sameSlots_succ {lvl fst second : Nat} :
    SameSlots (lvl + 1) fst second ↔ slotIndex fst (lvl + 1) = slotIndex second (lvl + 1) ∧
        SameSlots lvl fst second := by
  rw [Fin.ext_iff, slotIndex_val, slotIndex_val, SameSlots, SameSlots, pow_succ 64 (lvl + 1),
    Nat.mod_mul, Nat.mod_mul]
  have pos : 0 < 64 ^ (lvl + 1) := Nat.pow_pos (by decide)
  have firstLt : fst % 64 ^ (lvl + 1) < 64 ^ (lvl + 1) := Nat.mod_lt _ pos
  have secondLt : second % 64 ^ (lvl + 1) < 64 ^ (lvl + 1) := Nat.mod_lt _ pos
  constructor
  · intro sums
    have quotients := congrArg (· / 64 ^ (lvl + 1)) sums
    have remainders := congrArg (· % 64 ^ (lvl + 1)) sums
    simp only [add_mul_div_left _ _ pos, div_eq_of_lt firstLt, div_eq_of_lt secondLt, zero_add,
      add_mul_mod_self_left, mod_mod] at quotients remainders
    exact ⟨quotients, remainders⟩
  rintro ⟨quotients, remainders⟩
  rw [quotients, remainders]

namespace RadixLevel

variable {Value : Type} {key o : Nat} {val : Value}

def new : (lvl : Nat) → RadixLevel Value lvl
  | 0 => (RadixNode.new : RadixNode Value)
  | lvl + 1 => (RadixNode.new : RadixNode (RadixLevel Value lvl))

def used : (lvl : Nat) → RadixLevel Value lvl → Nat
  | 0, n => RadixNode.used n
  | _ + 1, n => RadixNode.used n

def lookup (key : Nat) : (lvl : Nat) → RadixLevel Value lvl → Option Value
  | 0, n => RadixNode.slots n (slotIndex key 0)
  | lvl + 1, n =>
    match RadixNode.slots n (slotIndex key (lvl + 1)) with
    | none => none
    | some child => lookup key lvl child

/-- Whether the leaf slot was free, unless an allocation failed, and the nodes made until then. -/
structure Inserted (Value : Type) (lvl : Nat) where
  fresh : Option Bool
  node : RadixLevel Value lvl
  faults : List Bool

def insert (key : Nat) (val : Value) : (lvl : Nat) → RadixLevel Value lvl → List Bool →
    Inserted Value lvl
  | 0, node, faults =>
    { fresh := some (RadixNode.slots node (slotIndex key 0)).isNone
      node := RadixNode.set node (slotIndex key 0) val
      faults }
  | lvl + 1, node, faults =>
    match RadixNode.slots node (slotIndex key (lvl + 1)) with
    | some child =>
      let below := insert key val lvl child faults
      { fresh := below.fresh
        node := RadixNode.set node (slotIndex key (lvl + 1)) below.node
        faults := below.faults }
    | none =>
      if faults.headD false then
        { fresh := none, node, faults := faults.tail }
      else
        let below := insert key val lvl (new lvl) faults.tail
        { fresh := below.fresh
          node := RadixNode.set node (slotIndex key (lvl + 1)) below.node
          faults := below.faults }

/-- The descent of `radix_remove`, which frees nodes without used slots on its way back. -/
def remove (key : Nat) : (lvl : Nat) → RadixLevel Value lvl → Option (RadixLevel Value lvl)
  | 0, n =>
    match RadixNode.slots n (slotIndex key 0) with
    | none => none
    | some _ => some (RadixNode.clear n (slotIndex key 0))
  | lvl + 1, n =>
    match RadixNode.slots n (slotIndex key (lvl + 1)) with
    | none => none
    | some child =>
      match remove key lvl child with
      | none => none
      | some below =>
        if used lvl below = 0 then
          some (RadixNode.clear n (slotIndex key (lvl + 1)))
        else
          some (RadixNode.set n (slotIndex key (lvl + 1)) below)

variable {lvl : Nat} {faults : List Bool} {n below : RadixLevel Value lvl}

lemma lookup_of_used (hu : used lvl n = 0) : lookup key lvl n = none := by
  cases lvl with
  | zero => exact RadixNode.slots_of_used hu _
  | succ => rw [lookup, RadixNode.slots_of_used hu]

lemma lookup_new : lookup key lvl (new lvl : RadixLevel Value lvl) = none := by
  apply lookup_of_used
  cases lvl with
  | zero => rfl
  | succ => rfl

lemma lookup_zero (n : RadixLevel Value 0) : lookup key 0 n = RadixNode.slots n (slotIndex key 0) :=
  rfl

lemma lookup_succ (n : RadixLevel Value (lvl + 1)) :
    lookup key (lvl + 1) n =
      (RadixNode.slots n (slotIndex key (lvl + 1))).bind (lookup key lvl) := by
  rw [lookup]
  cases RadixNode.slots n (slotIndex key (lvl + 1)) with
  | none => rfl
  | some => rfl

lemma lookup_set {n : RadixLevel Value (lvl + 1)} {res : Option Value}
    (finds : ∀ o, lookup o lvl below =
      if SameSlots lvl key o then res
      else (RadixNode.slots n (slotIndex key (lvl + 1))).bind (lookup o lvl)) :
    lookup o (lvl + 1) (RadixNode.set n (slotIndex key (lvl + 1)) below) =
      if SameSlots (lvl + 1) key o then res else lookup o (lvl + 1) n := by
  rw [lookup_succ, lookup_succ, RadixNode.set]
  dsimp only
  by_cases sameSlot : slotIndex o (lvl + 1) = slotIndex key (lvl + 1)
  · rw [sameSlot, update_self, bind_some, finds]
    by_cases eq : SameSlots lvl key o
    · rw [if_pos eq, if_pos (sameSlots_succ.mpr ⟨sameSlot.symm, eq⟩)]
    · rw [if_neg eq, if_neg fun both => eq (sameSlots_succ.mp both).2]
  · rw [update_of_ne sameSlot, if_neg fun both => sameSlot (sameSlots_succ.mp both).1.symm]

lemma lookup_set_same {n : RadixLevel Value (lvl + 1)} (finds : ∀ o, lookup o lvl below =
      (RadixNode.slots n (slotIndex key (lvl + 1))).bind (lookup o lvl)) :
    lookup o (lvl + 1) (RadixNode.set n (slotIndex key (lvl + 1)) below) = lookup o (lvl + 1)
      n := by
  rw [lookup_succ, lookup_succ, RadixNode.set]
  dsimp only
  by_cases sameSlot : slotIndex o (lvl + 1) = slotIndex key (lvl + 1)
  · rw [sameSlot, update_self, bind_some, finds]
  · rw [update_of_ne sameSlot]

lemma lookup_insert {isNew : Bool} (inserted : (insert key val lvl n faults).fresh = some isNew) :
    isNew = (lookup key lvl n).isNone ∧ ∀ o, lookup o lvl (insert key val lvl n faults).node =
        if SameSlots lvl key o then some val else lookup o lvl n := by
  induction lvl generalizing faults with
  | zero =>
    refine ⟨(Option.some.inj inserted).symm, ?_⟩
    intro o
    rw [insert, lookup_zero, lookup_zero, RadixNode.set]
    dsimp only
    by_cases sameSlot : slotIndex o 0 = slotIndex key 0
    · rw [sameSlot, update_self, if_pos (sameSlots_zero.mpr sameSlot.symm)]
    · rw [update_of_ne sameSlot, if_neg fun eq => sameSlot (sameSlots_zero.mp eq).symm]
  | succ lvl ih =>
    rw [insert] at inserted ⊢
    cases s : RadixNode.slots n (slotIndex key (lvl + 1)) with
    | some =>
      rw [s] at inserted
      have below := ih inserted
      constructor
      · rw [lookup_succ, s]
        exact below.1
      intro o
      exact lookup_set fun o => by rw [below.2 o, s, bind_some]
    | none =>
      rw [s] at inserted
      dsimp only at inserted ⊢
      split at inserted
      · cases inserted
      case isFalse room =>
        have below := ih inserted
        rw [if_neg room]
        constructor
        · rw [lookup_succ, s]
          exact below.1.trans (by rw [lookup_new]; rfl)
        intro o
        exact lookup_set fun o => by rw [below.2 o, s, bind_none, lookup_new]

lemma lookup_insert_failed (hf : (insert key val lvl n faults).fresh = none) (o : Nat) :
    lookup o lvl (insert key val lvl n faults).node = lookup o lvl n := by
  induction lvl generalizing faults o with
  | zero => cases hf
  | succ lvl ih =>
    rw [insert] at hf ⊢
    cases s : RadixNode.slots n (slotIndex key (lvl + 1)) with
    | some =>
      rw [s] at hf
      exact lookup_set_same fun o => by rw [ih hf o, s, bind_some]
    | none =>
      rw [s] at hf
      dsimp only at hf ⊢
      split
      · rfl
      case isFalse room =>
        rw [if_neg room] at hf
        exact lookup_set_same fun o => by rw [ih hf o, s, bind_none, lookup_new]

lemma insert_of_nil {lvl : Nat} {n : RadixLevel Value lvl} :
    (insert key val lvl n []).fresh ≠ none ∧ (insert key val lvl n []).faults = [] := by
  induction lvl with
  | zero => exact ⟨some_ne_none _, rfl⟩
  | succ lvl ih =>
    rw [insert]
    cases s : RadixNode.slots n (slotIndex key (lvl + 1)) with
    | some => exact ih
    | none => exact ih

lemma lookup_remove {post : RadixLevel Value lvl} (removed : remove key lvl n = some post) :
    (lookup key lvl n).isSome ∧ ∀ o, lookup o lvl post =
        if SameSlots lvl key o then none else lookup o lvl n := by
  induction lvl with
  | zero =>
    rw [remove] at removed
    cases s : RadixNode.slots n (slotIndex key 0) with
    | none =>
      rw [s] at removed
      cases removed
    | some =>
      rw [s] at removed
      cases removed
      constructor
      · rw [lookup_zero, s]
        rfl
      intro o
      rw [lookup_zero, lookup_zero, RadixNode.clear]
      dsimp only
      by_cases sameSlot : slotIndex o 0 = slotIndex key 0
      · rw [sameSlot, update_self, if_pos (sameSlots_zero.mpr sameSlot.symm)]
      · rw [update_of_ne sameSlot, if_neg fun eq => sameSlot (sameSlots_zero.mp eq).symm]
  | succ lvl ih =>
    rw [remove] at removed
    cases s : RadixNode.slots n (slotIndex key (lvl + 1)) with
    | none =>
      rw [s] at removed
      cases removed
    | some c =>
      rw [s] at removed
      cases hi : remove key lvl c with
      | none =>
        simp only [hi] at removed
        cases removed
      | some below =>
        obtain ⟨pres, finds⟩ := ih hi
        simp only [hi] at removed
        constructor
        · rw [lookup_succ, s]
          exact pres
        intro o
        split at removed
        case isTrue he =>
          cases removed
          rw [lookup_succ, lookup_succ, RadixNode.clear]
          dsimp only
          by_cases sameSlot : slotIndex o (lvl + 1) = slotIndex key (lvl + 1)
          · rw [sameSlot, update_self, bind_none, s, bind_some]
            -- Nothing else is left below a child without used slots.
            split
            · rfl
            case isFalse ne =>
              have others := finds o
              rw [lookup_of_used he, if_neg fun eq =>
                ne (sameSlots_succ.mpr ⟨sameSlot.symm, eq⟩)] at others
              exact others
          · rw [update_of_ne sameSlot, if_neg fun both => sameSlot (sameSlots_succ.mp both).1.symm]
        case isFalse =>
          cases removed
          exact lookup_set fun o => by rw [finds o, s, bind_some]

lemma lookup_of_remove (ha : remove key lvl n = none) : lookup key lvl n = none := by
  induction lvl with
  | zero =>
    rw [remove] at ha
    rw [lookup_zero]
    split at ha
    case h_1 s => exact s
    case h_2 => cases ha
  | succ lvl ih =>
    rw [remove] at ha
    rw [lookup_succ]
    cases s : RadixNode.slots n (slotIndex key (lvl + 1)) with
    | none => rfl
    | some c =>
      rw [s] at ha
      cases hi : remove key lvl c with
      | none => exact ih hi
      | some =>
        simp only [hi] at ha
        split at ha
        · cases ha
        · cases ha

end RadixLevel

structure RadixTree (Value : Type) where
  root : Option (RadixLevel Value 5)
  count : Nat

abbrev radixMaxKey : Nat := 2 ^ 36 - 1

namespace RadixTree

variable {Value : Type} {tree : RadixTree Value} {key o : Nat} {val : Value}
  {faults : List Bool}

def init : RadixTree Value where
  root := none
  count := 0

def lookup (tree : RadixTree Value) (key : Nat) : Option Value :=
  if key > radixMaxKey then none else tree.root.bind (RadixLevel.lookup key 5)

structure Inserted (Value : Type) where
  ok : Bool
  tree : RadixTree Value
  faults : List Bool

def insertFrom (tree : RadixTree Value) (root : RadixLevel Value 5) (key : Nat) (val : Value)
    (faults : List Bool) : Inserted Value :=
  let below := RadixLevel.insert key val 5 root faults
  { ok := below.fresh.isSome
    tree :=
      { root := some below.node
        count := if below.fresh = some true then tree.count + 1 else tree.count }
    faults := below.faults }

def insert (tree : RadixTree Value) (key : Nat) (val : Value) (faults : List Bool) :
    Inserted Value :=
  if key > radixMaxKey then
    { ok := false, tree, faults }
  else
    match tree.root with
    | some root => tree.insertFrom root key val faults
    | none =>
      if faults.headD false then
        { ok := false, tree, faults := faults.tail }
      else
        tree.insertFrom (RadixLevel.new 5) key val faults.tail

def remove (tree : RadixTree Value) (key : Nat) : RadixTree Value :=
  if key > radixMaxKey then tree
  else
    match tree.root with
    | none => tree
    | some root =>
      match RadixLevel.remove key 5 root with
      | none => tree
      | some post =>
        { root := if RadixLevel.used 5 post = 0 then none else some post
          count := tree.count - 1 }

lemma eq_of_sameSlots (keyLe : key ≤ radixMaxKey) (otherLe : o ≤ radixMaxKey)
    (eq : SameSlots 5 key o) : key = o := by
  have keyLt : key < 64 ^ (5 + 1) := lt_of_le_of_lt keyLe (by decide)
  have otherLt : o < 64 ^ (5 + 1) := lt_of_le_of_lt otherLe (by decide)
  rwa [SameSlots, mod_eq_of_lt keyLt, mod_eq_of_lt otherLt] at eq

@[simp]
lemma lookup_init : (init : RadixTree Value).lookup key = none := by
  rw [lookup]
  split
  · rfl
  · rfl

lemma lookup_of_gt (large : key > radixMaxKey) : tree.lookup key = none := if_pos large

lemma lookup_eq_update {post : RadixTree Value} {result : Option Value}
    (keyLe : key ≤ radixMaxKey) (finds : ∀ o, post.root.bind (RadixLevel.lookup o 5) =
      if SameSlots 5 key o then result else tree.root.bind (RadixLevel.lookup o 5)) :
    post.lookup = update tree.lookup key result := by
  funext o
  rw [lookup]
  split
  case isTrue large =>
    have ne : o ≠ key := by omega
    rw [update_of_ne ne, lookup_of_gt large]
  case isFalse otherLe =>
    rw [finds]
    by_cases eq : o = key
    · have itself : SameSlots 5 key key := rfl
      rw [eq, update_self, if_pos itself]
    rw [update_of_ne eq, lookup, if_neg otherLe,
      if_neg fun slots => eq (eq_of_sameSlots keyLe (by omega) slots).symm]

lemma lookup_insertFrom {r : RadixLevel Value 5} (keyLe : key ≤ radixMaxKey)
    (sameRoot : ∀ o, tree.root.bind (RadixLevel.lookup o 5) = RadixLevel.lookup o 5 r)
    (ok : (tree.insertFrom r key val faults).ok = true) :
    (tree.insertFrom r key val faults).tree.lookup = update tree.lookup key (some val) ∧
      (tree.insertFrom r key val faults).tree.count =
        if (tree.lookup key).isNone then tree.count + 1 else tree.count := by
  obtain ⟨isNew, inserted⟩ := isSome_iff_exists.mp ok
  obtain ⟨isNewEq, finds⟩ := RadixLevel.lookup_insert inserted
  constructor
  · apply lookup_eq_update keyLe
    intro o
    rw [sameRoot o]
    exact finds o
  have known : (tree.lookup key).isNone = isNew := by
    rw [isNewEq, lookup, if_neg (by omega), sameRoot key]
  rw [insertFrom, inserted, known]
  cases isNew with
  | true => rfl
  | false => rfl

lemma lookup_insertFrom_failed {r : RadixLevel Value 5}
    (sameRoot : ∀ o, tree.root.bind (RadixLevel.lookup o 5) = RadixLevel.lookup o 5 r)
    (hf : (tree.insertFrom r key val faults).ok = false) :
    (tree.insertFrom r key val faults).tree.lookup = tree.lookup ∧
      (tree.insertFrom r key val faults).tree.count = tree.count := by
  have none : (RadixLevel.insert key val 5 r faults).fresh = none :=
    isSome_eq_false_iff.mp hf |> isNone_iff_eq_none.mp
  constructor
  · funext o
    rw [lookup, lookup, sameRoot o]
    exact congrArg (ite _ _) (RadixLevel.lookup_insert_failed none o)
  rw [insertFrom, none]
  rfl

lemma lookup_insert (ok : (tree.insert key val faults).ok = true) :
    (tree.insert key val faults).tree.lookup = update tree.lookup key (some val) ∧
      (tree.insert key val faults).tree.count =
        if (tree.lookup key).isNone then tree.count + 1 else tree.count := by
  rw [insert] at ok ⊢
  split at ok
  · cases ok
  case isFalse keyLe =>
    rw [if_neg keyLe]
    cases r : tree.root with
    | some =>
      rw [r] at ok
      exact lookup_insertFrom (not_lt.mp keyLe) (fun _ => by rw [r]; rfl) ok
    | none =>
      rw [r] at ok
      dsimp only at ok ⊢
      split at ok
      · cases ok
      case isFalse room =>
        rw [if_neg room]
        exact lookup_insertFrom (not_lt.mp keyLe)
          (fun _ => by rw [r, RadixLevel.lookup_new]; rfl) ok

lemma lookup_insert_failed (hf : (tree.insert key val faults).ok = false) :
    (tree.insert key val faults).tree.lookup = tree.lookup ∧
      (tree.insert key val faults).tree.count = tree.count := by
  rw [insert] at hf ⊢
  split at hf
  case isTrue large =>
    rw [if_pos large]
    exact ⟨rfl, rfl⟩
  case isFalse keyLe =>
    rw [if_neg keyLe]
    cases r : tree.root with
    | some =>
      rw [r] at hf
      exact lookup_insertFrom_failed (fun _ => by rw [r]; rfl) hf
    | none =>
      rw [r] at hf
      dsimp only at hf ⊢
      split at hf
      case isTrue noRoom =>
        rw [if_pos noRoom]
        exact ⟨rfl, rfl⟩
      case isFalse room =>
        rw [if_neg room]
        exact lookup_insertFrom_failed (fun _ => by rw [r, RadixLevel.lookup_new]; rfl) hf

lemma insert_of_nil (keyLe : key ≤ radixMaxKey) :
    (tree.insert key val []).ok = true ∧ (tree.insert key val []).faults = [] := by
  have inserts : ∀ r : RadixLevel Value 5, (tree.insertFrom r key val []).ok = true ∧
    (tree.insertFrom r key val []).faults = [] := by
    intro r
    have inserted : (RadixLevel.insert key val 5 r []).fresh ≠ none ∧
      (RadixLevel.insert key val 5 r []).faults = [] := RadixLevel.insert_of_nil
    exact ⟨isSome_iff_ne_none.mpr inserted.1, inserted.2⟩
  rw [insert, if_neg (not_lt.mpr keyLe)]
  cases tree.root with
  | some n => exact inserts n
  | none => exact inserts (RadixLevel.new 5)

lemma insert_of_gt (large : key > radixMaxKey) :
    tree.insert key val faults = { ok := false, tree, faults } :=
  if_pos large

lemma lookup_remove : (tree.remove key).lookup = update tree.lookup key none ∧
    (tree.remove key).count =
      if (tree.lookup key).isSome then tree.count - 1 else tree.count := by
  have unchanged : tree.lookup key = none → tree.remove key = tree →
    (tree.remove key).lookup = update tree.lookup key none ∧ (tree.remove key).count =
        if (tree.lookup key).isSome then tree.count - 1 else tree.count := by
    intro ha eq
    rw [eq, ha, update_eq_self_iff.mpr ha.symm]
    exact ⟨rfl, rfl⟩
  by_cases large : key > radixMaxKey
  · exact unchanged (lookup_of_gt large) (if_pos large)
  cases root : tree.root with
  | none =>
    exact unchanged (by rw [lookup, if_neg large, root]; rfl) (by rw [remove, if_neg large, root])
  | some n =>
    cases hi : RadixLevel.remove key 5 n with
    | none =>
      apply unchanged
      · rw [lookup, if_neg large, root]
        exact RadixLevel.lookup_of_remove hi
      rw [remove, if_neg large, root]
      simp only [hi]
    | some post =>
      obtain ⟨pres, finds⟩ := RadixLevel.lookup_remove hi
      have hf : (tree.lookup key).isSome = true := by
        rw [lookup, if_neg large, root]
        exact pres
      have removed : tree.remove key =
        { root := if RadixLevel.used 5 post = 0 then none else some post
          count := tree.count - 1 } := by
        rw [remove, if_neg large, root]
        simp only [hi]
      rw [removed, hf]
      refine ⟨lookup_eq_update (not_lt.mp large) ?_, rfl⟩
      intro o
      rw [root, bind_some, ← finds o]
      split
      case isTrue he => rw [bind_none, RadixLevel.lookup_of_used he]
      case isFalse => rfl

/-- A key with the value to insert, or with none to remove it; no allocation fails. -/
def perform (tree : RadixTree Value) : Nat × Option Value → RadixTree Value
  | (key, some val) => (tree.insert key val []).tree
  | (key, none) => tree.remove key

/-- A tree is a map of the keys that it can hold. -/
theorem foldl_perform_isMap (calls : List (Nat × Option Value)) :
    (calls.foldl perform init).lookup = calls.foldl (fun map call =>
      if call.1 ≤ radixMaxKey then update map call.1 call.2 else map) fun _ => none := by
  induction calls using List.reverseRecOn with
  | nil => exact funext fun _ => lookup_init
  | append_singleton calls call ih =>
    rw [List.foldl_append, List.foldl_append, ← ih]
    generalize calls.foldl perform init = tree
    obtain ⟨key, _ | val⟩ := call
    · show (tree.remove key).lookup = if key ≤ radixMaxKey then _ else _
      rw [lookup_remove.1]
      split_ifs with keyLe
      · rfl
      · exact update_eq_self_iff.mpr (lookup_of_gt (not_le.mp keyLe)).symm
    · show (tree.insert key val []).tree.lookup = if key ≤ radixMaxKey then _ else _
      split_ifs with keyLe
      · exact (lookup_insert (insert_of_nil keyLe).1).1
      · rw [insert_of_gt (not_le.mp keyLe)]

end RadixTree

end HnxKernel
