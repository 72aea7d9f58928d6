import Hnx.ByteMemory

/-!
# The chained hash table

Putting and removing a key are pointwise updates of the lookup function.
-/

namespace HnxKernel

open Function List

def hashU64 (key : Nat) : Nat :=
  let x := u64 (key + 0x9E3779B97F4A7C15)
  let x := u64 ((x ^^^ (x >>> 30)) * 0xBF58476D1CE4E5B9)
  let x := u64 ((x ^^^ (x >>> 27)) * 0x94D049BB133111EB)
  x ^^^ (x >>> 31)

namespace Chain

variable {Value : Type} {chain : List (Nat × Value)} {key o : Nat} {val : Value}

def find (chain : List (Nat × Value)) (key : Nat) : Option Value :=
  (chain.find? fun node => node.1 = key).map Prod.snd

def assign (key : Nat) (val : Value) : List (Nat × Value) → List (Nat × Value)
  | [] => []
  | node :: chain =>
    if node.1 = key then (key, val) :: chain else node :: assign key val chain

def unlink (chain : List (Nat × Value)) (key : Nat) : List (Nat × Value) :=
  chain.eraseP fun node => node.1 = key

lemma find_cons (n : Nat × Value) :
    find (n :: chain) key = if n.1 = key then some n.2 else find chain key := by
  rw [find, List.find?_cons]
  by_cases same : n.1 = key
  · simp [same]
  · simp [same, find]

lemma find_eq_none_iff : find chain key = none ↔ key ∉ chain.map Prod.fst := by
  induction chain with
  | nil => simp [find]
  | cons n _ ih =>
    rw [find_cons, map_cons, mem_cons, not_or, ← ih]
    by_cases same : n.1 = key
    · simp [same]
    · simp [same, Ne.symm same]

lemma map_fst_assign : (assign key val chain).map Prod.fst = chain.map Prod.fst := by
  induction chain with
  | nil => rfl
  | cons _ _ ih =>
    rw [assign]
    split
    case isTrue same => rw [map_cons, map_cons, same]
    case isFalse => rw [map_cons, map_cons, ih]

lemma find_assign (pres : (find chain key).isSome) :
    find (assign key val chain) o = if o = key then some val else find chain o := by
  induction chain with
  | nil => simp [find] at pres
  | cons _ _ ih =>
    rw [find_cons] at pres
    rw [assign]
    split
    case isTrue same =>
      rw [find_cons, find_cons, same]
      by_cases isKey : o = key
      · simp [isKey]
      · simp [isKey, Ne.symm isKey]
    case isFalse ne =>
      rw [if_neg ne] at pres
      rw [find_cons, find_cons, ih pres]
      by_cases isKey : o = key
      · simp [isKey, ne]
      · simp [isKey]

lemma find_unlink (nodup : (chain.map Prod.fst).Nodup) :
    find (unlink chain key) o = if o = key then none else find chain o := by
  induction chain with
  | nil => simp [find, unlink]
  | cons n _ ih =>
    rw [map_cons, nodup_cons] at nodup
    by_cases same : n.1 = key
    · rw [unlink, eraseP_cons_of_pos (by simpa using same), find_cons, same]
      by_cases isKey : o = key
      · rw [if_pos isKey, find_eq_none_iff, isKey, ← same]
        exact nodup.1
      · rw [if_neg isKey, if_neg (Ne.symm isKey)]
    rw [unlink, eraseP_cons_of_neg (by simpa using same), find_cons, find_cons]
    rw [unlink] at ih
    rw [ih nodup.2]
    by_cases isKey : o = key
    · simp [isKey, same]
    · simp [isKey]

lemma nodup_unlink (nodup : (chain.map Prod.fst).Nodup) : ((unlink chain key).map Prod.fst).Nodup :=
  nodup.sublist (eraseP_sublist.map Prod.fst)

end Chain

/-- A chain has no key twice. -/
structure Hashtable (Value : Type) where
  buckets : Nat → List (Nat × Value)
  mask : Nat
  count : Nat
  distinct : ∀ bucket, ((buckets bucket).map Prod.fst).Nodup

def roundPow2 : Nat → Nat → Nat → Nat
  | 0, p, _ => p
  | fuel + 1, p, v => if p < v then roundPow2 fuel (u64 (p * 2)) v else p

namespace Hashtable

variable {Value : Type} {ht : Hashtable Value} {key o : Nat} {val : Value}

/-- `hashtable_init` with its buckets allocated; sizes up to 2 ^ 63 are rounded up. -/
def init (hint : Nat) : Hashtable Value where
  buckets _ := []
  mask := roundPow2 60 8 (if hint = 0 then 8 else hint) - 1
  count := 0
  distinct _ := nodup_nil

def bucket (ht : Hashtable Value) (key : Nat) : Nat := hashU64 key &&& ht.mask

def get (ht : Hashtable Value) (key : Nat) : Option Value :=
  Chain.find (ht.buckets (ht.bucket key)) key

/-- `hashtable_put`, which needs `room` for a node when the key is new. -/
def put (ht : Hashtable Value) (key : Nat) (val : Value) (room : Bool) :
    Option (Hashtable Value) :=
  let b := ht.bucket key
  if isNew : Chain.find (ht.buckets b) key = none then
    if room then
      some
        { ht with
          buckets := update ht.buckets b ((key, val) :: ht.buckets b)
          count := u64 (ht.count + 1)
          distinct := by
            intro bucket
            by_cases same : bucket = b
            · rw [same, update_self, map_cons, nodup_cons]
              exact ⟨Chain.find_eq_none_iff.mp isNew, ht.distinct b⟩
            rw [update_of_ne same]
            exact ht.distinct bucket }
    else
      none
  else
    some
      { ht with
        buckets := update ht.buckets b (Chain.assign key val (ht.buckets b))
        distinct := by
          intro bucket
          by_cases same : bucket = b
          · rw [same, update_self, Chain.map_fst_assign]
            exact ht.distinct b
          rw [update_of_ne same]
          exact ht.distinct bucket }

def remove (ht : Hashtable Value) (key : Nat) : Hashtable Value :=
  let b := ht.bucket key
  { ht with
    buckets := update ht.buckets b (Chain.unlink (ht.buckets b) key)
    count := if Chain.find (ht.buckets b) key = none then ht.count
      else u64 (ht.count + (2 ^ 64 - 1))
    distinct := by
      intro bucket
      by_cases same : bucket = b
      · rw [same, update_self]
        exact Chain.nodup_unlink (ht.distinct b)
      rw [update_of_ne same]
      exact ht.distinct bucket }

lemma get_eq_update {post : Hashtable Value} {chain : List (Nat × Value)} {result : Option Value}
    (mask : post.mask = ht.mask) (buckets : post.buckets = update ht.buckets (ht.bucket key) chain)
    (finds : ∀ o, Chain.find chain o =
      if o = key then result else Chain.find (ht.buckets (ht.bucket key)) o) :
    post.get = update ht.get key result := by
  funext o
  have sameBucket : post.bucket o = ht.bucket o := by rw [bucket, bucket, mask]
  rw [get, sameBucket, buckets]
  by_cases isKey : o = key
  · rw [isKey, update_self, update_self, finds, if_pos rfl]
  rw [update_of_ne isKey, get]
  by_cases inBucket : ht.bucket o = ht.bucket key
  · rw [inBucket, update_self, finds, if_neg isKey]
  · rw [update_of_ne inBucket]

lemma get_put {room : Bool} {post : Hashtable Value} (stored : ht.put key val room = some post) :
    post.get = update ht.get key (some val) := by
  simp only [put] at stored
  split at stored
  case isTrue isNew =>
    split at stored
    · obtain rfl := Option.some.inj stored
      refine get_eq_update rfl rfl ?_
      intro o
      rw [Chain.find_cons]
      by_cases isKey : o = key
      · simp [isKey]
      · simp [isKey, Ne.symm isKey]
    · cases stored
  case isFalse pres =>
    obtain rfl := Option.some.inj stored
    refine get_eq_update rfl rfl ?_
    intro o
    exact Chain.find_assign (Option.ne_none_iff_isSome.mp pres)

lemma get_remove : (ht.remove key).get = update ht.get key none :=
  get_eq_update rfl rfl fun _ => Chain.find_unlink (ht.distinct _)

end Hashtable

end HnxKernel
