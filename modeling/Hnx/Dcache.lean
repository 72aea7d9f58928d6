import Hnx.Hashtable
import Hnx.Hnxfs

/-!
# The dentry cache

Two paths with the same hash share one place in the index; the slab may hand out any free
address.
-/

namespace HnxKernel

open Function List

structure Dentry where
  path : FileName
  vnode : Nat
  negative : Bool
  hash : Nat
  deriving DecidableEq, Repr

structure Dcache where
  index : Hashtable Nat
  lru : List Nat
  dentries : Nat → Dentry
  allocated : Nat → Bool
  capacity : Nat
  entries : Nat

namespace Dcache

def init (capacity : Nat) : Dcache where
  index := Hashtable.init (u32 (capacity * 2))
  lru := []
  dentries := fun _ => ⟨[], 0, false, 0⟩
  allocated := fun _ => false
  capacity := if capacity ≠ 0 then capacity else 64
  entries := 0

def findEntry (cache : Dcache) (path : FileName) (h : Nat) : Option Nat :=
  match cache.index.get h with
  | none => none
  | some d => if (cache.dentries d).path = path then some d else none

/-- `list_del_init`, `hashtable_remove` and `kmem_cache_free`. -/
def discard (cache : Dcache) (d key : Nat) : Dcache :=
  { cache with
    lru := cache.lru.erase d
    index := cache.index.remove key
    allocated := update cache.allocated d false }

def countDown (cache : Dcache) : Dcache :=
  { cache with entries := u32 (cache.entries + (2 ^ 32 - 1)) }

def evictOne (cache : Dcache) : Dcache :=
  match cache.lru.getLast? with
  | none => cache
  | some victim => (cache.discard victim (cache.dentries victim).hash).countDown

def makeRoom : Nat → Dcache → Dcache
  | 0, cache => cache
  | fuel + 1, cache =>
    if cache.entries ≥ cache.capacity then makeRoom fuel cache.evictOne else cache

def touch (cache : Dcache) (d : Nat) : Dcache := { cache with lru := d :: cache.lru.erase d }

structure Found where
  found : Bool
  negative : Bool
  vnode : Nat
  deriving DecidableEq, Repr

section Hash

variable (hash : FileName → Nat)

def lookup (cache : Dcache) (path : FileName) : Found × Dcache :=
  match cache.findEntry path (hash path) with
  | none => (⟨false, false, 0⟩, cache)
  | some d => (⟨true, (cache.dentries d).negative, (cache.dentries d).vnode⟩, cache.touch d)

/-- `insert_common`, given what the slab returns and whether there is room for a
node of the index. -/
def insertCommon (cache : Dcache) (path : FileName) (vnode : Nat) (negative : Bool)
    (slab : Option Nat) (room : Bool) : Dcache :=
  let h := hash path
  match cache.findEntry path h with
  | some existing =>
    { cache with
      dentries := update cache.dentries existing
        { cache.dentries existing with vnode := vnode, negative := negative } }.touch existing
  | none =>
    let cache := makeRoom cache.lru.length cache
    match slab with
    | none => cache
    | some d =>
      let cache :=
        { cache with
          allocated := update cache.allocated d true
          dentries := update cache.dentries d ⟨path.take 255, vnode, negative, h⟩ }
      match cache.index.put h d room with
      | none => { cache with allocated := update cache.allocated d false }
      | some index =>
        { cache with index := index, lru := d :: cache.lru, entries := u32 (cache.entries + 1) }

def invalidate (cache : Dcache) (path : FileName) : Dcache :=
  match cache.findEntry path (hash path) with
  | none => cache
  | some d => (cache.discard d (hash path)).countDown

def discardAll : List Nat → Dcache → Dcache
  | [], cache => cache
  | d :: rest, cache => discardAll rest (cache.discard d (cache.dentries d).hash)

def flush (cache : Dcache) : Dcache := { discardAll cache.lru cache with entries := 0 }

inductive Call where
  | insert (path : FileName) (vnode : Nat) (slab : Option Nat) (room : Bool)
  | insertNegative (path : FileName) (slab : Option Nat) (room : Bool)
  | lookup (path : FileName)
  | invalidate (path : FileName)
  | flush
  deriving DecidableEq, Repr

def perform (cache : Dcache) : Call → Dcache
  | .insert path vnode slab room => cache.insertCommon hash path vnode false slab room
  | .insertNegative path slab room => cache.insertCommon hash path 0 true slab room
  | .lookup path => (cache.lookup hash path).2
  | .invalidate path => cache.invalidate hash path
  | .flush => cache.flush

def performAll (cache : Dcache) (calls : List Call) : Dcache := calls.foldl (perform hash) cache

def Call.Valid (cache : Dcache) : Call → Prop
  | .insert path _ slab _ | .insertNegative path slab _ =>
    path.length < 256 ∧ ∀ d, slab = some d → (makeRoom cache.lru.length cache).allocated d = false
  | .lookup path | .invalidate path => path.length < 256
  | .flush => True

def ValidRun : Dcache → List Call → Prop
  | _, [] => True
  | cache, call :: calls => call.Valid cache ∧ ValidRun (cache.perform hash call) calls

def Call.Affects (path : FileName) : Call → Bool
  | .insert other _ _ _ | .insertNegative other _ _ | .invalidate other => other = path
  | .lookup _ => false
  | .flush => true

def Call.stores : Call → Option (Nat × Bool)
  | .insert _ vnode _ _ => some (vnode, false)
  | .insertNegative _ _ _ => some (0, true)
  | .lookup _ | .invalidate _ | .flush => none

def lastAffecting (calls : List Call) (path : FileName) : Option Call :=
  calls.reverse.find? (Call.Affects path)

def latest (calls : List Call) (path : FileName) : Option (Nat × Bool) :=
  (lastAffecting calls path).bind Call.stores

end Hash

variable {hash : FileName → Nat} {cache : Dcache} {stored : FileName → Option (Nat × Bool)}
  {path : FileName} {d key : Nat}

structure Indexed (hash : FileName → Nat) (stored : FileName → Option (Nat × Bool))
    (cache : Dcache) (key d : Nat) : Prop where
  listed : d ∈ cache.lru
  hash_eq : (cache.dentries d).hash = key
  path_hash : hash (cache.dentries d).path = key
  latest : stored (cache.dentries d).path =
    some ((cache.dentries d).vnode, (cache.dentries d).negative)

/-- The list and the index of the cache, apart from the count. -/
structure Consistent (hash : FileName → Nat) (stored : FileName → Option (Nat × Bool))
    (cache : Dcache) : Prop where
  distinct : cache.lru.Nodup
  allocated : ∀ d ∈ cache.lru, cache.allocated d = true
  indexed : ∀ key d, cache.index.get key = some d → cache.Indexed hash stored key d

structure Sound (hash : FileName → Nat) (stored : FileName → Option (Nat × Bool))
    (cache : Dcache) : Prop extends Consistent hash stored cache where
  entries_eq : cache.entries = cache.lru.length
  bounded : cache.lru.length ≤ cache.capacity
  capacity_pos : 1 ≤ cache.capacity
  capacity_lt : cache.capacity < 2 ^ 32

lemma findEntry_eq_some_iff : cache.findEntry path key = some d ↔
    cache.index.get key = some d ∧ (cache.dentries d).path = path := by
  rw [findEntry]
  cases hf : cache.index.get key with
  | none => simp
  | some =>
    dsimp only
    split
    case isTrue eq =>
      simp only [Option.some.injEq]
      constructor
      · rintro rfl
        exact ⟨rfl, eq⟩
      · exact fun facts => facts.1
    case isFalse ne =>
      simp only [Option.some.injEq, reduceCtorEq, false_iff, not_and]
      rintro rfl
      exact ne

namespace Consistent

variable (agree : Consistent hash stored cache)
include agree

lemma forget (missing : cache.findEntry path (hash path) = none) (val : Option (Nat × Bool)) :
    Consistent hash (update stored path val) cache where
  __ := agree
  indexed key d found := by
    have indexed := agree.indexed key d found
    have otherPath : (cache.dentries d).path ≠ path := by
      intro eq
      have keyEq := indexed.path_hash
      rw [eq] at keyEq
      rw [findEntry_eq_some_iff.mpr ⟨keyEq ▸ found, eq⟩] at missing
      cases missing
    exact { indexed with latest := by rw [update_of_ne otherPath, indexed.latest] }

lemma discard (keyed : (cache.dentries d).hash = key) :
    Consistent hash stored (cache.discard d key) where
  distinct := agree.distinct.erase d
  allocated other listed := by
    obtain ⟨ne, old⟩ := agree.distinct.mem_erase_iff.mp listed
    exact (update_of_ne ne false cache.allocated).trans (agree.allocated other old)
  indexed otherKey other found := by
    have update : (cache.discard d key).index.get = update cache.index.get key none :=
      Hashtable.get_remove
    rw [update] at found
    by_cases sameKey : otherKey = key
    · rw [sameKey, update_self] at found
      cases found
    rw [update_of_ne sameKey] at found
    have indexed := agree.indexed otherKey other found
    have ne : other ≠ d := by
      rintro rfl
      exact sameKey (indexed.hash_eq.symm.trans keyed)
    exact
      { listed := agree.distinct.mem_erase_iff.mpr ⟨ne, indexed.listed⟩
        __ := indexed
        latest := indexed.latest }

lemma touch (listed : d ∈ cache.lru) : Consistent hash stored (cache.touch d) := by
  have perm : (cache.touch d).lru.Perm cache.lru := (perm_cons_erase listed).symm
  exact
    { distinct := perm.nodup_iff.mpr agree.distinct
      allocated := fun o mem => agree.allocated o (perm.mem_iff.mp mem)
      indexed := fun key o hf =>
        { agree.indexed key o hf with
          listed := perm.mem_iff.mpr (agree.indexed key o hf).listed } }

lemma assign (hf : cache.index.get (hash path) = some d)
    (named : (cache.dentries d).path = path) (vnode : Nat) (negative : Bool) :
      Consistent hash (update stored path (some (vnode, negative)))
        { cache with
          dentries := update cache.dentries d
            { cache.dentries d with vnode := vnode, negative := negative } } where
  __ := agree
  indexed otherKey other otherFound := by
    have indexed := agree.indexed otherKey other otherFound
    by_cases eq : other = d
    · subst eq
      constructor
      case listed => exact indexed.listed
      all_goals simp only [update_self]
      case hash_eq => exact indexed.hash_eq
      case path_hash => exact indexed.path_hash
      case latest => rw [named, update_self]
    have otherPath : (cache.dentries other).path ≠ path := by
      intro samePath
      have keyEq := indexed.path_hash
      rw [samePath] at keyEq
      rw [← keyEq, hf] at otherFound
      exact eq (Option.some.inj otherFound).symm
    constructor
    case listed => exact indexed.listed
    all_goals simp only [update_of_ne eq]
    case hash_eq => exact indexed.hash_eq
    case path_hash => exact indexed.path_hash
    case latest => rw [update_of_ne otherPath, indexed.latest]

lemma unlisted (free : cache.allocated d = false) : d ∉ cache.lru := by
  intro mem
  rw [agree.allocated d mem] at free
  cases free

lemma overwrite (out : d ∉ cache.lru) (dentry : Dentry) (allocated : Bool) : Consistent hash stored
      { cache with
        allocated := update cache.allocated d allocated
        dentries := update cache.dentries d dentry } where
  distinct := agree.distinct
  allocated other listed := by
    have ne : other ≠ d := fun eq => out (eq ▸ listed)
    exact (update_of_ne ne ..).trans (agree.allocated other listed)
  indexed key other found := by
    have indexed := agree.indexed key other found
    have ne : other ≠ d := fun eq => out (eq ▸ indexed.listed)
    constructor
    case listed => exact indexed.listed
    all_goals simp only [update_of_ne ne]
    case hash_eq => exact indexed.hash_eq
    case path_hash => exact indexed.path_hash
    case latest => exact indexed.latest

lemma add {index : Hashtable Nat} (out : d ∉ cache.lru) (ht : cache.allocated d = true)
    (put : index.get = update cache.index.get key (some d)) (keyed : (cache.dentries d).hash = key)
    (hashed : hash (cache.dentries d).path = key) (latest : stored (cache.dentries d).path =
        some ((cache.dentries d).vnode, (cache.dentries d).negative)) :
      Consistent hash stored { cache with index := index, lru := d :: cache.lru } where
  distinct := nodup_cons.mpr ⟨out, agree.distinct⟩
  allocated other listed := by
    rcases mem_cons.mp listed with rfl | old
    · exact ht
    · exact agree.allocated other old
  indexed otherKey other found := by
    rw [put] at found
    by_cases sameKey : otherKey = key
    · rw [sameKey, update_self] at found
      cases found
      rw [sameKey]
      exact ⟨mem_cons_self, keyed, hashed, latest⟩
    rw [update_of_ne sameKey] at found
    have indexed := agree.indexed otherKey other found
    exact { indexed with listed := mem_cons_of_mem d indexed.listed }

lemma withEntries (entries : Nat) : Consistent hash stored { cache with entries := entries } where
  __ := agree
  indexed key d found :=
    { listed := (agree.indexed key d found).listed
      hash_eq := (agree.indexed key d found).hash_eq
      path_hash := (agree.indexed key d found).path_hash
      latest := (agree.indexed key d found).latest }

lemma discardAll {rest : List Nat} : Consistent hash stored (Dcache.discardAll rest cache) := by
  induction rest generalizing cache with
  | nil => exact agree
  | cons _ _ ih => exact ih (agree.discard rfl)

end Consistent

variable {rest : List Nat} {cap : Nat} {calls : List Call}

lemma lru_discardAll (all : cache.lru = rest) : (discardAll rest cache).lru = [] := by
  induction rest generalizing cache with
  | nil => exact all
  | cons d rest ih =>
    apply ih
    change cache.lru.erase d = rest
    rw [all, erase_cons_head]

lemma capacity_discardAll : (discardAll rest cache).capacity = cache.capacity := by
  induction rest generalizing cache with
  | nil => rfl
  | cons _ _ ih => exact ih

lemma length_evictOne (some : cache.lru ≠ []) :
    cache.evictOne.lru.length + 1 = cache.lru.length := by
  rw [evictOne, List.getLast?_eq_getLast_of_ne_nil some]
  exact length_erase_add_one (getLast_mem some)

namespace Sound

variable (hs : Sound hash stored cache)
include hs

lemma of_consistent {other : FileName → Option (Nat × Bool)}
    (agree : Consistent hash other cache) : Sound hash other cache :=
  { hs with toConsistent := agree }

lemma discard (mem : d ∈ cache.lru) (keyed : (cache.dentries d).hash = key) :
    Sound hash stored (cache.discard d key).countDown := by
  have shorter : (cache.lru.erase d).length + 1 = cache.lru.length := length_erase_add_one mem
  have entriesEq := hs.entries_eq
  have bounded := hs.bounded
  have capLt := hs.capacity_lt
  constructor
  case toConsistent => exact (hs.toConsistent.discard keyed).withEntries _
  case entries_eq =>
    simp only [Dcache.countDown, Dcache.discard, u32]
    omega
  case bounded =>
    simp only [Dcache.countDown, Dcache.discard]
    omega
  case capacity_pos => exact hs.capacity_pos
  case capacity_lt => exact hs.capacity_lt

lemma evictOne : Sound hash stored cache.evictOne := by
  rw [Dcache.evictOne]
  cases last : cache.lru.getLast? with
  | none => exact hs
  | some => exact hs.discard (mem_of_getLast? last) rfl

lemma makeRoom {k : Nat} (enough : cache.lru.length ≤ k) :
    Sound hash stored (Dcache.makeRoom k cache) ∧
      (Dcache.makeRoom k cache).lru.length < (Dcache.makeRoom k cache).capacity := by
  have capPos := hs.capacity_pos
  induction k generalizing cache with
  | zero =>
    rw [Dcache.makeRoom]
    exact ⟨hs, by omega⟩
  | succ k ih =>
    have entriesEq := hs.entries_eq
    rw [Dcache.makeRoom]
    split
    case isTrue full =>
      have some : cache.lru ≠ [] := by
        intro none
        rw [none, length_nil] at entriesEq
        omega
      have shorter := length_evictOne some
      exact ih hs.evictOne (by omega) hs.evictOne.capacity_pos
    case isFalse => exact ⟨hs, by omega⟩

lemma touch (mem : d ∈ cache.lru) : Sound hash stored (cache.touch d) := by
  have perm : (cache.touch d).lru.Perm cache.lru := (perm_cons_erase mem).symm
  have entriesEq := hs.entries_eq
  have bounded := hs.bounded
  exact
    { hs.toConsistent.touch mem with
      entries_eq := entriesEq.trans perm.length_eq.symm
      bounded := perm.length_eq.trans_le bounded
      capacity_pos := hs.capacity_pos
      capacity_lt := hs.capacity_lt }

lemma lookup : Sound hash stored (cache.lookup hash path).2 := by
  rw [Dcache.lookup]
  cases hf : cache.findEntry path (hash path) with
  | none => exact hs
  | some d =>
    have indexed := hs.indexed _ d (findEntry_eq_some_iff.mp hf).1
    exact hs.touch indexed.listed

lemma invalidate : Sound hash (update stored path none) (cache.invalidate hash path) := by
  rw [Dcache.invalidate]
  cases hf : cache.findEntry path (hash path) with
  | none => exact hs.of_consistent (hs.toConsistent.forget hf none)
  | some d =>
    have indexed := hs.indexed _ d (findEntry_eq_some_iff.mp hf).1
    have discarded := hs.discard indexed.listed indexed.hash_eq
    have missing : (cache.discard d (hash path)).countDown.findEntry path (hash path) = none := by
      have removed : (cache.discard d (hash path)).countDown.index.get (hash path) = none :=
        (congrFun Hashtable.get_remove (hash path)).trans (update_self ..)
      rw [findEntry, removed]
    exact discarded.of_consistent (discarded.toConsistent.forget missing none)

lemma flush : Sound hash (fun _ => none) cache.flush := by
  have empty : cache.flush.lru = [] := lru_discardAll rfl
  have agree : Consistent hash stored (discardAll cache.lru cache) := hs.toConsistent.discardAll
  have capacityEq : cache.flush.capacity = cache.capacity := capacity_discardAll
  constructor
  case toConsistent =>
    constructor
    case distinct => exact agree.distinct
    case allocated => exact agree.allocated
    case indexed =>
      intro key d hf
      have listed : d ∈ cache.flush.lru := (agree.indexed key d hf).listed
      rw [empty] at listed
      cases listed
  case entries_eq => rw [empty]; rfl
  case bounded => rw [empty]; exact Nat.zero_le _
  case capacity_pos => rw [capacityEq]; exact hs.capacity_pos
  case capacity_lt => rw [capacityEq]; exact hs.capacity_lt

lemma insertCommon {vnode : Nat} {negative : Bool} {slab : Option Nat} {room : Bool}
    (short : path.length < 256)
    (free : ∀ d, slab = some d → (Dcache.makeRoom cache.lru.length cache).allocated d = false) :
    Sound hash (update stored path (some (vnode, negative)))
      (cache.insertCommon hash path vnode negative slab room) := by
  rw [Dcache.insertCommon]
  cases hf : cache.findEntry path (hash path) with
  | some existing =>
    obtain ⟨inIndex, named⟩ := findEntry_eq_some_iff.mp hf
    have indexed := hs.indexed _ existing inIndex
    have assigned : Sound hash (update stored path (some (vnode, negative)))
      { cache with
        dentries := update cache.dentries existing
          { cache.dentries existing with vnode := vnode, negative := negative } } :=
      { hs.toConsistent.assign inIndex named vnode negative with
        __ := hs
        capacity_lt := hs.capacity_lt }
    exact assigned.touch indexed.listed
  | none =>
    -- The path is not found, so the cache is sound for the new value before it is stored.
    have forgotten := hs.of_consistent (hs.toConsistent.forget hf (some (vnode, negative)))
    obtain ⟨roomy, fits⟩ := forgotten.makeRoom le_rfl
    cases slab with
    | none => exact roomy
    | some d =>
      have out := roomy.toConsistent.unlisted (free d rfl)
      have whole : path.take 255 = path := take_of_length_le (by omega)
      dsimp only
      rw [whole]
      cases put : (Dcache.makeRoom cache.lru.length cache).index.put (hash path) d room with
      | none =>
        have restored := roomy.toConsistent.overwrite out ⟨path, vnode, negative, hash path⟩ false
        simp only [update_idem]
        exact
          { restored with
            entries_eq := roomy.entries_eq
            bounded := roomy.bounded
            capacity_pos := roomy.capacity_pos
            capacity_lt := roomy.capacity_lt }
      | some =>
        have entriesEq := roomy.entries_eq
        have capLt := roomy.capacity_lt
        have filled := roomy.toConsistent.overwrite out ⟨path, vnode, negative, hash path⟩ true
        have added := filled.add out (update_self ..) (Hashtable.get_put put)
          (by simp only [update_self]) (by simp only [update_self])
          (by simp only [update_self])
        exact
          { added.withEntries _ with
            entries_eq := by
              simp only [length_cons]
              rw [u32_of_lt (by omega), entriesEq]
            bounded := by
              simp only [length_cons]
              omega
            capacity_pos := roomy.capacity_pos
            capacity_lt := roomy.capacity_lt }

lemma perform {c : Call} (valid : c.Valid cache) :
    Sound hash (fun path => if c.Affects path then c.stores else stored path)
      (cache.perform hash c) := by
  have updated : ∀ (c : Call) (path : FileName), (∀ o, c.Affects o = decide (path = o)) →
    (fun o => if c.Affects o then c.stores else stored o) = update stored path c.stores := by
    intro c path affects
    funext o
    by_cases eq : path = o
    · simp [affects, eq]
    · simp [affects, eq, Ne.symm eq]
  cases c with
  | insert path =>
    rw [updated _ path fun _ => rfl]
    exact hs.insertCommon valid.1 valid.2
  | insertNegative path =>
    rw [updated _ path fun _ => rfl]
    exact hs.insertCommon valid.1 valid.2
  | lookup =>
    simp only [Call.Affects, Bool.false_eq_true, if_false]
    exact hs.lookup
  | invalidate path =>
    rw [updated _ path fun _ => rfl]
    exact hs.invalidate
  | flush =>
    simp only [Call.Affects, Call.stores, if_true]
    exact hs.flush

end Sound

lemma sound_init (bounded : cap < 2 ^ 32) : Sound hash (fun _ => none) (init cap) where
  distinct := nodup_nil
  allocated _ listed := absurd listed not_mem_nil
  indexed _ _ found := by cases found
  entries_eq := rfl
  bounded := Nat.zero_le _
  capacity_pos := by
    simp only [init]
    split
    · omega
    · decide
  capacity_lt := by
    simp only [init]
    split
    · exact bounded
    · decide

lemma latest_append (calls : List Call) (c : Call) :
    latest (calls ++ [c]) = fun path => if c.Affects path then c.stores else latest calls path := by
  funext path
  rw [latest, lastAffecting, reverse_append, reverse_singleton, singleton_append, List.find?_cons]
  cases affects : c.Affects path with
  | true => rfl
  | false => rfl

lemma performAll_append (calls : List Call) (call : Call) :
    cache.performAll hash (calls ++ [call]) = (cache.performAll hash calls).perform hash call := by
  rw [performAll, performAll, foldl_append]
  rfl

lemma validRun_append {c : Call} (valid : ValidRun hash cache (calls ++ [c])) :
    ValidRun hash cache calls ∧ c.Valid (cache.performAll hash calls) := by
  induction calls generalizing cache with
  | nil => exact ⟨trivial, valid.1⟩
  | cons _ _ ih => exact ⟨⟨valid.1, (ih valid.2).1⟩, (ih valid.2).2⟩

lemma sound_performAll (bounded : cap < 2 ^ 32) (valid : ValidRun hash (init cap) calls) :
    Sound hash (latest calls) ((init cap).performAll hash calls) := by
  induction calls using List.reverseRecOn with
  | nil => exact sound_init bounded
  | append_singleton _ _ ih =>
    obtain ⟨pre, last⟩ := validRun_append valid
    rw [performAll_append, latest_append]
    exact (ih pre).perform last

/-- A path that is found has what was stored last, for any hash function and capacity. -/
theorem dcache_sound (hash : FileName → Nat) {cap : Nat} (bounded : cap < 2 ^ 32)
    {calls : List Call} (valid : ValidRun hash (init cap) calls) :
    (∀ path : FileName, path.length < 256 →
      (((init cap).performAll hash calls).lookup hash path).1.found = true →
      ∃ c, lastAffecting calls path = some c ∧ c.stores =
          some ((((init cap).performAll hash calls).lookup hash path).1.vnode,
            (((init cap).performAll hash calls).lookup hash path).1.negative)) ∧
      ((init cap).performAll hash calls).entries = ((init cap).performAll hash calls).lru.length ∧
      ((init cap).performAll hash calls).entries ≤ ((init cap).performAll hash calls).capacity ∧
      (∀ d ∈ ((init cap).performAll hash calls).lru,
        ((init cap).performAll hash calls).allocated d = true) ∧
      ∀ key d, ((init cap).performAll hash calls).index.get key = some d →
        ((init cap).performAll hash calls).allocated d = true := by
  have hs := sound_performAll bounded valid
  set cache := (init cap).performAll hash calls
  refine ⟨?_, hs.entries_eq, hs.entries_eq.trans_le hs.bounded, hs.allocated, ?_⟩
  · intro path short reported
    rw [lookup] at reported ⊢
    cases hf : cache.findEntry path (hash path) with
    | none =>
      rw [hf] at reported
      cases reported
    | some d =>
      obtain ⟨inIndex, named⟩ := findEntry_eq_some_iff.mp hf
      have stored := (hs.indexed _ d inIndex).latest
      rw [named] at stored
      exact Option.bind_eq_some_iff.mp stored
  intro key d hf
  exact hs.allocated d (hs.indexed key d hf).listed

def collidingCalls : List Call :=
  [.insert [97] 1 (some 0) true, .insert [98] 2 (some 1) true, .lookup [97], .invalidate [98]]

lemma collidingCalls_valid : ValidRun (fun _ => 5) (init 2) collidingCalls := by
  refine ⟨⟨by decide, ?_⟩, ⟨by decide, ?_⟩, (by decide : 1 < 256), (by decide : 1 < 256), trivial⟩
  · rintro d ⟨⟩
    decide +kernel
  rintro d ⟨⟩
  decide +kernel

theorem dcache_sound_collision : (∀ path : FileName, path.length < 256 →
    (((init 2).performAll (fun _ => 5) collidingCalls).lookup (fun _ => 5) path).1.found = true →
    ∃ c, lastAffecting collidingCalls path = some c ∧ c.stores =
        some ((((init 2).performAll (fun _ => 5) collidingCalls).lookup (fun _ => 5)
          path).1.vnode,
          (((init 2).performAll (fun _ => 5) collidingCalls).lookup (fun _ => 5)
            path).1.negative)) ∧
    ((init 2).performAll (fun _ => 5) collidingCalls).entries =
      ((init 2).performAll (fun _ => 5) collidingCalls).lru.length ∧
    ((init 2).performAll (fun _ => 5) collidingCalls).entries ≤
      ((init 2).performAll (fun _ => 5) collidingCalls).capacity ∧
    (∀ d ∈ ((init 2).performAll (fun _ => 5) collidingCalls).lru,
      ((init 2).performAll (fun _ => 5) collidingCalls).allocated d = true) ∧
    ∀ key d, ((init 2).performAll (fun _ => 5) collidingCalls).index.get key = some d →
      ((init 2).performAll (fun _ => 5) collidingCalls).allocated d = true :=
  dcache_sound (fun _ => 5) (by decide) collidingCalls_valid

end Dcache

end HnxKernel
