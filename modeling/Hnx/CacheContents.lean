import Hnx.Hnxfs
import Hnx.RadixTree

/-!
# Caches over a backing store

Both caches keep their blocks on a list and find them through a radix tree.
-/

namespace HnxKernel

section

open Function List RadixTree

inductive CacheStop where
  | hangs
  | freed
  deriving DecidableEq, Repr

structure BackingStore where
  contents : Nat → DiskBlock
  readFaults : List Bool
  writeFaults : List Bool
  refused : Nat → Bool

namespace BackingStore

variable {store : BackingStore} {num o : Nat} {data : DiskBlock}

def read (store : BackingStore) (num : Nat) : Option DiskBlock × BackingStore :=
  (if store.readFaults.headD false then none else some (store.contents num),
    { store with readFaults := store.readFaults.tail })

def write (store : BackingStore) (num : Nat) (data : DiskBlock) : Bool × BackingStore :=
  if store.writeFaults.headD false then
    (false, { store with
        writeFaults := store.writeFaults.tail
        refused := update store.refused num true })
  else
    (true, { store with
        writeFaults := store.writeFaults.tail
        contents := update store.contents num data })

lemma read_of_nil (accepts : store.readFaults = []) :
    store.read num = (some (store.contents num), store) := by
  cases store
  obtain rfl := accepts
  rfl

lemma write_of_nil (accepts : store.writeFaults = []) :
    store.write num data = (true, { store with contents := update store.contents num data }) := by
  cases store
  obtain rfl := accepts
  rfl

lemma accepted_of_write (ok : (store.write num data).2.refused o = false) :
    store.refused o = false := by
  rw [write] at ok
  split at ok
  case isFalse => exact ok
  case isTrue =>
    dsimp only at ok
    by_cases eq : o = num
    · rw [eq, update_self] at ok
      cases ok
    · rwa [update_of_ne eq] at ok

lemma write_of_accepted (ok : (store.write num data).2.refused num = false) :
    (store.write num data).1 = true ∧
      (store.write num data).2.contents = update store.contents num data := by
  rw [write] at ok ⊢
  split at ok
  case isFalse accepts =>
    rw [if_neg accepts]
    exact ⟨rfl, rfl⟩
  case isTrue =>
    dsimp only at ok
    rw [update_self] at ok
    cases ok

lemma write_other (ne : o ≠ num) : (store.write num data).2.contents o = store.contents o := by
  rw [write]
  split
  · rfl
  · exact update_of_ne ne ..

def zeros (writeFaults : List Bool) : BackingStore :=
  ⟨fun _ => zeroBlock, [], writeFaults, fun _ => false⟩

end BackingStore

structure Indexes (tree : RadixTree Nat) (lru : List Nat) (key : Nat → Nat) : Prop where
  distinct : lru.Nodup
  found : ∀ number n, tree.lookup number = some n ↔ n ∈ lru ∧ key n = number
  count : tree.count = lru.length

namespace Indexes

variable {t : RadixTree Nat} {lru : List Nat} {key : Nat → Nat} {n o num : Nat}
  {faults : List Bool}

lemma init (key : Nat → Nat) : Indexes init [] key where
  distinct := nodup_nil
  found num n := by simp
  count := rfl

section
variable (indexes : Indexes t lru key)
include indexes

lemma congr {label : Nat → Nat} (eq : ∀ n ∈ lru, label n = key n) : Indexes t lru label where
  __ := indexes
  found num n := by
    rw [indexes.found]
    constructor
    · rintro ⟨mem, keyed⟩
      exact ⟨mem, (eq n mem).trans keyed⟩
    rintro ⟨mem, keyed⟩
    exact ⟨mem, (eq n mem).symm.trans keyed⟩

section
variable (mem : n ∈ lru)
include mem

lemma lookup_key : t.lookup (key n) = some n := (indexes.found _ n).mpr ⟨mem, rfl⟩

lemma eq_of_key (otherMem : o ∈ lru) (eq : key n = key o) : n = o := by
  have found := indexes.lookup_key mem
  rw [eq, indexes.lookup_key otherMem] at found
  exact (Option.some.inj found).symm

lemma touch : Indexes t (n :: lru.erase n) key := by
  have perm : (n :: lru.erase n).Perm lru := (perm_cons_erase mem).symm
  exact
    { distinct := perm.nodup_iff.mpr indexes.distinct
      found := fun num o => by rw [indexes.found, perm.mem_iff]
      count := indexes.count.trans perm.length_eq.symm }

lemma remove : Indexes (t.remove (key n)) (lru.erase n) key where
  distinct := indexes.distinct.erase n
  found num o := by
    rw [lookup_remove.1, indexes.distinct.mem_erase_iff]
    by_cases sameKey : num = key n
    · rw [sameKey, update_self]
      simp only [reduceCtorEq, false_iff]
      rintro ⟨⟨ne, otherMem⟩, keyed⟩
      exact ne (indexes.eq_of_key otherMem mem keyed)
    rw [update_of_ne sameKey, indexes.found]
    constructor
    · rintro ⟨otherMem, keyed⟩
      refine ⟨⟨?_, otherMem⟩, keyed⟩
      rintro rfl
      exact sameKey keyed.symm
    rintro ⟨⟨-, otherMem⟩, keyed⟩
    exact ⟨otherMem, keyed⟩
  count := by
    rw [lookup_remove.2, indexes.lookup_key mem, Option.isSome_some, if_pos rfl,
      indexes.count, length_erase_of_mem mem]

end

lemma add (faults : List Bool) (fresh : n ∉ lru) (absent : t.lookup (key n) = none)
    (ok : (t.insert (key n) n faults).ok = true) :
      Indexes (t.insert (key n) n faults).tree (n :: lru) key where
  distinct := nodup_cons.mpr ⟨fresh, indexes.distinct⟩
  found num o := by
    rw [(lookup_insert ok).1, mem_cons]
    by_cases sameKey : num = key n
    · rw [sameKey, update_self, Option.some.injEq]
      constructor
      · rintro rfl
        exact ⟨.inl rfl, rfl⟩
      rintro ⟨rfl | otherListed, keyed⟩
      · rfl
      have found := indexes.lookup_key otherListed
      rw [keyed, absent] at found
      cases found
    rw [update_of_ne sameKey, indexes.found]
    constructor
    · rintro ⟨otherListed, keyed⟩
      exact ⟨.inr otherListed, keyed⟩
    rintro ⟨rfl | otherListed, keyed⟩
    · exact absurd keyed.symm sameKey
    · exact ⟨otherListed, keyed⟩
  count := by
    rw [(lookup_insert ok).2, absent, Option.isNone_none, if_pos rfl, indexes.count,
      length_cons]

lemma insert_failed (failed : (t.insert num n faults).ok = false) :
    Indexes (t.insert num n faults).tree lru key where
  distinct := indexes.distinct
  found o n := by rw [(lookup_insert_failed failed).1, indexes.found]
  count := (lookup_insert_failed failed).2.trans indexes.count

end

end Indexes

/-- The listed nodes are the allocated ones, and new nodes get new numbers. -/
structure Nodes (tree : RadixTree Nat) (lru : List Nat) (live : Nat → Bool) (next : Nat)
    (key : Nat → Nat) : Prop where
  indexes : Indexes tree lru key
  allocated : ∀ n, live n = true ↔ n ∈ lru
  older : ∀ n ∈ lru, n < next

namespace Nodes

variable {t : RadixTree Nat} {lru : List Nat} {live : Nat → Bool} {next : Nat}
  {key : Nat → Nat} {n : Nat}

lemma init (next : Nat) (key : Nat → Nat) : Nodes init [] (fun _ => false) next key where
  indexes := Indexes.init key
  allocated n := by simp
  older n listed := by cases listed

section
variable (ns : Nodes t lru live next key)
include ns

lemma fresh : next ∉ lru := fun mem => absurd (ns.older next mem) (lt_irrefl next)

lemma congr {label : Nat → Nat} (eq : ∀ n ∈ lru, label n = key n) : Nodes t lru live next label :=
  ⟨ns.indexes.congr eq, ns.allocated, ns.older⟩

lemma touch (listed : n ∈ lru) : Nodes t (n :: lru.erase n) live next key := by
  have perm : (n :: lru.erase n).Perm lru := (perm_cons_erase listed).symm
  exact
    { indexes := ns.indexes.touch listed
      allocated := fun o => (ns.allocated o).trans perm.mem_iff.symm
      older := fun o mem => ns.older o (perm.mem_iff.mp mem) }

lemma remove (listed : n ∈ lru) :
    Nodes (t.remove (key n)) (lru.erase n) (update live n false) next key where
  indexes := ns.indexes.remove listed
  allocated o := by
    rw [ns.indexes.distinct.mem_erase_iff]
    by_cases eq : o = n
    · simp [eq]
    · simp [eq, ns.allocated o]
  older o mem := ns.older o (mem_of_mem_erase mem)

lemma add (faults : List Bool) (absent : t.lookup (key next) = none)
    (ok : (t.insert (key next) next faults).ok = true) :
      Nodes (t.insert (key next) next faults).tree (next :: lru) (update live next true)
        (next + 1) key where
  indexes := ns.indexes.add faults ns.fresh absent ok
  allocated o := by
    rw [mem_cons]
    by_cases eq : o = next
    · simp [eq]
    · simp [eq, ns.allocated o]
  older o mem := by
    rcases mem_cons.mp mem with rfl | old
    · exact Nat.lt_succ_self _
    · exact Nat.lt_succ_of_lt (ns.older o old)

lemma insert_failed {num : Nat} {faults : List Bool}
    (failed : (t.insert num next faults).ok = false) :
      Nodes (t.insert num next faults).tree lru live (next + 1) key where
  indexes := ns.indexes.insert_failed failed
  allocated := ns.allocated
  older o mem := Nat.lt_succ_of_lt (ns.older o mem)

end

end Nodes

end

open Function List

structure CachedBlock where
  number : Nat
  data : DiskBlock
  dirty : Bool

structure Coherent (lru : List Nat) (block : Nat → CachedBlock)
    (contents latest : Nat → DiskBlock) : Prop where
  cached : ∀ n ∈ lru, (block n).data = latest (block n).number
  clean : ∀ n ∈ lru, (block n).dirty = false → contents (block n).number = latest (block n).number
  absent : ∀ num, (∀ n ∈ lru, (block n).number ≠ num) → contents num = latest num

namespace Coherent

variable {lru : List Nat} {b : Nat → CachedBlock} {contents latest : Nat → DiskBlock}
  {n num : Nat} {data : DiskBlock}

lemma init (b : Nat → CachedBlock) (contents : Nat → DiskBlock) : Coherent [] b contents contents :=
  ⟨fun _ hl => (not_mem_nil hl).elim, fun _ hl => (not_mem_nil hl).elim, fun _ _ => rfl⟩

lemma of_mem_iff (coh : Coherent lru b contents latest) {moved : List Nat}
    (eq : ∀ n, n ∈ moved ↔ n ∈ lru) : Coherent moved b contents latest where
  cached n hl := coh.cached n ((eq n).mp hl)
  clean n hl := coh.clean n ((eq n).mp hl)
  absent num none := coh.absent num fun n hl => none n ((eq n).mpr hl)

lemma congr (coh : Coherent lru b contents latest) {changed : Nat → CachedBlock}
    (eq : ∀ n ∈ lru, changed n = b n) : Coherent lru changed contents latest where
  cached n hl := by
    rw [eq n hl]
    exact coh.cached n hl
  clean n hl := by
    rw [eq n hl]
    exact coh.clean n hl
  absent num none := coh.absent num fun n hl => by
    rw [← eq n hl]
    exact none n hl

def flushed (contents : Nat → DiskBlock) (cached : CachedBlock) : Nat → DiskBlock :=
  if cached.dirty then update contents cached.number cached.data else contents

lemma flushed_self (coh : Coherent lru b contents latest) (hl : n ∈ lru) :
    flushed contents (b n) (b n).number = latest (b n).number := by
  rw [flushed]
  cases dirty : (b n).dirty with
  | true =>
    rw [if_pos rfl, update_self]
    exact coh.cached n hl
  | false =>
    rw [if_neg Bool.false_ne_true]
    exact coh.clean n hl dirty

lemma flushed_other (ne : num ≠ (b n).number) : flushed contents (b n) num = contents num := by
  rw [flushed]
  split
  · exact update_of_ne ne ..
  · rfl

section
variable (coh : Coherent lru b contents latest)
include coh

lemma remove {t : RadixTree Nat} (indexes : Indexes t lru fun n => (b n).number) (hl : n ∈ lru) :
    Coherent (lru.erase n) b (flushed contents (b n)) latest where
  cached other left := coh.cached other (mem_of_mem_erase left)
  clean other left isClean := by
    obtain ⟨ne, oMem⟩ := indexes.distinct.mem_erase_iff.mp left
    rw [flushed_other fun eq => ne (indexes.eq_of_key oMem hl eq)]
    exact coh.clean other oMem isClean
  absent num none := by
    by_cases eq : num = (b n).number
    · rw [eq]
      exact coh.flushed_self hl
    rw [flushed_other eq]
    refine coh.absent num fun other oMem => ?_
    by_cases sameNode : other = n
    · rw [sameNode]
      exact Ne.symm eq
    · exact none other (indexes.distinct.mem_erase_iff.mpr ⟨sameNode, oMem⟩)

lemma add (fresh : ∀ other ∈ lru, (b other).number ≠ (b n).number)
    (read : (b n).data = contents (b n).number) : Coherent (n :: lru) b contents latest where
  cached other hl := by
    rcases mem_cons.mp hl with rfl | old
    · exact read.trans (coh.absent _ fresh)
    · exact coh.cached other old
  clean other hl isClean := by
    rcases mem_cons.mp hl with rfl | old
    · exact coh.absent _ fresh
    · exact coh.clean other old isClean
  absent num none := coh.absent num fun other old => none other (mem_cons_of_mem n old)

lemma change {t : RadixTree Nat} (indexes : Indexes t lru fun n => (b n).number)
    (hl : n ∈ lru) (data : DiskBlock) : Coherent lru (update b n ⟨(b n).number, data, true⟩)
      contents
      (update latest (b n).number data) := by
  have others : ∀ o ∈ lru, o ≠ n → (b o).number ≠ (b n).number :=
    fun o oMem ne eq => ne (indexes.eq_of_key oMem hl eq)
  constructor
  case cached =>
    intro o oMem
    by_cases eq : o = n
    · rw [eq, update_self, update_self]
    rw [update_of_ne eq, update_of_ne (others o oMem eq)]
    exact coh.cached o oMem
  case clean =>
    intro o oMem isClean
    by_cases eq : o = n
    · rw [eq, update_self] at isClean
      cases isClean
    rw [update_of_ne eq] at isClean ⊢
    rw [update_of_ne (others o oMem eq)]
    exact coh.clean o oMem isClean
  case absent =>
    intro num none
    have ne : num ≠ (b n).number := by
      intro eq
      apply none n hl
      rw [update_self, eq]
    rw [update_of_ne ne]
    refine coh.absent num fun o oMem => ?_
    have absentOther := none o oMem
    by_cases eq : o = n
    · rw [eq]
      exact Ne.symm ne
    · rwa [update_of_ne eq] at absentOther

lemma flush {t : RadixTree Nat} (indexes : Indexes t lru fun n => (b n).number) (hl : n ∈ lru) :
    Coherent lru (update b n { b n with dirty := false })
      (flushed contents (b n)) latest := by
  constructor
  case cached =>
    intro o oMem
    by_cases eq : o = n
    · rw [eq, update_self]
      exact coh.cached n hl
    rw [update_of_ne eq]
    exact coh.cached o oMem
  case clean =>
    intro o oMem isClean
    by_cases eq : o = n
    · rw [eq, update_self]
      exact coh.flushed_self hl
    rw [update_of_ne eq] at isClean ⊢
    rw [flushed_other fun key => eq (indexes.eq_of_key oMem hl key)]
    exact coh.clean o oMem isClean
  case absent =>
    intro num none
    have unchanged : ∀ o ∈ lru, (b o).number ≠ num := by
      intro o oMem
      have absentOther := none o oMem
      by_cases eq : o = n
      · rw [eq, update_self] at absentOther
        rwa [eq]
      · rwa [update_of_ne eq] at absentOther
    rw [flushed_other (unchanged n hl).symm]
    exact coh.absent num unchanged

end

end Coherent

/-- `unsaved` holds what was changed and not written back since. -/
structure CacheView where
  block : Nat → CachedBlock
  store : BackingStore
  unsaved : Nat → Option DiskBlock

namespace CacheView

variable {view : CacheView} {lru hl : List Nat} {n num : Nat} {data : DiskBlock}

def flush (view : CacheView) (node : Nat) : CacheView :=
  let cached := view.block node
  if cached.dirty then
    let written := view.store.write cached.number cached.data
    { block := update view.block node { cached with dirty := false }
      store := written.2
      unsaved :=
        if written.1 then update view.unsaved cached.number none else view.unsaved }
  else
    view

lemma block_flush : (view.flush n).block = update view.block n
    { view.block n with dirty := false } := by
  rw [flush]
  split
  case isTrue => rfl
  case isFalse clean =>
    rw [Bool.not_eq_true] at clean
    rw [← clean]
    exact (update_eq_self n view.block).symm

lemma store_flush (accepts : view.store.writeFaults = []) : (view.flush n).store =
    { view.store with contents := Coherent.flushed view.store.contents (view.block n) } := by
  rw [flush, Coherent.flushed]
  split
  · rw [BackingStore.write_of_nil accepts]
  · rfl

lemma accepted_of_flush (ok : (view.flush n).store.refused num = false) :
    view.store.refused num = false := by
  rw [flush] at ok
  split at ok
  · exact BackingStore.accepted_of_write ok
  · exact ok

lemma flush_other (ne : num ≠ (view.block n).number) :
    (view.flush n).store.contents num = view.store.contents num ∧
      (view.flush n).unsaved num = view.unsaved num := by
  rw [flush]
  dsimp only
  split
  · refine ⟨BackingStore.write_other ne, ?_⟩
    split
    · exact update_of_ne ne ..
    · rfl
  · exact ⟨rfl, rfl⟩

lemma flush_dirty (dirty : (view.block n).dirty = true)
    (ok : (view.flush n).store.refused (view.block n).number = false) :
    (view.flush n).store.contents (view.block n).number = (view.block n).data ∧
      (view.flush n).unsaved (view.block n).number = none := by
  rw [flush] at ok ⊢
  rw [if_pos dirty] at ok ⊢
  obtain ⟨hw, contents⟩ := BackingStore.write_of_accepted ok
  dsimp only
  rw [contents, if_pos hw, update_self, update_self]
  exact ⟨rfl, rfl⟩

lemma flush_clean (clean : (view.block n).dirty = false) : view.flush n = view := by
  rw [flush]
  rw [clean, if_neg Bool.false_ne_true]

end CacheView

def Kept (lru : List Nat) (view : CacheView) (num : Nat) : Prop :=
  ∀ data, view.unsaved num = some data → ∃ n ∈ lru, view.block n = ⟨num, data, true⟩

namespace Kept

variable {view changed : CacheView} {lru moved : List Nat} {n num : Nat} {data : DiskBlock}

section
variable (kept : Kept lru view num)
include kept

lemma mono (mem : ∀ n ∈ lru, n ∈ moved) (eq : ∀ n ∈ lru, changed.block n = view.block n)
    (unsaved : changed.unsaved = view.unsaved) : Kept moved changed num := by
  intro data latest
  rw [unsaved] at latest
  obtain ⟨n, hl, cached⟩ := kept data latest
  exact ⟨n, mem n hl, (eq n hl).trans cached⟩

lemma flush (ok : (view.flush n).store.refused num = false) : Kept lru (view.flush n) num := by
  intro data latest
  cases dirty : (view.block n).dirty with
  | false =>
    rw [CacheView.flush_clean dirty] at latest ⊢
    exact kept data latest
  | true =>
    have ne : num ≠ (view.block n).number := by
      rintro rfl
      rw [(CacheView.flush_dirty dirty ok).2] at latest
      cases latest
    rw [(CacheView.flush_other ne).2] at latest
    obtain ⟨o, hl, cached⟩ := kept data latest
    have otherNode : o ≠ n := by
      rintro rfl
      rw [cached] at ne
      exact ne rfl
    refine ⟨o, hl, ?_⟩
    rw [CacheView.block_flush, update_of_ne otherNode]
    exact cached

lemma erase (clean : (view.block n).dirty = false) : Kept (lru.erase n) view num := by
  intro data latest
  obtain ⟨o, hl, cached⟩ := kept data latest
  have ne : o ≠ n := by
    rintro rfl
    rw [cached] at clean
    cases clean
  exact ⟨o, (mem_erase_of_ne ne).mpr hl, cached⟩

lemma change (hl : n ∈ lru)
    (b : changed.block = update view.block n ⟨(view.block n).number, data, true⟩)
    (unsaved : changed.unsaved = update view.unsaved (view.block n).number (some data)) :
    Kept lru changed num := by
  intro latestData latest
  rw [unsaved] at latest
  by_cases eq : num = (view.block n).number
  · rw [eq, update_self] at latest
    cases latest
    refine ⟨n, hl, ?_⟩
    rw [b, update_self, eq]
  rw [update_of_ne eq] at latest
  obtain ⟨o, oMem, cached⟩ := kept latestData latest
  have ne : o ≠ n := by
    rintro rfl
    rw [cached] at eq
    exact eq rfl
  refine ⟨o, oMem, ?_⟩
  rw [b, update_of_ne ne, cached]

lemma setDirty (b : changed.block = update view.block n { view.block n with dirty := true })
    (unsaved : changed.unsaved = view.unsaved) : Kept lru changed num := by
  intro data latest
  rw [unsaved] at latest
  obtain ⟨o, hl, cached⟩ := kept data latest
  refine ⟨o, hl, ?_⟩
  rw [b]
  by_cases eq : o = n
  · rw [← eq, update_self, cached]
  · rw [update_of_ne eq, cached]

end

end Kept

namespace CacheView

variable {view : CacheView} {hl : List Nat} {n num : Nat} {data : DiskBlock}

lemma accepted_of_foldl_flush (ok : (hl.foldl flush view).store.refused num = false) :
    view.store.refused num = false := by
  induction hl generalizing view with
  | nil => exact ok
  | cons _ _ ih => exact accepted_of_flush (ih ok)

lemma contents_foldl_other (others : ∀ o ∈ hl, (view.block o).number ≠ num) :
    (hl.foldl flush view).store.contents num = view.store.contents num := by
  induction hl generalizing view with
  | nil => rfl
  | cons fst _ ih =>
    have ne := (others fst mem_cons_self).symm
    rw [foldl_cons, ih, (flush_other ne).1]
    intro o mem
    rw [block_flush]
    by_cases eq : o = fst
    · rw [eq, update_self]
      exact ne.symm
    rw [update_of_ne eq]
    exact others o (mem_cons_of_mem fst mem)

lemma contents_foldl_flush (nodup : hl.Nodup) (mem : n ∈ hl)
    (cached : view.block n = ⟨num, data, true⟩)
    (unique : ∀ o ∈ hl, (view.block o).number = num → o = n)
    (ok : (hl.foldl flush view).store.refused num = false) :
    (hl.foldl flush view).store.contents num = data := by
  induction hl generalizing view with
  | nil => cases mem
  | cons fst hl ih =>
    obtain ⟨fresh, distinctRest⟩ := nodup_cons.mp nodup
    rw [foldl_cons] at ok ⊢
    by_cases eq : n = fst
    · obtain rfl := eq
      have acceptedFirst := accepted_of_foldl_flush ok
      have others : ∀ o ∈ hl, ((view.flush n).block o).number ≠ num := by
        intro o oMem numbered
        have ne := ne_of_mem_of_not_mem oMem fresh
        rw [block_flush, update_of_ne ne] at numbered
        exact ne (unique o (mem_cons_of_mem n oMem) numbered)
      have dirty : (view.block n).dirty = true := by rw [cached]
      have numbered : (view.block n).number = num := by rw [cached]
      rw [← numbered] at acceptedFirst
      rw [contents_foldl_other others, ← numbered, (flush_dirty dirty acceptedFirst).1, cached]
    refine ih distinctRest ((mem_cons.mp mem).resolve_left eq) ?_ ?_ ok
    · rw [block_flush, update_of_ne eq, cached]
    intro o oMem numbered
    apply unique o (mem_cons_of_mem fst oMem)
    rwa [block_flush, update_of_ne (ne_of_mem_of_not_mem oMem fresh)] at numbered

end CacheView

end HnxKernel
