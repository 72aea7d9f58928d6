import Hnx.HnxfsFaults
import Hnx.HnxfsRuns
import Hnx.PathResolution

/-!
# Looking up HNXFS paths

A slot of the vnode cache is handed to another inode only when the cache is full.
-/

namespace HnxKernel

section

open Function Hnxfs Keeps
open HnxfsM

namespace Hnxfs

structure SameCache (pre after : Hnxfs) : Prop where
  sb : after.sb = pre.sb
  vnodes : after.vnodes = pre.vnodes
  vnodeInode : after.vnodeInode = pre.vnodeInode
  vnodeCount : after.vnodeCount = pre.vnodeCount
  steady : pre.Steady → after.Steady

lemma SameCache.refl (fs : Hnxfs) : fs.SameCache fs := ⟨rfl, rfl, rfl, rfl, id⟩

lemma SameCache.trans {fst snd third : Hnxfs} (left : fst.SameCache snd)
    (right : snd.SameCache third) : fst.SameCache third :=
  ⟨right.sb.trans left.sb, right.vnodes.trans left.vnodes, right.vnodeInode.trans left.vnodeInode,
    right.vnodeCount.trans left.vnodeCount, right.steady ∘ left.steady⟩

instance : IsPreorder Hnxfs SameCache where
  refl := SameCache.refl
  trans _ _ _ := SameCache.trans

lemma keepsCache_transfer : Keeps SameCache transfer := by
  intro fs
  refine ⟨rfl, rfl, rfl, rfl, ?_⟩
  intro h
  rw [transfer_eq h]
  exact h

lemma keepsCache_readBlock (blk : Nat) : Keeps SameCache (hnxfsReadBlock blk) :=
  keepsCache_transfer.bind fun _ =>
    ite (bind get fun _ => pure _) (pure _)

lemma keepsCache_writeBlock (blk : Nat) (buf : DiskBlock) :
    Keeps SameCache (hnxfsWriteBlock blk buf) := by
  have put : Keeps SameCache (modify fun fs => fs.putBlock blk buf : HnxfsM PUnit) :=
    fun fs => ⟨rfl, rfl, rfl, rfl, id⟩
  exact keepsCache_transfer.bind fun _ => ite (put.bind fun _ => pure _) (pure _)

variable {fs post : Hnxfs} {n s o : Nat}

lemma SameCache.cached (eq : fs.SameCache post) (n : Nat) : post.cached n = fs.cached n := by
  rw [Hnxfs.cached, eq.vnodeCount, eq.vnodeInode, Hnxfs.cached]

def CacheOk (fs : Hnxfs) : Prop := ∀ s, (fs.vnodes s).priv = fs.vnodeInode s

lemma CacheOk.of_sameCache (ok : fs.CacheOk) (eq : fs.SameCache post) : post.CacheOk := by
  intro s
  rw [eq.vnodes, eq.vnodeInode]
  exact ok s

structure Pinned (fs : Hnxfs) (slot num : Nat) : Prop where
  slot_lt : slot < fs.vnodeCount
  vnodeInode : fs.vnodeInode slot = num
  priv : (fs.vnodes slot).priv = num

lemma Pinned.of_sameCache (pinned : fs.Pinned s n) (eq : fs.SameCache post) : post.Pinned s n := by
  refine ⟨?_, ?_, ?_⟩
  · rw [eq.vnodeCount]
    exact pinned.slot_lt
  · rw [eq.vnodeInode]
    exact pinned.vnodeInode
  rw [eq.vnodes]
  exact pinned.priv

def Evicts (fs : Hnxfs) (slot num : Nat) : Prop :=
  fs.cached num = none ∧ 64 ≤ fs.vnodeCount ∧ num % 64 = slot

instance : Decidable (fs.Evicts s n) := inferInstanceAs (Decidable (_ ∧ _ ∧ _))

lemma priv_refreshed (o : Nat) : ((fs.refreshed s n).vnodes o).priv = (fs.vnodes o).priv := by
  rw [refreshed, setVnode]
  by_cases eq : o = s
  · subst eq
    simp [update_self]
  · simp [update_of_ne eq]

lemma claimed_vnodes : fs.claimed.vnodes = fs.vnodes := by
  rw [claimed]
  split <;> rfl

lemma claimed_vnodeInode : fs.claimed.vnodeInode = fs.vnodeInode := by
  rw [claimed]
  split <;> rfl

lemma vnodeCount_le_claimed : fs.vnodeCount ≤ fs.claimed.vnodeCount := by
  rw [claimed]
  split
  · exact Nat.le_succ _
  · exact le_rfl

lemma newSlot_lt : fs.newSlot n < fs.claimed.vnodeCount := by
  rw [newSlot, claimed]
  split
  · exact Nat.lt_succ_self _
  have := Nat.mod_lt n (show 64 > 0 by decide)
  omega

lemma CacheOk.claimed (ok : fs.CacheOk) : fs.claimed.CacheOk := by
  intro s
  rw [claimed_vnodes, claimed_vnodeInode]
  exact ok s

lemma CacheOk.refreshed (ok : fs.CacheOk) : (fs.refreshed s n).CacheOk := by
  intro o
  rw [priv_refreshed]
  exact ok o

lemma CacheOk.entered (ok : fs.CacheOk) : (fs.entered s n).CacheOk := by
  intro o
  by_cases eq : o = s
  · subst eq
    simp [Hnxfs.entered, setVnode]
  simp only [Hnxfs.entered, setVnode, update_of_ne eq]
  exact ok o

lemma Pinned.claimed (pinned : fs.Pinned s n) : fs.claimed.Pinned s n := by
  refine ⟨pinned.slot_lt.trans_le vnodeCount_le_claimed, ?_, ?_⟩
  · rw [claimed_vnodeInode]
    exact pinned.vnodeInode
  rw [claimed_vnodes]
  exact pinned.priv

lemma Pinned.refreshed {place : Nat} (pinned : fs.Pinned s n) :
    (fs.refreshed place o).Pinned s n := by
  refine ⟨pinned.slot_lt, pinned.vnodeInode, ?_⟩
  rw [priv_refreshed]
  exact pinned.priv

lemma Pinned.entered {place : Nat} (pinned : fs.Pinned s n) (apart : s ≠ place) :
    (fs.entered place o).Pinned s n := by
  refine ⟨pinned.slot_lt, ?_, ?_⟩
  · simp only [Hnxfs.entered, update_of_ne apart]
    exact pinned.vnodeInode
  simp only [Hnxfs.entered, setVnode, update_of_ne apart]
  exact pinned.priv

lemma pinned_entered (slotLt : s < fs.vnodeCount) : (fs.entered s n).Pinned s n := by
  refine ⟨slotLt, ?_, ?_⟩
  · simp [Hnxfs.entered]
  · simp [Hnxfs.entered, setVnode]

lemma valid_or_invalid (fs : Hnxfs) (n : Nat) :
    (n ≠ 0 ∧ n < fs.sb.inodeCount) ∨ (n = 0 ∨ fs.sb.inodeCount ≤ n) := by
  omega

lemma CacheOk.getVnode (ok : fs.CacheOk) (h : fs.Steady) : (hnxfsGetVnode n fs).2.CacheOk := by
  rcases valid_or_invalid fs n with ⟨pos, numLt⟩ | invalid
  · cases hit : fs.cached n with
    | some =>
      rw [getVnode_cached h pos numLt hit]
      exact ok.refreshed
    | none =>
      rw [getVnode_uncached h pos numLt hit]
      exact ok.claimed.entered
  rcases getVnode_invalid invalid with ⟨s, -, run⟩ | ⟨-, run⟩
  · rw [run]
    exact ok
  rw [run]
  exact ok.claimed

lemma cached_some (hit : fs.cached n = some s) : s < fs.vnodeCount ∧ fs.vnodeInode s = n := by
  have mem := List.mem_of_find?_eq_some hit
  have recorded := List.find?_some hit
  exact ⟨List.mem_range.mp mem, of_decide_eq_true recorded⟩

lemma pinned_getVnode (ok : fs.CacheOk) (h : fs.Steady)
    (got : (hnxfsGetVnode n fs).1 = some s) : (hnxfsGetVnode n fs).2.Pinned s n := by
  have held : ∀ place, fs.cached n = some place → fs.Pinned place n := by
    intro place hit
    obtain ⟨placeLt, recorded⟩ := cached_some hit
    exact ⟨placeLt, recorded, (ok place).trans recorded⟩
  rcases valid_or_invalid fs n with ⟨pos, numLt⟩ | invalid
  · cases hit : fs.cached n with
    | some =>
      rw [getVnode_cached h pos numLt hit] at got ⊢
      cases got
      exact (held s hit).refreshed
    | none =>
      rw [getVnode_uncached h pos numLt hit] at got ⊢
      cases got
      exact pinned_entered newSlot_lt
  rcases getVnode_invalid invalid with ⟨place, hit, run⟩ | ⟨-, run⟩
  · rw [run] at got ⊢
    cases got
    exact held s hit
  rw [run] at got
  cases got

lemma Pinned.getVnode (pinned : fs.Pinned s n) (h : fs.Steady)
    (keeps : ¬ fs.Evicts s o) : (hnxfsGetVnode o fs).2.Pinned s n := by
  rcases valid_or_invalid fs o with ⟨pos, otherLt⟩ | invalid
  · cases hit : fs.cached o with
    | some =>
      rw [getVnode_cached h pos otherLt hit]
      exact pinned.refreshed
    | none =>
      rw [getVnode_uncached h pos otherLt hit]
      apply pinned.claimed.entered
      intro eq
      rw [newSlot] at eq
      split at eq
      · exact absurd pinned.slot_lt (by omega)
      · exact keeps ⟨hit, by omega, eq.symm⟩
  rcases getVnode_invalid invalid with ⟨place, -, run⟩ | ⟨-, run⟩
  · rw [run]
    exact pinned
  rw [run]
  exact pinned.claimed

inductive CacheCall where
  | lookup (path : FileName)
  | create (dir : Nat) (name : FileName) (type : VnodeType) (outp : Bool)
  | unlink (dir : Nat) (name : FileName)
  | getVnode (num : Nat)

/-- The state before `hnxfs_get_vnode`, and the inode it is asked for. -/
def approach (fs : Hnxfs) : CacheCall → Option Nat × Hnxfs
  | .lookup path =>
    let reach := lookupFrom path.length hnxfsRootInode path fs
    (if reach.1 = 0 then none else some reach.1, reach.2)
  | .create dir name type outp =>
    let made := vCreate dir name type false fs
    (if made.1.1 = 0 ∧ outp then some (hnxfsAllocInode (hnxfsDirLookup dir name fs).2).1
      else none, made.2)
  | .unlink dir name => (none, (vUnlink dir name fs).2)
  | .getVnode n => (some n, fs)

def afterCall (fs : Hnxfs) : CacheCall → Hnxfs
  | .lookup path => (hnxfsLookup path fs).2
  | .create dir name type outp => (vCreate dir name type outp fs).2
  | .unlink dir name => (vUnlink dir name fs).2
  | .getVnode n => (hnxfsGetVnode n fs).2

lemma vCreate_outp (dir : Nat) (name : FileName) (type : VnodeType) (fs : Hnxfs) :
    (vCreate dir name type true fs).2 =
      if (vCreate dir name type false fs).1.1 = 0 then
        (hnxfsGetVnode (hnxfsAllocInode (hnxfsDirLookup dir name fs).2).1
          (vCreate dir name type false fs).2).2
      else (vCreate dir name type false fs).2 := by
  simp only [vCreate, bind_apply]
  by_cases pres : (hnxfsDirLookup dir name fs).1 = 0
  · simp only [pres, ne_eq, not_true, if_false, bind_apply]
    set afterLookup := (hnxfsDirLookup dir name fs).2
    by_cases full : (hnxfsAllocInode afterLookup).1 = 0
    · simp only [full, if_true, pure_apply]
      rfl
    simp only [if_neg full, bind_apply]
    set child := (hnxfsAllocInode afterLookup).1
    set allocated := (hnxfsAllocInode afterLookup).2
    by_cases wrote : (hnxfsWriteInode child (newInode type) allocated).1 = 0
    · simp only [wrote, not_true, if_false, bind_apply]
      set written := (hnxfsWriteInode child (newInode type) allocated).2
      by_cases added : (hnxfsDirAdd dir name child written).1 = 0
      · simp [added, bind_apply, pure_apply]
      simp only [added, not_false_iff, if_true, bind_apply, pure_apply]
      rfl
    simp only [wrote, not_false_iff, if_true, bind_apply, pure_apply]
    rfl
  simp only [ne_eq, pres, not_false_iff, if_true, pure_apply]
  rfl

lemma sameCache_approach (fs : Hnxfs) (c : CacheCall) : fs.SameCache (fs.approach c).2 := by
  cases c with
  | lookup => exact keeps_lookupFrom keepsCache_readBlock _ _ _ fs
  | create dir name type =>
    exact keeps_vCreate keepsCache_readBlock keepsCache_writeBlock dir name type fs
  | unlink dir name => exact keeps_vUnlink keepsCache_readBlock keepsCache_writeBlock dir name fs
  | getVnode => exact SameCache.refl fs

lemma afterCall_eq (fs : Hnxfs) (c : CacheCall) : fs.afterCall c =
    match (fs.approach c).1 with
    | none => (fs.approach c).2
    | some n => (hnxfsGetVnode n (fs.approach c).2).2 := by
  cases c with
  | lookup path =>
    simp only [afterCall, approach, hnxfsLookup, bind_apply]
    by_cases missing : (lookupFrom path.length hnxfsRootInode path fs).1 = 0
    · simp [if_pos missing, pure_apply]
    · simp [if_neg missing]
  | create dir name type outp =>
    cases outp with
    | false => simp [afterCall, approach]
    | true =>
      simp only [afterCall, approach, and_true]
      rw [vCreate_outp]
      by_cases made : (vCreate dir name type false fs).1.1 = 0
      · simp [if_pos made]
      · simp [if_neg made]
  | unlink => rfl
  | getVnode => rfl

def afterCalls (fs : Hnxfs) (calls : List CacheCall) : Hnxfs := calls.foldl afterCall fs

def KeepsSlot (slot : Nat) : Hnxfs → List CacheCall → Prop
  | _, [] => True
  | fs, call :: rest =>
    (∀ n ∈ (fs.approach call).1, ¬ fs.Evicts slot n) ∧ KeepsSlot slot (fs.afterCall call) rest

instance KeepsSlot.decidable (slot : Nat) :
    (fs : Hnxfs) → (calls : List CacheCall) → Decidable (KeepsSlot slot fs calls)
  | _, [] => isTrue trivial
  | fs, call :: rest =>
    have := KeepsSlot.decidable slot (fs.afterCall call) rest
    inferInstanceAs (Decidable (_ ∧ _))

lemma Pinned.afterCall {c : CacheCall} (pinned : fs.Pinned s n) (h : fs.Steady)
    (keeps : ∀ o ∈ (fs.approach c).1, ¬ fs.Evicts s o) : (fs.afterCall c).Pinned s n := by
  have same := sameCache_approach fs c
  rw [afterCall_eq]
  cases target : (fs.approach c).1 with
  | none => exact pinned.of_sameCache same
  | some o =>
    apply (pinned.of_sameCache same).getVnode (same.steady h)
    rintro ⟨miss, full, sameSlot⟩
    rw [same.cached] at miss
    rw [same.vnodeCount] at full
    exact keeps o target ⟨miss, full, sameSlot⟩

lemma steady_afterCall {c : CacheCall} (h : fs.Steady) : (fs.afterCall c).Steady := by
  have mid := (sameCache_approach fs c).steady h
  rw [afterCall_eq]
  cases (fs.approach c).1 with
  | none => exact mid
  | some => exact (sameVolume_getVnode mid).steady mid

lemma Pinned.afterCalls {cs : List CacheCall} (pinned : fs.Pinned s n)
    (h : fs.Steady) (keeps : KeepsSlot s fs cs) : (fs.afterCalls cs).Pinned s n := by
  induction cs generalizing fs with
  | nil => exact pinned
  | cons c r ih =>
    obtain ⟨keepsCall, keepsRest⟩ := keeps
    exact ih (pinned.afterCall h keepsCall) (steady_afterCall h) keepsRest

lemma CacheOk.afterCalls {cs : List CacheCall} (ok : fs.CacheOk) (h : fs.Steady) :
    (fs.afterCalls cs).CacheOk ∧ (fs.afterCalls cs).Steady := by
  induction cs generalizing fs with
  | nil => exact ⟨ok, h⟩
  | cons c r ih =>
    have same := sameCache_approach fs c
    have next : (fs.afterCall c).CacheOk := by
      rw [afterCall_eq]
      cases (fs.approach c).1 with
      | none => exact ok.of_sameCache same
      | some => exact (ok.of_sameCache same).getVnode (same.steady h)
    exact ih next (steady_afterCall h)

structure ActsOn (fs : Hnxfs) (slot num : Nat) : Prop where
  priv : (fs.vnodes slot).priv = num
  read : ∀ buf size offset, vRead slot buf size offset fs = hnxfsFileRead num buf size offset fs
  write : ∀ buf size offset,
    (vWrite slot buf size offset fs).1 = (hnxfsFileWrite num buf size offset fs).1 ∧
      (vWrite slot buf size offset fs).2.blocks = (hnxfsFileWrite num buf size offset fs).2.blocks

lemma actsOn_of_priv (priv : (fs.vnodes s).priv = n) : fs.ActsOn s n := by
  refine ⟨priv, ?_, ?_⟩
  · intro buf sz off
    rw [← priv]
    rfl
  intro buf sz off
  simp only [vWrite, bind_apply, get_apply, priv]
  have kept := (keeps_readInode sameDisk_readBlock n
    (hnxfsFileWrite n buf sz off fs).2).blocks
  cases read : (hnxfsReadInode n (hnxfsFileWrite n buf sz off fs).2).1 with
  | none => exact ⟨rfl, kept⟩
  | some => exact ⟨rfl, kept⟩

/-- A vnode acts on its inode as long as no later call hands the slot to another one. -/
theorem vnode_actsOn_of_run {earlier later : List CacheCall} (ok : fs.CacheOk)
    (h : fs.Steady) (got : (hnxfsGetVnode n (fs.afterCalls earlier)).1 = some s)
    (keeps : KeepsSlot s (hnxfsGetVnode n (fs.afterCalls earlier)).2 later) :
    ((hnxfsGetVnode n (fs.afterCalls earlier)).2.afterCalls later).ActsOn s n := by
  obtain ⟨midOk, midSteady⟩ := CacheOk.afterCalls ok h
  have gotSteady := (@sameVolume_getVnode _ n midSteady).steady midSteady
  exact actsOn_of_priv ((pinned_getVnode midOk midSteady got).afterCalls gotSteady keeps).priv

/-- The file of inode `2 + index` is named by the characters 97 and `128 + index`. -/
def manyFiles : Hnxfs where
  sb :=
    { inodeCount := 128
      inodeBitmapBlock := 1
      dataBitmapBlock := 2
      inodeTableBlock := 3
      inodeTableBlocks := 4
      dataBlockStart := 7
      dataBlockCount := 16 }
  blocks := fun blk addr =>
    if blk = 1 then if addr < 12 then 255 else if addr = 12 then 3 else 0
    else if blk = 2 then if addr = 0 then 7 else 0
    else if blk = 3 ∧ addr / 128 = 1 then
      inodeBytes
        { newInode .dir with
          size := 3 * 4096, blocks := 3, direct := fun b => if b < 3 then 7 + b else 0 }
        (addr % 128)
    else if 3 ≤ blk ∧ blk < 7 then inodeBytes (newInode .file) (addr % 128)
    else if 7 ≤ blk ∧ blk < 10 then
      let idx := 32 * (blk - 7) + addr / 128
      if addr % 128 = 0 then UInt8.ofNat (2 + idx)
      else if addr % 128 = 8 then 97
      else if addr % 128 = 9 then UInt8.ofNat (128 + idx)
      else 0
    else 0
  faults := []
  vnodes := fun _ => ⟨.file, 0, 0⟩
  vnodeInode := fun _ => 0
  vnodeCount := 0

def lookups (indices : List Nat) : List CacheCall :=
  indices.map fun idx => .lookup [slash, 97, UInt8.ofNat (128 + idx)]

theorem manyFiles_actsOn : (hnxfsGetVnode 4 (manyFiles.afterCalls (lookups [0, 1]))).1 = some 2 ∧
    ((hnxfsGetVnode 4 (manyFiles.afterCalls (lookups [0, 1]))).2.afterCalls
      (lookups [5, 2])).ActsOn 2 4 := by
  have got : (hnxfsGetVnode 4 (manyFiles.afterCalls (lookups [0, 1]))).1 = some 2 := by
    decide +kernel
  exact ⟨got, vnode_actsOn_of_run (fun _ => rfl) rfl got (by decide +kernel)⟩

def fillingCalls : List CacheCall := (List.range' 5 61).map .getVnode ++ lookups [64]

/-- The file of inode 66 takes the slot of inode 4. -/
theorem manyFiles_not_actsOn :
    (hnxfsGetVnode 4 (manyFiles.afterCalls (lookups [0, 1]))).1 = some 2 ∧
      (((hnxfsGetVnode 4 (manyFiles.afterCalls (lookups [0, 1]))).2.afterCalls
        fillingCalls).vnodes 2).priv = 66 ∧
      ¬ ((hnxfsGetVnode 4 (manyFiles.afterCalls (lookups [0, 1]))).2.afterCalls
        fillingCalls).ActsOn 2 4 := by
  have ht : (((hnxfsGetVnode 4 (manyFiles.afterCalls (lookups [0, 1]))).2.afterCalls
    fillingCalls).vnodes 2).priv = 66 := by
    decide +kernel
  refine ⟨by decide +kernel, ht, ?_⟩
  intro acts
  rw [acts.priv] at ht
  exact absurd ht (by decide)

end Hnxfs

end

open List HnxfsM

def pathParts (path : FileName) : List FileName := (path.splitOn slash).filter (· ≠ [])

/-- Zero if a component is no entry of its directory. -/
def walkParts (g : Image) : Nat → List FileName → Nat
  | dir, [] => dir
  | dir, part :: parts =>
    if part.length < 120 ∧ g.lookup dir part ≠ 0 then walkParts g (g.lookup dir part) parts else 0

variable {path part rest : FileName} {parts : List FileName} {fs : Hnxfs} {dir fuel : Nat}

lemma pathParts_append (path rest : FileName) :
    pathParts (path ++ slash :: rest) = pathParts path ++ pathParts rest := by
  have hs : (path ++ slash :: rest).splitOn slash = path.splitOn slash ++ rest.splitOn slash :=
    splitOnP_append_cons path rest (beq_self_eq_true slash)
  rw [pathParts, hs, filter_append]
  rfl

lemma pathParts_nil : pathParts [] = [] := by
  rw [pathParts, splitOn_eq_singleton not_mem_nil]
  rfl

lemma pathParts_dropWhile : pathParts (path.dropWhile (· = slash)) = pathParts path := by
  induction path with
  | nil => rfl
  | cons char path ih =>
    by_cases isSlash : char = slash
    · rw [dropWhile_cons_of_pos (by simpa using isSlash), ih, isSlash]
      exact (pathParts_append [] path).symm
    · rw [dropWhile_cons_of_neg (by simpa using isSlash)]

lemma pathParts_part (ne : part ≠ []) (noSlash : slash ∉ part)
    (ends : rest = [] ∨ rest.head? = some slash) :
    pathParts (part ++ rest) = part :: pathParts rest := by
  have single : pathParts part = [part] := by
    rw [pathParts, splitOn_eq_singleton noSlash]
    simp [ne]
  cases rest with
  | nil => rw [append_nil, single, pathParts_nil]
  | cons char rest =>
    obtain rfl : char = slash := by simpa using ends
    rw [pathParts_append, single, ← nil_append (slash :: rest), pathParts_append, pathParts_nil]
    rfl

/-- A component as `hnxfs_lookup` cuts it up. -/
def partPieces (part : FileName) : List FileName :=
  if part = [] then [] else part.take 119 :: partPieces (part.drop 119)
termination_by part.length
decreasing_by
  rename_i ne
  rw [length_drop]
  have := length_pos_iff.mpr ne
  omega

def pathPieces (path : FileName) : List FileName := (pathParts path).flatMap partPieces

lemma partPieces_nil : partPieces [] = [] := by
  rw [partPieces, if_pos rfl]

lemma partPieces_of_ne (ne : part ≠ []) : partPieces part = part.take 119 ::
    partPieces (part.drop 119) := by
  rw [partPieces, if_neg ne]

lemma pathPieces_part (noSlash : slash ∉ part) (ends : rest = [] ∨ rest.head? = some slash) :
    pathPieces (part ++ rest) = partPieces part ++ pathPieces rest := by
  by_cases ne : part = []
  · rw [ne, nil_append, partPieces_nil, nil_append]
  · rw [pathPieces, pathParts_part ne noSlash ends, flatMap_cons, pathPieces]

lemma pathParts_ne_nil (mem : part ∈ pathParts path) : part ≠ [] := by
  simpa using (mem_filter.mp mem).2

lemma pathPieces_of_short (short : ∀ part ∈ pathParts path, part.length < 120) :
    pathPieces path = pathParts path := by
  have whole : ∀ part ∈ pathParts path, partPieces part = [part] := by
    intro part mem
    have le : part.length ≤ 119 := Nat.le_of_lt_succ (short part mem)
    rw [partPieces_of_ne (pathParts_ne_nil mem), take_of_length_le le, drop_of_length_le le,
      partPieces_nil]
  rw [pathPieces, flatMap_congr whole, flatMap_singleton']

lemma walkParts_long (g : Image) (mem : part ∈ parts) (long : ¬ part.length < 120) (dir : Nat) :
    walkParts g dir parts = 0 := by
  induction parts generalizing dir with
  | nil => cases mem
  | cons _ _ ih =>
    rw [walkParts]
    split_ifs with hf
    · rcases mem_cons.mp mem with rfl | mem
      · exact absurd hf.1 long
      · exact ih mem _
    · rfl

namespace Hnxfs

/-- A volume in use: also the entries `.` and `..` name inodes in use. -/
structure Mounted (fs : Hnxfs) : Prop where
  wf : fs.WellFormed
  steady : fs.Steady
  cacheOk : fs.CacheOk
  dots : ∀ dir (name : FileName), fs.image.InUse dir → name.Dots → fs.image.lookup dir name ≠ 0 →
    fs.image.InUse (fs.image.lookup dir name)

lemma Mounted.lookup (mounted : fs.Mounted) (hu : fs.image.InUse dir)
    (ne0 : (0 : UInt8) ∉ part) (hf : fs.image.lookup dir part ≠ 0) :
    fs.image.InUse (fs.image.lookup dir part) := by
  by_cases dots : part.Dots
  · exact mounted.dots dir part hu dots hf
  obtain ⟨b, s, -, -, entry, -⟩ := Image.lookup_ne_zero hu ne0 dots hf
  exact (mounted.wf.entry_used dir b s _ entry).2

lemma Mounted.lookupFrom (mounted : fs.Mounted) (hu : fs.image.InUse dir)
    (ne0 : (0 : UInt8) ∉ path) (enough : path.length ≤ fuel) :
    HnxKernel.lookupFrom fuel dir path fs = (walkParts fs.image dir (pathPieces path), fs) ∧
    (walkParts fs.image dir (pathPieces path) ≠ 0 →
      fs.image.InUse (walkParts fs.image dir (pathPieces path))) := by
  induction fuel generalizing dir path with
  | zero =>
    obtain rfl : path = [] := length_eq_zero_iff.mp (Nat.le_zero.mp enough)
    rw [pathPieces, pathParts_nil]
    exact ⟨rfl, fun _ => hu⟩
  | succ fuel ih =>
    rw [pathPieces, ← pathParts_dropWhile, ← pathPieces]
    have restNe0 : (0 : UInt8) ∉ path.dropWhile (· = slash) :=
      fun mem => ne0 ((dropWhile_suffix _).subset mem)
    have restLe : (path.dropWhile (· = slash)).length ≤ path.length :=
      (dropWhile_suffix _).length_le
    rw [HnxKernel.lookupFrom]
    by_cases none : (path.dropWhile (· = slash)).takeWhile (· ≠ slash) = []
    · rw [none, take_nil, if_pos rfl, eq_nil_of_takeWhile none, pathPieces, pathParts_nil]
      exact ⟨rfl, fun _ => hu⟩
    obtain ⟨whole, noSlash, ends⟩ := firstPart_takeWhile (path.dropWhile (· = slash))
    set rest := path.dropWhile (· = slash)
    set part := rest.takeWhile (· ≠ slash)
    set next := rest.drop part.length
    rw [whole, pathPieces_part noSlash ends, partPieces_of_ne none, cons_append]
    rw [whole] at restNe0
    have pos := length_pos_iff.mpr none
    have pieceNe : part.take 119 ≠ [] := by
      rw [← length_pos_iff, length_take]
      omega
    have pieceShort : (part.take 119).length < 120 := Nat.lt_succ_of_le (length_take_le ..)
    have pieceNe0 : (0 : UInt8) ∉ part.take 119 :=
      fun mem => restNe0 (mem_append_left _ (mem_of_mem_take mem))
    have left : (part ++ next).drop (part.take 119).length = part.drop 119 ++ next := by
      rw [length_take, drop_append]
      rcases le_total 119 part.length with le | le
      · rw [min_eq_left le, Nat.sub_eq_zero_of_le le, drop_zero]
      · rw [min_eq_right le, Nat.sub_self, drop_zero, drop_length, drop_of_length_le le]
    rw [if_neg pieceNe, walkParts, left, bind_apply, mounted.wf.dirLookup_eq mounted.steady hu]
    dsimp only
    by_cases missing : fs.image.lookup dir (part.take 119) = 0
    · rw [if_pos missing, if_neg (fun hf => hf.2 missing)]
      exact ⟨rfl, absurd rfl⟩
    have nextLe : (part.drop 119 ++ next).length ≤ fuel := by
      have := congrArg length whole
      rw [length_append] at this
      rw [length_append, length_drop]
      omega
    have inside : ∀ char ∈ part.drop 119, char ∈ part := fun _ => mem_of_mem_drop
    rw [if_neg missing, if_pos ⟨pieceShort, missing⟩,
      ← pathPieces_part (fun mem => noSlash (inside _ mem)) ends]
    refine ih (mounted.lookup hu pieceNe0 missing) (fun mem => restNe0 ?_) nextLe
    rcases mem_append.mp mem with mem | mem
    · exact mem_append_left _ (inside _ mem)
    · exact mem_append_right _ mem

def LookupCorrect (fs : Hnxfs) (rel : FileName) : Prop :=
  let found := walkParts fs.image hnxfsRootInode (pathParts rel)
  (found = 0 → (hnxfsLookup rel fs).1 = none) ∧ (found ≠ 0 →
    ∃ slot, (hnxfsLookup rel fs).1 = some slot ∧ ((hnxfsLookup rel fs).2.vnodes slot).priv = found)

/-- The lookup finds what the pieces of the components lead to. -/
lemma Mounted.lookup_cut (mounted : fs.Mounted) (ne0 : (0 : UInt8) ∉ path) :
    let found := walkParts fs.image hnxfsRootInode (pathPieces path)
    (found = 0 → (hnxfsLookup path fs).1 = none) ∧ (found ≠ 0 → ∃ slot,
      (hnxfsLookup path fs).1 = some slot ∧
        ((hnxfsLookup path fs).2.vnodes slot).priv = found) := by
  have r : fs.image.InUse hnxfsRootInode := ⟨le_rfl, mounted.wf.root_used⟩
  obtain ⟨hr, hu⟩ := mounted.lookupFrom r ne0 le_rfl
  rw [hnxfsLookup, bind_apply, hr]
  dsimp only
  set num := walkParts fs.image hnxfsRootInode (pathPieces path)
  constructor
  · intro missing
    rw [if_pos missing]
    rfl
  intro hf
  rw [if_neg hf]
  have pos := ne_zero_of_inUse (hu hf)
  have numLt := lt_of_inUse (hu hf)
  have got : ∃ slot, (hnxfsGetVnode num fs).1 = some slot := by
    cases hit : fs.cached num with
    | some slot => exact ⟨slot, by rw [getVnode_cached mounted.steady pos numLt hit]⟩
    | none => exact ⟨_, by rw [getVnode_uncached mounted.steady pos numLt hit]⟩
  obtain ⟨slot, got⟩ := got
  exact ⟨slot, got, (pinned_getVnode mounted.cacheOk mounted.steady got).priv⟩

/-- A lookup is correct exactly if every component fits in the buffer or the pieces of the
components lead nowhere. -/
theorem lookupCorrect_iff (mounted : fs.Mounted) (ne0 : (0 : UInt8) ∉ path) :
    fs.LookupCorrect path ↔ (∀ part ∈ pathParts path, part.length < 120) ∨
      walkParts fs.image hnxfsRootInode (pathPieces path) = 0 := by
  have cut := mounted.lookup_cut ne0
  by_cases hs : ∀ part ∈ pathParts path, part.length < 120
  · rw [pathPieces_of_short hs] at cut
    exact iff_of_true cut (.inl hs)
  rw [or_iff_right hs]
  push Not at hs
  obtain ⟨part, mem, long⟩ := hs
  have none := walkParts_long fs.image mem (not_lt.mpr long) hnxfsRootInode
  refine ⟨fun correct => ?_, fun missing => ⟨fun _ => cut.1 missing, absurd none⟩⟩
  by_contra found
  obtain ⟨slot, got, -⟩ := cut.2 found
  exact absurd ((correct.1 none).symm.trans got) (by simp)

/-- A volume with the directory `a`. -/
def oneDirectory : Hnxfs := (vCreate 1 [97] .dir false freshVolume).2

lemma oneDirectory_inUse (hu : oneDirectory.image.InUse n) : n = 1 ∨ n = 2 := by
  have numLt : n < 128 := lt_of_inUse hu
  have only : ∀ n < 128, 1 ≤ n → oneDirectory.image.inodeUsed n = true → n = 1 ∨ n = 2 := by
    decide +kernel
  exact only n numLt hu.1 hu.2

lemma oneDirectory_mounted : oneDirectory.Mounted := by
  have sound : oneDirectory.Sound := Sound.create ⟨freshVolume_wellFormed, freshVolume_steady⟩
    ⟨le_rfl, freshVolume_wellFormed.root_used⟩ (by decide) (by decide) _ _
  refine ⟨sound.wellFormed, sound.steady, fun _ => rfl, fun dir name hu dots found => ?_⟩
  have used : ∀ dir ∈ [1, 2], ∀ name ∈ [[46], [46, 46]], oneDirectory.image.lookup dir name ≠ 0 →
      1 ≤ oneDirectory.image.lookup dir name ∧
      oneDirectory.image.inodeUsed (oneDirectory.image.lookup dir name) = true := by
    decide +kernel
  exact used dir (by simpa using oneDirectory_inUse hu) name (by simpa [FileName.Dots] using dots)
      found

theorem lookupCorrect_oneDirectory :
    walkParts oneDirectory.image hnxfsRootInode (pathParts [97]) = 2 ∧
    oneDirectory.LookupCorrect [97] ∧ oneDirectory.LookupCorrect (replicate 130 98) := by
  have short := pathParts_part (by decide : ([97] : FileName) ≠ []) (by decide)
    (.inl rfl : ([] : FileName) = [] ∨ _)
  have cut : pathPieces (replicate 130 98) = [replicate 119 98, replicate 11 98] := by
    rw [← append_nil (replicate 130 98), pathPieces_part (by decide) (.inl rfl), pathPieces,
      pathParts_nil, partPieces_of_ne (by decide), partPieces_of_ne (by decide +kernel)]
    simp [partPieces_nil]
  refine ⟨?_, (lookupCorrect_iff oneDirectory_mounted (by decide)).mpr (.inl ?_),
    (lookupCorrect_iff oneDirectory_mounted (by decide +kernel)).mpr (.inr ?_)⟩
  · rw [← append_nil [97], short, pathParts_nil]
    decide +kernel
  · rw [← append_nil [97], short, pathParts_nil]
    decide
  · rw [cut]
    decide +kernel

/-- A directory and a file in it are found by one component of 120 characters. -/
theorem not_lookupCorrect_longName :
    let made := (vCreate 1 (replicate 119 97) .dir false freshVolume).2
    (vCreate 2 [98] .file false made).2.Sound ∧
      ¬ (vCreate 2 [98] .file false made).2.LookupCorrect (replicate 119 97 ++ [98]) := by
  intro made
  constructor
  · have h : made.Sound := Sound.create ⟨freshVolume_wellFormed, freshVolume_steady⟩
      ⟨le_rfl, freshVolume_wellFormed.root_used⟩ (by decide +kernel) (by decide +kernel) _ _
    exact h.create ⟨by decide, by decide +kernel⟩ (by decide) (by decide) _ _
  intro correct
  have parts := pathParts_part (by decide : (replicate 119 97 ++ [98] : FileName) ≠ [])
    (by decide +kernel) (.inl rfl : ([] : FileName) = [] ∨ _)
  rw [append_nil] at parts
  have long : ¬ (replicate 119 97 ++ [98] : FileName).length < 120 := by decide +kernel
  have found := correct.1 (walkParts_long _ (parts ▸ mem_cons_self) long _)
  exact absurd found (by decide +kernel)

end Hnxfs

end HnxKernel
