import Hnx.UserSpaces

/-!
# Unmapping user memory

`user_unmap_range` frees the frame of every translation in its range.
-/

namespace HnxKernel

namespace FramePool

def freeFrames : List Nat → FramePool → Outcome FramePool Unit
  | [], pool => .ok () pool
  | f :: frames, pool =>
    match pool.freePage (f * pageSize) with
    | .ok _ next => freeFrames frames next
    | .error halt next => .error halt next

def release (frames : List Nat) (pool : FramePool) : FramePool :=
  { pool with used := fun f => pool.used f && !decide (f ∈ frames) }

variable {pool next : FramePool} {frames : List Nat} {f : Nat}

lemma release_nil (pool : FramePool) : release [] pool = pool := by simp [release]

lemma release_cons (f : Nat) (frames : List Nat) (pool : FramePool) :
    release frames { pool with used := Function.update pool.used f false } =
      release (f :: frames) pool := by
  simp only [release, FramePool.mk.injEq, true_and]
  ext1 o
  by_cases same : o = f
  · simp [same]
  · simp [same]

lemma release_used (frames : List Nat) (pool : FramePool) (f : Nat) :
    (release frames pool).used f = true ↔ pool.used f = true ∧ f ∉ frames := by
  simp [release]

lemma freeFrames_append (fst snd : List Nat) (pool : FramePool) : freeFrames (fst ++ snd) pool =
    match freeFrames fst pool with
    | .ok _ next => freeFrames snd next
    | .error halt next => .error halt next := by
  induction fst generalizing pool with
  | nil => rfl
  | cons f _ ih =>
    rw [List.cons_append, freeFrames, freeFrames]
    cases pool.freePage (f * pageSize) with
    | ok _ next => exact ih next
    | error => rfl

lemma freeFrames_of_owned (nodup : frames.Nodup)
    (ho : ∀ f ∈ frames, pool.Managed f ∧ pool.used f = true) :
    freeFrames frames pool = .ok () (release frames pool) := by
  induction frames generalizing pool with
  | nil => rw [freeFrames, release_nil]
  | cons f _ ih =>
    obtain ⟨notLater, restNodup⟩ := List.nodup_cons.mp nodup
    obtain ⟨hm, taken⟩ := ho f (by simp)
    rw [freeFrames, freePage_of_used hm taken, ← release_cons]
    apply ih restNodup
    intro o hl
    have ne : o ≠ f := by
      rintro rfl
      exact notLater hl
    obtain ⟨otherManaged, otherTaken⟩ := ho o (by simp [hl])
    refine ⟨otherManaged, ?_⟩
    dsimp only
    rwa [Function.update_of_ne ne]

lemma owned_of_freeFrames (hf : freeFrames frames pool = .ok () next) :
    frames.Nodup ∧ (∀ f ∈ frames, pool.used f = true) ∧ next = release frames pool := by
  induction frames generalizing pool with
  | nil =>
    cases hf
    exact ⟨List.nodup_nil, by simp, (release_nil _).symm⟩
  | cons f frames ih =>
    rw [freeFrames] at hf
    cases first : pool.freePage (f * pageSize) with
    | error => simp [first] at hf
    | ok =>
      rw [first] at hf
      obtain ⟨taken, _, midEq⟩ := used_of_freePage first
      rw [Nat.mul_div_cancel f (by decide)] at taken midEq
      subst midEq
      obtain ⟨nodup, used, nextEq⟩ := ih hf
      have stillUsed (o : Nat) (mem : o ∈ frames) :
        o ≠ f ∧ pool.used o = true := by
        have otherUsed := used o mem
        dsimp only at otherUsed
        by_cases same : o = f
        · simp [same] at otherUsed
        · exact ⟨same, by rwa [Function.update_of_ne same] at otherUsed⟩
      refine ⟨List.nodup_cons.mpr ⟨fun mem => (stillUsed f mem).1 rfl, nodup⟩, ?_, ?_⟩
      · intro o mem
        rcases List.mem_cons.mp mem with rfl | hl
        · exact taken
        · exact (stillUsed o hl).2
      · rw [nextEq, release_cons]

end FramePool

def onPool (memory : ByteMemory) : Outcome FramePool Unit → Outcome Machine Unit
  | .ok _ pool => .ok () ⟨memory, pool⟩
  | .error halt pool => .error halt ⟨memory, pool⟩

lemma freePage_eq_onPool (a : Nat) (mach : Machine) :
    freePage a mach = onPool mach.memory (mach.pool.freePage a) := by
  rw [freePage]
  cases mach.pool.freePage a with
  | ok => rfl
  | error => rfl

open List FramePool Outcome

variable {r page : Nat} {ram o : ByteMemory} {m post : Machine}

lemma PageTree.translate_eq (t : PageTree ram r) (va : Nat) :
    pagingTranslate ram (r * pageSize) va =
      match largeLeaf ram r (largeOf va) with
    | some e => some (frameNumber e * pageSize ||| va % largePageSize)
    | none => (pageLeaf ram r (pageOf va)).map fun e =>
      frameNumber e * pageSize ||| va % pageSize := by
  have walk : Walk r va ⟨ram, ⟨0, fun _ => false⟩⟩ := PageTree.walk t va
  cases walk with
  | absent hnl noPage trans =>
    rw [hnl, noPage, trans]
    rfl
  | large _ isLarge _ trans => rw [isLarge, trans]
  | page _ _ hnl leaf _ trans =>
    rw [hnl, leaf, trans]
    rfl

def unmapFrame (ram : ByteMemory) (root page : Nat) : Option Nat :=
  (pagingTranslate ram (root * pageSize) (page * pageSize)).map frameNumber

lemma largeOf_mul (hlt : page < 2 ^ 36) : largeOf (page * pageSize) = page / 512 := by
  rw [← pageOf_div, pageOf_mul hlt]

lemma frameNumber_frame {frame : Nat} (hlt : frame < 2 ^ 40) :
    frameNumber (frame * pageSize) = frame := by
  rw [frameNumber, Nat.mul_div_cancel frame (by decide), Nat.mod_eq_of_lt hlt]

lemma unmapFrame_of_large (t : PageTree ram r) (hlt : page < 2 ^ 36) {e : Nat}
    (isLarge : largeLeaf ram r (page / 512) = some e) : (unmapFrame ram r page).isSome := by
  rw [unmapFrame, t.translate_eq, largeOf_mul hlt, isLarge]
  rfl

lemma unmapFrame_of_small (t : PageTree ram r) (hlt : page < 2 ^ 36)
    (hnl : largeLeaf ram r (page / 512) = none) :
    unmapFrame ram r page = (pageLeaf ram r page).map frameNumber := by
  have ha : page * pageSize % pageSize = 0 := Nat.mul_mod_left _ _
  rw [unmapFrame, t.translate_eq, largeOf_mul hlt, hnl, pageOf_mul hlt, ha]
  cases pageLeaf ram r page with
  | none => rfl
  | some e => simp only [Option.map_some, Nat.or_zero, frameNumber_frame (frameNumber_lt e)]

lemma unmapFrame_congr (t : PageTree ram r) (otherTree : PageTree o r)
    (hlt : page < 2 ^ 36) (largeEq : largeLeaf o r = largeLeaf ram r)
    (leafEq : pageLeaf o r page = pageLeaf ram r page) :
    unmapFrame o r page = unmapFrame ram r page := by
  rw [unmapFrame, unmapFrame, t.translate_eq, otherTree.translate_eq, largeEq,
    pageOf_mul hlt, leafEq]

structure LeavesRemoved (root : Nat) (pages : List Nat) (before post : ByteMemory) : Prop where
  tree : PageTree post root
  same : SameTables before post root
  largeLeaf_eq : largeLeaf post root = largeLeaf before root
  pageLeaf_eq : ∀ page, pageLeaf post root page =
    if page ∈ pages then none else pageLeaf before root page
  bytes : ∀ address, ¬ IsTable before root (address / pageSize) → post address = before address

lemma LeavesRemoved.refl (tree : PageTree ram r) : LeavesRemoved r [] ram ram where
  tree := tree
  same := ⟨fun _ _ => rfl⟩
  largeLeaf_eq := rfl
  pageLeaf_eq := by simp
  bytes := fun _ _ => rfl

lemma LeavesRemoved.cons {pre mid last : ByteMemory} {pages : List Nat}
    (fst : LeavesRemoved r [page] pre mid) (rest : LeavesRemoved r pages mid last) :
      LeavesRemoved r (page :: pages) pre last where
  tree := rest.tree
  same := ⟨fun path hs => (rest.same.tableAt_eq path hs).trans
    (fst.same.tableAt_eq path hs)⟩
  largeLeaf_eq := rest.largeLeaf_eq.trans fst.largeLeaf_eq
  pageLeaf_eq := by
    intro o
    rw [rest.pageLeaf_eq, fst.pageLeaf_eq]
    by_cases here : o = page
    · simp [here]
    · simp [here]
  bytes := by
    intro a notTable
    rw [rest.bytes a, fst.bytes a notTable]
    rwa [fst.same.isTable_iff]

lemma unmapPage_spec (t : PageTree m.memory r) (hlt : page < 2 ^ 36) :
    ∃ ram, LeavesRemoved r [page] m.memory ram ∧ unmapPage (r * pageSize) (page * pageSize) m =
        match unmapFrame m.memory r page with
      | none => .ok () ⟨ram, m.pool⟩
      | some f => onPool ram (m.pool.freePage (f * pageSize)) := by
  have keeps (noPage : pageLeaf m.memory r page = none) :
    LeavesRemoved r [page] m.memory m.memory := by
    refine ⟨t, ⟨fun _ _ => rfl⟩, rfl, ?_, fun _ _ => rfl⟩
    intro o
    by_cases here : o = page
    · simp [here, noPage]
    · simp [here]
  rw [unmapPage, get_bind, unmapFrame]
  cases t.walk (page * pageSize) with
  | absent _ noPage trans =>
    rw [pageOf_mul hlt] at noPage
    rw [trans]
    exact ⟨m.memory, keeps noPage, rfl⟩
  | large e _ noPage trans unmapped =>
    rw [pageOf_mul hlt] at noPage
    refine ⟨m.memory, keeps noPage, ?_⟩
    rw [trans]
    dsimp only
    rw [bind_of_ok unmapped, and_pageAddrMask, freePage_eq_onPool]
    rfl
  | page table e _ _ reach trans unmapped =>
    rw [pageOf_mul hlt] at reach unmapped
    obtain ⟨eq, afterTree, leafEq, largeEq⟩ :=
      writeLeaf_spec t hlt reach (by norm_num : (0 : Nat) < 256 ^ 8)
    have ht : IsTable m.memory r table := ⟨_, by simp [pagePath_length], reach⟩
    refine ⟨_, ⟨afterTree, eq, largeEq, ?_, ?_⟩, ?_⟩
    · intro o
      rw [leafEq]
      by_cases here : o = page
      · simp [here, flagSet]
      · simp [here]
    · intro a notTable
      apply writeEntry_outside
      rintro rfl
      exact notTable ht
    rw [trans]
    dsimp only
    rw [bind_of_ok unmapped, and_pageAddrMask, freePage_eq_onPool]
    rfl

section Loop

variable {pages : List Nat}

def unmapFrames (ram : ByteMemory) (root : Nat) (pages : List Nat) : List Nat :=
  pages.filterMap (unmapFrame ram root)

lemma LeavesRemoved.unmapFrames_eq (removed : LeavesRemoved r [page] ram o)
    (t : PageTree ram r) (elsewhere : page ∉ pages) (hb : ∀ page ∈ pages, page < 2 ^ 36) :
    unmapFrames o r pages = unmapFrames ram r pages := by
  apply filterMap_congr
  intro hl mem
  apply unmapFrame_congr t removed.tree (hb hl mem) removed.largeLeaf_eq
  have ne : hl ≠ page := by
    rintro rfl
    exact elsewhere mem
  rw [removed.pageLeaf_eq, if_neg (by simp [ne])]

lemma unmapFrames_cons (ram : ByteMemory) (r page : Nat) (pages : List Nat) :
    unmapFrames ram r (page :: pages) =
      (unmapFrame ram r page).toList ++ unmapFrames ram r pages := by
  rw [unmapFrames, filterMap_cons]
  cases unmapFrame ram r page with
  | none => rfl
  | some => rfl

lemma unmapPage_eq_freeFrames (t : PageTree m.memory r) (hlt : page < 2 ^ 36) :
    ∃ ram, LeavesRemoved r [page] m.memory ram ∧ unmapPage (r * pageSize) (page * pageSize) m =
        onPool ram (m.pool.freeFrames (unmapFrame m.memory r page).toList) := by
  obtain ⟨ram, removed, stepEq⟩ := unmapPage_spec t hlt
  refine ⟨ram, removed, ?_⟩
  rw [stepEq]
  cases unmapFrame m.memory r page with
  | none => rfl
  | some f =>
    dsimp only [Option.toList]
    rw [freeFrames]
    cases m.pool.freePage (f * pageSize) with
    | ok => rfl
    | error => rfl

def unmapPages (root : Nat) (pages : List Nat) : EStateM Halt Machine Unit :=
  forEach (fun page => unmapPage (root * pageSize) (page * pageSize)) pages

lemma unmapPages_cons (r page : Nat) (pages : List Nat) : unmapPages r (page :: pages) =
    unmapPage (r * pageSize) (page * pageSize) >>= fun _ => unmapPages r pages :=
  rfl

lemma unmapPages_cases (nodup : pages.Nodup) (hb : ∀ page ∈ pages, page < 2 ^ 36)
    (t : PageTree m.memory r) :
    (∃ ram pool, LeavesRemoved r pages m.memory ram ∧ unmapPages r pages m = .ok () ⟨ram, pool⟩ ∧
      m.pool.freeFrames (unmapFrames m.memory r pages) = .ok () pool) ∨
    (∀ post, unmapPages r pages m ≠ .ok () post) ∧
      ∀ pool, m.pool.freeFrames (unmapFrames m.memory r pages) ≠ .ok () pool := by
  induction pages generalizing m with
  | nil => exact .inl ⟨m.memory, m.pool, LeavesRemoved.refl t, rfl, rfl⟩
  | cons page _ ih =>
    obtain ⟨elsewhere, restNodup⟩ := nodup_cons.mp nodup
    obtain ⟨_, restBelow⟩ := forall_mem_cons.mp hb
    obtain ⟨ram, removed, stepEq⟩ := unmapPage_eq_freeFrames t (hb page (by simp))
    rw [unmapFrames_cons, freeFrames_append, unmapPages_cons]
    cases fst : m.pool.freeFrames (unmapFrame m.memory r page).toList with
    | error =>
      rw [fst] at stepEq
      rw [bind_of_error stepEq]
      exact .inr ⟨by simp, by simp⟩
    | ok _ next =>
      rw [fst] at stepEq
      simp only [bind_of_ok stepEq, ← removed.unmapFrames_eq t elsewhere restBelow]
      refine (@ih ⟨ram, next⟩ restNodup restBelow removed.tree).imp_left ?_
      rintro ⟨last, pool, rest, both⟩
      exact ⟨last, pool, removed.cons rest, both⟩

end Loop

section Range

variable {va size cnt : Nat}

lemma userUnmapRange_of_range (rng : UserRange va size page cnt) :
    userUnmapRange (r * pageSize) va size = (do
        unmapPages r (range' page cnt)
        return 0) := by
  have pagesEq : range' page cnt = (List.range cnt).map (page + ·) := by
    rw [range_eq_range', map_add_range', Nat.add_zero]
  rw [userUnmapRange, if_neg rng.accepted, rng.count_eq, rng.start, unmapPages, pagesEq,
    forEach_map]
  simp only [Nat.add_mul]

lemma pageAlignUp_pageAlignUp (size : Nat) : pageAlignUp (pageAlignUp size) = pageAlignUp size := by
  have aligned := pageAlignUp_mod size
  have hb : pageAlignUp size < 2 ^ 64 := lt_of_le_of_lt Nat.and_le_left (Nat.mod_lt _ (by norm_num))
  simp only [pageSize] at aligned
  rw [pageAlignUp_eq (by omega)]
  omega

lemma sysMunmap_of_range (proc : ProcessMemory) (rng : UserRange va size page cnt)
    (spaceEq : proc.addressSpace = r * pageSize) : sysMunmap proc va size = (do
        unmapPages r (range' page cnt)
        return 0) := by
  have hg : ¬ (pageAlignUp size = 0 ∨ va % pageSize ≠ 0) := by
    have accepted := rng.accepted
    have vaLt : va < 2 ^ 64 := by
      have := rng.below
      have := rng.start
      simp only [pageSize] at this
      omega
    rintro (zero | unaligned)
    · rw [zero, Nat.add_zero, u64_of_lt vaLt] at accepted
      simp at accepted
    · exact accepted (.inl unaligned)
  have sameRange : UserRange va (pageAlignUp size) page cnt :=
    ⟨rng.start, by rw [pageAlignUp_pageAlignUp, rng.last], rng.notEmpty, rng.below⟩
  rw [sysMunmap, if_neg hg, spaceEq, userUnmapRange_of_range sameRange, bind_assoc]
  simp

def RangeAccepted (va size : Nat) : Prop :=
  va % pageSize = 0 ∧ va < u64 (va + pageAlignUp size) ∧ u64 (va + pageAlignUp size) ≤ userTop

def InRange (va size page : Nat) : Prop :=
  va ≤ page * pageSize ∧ page * pageSize < u64 (va + pageAlignUp size)

lemma RangeAccepted.userRange (ok : RangeAccepted va size) :
    ∃ page cnt, UserRange va size page cnt := by
  rw [userRange_iff]
  obtain ⟨ha, notEmpty, hb⟩ := ok
  omega

lemma UserRange.inRange_iff (rng : UserRange va size page cnt) (o : Nat) :
    InRange va size o ↔ o ∈ range' page cnt := by
  rw [InRange, rng.last, rng.start, List.mem_range'_1]
  simp only [pageSize]
  omega

end Range

def ReleasesUserPages (proc : ProcessMemory) (va size root : Nat) (mach : Machine) : Prop :=
  ∃ post frames, userUnmapRange proc.addressSpace va size mach = .ok 0 post ∧
    sysMunmap proc va size mach = .ok 0 post ∧
    mach.pool.freeFrames frames = .ok () post.pool ∧
    frames.Nodup ∧
    (∀ frame, frame ∈ frames ↔ ∃ page entry, InRange va size page ∧
      pageLeaf mach.memory root page = some entry ∧ flagSet entry pageUser = true ∧
      frameNumber entry = frame) ∧
    ∀ o, (largeLeaf mach.memory root (largeOf o)).isSome →
      pagingTranslate post.memory proc.addressSpace o =
        pagingTranslate mach.memory proc.addressSpace o

section Claim

variable {va size cnt : Nat} {pages : List Nat}

lemma PageTree.noLarge_of_page (t : PageTree ram r) {e : Nat}
    (leaf : pageLeaf ram r page = some e) : largeLeaf ram r (page / 512) = none := by
  have hlt : page < 2 ^ 36 := by
    by_contra large
    rw [pageLeaf, if_neg large] at leaf
    simp at leaf
  have walk : Walk r (page * pageSize) ⟨ram, ⟨0, fun _ => false⟩⟩ := PageTree.walk t _
  cases walk with
  | absent _ noPage =>
    rw [pageOf_mul hlt] at noPage
    exact absurd leaf (by simp [noPage])
  | large _ _ noPage =>
    rw [pageOf_mul hlt] at noPage
    exact absurd leaf (by simp [noPage])
  | page _ _ hnl => rwa [largeOf_mul hlt] at hnl

lemma unmapFrames_of_small (t : PageTree ram r) (hb : ∀ page ∈ pages, page < 2 ^ 36)
    (hnl : ∀ page ∈ pages, largeLeaf ram r (page / 512) = none) :
    unmapFrames ram r pages =
      pages.filterMap fun page => (pageLeaf ram r page).map frameNumber := by
  apply filterMap_congr
  intro page mem
  exact unmapFrame_of_small t (hb page mem) (hnl page mem)

section
variable (sp : UserSpace r m)
include sp

lemma UserSpace.leafFrames_nodup (nodup : pages.Nodup) :
    (pages.filterMap fun page => (pageLeaf m.memory r page).map frameNumber).Nodup := by
  apply nodup.filterMap
  intro fst snd f frame1 secondFrame
  obtain ⟨ent1, firstPage, firstEq⟩ := Option.map_eq_some_iff.mp frame1
  obtain ⟨ent2, page2, secondEq⟩ := Option.map_eq_some_iff.mp secondFrame
  exact sp.distinct _ _ _ _ firstPage page2 (firstEq.trans secondEq.symm)

lemma mem_leafFrames_iff (frame : Nat) :
    (frame ∈ pages.filterMap fun page => (pageLeaf m.memory r page).map frameNumber) ↔
      ∃ page e, page ∈ pages ∧ pageLeaf m.memory r page = some e ∧
        flagSet e pageUser = true ∧ frameNumber e = frame := by
  rw [mem_filterMap]
  constructor
  · rintro ⟨page, mem, isFrame⟩
    obtain ⟨e, leaf, frameEq⟩ := Option.map_eq_some_iff.mp isFrame
    exact ⟨page, e, mem, leaf, sp.user page e leaf, frameEq⟩
  rintro ⟨page, e, mem, leaf, _, frameEq⟩
  exact ⟨page, mem, Option.map_eq_some_iff.mpr ⟨e, leaf, frameEq⟩⟩

lemma UserSpace.freeFrames_leafFrames (nodup : pages.Nodup) (hb : ∀ page ∈ pages, page < 2 ^ 36)
    (hnl : ∀ page ∈ pages, largeLeaf m.memory r (page / 512) = none) :
    m.pool.freeFrames (unmapFrames m.memory r pages) =
      .ok () (m.pool.release (unmapFrames m.memory r pages)) := by
  rw [unmapFrames_of_small sp.ok.tree hb hnl]
  apply freeFrames_of_owned (sp.leafFrames_nodup nodup)
  intro f mem
  obtain ⟨page, e, _, leaf, _, rfl⟩ := (mem_leafFrames_iff sp f).mp mem
  exact sp.owned page e leaf

end

lemma page_eq_of_unmapFrame {fst second f : Nat}
    (nodup : (unmapFrames ram r pages).Nodup) (mem1 : fst ∈ pages)
    (secondMem : second ∈ pages) (frame1 : unmapFrame ram r fst = some f)
    (secondFrame : unmapFrame ram r second = some f) : fst = second := by
  by_contra ne
  have apart := pairwise_filterMap.mp nodup
  have symmetric : Std.Symm fun left right => ∀ f, unmapFrame ram r left = some f →
    ∀ o, unmapFrame ram r right = some o → f ≠ o :=
    ⟨fun left right separate f isRight o isLeft eq => separate o isLeft f isRight eq.symm⟩
  exact apart.forall mem1 secondMem ne f frame1 f secondFrame rfl

lemma translate_of_large (removed : LeavesRemoved r pages ram o)
    (t : PageTree ram r) {va : Nat} (hc : (largeLeaf ram r (largeOf va)).isSome) :
    pagingTranslate o (r * pageSize) va = pagingTranslate ram (r * pageSize) va := by
  obtain ⟨e, isLarge⟩ := Option.isSome_iff_exists.mp hc
  rw [removed.tree.translate_eq, t.translate_eq, removed.largeLeaf_eq, isLarge]

lemma UserRange.page_lt (rng : UserRange va size page cnt) :
    ∀ o ∈ range' page cnt, o < 2 ^ 36 := by
  intro o mem
  have := List.mem_range'_1.mp mem
  have := rng.below
  omega

lemma UserSpace.releases_of_noLarge (sp : UserSpace r m) {proc : ProcessMemory}
    (spaceEq : proc.addressSpace = r * pageSize) (rng : UserRange va size page cnt)
    (hnl : ∀ page, InRange va size page → largeLeaf m.memory r (page / 512) = none) :
    ReleasesUserPages proc va size r m := by
  have nodup : (range' page cnt).Nodup := nodup_range'
  have below := rng.page_lt
  have small : ∀ o ∈ range' page cnt, largeLeaf m.memory r (o / 512) = none :=
    fun o mem => hnl o ((rng.inRange_iff o).mpr mem)
  have freed := sp.freeFrames_leafFrames nodup below small
  obtain ⟨ram, _, removed, unmapped, same⟩ :=
    (unmapPages_cases nodup below sp.ok.tree).resolve_right fun no => no.2 _ freed
  cases freed.symm.trans same
  refine ⟨⟨ram, _⟩, _, ?_, ?_, freed, ?_, ?_, ?_⟩
  · rw [spaceEq, userUnmapRange_of_range rng, bind_of_ok unmapped]
    rfl
  · rw [sysMunmap_of_range proc rng spaceEq, bind_of_ok unmapped]
    rfl
  · rw [unmapFrames_of_small sp.ok.tree below small]
    exact sp.leafFrames_nodup nodup
  · intro f
    rw [unmapFrames_of_small sp.ok.tree below small, mem_leafFrames_iff sp]
    simp only [rng.inRange_iff]
  intro o hc
  rw [spaceEq]
  exact translate_of_large removed sp.ok.tree hc

lemma UserSpace.noLarge_of_releases (sp : UserSpace r m) {proc : ProcessMemory}
    (spaceEq : proc.addressSpace = r * pageSize) (rng : UserRange va size page cnt)
    (releases : ReleasesUserPages proc va size r m) :
    ∀ page, InRange va size page → largeLeaf m.memory r (page / 512) = none := by
  obtain ⟨post, frames, ret, _, hf, _, exactly, _⟩ := releases
  have nodup : (range' page cnt).Nodup := nodup_range'
  have below := rng.page_lt
  have looped : unmapPages r (range' page cnt) m = .ok () post := by
    rw [spaceEq, userUnmapRange_of_range rng] at ret
    cases loop : unmapPages r (range' page cnt) m with
    | error => simp [bind_of_error loop] at ret
    | ok =>
      rw [bind_of_ok loop] at ret
      cases ret
      rfl
  obtain ⟨ram, _, -, unmapped, freed⟩ :=
    (unmapPages_cases nodup below sp.ok.tree).resolve_right fun no => no.1 _ looped
  cases looped.symm.trans unmapped
  obtain ⟨actualNodup, actualUsed, actualEq⟩ := owned_of_freeFrames freed
  obtain ⟨_, _, afterEq⟩ := owned_of_freeFrames hf
  intro hc inRange
  have coveredMem := (rng.inRange_iff hc).mp inRange
  by_contra isLarge
  obtain ⟨large, largeEq⟩ := Option.ne_none_iff_exists'.mp isLarge
  obtain ⟨frame, frameEq⟩ := Option.isSome_iff_exists.mp
    (unmapFrame_of_large sp.ok.tree (below hc coveredMem) largeEq)
  have given : frame ∈ unmapFrames m.memory r (range' page cnt) :=
    mem_filterMap.mpr ⟨hc, coveredMem, frameEq⟩
  -- The frame was given back, so it belongs to a user page of the range as well.
  have mem : frame ∈ frames := by
    by_contra notListed
    have stillUsed := (release_used frames m.pool frame).mpr
      ⟨actualUsed frame given, notListed⟩
    rw [← afterEq, actualEq, release_used] at stillUsed
    exact stillUsed.2 given
  obtain ⟨user, e, userRange, leaf, _, entryEq⟩ := (exactly frame).mp mem
  have userMem := (rng.inRange_iff user).mp userRange
  have noLarge := sp.ok.tree.noLarge_of_page leaf
  have userFrame : unmapFrame m.memory r user = some frame := by
    rw [unmapFrame_of_small sp.ok.tree (below user userMem) noLarge, leaf, Option.map_some, entryEq]
  have samePage := page_eq_of_unmapFrame actualNodup coveredMem userMem frameEq userFrame
  rw [samePage, noLarge] at largeEq
  simp at largeEq

/-- Exactly the user pages are released, if and only if no page lies below a 2 MiB
supervisor leaf. -/
theorem unmapping_releases_iff {proc : ProcessMemory}
    (spaceEq : proc.addressSpace = r * pageSize) (built : BuiltSpace r m)
    (ha : RangeAccepted va size) : ReleasesUserPages proc va size r m ↔
      ∀ page, InRange va size page → largeLeaf m.memory r (page / 512) = none := by
  obtain ⟨page, cnt, rng⟩ := ha.userRange
  constructor
  · exact built.userSpace.noLarge_of_releases spaceEq rng
  · exact built.userSpace.releases_of_noLarge spaceEq rng

def plainInfo : BootInfo where
  mapBase := 0
  mapSize := 0
  descriptorSize := 0
  framebufferBase := 0
  framebufferSize := 0
  kernelBase := 0x100000
  kernelSize := 0x4000
  initramfsBase := 0
  initramfsSize := 0

def plainMachine : Machine where
  memory := fun _ => 0
  pool := ⟨300, fun frame => decide (frame < 260)⟩

def plainSpace : Outcome Machine (Option Nat) :=
  userAddressSpaceCreate plainInfo 0xFEE00000 true plainMachine

theorem imagePages_releases_iff : ∃ made m, plainSpace = .ok (some (260 * pageSize)) made ∧
    userMapRange (260 * pageSize) userImageBase 0x2000 pageWritable made = .ok 0 m ∧
    (ReleasesUserPages (processInitExt (260 * pageSize)) userImageBase 0x2000 260 m ↔
      ∀ page, InRange userImageBase 0x2000 page → largeLeaf m.memory 260 (page / 512) = none) := by
  have evaluated : returnsWith plainSpace (fun pml4 made =>
    decide (pml4 = some (260 * pageSize)) && returnsWith
      (userMapRange (260 * pageSize) userImageBase 0x2000 pageWritable made)
      fun code _ => decide (code = 0)) = true := by
    decide +kernel
  obtain ⟨pml4, made, createdEq, rest⟩ := exists_of_returnsWith evaluated
  rw [Bool.and_eq_true, decide_eq_true_eq] at rest
  obtain ⟨rfl, mapped⟩ := rest
  obtain ⟨code, m, mappedEq, codeEq⟩ := exists_of_returnsWith mapped
  rw [decide_eq_true_eq] at codeEq
  subst codeEq
  refine ⟨made, m, createdEq, mappedEq, ?_⟩
  exact unmapping_releases_iff rfl (.mapped (.created (by decide) createdEq) mappedEq)
    ⟨by decide, by decide, by decide⟩

/-- The frame is given back although no user page has it. -/
theorem kernelPage_not_releases : ∃ m post, plainSpace = .ok (some (260 * pageSize)) m ∧
    BuiltSpace 260 m ∧ RangeAccepted 0x100000 0x1000 ∧
    sysMunmap (processInitExt (260 * pageSize)) 0x100000 0x1000 m = .ok 0 post ∧
    m.pool.used 256 = true ∧ post.pool.used 256 = false ∧
    ¬ ReleasesUserPages (processInitExt (260 * pageSize)) 0x100000 0x1000 260 m := by
  have evaluated : returnsWith plainSpace (fun pml4 m =>
    decide (pml4 = some (260 * pageSize)) && (m.pool.used 256 && returnsWith
      (sysMunmap (processInitExt (260 * pageSize)) 0x100000 0x1000 m)
      fun code post => decide (code = 0) && !post.pool.used 256)) = true := by
    decide +kernel
  obtain ⟨pml4, m, createdEq, rest⟩ := exists_of_returnsWith evaluated
  rw [Bool.and_eq_true, Bool.and_eq_true, decide_eq_true_eq] at rest
  obtain ⟨rfl, pre, unmapped⟩ := rest
  obtain ⟨code, post, unmapEq, codeEq⟩ := exists_of_returnsWith unmapped
  rw [Bool.and_eq_true, decide_eq_true_eq, Bool.not_eq_true'] at codeEq
  obtain ⟨rfl, released⟩ := codeEq
  refine ⟨m, post, createdEq, .created (by decide) createdEq,
    ⟨by decide, by decide, by decide⟩, unmapEq, pre, released, ?_⟩
  rintro ⟨o, frames, _, called, hf, _, exactly, _⟩
  obtain ⟨_, rfl⟩ := EStateM.Result.ok.inj (called.symm.trans unmapEq)
  obtain ⟨_, _, releaseEq⟩ := owned_of_freeFrames hf
  have listed : 256 ∈ frames := by
    by_contra notListed
    have stillUsed := (release_used frames m.pool 256).mpr ⟨pre, notListed⟩
    rw [← releaseEq, released] at stillUsed
    simp at stillUsed
  obtain ⟨page, e, _, isPage, _, _⟩ := (exactly 256).mp listed
  obtain ⟨r, rootEq, mirrors⟩ := mirrors_of_created (by decide) createdEq
  have eq : 260 = r := Nat.eq_of_mul_eq_mul_right (by decide) rootEq
  rw [eq, mirrors.pageLeaf_none] at isPage
  simp at isPage

end Claim

end HnxKernel
