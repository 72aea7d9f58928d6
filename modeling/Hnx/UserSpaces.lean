import Hnx.PageWalks
import Hnx.UserAddressSpace

/-!
# User address spaces

Every 4 KiB leaf is a user page whose frame belongs to that page alone.
-/

namespace HnxKernel

section

open Nat

def userFlags (flags : Nat) : Nat := (flags &&& pageWritable) ||| pageUser ||| pagePresent

lemma userFlags_lt (fl : Nat) : userFlags fl < 2 ^ 12 := by
  apply or_lt_two_pow _ (by decide)
  exact or_lt_two_pow (lt_of_le_of_lt and_le_right (by decide)) (by decide)

lemma withoutHuge_testBit {fl bit : Nat} (bitLt : bit < 7) :
    (withoutHuge fl).testBit bit = fl.testBit bit := by
  have maskBits : ∀ bit < 7, (2 ^ 64 - 1 - pageHuge).testBit bit = true := by decide
  rw [withoutHuge, testBit_and, maskBits bit bitLt, Bool.and_true]

lemma user_leafValue (f fl : Nat) : flagSet (leafValue f (userFlags fl)) pageUser = true := by
  have userBit : pageUser.testBit 2 = true := by decide
  rw [flagSet_user, leafValue, testBit_frame_or (by norm_num), testBit_or,
    withoutHuge_testBit (by norm_num), userFlags, testBit_or, testBit_or, userBit]
  simp

lemma writable_leafValue (f fl : Nat) :
    flagSet (leafValue f (userFlags fl)) pageWritable = flagSet fl pageWritable := by
  have writableBit : pageWritable.testBit 1 = true := by decide
  have userBit : pageUser.testBit 1 = false := by decide
  have presentBit : pagePresent.testBit 1 = false := by decide
  rw [flagSet_writable, flagSet_writable, leafValue, testBit_frame_or (by norm_num), testBit_or,
    withoutHuge_testBit (by norm_num), userFlags, testBit_or, testBit_or, testBit_and,
    writableBit, userBit, presentBit]
  simp

structure PageMapped (root flags page frame : Nat) (before post : Machine) : Prop where
  ok : SpaceOk root post
  total : post.pool.totalPages = before.pool.totalPages
  managed : before.pool.Managed frame
  clear : before.pool.used frame = false
  notTable : ¬ IsTable post.memory root frame
  isTable : ∀ table, IsTable before.memory root table → IsTable post.memory root table
  fresh : ∀ table, IsTable post.memory root table →
    IsTable before.memory root table ∨ before.pool.used table = false
  used : ∀ other, post.pool.used other = true ↔
    before.pool.used other = true ∨ IsTable post.memory root other ∨ other = frame
  noLarge : largeLeaf before.memory root (page / 512) = none
  pageLeaf_eq : pageLeaf post.memory root =
    Function.update (pageLeaf before.memory root) page (some (leafValue frame (userFlags flags)))
  largeLeaf_eq : largeLeaf post.memory root = largeLeaf before.memory root
  zero : ∀ address, address / pageSize = frame → post.memory address = 0
  bytes : ∀ address, before.pool.used (address / pageSize) = true →
    ¬ IsTable before.memory root (address / pageSize) → post.memory address = before.memory address

variable {r fl p f : Nat} {m hg pre middle post : Machine}

lemma SpaceOk.spaceOk_takeZeroed (ok : SpaceOk r m) (hc : m.pool.used f = false) :
    SpaceOk r (takeZeroed m f) := by
  have agrees := ok.agrees_takeZeroed hc
  refine ⟨agrees.pageTree ok.tree, ?_, ok.small⟩
  intro tbl isTable
  obtain ⟨man, ht⟩ := ok.owned tbl ((agrees.sameTables.isTable_iff tbl).mp isTable)
  exact ⟨man, (used_takeZeroed m f tbl).mpr (.inl ht)⟩

section Grown

section
variable (ok : SpaceOk r m) (hc : m.pool.used f = false) (tbls : TablesGrown r (takeZeroed m f) hg)
include ok hc tbls

lemma TablesGrown.not_isTable_taken : ¬ IsTable hg.memory r f := by
  apply tbls.toFramesGrown.not_isTable
  · exact (used_takeZeroed m f f).mpr (.inr rfl)
  rw [(ok.agrees_takeZeroed hc).sameTables.isTable_iff]
  exact ok.not_isTable_of_clear hc

lemma TablesGrown.fresh_taken (tbl : Nat) (isTable : IsTable hg.memory r tbl) :
    IsTable m.memory r tbl ∨ m.pool.used tbl = false := by
  rcases tbls.fresh tbl isTable with was | free
  · exact .inl (((ok.agrees_takeZeroed hc).sameTables.isTable_iff tbl).mp was)
  right
  by_contra ht
  have stillTaken := (used_takeZeroed m f tbl).mpr (.inl (by simpa using ht))
  simp [stillTaken] at free

lemma TablesGrown.bytes_taken (address : Nat) (ht : m.pool.used (address / pageSize) = true)
    (notTable : ¬ IsTable m.memory r (address / pageSize)) :
    hg.memory address = m.memory address := by
  have out : address / pageSize ≠ f := by
    rintro rfl
    simp [hc] at ht
  rw [tbls.bytes address ((used_takeZeroed m f _).mpr (.inl ht)), takeZeroed_outside out]
  rwa [(ok.agrees_takeZeroed hc).sameTables.isTable_iff]

end

lemma TablesGrown.used_taken (tbls : TablesGrown r (takeZeroed m f) hg)
    (o : Nat) : hg.pool.used o = true ↔ m.pool.used o = true ∨ IsTable hg.memory r o ∨ o = f := by
  rw [tbls.used, used_takeZeroed]
  tauto

end Grown

lemma frame_lt_of_managed (ok : SpaceOk r m) (man : m.pool.Managed f) : f < 2 ^ 40 :=
  lt_of_lt_of_le man.2 ok.small

lemma SpaceOk.pageMapped (ok : SpaceOk r m) (man : m.pool.Managed f)
    (hc : m.pool.used f = false) (hlt : p < 2 ^ 36)
    (tbls : TablesGrown r (takeZeroed m f) hg) {table : Nat}
    (hr : tableAt hg.memory r (pagePath p) = some table)
    (hnl : largeLeaf (takeZeroed m f).memory r (p / 512) = none) : PageMapped r fl p f m
      (setLeaf hg table p (leafValue f (userFlags fl))) := by
  have agrees := ok.agrees_takeZeroed hc
  have frameLt := frame_lt_of_managed ok man
  obtain ⟨eq, t, leafEq, largeEq⟩ := writeLeaf_spec tbls.ok.tree hlt hr
    (leafValue_lt frameLt (userFlags_lt fl))
  have isTable : IsTable hg.memory r table := ⟨_, by simp [pagePath_length], hr⟩
  have written := tbls.ok.framesGrown_writeEntry isTable eq t
  have frameNotTable := tbls.not_isTable_taken ok hc
  have notHere : f ≠ table := by
    rintro rfl
    exact frameNotTable isTable
  rw [present_leafValue, if_pos rfl] at leafEq
  constructor
  · exact written.ok
  · exact tbls.total
  · exact man
  · exact hc
  · exact fun isTable => frameNotTable ((eq.isTable_iff f).mp isTable)
  · intro o was
    exact written.isTable o
      (tbls.isTable o ((agrees.sameTables.isTable_iff o).mpr was))
  · intro o otherTable
    exact tbls.fresh_taken ok hc o ((eq.isTable_iff o).mp otherTable)
  · intro o
    exact (tbls.used_taken o).trans (by rw [← eq.isTable_iff o]; rfl)
  · rw [← hnl, agrees.largeLeaf_eq]
  · exact leafEq.trans (by rw [tbls.pageLeaf_eq, agrees.pageLeaf_eq])
  · exact largeEq.trans (tbls.largeLeaf_eq.trans agrees.largeLeaf_eq)
  · intro a mem
    have frameUsed := (used_takeZeroed m f f).mpr (.inr rfl)
    have out : a / pageSize ≠ table := fun eq => notHere (mem.symm.trans eq)
    refine (writeEntry_outside out).trans ?_
    rw [tbls.bytes a (by rwa [mem]), takeZeroed_zero mem]
    rw [mem, agrees.sameTables.isTable_iff]
    exact ok.not_isTable_of_clear hc
  intro a ht notTable
  have out : a / pageSize ≠ table := by
    rintro rfl
    rcases tbls.fresh_taken ok hc _ isTable with was | free
    · exact notTable was
    · simp [ht] at free
  exact (writeEntry_outside out).trans (tbls.bytes_taken ok hc a ht notTable)

def releaseFrame (mach : Machine) (frame : Nat) : Machine where
  memory := mach.memory
  pool := { mach.pool with used := Function.update mach.pool.used frame false }

lemma freePage_of_owned (man : m.pool.Managed f) (ht : m.pool.used f = true) :
    freePage (f * pageSize) m = .ok () (releaseFrame m f) := by
  rw [freePage, FramePool.freePage_of_used man ht]
  rfl

lemma SpaceOk.releaseGrown (ok : SpaceOk r m) (hc : m.pool.used f = false)
    (tbls : TablesGrown r (takeZeroed m f) hg) : TablesGrown r m (releaseFrame hg f) := by
  have agrees := ok.agrees_takeZeroed hc
  have notTable := tbls.not_isTable_taken ok hc
  have used (other : Nat) : (releaseFrame hg f).pool.used other = true ↔
    m.pool.used other = true ∨ IsTable hg.memory r other := by
    change Function.update hg.pool.used f false other = true ↔ _
    by_cases eq : other = f
    · subst eq
      simp [hc, notTable]
    rw [Function.update_of_ne eq, tbls.used_taken]
    simp [eq]
  refine ⟨⟨⟨tbls.ok.tree, ?_, tbls.ok.small⟩, tbls.total, ?_, ?_, used, ?_⟩, ?_, ?_, ?_⟩
  · intro tbl isTable
    exact ⟨(tbls.ok.owned tbl isTable).1, (used tbl).mpr (.inr isTable)⟩
  · intro tbl was
    exact tbls.isTable tbl ((agrees.sameTables.isTable_iff tbl).mpr was)
  · intro tbl isTable
    exact tbls.fresh_taken ok hc tbl isTable
  · intro a ht out
    exact tbls.bytes_taken ok hc a ht out
  · exact tbls.pageLeaf_eq.trans agrees.pageLeaf_eq
  · exact tbls.largeLeaf_eq.trans agrees.largeLeaf_eq
  intro path tbl hs hr
  apply tbls.keeps path tbl hs
  rw [agrees.sameTables.tableAt_eq path hs, hr]

lemma pageOf_mul {p : Nat} (hlt : p < 2 ^ 36) : pageOf (p * pageSize) = p := by
  simp only [pageOf, pageSize]
  omega

lemma userMapPage_eq (hlt : p < 2 ^ 35) :
    userMapPage (r * pageSize) (p * pageSize) (f * pageSize) fl = (do
        let status ← pagingMap4k (r * pageSize) (p * pageSize) (f * pageSize)
          (userFlags fl)
        return if status = .ok then 0 else -1) := by
  rw [userMapPage, if_neg, userFlags]
  simp only [pageSize, userTop]
  omega

lemma userMapPage_of_ok {status : KStatus} (hlt : p < 2 ^ 35)
    (hm : pagingMap4k (r * pageSize) (p * pageSize) (f * pageSize) (userFlags fl)
      m = .ok status post) :
    userMapPage (r * pageSize) (p * pageSize) (f * pageSize) fl m =
      .ok (if status = .ok then 0 else -1) post := by
  rw [userMapPage_eq hlt, bind_of_ok hm]
  rfl

lemma userMapPage_of_error {halt : Halt} (hlt : p < 2 ^ 35)
    (halted : pagingMap4k (r * pageSize) (p * pageSize) (f * pageSize) (userFlags fl)
      m = .error halt post) :
    userMapPage (r * pageSize) (p * pageSize) (f * pageSize) fl m = .error halt post := by
  rw [userMapPage_eq hlt, bind_of_error halted]

variable {cnt va size : Nat}

lemma mapFreshPages_of_frame
    (hf : m.pool.allocPage = (some (f * pageSize), (takeZeroed m f).pool)) :
    mapFreshPages (r * pageSize) fl (cnt + 1) va m = (do
        if (← userMapPage (r * pageSize) va (f * pageSize) fl) ≠ 0 then
          freePage (f * pageSize)
          return -1
        else
          mapFreshPages (r * pageSize) fl cnt (va + pageSize) : EStateM Halt Machine Int)
        (takeZeroed m f) := by
  rw [mapFreshPages, bind_of_ok (allocPage_of_some hf)]
  rfl

lemma mapFreshPages_step (ok : SpaceOk r m) (cnt : Nat) (hlt : p < 2 ^ 35) :
    (∃ post, mapFreshPages (r * pageSize) fl (cnt + 1) (p * pageSize) m =
        .error (.panic "paging: out of pages for table") post) ∨
      (∃ post, mapFreshPages (r * pageSize) fl (cnt + 1) (p * pageSize) m =
        .ok (-1) post ∧ TablesGrown r m post) ∨
      ∃ f post, PageMapped r fl p f m post ∧
        mapFreshPages (r * pageSize) fl (cnt + 1) (p * pageSize) m =
          mapFreshPages (r * pageSize) fl cnt ((p + 1) * pageSize) post := by
  have pageBound : p < 2 ^ 36 := by omega
  rcases m.pool.allocPage_cases with ha | ⟨f, hf, man, hc⟩
  · right
    left
    rw [mapFreshPages, bind_of_ok (allocPage_of_none ha)]
    exact ⟨m, rfl, TablesGrown.refl ok⟩
  rw [mapFreshPages_of_frame hf]
  rcases pagingMap4k_spec (ok.spaceOk_takeZeroed hc) (frame_lt_of_managed ok man) with
    ⟨post, hp⟩ | ⟨hg, no, tbls⟩ | ⟨hg, tbl, tbls, hr, hnl, hm⟩
  · left
    exact ⟨post, by rw [bind_of_error (userMapPage_of_error hlt hp)]⟩
  · right
    left
    have frameOwned : hg.pool.used f = true := (tbls.used_taken f).mpr (.inr (.inr rfl))
    have stillManaged : hg.pool.Managed f := ⟨man.1, tbls.total ▸ man.2⟩
    refine ⟨_, ?_, ok.releaseGrown hc tbls⟩
    rw [bind_of_ok (userMapPage_of_ok hlt no), if_pos (by simp),
      bind_of_ok (freePage_of_owned stillManaged frameOwned)]
    rfl
  right
  right
  rw [pageOf_mul pageBound] at hr hm
  rw [← pageOf_div, pageOf_mul pageBound] at hnl
  refine ⟨f, _, ok.pageMapped man hc pageBound tbls hr hnl, ?_⟩
  rw [bind_of_ok (userMapPage_of_ok hlt hm), if_neg (by simp), succ_mul]

/-- The pages from `page` on are mapped one after the other. -/
inductive RangeMapped (root flags : Nat) : Nat → Nat → Machine → Machine → Prop
  | none (page : Nat) (mach : Machine) : RangeMapped root flags page 0 mach mach
  | more {page cnt frame : Nat} {before middle post : Machine}
      (first : PageMapped root flags page frame before middle)
      (rest : RangeMapped root flags (page + 1) cnt middle post) :
      RangeMapped root flags page (cnt + 1) before post

lemma RangeMapped.largeLeaf_eq (hm : RangeMapped r fl p cnt pre post) :
    largeLeaf post.memory r = largeLeaf pre.memory r := by
  induction hm with
  | none => rfl
  | more fst _ ih => rw [ih, fst.largeLeaf_eq]

/-- A panic, all pages, or some of them up to one that cannot be mapped. -/
lemma mapFreshPages_spec (ok : SpaceOk r m) (cnt : Nat) (hb : p + cnt ≤ 2 ^ 35) :
    (∃ post, mapFreshPages (r * pageSize) fl cnt (p * pageSize) m =
        .error (.panic "paging: out of pages for table") post) ∨
      (∃ post, mapFreshPages (r * pageSize) fl cnt (p * pageSize) m = .ok 0 post ∧
        RangeMapped r fl p cnt m post) ∨
      ∃ done middle post, done < cnt ∧
        mapFreshPages (r * pageSize) fl cnt (p * pageSize) m = .ok (-1) post ∧
        RangeMapped r fl p done m middle ∧ TablesGrown r middle post := by
  induction cnt generalizing p m with
  | zero => exact .inr (.inl ⟨m, rfl, .none p m⟩)
  | succ cnt ih =>
    rcases mapFreshPages_step ok cnt (show p < 2 ^ 35 by omega) with
      hp | ⟨post, stopped, tbls⟩ | ⟨f, middle, fst, stepEq⟩
    · exact .inl hp
    · exact .inr (.inr ⟨0, m, post, by omega, stopped, .none p m, tbls⟩)
    rw [stepEq]
    rcases ih fst.ok (show p + 1 + cnt ≤ 2 ^ 35 by omega) with hp |
        ⟨post, hm, rest⟩ |
      ⟨done, last, post, doneLt, stopped, rest, tbls⟩
    · exact .inl hp
    · exact .inr (.inl ⟨post, hm, .more fst rest⟩)
    · exact .inr (.inr ⟨done + 1, last, post, by omega, stopped, .more fst rest, tbls⟩)

structure UserRange (va size page cnt : Nat) : Prop where
  start : va = page * pageSize
  last : u64 (va + pageAlignUp size) = (page + cnt) * pageSize
  notEmpty : 0 < cnt
  below : page + cnt ≤ 2 ^ 35

lemma pageAlignUp_mod (size : Nat) : pageAlignUp size % pageSize = 0 := by
  rw [pageAlignUp, alignUp, alignDown, show pageSize = 2 ^ 12 from rfl, and_mod_two_pow]
  exact and_zero _

lemma userRange_iff (va size : Nat) : (∃ p cnt, UserRange va size p cnt) ↔
    ¬ (va % pageSize ≠ 0 ∨ u64 (va + pageAlignUp size) ≤ va ∨
      u64 (va + pageAlignUp size) > userTop) := by
  have aligned := pageAlignUp_mod size
  constructor
  · rintro ⟨p, cnt, rfl, last, notEmpty, hb⟩
    simp only [pageSize, userTop] at last ⊢
    omega
  intro ok
  have lastAligned : u64 (va + pageAlignUp size) % pageSize = 0 := by
    simp only [u64, pageSize] at aligned ok ⊢
    omega
  refine ⟨va / pageSize, u64 (va + pageAlignUp size) / pageSize - va / pageSize, ?_, ?_, ?_, ?_⟩ <;>
    (simp only [pageSize, userTop] at ok lastAligned ⊢; omega)

lemma UserRange.count_eq {p : Nat} (rng : UserRange va size p cnt) :
    (u64 (va + pageAlignUp size) - va) / pageSize = cnt := by
  rw [rng.last, rng.start, ← Nat.sub_mul, Nat.add_sub_cancel_left]
  exact Nat.mul_div_cancel _ (by decide)

lemma UserRange.accepted {p : Nat} (rng : UserRange va size p cnt) :
    ¬ (va % pageSize ≠ 0 ∨ u64 (va + pageAlignUp size) ≤ va ∨
      u64 (va + pageAlignUp size) > userTop) :=
  (userRange_iff va size).mp ⟨p, cnt, rng⟩

lemma userMapRange_of_range {p : Nat} (rng : UserRange va size p cnt) :
    userMapRange (r * pageSize) va size fl = mapFreshPages (r * pageSize)
      fl cnt (p * pageSize) := by
  rw [userMapRange, if_neg rng.accepted, rng.count_eq, rng.start]

lemma userMapRange_of_no_range (no : ¬ ∃ p cnt, UserRange va size p cnt) :
    userMapRange (r * pageSize) va size fl m = .ok (-1) m := by
  rw [userRange_iff, not_not] at no
  rw [userMapRange, if_pos no]
  rfl

inductive RangeResult (root va size flags : Nat) (before post : Machine) : Int → Prop
  | refused (noRange : ¬ ∃ page cnt, UserRange va size page cnt) (same : post = before) :
      RangeResult root va size flags before post (-1)
  | mapped (page cnt : Nat) (range : UserRange va size page cnt)
      (mapped : RangeMapped root flags page cnt before post) :
      RangeResult root va size flags before post 0
  | stopped (page cnt done : Nat) (middle : Machine) (range : UserRange va size page cnt)
      (doneLt : done < cnt) (mapped : RangeMapped root flags page done before middle)
      (tables : TablesGrown root middle post) :
      RangeResult root va size flags before post (-1)

lemma userMapRange_cases (ok : SpaceOk r m) (va size fl : Nat) :
    (∃ post, userMapRange (r * pageSize) va size fl m =
        .error (.panic "paging: out of pages for table") post) ∨
      ∃ code post, userMapRange (r * pageSize) va size fl m = .ok code post ∧
        RangeResult r va size fl m post code := by
  by_cases ha : ∃ p cnt, UserRange va size p cnt
  · obtain ⟨p, cnt, rng⟩ := ha
    rw [userMapRange_of_range rng]
    rcases mapFreshPages_spec ok cnt rng.below with hp | ⟨post, ret, hm⟩ |
      ⟨done, middle, post, doneLt, ret, hm, tbls⟩
    · exact .inl hp
    · exact .inr ⟨0, post, ret, .mapped p cnt rng hm⟩
    · exact .inr ⟨-1, post, ret, .stopped p cnt done middle rng doneLt hm tbls⟩
  · exact .inr ⟨-1, m, userMapRange_of_no_range ha, .refused ha rfl⟩

lemma rangeResult_of_ok (ok : SpaceOk r m) {code : Int}
    (ret : userMapRange (r * pageSize) va size fl m = .ok code post) :
    RangeResult r va size fl m post code := by
  rcases userMapRange_cases ok va size fl with ⟨halted, panic⟩ | ⟨_, _, called, res⟩
  · rw [ret] at panic
    simp at panic
  rw [ret] at called
  cases called
  exact res

end

section

open Function Option

/-- Supervisor windows alone, out of the free frames of a starting state. -/
structure Mirrors (root : Nat) (start mach : Machine) : Prop where
  ok : SpaceOk root mach
  noLowest : NoLowest mach.memory root
  supervisor : ∀ largePage entry, largeLeaf mach.memory root largePage = some entry →
    flagSet entry pageUser = false
  total : mach.pool.totalPages = start.pool.totalPages
  fresh : ∀ table, IsTable mach.memory root table → start.pool.used table = false
  used : ∀ page, mach.pool.used page = true ↔
    start.pool.used page = true ∨ IsTable mach.memory root page
  bytes : ∀ address, start.pool.used (address / pageSize) = true →
    mach.memory address = start.memory address

variable {r : Nat} {start m post : Machine}

lemma Mirrors.grow (mirrors : Mirrors r start m) (hg : FramesGrown r m post)
    (noLowest : NoLowest post.memory r)
    (supervisor : ∀ lp e, largeLeaf post.memory r lp = some e →
        flagSet e pageUser = false) : Mirrors r start post where
  ok := hg.ok
  noLowest := noLowest
  supervisor := supervisor
  total := hg.total.trans mirrors.total
  fresh := by
    intro tbl isTable
    rcases hg.fresh tbl isTable with was | free
    · exact mirrors.fresh tbl was
    by_contra ht
    have stillTaken := (mirrors.used tbl).mpr (.inl (by simpa using ht))
    simp [stillTaken] at free
  used := by
    intro p
    rw [hg.used, mirrors.used]
    constructor
    · rintro ((ht | was) | isTable)
      · exact .inl ht
      · exact .inr (hg.isTable p was)
      · exact .inr isTable
    rintro (ht | isTable)
    · exact .inl (.inl ht)
    · exact .inr isTable
  bytes := by
    intro a ht
    rw [← mirrors.bytes a ht]
    apply hg.bytes
    · exact (mirrors.used _).mpr (.inl ht)
    intro isTable
    simp [mirrors.fresh _ isTable] at ht

lemma Mirrors.pageLeaf_none (mirrors : Mirrors r start m) (p : Nat) :
    pageLeaf m.memory r p = none := by
  rw [pageLeaf, mirrors.noLowest (pagePath p) (pagePath_length p)]
  simp

section Root

variable {ram : ByteMemory}

section
variable (zero : ∀ i, entryAt ram (r * pageSize) i = 0)
include zero

lemma tableAt_of_zero {path : List (Fin 512)} {tbl : Nat}
    (hr : tableAt ram r path = some tbl) : path = [] ∧ tbl = r := by
  cases path with
  | nil => exact ⟨rfl, (Option.some.inj hr).symm⟩
  | cons i =>
    have noChild : tableChild ram r i = none := by
      rw [tableChild, zero i]
      rfl
    rw [tableAt, PointerTree.descend_cons, noChild, bind_none] at hr
    simp at hr

lemma isTable_of_zero (tbl : Nat) : IsTable ram r tbl ↔ tbl = r := by
  constructor
  · rintro ⟨path, _, hr⟩
    exact (tableAt_of_zero zero hr).2
  rintro rfl
  exact ⟨[], by simp, rfl⟩

end

lemma mirrors_takeZeroed (man : start.pool.Managed r)
    (hc : start.pool.used r = false) (small : start.pool.totalPages ≤ 2 ^ 40) :
    Mirrors r start (takeZeroed start r) := by
  have zero (i : Fin 512) :
    entryAt (takeZeroed start r).memory (r * pageSize) i = 0 :=
    entryAt_zero (fun a mem => takeZeroed_zero mem) i
  have noLowest : NoLowest (takeZeroed start r).memory r := by
    intro path lowest
    cases hr : tableAt (takeZeroed start r).memory r path with
    | none => rfl
    | some => simp [(tableAt_of_zero zero hr).1] at lowest
  constructor
  · constructor
    · constructor
      · intro fst snd tbl _ _ at1 nextReached
        rw [(tableAt_of_zero zero at1).1, (tableAt_of_zero zero nextReached).1]
      intro path tbl i _ hr pres
      rw [(tableAt_of_zero zero hr).2, zero] at pres
      simp [flagSet] at pres
    · intro tbl isTable
      rw [(isTable_of_zero zero tbl).mp isTable]
      exact ⟨man, (used_takeZeroed start r r).mpr (.inr rfl)⟩
    · exact small
  · exact noLowest
  · intro lp e isLarge
    rw [largeLeaf] at isLarge
    split at isLarge
    · cases hr : tableAt (takeZeroed start r).memory r (largePath lp) with
      | none => simp [hr] at isLarge
      | some =>
        have := congrArg List.length (tableAt_of_zero zero hr).1
        simp [largePath_length] at this
    · simp at isLarge
  · rfl
  · intro tbl isTable
    rw [(isTable_of_zero zero tbl).mp isTable]
    exact hc
  · intro p
    rw [used_takeZeroed, isTable_of_zero zero]
  intro a ht
  apply takeZeroed_outside
  rintro rfl
  simp [hc] at ht

end Root

section Windows

def SupervisorFlags (flags : Nat) : Prop := flags < 2 ^ 12 ∧ flags.testBit 2 = false

lemma largeValue_supervisor {f fl : Nat} (lowFlags : SupervisorFlags fl) :
    flagSet (largeValue f fl) pageUser = false := by
  have presentBit : pagePresent.testBit 2 = false := by decide
  have hugeBit : pageHuge.testBit 2 = false := by decide
  rw [flagSet_user, largeValue, testBit_frame_or (by norm_num), Nat.testBit_or, Nat.testBit_or,
    withoutHuge, Nat.testBit_and, lowFlags.2, presentBit, hugeBit]
  simp

def KeepsLarge (root : Nat) (pre post : Machine) : Prop :=
  ∀ largePage, (largeLeaf pre.memory root largePage).isSome →
    (largeLeaf post.memory root largePage).isSome

lemma Mirrors.mapLarge (mirrors : Mirrors r start m) {va fl : Nat}
    (aligned : va % largePageSize = 0) (lowFlags : SupervisorFlags fl) :
    (∃ post, pagingMap2m (r * pageSize) va va fl m =
        .error (.panic "paging: out of pages for table") post) ∨
      ∃ post, pagingMap2m (r * pageSize) va va fl m = .ok .ok post ∧
        Mirrors r start post ∧ KeepsLarge r m post ∧
        (largeLeaf post.memory r (largeOf va)).isSome := by
  rcases pagingMap2m_spec mirrors.ok aligned lowFlags.1 mirrors.noLowest with
    panicked | ⟨post, hm, hg, noLowest, largeEq⟩
  · exact .inl panicked
  right
  refine ⟨post, hm, mirrors.grow hg noLowest ?_, ?_, ?_⟩
  · intro lp e isLarge
    rw [largeEq] at isLarge
    by_cases eq : lp = largeOf va
    · rw [eq, update_self] at isLarge
      rw [← Option.some.inj isLarge]
      exact largeValue_supervisor lowFlags
    rw [update_of_ne eq] at isLarge
    exact mirrors.supervisor lp e isLarge
  · intro lp pre
    rw [largeEq]
    by_cases eq : lp = largeOf va
    · rw [eq, update_self, isSome_some]
    · rwa [update_of_ne eq]
  · rw [largeEq, update_self, isSome_some]

lemma Mirrors.mapLargePages (cnt : Nat) {pa fl : Nat} (mirrors : Mirrors r start m)
    (aligned : pa % largePageSize = 0) (lowFlags : SupervisorFlags fl) :
    (∃ post, mapLargePages (r * pageSize) fl cnt pa m =
        .error (.panic "paging: out of pages for table") post) ∨
      ∃ post, mapLargePages (r * pageSize) fl cnt pa m = .ok 0 post ∧
        Mirrors r start post ∧ KeepsLarge r m post ∧
        (0 < cnt → (largeLeaf post.memory r (largeOf pa)).isSome) := by
  induction cnt generalizing pa m with
  | zero => exact .inr ⟨m, rfl, mirrors, fun _ hm => hm, by simp⟩
  | succ _ ih =>
    rw [HnxKernel.mapLargePages]
    rcases mirrors.mapLarge aligned lowFlags with
      ⟨post, panicked⟩ | ⟨mid, hm, midMirrors, midKeeps, here⟩
    · exact .inl ⟨post, by rw [bind_of_error panicked]⟩
    rw [bind_of_ok hm, if_neg (by simp)]
    have nextAligned : (pa + largePageSize) % largePageSize = 0 := by
      rw [Nat.add_mod_right, aligned]
    rcases ih midMirrors nextAligned with panicked | ⟨post, rest, afterMirrors, keeps, _⟩
    · exact .inl panicked
    exact .inr ⟨post, rest, afterMirrors, fun p was => keeps p (midKeeps p was),
      fun _ => keeps _ here⟩

lemma alignDown_large_mod (val : Nat) : alignDown val largePageSize % largePageSize = 0 := by
  rw [alignDown, show largePageSize = 2 ^ 21 from rfl, Nat.and_mod_two_pow]
  exact Nat.and_zero _

lemma Mirrors.mapWindows {windows : List Window}
    (lowFlags : ∀ window ∈ windows, SupervisorFlags window.flags)
    (mirrors : Mirrors r start m) : (∃ post, mapWindows (r * pageSize) windows m =
        .error (.panic "paging: out of pages for table") post) ∨
      ∃ post, mapWindows (r * pageSize) windows m = .ok 0 post ∧
        Mirrors r start post ∧ KeepsLarge r m post ∧
        ∀ fl rest, windows = ⟨0, userImageBase, fl⟩ :: rest →
          (largeLeaf post.memory r 0).isSome := by
  induction windows generalizing m with
  | nil => exact .inr ⟨m, rfl, mirrors, fun _ hm => hm, by simp⟩
  | cons window _ ih =>
    rw [HnxKernel.mapWindows, mapSupervisor2m]
    rcases mirrors.mapLargePages _ (alignDown_large_mod window.phys)
        (lowFlags window (by simp)) with
      ⟨post, panicked⟩ | ⟨mid, hm, midMirrors, midKeeps, here⟩
    · exact .inl ⟨post, by rw [bind_of_error panicked]⟩
    rw [bind_of_ok hm, if_neg (by simp)]
    rcases ih (fun o mem => lowFlags o (by simp [mem])) midMirrors with
      panicked | ⟨post, rest, afterMirrors, keeps, _⟩
    · exact .inl panicked
    refine .inr ⟨post, rest, afterMirrors, fun p was => keeps p (midKeeps p was), ?_⟩
    intro fl others winEq
    obtain ⟨rfl, rfl⟩ := List.cons.inj winEq
    have notEmpty : 0 < (alignUp (u64 (0 + userImageBase)) largePageSize -
      alignDown 0 largePageSize) / largePageSize := by decide
    have firstPage : largeOf (alignDown 0 largePageSize) = 0 := by decide
    have firstMapped := here notEmpty
    rw [firstPage] at firstMapped
    exact keeps 0 firstMapped

end Windows

section UserWalk

lemma frameNumber_or_user (entry : Nat) : frameNumber (entry ||| pageUser) = frameNumber entry := by
  have shifted : (entry ||| pageUser) >>> 12 = entry >>> 12 := by
    rw [Nat.shiftRight_or_distrib]
    exact Nat.or_zero _
  rw [Nat.shiftRight_eq_div_pow, Nat.shiftRight_eq_div_pow] at shifted
  rw [frameNumber, frameNumber]
  exact congrArg (· % 2 ^ 40) shifted

def allowUser (mach : Machine) (tbl : Nat) (slot : Fin 512) : Machine where
  memory := writeEntry mach.memory tbl slot
    (entryAt mach.memory (tbl * pageSize) slot ||| pageUser)
  pool := mach.pool

lemma Mirrors.allowUser (mirrors : Mirrors r start m) {spot : List (Fin 512)} {table : Nat}
    {slot : Fin 512} (upper : spot.length ≤ 1) (hr : tableAt m.memory r spot = some table)
    (pres : flagSet (entryAt m.memory (table * pageSize) slot) pagePresent = true) :
    Mirrors r start (allowUser m table slot) ∧
      SameTables m.memory (HnxKernel.allowUser m table slot).memory r ∧
      largeLeaf (HnxKernel.allowUser m table slot).memory r = largeLeaf m.memory r := by
  have notHuge := mirrors.ok.tree.upper spot table slot upper hr pres
  rw [flagSet_present] at pres
  rw [flagSet_huge] at notHuge
  have bound : entryAt m.memory (table * pageSize) slot ||| pageUser < 256 ^ 8 := by
    rw [show 256 ^ 8 = 2 ^ 64 by norm_num]
    apply Nat.or_lt_two_pow
    · exact entryAt_lt _ _ _
    · decide
  have userBits : pageUser.testBit 7 = false ∧ pageUser.testBit 0 = false := by decide
  have sameChild : tableChild (writeEntry m.memory table slot
      (entryAt m.memory (table * pageSize) slot ||| pageUser)) table slot =
    tableChild m.memory table slot := by
    rw [tableChild, entryAt_writeEntry_same bound, tableChild, frameNumber_or_user,
      flagSet_present, flagSet_huge, flagSet_present, flagSet_huge, Nat.testBit_or, Nat.testBit_or,
      userBits.1, userBits.2, Bool.or_false, Bool.or_false]
  obtain ⟨eq, t, _, largeEq⟩ := writeFlags_spec mirrors.ok.tree upper hr bound sameChild
    (by rw [flagSet_huge, Nat.testBit_or, notHuge, userBits.1, Bool.or_false])
  have isTable : IsTable m.memory r table := ⟨spot, by omega, hr⟩
  refine ⟨?_, eq, largeEq⟩
  apply mirrors.grow (mirrors.ok.framesGrown_writeEntry isTable eq t)
  · intro path lowest
    dsimp only
    rw [eq.tableAt_eq path (by omega)]
    exact mirrors.noLowest path lowest
  dsimp only
  rw [largeEq]
  exact mirrors.supervisor

lemma tables_of_first_large {ram : ByteMemory} (hm : (largeLeaf ram r 0).isSome) :
    ∃ pdpt, tableAt ram r [0] = some pdpt ∧
      flagSet (entryAt ram (r * pageSize) 0) pagePresent = true ∧
      frameNumber (entryAt ram (r * pageSize) 0) = pdpt ∧
      flagSet (entryAt ram (pdpt * pageSize) 0) pagePresent = true := by
  have firstPath : largePath 0 = [0] ++ [0] := rfl
  have childOf (tbl : Nat) (c : (tableChild ram tbl 0).isSome) :
    flagSet (entryAt ram (tbl * pageSize) 0) pagePresent = true ∧
      tableChild ram tbl 0 = some (frameNumber (entryAt ram (tbl * pageSize) 0)) := by
    rw [tableChild] at c ⊢
    split at c
    case isTrue both =>
      rw [if_pos both]
      exact ⟨(Bool.and_eq_true_iff.mp both).1, rfl⟩
    case isFalse => simp at c
  rw [largeLeaf, if_pos (by norm_num), firstPath, tableAt_concat] at hm
  have rootChild : (tableAt ram r [0]).isSome := by
    cases hr : tableAt ram r [0] with
    | none => simp [hr] at hm
    | some => rfl
  have pdptEq : tableAt ram r [0] = tableChild ram r 0 := by
    rw [tableAt, PointerTree.descend_cons]
    exact bind_fun_some _
  obtain ⟨rootPresent, rootFrame⟩ := childOf r (pdptEq ▸ rootChild)
  rw [rootFrame] at pdptEq
  refine ⟨_, pdptEq, rootPresent, rfl, (childOf _ ?_).1⟩
  rw [pdptEq, bind_some] at hm
  cases hr : tableChild ram (frameNumber (entryAt ram (r * pageSize) 0)) 0 with
  | none => simp [hr] at hm
  | some => rfl

lemma allowUserWalk_eq {pdpt : Nat}
    (pdptEq : frameNumber (entryAt (allowUser m r 0).memory (r * pageSize) 0) = pdpt) :
    allowUserWalk (r * pageSize) m = .ok () (allowUser (allowUser m r 0) pdpt 0) := by
  have pml4Index : idxPml4 userImageBase = 0 := by decide
  have pdptIndex : idxPdpt userImageBase = 0 := by decide
  rw [allowUserWalk, pml4Index, pdptIndex, get_bind]
  change (do
    let m ← get
    let pdpt := entryAt m.memory (r * pageSize) 0 &&& pageAddrMask
    setEntry pdpt 0 (entryAt m.memory pdpt 0 ||| pageUser) : EStateM Halt Machine Unit)
      (allowUser m r 0) = _
  rw [get_bind, and_pageAddrMask, pdptEq]
  rfl

lemma Mirrors.allowUserWalk (mirrors : Mirrors r start m) (hm : (largeLeaf m.memory r 0).isSome) :
    ∃ post, allowUserWalk (r * pageSize) m = .ok () post ∧ Mirrors r start post := by
  obtain ⟨pdpt, _, rootPresent, _, _⟩ := tables_of_first_large hm
  have rootReached : tableAt m.memory r [] = some r := rfl
  obtain ⟨mirrors1, _, large1⟩ := mirrors.allowUser (by simp) rootReached rootPresent
  rw [← large1] at hm
  obtain ⟨pdpt, pdptAt, _, pdptEq, pdptPresent⟩ := tables_of_first_large hm
  obtain ⟨mirrors2, _, _⟩ := mirrors1.allowUser (by simp) pdptAt pdptPresent
  exact ⟨_, allowUserWalk_eq pdptEq, mirrors2⟩

end UserWalk

lemma supervisorWindows_flags (boot : BootInfo) (lapicBase : Nat) :
    ∀ window ∈ supervisorWindows boot lapicBase, SupervisorFlags window.flags := by
  have plain : SupervisorFlags (pagePresent ||| pageWritable) := by constructor <;> decide
  have mmio : SupervisorFlags
    (pagePresent ||| pageWritable ||| pageCacheDisable ||| pageWriteThrough) := by
    constructor <;> decide
  intro window mem
  simp only [supervisorWindows, List.mem_append, List.mem_singleton] at mem
  rcases mem with ((rfl | framebuffer) | rfl) | initramfs
  · exact plain
  · split at framebuffer
    · rw [List.mem_singleton.mp framebuffer]
      exact mmio
    · simp at framebuffer
  · exact mmio
  split at initramfs
  · rw [List.mem_singleton.mp initramfs]
    exact plain
  · simp at initramfs

/-- A panic, no memory for the record, or tables that map the supervisor windows. -/
lemma userAddressSpaceCreate_spec (boot : BootInfo) (lapicBase : Nat) (recAllocated : Bool)
    (small : start.pool.totalPages ≤ 2 ^ 40) :
    (∃ halt post, userAddressSpaceCreate boot lapicBase recAllocated start = .error halt post) ∨
      userAddressSpaceCreate boot lapicBase recAllocated start = .ok none start ∨
      ∃ r post, userAddressSpaceCreate boot lapicBase recAllocated start =
          .ok (some (r * pageSize)) post ∧ Mirrors r start post := by
  rw [userAddressSpaceCreate]
  split
  · exact .inl ⟨_, _, rfl⟩
  split
  · exact .inr (.inl rfl)
  rcases pagingNewTable_cases start with panic | ⟨r, made, man, hc⟩
  · exact .inl ⟨_, _, by rw [bind_of_error panic]⟩
  rw [bind_of_ok made]
  rcases (mirrors_takeZeroed man hc small).mapWindows
      (supervisorWindows_flags boot lapicBase) with
    ⟨post, panic⟩ | ⟨mid, hm, midMirrors, _, mapped1⟩
  · exact .inl ⟨_, post, by rw [bind_of_error panic]⟩
  obtain ⟨post, allowed, afterMirrors⟩ := midMirrors.allowUserWalk (mapped1 _ _ rfl)
  refine .inr (.inr ⟨r, post, ?_, afterMirrors⟩)
  rw [bind_of_ok hm, if_neg (by simp), bind_of_ok allowed]
  rfl

end

/-- User pages of distinct used frames that hold no tables, and 2 MiB supervisor pages. -/
structure UserSpace (root : Nat) (mach : Machine) : Prop where
  ok : SpaceOk root mach
  owned : ∀ p entry, pageLeaf mach.memory root p = some entry →
    mach.pool.Managed (frameNumber entry) ∧ mach.pool.used (frameNumber entry) = true
  notTable : ∀ p entry, pageLeaf mach.memory root p = some entry →
    ¬ IsTable mach.memory root (frameNumber entry)
  user : ∀ p entry, pageLeaf mach.memory root p = some entry → flagSet entry pageUser = true
  distinct : ∀ first second firstEntry secondEntry,
    pageLeaf mach.memory root first = some firstEntry →
    pageLeaf mach.memory root second = some secondEntry →
    frameNumber firstEntry = frameNumber secondEntry → first = second
  supervisor : ∀ largePage entry, largeLeaf mach.memory root largePage = some entry →
    flagSet entry pageUser = false

variable {r fl p cnt f : Nat} {start m pre post : Machine}

lemma Mirrors.userSpace (mirrors : Mirrors r start m) : UserSpace r m where
  __ := mirrors
  owned := by
    intro p e leaf
    simp [mirrors.pageLeaf_none] at leaf
  notTable := by
    intro p e leaf
    simp [mirrors.pageLeaf_none] at leaf
  user := by
    intro p e leaf
    simp [mirrors.pageLeaf_none] at leaf
  distinct := by
    intro fst snd ent1 ent2 leaf
    simp [mirrors.pageLeaf_none] at leaf

lemma UserSpace.grow (sp : UserSpace r pre) (tbls : TablesGrown r pre post) : UserSpace r post where
  ok := tbls.ok
  owned := by
    intro p e leaf
    rw [tbls.pageLeaf_eq] at leaf
    obtain ⟨man, ht⟩ := sp.owned p e leaf
    exact ⟨⟨man.1, tbls.total ▸ man.2⟩, (tbls.used _).mpr (.inl ht)⟩
  notTable := by
    intro p e leaf
    rw [tbls.pageLeaf_eq] at leaf
    exact tbls.toFramesGrown.not_isTable (sp.owned p e leaf).2
      (sp.notTable p e leaf)
  user := by
    rw [tbls.pageLeaf_eq]
    exact sp.user
  distinct := by
    rw [tbls.pageLeaf_eq]
    exact sp.distinct
  supervisor := by
    rw [tbls.largeLeaf_eq]
    exact sp.supervisor

lemma PageMapped.frameNumber_eq (mapped : PageMapped r fl p f pre post) :
    frameNumber (leafValue f (userFlags fl)) = f :=
  frameNumber_leafValue (lt_of_lt_of_le mapped.managed.2 (mapped.total ▸ mapped.ok.small))
    (userFlags_lt fl)

lemma PageMapped.leaf_cases (mapped : PageMapped r fl p f pre post)
    {o e : Nat} (leaf : pageLeaf post.memory r o = some e) :
    (o = p ∧ e = leafValue f (userFlags fl)) ∨ (o ≠ p ∧ pageLeaf pre.memory r o = some e) := by
  rw [mapped.pageLeaf_eq] at leaf
  by_cases eq : o = p
  · rw [eq, Function.update_self] at leaf
    exact .inl ⟨eq, (Option.some.inj leaf).symm⟩
  rw [Function.update_of_ne eq] at leaf
  exact .inr ⟨eq, leaf⟩

section
variable (sp : UserSpace r pre)
include sp

lemma UserSpace.mapPage (mapped : PageMapped r fl p f pre post) : UserSpace r post where
  ok := mapped.ok
  owned := by
    intro o e leaf
    rcases mapped.leaf_cases leaf with ⟨_, rfl⟩ | ⟨_, was⟩
    · rw [mapped.frameNumber_eq]
      exact ⟨⟨mapped.managed.1, mapped.total ▸ mapped.managed.2⟩,
        (mapped.used f).mpr (.inr (.inr rfl))⟩
    obtain ⟨man, ht⟩ := sp.owned o e was
    exact ⟨⟨man.1, mapped.total ▸ man.2⟩, (mapped.used _).mpr (.inl ht)⟩
  notTable := by
    intro o e leaf isTable
    rcases mapped.leaf_cases leaf with ⟨_, rfl⟩ | ⟨_, was⟩
    · rw [mapped.frameNumber_eq] at isTable
      exact mapped.notTable isTable
    rcases mapped.fresh _ isTable with wasTable | free
    · exact sp.notTable o e was wasTable
    · simp [(sp.owned o e was).2] at free
  user := by
    intro o e leaf
    rcases mapped.leaf_cases leaf with ⟨_, rfl⟩ | ⟨_, was⟩
    · exact user_leafValue f fl
    · exact sp.user o e was
  distinct := by
    intro fst snd ent1 ent2 firstPage page2 frameEq
    have notFresh (o e : Nat) (was : pageLeaf pre.memory r o = some e) :
      frameNumber e ≠ f := by
      rintro rfl
      have clear := mapped.clear
      simp [(sp.owned o e was).2] at clear
    rcases mapped.leaf_cases firstPage with ⟨rfl, rfl⟩ | ⟨_, was1⟩ <;>
      rcases mapped.leaf_cases page2 with ⟨rfl, rfl⟩ | ⟨_, was2⟩
    · rfl
    · rw [mapped.frameNumber_eq] at frameEq
      exact absurd frameEq.symm (notFresh _ _ was2)
    · rw [mapped.frameNumber_eq] at frameEq
      exact absurd frameEq (notFresh _ _ was1)
    · exact sp.distinct _ _ _ _ was1 was2 frameEq
  supervisor := by
    rw [mapped.largeLeaf_eq]
    exact sp.supervisor

lemma UserSpace.mapRange (mapped : RangeMapped r fl p cnt pre post) : UserSpace r post := by
  induction mapped with
  | none => exact sp
  | more fst _ ih => exact ih (sp.mapPage fst)

lemma UserSpace.of_rangeResult {va sz : Nat} {code : Int}
    (res : RangeResult r va sz fl pre post code) : UserSpace r post := by
  cases res with
  | refused _ eq => exact eq ▸ sp
  | mapped _ _ _ mapped => exact sp.mapRange mapped
  | stopped _ _ _ _ _ _ mapped tbls => exact (sp.mapRange mapped).grow tbls

end

/-- Physical addresses have at most 52 bits. -/
inductive BuiltSpace (root : Nat) : Machine → Prop
  | created {bootInfo : BootInfo} {lapicBase : Nat} {start mach : Machine}
      (small : start.pool.totalPages ≤ 2 ^ 40)
      (returned : userAddressSpaceCreate bootInfo lapicBase true start =
        .ok (some (root * pageSize)) mach) : BuiltSpace root mach
  | mapped {va size flags : Nat} {code : Int} {before post : Machine}
      (built : BuiltSpace root before)
      (returned : userMapRange (root * pageSize) va size flags before = .ok code post) :
      BuiltSpace root post

lemma mirrors_of_created {boot : BootInfo} {lapicBase pml4 : Nat} {recAllocated : Bool}
    (small : start.pool.totalPages ≤ 2 ^ 40)
    (ret : userAddressSpaceCreate boot lapicBase recAllocated start =
      .ok (some pml4) m) : ∃ r, pml4 = r * pageSize ∧ Mirrors r start m := by
  rcases userAddressSpaceCreate_spec boot lapicBase recAllocated small with
    ⟨halt, post, halted⟩ | ha | ⟨r, post, created, mirrors⟩
  · simp [ret] at halted
  · simp [ret] at ha
  rw [ret] at created
  obtain ⟨pml4Eq, rfl⟩ := EStateM.Result.ok.inj created
  exact ⟨r, Option.some.inj pml4Eq, mirrors⟩

lemma BuiltSpace.userSpace (built : BuiltSpace r m) : UserSpace r m := by
  induction built with
  | created small ret =>
    obtain ⟨created, pml4Eq, mirrors⟩ := mirrors_of_created small ret
    have rootEq := Nat.eq_of_mul_eq_mul_right (by decide) pml4Eq
    exact rootEq ▸ mirrors.userSpace
  | mapped _ ret sp => exact sp.of_rangeResult (rangeResult_of_ok sp.ok ret)

end HnxKernel
