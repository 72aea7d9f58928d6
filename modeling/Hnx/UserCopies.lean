import Hnx.FailedMapping
import Hnx.ProcessLifecycle

/-!
# Copying into a user space

`user_copy_to_space` writes page by page through the window onto physical memory.
-/

namespace HnxKernel

section

open Nat

variable {r tbl fl va : Nat} {slot : Fin 512} {spot : List (Fin 512)}
  {ram o : ByteMemory} {m pre middle post : Machine}

def Tidy (ram : ByteMemory) (root : Nat) : Prop :=
  ∀ tbl, IsTable ram root tbl → ∀ idx,
    flagSet (entryAt ram (tbl * pageSize) idx) pagePresent = false →
      entryAt ram (tbl * pageSize) idx = 0

lemma Tidy.agrees (tidy : Tidy ram r) (agrees : AgreesOnTables ram o r) : Tidy o r := by
  intro tbl isTable idx absent
  have was : IsTable ram r tbl := (agrees.sameTables.isTable_iff tbl).mp isTable
  rw [agrees.entryAt_eq was] at absent ⊢
  exact tidy tbl was idx absent

lemma Tidy.writeEntry {val : Nat} (tidy : Tidy ram r)
    (eq : SameTables ram (writeEntry ram tbl slot val) r) (bound : val < 256 ^ 8)
    (pres : flagSet val pagePresent = true) : Tidy (HnxKernel.writeEntry ram tbl slot val) r := by
  intro other isTable idx absent
  by_cases here : (other, idx) = (tbl, slot)
  · obtain ⟨rfl, rfl⟩ := Prod.mk.inj here
    rw [entryAt_writeEntry_same bound, pres] at absent
    simp at absent
  rw [entryAt_writeEntry_other here] at absent ⊢
  exact tidy other ((eq.isTable_iff other).mp isTable) idx absent

lemma Tidy.link {fresh val : Nat} (tidy : Tidy ram r) (t : PageTree ram r)
    (link : Linkable ram r spot slot tbl fresh val) : Tidy (HnxKernel.writeEntry ram tbl slot val)
      r := by
  intro other isTable idx absent
  rcases (link.isTable_iff t other).mp isTable with was | rfl
  · by_cases here : (other, idx) = (tbl, slot)
    · obtain ⟨rfl, rfl⟩ := Prod.mk.inj here
      rw [entryAt_writeEntry_same link.bound, link.present] at absent
      simp at absent
    rw [entryAt_writeEntry_other here] at absent ⊢
    exact tidy other was idx absent
  · exact link.entryAt_fresh idx

lemma Tidy.nextLevel {next : Nat} (tidy : Tidy m.memory r) (spot : List (Fin 512))
    (ok : SpaceOk r m) (hi : spot.length ≤ 2)
    (hr : tableAt m.memory r spot = some tbl)
    (hlt : fl < 2 ^ 12) (hn : fl.testBit 7 = false)
    (run : nextLevel (tbl * pageSize) slot fl m = .ok next post) : Tidy post.memory r := by
  rw [HnxKernel.nextLevel, get_bind] at run
  split at run
  · obtain ⟨-, rfl⟩ := EStateM.Result.ok.inj run
    exact tidy
  rename_i ha
  rcases pagingNewTable_cases m with panic | ⟨p, made, man, hc⟩
  · rw [bind_of_error panic] at run
    cases run
  rw [bind_of_ok made, linkValue_eq (lt_of_lt_of_le man.2 ok.small)] at run
  cases run
  have agrees := ok.agrees_takeZeroed hc
  exact (tidy.agrees agrees).link (agrees.pageTree ok.tree)
    (ok.linkable hi hr (by simpa using ha) man hc hlt hn)

lemma Tidy.pagingMap4k {f : Nat} {status : KStatus} (tidy : Tidy m.memory r)
    (ok : SpaceOk r m) (frameLt : f < 2 ^ 40) (hlt : fl < 2 ^ 12)
    (run : pagingMap4k (r * pageSize) va (f * pageSize) fl m = .ok status post) :
    Tidy post.memory r := by
  unfold HnxKernel.pagingMap4k at run
  obtain ⟨pdptAddr, fst, run1, run⟩ := ok_of_bind run
  obtain ⟨pdAddr, snd, run2, run⟩ := ok_of_bind run
  have lowFlags := interFlags_lt fl
  have notHuge := interFlags_notHuge fl
  rcases nextLevel_spec [] ok (by simp) rfl
      (fun pres => ok.tree.upper [] r (idxPml4 va) (by simp) rfl pres) lowFlags notHuge with
    panic | ⟨pdpt, _, ok1, grown1, pdptAt, -⟩
  · rw [run1] at panic
    cases panic
  obtain ⟨rfl, rfl⟩ := EStateM.Result.ok.inj (run1.symm.trans ok1)
  have firstTidy := tidy.nextLevel [] ok (by simp) rfl lowFlags notHuge run1
  rcases nextLevel_spec [idxPml4 va] grown1.ok (by simp) pdptAt
      (fun pres => grown1.ok.tree.upper [idxPml4 va] pdpt (idxPdpt va) (by simp)
        pdptAt pres) lowFlags notHuge with
    panic | ⟨pd, _, ok2, grown2, pdReached, -⟩
  · rw [run2] at panic
    cases panic
  obtain ⟨rfl, rfl⟩ := EStateM.Result.ok.inj (run2.symm.trans ok2)
  have secondTidy :=
    firstTidy.nextLevel [idxPml4 va] grown1.ok (by simp) pdptAt lowFlags notHuge run2
  rw [get_bind] at run
  split at run
  · obtain ⟨-, rfl⟩ := EStateM.Result.ok.inj run
    exact secondTidy
  rename_i small
  obtain ⟨ptAddr, third, run3, run⟩ := ok_of_bind run
  rcases nextLevel_spec ([idxPml4 va] ++ [idxPdpt va]) grown2.ok (by simp) pdReached
      (fun _ => by simpa using small) lowFlags notHuge with
    panic | ⟨pt, _, ok3, grown3, ptReached, -⟩
  · rw [run3] at panic
    cases panic
  obtain ⟨rfl, rfl⟩ := EStateM.Result.ok.inj (run3.symm.trans ok3)
  have thirdTidy := secondTidy.nextLevel ([idxPml4 va] ++ [idxPdpt va]) grown2.ok (by simp)
    pdReached lowFlags notHuge run3
  cases run
  have lowest := @sameTables_writeEntry_lowest third.memory r
    ([idxPml4 va] ++ [idxPdpt va] ++ [idxPd va]) pt (leafValue f fl) (idxPt va)
    grown3.ok.tree (by simp) ptReached
  have written := thirdTidy.writeEntry lowest (leafValue_lt frameLt hlt)
    (present_leafValue f fl)
  rw [leafValue] at written
  rwa [frame_and_mask frameLt, Nat.or_assoc]

section Created

/-- In frames allocated since `start`, an entry that is not present is zero. -/
def CleanSince (start : FramePool) (mach : Machine) : Prop :=
  ∀ frame, start.used frame = false → mach.pool.used frame = true → ∀ idx,
    flagSet (entryAt mach.memory (frame * pageSize) idx) pagePresent = false →
      entryAt mach.memory (frame * pageSize) idx = 0

variable {start : FramePool} {next : Nat}

section
variable (clean : CleanSince start m)
include clean

lemma CleanSince.takeZeroed (p : Nat) : CleanSince start (takeZeroed m p) := by
  intro f hf ht index ha
  by_cases eq : f = p
  · subst eq
    exact entryAt_zero (fun a mem => takeZeroed_zero mem) index
  have kept : entryAt (HnxKernel.takeZeroed m p).memory (f * pageSize) index =
    entryAt m.memory (f * pageSize) index := by
    apply ByteMemory.readLE_congr
    intro off offLt
    apply takeZeroed_outside
    have idxLt := index.isLt
    simp only [pageSize]
    omega
  rw [kept] at ha ⊢
  rcases (used_takeZeroed m p f).mp ht with was | here
  · exact clean f hf was index ha
  · exact absurd here eq

lemma CleanSince.writeEntry {val : Nat}
    (hb : val < 256 ^ 8) (pres : flagSet val pagePresent = true) :
    CleanSince start { m with memory := writeEntry m.memory tbl slot val } := by
  intro f hf ht i ha
  by_cases here : (f, i) = (tbl, slot)
  · obtain ⟨rfl, rfl⟩ := Prod.mk.inj here
    rw [entryAt_writeEntry_same hb, pres] at ha
    cases ha
  rw [entryAt_writeEntry_other here] at ha ⊢
  exact clean f hf ht i ha

lemma CleanSince.nextLevel (hlt : fl < 2 ^ 12)
    (run : nextLevel (tbl * pageSize) slot fl m = .ok next post) :
    CleanSince start post ∧ ∃ hb, next = hb * pageSize := by
  rw [HnxKernel.nextLevel, get_bind] at run
  split at run
  · obtain ⟨rfl, rfl⟩ := EStateM.Result.ok.inj run
    exact ⟨clean, _, and_pageAddrMask _⟩
  rcases pagingNewTable_cases m with panic | ⟨p, made, _, _⟩
  · rw [bind_of_error panic] at run
    cases run
  rw [bind_of_ok made, and_pageAddrMask, Nat.or_assoc] at run
  cases run
  refine ⟨(clean.takeZeroed p).writeEntry (frame_or_lt (frameNumber_lt _) ?_) ?_, p, rfl⟩
  · exact Nat.or_lt_two_pow (by decide) hlt
  rw [flagSet_present, testBit_frame_or (by norm_num), testBit_or]
  simp [pagePresent]

end

variable {pa : Nat} {code : Int} {begun : Machine}

lemma CleanSince.pagingMap2m {status : KStatus} (clean : CleanSince start m) (hlt : fl < 2 ^ 12)
    (run : pagingMap2m (r * pageSize) va pa fl m = .ok status post) : CleanSince start post := by
  unfold HnxKernel.pagingMap2m at run
  split at run
  · obtain ⟨-, rfl⟩ := EStateM.Result.ok.inj run
    exact clean
  obtain ⟨pdptAddr, fst, run1, run⟩ := ok_of_bind run
  obtain ⟨pdAddr, snd, run2, run⟩ := ok_of_bind run
  obtain ⟨clean1, pdpt, rfl⟩ := clean.nextLevel (interFlags_lt fl) run1
  obtain ⟨clean2, pd, rfl⟩ := clean1.nextLevel (interFlags_lt fl) run2
  rw [and_pageAddrMask, Nat.or_assoc, Nat.or_assoc] at run
  cases run
  refine clean2.writeEntry (frame_or_lt (frameNumber_lt _) ?_) ?_
  · rw [← Nat.or_assoc]
    exact or_lt_two_pow (leafFlags_lt hlt) (by decide)
  rw [flagSet_present, testBit_frame_or (by norm_num), testBit_or, testBit_or]
  simp [pagePresent]

lemma CleanSince.mapLargePages (cnt : Nat) (clean : CleanSince start m) (hlt : fl < 2 ^ 12)
    (run : mapLargePages (r * pageSize) fl cnt pa m = .ok code post) : CleanSince start post := by
  induction cnt generalizing pa m with
  | zero =>
    cases run
    exact clean
  | succ _ ih =>
    rw [HnxKernel.mapLargePages] at run
    obtain ⟨status, middle, mapping, run⟩ := ok_of_bind run
    have middleClean := clean.pagingMap2m hlt mapping
    split at run
    · obtain ⟨-, rfl⟩ := EStateM.Result.ok.inj run
      exact middleClean
    · exact ih middleClean run

lemma CleanSince.mapWindows {windows : List Window} (clean : CleanSince start m)
    (lowFlags : ∀ window ∈ windows, SupervisorFlags window.flags)
    (run : mapWindows (r * pageSize) windows m = .ok code post) : CleanSince start post := by
  induction windows generalizing m with
  | nil =>
    cases run
    exact clean
  | cons window _ ih =>
    rw [HnxKernel.mapWindows, mapSupervisor2m] at run
    obtain ⟨status, middle, mapping, run⟩ := ok_of_bind run
    have middleClean := clean.mapLargePages _ (lowFlags window (by simp)).1 mapping
    split at run
    · obtain ⟨-, rfl⟩ := EStateM.Result.ok.inj run
      exact middleClean
    · exact ih middleClean (fun o mem => lowFlags o (by simp [mem])) run

lemma CleanSince.tidy (clean : CleanSince begun.pool m)
    (mirrors : Mirrors r begun m) : Tidy m.memory r := by
  intro tbl ht
  exact clean tbl (mirrors.fresh tbl ht) ((mirrors.used tbl).mpr (.inr ht))

lemma Tidy.allowUser (tidy : Tidy m.memory r)
    (eq : SameTables m.memory (allowUser m tbl slot).memory r)
    (pres : flagSet (entryAt m.memory (tbl * pageSize) slot) pagePresent = true) :
    Tidy (allowUser m tbl slot).memory r := by
  refine tidy.writeEntry eq ?_ ?_
  · rw [show 256 ^ 8 = 2 ^ 64 by norm_num]
    exact or_lt_two_pow (entryAt_lt _ _ _) (by decide)
  rw [flagSet_present] at pres ⊢
  rw [testBit_or, pres, Bool.true_or]

lemma Tidy.allowUserWalk (tidy : Tidy m.memory r)
    (mirrors : Mirrors r begun m) (hm : (largeLeaf m.memory r 0).isSome)
    (run : allowUserWalk (r * pageSize) m = .ok () post) : Tidy post.memory r := by
  obtain ⟨pdpt, _, rootPresent, _, _⟩ := tables_of_first_large hm
  have rootReached : tableAt m.memory r [] = some r := rfl
  obtain ⟨mirrors1, same1, large1⟩ := mirrors.allowUser (by simp) rootReached rootPresent
  rw [← large1] at hm
  obtain ⟨pdpt, pdptAt, _, pdptEq, pdptPresent⟩ := tables_of_first_large hm
  obtain ⟨_, same2, _⟩ := mirrors1.allowUser (by simp) pdptAt pdptPresent
  rw [allowUserWalk_eq pdptEq] at run
  cases run
  exact (tidy.allowUser same1 rootPresent).allowUser same2 pdptPresent

lemma tidy_of_created {boot : BootInfo} {lapicBase : Nat}
    {recAllocated : Bool} (small : begun.pool.totalPages ≤ 2 ^ 40)
    (ret : userAddressSpaceCreate boot lapicBase recAllocated begun =
      .ok (some (r * pageSize)) m) : Tidy m.memory r := by
  rw [userAddressSpaceCreate] at ret
  split at ret
  · cases ret
  split at ret
  · cases ret
  rcases pagingNewTable_cases begun with panic | ⟨made, creating, man, hc⟩
  · rw [bind_of_error panic] at ret
    cases ret
  rw [bind_of_ok creating] at ret
  have nothing : CleanSince begun.pool begun := by
    intro f hf ht
    rw [hf] at ht
    cases ht
  have lowFlags := supervisorWindows_flags boot lapicBase
  rcases (mirrors_takeZeroed man hc small).mapWindows lowFlags with
    ⟨halted, panic⟩ | ⟨middle, hm, midMirrors, _, mapped1⟩
  · rw [bind_of_error panic] at ret
    cases ret
  have middleTidy := ((nothing.takeZeroed made).mapWindows lowFlags hm).tidy midMirrors
  rw [bind_of_ok hm, if_neg (by simp)] at ret
  obtain ⟨_, post, ha, ret⟩ := ok_of_bind ret
  obtain ⟨rootEq, rfl⟩ := EStateM.Result.ok.inj ret
  have eq : made = r := eq_of_mul_eq_mul_right (by decide) (Option.some.inj rootEq)
  subst eq
  exact middleTidy.allowUserWalk midMirrors (mapped1 _ _ rfl) ha

end Created

/-- At least `cnt` frames are free. -/
def Supply (pool : FramePool) (cnt : Nat) : Prop :=
  ∃ frames : Finset Nat, cnt ≤ frames.card ∧
    ∀ frame ∈ frames, pool.Managed frame ∧ pool.used frame = false

variable {pool : FramePool} {cnt : Nat}

lemma Supply.mono {fewer : Nat} (supply : Supply pool cnt)
    (le : fewer ≤ cnt) : Supply pool fewer := by
  obtain ⟨frames, enough, free⟩ := supply
  exact ⟨frames, le.trans enough, free⟩

lemma Supply.take (supply : Supply pool (cnt + 1))
    (f : Nat) : Supply { pool with used := Function.update pool.used f true } cnt := by
  obtain ⟨frames, le, free⟩ := supply
  refine ⟨frames.erase f, ?_, ?_⟩
  · have := Finset.pred_card_le_card_erase (s := frames) (a := f)
    omega
  intro left mem
  obtain ⟨ne, hi⟩ := Finset.mem_erase.mp mem
  obtain ⟨man, hc⟩ := free left hi
  refine ⟨man, ?_⟩
  dsimp only
  rwa [Function.update_of_ne ne]

lemma Supply.frame (supply : Supply m.pool 1) : ¬ NoFreeFrame m := by
  obtain ⟨frames, le, free⟩ := supply
  obtain ⟨f, mem⟩ := Finset.card_pos.mp (lt_of_lt_of_le zero_lt_one le)
  intro none
  have taken := none f (free f mem).1
  rw [(free f mem).2] at taken
  cases taken

lemma Supply.pagingNewTable (supply : Supply m.pool (cnt + 1)) :
    ∃ p, pagingNewTable m = .ok (p * pageSize) (takeZeroed m p) ∧
      Supply (takeZeroed m p).pool cnt := by
  rcases pagingNewTable_cases m with panic | ⟨p, made, _, _⟩
  · rcases m.pool.allocPage_cases with ha | ⟨p, hf, _, _⟩
    · exact absurd (noFreeFrame_of_allocPage ha) (supply.mono (by omega)).frame
    rw [HnxKernel.pagingNewTable, bind_of_ok (allocPage_of_some hf)] at panic
    cases panic
  · exact ⟨p, made, supply.take p⟩

lemma Supply.nextLevel (supply : Supply m.pool (cnt + 1)) (tbl : Nat) (slot : Fin 512) (fl : Nat) :
    ∃ next post, nextLevel tbl slot fl m = .ok next post ∧ Supply post.pool cnt := by
  rw [HnxKernel.nextLevel, get_bind]
  split
  · exact ⟨_, m, rfl, supply.mono (by omega)⟩
  obtain ⟨p, made, left⟩ := supply.pagingNewTable
  rw [bind_of_ok made]
  exact ⟨_, _, rfl, left⟩

lemma Supply.pagingMap4k (supply : Supply m.pool (cnt + 3)) (pml4 va pa fl : Nat) :
    ∃ status post, pagingMap4k pml4 va pa fl m = .ok status post ∧ Supply post.pool cnt := by
  unfold HnxKernel.pagingMap4k
  obtain ⟨pdpt, fst, ok1, left1⟩ := supply.nextLevel pml4 (idxPml4 va) (interFlags fl)
  rw [bind_of_ok ok1]
  obtain ⟨pd, snd, ok2, left2⟩ := left1.nextLevel pdpt (idxPdpt va) (interFlags fl)
  rw [bind_of_ok ok2, get_bind]
  split
  · exact ⟨_, snd, rfl, left2.mono (by omega)⟩
  obtain ⟨pt, third, ok3, left3⟩ := left2.nextLevel pd (idxPd va) (interFlags fl)
  rw [bind_of_ok ok3]
  exact ⟨_, _, rfl, left3⟩

lemma Tidy.largeInWay (tidy : Tidy ram r) (inWay : LargeInWay ram r va) :
    (largeLeaf ram r (largeOf va)).isSome := by
  obtain ⟨dir, hr, huge⟩ := inWay
  have pres : flagSet (entryAt ram (dir * pageSize) (idxPd va)) pagePresent = true := by
    by_contra ha
    have zero := tidy dir ⟨_, by simp [largePath_length], hr⟩ (idxPd va) (by simpa using ha)
    rw [zero, flagSet_zero_huge] at huge
    cases huge
  rw [largeLeaf, if_pos (largeOf_lt va), hr, Option.bind_some, ofNat_largeOf]
  simp [pres, huge]

lemma mapFreshPages_step_supplied {p cnt spare : Nat} (ok : SpaceOk r m)
    (tidy : Tidy m.memory r) (hlt : p < 2 ^ 35)
    (hnl : largeLeaf m.memory r (p / 512) = none)
    (supply : Supply m.pool (spare + 4)) :
    ∃ f post, PageMapped r fl p f m post ∧ Tidy post.memory r ∧ Supply post.pool spare ∧
      mapFreshPages (r * pageSize) fl (cnt + 1) (p * pageSize) m =
        mapFreshPages (r * pageSize) fl cnt ((p + 1) * pageSize) post := by
  have pageBound : p < 2 ^ 36 := by omega
  rcases m.pool.allocPage_cases with ha | ⟨f, hf, man, hc⟩
  · exact absurd (noFreeFrame_of_allocPage ha) (supply.mono (by omega)).frame
  have ht : Supply (takeZeroed m f).pool (spare + 3) := supply.take f
  have zeroedOk := ok.spaceOk_takeZeroed hc
  have frameLt := frame_lt_of_managed ok man
  obtain ⟨status, hm, run, left⟩ := ht.pagingMap4k (r * pageSize) (p * pageSize)
    (f * pageSize) (userFlags fl)
  have mappedTidy := (tidy.agrees (ok.agrees_takeZeroed hc)).pagingMap4k zeroedOk frameLt
    (userFlags_lt fl) run
  rw [mapFreshPages_of_frame hf]
  rcases pagingMap4k_spec zeroedOk frameLt with
    ⟨halted, panic⟩ | ⟨hg, no, tbls⟩ |
    ⟨hg, lowest, tbls, hr, freePre, done⟩
  · rw [run] at panic
    cases panic
  · have inWay := (errExists_iff zeroedOk no).mp rfl
    rw [largeInWay_takeZeroed ok hc] at inWay
    have isLarge := tidy.largeInWay inWay
    rw [← pageOf_div, pageOf_mul pageBound, hnl] at isLarge
    cases isLarge
  obtain ⟨rfl, rfl⟩ := EStateM.Result.ok.inj (run.symm.trans done)
  rw [pageOf_mul pageBound] at hr done mappedTidy left
  rw [← pageOf_div, pageOf_mul pageBound] at freePre
  refine ⟨f, _, ok.pageMapped man hc pageBound tbls hr freePre, mappedTidy, left, ?_⟩
  rw [bind_of_ok (userMapPage_of_ok hlt done), if_neg (by simp), succ_mul]

lemma mapFreshPages_supplied {p spare : Nat} (ok : SpaceOk r m)
    (tidy : Tidy m.memory r) (hb : p + cnt ≤ 2 ^ 35)
    (hnl : ∀ hc, p ≤ hc → hc < p + cnt → largeLeaf m.memory r (hc / 512) = none)
    (supply : Supply m.pool (spare + 4 * cnt)) :
    ∃ post, mapFreshPages (r * pageSize) fl cnt (p * pageSize) m = .ok 0 post ∧
      RangeMapped r fl p cnt m post ∧ Tidy post.memory r ∧
      Supply post.pool spare := by
  induction cnt generalizing p m with
  | zero => exact ⟨m, rfl, .none p m, tidy, supply⟩
  | succ cnt ih =>
    obtain ⟨f, middle, fst, middleTidy, left, stepEq⟩ :=
      @mapFreshPages_step_supplied r fl m p cnt (spare + 4 * cnt) ok tidy
        (by omega) (hnl p (le_refl p) (by omega)) (supply.mono (by omega))
    have noLargeLeft : ∀ hc, p + 1 ≤ hc → hc < p + 1 + cnt →
      largeLeaf middle.memory r (hc / 512) = none := by
      intro hc ha covers
      rw [fst.largeLeaf_eq]
      exact hnl hc (by omega) (by omega)
    obtain ⟨post, run, rest, afterTidy, afterLeft⟩ :=
      @ih middle (p + 1) fst.ok middleTidy (by omega) noLargeLeft left
    refine ⟨post, ?_, .more fst rest, afterTidy, afterLeft⟩
    rw [stepEq, run]

lemma userMapRange_supplied {size p cnt spare : Nat} (ok : SpaceOk r m)
    (tidy : Tidy m.memory r) (rng : UserRange va size p cnt)
    (hnl : ∀ hc, p ≤ hc → hc < p + cnt → largeLeaf m.memory r (hc / 512) = none)
    (supply : Supply m.pool (spare + 4 * cnt)) :
    ∃ post, userMapRange (r * pageSize) va size fl m = .ok 0 post ∧
      RangeMapped r fl p cnt m post ∧ Tidy post.memory r ∧
      Supply post.pool spare := by
  rw [userMapRange_of_range rng]
  exact mapFreshPages_supplied ok tidy rng.below hnl supply

end

open Option Nat Function

variable {r va size : Nat} {source : Nat → UInt8} {m pre mid post : Machine}

def userByte (ram : ByteMemory) (root va : Nat) : Option UInt8 :=
  (pageLeaf ram root (va / pageSize)).map fun entry =>
    ram (frameNumber entry * pageSize + va % pageSize)

def userWritable (ram : ByteMemory) (root va : Nat) : Option Bool :=
  (pageLeaf ram root (va / pageSize)).map fun entry => flagSet entry pageWritable

lemma frame_offset_div (f a : Nat) : (f * pageSize + a % pageSize) / pageSize = f := by
  rw [mul_comm, mul_add_div (by decide), div_eq_of_lt (mod_lt _ (by decide)), add_zero]

/-- The bytes of `source` are at `va`, and no other user byte has changed. -/
structure UserWritten (root va size : Nat) (source : Nat → UInt8) (before post : Machine) :
    Prop where
  pool : post.pool = before.pool
  agrees : AgreesOnTables before.memory post.memory root
  inside : ∀ index < size, userByte post.memory root (va + index) = some (source index)
  outside : ∀ address, address < va ∨ va + size ≤ address →
    userByte post.memory root address = userByte before.memory root address

lemma UserWritten.refl (m : Machine) : UserWritten r va 0 source m m where
  pool := rfl
  agrees := fun _ _ => rfl
  inside := by simp
  outside := fun _ _ => rfl

lemma UserWritten.append {len : Nat} (fst : UserWritten r va len source pre mid)
    (snd : UserWritten r (va + len) size (fun i => source (len + i)) mid post) :
      UserWritten r va (len + size) source pre post where
  pool := snd.pool.trans fst.pool
  agrees := by
    intro a isTable
    rw [← fst.agrees a isTable]
    exact snd.agrees a ((fst.agrees.sameTables.isTable_iff _).mpr isTable)
  inside := by
    intro i idxLt
    by_cases early : i < len
    · rw [snd.outside _ (by omega)]
      exact fst.inside i early
    obtain ⟨rest, rfl⟩ := Nat.exists_eq_add_of_le (Nat.le_of_not_lt early)
    rw [← Nat.add_assoc]
    exact snd.inside rest (by omega)
  outside := by
    intro a apart
    rw [snd.outside a (by omega)]
    exact fst.outside a (by omega)

section
variable (hw : UserWritten r va size source pre post)
include hw

lemma UserWritten.pageLeaf_eq : pageLeaf post.memory r = pageLeaf pre.memory r :=
  hw.agrees.pageLeaf_eq

lemma UserWritten.userWritable (address : Nat) :
    userWritable post.memory r address = userWritable pre.memory r address := by
  rw [HnxKernel.userWritable, hw.pageLeaf_eq, HnxKernel.userWritable]

lemma UserWritten.largeLeaf_eq : largeLeaf post.memory r = largeLeaf pre.memory r :=
  hw.agrees.largeLeaf_eq

lemma UserWritten.userSpace (sp : UserSpace r pre) : UserSpace r post where
  ok := by
    refine ⟨hw.agrees.pageTree sp.ok.tree, ?_, hw.pool ▸ sp.ok.small⟩
    intro tbl isTable
    rw [hw.pool]
    exact sp.ok.owned tbl ((hw.agrees.sameTables.isTable_iff tbl).mp isTable)
  owned := by
    rw [hw.pageLeaf_eq, hw.pool]
    exact sp.owned
  notTable := by
    intro p e leaf isTable
    rw [hw.pageLeaf_eq] at leaf
    exact sp.notTable p e leaf ((hw.agrees.sameTables.isTable_iff _).mp isTable)
  user := by
    rw [hw.pageLeaf_eq]
    exact sp.user
  distinct := by
    rw [hw.pageLeaf_eq]
    exact sp.distinct
  supervisor := by
    rw [hw.largeLeaf_eq]
    exact sp.supervisor

end

lemma UserSpace.translate_page (sp : UserSpace r m) {e : Nat}
    (vaLt : va < 2 ^ 48) (leaf : pageLeaf m.memory r (va / pageSize) = some e) :
    pagingTranslate m.memory (r * pageSize) va =
      some (frameNumber e * pageSize + va % pageSize) := by
  have pageEq := pageOf_of_lt vaLt
  have noLarge : largeLeaf m.memory r (largeOf va) = none := by
    rw [← pageOf_div, pageEq]
    exact sp.ok.tree.noLarge_of_page leaf
  have offsetLt : va % pageSize < 2 ^ 12 := mod_lt _ (by decide)
  rw [sp.ok.tree.translate_eq, noLarge, pageEq, leaf, ← frame_or_flags offsetLt]
  rfl

lemma UserSpace.writePage (sp : UserSpace r m) {entry len : Nat}
    (leaf : pageLeaf m.memory r (va / pageSize) = some entry)
    (fits : va % pageSize + len ≤ pageSize) : UserWritten r va len source m
      { m with
        memory := m.memory.blit (frameNumber entry * pageSize + va % pageSize) len
          source } := by
  have agrees : AgreesOnTables m.memory (m.memory.blit
    (frameNumber entry * pageSize + va % pageSize) len source) r := by
    intro a isTable
    apply ByteMemory.blit_outside
    by_contra mem
    have sameFrame : a / pageSize = frameNumber entry := by
      simp only [pageSize] at mem fits ⊢
      omega
    exact sp.notTable _ _ leaf (sameFrame ▸ isTable)
  refine ⟨rfl, agrees, ?_, ?_⟩
  · intro index idxLt
    have samePage : (va + index) / pageSize = va / pageSize := by
      simp only [pageSize] at fits ⊢
      omega
    have offsetEq : (va + index) % pageSize = va % pageSize + index := by
      simp only [pageSize] at fits ⊢
      omega
    dsimp only
    rw [userByte, agrees.pageLeaf_eq, samePage, leaf, map_some, offsetEq, ← add_assoc,
      ByteMemory.blit_inside idxLt]
  intro a apart
  dsimp only
  rw [userByte, userByte, agrees.pageLeaf_eq]
  cases o : pageLeaf m.memory r (a / pageSize) with
  | none => rfl
  | some otherEntry =>
    rw [map_some, map_some]
    congr 1
    apply ByteMemory.blit_outside
    by_contra mem
    have sameFrame : frameNumber otherEntry = frameNumber entry := by
      rw [← frame_offset_div (frameNumber otherEntry) a]
      simp only [pageSize] at mem fits ⊢
      omega
    have samePage := sp.distinct _ _ _ _ o leaf sameFrame
    rw [sameFrame] at mem
    simp only [pageSize] at samePage mem apart
    omega

def UserMapped (ram : ByteMemory) (root va size : Nat) : Prop :=
  ∀ addr, va ≤ addr → addr < va + size → (pageLeaf ram root (addr / pageSize)).isSome

lemma UserWritten.mapped {fst length : Nat} (hw : UserWritten r va size source pre post)
    (hm : UserMapped pre.memory r fst length) : UserMapped post.memory r fst length := by
  intro a above covered
  rw [hw.pageLeaf_eq]
  exact hm a above covered

lemma copyChunks_spec {k copied : Nat} (sp : UserSpace r m)
    (below : va + size ≤ 2 ^ 47) (copiedLe : copied ≤ size) (enough : size - copied < k)
    (hm : UserMapped m.memory r va size) :
    ∃ post, copyChunks (r * pageSize) source size k (va + copied) copied m = .ok 0 post ∧
      UserWritten r (va + copied) (size - copied) (fun i => source (copied + i))
        m post := by
  induction k generalizing copied m with
  | zero => omega
  | succ k ih =>
    rw [copyChunks]
    by_cases done : copied = size
    · subst done
      rw [if_pos rfl, Nat.sub_self]
      exact ⟨m, rfl, .refl m⟩
    obtain ⟨e, leaf⟩ := isSome_iff_exists.mp (hm (va + copied) (by omega) (by omega))
    rw [if_neg done, get_bind, sp.translate_page (by omega) leaf]
    dsimp only
    rw [modify_bind]
    have offsetLt : (va + copied) % pageSize < pageSize := mod_lt _ (by decide)
    generalize lengthEq : min (pageSize - (va + copied) % pageSize) (size - copied) = len
    have hw := @UserSpace.writePage r (va + copied)
      (fun i => source (copied + i)) m sp e len leaf (by omega)
    have nextEq : u64 (va + copied + len) = va + (copied + len) := by
      rw [u64_of_lt (by omega), add_assoc]
    rw [nextEq]
    obtain ⟨post, run, rest⟩ := @ih _ (copied + len) (hw.userSpace sp) (by omega)
      (by omega) (hw.mapped hm)
    refine ⟨post, run, ?_⟩
    have sizeEq : size - copied = len + (size - (copied + len)) := by omega
    rw [sizeEq]
    apply hw.append
    simpa only [add_assoc] using rest

lemma userCopyToSpace_mapped (sp : UserSpace r m) (below : va + size ≤ 2 ^ 47)
    (hm : UserMapped m.memory r va size) :
    ∃ post, userCopyToSpace (r * pageSize) va source size m = .ok 0 post ∧
      UserWritten r va size source m post := by
  have copied := @copyChunks_spec r va size source m (size + 1) 0 sp below
    (zero_le size) (by omega) hm
  simp only [add_zero, zero_add] at copied
  exact copied

section Fresh

variable {fl p cnt f : Nat}

lemma PageMapped.userByte (hm : PageMapped r fl p f pre post)
    (sp : UserSpace r pre) (address : Nat) : userByte post.memory r address =
      if address / pageSize = p then some 0 else userByte pre.memory r address := by
  rw [HnxKernel.userByte, hm.pageLeaf_eq]
  split
  case isTrue here =>
    rw [here, update_self, map_some, hm.frameNumber_eq, hm.zero _ (frame_offset_div f address)]
  case isFalse elsewhere =>
    rw [update_of_ne elsewhere, HnxKernel.userByte]
    cases leaf : pageLeaf pre.memory r (address / pageSize) with
    | none => rfl
    | some =>
      rw [map_some, map_some, hm.bytes]
      · rw [frame_offset_div]
        exact (sp.owned _ _ leaf).2
      rw [frame_offset_div]
      exact sp.notTable _ _ leaf

lemma RangeMapped.userByte (hm : RangeMapped r fl p cnt pre post)
    (sp : UserSpace r pre) (address : Nat) : userByte post.memory r address =
      if p ≤ address / pageSize ∧ address / pageSize < p + cnt then some 0
      else userByte pre.memory r address := by
  induction hm with
  | none => rw [if_neg (by omega)]
  | more first _ ih =>
    rw [ih (sp.mapPage first), first.userByte sp]
    split_ifs <;> first | rfl | omega

lemma RangeMapped.userWritable (hm : RangeMapped r fl p cnt pre post) (address : Nat) :
    userWritable post.memory r address =
      if p ≤ address / pageSize ∧ address / pageSize < p + cnt then
        some (flagSet fl pageWritable)
      else userWritable pre.memory r address := by
  induction hm with
  | none => rw [if_neg (by omega)]
  | @more p _ _ pre mid _ first _ ih =>
    have firstPage : HnxKernel.userWritable mid.memory r address =
      if address / pageSize = p then some (flagSet fl pageWritable)
      else HnxKernel.userWritable pre.memory r address := by
      rw [HnxKernel.userWritable, first.pageLeaf_eq]
      split
      case isTrue here => rw [here, update_self, map_some, writable_leafValue]
      case isFalse elsewhere => rw [update_of_ne elsewhere, HnxKernel.userWritable]
    rw [ih, firstPage]
    split_ifs <;> first | rfl | omega

end Fresh

lemma isSome_userByte (ram : ByteMemory) (r va : Nat) :
    (userByte ram r va).isSome = (pageLeaf ram r (va / pageSize)).isSome := by
  rw [userByte, isSome_map]

end HnxKernel
