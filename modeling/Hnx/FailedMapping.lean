import Hnx.UserUnmapping

/-!
# Mappings that fail

`user_map_range` does not undo the pages before the one it cannot map.
-/

namespace HnxKernel

open Outcome

variable {r tbl fl va : Nat} {s : Fin 512} {m pre mid post : Machine}

def LargeInWay (ram : ByteMemory) (root va : Nat) : Prop :=
  ∃ dir, tableAt ram root (largePath (largeOf va)) = some dir ∧
    flagSet (entryAt ram (dir * pageSize) (idxPd va)) pageHuge = true

section NextLevel

lemma nextLevel_of_present
    (pres : flagSet (entryAt m.memory (tbl * pageSize) s) pagePresent = true) :
    nextLevel (tbl * pageSize) s fl m =
      .ok (frameNumber (entryAt m.memory (tbl * pageSize) s) * pageSize) m := by
  rw [nextLevel, get_bind, if_pos pres, and_pageAddrMask]
  rfl

lemma nextLevel_of_absent {next : Nat} (ok : SpaceOk r m) (isTable : IsTable m.memory r tbl)
    (ha : flagSet (entryAt m.memory (tbl * pageSize) s) pagePresent = false)
    (run : nextLevel (tbl * pageSize) s fl m = .ok (next * pageSize) post)
    (i : Fin 512) : entryAt post.memory (next * pageSize) i = 0 := by
  rw [nextLevel, get_bind, if_neg (by simp [ha])] at run
  rcases pagingNewTable_cases m with panic | ⟨p, made, man, hc⟩
  · rw [bind_of_error panic] at run
    cases run
  rw [bind_of_ok made] at run
  obtain ⟨sameAddr, rfl⟩ := EStateM.Result.ok.inj run
  have eq : p = next := Nat.eq_of_mul_eq_mul_right (by decide) sameAddr
  subst eq
  have apart : (p, i) ≠ (tbl, s) := by
    intro equal
    have isNew : p = tbl := congrArg Prod.fst equal
    exact ok.not_isTable_of_clear hc (isNew ▸ isTable)
  refine Eq.trans (entryAt_writeEntry_other apart) ?_
  exact entryAt_zero (fun a mem => takeZeroed_zero mem) i

end NextLevel

lemma flagSet_zero_present : flagSet 0 pagePresent = false := by decide

lemma flagSet_zero_huge : flagSet 0 pageHuge = false := by decide

variable {pa f p cnt size : Nat} {status : KStatus} {proc next : ProcessMemory}

lemma errExists_iff_of_directory {dir : Nat} (run : (do
        let m ← get
        if flagSet (entryAt m.memory (dir * pageSize) (idxPd va)) pageHuge then
          return .errExists
        else
          let pt ← nextLevel (dir * pageSize) (idxPd va) (interFlags fl)
          setEntry pt (idxPt va) ((pa &&& pageAddrMask) ||| withoutHuge fl ||| pagePresent)
          return .ok : EStateM Halt Machine KStatus) m = .ok status post) :
    status = .errExists ↔ flagSet (entryAt m.memory (dir * pageSize) (idxPd va))
      pageHuge = true := by
  rw [get_bind] at run
  by_cases huge : flagSet (entryAt m.memory (dir * pageSize) (idxPd va)) pageHuge = true
  · rw [if_pos huge] at run
    cases run
    exact ⟨fun _ => huge, fun _ => rfl⟩
  rw [if_neg huge] at run
  obtain ⟨pt, lower, -, rest⟩ := ok_of_bind run
  cases rest
  exact ⟨fun isError => absurd isError (by decide), fun isHuge => absurd isHuge huge⟩

lemma errExists_iff (ok : SpaceOk r m)
    (run : pagingMap4k (r * pageSize) va pa fl m = .ok status post) :
    status = .errExists ↔ LargeInWay m.memory r va := by
  have rootTable : IsTable m.memory r r := ⟨[], by simp, rfl⟩
  unfold pagingMap4k at run
  obtain ⟨pdptAddr, fst, run1, run⟩ := ok_of_bind run
  obtain ⟨pdAddr, snd, run2, run⟩ := ok_of_bind run
  rcases nextLevel_spec [] ok (by simp) rfl
      (fun pres => ok.tree.upper [] r (idxPml4 va) (by simp) rfl pres)
      (interFlags_lt fl) (interFlags_notHuge fl) with
    panic | ⟨pdpt, after1, ok1, grown1, pdptAt, -⟩
  · rw [run1] at panic
    cases panic
  obtain ⟨rfl, rfl⟩ := EStateM.Result.ok.inj (run1.symm.trans ok1)
  rcases nextLevel_spec [idxPml4 va] grown1.ok (by simp) pdptAt
      (fun pres => grown1.ok.tree.upper [idxPml4 va] pdpt (idxPdpt va) (by simp)
        pdptAt pres) (interFlags_lt fl) (interFlags_notHuge fl) with
    panic | ⟨pd, after2, ok2, grown2, pdReached, -⟩
  · rw [run2] at panic
    cases panic
  obtain ⟨rfl, rfl⟩ := EStateM.Result.ok.inj (run2.symm.trans ok2)
  rw [errExists_iff_of_directory run, LargeInWay, largePath_largeOf]
  have pdptTable : IsTable fst.memory r pdpt := ⟨[idxPml4 va], by simp, pdptAt⟩
  -- A directory that did not exist before the call has no entries.
  have made (noDir : tableAt m.memory r [idxPml4 va, idxPdpt va] = none)
    (zero : entryAt snd.memory (pd * pageSize) (idxPd va) = 0) :
    flagSet (entryAt snd.memory (pd * pageSize) (idxPd va)) pageHuge = true ↔
      ∃ dir, tableAt m.memory r [idxPml4 va, idxPdpt va] = some dir ∧
        flagSet (entryAt m.memory (dir * pageSize) (idxPd va)) pageHuge = true := by
    rw [zero, flagSet_zero_huge, noDir]
    simp
  by_cases upper : flagSet (entryAt m.memory (r * pageSize) (idxPml4 va)) pagePresent = true
  · obtain ⟨-, rfl⟩ := EStateM.Result.ok.inj (run1.symm.trans (nextLevel_of_present upper))
    by_cases lower : flagSet (entryAt fst.memory (pdpt * pageSize) (idxPdpt va)) pagePresent = true
    · obtain ⟨-, rfl⟩ := EStateM.Result.ok.inj (run2.symm.trans (nextLevel_of_present lower))
      have hr : tableAt snd.memory r [idxPml4 va, idxPdpt va] = some pd := pdReached
      rw [hr]
      simp
    rw [Bool.not_eq_true] at lower
    exact made (tableAt_of_absent pdptAt lower)
      (nextLevel_of_absent ok pdptTable lower run2 (idxPd va))
  rw [Bool.not_eq_true] at upper
  have empty := nextLevel_of_absent ok rootTable upper run1 (idxPdpt va)
  have lower : flagSet (entryAt fst.memory (pdpt * pageSize) (idxPdpt va)) pagePresent = false := by
    rw [empty, flagSet_zero_present]
  refine made ?_ (nextLevel_of_absent grown1.ok pdptTable lower run2 (idxPd va))
  have noPdpt : tableAt m.memory r ([] ++ [idxPml4 va]) = none := tableAt_of_absent rfl upper
  change tableAt m.memory r ([idxPml4 va] ++ [idxPdpt va]) = none
  rw [tableAt_concat, show tableAt m.memory r [idxPml4 va] = none from noPdpt]
  rfl

lemma largeInWay_takeZeroed (ok : SpaceOk r m) (hc : m.pool.used f = false) :
    LargeInWay (takeZeroed m f).memory r va ↔ LargeInWay m.memory r va := by
  have agrees := ok.agrees_takeZeroed hc
  unfold LargeInWay
  rw [agrees.sameTables.tableAt_eq _ (by simp [largePath_length])]
  constructor
  · rintro ⟨dir, hr, huge⟩
    refine ⟨dir, hr, ?_⟩
    rwa [agrees.entryAt_eq ⟨_, by simp [largePath_length], hr⟩] at huge
  rintro ⟨dir, hr, huge⟩
  refine ⟨dir, hr, ?_⟩
  rwa [agrees.entryAt_eq ⟨_, by simp [largePath_length], hr⟩]

def NoFreeFrame (mach : Machine) : Prop := ∀ f, mach.pool.Managed f → mach.pool.used f = true

lemma noFreeFrame_of_allocPage (ha : m.pool.allocPage = (none, m.pool)) : NoFreeFrame m := by
  unfold FramePool.allocPage at ha
  intro f man
  cases search : firstClear m.pool.used firstPage m.pool.totalPages with
  | none => exact firstClear_eq_none search f man.1 man.2
  | some =>
    rw [search] at ha
    exact absurd (congrArg Prod.fst ha) (by simp)

/-- Without a frame or with a large page in the way it fails. -/
lemma mapFreshPages_first (ok : SpaceOk r m) {code : Int} (pageLt : p < 2 ^ 35)
    (run : mapFreshPages (r * pageSize) fl (cnt + 1) (p * pageSize) m = .ok code post) :
    ((NoFreeFrame m ∨ LargeInWay m.memory r (p * pageSize)) ∧ TablesGrown r m post) ∨
      (¬ (NoFreeFrame m ∨ LargeInWay m.memory r (p * pageSize)) ∧ ∃ f mid,
        PageMapped r fl p f m mid ∧
          mapFreshPages (r * pageSize) fl cnt ((p + 1) * pageSize) mid = .ok code post) := by
  have pageBound : p < 2 ^ 36 := by omega
  rcases m.pool.allocPage_cases with ha | ⟨f, hf, man, hc⟩
  · rw [mapFreshPages, bind_of_ok (allocPage_of_none ha)] at run
    cases run
    exact .inl ⟨.inl (noFreeFrame_of_allocPage ha), TablesGrown.refl ok⟩
  have free : ¬ NoFreeFrame m := fun none => Bool.noConfusion ((none f man).symm.trans hc)
  rw [mapFreshPages_of_frame hf] at run
  rcases pagingMap4k_spec (ok.spaceOk_takeZeroed hc) (frame_lt_of_managed ok man) with
    ⟨halted, panic⟩ | ⟨hg, refused, tbls⟩ |
      ⟨hg, tbl, tbls, hr, noLarge, mapped⟩
  · rw [bind_of_error (userMapPage_of_error pageLt panic)] at run
    cases run
  · left
    have inWay := (errExists_iff (ok.spaceOk_takeZeroed hc) refused).mp rfl
    rw [largeInWay_takeZeroed ok hc] at inWay
    have frameOwned : hg.pool.used f = true := (tbls.used_taken f).mpr (.inr (.inr rfl))
    have stillManaged : hg.pool.Managed f := ⟨man.1, tbls.total ▸ man.2⟩
    rw [bind_of_ok (userMapPage_of_ok pageLt refused), if_pos (by simp),
      bind_of_ok (freePage_of_owned stillManaged frameOwned)] at run
    cases run
    exact ⟨.inr inWay, ok.releaseGrown hc tbls⟩
  right
  have notInWay := (errExists_iff (ok.spaceOk_takeZeroed hc) mapped).not.mp (by decide)
  rw [largeInWay_takeZeroed ok hc] at notInWay
  rw [pageOf_mul pageBound] at hr mapped
  rw [← pageOf_div, pageOf_mul pageBound] at noLarge
  rw [bind_of_ok (userMapPage_of_ok pageLt mapped), if_neg (by simp), ← Nat.succ_mul] at run
  exact ⟨fun either => either.elim free notInWay, f, _,
    ok.pageMapped man hc pageBound tbls hr noLarge, run⟩

def NoTrace (root : Nat) (pre post : Machine) : Prop :=
  (∀ va, pagingTranslate post.memory (root * pageSize) va =
      pagingTranslate pre.memory (root * pageSize) va) ∧
    ∀ f, ¬ IsTable post.memory root f → post.pool.used f = pre.pool.used f

lemma TablesGrown.noTrace (tbls : TablesGrown r pre post)
    (t : PageTree pre.memory r) : NoTrace r pre post := by
  constructor
  · intro va
    rw [tbls.ok.tree.translate_eq, t.translate_eq, tbls.pageLeaf_eq, tbls.largeLeaf_eq]
  intro f notTable
  have usedIff := tbls.used f
  simp only [notTable, or_false] at usedIff
  exact Bool.eq_iff_iff.mpr usedIff

structure DataFrame (root frame : Nat) (mach : Machine) : Prop where
  used : mach.pool.used frame = true
  notTable : ¬ IsTable mach.memory root frame

section
variable (data : DataFrame r f pre)
include data

lemma DataFrame.grow (hg : FramesGrown r pre post) : DataFrame r f post :=
  ⟨(hg.used f).mpr (.inl data.used), hg.not_isTable data.used data.notTable⟩

lemma DataFrame.mapPage {o : Nat} (mapped : PageMapped r fl p o pre post) : DataFrame r f post := by
  refine ⟨(mapped.used f).mpr (.inl data.used), ?_⟩
  intro isTable
  rcases mapped.fresh f isTable with was | free
  · exact data.notTable was
  · simp [data.used] at free

lemma DataFrame.mapRange (mapped : RangeMapped r fl p cnt pre post) : DataFrame r f post := by
  induction mapped with
  | none => exact data
  | more fst _ ih => exact ih (data.mapPage fst)

end

lemma PageMapped.dataFrame (mapped : PageMapped r fl p f pre post) : DataFrame r f post :=
  ⟨(mapped.used f).mpr (.inr (.inr rfl)), mapped.notTable⟩

def FailsAtOnce (mach : Machine) (root va size : Nat) : Prop :=
  ¬ RangeAccepted va size ∨ NoFreeFrame mach ∨ LargeInWay mach.memory root va

lemma not_rangeAccepted {va : Nat} :
    ¬ RangeAccepted va size ↔ ¬ ∃ p cnt, UserRange va size p cnt := by
  rw [userRange_iff, RangeAccepted]
  omega

lemma userMapRange_noTrace_iff (ok : SpaceOk r m)
    (run : userMapRange (r * pageSize) va size fl m = .ok (-1) post) :
    NoTrace r m post ↔ FailsAtOnce m r va size := by
  by_cases acc : ∃ p cnt, UserRange va size p cnt
  · have isAccepted : ¬ ¬ RangeAccepted va size := by
      rw [not_rangeAccepted, not_not]
      exact acc
    obtain ⟨p, cnt, rng⟩ := acc
    rw [userMapRange_of_range rng] at run
    obtain ⟨rest, rfl⟩ := Nat.exists_eq_succ_of_ne_zero (Nat.pos_iff_ne_zero.mp rng.notEmpty)
    have below := rng.below
    rw [FailsAtOnce, or_iff_right isAccepted, rng.start]
    rcases mapFreshPages_first ok (by omega) run with ⟨fails, tbls⟩ |
      ⟨succeeds, f, mid, mapped, later⟩
    · exact ⟨fun _ => fails, fun _ => tbls.noTrace ok.tree⟩
    refine ⟨fun noTrace => ?_, fun fails => absurd fails succeeds⟩
    -- The frame of the first page is still in use at the end.
    have data : DataFrame r f post := by
      rcases mapFreshPages_spec mapped.ok rest (show p + 1 + rest ≤ 2 ^ 35 by omega) with
        ⟨halted, panic⟩ | ⟨last, ret, others⟩ |
          ⟨done, stopped, last, -, ret, others, tbls⟩
      · rw [later] at panic
        cases panic
      · rw [later] at ret
        obtain ⟨-, rfl⟩ := EStateM.Result.ok.inj ret
        exact mapped.dataFrame.mapRange others
      rw [later] at ret
      cases ret
      exact (mapped.dataFrame.mapRange others).grow tbls.toFramesGrown
    have sameUse := noTrace.2 f data.notTable
    rw [data.used, mapped.clear] at sameUse
    exact absurd sameUse (by decide)
  rw [userMapRange_of_no_range acc] at run
  cases run
  have refused := not_rangeAccepted.mpr acc
  exact ⟨fun _ => .inl refused, fun _ => (TablesGrown.refl ok).noTrace ok.tree⟩

lemma userMapRange_of_sysMmap (ok : SpaceOk r m)
    (spaceEq : proc.addressSpace = r * pageSize) {hint len prot : Nat}
    (run : sysMmap proc hint len prot m = .ok (-sysEnomem, next) post) :
    userMapRange (r * pageSize) (mmapAddress proc hint) (pageAlignUp len)
      (mmapFlags prot) m = .ok (-1) post := by
  unfold sysMmap at run
  by_cases empty : len = 0
  · rw [if_pos empty] at run
    have isInvalid : -sysEinval = -sysEnomem := congrArg Prod.fst (EStateM.Result.ok.inj run).1
    exact absurd isInvalid (by decide)
  rw [if_neg empty] at run
  obtain ⟨code, mid, mapped, rest⟩ := ok_of_bind run
  rw [spaceEq] at mapped
  have notAddress : ((mmapAddress proc hint : Nat) : Int) ≠ -sysEnomem := by
    simp only [sysEnomem]
    omega
  cases rangeResult_of_ok ok mapped with
  | mapped =>
    rw [if_neg (by decide)] at rest
    split_ifs at rest
    · exact absurd (congrArg Prod.fst (EStateM.Result.ok.inj rest).1) notAddress
    · exact absurd (congrArg Prod.fst (EStateM.Result.ok.inj rest).1) notAddress
  | refused =>
    rw [if_pos (by decide)] at rest
    cases rest
    exact mapped
  | stopped =>
    rw [if_pos (by decide)] at rest
    cases rest
    exact mapped

def BrkGrows (proc : ProcessMemory) (newBreak : Nat) : Prop :=
  newBreak ≠ 0 ∧ proc.brkBase ≤ newBreak ∧ proc.brkMax < newBreak

lemma userMapRange_of_processBrk (ok : SpaceOk r m)
    (spaceEq : proc.addressSpace = r * pageSize) {newBreak val : Nat}
    (run : processBrk proc newBreak m = .ok (val, next) post) (failed : val ≠ newBreak) :
    ¬ BrkGrows proc newBreak ∧ post = m ∨ BrkGrows proc newBreak ∧
        userMapRange (r * pageSize) proc.brkMax
          (sub64 (pageAlignUp newBreak) proc.brkMax) pageWritable m = .ok (-1) post := by
  unfold processBrk at run
  split_ifs at run with isZero low mem
  · exact .inl ⟨fun grows => grows.1 isZero, (EStateM.Result.ok.inj run).2.symm⟩
  · exact .inl ⟨fun grows => absurd grows.2.1 (by omega), (EStateM.Result.ok.inj run).2.symm⟩
  · exact .inl ⟨fun grows => absurd grows.2.2 (by omega), (EStateM.Result.ok.inj run).2.symm⟩
  right
  refine ⟨⟨isZero, by omega, by omega⟩, ?_⟩
  obtain ⟨code, mid, mapped, rest⟩ := ok_of_bind run
  rw [spaceEq] at mapped
  cases rangeResult_of_ok ok mapped with
  | mapped =>
    rw [if_pos rfl] at rest
    exact absurd (congrArg Prod.fst (EStateM.Result.ok.inj rest).1).symm failed
  | refused =>
    rw [if_neg (by decide)] at rest
    cases rest
    exact mapped
  | stopped =>
    rw [if_neg (by decide)] at rest
    cases rest
    exact mapped

theorem failed_mapping_noTrace_iff (ok : SpaceOk r m) (proc : ProcessMemory)
    (spaceEq : proc.addressSpace = r * pageSize) :
    (∀ va size fl post, userMapRange (r * pageSize) va size fl m = .ok (-1) post →
        (NoTrace r m post ↔ FailsAtOnce m r va size)) ∧
    (∀ hint len prot next post, sysMmap proc hint len prot m = .ok (-sysEnomem, next) post →
        (NoTrace r m post ↔ FailsAtOnce m r (mmapAddress proc hint) (pageAlignUp len))) ∧
    (∀ newBreak val next post, processBrk proc newBreak m = .ok (val, next) post → val ≠ newBreak →
        (NoTrace r m post ↔ (BrkGrows proc newBreak → FailsAtOnce m r proc.brkMax
            (sub64 (pageAlignUp newBreak) proc.brkMax)))) := by
  refine ⟨?_, ?_, ?_⟩
  · intro va size fl post run
    exact userMapRange_noTrace_iff ok run
  · intro hint len prot next post run
    exact userMapRange_noTrace_iff ok (userMapRange_of_sysMmap ok spaceEq run)
  intro newBreak val next post run failed
  rcases userMapRange_of_processBrk ok spaceEq run failed with ⟨small, rfl⟩ | ⟨grows, mapped⟩
  · exact ⟨fun _ grows => absurd grows small, fun _ => (TablesGrown.refl ok).noTrace ok.tree⟩
  rw [userMapRange_noTrace_iff ok mapped]
  exact ⟨fun fails _ => fails, fun fails => fails grows⟩

def tightMachine : Machine where
  memory := fun _ => 0
  pool := ⟨270, fun f => decide (f < 260)⟩

def tightSpace : Outcome Machine (Option Nat) :=
  userAddressSpaceCreate plainInfo 0xFEE00000 true tightMachine

theorem kernelRange_noTrace_iff : ∃ m post, tightSpace = .ok (some (260 * pageSize)) m ∧
    userMapRange (260 * pageSize) 0x200000 0x1000 pageWritable m = .ok (-1) post ∧
    (NoTrace 260 m post ↔ FailsAtOnce m 260 0x200000 0x1000) := by
  have evaluated : returnsWith tightSpace (fun pml4 m =>
    decide (pml4 = some (260 * pageSize)) && returnsWith
      (userMapRange (260 * pageSize) 0x200000 0x1000 pageWritable m)
      fun code _ => decide (code = -1)) = true := by
    decide +kernel
  obtain ⟨pml4, m, createdEq, rest⟩ := exists_of_returnsWith evaluated
  rw [Bool.and_eq_true, decide_eq_true_eq] at rest
  obtain ⟨rfl, mapped⟩ := rest
  obtain ⟨code, post, mappedEq, codeEq⟩ := exists_of_returnsWith mapped
  rw [decide_eq_true_eq] at codeEq
  subst codeEq
  have built : BuiltSpace 260 m := .created (by decide) createdEq
  exact ⟨m, post, createdEq, mappedEq,
    (failed_mapping_noTrace_iff built.userSpace.ok (processInitExt (260 * pageSize)) rfl).1 _ _ _ _
      mappedEq⟩

/-- Eight pages at the user image base are too many: the call returns -1 with five of
them mapped. -/
theorem imageRange_leaves_trace :
    ∃ m post, tightSpace = .ok (some (260 * pageSize)) m ∧ BuiltSpace 260 m ∧
      userMapRange (260 * pageSize) userImageBase 0x8000 pageWritable m = .ok (-1) post ∧
      pagingTranslate m.memory (260 * pageSize) userImageBase = none ∧
      (pagingTranslate post.memory (260 * pageSize) userImageBase).isSome ∧
      ¬ NoTrace 260 m post := by
  have evaluated : returnsWith tightSpace (fun pml4 m =>
    decide (pml4 = some (260 * pageSize)) &&
      (decide (pagingTranslate m.memory (260 * pageSize) userImageBase = none) &&
        returnsWith
          (userMapRange (260 * pageSize) userImageBase 0x8000 pageWritable m)
          fun code post => decide (code = -1) &&
            (pagingTranslate post.memory (260 * pageSize) userImageBase).isSome)) = true := by
    decide +kernel
  obtain ⟨pml4, m, createdEq, rest⟩ := exists_of_returnsWith evaluated
  rw [Bool.and_eq_true, Bool.and_eq_true, decide_eq_true_eq, decide_eq_true_eq] at rest
  obtain ⟨rfl, ha, mapped⟩ := rest
  obtain ⟨code, post, mappedEq, facts⟩ := exists_of_returnsWith mapped
  rw [Bool.and_eq_true, decide_eq_true_eq] at facts
  obtain ⟨rfl, present⟩ := facts
  refine ⟨m, post, createdEq, .created (by decide) createdEq, mappedEq, ha, present, ?_⟩
  intro noTrace
  rw [noTrace.1, ha] at present
  exact absurd present (by decide)

end HnxKernel
