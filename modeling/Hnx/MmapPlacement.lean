import Hnx.FailedMapping

/-!
# Where `sys_mmap` puts mappings

Only calls without a hint move the bump pointer, and `user_map_range` replaces pages.
-/

namespace HnxKernel

open Outcome

variable {r fl p cnt : Nat} {m pre middle post : Machine}

variable {o va size len hint prot : Nat} {code val : Int} {ram : ByteMemory}

lemma RangeMapped.pageLeaf_outside (mapped : RangeMapped r fl p cnt pre post)
    (out : o < p ∨ p + cnt ≤ o) : pageLeaf post.memory r o = pageLeaf pre.memory r o := by
  induction mapped with
  | none => rfl
  | more fst _ ih => rw [ih (by omega), fst.pageLeaf_eq, Function.update_of_ne (by omega)]

lemma RangeMapped.bytes (mapped : RangeMapped r fl p cnt pre post) {address : Nat}
    (data : DataFrame r (address / pageSize) pre) : post.memory address = pre.memory address := by
  induction mapped with
  | none => rfl
  | more fst _ ih => rw [ih (data.mapPage fst), fst.bytes address data.used data.notTable]

lemma RangeResult.pageLeaf_outside (res : RangeResult r va size fl pre post code)
    (out : RangeAccepted va size → o * pageSize < va ∨ u64 (va + pageAlignUp size) ≤ o * pageSize) :
    pageLeaf post.memory r o = pageLeaf pre.memory r o := by
  have hd {fst n : Nat} (rng : UserRange va size fst n) :
    o < fst ∨ fst + n ≤ o := by
    have ok : RangeAccepted va size := by
      by_contra refused
      exact not_rangeAccepted.mp refused ⟨fst, n, rng⟩
    have beyond := out ok
    rw [rng.last, rng.start] at beyond
    simp only [pageSize] at beyond
    omega
  cases res with
  | refused _ eq => rw [eq]
  | mapped _ _ rng mapped => exact mapped.pageLeaf_outside (hd rng)
  | stopped _ _ _ _ rng _ mapped tbls =>
    have far := hd rng
    rw [tbls.pageLeaf_eq, mapped.pageLeaf_outside (by omega)]

lemma RangeResult.largeLeaf_eq (res : RangeResult r va size fl pre post code) :
    largeLeaf post.memory r = largeLeaf pre.memory r := by
  cases res with
  | refused _ eq => rw [eq]
  | mapped _ _ _ mapped => exact mapped.largeLeaf_eq
  | stopped _ _ _ _ _ _ mapped tbls => exact tbls.largeLeaf_eq.trans mapped.largeLeaf_eq

lemma UserSpace.removeLeaves {ps : List Nat}
    (sp : UserSpace r m) (removed : LeavesRemoved r ps m.memory ram)
    (frames : List Nat) (ofPages : ∀ f ∈ frames, ∃ p entry, p ∈ ps ∧
      pageLeaf m.memory r p = some entry ∧ frameNumber entry = f) :
    UserSpace r ⟨ram, m.pool.release frames⟩ := by
  have remains {p entry : Nat} (leaf : pageLeaf ram r p = some entry) :
    p ∉ ps ∧ pageLeaf m.memory r p = some entry := by
    rw [removed.pageLeaf_eq] at leaf
    split_ifs at leaf with mem
    exact ⟨mem, leaf⟩
  constructor
  · refine ⟨removed.tree, ?_, sp.ok.small⟩
    intro tbl isTable
    rw [removed.same.isTable_iff] at isTable
    obtain ⟨man, ht⟩ := sp.ok.owned tbl isTable
    refine ⟨man, (FramePool.release_used _ _ _).mpr ⟨ht, ?_⟩⟩
    intro mem
    obtain ⟨p, entry, -, leaf, rfl⟩ := ofPages tbl mem
    exact sp.notTable p entry leaf isTable
  · intro p entry leaf
    obtain ⟨unlisted, was⟩ := remains leaf
    obtain ⟨man, ht⟩ := sp.owned p entry was
    refine ⟨man, (FramePool.release_used _ _ _).mpr ⟨ht, ?_⟩⟩
    intro mem
    obtain ⟨o, otherEnt, hi, otherPage, sameFrame⟩ := ofPages _ mem
    have samePage := sp.distinct o p otherEnt entry otherPage was sameFrame
    exact unlisted (samePage ▸ hi)
  · intro p entry leaf
    rw [removed.same.isTable_iff]
    exact sp.notTable p entry (remains leaf).2
  · exact fun p entry leaf => sp.user p entry (remains leaf).2
  · intro fst snd ent1 ent2 firstPage page2
    exact sp.distinct _ _ _ _ (remains firstPage).2 (remains page2).2
  rw [removed.largeLeaf_eq]
  exact sp.supervisor

lemma UserSpace.sysMunmap {proc : ProcessMemory} {a : Nat}
    (sp : UserSpace r m) (spaceEq : proc.addressSpace = r * pageSize)
    (hnl : ∀ p, InRange a len p → largeLeaf m.memory r (p / 512) = none)
    (run : HnxKernel.sysMunmap proc a len m = .ok code post) :
    UserSpace r post ∧ largeLeaf post.memory r = largeLeaf m.memory r ∧
      ∀ p, pageLeaf m.memory r p = none → pageLeaf post.memory r p = none := by
  by_cases acc : ∃ p cnt, UserRange a len p cnt
  · obtain ⟨p, cnt, rng⟩ := acc
    have nodup : (List.range' p cnt).Nodup := List.nodup_range'
    have below := rng.page_lt
    have small : ∀ o ∈ List.range' p cnt, largeLeaf m.memory r (o / 512) = none :=
      fun o mem => hnl o ((rng.inRange_iff o).mpr mem)
    have freed := sp.freeFrames_leafFrames nodup below small
    obtain ⟨ram, _, removed, unmapped, same⟩ :=
      (unmapPages_cases nodup below sp.ok.tree).resolve_right fun no => no.2 _ freed
    cases freed.symm.trans same
    rw [sysMunmap_of_range proc rng spaceEq, bind_of_ok unmapped] at run
    cases run
    refine ⟨sp.removeLeaves removed _ ?_, removed.largeLeaf_eq, ?_⟩
    · intro f hl
      rw [unmapFrames_of_small sp.ok.tree below small, mem_leafFrames_iff sp] at hl
      obtain ⟨o, e, hi, leaf, -, frameEq⟩ := hl
      exact ⟨o, e, hi, leaf, frameEq⟩
    intro o ha
    rw [removed.pageLeaf_eq, ha, ite_self]
  have eq : post = m := by
    rw [HnxKernel.sysMunmap] at run
    split_ifs at run
    · exact (EStateM.Result.ok.inj run).2.symm
    obtain ⟨rc, last, unmapped, rest⟩ := ok_of_bind run
    have refused : ¬ ∃ p cnt, UserRange a (pageAlignUp len) p cnt := by
      rw [userRange_iff, pageAlignUp_pageAlignUp, ← userRange_iff]
      exact acc
    rw [userRange_iff, not_not] at refused
    rw [userUnmapRange, if_pos refused] at unmapped
    cases unmapped
    exact (EStateM.Result.ok.inj rest).2.symm
  rw [eq]
  exact ⟨sp, rfl, fun _ ha => ha⟩

inductive MemoryCall where
  | mmap (hint length prot : Nat)
  | munmap (addr length : Nat)
  | brk (newBreak : Nat)
  | sbrk (delta : Int)
  deriving DecidableEq, Repr

def memoryCall (proc : ProcessMemory) : MemoryCall → EStateM Halt Machine ProcessMemory
  | .mmap hint len prot => do
    return (← sysMmap proc hint len prot).2
  | .munmap addr len => do
    let _ ← sysMunmap proc addr len
    return proc
  | .brk newBreak => do
    return (← processBrk proc newBreak).2
  | .sbrk delta => do
    return (← processSbrk proc delta).2

/-- Below the bump pointer or above the region for mappings without a hint. -/
def Elsewhere (proc : ProcessMemory) (limit va size : Nat) : Prop :=
  RangeAccepted va size → u64 (va + pageAlignUp size) ≤ proc.mmapNext ∨ limit ≤ va

def BrkElsewhere (proc : ProcessMemory) (limit newBreak : Nat) : Prop :=
  BrkGrows proc newBreak →
    Elsewhere proc limit proc.brkMax (sub64 (pageAlignUp newBreak) proc.brkMax)

def Careful (root limit : Nat) (proc : ProcessMemory) (mach : Machine) : MemoryCall → Prop
  | .mmap hint len prot =>
    if hint = 0 then
      (∃ next post, sysMmap proc hint len prot mach = .ok (-sysEnomem, next) post) →
        FailsAtOnce mach root proc.mmapNext (pageAlignUp len)
    else Elsewhere proc limit (pageAlignDown hint) (pageAlignUp len)
  | .munmap addr len => ∀ p, InRange addr len p → largeLeaf mach.memory root (p / 512) = none
  | .brk newBreak => BrkElsewhere proc limit newBreak
  | .sbrk delta => delta ≠ 0 → BrkElsewhere proc limit (sbrkTarget proc delta)

inductive CarefulCalls (root limit : Nat) (process : ProcessMemory) (mach : Machine) :
    ProcessMemory → Machine → Prop
  | none : CarefulCalls root limit process mach process mach
  | more {middle next : ProcessMemory} {reached post : Machine} (call : MemoryCall)
      (earlier : CarefulCalls root limit process mach middle reached)
      (careful : Careful root limit middle reached call)
      (returned : memoryCall middle call reached = .ok next post) :
      CarefulCalls root limit process mach next post

/-- Nothing is mapped between `mmap_next` and the limit. -/
structure BumpClear (root limit : Nat) (process : ProcessMemory) (mach : Machine) : Prop where
  space : UserSpace root mach
  spaceEq : process.addressSpace = root * pageSize
  noPage : ∀ p, process.mmapNext ≤ p * pageSize → p * pageSize < limit →
    pageLeaf mach.memory root p = none
  noLarge : ∀ p, process.mmapNext ≤ p * pageSize → p * pageSize < limit →
    largeLeaf mach.memory root (p / 512) = none

variable {limit : Nat} {proc next : ProcessMemory}

lemma BumpClear.mapElsewhere (hc : BumpClear r limit proc m)
    (elsewhere : Elsewhere proc limit va size)
    (run : userMapRange (r * pageSize) va size fl m = .ok code post) :
    BumpClear r limit proc post := by
  have res := rangeResult_of_ok hc.space.ok run
  refine ⟨hc.space.of_rangeResult res, hc.spaceEq, ?_, ?_⟩
  · intro p ha hb
    rw [res.pageLeaf_outside]
    · exact hc.noPage p ha hb
    intro acc
    rcases elsewhere acc with beneath | beyond
    · exact .inr (beneath.trans ha)
    · exact .inl (lt_of_lt_of_le hb beyond)
  rw [res.largeLeaf_eq]
  exact hc.noLarge

lemma BumpClear.processBrk {newBreak val : Nat} (hc : BumpClear r limit proc m)
    (elsewhere : BrkElsewhere proc limit newBreak)
    (run : HnxKernel.processBrk proc newBreak m = .ok (val, next) post) :
    BumpClear r limit next post := by
  unfold HnxKernel.processBrk at run
  by_cases isZero : newBreak = 0
  · rw [if_pos isZero] at run
    obtain ⟨sameValue, rfl⟩ := EStateM.Result.ok.inj run
    cases sameValue
    exact hc
  rw [if_neg isZero] at run
  by_cases low : newBreak < proc.brkBase
  · rw [if_pos low] at run
    obtain ⟨sameValue, rfl⟩ := EStateM.Result.ok.inj run
    cases sameValue
    exact hc
  rw [if_neg low] at run
  by_cases mem : newBreak ≤ proc.brkMax
  · rw [if_pos mem] at run
    obtain ⟨sameValue, rfl⟩ := EStateM.Result.ok.inj run
    cases sameValue
    exact { hc with }
  rw [if_neg mem] at run
  obtain ⟨code, middle, mapped, rest⟩ := ok_of_bind run
  rw [hc.spaceEq] at mapped
  have kept := hc.mapElsewhere (elsewhere ⟨isZero, by omega, by omega⟩) mapped
  split_ifs at rest
  · obtain ⟨sameValue, rfl⟩ := EStateM.Result.ok.inj rest
    cases sameValue
    exact { kept with }
  obtain ⟨sameValue, rfl⟩ := EStateM.Result.ok.inj rest
  cases sameValue
  exact kept

lemma sysMmap_cases (ok : SpaceOk r m) (spaceEq : proc.addressSpace = r * pageSize)
    (run : sysMmap proc hint len prot m = .ok (val, next) post) :
    (val < 0 ∧ next = proc ∧ post = m ∧ val ≠ -sysEnomem) ∨ (val = -sysEnomem ∧ next = proc ∧
        userMapRange (r * pageSize) (mmapAddress proc hint) (pageAlignUp len)
          (mmapFlags prot) m = .ok (-1) post) ∨
      (val = mmapAddress proc hint ∧
        next = (if hint = 0 then
          { proc with mmapNext := u64 (mmapAddress proc hint + pageAlignUp len) }
          else proc) ∧
        userMapRange (r * pageSize) (mmapAddress proc hint) (pageAlignUp len)
          (mmapFlags prot) m = .ok 0 post) := by
  unfold sysMmap at run
  by_cases he : len = 0
  · rw [if_pos he] at run
    obtain ⟨sameValue, rfl⟩ := EStateM.Result.ok.inj run
    cases sameValue
    exact .inl ⟨by decide, rfl, rfl, by decide⟩
  rw [if_neg he] at run
  obtain ⟨code, middle, mapped, rest⟩ := ok_of_bind run
  rw [spaceEq] at mapped
  right
  have codes : code = 0 ∨ code = -1 := by
    cases rangeResult_of_ok ok mapped with
    | mapped => exact .inl rfl
    | refused => exact .inr rfl
    | stopped => exact .inr rfl
  rcases codes with rfl | rfl
  · rw [if_neg (by decide)] at rest
    right
    split_ifs at rest ⊢ with noHint
    · obtain ⟨sameValue, rfl⟩ := EStateM.Result.ok.inj rest
      cases sameValue
      exact ⟨rfl, rfl, mapped⟩
    obtain ⟨sameValue, rfl⟩ := EStateM.Result.ok.inj rest
    cases sameValue
    exact ⟨rfl, rfl, mapped⟩
  rw [if_pos (by decide)] at rest
  obtain ⟨sameValue, rfl⟩ := EStateM.Result.ok.inj rest
  cases sameValue
  exact .inl ⟨rfl, rfl, mapped⟩

lemma mmapAddress_of_no_hint (proc : ProcessMemory) : mmapAddress proc 0 = proc.mmapNext := rfl

lemma UserRange.mmapNext_eq (rng : UserRange va (pageAlignUp len) p cnt) :
    u64 (va + pageAlignUp len) = (p + cnt) * pageSize := by
  have last := rng.last
  rwa [pageAlignUp_pageAlignUp] at last

lemma UserRange.behind (rng : UserRange va (pageAlignUp len) p cnt)
    (ha : u64 (va + pageAlignUp len) ≤ o * pageSize) : p + cnt ≤ o ∧ va ≤ o * pageSize := by
  rw [rng.mmapNext_eq] at ha
  have far : p + cnt ≤ o := Nat.le_of_mul_le_mul_right ha (by decide)
  refine ⟨far, rng.start.le.trans (Nat.mul_le_mul_right _ ?_)⟩
  omega

lemma BumpClear.mmap (hc : BumpClear r limit proc m)
    (careful : Careful r limit proc m (.mmap hint len prot))
    (run : sysMmap proc hint len prot m = .ok (val, next) post) : BumpClear r limit next post := by
  rcases sysMmap_cases hc.space.ok hc.spaceEq run with ⟨-, rfl, rfl, -⟩ |
    ⟨rfl, rfl, hf⟩ | ⟨-, nextEq, mapped⟩
  · exact hc
  · by_cases noHint : hint = 0
    · subst noHint
      -- A failure at the first page adds at most tables.
      have fails := careful ⟨_, _, run⟩
      have noTrace := (userMapRange_noTrace_iff hc.space.ok hf).mpr fails
      have res := rangeResult_of_ok hc.space.ok hf
      have space := hc.space.of_rangeResult res
      refine ⟨space, hc.spaceEq, ?_, ?_⟩
      · intro p ha hb
        have absent := hc.noPage p ha hb
        by_contra pres
        obtain ⟨e, leaf⟩ := Option.ne_none_iff_exists'.mp pres
        have hlt : p < 2 ^ 36 := by
          by_contra large
          rw [pageLeaf, if_neg large] at leaf
          cases leaf
        have trans := noTrace.1 (p * pageSize)
        rw [space.ok.tree.translate_eq, hc.space.ok.tree.translate_eq, pageOf_mul hlt,
          largeOf_mul hlt, res.largeLeaf_eq, hc.noLarge p ha hb, absent,
          leaf] at trans
        cases trans
      rw [res.largeLeaf_eq]
      exact hc.noLarge
    rw [Careful, if_neg noHint] at careful
    rw [mmapAddress, if_pos noHint] at hf
    exact hc.mapElsewhere careful hf
  by_cases noHint : hint = 0
  · subst noHint
    rw [if_pos rfl] at nextEq
    subst nextEq
    have res := rangeResult_of_ok hc.space.ok mapped
    cases res with
    | mapped p cnt rng ps =>
      have behind {o : Nat}
        (ha : u64 (proc.mmapNext + pageAlignUp len) ≤ o * pageSize) :
        p + cnt ≤ o ∧ proc.mmapNext ≤ o * pageSize :=
        rng.behind ha
      refine ⟨hc.space.mapRange ps, hc.spaceEq, ?_, ?_⟩
      · intro o ha hb
        rw [ps.pageLeaf_outside (.inr (behind ha).1)]
        exact hc.noPage o (behind ha).2 hb
      intro o ha hb
      rw [ps.largeLeaf_eq]
      exact hc.noLarge o (behind ha).2 hb
  rw [if_neg noHint] at nextEq
  subst nextEq
  rw [Careful, if_neg noHint] at careful
  rw [mmapAddress, if_pos noHint] at mapped
  exact hc.mapElsewhere careful mapped

lemma BumpClear.call {c : MemoryCall} (hc : BumpClear r limit proc m)
    (careful : Careful r limit proc m c) (ret : memoryCall proc c m = .ok next post) :
    BumpClear r limit next post := by
  cases c with
  | mmap =>
    obtain ⟨res, middle, run, rest⟩ := ok_of_bind ret
    cases rest
    exact hc.mmap careful run
  | munmap =>
    obtain ⟨code, middle, run, rest⟩ := ok_of_bind ret
    cases rest
    obtain ⟨sp, largeEq, removed⟩ := hc.space.sysMunmap hc.spaceEq careful run
    refine ⟨sp, hc.spaceEq, ?_, ?_⟩
    · exact fun p ha hb => removed p (hc.noPage p ha hb)
    rw [largeEq]
    exact hc.noLarge
  | brk =>
    obtain ⟨res, middle, run, rest⟩ := ok_of_bind ret
    cases rest
    exact hc.processBrk careful run
  | sbrk delta =>
    obtain ⟨res, middle, run, rest⟩ := ok_of_bind ret
    cases rest
    unfold processSbrk at run
    by_cases isZero : delta = 0
    · rw [if_pos isZero] at run
      cases run
      exact hc
    rw [if_neg isZero] at run
    obtain ⟨⟨val, moved⟩, hr, broke, rest⟩ := ok_of_bind run
    have kept := hc.processBrk (careful isZero) broke
    dsimp only at rest
    split_ifs at rest
    · obtain ⟨rfl, rfl⟩ := EStateM.Result.ok.inj rest
      exact kept
    obtain ⟨rfl, rfl⟩ := EStateM.Result.ok.inj rest
    exact kept

lemma BumpClear.calls {start : ProcessMemory} (hc : BumpClear r limit start pre)
    (cs : CarefulCalls r limit start pre proc m) : BumpClear r limit proc m := by
  induction cs with
  | none => exact hc
  | more c _ careful ret ih => exact ih.call careful ret

lemma PageTree.leaves_of_translate (t : PageTree ram r)
    (untranslated : pagingTranslate ram (r * pageSize) (p * pageSize) = none) :
    pageLeaf ram r p = none ∧ largeLeaf ram r (p / 512) = none := by
  by_cases hlt : p < 2 ^ 36
  · rw [t.translate_eq, pageOf_mul hlt, largeOf_mul hlt] at untranslated
    cases large : largeLeaf ram r (p / 512) with
    | some =>
      rw [large] at untranslated
      cases untranslated
    | none =>
      rw [large] at untranslated
      exact ⟨Option.map_eq_none_iff.mp untranslated, rfl⟩
  constructor
  · rw [pageLeaf, if_neg hlt]
  · rw [largeLeaf, if_neg (by omega)]

lemma BumpClear.untranslated (hc : BumpClear r limit proc m)
    (ha : proc.mmapNext ≤ p * pageSize) (hb : p * pageSize < limit)
    (hlt : p < 2 ^ 36) : pagingTranslate m.memory (r * pageSize) (p * pageSize) = none := by
  rw [hc.space.ok.tree.translate_eq, pageOf_mul hlt, largeOf_mul hlt,
    hc.noLarge p ha hb, hc.noPage p ha hb]
  rfl

lemma UserSpace.bytes_mapRange (sp : UserSpace r pre)
    (mapped : RangeMapped r fl p cnt pre post) {entry off : Nat}
    (leaf : pageLeaf pre.memory r o = some entry) (offLt : off < pageSize) :
    post.memory (frameNumber entry * pageSize + off) =
      pre.memory (frameNumber entry * pageSize + off) := by
  apply mapped.bytes
  have frameEq : (frameNumber entry * pageSize + off) / pageSize = frameNumber entry := by
    simp only [pageSize] at offLt ⊢
    omega
  rw [frameEq]
  exact ⟨(sp.owned o entry leaf).2, sp.notTable o entry leaf⟩

/-- A call without a hint maps fresh pages and leaves those that were mapped as they were. -/
theorem mmap_never_aliases_of_calls {start : Machine} (sp : UserSpace r start)
    (unmapped : ∀ p, processMmapBase ≤ p * pageSize → p * pageSize < limit →
      pagingTranslate start.memory (r * pageSize) (p * pageSize) = none)
    (cs : CarefulCalls r limit (processInitExt (r * pageSize)) start proc m)
    (len prot : Nat) (mem : RangeAccepted proc.mmapNext (pageAlignUp len) →
      u64 (proc.mmapNext + pageAlignUp len) ≤ limit) {val : Int}
    (run : sysMmap proc 0 len prot m = .ok (val, next) post) (success : 0 ≤ val) :
    val = proc.mmapNext ∧ (∀ p, InRange proc.mmapNext (pageAlignUp len) p →
        pagingTranslate m.memory (r * pageSize) (p * pageSize) = none) ∧
      (∀ va, pagingTranslate m.memory (r * pageSize) va ≠ none →
        pagingTranslate post.memory (r * pageSize) va = pagingTranslate m.memory (r * pageSize)
          va) ∧
      ∀ p e, pageLeaf m.memory r p = some e → ∀ off < pageSize,
        post.memory (frameNumber e * pageSize + off) =
          m.memory (frameNumber e * pageSize + off) := by
  have started : BumpClear r limit (processInitExt (r * pageSize)) start :=
    ⟨sp, rfl, fun p ha below => (sp.ok.tree.leaves_of_translate (unmapped p ha below)).1,
      fun p ha below => (sp.ok.tree.leaves_of_translate (unmapped p ha below)).2⟩
  have clear := started.calls cs
  rcases sysMmap_cases clear.space.ok clear.spaceEq run with ⟨negative, -⟩ | ⟨rfl, -⟩ |
    ⟨valueEq, -, mapped⟩
  · omega
  · exact absurd success (by decide)
  rw [mmapAddress_of_no_hint] at valueEq mapped
  cases rangeResult_of_ok clear.space.ok mapped with
  | mapped fst number rng ps =>
    have acc : RangeAccepted proc.mmapNext (pageAlignUp len) := by
      by_contra refused
      exact not_rangeAccepted.mp refused ⟨fst, number, rng⟩
    have bound := mem acc
    rw [rng.mmapNext_eq] at bound
    have hf (p : Nat) (hl : p ∈ List.range' fst number) :
      pagingTranslate m.memory (r * pageSize) (p * pageSize) = none := by
      obtain ⟨low, high⟩ := List.mem_range'_1.mp hl
      have below := rng.below
      refine clear.untranslated (rng.start.le.trans (Nat.mul_le_mul_right _ low)) ?_ (by omega)
      exact lt_of_lt_of_le (Nat.mul_lt_mul_of_pos_right high (by decide)) bound
    refine ⟨valueEq, fun p inRange => hf p ((rng.inRange_iff p).mp inRange), ?_,
      fun p e isPage off offLt => clear.space.bytes_mapRange ps isPage offLt⟩
    intro va isMapped
    have treeAfter := (clear.space.mapRange ps).ok.tree
    have outside : pageOf va < fst ∨ fst + number ≤ pageOf va := by
      by_contra within
      have hl : pageOf va ∈ List.range' fst number := List.mem_range'_1.mpr (by omega)
      have absent := clear.space.ok.tree.leaves_of_translate (hf (pageOf va) hl)
      rw [pageOf_div] at absent
      rw [clear.space.ok.tree.translate_eq, absent.1, absent.2] at isMapped
      exact isMapped rfl
    rw [treeAfter.translate_eq, clear.space.ok.tree.translate_eq, ps.largeLeaf_eq,
      ps.pageLeaf_outside outside]

theorem twoMappings_never_alias :
    ∃ start fst m post next, plainSpace = .ok (some (260 * pageSize)) start ∧
      sysMmap (processInitExt (260 * pageSize)) 0 0x1000 protWrite start =
        .ok ((processMmapBase : Int), fst) m ∧
      sysMmap fst 0 0x2000 protWrite m = .ok ((processMmapBase : Int) + 0x1000, next) post ∧
      pagingTranslate post.memory (260 * pageSize) processMmapBase =
        pagingTranslate m.memory (260 * pageSize) processMmapBase := by
  have evaluated : returnsWith plainSpace (fun pml4 start =>
      decide (pml4 = some (260 * pageSize)) &&
        (((List.range 3).all fun i => decide (pagingTranslate start.memory (260 * pageSize)
            ((processMmapBase / pageSize + i) * pageSize) = none)) &&
          returnsWith
            (sysMmap (processInitExt (260 * pageSize)) 0 0x1000 protWrite start)
            fun res m =>
              decide (res = ((processMmapBase : Int),
                { processInitExt (260 * pageSize) with mmapNext := processMmapBase + 0x1000 })) &&
              (decide (pagingTranslate m.memory (260 * pageSize) processMmapBase ≠ none) &&
              returnsWith (sysMmap res.2 0 0x2000 protWrite m)
                fun again _ => decide (again.1 = (processMmapBase : Int) + 0x1000)))) = true := by
    decide +kernel
  obtain ⟨pml4, start, createdEq, rest⟩ := exists_of_returnsWith evaluated
  rw [Bool.and_eq_true, Bool.and_eq_true, decide_eq_true_eq, List.all_eq_true] at rest
  obtain ⟨rfl, unmapped, rest⟩ := rest
  obtain ⟨res, m, run1, rest⟩ := exists_of_returnsWith rest
  rw [Bool.and_eq_true, Bool.and_eq_true, decide_eq_true_eq, decide_eq_true_eq] at rest
  obtain ⟨rfl, isMapped, rest⟩ := rest
  obtain ⟨⟨val, next⟩, post, run2, valueEq⟩ := exists_of_returnsWith rest
  rw [decide_eq_true_eq] at valueEq
  subst valueEq
  refine ⟨start, _, m, post, next, createdEq, run1, run2, ?_⟩
  have built : BuiltSpace 260 start := .created (by decide) createdEq
  have cs : CarefulCalls 260 (processMmapBase + 0x3000) (processInitExt (260 * pageSize)) start
    { processInitExt (260 * pageSize) with mmapNext := processMmapBase + 0x1000 } m := by
    refine .more (.mmap 0 0x1000 protWrite) .none ?_ ?_
    · rintro ⟨o, stopped, hf⟩
      rw [run1] at hf
      have sameValue : (processMmapBase : Int) = -sysEnomem :=
        congrArg Prod.fst (EStateM.Result.ok.inj hf).1
      exact absurd sameValue (by decide)
    rw [memoryCall, bind_of_ok run1]
    rfl
  refine (mmap_never_aliases_of_calls built.userSpace ?_ cs 0x2000 protWrite
    (fun _ => by decide) run2 (by decide)).2.2.1 processMmapBase isMapped
  intro p ha hb
  have i : p = processMmapBase / pageSize + (p - processMmapBase / pageSize) := by
    simp only [processMmapBase, pageSize] at ha ⊢
    omega
  rw [i]
  refine of_decide_eq_true (unmapped _ (List.mem_range.mpr ?_))
  simp only [processMmapBase, pageSize] at ha hb ⊢
  omega

/-- A mapping with a hint at the bump pointer is replaced by the next one without. -/
theorem hintedMapping_aliased : ∃ start proc hinted next post f o,
    plainSpace = .ok (some (260 * pageSize)) start ∧ BuiltSpace 260 start ∧
    sysMmap (processInitExt (260 * pageSize)) processMmapBase 0x1000 protWrite start =
      .ok ((processMmapBase : Int), proc) hinted ∧
    pagingTranslate hinted.memory (260 * pageSize) processMmapBase = some f ∧
    sysMmap proc 0 0x1000 protWrite hinted = .ok ((processMmapBase : Int), next) post ∧
    pagingTranslate post.memory (260 * pageSize) processMmapBase = some o ∧
    f ≠ o := by
  have evaluated : returnsWith plainSpace (fun pml4 start =>
      decide (pml4 = some (260 * pageSize)) && returnsWith
          (sysMmap (processInitExt (260 * pageSize)) processMmapBase 0x1000 protWrite start)
          fun res hinted => decide (res.1 = (processMmapBase : Int)) &&
            returnsWith (sysMmap res.2 0 0x1000 protWrite hinted)
              fun again post => decide (again.1 = (processMmapBase : Int)) &&
                ((pagingTranslate hinted.memory (260 * pageSize) processMmapBase).isSome &&
                  (pagingTranslate post.memory (260 * pageSize) processMmapBase).isSome &&
                  decide (pagingTranslate hinted.memory (260 * pageSize) processMmapBase ≠
                    pagingTranslate post.memory (260 * pageSize) processMmapBase))) = true := by
    decide +kernel
  obtain ⟨pml4, start, createdEq, rest⟩ := exists_of_returnsWith evaluated
  rw [Bool.and_eq_true, decide_eq_true_eq] at rest
  obtain ⟨rfl, rest⟩ := rest
  obtain ⟨⟨val, proc⟩, hinted, run1, rest⟩ := exists_of_returnsWith rest
  rw [Bool.and_eq_true, decide_eq_true_eq] at rest
  obtain ⟨rfl, rest⟩ := rest
  obtain ⟨⟨again, next⟩, post, run2, rest⟩ := exists_of_returnsWith rest
  rw [Bool.and_eq_true, Bool.and_eq_true, Bool.and_eq_true, decide_eq_true_eq,
    decide_eq_true_eq] at rest
  obtain ⟨rfl, ⟨wasMapped, isMapped⟩, differ⟩ := rest
  obtain ⟨f, old⟩ := Option.isSome_iff_exists.mp wasMapped
  obtain ⟨o, new⟩ := Option.isSome_iff_exists.mp isMapped
  rw [old, new] at differ
  exact ⟨start, proc, hinted, next, post, f, o, createdEq,
    .created (by decide) createdEq, run1, old, run2, new,
    fun eq => differ (congrArg some eq)⟩

end HnxKernel
