import Hnx.UserUnmapping

/-!
# The frame law of the page tables

Mapping and unmapping change the translation of the addresses of one page, 4 KiB or 2 MiB, and of
no other address.
-/

namespace HnxKernel

open Function List Option Nat

variable {r : Nat} {ram : ByteMemory} {m pre middle post : Machine}

structure FreshTree (root : Nat) (mach : Machine) : Prop where
  tree : PageTree mach.memory root
  fresh : ∀ page, mach.pool.Managed page → mach.pool.used page = false →
    ¬ IsTable mach.memory root page
  small : mach.pool.totalPages ≤ 2 ^ 40

structure Relinked (root : Nat) (before after : Machine) : Prop where
  freshTree : FreshTree root after
  pageLeaf_eq : pageLeaf after.memory root = pageLeaf before.memory root
  largeLeaf_eq : largeLeaf after.memory root = largeLeaf before.memory root

lemma Relinked.trans (fst : Relinked r pre middle) (snd : Relinked r middle post) :
    Relinked r pre post where
  freshTree := snd.freshTree
  pageLeaf_eq := snd.pageLeaf_eq.trans fst.pageLeaf_eq
  largeLeaf_eq := snd.largeLeaf_eq.trans fst.largeLeaf_eq

lemma Relinked.translate_eq (relinked : Relinked r pre post)
    (t : PageTree pre.memory r) (va : Nat) :
    pagingTranslate post.memory (r * pageSize) va = pagingTranslate pre.memory (r * pageSize)
      va := by
  rw [relinked.freshTree.tree.translate_eq, t.translate_eq, relinked.pageLeaf_eq,
    relinked.largeLeaf_eq]

section Link

variable {spot : List (Fin 512)} {tbl page fl : Nat} {s : Fin 512}

lemma FreshTree.linkNew (freshTree : FreshTree r m) (hi : spot.length ≤ 2)
    (hr : tableAt m.memory r spot = some tbl)
    (he : flagSet (entryAt m.memory (tbl * pageSize) s) pagePresent = false)
    (man : m.pool.Managed page) (hc : m.pool.used page = false)
    (hlt : fl < 2 ^ 12) (hn : fl.testBit 7 = false) : Relinked r m (linkNew m tbl s page fl) ∧
      tableAt (linkNew m tbl s page fl).memory r (spot ++ [s]) = some page := by
  have notTable := freshTree.fresh page man hc
  have agrees := agreesOnTables_takeZeroed notTable
  have t := agrees.pageTree freshTree.tree
  have link := linkable_takeZeroed notTable (lt_of_lt_of_le man.2 freshTree.small) hi
    hr he hlt hn
  have endShort : (spot ++ [s]).length ≤ 3 := by
    simp only [length_append, length_singleton]
    omega
  constructor
  · refine ⟨⟨link.pageTree t, ?_, freshTree.small⟩, (link.pageLeaf_eq t).trans agrees.pageLeaf_eq,
      (link.largeLeaf_eq t).trans agrees.largeLeaf_eq⟩
    intro o otherManaged otherClear ht
    have otherNe : o ≠ page := by
      rintro rfl
      have taken := (used_takeZeroed m o o).mpr (.inr rfl)
      exact Bool.noConfusion (otherClear.symm.trans taken)
    have otherWasClear : m.pool.used o = false := by
      by_contra used
      have taken := (used_takeZeroed m page o).mpr (.inl (by simpa using used))
      exact Bool.noConfusion (otherClear.symm.trans taken)
    rcases (link.isTable_iff t o).mp ht with was | eq
    · rw [agrees.sameTables.isTable_iff] at was
      exact freshTree.fresh o otherManaged otherWasClear was
    · exact otherNe eq
  change tableAt (writeEntry _ _ _ _) r (spot ++ [s]) = some page
  rw [link.tableAt_eq t endShort, if_pos rfl]

lemma FreshTree.nextLevel (spot : List (Fin 512)) (freshTree : FreshTree r m)
    (hi : spot.length ≤ 2) (hr : tableAt m.memory r spot = some tbl)
    (notLarge : flagSet (entryAt m.memory (tbl * pageSize) s) pagePresent = true →
      flagSet (entryAt m.memory (tbl * pageSize) s) pageHuge = false)
    (hlt : fl < 2 ^ 12) (hn : fl.testBit 7 = false) : nextLevel (tbl * pageSize) s fl m =
        .error (.panic "paging: out of pages for table") m ∨
      ∃ next post, nextLevel (tbl * pageSize) s fl m = .ok (next * pageSize) post ∧
        Relinked r m post ∧ tableAt post.memory r (spot ++ [s]) = some next := by
  unfold HnxKernel.nextLevel
  rw [get_bind]
  by_cases pres : flagSet (entryAt m.memory (tbl * pageSize) s) pagePresent = true
  · right
    rw [if_pos pres, and_pageAddrMask]
    exact ⟨_, m, rfl, ⟨freshTree, rfl, rfl⟩, tableAt_of_present hr pres (notLarge pres)⟩
  rw [if_neg pres]
  rcases pagingNewTable_cases m with hp | ⟨page, made, man, hc⟩
  · left
    rw [bind_of_error hp]
  right
  obtain ⟨relinked, h⟩ := freshTree.linkNew hi hr (by simpa using pres)
    man hc hlt hn
  refine ⟨page, HnxKernel.linkNew m tbl s page fl, ?_, relinked, h⟩
  rw [bind_of_ok made, linkValue_eq (lt_of_lt_of_le man.2 freshTree.small)]
  rfl

end Link

lemma FreshTree.directory (freshTree : FreshTree r m) (va fl : Nat)
    (rest : Nat → EStateM Halt Machine KStatus) :
    (∃ halt post, (HnxKernel.nextLevel (r * pageSize) (idxPml4 va) (interFlags fl) >>=
        fun pdpt => HnxKernel.nextLevel pdpt (idxPdpt va) (interFlags fl) >>= rest) m =
          .error halt post) ∨
      ∃ pd post, (HnxKernel.nextLevel (r * pageSize) (idxPml4 va) (interFlags fl) >>=
        fun pdpt => HnxKernel.nextLevel pdpt (idxPdpt va) (interFlags fl) >>= rest) m =
          rest (pd * pageSize) post ∧ Relinked r m post ∧
        tableAt post.memory r (largePath (largeOf va)) = some pd := by
  have lowFlags := interFlags_lt fl
  have notHuge := interFlags_notHuge fl
  rcases freshTree.nextLevel [] (by simp) rfl
      (fun pres => freshTree.tree.upper [] r (idxPml4 va) (by simp) rfl pres)
      lowFlags notHuge with panic | ⟨pdpt, fst, ok1, relinked1, pdptAt⟩
  · exact .inl ⟨_, _, by rw [bind_of_error panic]⟩
  rw [bind_of_ok ok1]
  rcases relinked1.freshTree.nextLevel [idxPml4 va] (by simp) pdptAt
      (fun pres => relinked1.freshTree.tree.upper [idxPml4 va] pdpt (idxPdpt va) (by simp)
        pdptAt pres) lowFlags notHuge with
    panic | ⟨pd, snd, ok2, relinked2, pdReached⟩
  · exact .inl ⟨_, _, by rw [bind_of_error panic]⟩
  right
  refine ⟨pd, snd, by rw [bind_of_ok ok2], relinked1.trans relinked2, ?_⟩
  rw [largePath_largeOf]
  exact pdReached

section Entries

variable {f fl : Nat}

lemma frameNumber_or_of_mask (hlt : f < 2 ^ 40) (noAddress : fl &&& pageAddrMask = 0) :
    frameNumber (f * pageSize ||| fl) = f := by
  have masked : frameNumber (f * pageSize ||| fl) * pageSize = f * pageSize := by
    rw [← and_pageAddrMask, and_or_distrib_right, noAddress, or_zero, frame_and_mask hlt]
  exact eq_of_mul_eq_mul_right (by decide) masked

lemma withoutHuge_and_mask (noAddress : fl &&& pageAddrMask = 0) :
    withoutHuge fl &&& pageAddrMask = 0 := by
  rw [withoutHuge, Nat.and_assoc, Nat.and_comm _ pageAddrMask, ← Nat.and_assoc, noAddress,
    Nat.zero_and]

lemma frameNumber_leafValue_of_mask (hlt : f < 2 ^ 40)
    (noAddress : fl &&& pageAddrMask = 0) : frameNumber (leafValue f fl) = f := by
  apply frameNumber_or_of_mask hlt
  rw [and_or_distrib_right, withoutHuge_and_mask noAddress]
  decide

lemma frameNumber_largeValue_of_mask (hlt : f < 2 ^ 40)
    (noAddress : fl &&& pageAddrMask = 0) : frameNumber (largeValue f fl) = f := by
  apply frameNumber_or_of_mask hlt
  rw [and_or_distrib_right, and_or_distrib_right, withoutHuge_and_mask noAddress]
  decide

lemma withoutHuge_lt (hlt : fl < 2 ^ 64) : withoutHuge fl < 2 ^ 64 := lt_of_le_of_lt and_le_left hlt

lemma frame_lt_two_pow (hlt : f < 2 ^ 40) : f * pageSize < 2 ^ 64 := by
  simp only [pageSize]
  omega

lemma leafValue_bound (frameLt : f < 2 ^ 40) (hlt : fl < 2 ^ 64) : leafValue f fl < 256 ^ 8 := by
  rw [show (256 : Nat) ^ 8 = 2 ^ 64 by norm_num]
  exact or_lt_two_pow (frame_lt_two_pow frameLt)
    (or_lt_two_pow (withoutHuge_lt hlt) (by decide))

lemma largeValue_bound (frameLt : f < 2 ^ 40) (hlt : fl < 2 ^ 64) : largeValue f fl < 256 ^ 8 := by
  rw [show (256 : Nat) ^ 8 = 2 ^ 64 by norm_num]
  exact or_lt_two_pow (frame_lt_two_pow frameLt)
    (or_lt_two_pow (or_lt_two_pow (withoutHuge_lt hlt) (by decide)) (by decide))

lemma present_largeValue (f fl : Nat) : flagSet (largeValue f fl) pagePresent = true := by
  rw [flagSet_present, largeValue, testBit_frame_or (by norm_num), testBit_or, testBit_or]
  simp [pagePresent]

lemma huge_largeValue (f fl : Nat) : flagSet (largeValue f fl) pageHuge = true := by
  have hugeBit : pageHuge.testBit 7 = true := by decide
  rw [flagSet_huge, largeValue, testBit_frame_or (by norm_num), testBit_or, hugeBit]
  simp

end Entries

section Overwrite

variable {lp tbl val : Nat}

variable {path : List (Fin 512)}

section
variable (t : PageTree ram r)
include t

section
variable (hr : tableAt ram r (largePath lp) = some tbl)
include hr

lemma tableAt_overwriteLarge_upper (hs : path.length ≤ 2) :
    tableAt (writeEntry ram tbl (Fin.ofNat 512 lp) val) r path = tableAt ram r path := by
  apply tableAt_writeEntry_avoids t (by simp [largePath_length]) hr (by omega)
  intro isPrefix
  have := isPrefix.length_le
  simp only [length_append, length_singleton, largePath_length] at this
  omega

section
variable (hb : val < 256 ^ 8) (huge : flagSet val pageHuge = true)
include hb huge

lemma tableAt_overwriteLarge_below (below : largePath lp ++ [Fin.ofNat 512 lp] <+: path) :
    tableAt (writeEntry ram tbl (Fin.ofNat 512 lp) val) r path = none := by
  obtain ⟨rest, rfl⟩ := below
  have noChild : tableChild (writeEntry ram tbl (Fin.ofNat 512 lp) val) tbl
    (Fin.ofNat 512 lp) = none := by
    rw [tableChild, entryAt_writeEntry_same hb]
    simp [huge]
  rw [tableAt_append, tableAt_concat,
    tableAt_overwriteLarge_upper t hr (by simp [largePath_length]), hr,
    bind_some, noChild, bind_none]

lemma tableAt_of_overwriteLarge {node : Nat} (hs : path.length ≤ 3)
    (nodeReached : tableAt (writeEntry ram tbl (Fin.ofNat 512 lp) val) r path =
      some node) : tableAt ram r path = some node := by
  rw [← nodeReached]
  symm
  apply tableAt_writeEntry_avoids t (by simp [largePath_length]) hr hs
  intro below
  rw [tableAt_overwriteLarge_below t hr hb huge below] at nodeReached
  cases nodeReached

lemma pageTree_overwriteLarge : PageTree (writeEntry ram tbl (Fin.ofNat 512 lp) val) r := by
  constructor
  · intro fst snd n short1 sndShort at1 nextReached
    exact t.distinct fst snd n short1 sndShort
      (tableAt_of_overwriteLarge t hr hb huge short1 at1)
      (tableAt_of_overwriteLarge t hr hb huge sndShort nextReached)
  intro path n i hs nodeReached isPresent
  have nodeBefore := tableAt_of_overwriteLarge t hr hb huge (by omega) nodeReached
  have nodeNe : n ≠ tbl := t.ne_of_length (by omega) (by simp [largePath_length])
    (by rw [largePath_length]; omega) nodeBefore hr
  rw [entryAt_writeEntry_other fun eq => nodeNe (congrArg Prod.fst eq)] at isPresent ⊢
  exact t.upper path n i hs nodeBefore isPresent

end

end

section
variable (largeLt : lp < 2 ^ 27) (hr : tableAt ram r (largePath lp) = some tbl)
include largeLt hr

lemma pageLeaf_overwriteLarge {page : Nat} (hlt : page < 2 ^ 36) (ne : page / 512 ≠ lp) :
    pageLeaf (writeEntry ram tbl (Fin.ofNat 512 lp) val) r page = pageLeaf ram r page := by
  have hd : ¬ largePath lp ++ [Fin.ofNat 512 lp] <+: pagePath page := by
    intro isPrefix
    have pathEq := isPrefix.eq_of_length (by simp [largePath_length, pagePath_length])
    obtain ⟨upperEq, slotEq⟩ := append_inj pathEq (by simp [largePath_length])
    have largeEq := largePage_eq_of_path largeLt (by omega) upperEq (head_eq_of_cons_eq slotEq)
    exact ne largeEq.symm
  rw [pageLeaf, pageLeaf, tableAt_writeEntry_avoids t (by simp [largePath_length]) hr
    (by simp [pagePath_length]) hd]
  cases lowest : tableAt ram r (pagePath page) with
  | none => simp
  | some n =>
    have nodeNe : n ≠ tbl := t.ne_of_length (by simp [pagePath_length])
      (by simp [largePath_length]) (by simp [largePath_length, pagePath_length]) lowest hr
    simp [entryAt_writeEntry_other fun eq => nodeNe (congrArg Prod.fst eq)]

lemma largeLeaf_overwriteLarge (hb : val < 256 ^ 8)
    (pres : flagSet val pagePresent = true) (huge : flagSet val pageHuge = true) :
    largeLeaf (writeEntry ram tbl (Fin.ofNat 512 lp) val) r =
      update (largeLeaf ram r) lp (some val) := by
  ext1 o
  by_cases eq : o = lp
  · subst eq
    rw [update_self, largeLeaf, if_pos largeLt,
      tableAt_overwriteLarge_upper t hr (by simp [largePath_length]), hr,
      bind_some, entryAt_writeEntry_same hb]
    simp [pres, huge]
  rw [update_of_ne eq]
  by_cases otherLt : o < 2 ^ 27
  · rw [largeLeaf, largeLeaf, tableAt_overwriteLarge_upper t hr (by simp [largePath_length])]
    cases n : tableAt ram r (largePath o) with
    | none => simp only [bind_none]
    | some dir =>
      have hd : (dir, Fin.ofNat 512 o) ≠ (tbl, Fin.ofNat 512 lp) := by
        intro sameEntry
        obtain ⟨rfl, slotEq⟩ := Prod.mk.inj sameEntry
        have pathEq := t.distinct _ _ _ (by simp [largePath_length])
          (by simp [largePath_length]) n hr
        exact eq (largePage_eq_of_path otherLt largeLt pathEq slotEq)
      simp only [bind_some, entryAt_writeEntry_other hd]
  · rw [largeLeaf, if_neg otherLt, largeLeaf, if_neg otherLt]

end

end

end Overwrite

variable {va pa fl : Nat}

lemma frame_add_offset (f va : Nat) :
    f * pageSize ||| va % pageSize = f * pageSize + va % pageSize :=
  frame_or_flags (mod_lt _ (by decide))

lemma aligned_or_offset (ha : pa % largePageSize = 0) (va : Nat) :
    pa ||| va % largePageSize = pa + va % largePageSize := by
  have sizeEq : largePageSize = 2 ^ 21 := rfl
  obtain ⟨cnt, rfl⟩ := dvd_of_mod_eq_zero ha
  rw [sizeEq]
  exact (two_pow_add_eq_or_of_lt (mod_lt _ (by decide)) cnt).symm

variable {f : Nat} {status : KStatus}

section
variable (freshTree : FreshTree r m) (frameLt : f < 2 ^ 40) (hlt : fl < 2 ^ 64)
  (noAddress : fl &&& pageAddrMask = 0)
include freshTree frameLt hlt noAddress

lemma pagingMap4k_translate
    (run : pagingMap4k (r * pageSize) va (f * pageSize) fl m = .ok status post)
    (other : Nat) : pagingTranslate post.memory (r * pageSize) other =
      if status = .ok ∧ pageOf other = pageOf va then
        some (f * pageSize + other % pageSize)
      else pagingTranslate m.memory (r * pageSize) other := by
  unfold pagingMap4k at run
  rcases freshTree.directory va fl _ with ⟨halt, halted, panic⟩ |
    ⟨pd, upper, runUpper, relinked, pdReached⟩
  · rw [panic] at run
    cases run
  rw [runUpper, get_bind] at run
  by_cases huge : flagSet (entryAt upper.memory (pd * pageSize) (idxPd va)) pageHuge = true
  · rw [if_pos huge] at run
    cases run
    rw [if_neg (by simp), relinked.translate_eq freshTree.tree]
  rw [if_neg huge] at run
  have small : flagSet (entryAt upper.memory (pd * pageSize) (idxPd va)) pageHuge = false := by
    simpa using huge
  rcases relinked.freshTree.nextLevel (largePath (largeOf va)) (by simp [largePath_length])
      pdReached (fun _ => small) (interFlags_lt fl) (interFlags_notHuge fl) with
    panic | ⟨pt, lower, lowerOk, lowerRelinked, ptReached⟩
  · rw [bind_of_error panic] at run
    cases run
  rw [bind_of_ok lowerOk, frame_and_mask frameLt, Nat.or_assoc, ← ofNat_pageOf] at run
  cases run
  have hr : tableAt lower.memory r (pagePath (pageOf va)) = some pt := by
    rw [pagePath_pageOf, ← largePath_largeOf]
    exact ptReached
  have all := relinked.trans lowerRelinked
  obtain ⟨-, t, pageEq, largeEq⟩ := writeLeaf_spec all.freshTree.tree (pageOf_lt va) hr
    (leafValue_bound frameLt hlt)
  rw [present_leafValue, if_pos rfl] at pageEq
  have hnl : largeLeaf lower.memory r (largeOf va) = none := by
    rw [lowerRelinked.largeLeaf_eq, largeLeaf, if_pos (largeOf_lt va), pdReached,
      bind_some, ofNat_largeOf]
    simp [small]
  have translated := t.translate_eq other
  rw [largeEq, pageEq] at translated
  refine Eq.trans translated ?_
  by_cases eq : pageOf other = pageOf va
  · have sameLarge : largeOf other = largeOf va := by rw [← pageOf_div, ← pageOf_div, eq]
    rw [if_pos ⟨rfl, eq⟩, sameLarge, hnl, eq, update_self]
    simp [frameNumber_leafValue_of_mask frameLt noAddress, frame_add_offset]
  rw [if_neg (fun both => eq both.2), update_of_ne eq,
    ← all.freshTree.tree.translate_eq, all.translate_eq freshTree.tree]

lemma pagingMap2m_translate
    (run : pagingMap2m (r * pageSize) va (f * pageSize) fl m = .ok status post)
    (other : Nat) : pagingTranslate post.memory (r * pageSize) other =
      if status = .ok ∧ largeOf other = largeOf va then
        some (f * pageSize + other % largePageSize)
      else pagingTranslate m.memory (r * pageSize) other := by
  unfold pagingMap2m at run
  by_cases unaligned : va % largePageSize ≠ 0 ∨ f * pageSize % largePageSize ≠ 0
  · rw [if_pos unaligned] at run
    cases run
    rw [if_neg (by simp)]
  rw [if_neg unaligned] at run
  push Not at unaligned
  rcases freshTree.directory va fl _ with ⟨halt, halted, panic⟩ |
    ⟨pd, upper, runUpper, relinked, pdReached⟩
  · rw [panic] at run
    cases run
  rw [runUpper, frame_and_mask frameLt, Nat.or_assoc, Nat.or_assoc,
    ← Nat.or_assoc _ _ pageHuge, ← ofNat_largeOf] at run
  cases run
  have bound := largeValue_bound frameLt hlt
  have huge := huge_largeValue f fl
  have largeEq := largeLeaf_overwriteLarge relinked.freshTree.tree (largeOf_lt va) pdReached bound
    (present_largeValue f fl) huge
  have translated := (pageTree_overwriteLarge relinked.freshTree.tree pdReached bound
    huge).translate_eq other
  rw [largeEq] at translated
  refine Eq.trans translated ?_
  by_cases eq : largeOf other = largeOf va
  · rw [if_pos ⟨rfl, eq⟩, eq, update_self]
    simp [frameNumber_largeValue_of_mask frameLt noAddress, aligned_or_offset unaligned.2]
  rw [if_neg (fun both => eq both.2), update_of_ne eq,
    pageLeaf_overwriteLarge relinked.freshTree.tree (largeOf_lt va) pdReached (pageOf_lt other)
      (by rw [pageOf_div]; exact eq),
    ← relinked.freshTree.tree.translate_eq, relinked.translate_eq freshTree.tree]

end

lemma pagingUnmap4k_translate (t : PageTree m.memory r)
    (run : pagingUnmap4k (r * pageSize) va m = .ok status post) (other : Nat) :
    pagingTranslate post.memory (r * pageSize) other =
      if status = .ok ∧ pageOf other = pageOf va then none
      else pagingTranslate m.memory (r * pageSize) other := by
  have no (unmapped : pagingUnmap4k (r * pageSize) va m =
    .ok .errNotFound m) : status = .errNotFound ∧ post = m := by
    rw [unmapped] at run
    cases run
    exact ⟨rfl, rfl⟩
  cases t.walk va with
  | absent _ _ _ unmapped =>
    obtain ⟨rfl, rfl⟩ := no unmapped
    rw [if_neg (by simp)]
  | large _ _ _ _ unmapped =>
    obtain ⟨rfl, rfl⟩ := no unmapped
    rw [if_neg (by simp)]
  | page _ _ hnl _ hr _ unmapped =>
    rw [unmapped] at run
    cases run
    obtain ⟨-, cleared, pageEq, largeEq⟩ := writeLeaf_spec t (pageOf_lt va) hr
      (show 0 < 256 ^ 8 by decide)
    have absent : flagSet 0 pagePresent = false := by decide
    rw [absent, if_neg Bool.false_ne_true] at pageEq
    have translated := cleared.translate_eq other
    rw [largeEq, pageEq] at translated
    refine Eq.trans translated ?_
    by_cases eq : pageOf other = pageOf va
    · have sameLarge : largeOf other = largeOf va := by rw [← pageOf_div, ← pageOf_div, eq]
      rw [if_pos ⟨rfl, eq⟩, sameLarge, hnl, eq, update_self]
      rfl
    · rw [if_neg (fun both => eq both.2), update_of_ne eq, ← t.translate_eq]

lemma exists_frame (ha : pa % pageSize = 0) (paLt : pa < 2 ^ 52) :
    ∃ f, pa = f * pageSize ∧ f < 2 ^ 40 := by
  refine ⟨pa / pageSize, ?_, ?_⟩
  · exact (Nat.div_mul_cancel (Nat.dvd_of_mod_eq_zero ha)).symm
  simp only [pageSize]
  omega

/-- What a call that returns does to the translation of every address. -/
theorem paging_frame_law (freshTree : FreshTree r m) (va pa fl o : Nat)
    (ha : pa % pageSize = 0) (paLt : pa < 2 ^ 52) (hlt : fl < 2 ^ 64)
    (noAddress : fl &&& pageAddrMask = 0) (status : KStatus) (post : Machine) :
    (pagingMap4k (r * pageSize) va pa fl m = .ok status post →
      pagingTranslate post.memory (r * pageSize) o =
        if status = .ok ∧ pageOf o = pageOf va then some (pa + o % pageSize)
        else pagingTranslate m.memory (r * pageSize) o) ∧
    (pagingMap2m (r * pageSize) va pa fl m = .ok status post →
      pagingTranslate post.memory (r * pageSize) o =
        if status = .ok ∧ largeOf o = largeOf va then some (pa + o % largePageSize)
        else pagingTranslate m.memory (r * pageSize) o) ∧
    (pagingUnmap4k (r * pageSize) va m = .ok status post →
      pagingTranslate post.memory (r * pageSize) o =
        if status = .ok ∧ pageOf o = pageOf va then none
        else pagingTranslate m.memory (r * pageSize) o) := by
  obtain ⟨f, rfl, frameLt⟩ := exists_frame ha paLt
  refine ⟨?_, ?_, ?_⟩
  · intro run
    exact pagingMap4k_translate freshTree frameLt hlt noAddress run o
  · intro run
    exact pagingMap2m_translate freshTree frameLt hlt noAddress run o
  intro run
  exact pagingUnmap4k_translate freshTree.tree run o

lemma plainMachine_freshTree : FreshTree 259 plainMachine := by
  have he (tbl : Nat) (i : Fin 512) :
    entryAt plainMachine.memory (tbl * pageSize) i = 0 :=
    ByteMemory.readLE_eq_zero fun _ _ => rfl
  have onlyRoot {path : List (Fin 512)} {tbl : Nat}
    (hr : tableAt plainMachine.memory 259 path = some tbl) : path = [] := by
    cases path with
    | nil => rfl
    | cons =>
      rw [tableAt, PointerTree.descend_cons, tableChild, he] at hr
      simp [flagSet] at hr
  refine ⟨⟨?_, ?_⟩, ?_, by decide⟩
  · intro fst snd n _ _ at1 nextReached
    rw [onlyRoot at1, onlyRoot nextReached]
  · intro path tbl i _ _ pres
    rw [he] at pres
    simp [flagSet] at pres
  rintro page - hc ⟨path, -, hr⟩
  have pathEq := onlyRoot hr
  subst pathEq
  cases hr
  simp [plainMachine] at hc

theorem plainMachine_frame_law :
    ∃ post, pagingMap4k (259 * pageSize) 0x4000 0x200000 3 plainMachine = .ok .ok post ∧
      pagingTranslate post.memory (259 * pageSize) 0x4010 = some 0x200010 := by
  have evaluated : Outcome.returnsWith
    (pagingMap4k (259 * pageSize) 0x4000 0x200000 3 plainMachine)
    (fun status _ => decide (status = .ok)) = true := by
    decide +kernel
  obtain ⟨status, post, run, isOk⟩ := Outcome.exists_of_returnsWith evaluated
  rw [decide_eq_true_eq] at isOk
  subst isOk
  refine ⟨post, run, ?_⟩
  have law := (paging_frame_law plainMachine_freshTree 0x4000 0x200000 3 0x4010 (by decide)
    (by decide) (by decide) (by decide) .ok post).1 run
  rw [if_pos ⟨rfl, by decide⟩] at law
  exact law

end HnxKernel
