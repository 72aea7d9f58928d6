import Hnx.PageTree

/-!
# Walks of the page tables

Each call of `paging.c` is a short statement about the leaves.
-/

namespace HnxKernel

section

/-- The tables form a tree in used frames; physical addresses have at most 52 bits. -/
structure SpaceOk (root : Nat) (mach : Machine) : Prop where
  tree : PageTree mach.memory root
  owned : ∀ tbl, IsTable mach.memory root tbl → mach.pool.Managed tbl ∧ mach.pool.used tbl = true
  small : mach.pool.totalPages ≤ 2 ^ 40

/-- No byte of any other used frame was changed. -/
structure FramesGrown (root : Nat) (before after : Machine) : Prop where
  ok : SpaceOk root after
  total : after.pool.totalPages = before.pool.totalPages
  isTable : ∀ tbl, IsTable before.memory root tbl → IsTable after.memory root tbl
  fresh : ∀ tbl, IsTable after.memory root tbl →
    IsTable before.memory root tbl ∨ before.pool.used tbl = false
  used : ∀ p, after.pool.used p = true ↔ before.pool.used p = true ∨ IsTable after.memory root p
  bytes : ∀ a, before.pool.used (a / pageSize) = true →
    ¬ IsTable before.memory root (a / pageSize) → after.memory a = before.memory a

structure TablesGrown (root : Nat) (before after : Machine) : Prop extends
    FramesGrown root before after where
  pageLeaf_eq : pageLeaf after.memory root = pageLeaf before.memory root
  largeLeaf_eq : largeLeaf after.memory root = largeLeaf before.memory root
  keeps : ∀ path tbl, path.length ≤ 3 → tableAt before.memory root path = some tbl →
    tableAt after.memory root path = some tbl

variable {r : Nat} {m pre middle post : Machine}

variable {p a : Nat}

lemma FramesGrown.not_isTable (hg : FramesGrown r pre post)
    (ht : pre.pool.used p = true) (notTable : ¬ IsTable pre.memory r p) :
    ¬ IsTable post.memory r p := by
  intro isTable
  rcases hg.fresh p isTable with was | free
  · exact notTable was
  · simp [ht] at free

lemma FramesGrown.trans (fst : FramesGrown r pre middle)
    (snd : FramesGrown r middle post) : FramesGrown r pre post where
  ok := snd.ok
  total := snd.total.trans fst.total
  isTable := fun tbl was => snd.isTable tbl (fst.isTable tbl was)
  fresh := by
    intro tbl isTable
    rcases snd.fresh tbl isTable with was | free
    · exact fst.fresh tbl was
    right
    by_contra ht
    have stillTaken := (fst.used tbl).mpr (.inl (by simpa using ht))
    simp [stillTaken] at free
  used := by
    intro p
    rw [snd.used, fst.used]
    constructor
    · rintro ((ht | was) | isTable)
      · exact .inl ht
      · exact .inr (snd.isTable p was)
      · exact .inr isTable
    rintro (ht | isTable)
    · exact .inl (.inl ht)
    · exact .inr isTable
  bytes := by
    intro a ht notTable
    rw [← fst.bytes a ht notTable]
    apply snd.bytes
    · exact (fst.used _).mpr (.inl ht)
    · exact fst.not_isTable ht notTable

lemma TablesGrown.refl (ok : SpaceOk r m) : TablesGrown r m m where
  ok := ok
  total := rfl
  isTable := fun _ isTable => isTable
  fresh := fun _ isTable => .inl isTable
  used := by
    intro p
    constructor
    · exact .inl
    rintro (ht | isTable)
    · exact ht
    · exact (ok.owned p isTable).2
  bytes := fun _ _ _ => rfl
  pageLeaf_eq := rfl
  largeLeaf_eq := rfl
  keeps := fun _ _ _ hr => hr

lemma TablesGrown.trans (fst : TablesGrown r pre middle)
    (snd : TablesGrown r middle post) : TablesGrown r pre post where
  toFramesGrown := fst.toFramesGrown.trans snd.toFramesGrown
  pageLeaf_eq := snd.pageLeaf_eq.trans fst.pageLeaf_eq
  largeLeaf_eq := snd.largeLeaf_eq.trans fst.largeLeaf_eq
  keeps := fun path tbl hs hr => snd.keeps path tbl hs (fst.keeps path tbl hs hr)

lemma SpaceOk.framesGrown_writeEntry (ok : SpaceOk r m) {tbl val : Nat} {s : Fin 512}
    (isTable : IsTable m.memory r tbl)
    (eq : SameTables m.memory (writeEntry m.memory tbl s val) r)
    (t : PageTree (writeEntry m.memory tbl s val) r) : FramesGrown r m
        { m with memory := writeEntry m.memory tbl s val } where
  ok := by
    refine ⟨t, ?_, ok.small⟩
    intro o otherTable
    exact ok.owned o ((eq.isTable_iff o).mp otherTable)
  total := rfl
  isTable := fun o was => (eq.isTable_iff o).mpr was
  fresh := fun o otherTable => .inl ((eq.isTable_iff o).mp otherTable)
  used := by
    intro p
    rw [eq.isTable_iff]
    constructor
    · exact .inl
    rintro (ht | pageTable)
    · exact ht
    · exact (ok.owned p pageTable).2
  bytes := by
    intro a _ notTable
    apply writeEntry_outside
    rintro rfl
    exact notTable isTable

lemma allocPage_of_none (ha : m.pool.allocPage = (none, m.pool)) : allocPage m = .ok none m := by
  rw [allocPage, ha]

lemma allocPage_of_some {pool : FramePool} (hf : m.pool.allocPage = (some (p * pageSize), pool)) :
    allocPage m = .ok (some (p * pageSize)) { m with pool := pool } := by
  rw [allocPage, hf]

def takeZeroed (mach : Machine) (page : Nat) : Machine where
  memory := mach.memory.fill (page * pageSize) pageSize 0
  pool := { mach.pool with used := Function.update mach.pool.used page true }

lemma takeZeroed_zero (mem : a / pageSize = p) : (takeZeroed m p).memory a = 0 := by
  have addrEq : p * pageSize + (a - p * pageSize) = a := by
    have := Nat.div_mul_le_self a pageSize
    rw [mem] at this
    omega
  rw [← addrEq]
  apply ByteMemory.fill_inside
  simp only [pageSize] at mem ⊢
  omega

lemma takeZeroed_outside (out : a / pageSize ≠ p) : (takeZeroed m p).memory a = m.memory a := by
  apply ByteMemory.fill_outside
  simp only [pageSize] at out ⊢
  omega

lemma pagingNewTable_cases (m : Machine) :
    pagingNewTable m = .error (.panic "paging: out of pages for table") m ∨
      ∃ p, pagingNewTable m = .ok (p * pageSize) (takeZeroed m p) ∧
        m.pool.Managed p ∧ m.pool.used p = false := by
  unfold pagingNewTable
  rcases m.pool.allocPage_cases with ha | ⟨p, hf, man, hc⟩
  · left
    rw [bind_of_ok (allocPage_of_none ha)]
    rfl
  right
  refine ⟨p, ?_, man, hc⟩
  rw [bind_of_ok (allocPage_of_some hf)]
  rfl

lemma SpaceOk.not_isTable_of_clear (ok : SpaceOk r m)
    (hc : m.pool.used p = false) : ¬ IsTable m.memory r p := by
  intro ht
  simp [(ok.owned p ht).2] at hc

lemma agreesOnTables_takeZeroed (notTable : ¬ IsTable m.memory r p) :
    AgreesOnTables m.memory (takeZeroed m p).memory r := by
  intro a ht
  apply takeZeroed_outside
  rintro rfl
  exact notTable ht

lemma SpaceOk.agrees_takeZeroed (ok : SpaceOk r m) (hc : m.pool.used p = false) :
    AgreesOnTables m.memory (takeZeroed m p).memory r :=
  agreesOnTables_takeZeroed (ok.not_isTable_of_clear hc)

lemma used_takeZeroed (m : Machine) (p o : Nat) : (takeZeroed m p).pool.used o = true ↔
    m.pool.used o = true ∨ o = p := by
  change Function.update m.pool.used p true o = true ↔ _
  by_cases eq : o = p
  · simp [eq]
  · simp [eq]

lemma entryAt_zero {ram : ByteMemory} (zero : ∀ a, a / pageSize = p → ram a = 0)
    (i : Fin 512) : entryAt ram (p * pageSize) i = 0 := by
  apply ByteMemory.readLE_eq_zero
  intro off offLt
  apply zero
  have idxLt := i.isLt
  simp only [pageSize]
  omega

lemma linkValue_eq {fl : Nat} (hlt : p < 2 ^ 40) :
    (p * pageSize &&& pageAddrMask) ||| pagePresent ||| fl =
      p * pageSize ||| (pagePresent ||| fl) := by
  rw [frame_and_mask hlt, Nat.or_assoc]

def linkNew (mach : Machine) (tbl : Nat) (slot : Fin 512) (page flags : Nat) : Machine where
  memory := writeEntry (takeZeroed mach page).memory tbl slot
    (page * pageSize ||| (pagePresent ||| flags))
  pool := (takeZeroed mach page).pool

section Link

variable {spot : List (Fin 512)} {tbl p fl : Nat} {s : Fin 512}

lemma linkable_takeZeroed (notTable : ¬ IsTable m.memory r p) (hlt : p < 2 ^ 40)
    (hi : spot.length ≤ 2) (hr : tableAt m.memory r spot = some tbl)
    (he : flagSet (entryAt m.memory (tbl * pageSize) s) pagePresent = false)
    (flagsLt : fl < 2 ^ 12) (hn : fl.testBit 7 = false) :
    Linkable (takeZeroed m p).memory r spot s tbl p
      (p * pageSize ||| (pagePresent ||| fl)) := by
  have agrees := agreesOnTables_takeZeroed notTable
  have lowLt : pagePresent ||| fl < 2 ^ 12 := Nat.or_lt_two_pow (by decide) flagsLt
  have ht : IsTable m.memory r tbl := ⟨spot, by omega, hr⟩
  constructor
  · exact hi
  · rw [agrees.sameTables.tableAt_eq spot (by omega), hr]
  · rw [agrees.entryAt_eq ht, he]
  · rw [agrees.sameTables.isTable_iff]
    exact notTable
  · exact entryAt_zero fun a mem => takeZeroed_zero mem
  · exact frame_or_lt hlt lowLt
  · exact frameNumber_or hlt lowLt
  · rw [flagSet_present, testBit_frame_or (by norm_num), Nat.testBit_or]
    simp [pagePresent]
  rw [flagSet_huge, testBit_frame_or (by norm_num), Nat.testBit_or, hn]
  decide

section
variable (ok : SpaceOk r m) (hi : spot.length ≤ 2) (hr : tableAt m.memory r spot = some tbl)
  (he : flagSet (entryAt m.memory (tbl * pageSize) s) pagePresent = false) (man : m.pool.Managed p)
  (hc : m.pool.used p = false) (hlt : fl < 2 ^ 12) (hn : fl.testBit 7 = false)
include ok hi hr he man hc hlt hn

lemma SpaceOk.linkable : Linkable (takeZeroed m p).memory r spot s tbl p
    (p * pageSize ||| (pagePresent ||| fl)) :=
  linkable_takeZeroed (ok.not_isTable_of_clear hc) (lt_of_lt_of_le man.2 ok.small) hi
    hr he hlt hn

lemma SpaceOk.linkNew_grown : TablesGrown r m (linkNew m tbl s p fl) ∧
    tableAt (linkNew m tbl s p fl).memory r (spot ++ [s]) = some p ∧
    ∀ path, path.length ≤ 3 → path ≠ spot ++ [s] → tableAt (linkNew m tbl s p fl).memory r path =
        tableAt m.memory r path := by
  have agrees := ok.agrees_takeZeroed hc
  have link := ok.linkable hi hr he man hc hlt hn
  have tree := agrees.pageTree ok.tree
  have tbls (o : Nat) : IsTable (linkNew m tbl s p fl).memory r o ↔
    IsTable m.memory r o ∨ o = p := by
    rw [← agrees.sameTables.isTable_iff o]
    exact link.isTable_iff tree o
  have endShort : (spot ++ [s]).length ≤ 3 := by
    simp only [List.length_append, List.length_singleton]
    omega
  refine ⟨?_, ?_, ?_⟩
  · refine ⟨⟨⟨link.pageTree tree, ?_, ok.small⟩, rfl, ?_, ?_, ?_, ?_⟩,
      (link.pageLeaf_eq tree).trans agrees.pageLeaf_eq,
      (link.largeLeaf_eq tree).trans agrees.largeLeaf_eq, ?_⟩
    · intro o isTable
      rw [tbls] at isTable
      change m.pool.Managed o ∧ (takeZeroed m p).pool.used o = true
      rw [used_takeZeroed]
      rcases isTable with was | rfl
      · exact ⟨(ok.owned o was).1, .inl (ok.owned o was).2⟩
      · exact ⟨man, .inr rfl⟩
    · intro o was
      exact (tbls o).mpr (.inl was)
    · intro o isTable
      rcases (tbls o).mp isTable with was | rfl
      · exact .inl was
      · exact .inr hc
    · intro o
      rw [tbls]
      change (takeZeroed m p).pool.used o = true ↔ _
      rw [used_takeZeroed]
      constructor
      · rintro (ht | eq)
        · exact .inl ht
        · exact .inr (.inr eq)
      rintro (ht | was | eq)
      · exact .inl ht
      · exact .inl (ok.owned o was).2
      · exact .inr eq
    · intro a ht notTable
      have notHere : a / pageSize ≠ tbl := by
        rintro rfl
        exact notTable ⟨spot, by omega, hr⟩
      have notNew : a / pageSize ≠ p := by
        rintro rfl
        simp [hc] at ht
      exact (writeEntry_outside notHere).trans (takeZeroed_outside notNew)
    intro path o hs otherReached
    have pre := (agrees.sameTables.tableAt_eq path hs).trans otherReached
    change tableAt (writeEntry _ _ _ _) r path = some o
    rw [link.tableAt_eq tree hs, if_neg, pre]
    rintro rfl
    rw [tableAt_concat, link.reached, Option.bind_some, link.child_before] at pre
    simp at pre
  · change tableAt (writeEntry _ _ _ _) r (spot ++ [s]) = some p
    rw [link.tableAt_eq tree endShort, if_pos rfl]
  intro path hs ne
  change tableAt (writeEntry _ _ _ _) r path = _
  rw [link.tableAt_eq tree hs, if_neg ne, agrees.sameTables.tableAt_eq path hs]

end

lemma nextLevel_spec (spot : List (Fin 512)) (ok : SpaceOk r m) (hi : spot.length ≤ 2)
    (hr : tableAt m.memory r spot = some tbl)
    (notLarge : flagSet (entryAt m.memory (tbl * pageSize) s) pagePresent = true →
      flagSet (entryAt m.memory (tbl * pageSize) s) pageHuge = false)
    (hlt : fl < 2 ^ 12) (hn : fl.testBit 7 = false) : nextLevel (tbl * pageSize) s fl m =
        .error (.panic "paging: out of pages for table") m ∨
      ∃ next post, nextLevel (tbl * pageSize) s fl m = .ok (next * pageSize) post ∧
        TablesGrown r m post ∧
        tableAt post.memory r (spot ++ [s]) = some next ∧
        ∀ path, path.length ≤ 3 → path ≠ spot ++ [s] →
          tableAt post.memory r path = tableAt m.memory r path := by
  unfold nextLevel
  rw [get_bind]
  by_cases pres : flagSet (entryAt m.memory (tbl * pageSize) s) pagePresent = true
  · right
    rw [if_pos pres, and_pageAddrMask]
    refine ⟨_, m, rfl, TablesGrown.refl ok, ?_, fun _ _ _ => rfl⟩
    rw [tableAt_concat, hr, Option.bind_some, tableChild]
    simp [pres, notLarge pres]
  rw [if_neg pres]
  rcases pagingNewTable_cases m with hp | ⟨p, made, man, hc⟩
  · left
    rw [bind_of_error hp]
  right
  have he : flagSet (entryAt m.memory (tbl * pageSize) s) pagePresent = false := by simpa using pres
  obtain ⟨hg, h, others⟩ := ok.linkNew_grown hi hr he man hc hlt hn
  refine ⟨p, linkNew m tbl s p fl, ?_, hg, h, others⟩
  rw [bind_of_ok made, linkValue_eq (lt_of_lt_of_le man.2 ok.small)]
  rfl

end Link

end

def pageOf (va : Nat) : Nat := va / pageSize % 2 ^ 36

def largeOf (va : Nat) : Nat := va / largePageSize % 2 ^ 27

lemma pageOf_lt (va : Nat) : pageOf va < 2 ^ 36 := Nat.mod_lt _ (by norm_num)

lemma pageOf_of_lt {va : Nat} (vaLt : va < 2 ^ 48) : pageOf va = va / pageSize := by
  rw [pageOf]
  apply Nat.mod_eq_of_lt
  simp only [pageSize]
  omega

lemma largeOf_lt (va : Nat) : largeOf va < 2 ^ 27 := Nat.mod_lt _ (by norm_num)

lemma pageOf_div (va : Nat) : pageOf va / 512 = largeOf va := by
  simp only [pageOf, largeOf, pageSize, largePageSize]
  omega

lemma ofNat_largeOf (va : Nat) : Fin.ofNat 512 (largeOf va) = idxPd va := by
  simp only [idxPd, largeOf, largePageSize, Fin.ext_iff, Fin.val_ofNat, Nat.shiftRight_eq_div_pow]
  omega

lemma ofNat_pageOf (va : Nat) : Fin.ofNat 512 (pageOf va) = idxPt va := by
  simp only [idxPt, pageOf, pageSize, Fin.ext_iff, Fin.val_ofNat, Nat.shiftRight_eq_div_pow]
  omega

lemma largePath_largeOf (va : Nat) : largePath (largeOf va) = [idxPml4 va, idxPdpt va] := by
  simp only [largePath, idxPml4, idxPdpt, largeOf, largePageSize, List.cons.injEq, Fin.ext_iff,
    Fin.val_ofNat, Nat.shiftRight_eq_div_pow, and_true]
  omega

lemma pagePath_pageOf (va : Nat) :
    pagePath (pageOf va) = [idxPml4 va, idxPdpt va] ++ [idxPd va] := by
  rw [pagePath, pageOf_div, largePath_largeOf, ofNat_largeOf]

lemma tableAt_pagePath (ram : ByteMemory) (r va : Nat) :
    tableAt ram r (pagePath (pageOf va)) = (tableAt ram r (largePath (largeOf va))).bind fun dir =>
        tableChild ram dir (idxPd va) := by
  rw [pagePath_pageOf, tableAt_concat, largePath_largeOf]

section Flags

lemma interFlags_lt (fl : Nat) : interFlags fl < 2 ^ 12 :=
  Nat.or_lt_two_pow (by decide) (lt_of_le_of_lt Nat.and_le_right (by decide))

lemma interFlags_notHuge (fl : Nat) : (interFlags fl).testBit 7 = false := by
  have userBit : pageUser.testBit 7 = false := by decide
  have lowBits : (pagePresent ||| pageWritable).testBit 7 = false := by decide
  rw [interFlags, Nat.testBit_or, Nat.testBit_and, userBit, lowBits]
  simp

def leafValue (frame flags : Nat) : Nat := frame * pageSize ||| (withoutHuge flags ||| pagePresent)

variable {f fl : Nat}

lemma leafFlags_lt (flagsLt : fl < 2 ^ 12) : withoutHuge fl ||| pagePresent < 2 ^ 12 :=
  Nat.or_lt_two_pow (lt_of_le_of_lt Nat.and_le_left flagsLt) (by decide)

lemma leafValue_lt (frameLt : f < 2 ^ 40) (flagsLt : fl < 2 ^ 12) : leafValue f fl < 256 ^ 8 :=
  frame_or_lt frameLt (leafFlags_lt flagsLt)

lemma frameNumber_leafValue (frameLt : f < 2 ^ 40) (flagsLt : fl < 2 ^ 12) :
    frameNumber (leafValue f fl) = f :=
  frameNumber_or frameLt (leafFlags_lt flagsLt)

lemma present_leafValue (f fl : Nat) : flagSet (leafValue f fl) pagePresent = true := by
  rw [flagSet_present, leafValue, testBit_frame_or (by norm_num), Nat.testBit_or]
  simp [pagePresent]

end Flags

def setLeaf (mach : Machine) (tbl page val : Nat) : Machine :=
  { mach with memory := writeEntry mach.memory tbl (Fin.ofNat 512 page) val }

variable {r : Nat} {m : Machine}

lemma pagingMap4k_spec (ok : SpaceOk r m) {va f fl : Nat} (frameLt : f < 2 ^ 40) :
    (∃ post, pagingMap4k (r * pageSize) va (f * pageSize) fl m =
        .error (.panic "paging: out of pages for table") post) ∨
      (∃ post, pagingMap4k (r * pageSize) va (f * pageSize) fl m =
          .ok .errExists post ∧ TablesGrown r m post) ∨
      ∃ grown tbl, TablesGrown r m grown ∧
        tableAt grown.memory r (pagePath (pageOf va)) = some tbl ∧
        largeLeaf m.memory r (largeOf va) = none ∧
        pagingMap4k (r * pageSize) va (f * pageSize) fl m =
          .ok .ok (setLeaf grown tbl (pageOf va) (leafValue f fl)) := by
  have lowFlags := interFlags_lt fl
  have notHuge := interFlags_notHuge fl
  unfold pagingMap4k
  rcases nextLevel_spec [] ok (by simp) rfl
      (fun pres => ok.tree.upper [] r (idxPml4 va) (by simp) rfl pres) lowFlags notHuge with
    panicked | ⟨pdpt, fst, ok1, grown1, pdptAt, _⟩
  · exact .inl ⟨_, by rw [bind_of_error panicked]⟩
  rw [bind_of_ok ok1]
  rcases nextLevel_spec ([idxPml4 va]) grown1.ok (by simp) pdptAt
      (fun pres => grown1.ok.tree.upper [idxPml4 va] pdpt (idxPdpt va) (by simp)
        pdptAt pres) lowFlags notHuge with
    panicked | ⟨pd, snd, ok2, grown2, pdReached, _⟩
  · exact .inl ⟨_, by rw [bind_of_error panicked]⟩
  rw [bind_of_ok ok2, get_bind]
  have grown := grown1.trans grown2
  by_cases huge : flagSet (entryAt snd.memory (pd * pageSize) (idxPd va)) pageHuge = true
  · right
    left
    rw [if_pos huge]
    exact ⟨snd, rfl, grown⟩
  rw [if_neg huge]
  have small : flagSet (entryAt snd.memory (pd * pageSize) (idxPd va)) pageHuge = false := by
    simpa using huge
  have noLarge : largeLeaf m.memory r (largeOf va) = none := by
    rw [← grown.largeLeaf_eq, largeLeaf, if_pos (largeOf_lt va), largePath_largeOf]
    change (tableAt snd.memory r ([idxPml4 va] ++ [idxPdpt va])).bind _ = none
    rw [pdReached, Option.bind_some, ofNat_largeOf]
    simp [small]
  rcases nextLevel_spec ([idxPml4 va] ++ [idxPdpt va]) grown2.ok (by simp) pdReached
      (fun _ => small) lowFlags notHuge with
    panicked | ⟨pt, third, ok3, grown3, ptReached, _⟩
  · exact .inl ⟨_, by rw [bind_of_error panicked]⟩
  right
  right
  refine ⟨third, pt, grown.trans grown3, ?_, noLarge, ?_⟩
  · rw [pagePath_pageOf]
    exact ptReached
  rw [bind_of_ok ok3, frame_and_mask frameLt, Nat.or_assoc, setLeaf, ofNat_pageOf]
  rfl

def NoLowest (ram : ByteMemory) (root : Nat) : Prop :=
  ∀ path, path.length = 3 → tableAt ram root path = none

def largeValue (frame flags : Nat) : Nat :=
  frame * pageSize ||| (withoutHuge flags ||| pagePresent ||| pageHuge)

lemma pagingMap2m_spec (ok : SpaceOk r m) {va fl : Nat}
    (aligned : va % largePageSize = 0) (flagsLt : fl < 2 ^ 12)
    (noLowest : NoLowest m.memory r) : (∃ post, pagingMap2m (r * pageSize) va va fl m =
        .error (.panic "paging: out of pages for table") post) ∨
      ∃ post, pagingMap2m (r * pageSize) va va fl m = .ok .ok post ∧
        FramesGrown r m post ∧ NoLowest post.memory r ∧
        largeLeaf post.memory r = Function.update (largeLeaf m.memory r) (largeOf va)
          (some (largeValue (frameNumber va) fl)) := by
  have lowFlags := interFlags_lt fl
  have notHuge := interFlags_notHuge fl
  unfold pagingMap2m
  rw [if_neg (by simp [aligned])]
  rcases nextLevel_spec [] ok (by simp) rfl
      (fun pres => ok.tree.upper [] r (idxPml4 va) (by simp) rfl pres) lowFlags notHuge with
    panicked | ⟨pdpt, fst, ok1, grown1, pdptAt, others1⟩
  · exact .inl ⟨_, by rw [bind_of_error panicked]⟩
  rw [bind_of_ok ok1]
  rcases nextLevel_spec [idxPml4 va] grown1.ok (by simp) pdptAt
      (fun pres => grown1.ok.tree.upper [idxPml4 va] pdpt (idxPdpt va) (by simp)
        pdptAt pres) lowFlags notHuge with
    panicked | ⟨pd, snd, ok2, grown2, pdReached, others2⟩
  · exact .inl ⟨_, by rw [bind_of_error panicked]⟩
  right
  have grown := grown1.trans grown2
  have secondNoLowest : NoLowest snd.memory r := by
    intro path lowest
    rw [others2 path (by omega) (by rintro rfl; simp at lowest),
      others1 path (by omega) (by rintro rfl; simp at lowest)]
    exact noLowest path lowest
  have directoryReached : tableAt snd.memory r (largePath (largeOf va)) = some pd := by
    rw [largePath_largeOf]
    exact pdReached
  have noTable : tableChild snd.memory pd (Fin.ofNat 512 (largeOf va)) = none := by
    have absent := secondNoLowest (largePath (largeOf va) ++ [Fin.ofNat 512 (largeOf va)])
      (by simp [largePath_length])
    rwa [tableAt_concat, directoryReached, Option.bind_some] at absent
  have lowLt : withoutHuge fl ||| pagePresent ||| pageHuge < 2 ^ 12 :=
    Nat.or_lt_two_pow (leafFlags_lt flagsLt) (by decide)
  have pres : flagSet (largeValue (frameNumber va) fl) pagePresent = true := by
    rw [flagSet_present, largeValue, testBit_frame_or (by norm_num), Nat.testBit_or, Nat.testBit_or]
    simp [pagePresent]
  have huge : flagSet (largeValue (frameNumber va) fl) pageHuge = true := by
    have hugeBit : pageHuge.testBit 7 = true := by decide
    rw [flagSet_huge, largeValue, testBit_frame_or (by norm_num), Nat.testBit_or, hugeBit]
    simp
  obtain ⟨eq, t, _, largeEq⟩ := writeLarge_spec grown.ok.tree (largeOf_lt va) directoryReached
    noTable (frame_or_lt (frameNumber_lt va) lowLt) pres huge
  have isTable : IsTable snd.memory r pd := ⟨_, by simp [largePath_length], directoryReached⟩
  refine ⟨_, ?_, grown.toFramesGrown.trans (grown.ok.framesGrown_writeEntry isTable eq t), ?_, ?_⟩
  · rw [bind_of_ok ok2, and_pageAddrMask, Nat.or_assoc, Nat.or_assoc, ← Nat.or_assoc _ _ pageHuge,
      ← ofNat_largeOf]
    rfl
  · intro path lowest
    rw [eq.tableAt_eq path (by omega)]
    exact secondNoLowest path lowest
  rw [← grown.largeLeaf_eq]
  exact largeEq

section Walk

variable {ram : ByteMemory} {path : List (Fin 512)} {tbl : Nat}

lemma tableAt_of_absent (hr : tableAt ram r path = some tbl) {i : Fin 512}
    (ha : flagSet (entryAt ram (tbl * pageSize) i) pagePresent = false) :
    tableAt ram r (path ++ [i]) = none := by
  rw [tableAt_concat, hr, Option.bind_some, tableChild]
  simp [ha]

lemma tableAt_of_present (hr : tableAt ram r path = some tbl) {i : Fin 512}
    (pres : flagSet (entryAt ram (tbl * pageSize) i) pagePresent = true)
    (small : flagSet (entryAt ram (tbl * pageSize) i) pageHuge = false) :
    tableAt ram r (path ++ [i]) = some (frameNumber (entryAt ram (tbl * pageSize) i)) := by
  rw [tableAt_concat, hr, Option.bind_some, tableChild]
  simp [pres, small]

/-- What the leaves are, and what translating and unmapping the address does. -/
inductive Walk (root va : Nat) (mach : Machine) : Prop
  | absent (noLarge : largeLeaf mach.memory root (largeOf va) = none)
      (noPage : pageLeaf mach.memory root (pageOf va) = none)
      (translated : pagingTranslate mach.memory (root * pageSize) va = none)
      (unmapped : pagingUnmap4k (root * pageSize) va mach = .ok .errNotFound mach)
  | large (entry : Nat) (isLarge : largeLeaf mach.memory root (largeOf va) = some entry)
      (noPage : pageLeaf mach.memory root (pageOf va) = none)
      (translated : pagingTranslate mach.memory (root * pageSize) va =
        some (frameNumber entry * pageSize ||| va % largePageSize))
      (unmapped : pagingUnmap4k (root * pageSize) va mach = .ok .errNotFound mach)
  | page (table entry : Nat) (noLarge : largeLeaf mach.memory root (largeOf va) = none)
      (isPage : pageLeaf mach.memory root (pageOf va) = some entry)
      (reached : tableAt mach.memory root (pagePath (pageOf va)) = some table)
      (translated : pagingTranslate mach.memory (root * pageSize) va =
        some (frameNumber entry * pageSize ||| va % pageSize))
      (unmapped : pagingUnmap4k (root * pageSize) va mach =
        .ok .ok (setLeaf mach table (pageOf va) 0))

lemma leaves_of_no_directory {va : Nat} (ha : tableAt ram r (largePath (largeOf va)) = none) :
    largeLeaf ram r (largeOf va) = none ∧ pageLeaf ram r (pageOf va) = none := by
  constructor
  · rw [largeLeaf, ha]
    simp
  rw [pageLeaf, tableAt_pagePath, ha]
  simp

lemma walk_of_directory {va dir : Nat} (hr : tableAt m.memory r (largePath (largeOf va)) = some dir)
    (transEq : pagingTranslate m.memory (r * pageSize) va =
      let pde := entryAt m.memory (dir * pageSize) (idxPd va)
      if !flagSet pde pagePresent then
        none
      else if flagSet pde pageHuge then
        some (frameNumber pde * pageSize ||| va % largePageSize)
      else
        let pte := entryAt m.memory (frameNumber pde * pageSize) (idxPt va)
        if !flagSet pte pagePresent then
          none
        else
          some (frameNumber pte * pageSize ||| va % pageSize))
    (unmapEq : pagingUnmap4k (r * pageSize) va m =
      let pde := entryAt m.memory (dir * pageSize) (idxPd va)
      if !flagSet pde pagePresent || flagSet pde pageHuge then
        .ok .errNotFound m
      else
        let pte := entryAt m.memory (frameNumber pde * pageSize) (idxPt va)
        if !flagSet pte pagePresent then
          .ok .errNotFound m
        else
          .ok .ok (setLeaf m (frameNumber pde) (pageOf va) 0)) : Walk r va m := by
  have largeEq : largeLeaf m.memory r (largeOf va) =
    let pde := entryAt m.memory (dir * pageSize) (idxPd va)
      if flagSet pde pagePresent && flagSet pde pageHuge then some pde else none := by
    rw [largeLeaf, if_pos (largeOf_lt va), hr, Option.bind_some, ofNat_largeOf]
  have tableEq : tableAt m.memory r (pagePath (pageOf va)) =
    tableChild m.memory dir (idxPd va) := by
    rw [tableAt_pagePath, hr, Option.bind_some]
  rw [tableChild] at tableEq
  generalize entryAt m.memory (dir * pageSize) (idxPd va) = pde at *
  have pageEq : pageLeaf m.memory r (pageOf va) =
    (tableAt m.memory r (pagePath (pageOf va))).bind fun tbl =>
      let entry := entryAt m.memory (tbl * pageSize) (idxPt va)
        if flagSet entry pagePresent then some entry else none := by
    rw [pageLeaf, if_pos (pageOf_lt va), ofNat_pageOf]
  by_cases pres : flagSet pde pagePresent = true
  swap
  · simp only [pres, Bool.false_and, Bool.not_false, if_true, Bool.true_or,
      Bool.false_eq_true, if_false] at transEq unmapEq largeEq tableEq
    rw [tableEq, Option.bind_none] at pageEq
    exact .absent largeEq pageEq transEq unmapEq
  by_cases huge : flagSet pde pageHuge = true
  · simp only [pres, huge, Bool.and_self, Bool.not_true, Bool.and_false, Bool.or_true,
      Bool.false_eq_true, if_true, if_false] at transEq unmapEq largeEq tableEq
    rw [tableEq, Option.bind_none] at pageEq
    exact .large pde largeEq pageEq transEq unmapEq
  simp only [pres, huge, Bool.and_self, Bool.not_true, Bool.not_false,
    Bool.and_false, Bool.or_false, Bool.false_eq_true, if_true, if_false]
    at transEq unmapEq largeEq tableEq
  rw [tableEq, Option.bind_some] at pageEq
  generalize entryAt m.memory (frameNumber pde * pageSize) (idxPt va) = pte at *
  by_cases hm : flagSet pte pagePresent = true
  · simp only [hm, Bool.not_true, Bool.false_eq_true, if_true, if_false]
      at transEq unmapEq pageEq
    exact .page (frameNumber pde) pte largeEq pageEq tableEq transEq unmapEq
  simp only [hm, Bool.not_false, Bool.false_eq_true, if_true, if_false]
    at transEq unmapEq pageEq
  exact .absent largeEq pageEq transEq unmapEq

/-- At an absent entry of one of the two upper levels, or at a page directory. -/
inductive Descent (ram : ByteMemory) (root va : Nat) : Prop
  | noPml4 (absent : flagSet (entryAt ram (root * pageSize) (idxPml4 va)) pagePresent = false)
      (unreached : tableAt ram root (largePath (largeOf va)) = none)
  | noPdpt (pdpt : Nat)
      (present : flagSet (entryAt ram (root * pageSize) (idxPml4 va)) pagePresent = true)
      (pdptEq : frameNumber (entryAt ram (root * pageSize) (idxPml4 va)) = pdpt)
      (absent : flagSet (entryAt ram (pdpt * pageSize) (idxPdpt va)) pagePresent = false)
      (unreached : tableAt ram root (largePath (largeOf va)) = none)
  | directory (pdpt directory : Nat)
      (present : flagSet (entryAt ram (root * pageSize) (idxPml4 va)) pagePresent = true)
      (pdptEq : frameNumber (entryAt ram (root * pageSize) (idxPml4 va)) = pdpt)
      (pdptPresent : flagSet (entryAt ram (pdpt * pageSize) (idxPdpt va)) pagePresent = true)
      (small : flagSet (entryAt ram (pdpt * pageSize) (idxPdpt va)) pageHuge = false)
      (directoryEq : frameNumber (entryAt ram (pdpt * pageSize) (idxPdpt va)) = directory)
      (reached : tableAt ram root (largePath (largeOf va)) = some directory)

lemma PageTree.descent (t : PageTree ram r) (va : Nat) : Descent ram r va := by
  have rootReached : tableAt ram r [] = some r := rfl
  have pathEq : largePath (largeOf va) = [] ++ [idxPml4 va] ++ [idxPdpt va] := largePath_largeOf va
  cases pml4Present : flagSet (entryAt ram (r * pageSize) (idxPml4 va)) pagePresent with
  | false =>
    have absent := tableAt_of_absent rootReached pml4Present
    refine .noPml4 pml4Present ?_
    rw [pathEq, tableAt_concat, absent, Option.bind_none]
  | true =>
    have pml4Small := t.upper [] r _ (by simp) rootReached pml4Present
    have pdptReached := tableAt_of_present rootReached pml4Present pml4Small
    cases pdptPresent : flagSet (entryAt ram
        (frameNumber (entryAt ram (r * pageSize) (idxPml4 va)) * pageSize)
        (idxPdpt va)) pagePresent with
    | false =>
      have absent := tableAt_of_absent pdptReached pdptPresent
      rw [← pathEq] at absent
      exact .noPdpt _ pml4Present rfl pdptPresent absent
    | true =>
      have pdptSmall := t.upper _ _ _ (by simp) pdptReached pdptPresent
      have reach := tableAt_of_present pdptReached pdptPresent pdptSmall
      rw [← pathEq] at reach
      exact .directory _ _ pml4Present rfl pdptPresent pdptSmall rfl reach

lemma PageTree.walk (t : PageTree m.memory r) (va : Nat) : Walk r va m := by
  cases t.descent va with
  | noPml4 ha unreached =>
    obtain ⟨noLarge, noPage⟩ := leaves_of_no_directory unreached
    refine .absent noLarge noPage (by simp [pagingTranslate, ha]) ?_
    rw [pagingUnmap4k, get_bind]
    simp only [ha, Bool.not_false, if_true]
    rfl
  | noPdpt _ pres pdptEq ha unreached =>
    obtain ⟨noLarge, noPage⟩ := leaves_of_no_directory unreached
    refine .absent noLarge noPage ?_ ?_
    · simp [pagingTranslate, pres, and_pageAddrMask, pdptEq, ha]
    rw [pagingUnmap4k, get_bind]
    simp only [pres, Bool.not_true, Bool.false_eq_true, if_false, and_pageAddrMask, pdptEq,
      ha, Bool.not_false, if_true]
    rfl
  | directory _ _ pres pdptEq pdptPresent small dirEq hr =>
    apply walk_of_directory hr
    · simp [pagingTranslate, pres, and_pageAddrMask, pdptEq, pdptPresent, small, dirEq]
    rw [pagingUnmap4k, get_bind]
    simp only [pres, and_pageAddrMask, pdptEq, pdptPresent, dirEq, Bool.not_true,
      Bool.false_eq_true, if_false]
    split
    · rfl
    split
    · rfl
    rw [setLeaf, ofNat_pageOf]
    rfl

end Walk

end HnxKernel
