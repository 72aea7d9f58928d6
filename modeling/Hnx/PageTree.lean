import Hnx.PageTables
import Hnx.PointerTree

/-!
# The tree of page tables

Writing an entry changes the leaf or the table that it is about, and no other.
-/

namespace HnxKernel

def frameNumber (entry : Nat) : Nat := entry / pageSize % 2 ^ 40

lemma frameNumber_lt (e : Nat) : frameNumber e < 2 ^ 40 := Nat.mod_lt _ (by norm_num)

lemma flagSet_two_pow (e bit : Nat) : flagSet e (2 ^ bit) = e.testBit bit := by
  rw [flagSet, Nat.and_two_pow]
  cases e.testBit bit <;> simp

lemma flagSet_present (e : Nat) : flagSet e pagePresent = e.testBit 0 := flagSet_two_pow e 0

lemma flagSet_writable (e : Nat) : flagSet e pageWritable = e.testBit 1 := flagSet_two_pow e 1

lemma flagSet_user (e : Nat) : flagSet e pageUser = e.testBit 2 := flagSet_two_pow e 2

lemma flagSet_huge (e : Nat) : flagSet e pageHuge = e.testBit 7 := flagSet_two_pow e 7

lemma and_pageAddrMask (e : Nat) : e &&& pageAddrMask = frameNumber e * pageSize := by
  have maskEq : pageAddrMask = (2 ^ 40 - 1) * 2 ^ 12 := by decide
  have sizeEq : pageSize = 2 ^ 12 := rfl
  rw [frameNumber, maskEq, sizeEq]
  apply Nat.eq_of_testBit_eq
  intro bit
  rw [Nat.testBit_and, Nat.testBit_mul_two_pow, Nat.testBit_mul_two_pow,
    Nat.testBit_two_pow_sub_one,
    Nat.testBit_mod_two_pow, Nat.testBit_div_two_pow]
  by_cases low : 12 ≤ bit
  · have bitEq : bit - 12 + 12 = bit := by omega
    simp [low, bitEq, Bool.and_comm]
  · simp [low]

section Build

variable {f flags : Nat}

lemma frame_or_flags (flagsLt : flags < 2 ^ 12) :
    f * pageSize ||| flags = f * pageSize + flags := by
  have sizeEq : pageSize = 2 ^ 12 := rfl
  rw [sizeEq, Nat.mul_comm f]
  exact (Nat.two_pow_add_eq_or_of_lt flagsLt f).symm

lemma frameNumber_or (frameLt : f < 2 ^ 40) (flagsLt : flags < 2 ^ 12) :
    frameNumber (f * pageSize ||| flags) = f := by
  rw [frame_or_flags flagsLt]
  simp only [frameNumber, pageSize]
  omega

lemma testBit_frame_or {bit : Nat} (bitLt : bit < 12) :
    (f * pageSize ||| flags).testBit bit = flags.testBit bit := by
  have sizeEq : pageSize = 2 ^ 12 := rfl
  rw [Nat.testBit_or, sizeEq, Nat.testBit_mul_two_pow]
  have low : ¬ 12 ≤ bit := by omega
  simp [low]

lemma frame_or_lt (frameLt : f < 2 ^ 40) (flagsLt : flags < 2 ^ 12) :
    f * pageSize ||| flags < 256 ^ 8 := by
  rw [frame_or_flags flagsLt]
  simp only [pageSize]
  omega

lemma frame_and_mask (frameLt : f < 2 ^ 40) : f * pageSize &&& pageAddrMask = f * pageSize := by
  rw [and_pageAddrMask]
  congr 1
  simp only [frameNumber, pageSize]
  omega

end Build

section

open PointerTree

def tableChild (ram : ByteMemory) (tbl : Nat) (idx : Fin 512) : Option Nat :=
  let entry := entryAt ram (tbl * pageSize) idx
  if flagSet entry pagePresent && !flagSet entry pageHuge then
    some (frameNumber entry)
  else
    none

def tableAt (ram : ByteMemory) (root : Nat) (path : List (Fin 512)) : Option Nat :=
  descend (tableChild ram) root path

lemma tableAt_append (ram : ByteMemory) (root : Nat) (pre after : List (Fin 512)) :
    tableAt ram root (pre ++ after) =
      (tableAt ram root pre).bind fun tbl => tableAt ram tbl after :=
  descend_append

lemma tableAt_concat (ram : ByteMemory) (root : Nat) (path : List (Fin 512)) (i : Fin 512) :
    tableAt ram root (path ++ [i]) = (tableAt ram root path).bind fun tbl => tableChild ram tbl i :=
  descend_concat

def IsTable (ram : ByteMemory) (root tbl : Nat) : Prop :=
  ∃ path, path.length ≤ 3 ∧ tableAt ram root path = some tbl

def largePath (largePage : Nat) : List (Fin 512) :=
  [Fin.ofNat 512 (largePage / 2 ^ 18), Fin.ofNat 512 (largePage / 2 ^ 9)]

def pagePath (page : Nat) : List (Fin 512) := largePath (page / 512) ++ [Fin.ofNat 512 (page / 512)]

def largeLeaf (ram : ByteMemory) (root largePage : Nat) : Option Nat :=
  if largePage < 2 ^ 27 then
    (tableAt ram root (largePath largePage)).bind fun tbl =>
      let entry := entryAt ram (tbl * pageSize) (Fin.ofNat 512 largePage)
      if flagSet entry pagePresent && flagSet entry pageHuge then some entry else none
  else
    none

def pageLeaf (ram : ByteMemory) (root page : Nat) : Option Nat :=
  if page < 2 ^ 36 then
    (tableAt ram root (pagePath page)).bind fun tbl =>
      let entry := entryAt ram (tbl * pageSize) (Fin.ofNat 512 page)
      if flagSet entry pagePresent then some entry else none
  else
    none

/-- No frame holds two tables, and the two upper levels have no large
pages. -/
structure PageTree (ram : ByteMemory) (root : Nat) : Prop where
  distinct : IsTree (tableChild ram) root fun path => path.length ≤ 3
  upper : ∀ path table i, path.length ≤ 1 → tableAt ram root path = some table →
    flagSet (entryAt ram (table * pageSize) i) pagePresent = true →
      flagSet (entryAt ram (table * pageSize) i) pageHuge = false

def writeEntry (ram : ByteMemory) (tbl : Nat) (idx : Fin 512) (val : Nat) : ByteMemory :=
  ram.writeLE (tbl * pageSize + 8 * idx) 8 val

section Paths

lemma largePath_length (largePage : Nat) : (largePath largePage).length = 2 := rfl

lemma pagePath_length (p : Nat) : (pagePath p).length = 3 := rfl

lemma largePage_eq_of_path {fst snd : Nat} (firstLt : fst < 2 ^ 27)
    (secondLt : snd < 2 ^ 27) (pathEq : largePath fst = largePath snd)
    (slotEq : Fin.ofNat 512 fst = Fin.ofNat 512 snd) : fst = snd := by
  simp only [largePath, List.cons.injEq, Fin.ext_iff, Fin.val_ofNat, and_true] at pathEq slotEq
  omega

lemma page_eq_of_path {fst snd : Nat} (firstLt : fst < 2 ^ 36)
    (secondLt : snd < 2 ^ 36) (pathEq : pagePath fst = pagePath snd)
    (slotEq : Fin.ofNat 512 fst = Fin.ofNat 512 snd) : fst = snd := by
  simp only [pagePath, largePath, List.cons_append, List.nil_append, List.cons.injEq, Fin.ext_iff,
    Fin.val_ofNat, and_true] at pathEq slotEq
  omega

end Paths

section Entries

variable {ram : ByteMemory} {tbl o val : Nat} {i s : Fin 512}

lemma entryAt_lt (ram : ByteMemory) (tbl : Nat) (i : Fin 512) : entryAt ram tbl i < 256 ^ 8 :=
  ByteMemory.readLE_lt

lemma entryAt_writeEntry_same (bound : val < 256 ^ 8) :
    entryAt (writeEntry ram tbl i val) (tbl * pageSize) i = val :=
  ByteMemory.readLE_writeLE_same bound

lemma entryAt_writeEntry_other (ne : (o, s) ≠ (tbl, i)) :
    entryAt (writeEntry ram tbl i val) (o * pageSize) s = entryAt ram (o * pageSize) s := by
  apply ByteMemory.readLE_writeLE_outside
  have idxLt := i.isLt
  have slotLt := s.isLt
  by_cases sameTable : o = tbl
  · have differentSlot : (s : Nat) ≠ i := by
      intro same
      exact ne (Prod.ext sameTable (Fin.ext same))
    subst sameTable
    omega
  simp only [pageSize]
  omega

lemma tableChild_writeEntry_other (ne : (o, s) ≠ (tbl, i)) :
    tableChild (writeEntry ram tbl i val) o s = tableChild ram o s := by
  rw [tableChild, entryAt_writeEntry_other ne, tableChild]

lemma writeEntry_outside {addr : Nat} (out : addr / pageSize ≠ tbl) :
    writeEntry ram tbl i val addr = ram addr := by
  rw [writeEntry]
  apply ByteMemory.writeLE_outside
  have idxLt := i.isLt
  simp only [pageSize] at out ⊢
  omega

end Entries

end

section

open Function List Option
open PointerTree

variable {ram o : ByteMemory} {r : Nat}

structure SameTables (ram other : ByteMemory) (root : Nat) : Prop where
  tableAt_eq : ∀ path, path.length ≤ 3 → tableAt other root path = tableAt ram root path

lemma SameTables.isTable_iff (eq : SameTables ram o r) (tbl : Nat) :
    IsTable o r tbl ↔ IsTable ram r tbl := by
  constructor
  · rintro ⟨path, hs, hr⟩
    exact ⟨path, hs, eq.tableAt_eq path hs ▸ hr⟩
  rintro ⟨path, hs, hr⟩
  exact ⟨path, hs, (eq.tableAt_eq path hs).trans hr⟩

lemma SameTables.isTree (eq : SameTables ram o r)
    (t : IsTree (tableChild ram) r fun path => path.length ≤ 3) :
    IsTree (tableChild o) r fun path => path.length ≤ 3 := by
  intro fst snd tbl short1 sndShort at1 nextReached
  apply t fst snd tbl short1 sndShort
  · exact (eq.tableAt_eq fst short1).symm.trans at1
  · exact (eq.tableAt_eq snd sndShort).symm.trans nextReached

section Data

def AgreesOnTables (ram other : ByteMemory) (root : Nat) : Prop :=
  ∀ addr, IsTable ram root (addr / pageSize) → other addr = ram addr

section
variable (agrees : AgreesOnTables ram o r)
include agrees

lemma AgreesOnTables.entryAt_eq {tbl : Nat} (ht : IsTable ram r tbl) (index : Fin 512) :
    entryAt o (tbl * pageSize) index = entryAt ram (tbl * pageSize) index := by
  apply ByteMemory.readLE_congr
  intro off offLt
  apply agrees
  have pageEq : (tbl * pageSize + 8 * index + off) / pageSize = tbl := by
    have idxLt := index.isLt
    simp only [pageSize]
    omega
  rwa [pageEq]

lemma AgreesOnTables.sameTables : SameTables ram o r := by
  constructor
  intro path hs
  apply descend_congr
  intro pre i tbl isPrefix hr
  have beforeShort : pre.length ≤ 3 := by
    have := isPrefix.length_le
    simp only [length_append, length_singleton] at this
    omega
  rw [tableChild, agrees.entryAt_eq ⟨pre, beforeShort, hr⟩, tableChild]

lemma AgreesOnTables.pageLeaf_eq : pageLeaf o r = pageLeaf ram r := by
  ext1 p
  have tableEq := agrees.sameTables.tableAt_eq (pagePath p) (by simp [pagePath_length])
  rw [pageLeaf, pageLeaf, tableEq]
  cases hr : tableAt ram r (pagePath p) with
  | none => simp
  | some tbl =>
    have ht : IsTable ram r tbl := ⟨_, by simp [pagePath_length], hr⟩
    simp [agrees.entryAt_eq ht]

lemma AgreesOnTables.largeLeaf_eq : largeLeaf o r = largeLeaf ram r := by
  ext1 lp
  have tableEq := agrees.sameTables.tableAt_eq (largePath lp) (by simp [largePath_length])
  rw [largeLeaf, largeLeaf, tableEq]
  cases hr : tableAt ram r (largePath lp) with
  | none => simp
  | some tbl =>
    have ht : IsTable ram r tbl := ⟨_, by simp [largePath_length], hr⟩
    simp [agrees.entryAt_eq ht]

lemma AgreesOnTables.pageTree (t : PageTree ram r) : PageTree o r := by
  constructor
  · exact agrees.sameTables.isTree t.distinct
  intro path tbl i hs hr pres
  have pre := (agrees.sameTables.tableAt_eq path (by omega)).symm.trans hr
  have ht : IsTable ram r tbl := ⟨path, by omega, pre⟩
  rw [agrees.entryAt_eq ht] at pres ⊢
  exact t.upper path tbl i hs pre pres

end

end Data

section Write

variable {spot : List (Fin 512)} {tbl val : Nat} {s : Fin 512}

lemma tableAt_writeEntry_avoids (t : PageTree ram r) (hs : spot.length ≤ 3)
    (hr : tableAt ram r spot = some tbl) {path : List (Fin 512)}
    (pathShort : path.length ≤ 3) (avoids : ¬ spot ++ [s] <+: path) :
    tableAt (writeEntry ram tbl s val) r path = tableAt ram r path := by
  apply t.distinct.descend_of_avoids hs hr
  · intro pre n i _ _ ne
    exact tableChild_writeEntry_other ne
  · intro pre i isPrefix
    have := isPrefix.length_le
    simp only [length_append, length_singleton] at this
    omega
  · exact avoids

lemma sameTables_writeEntry (sameChild : tableChild (writeEntry ram tbl s val) tbl s =
    tableChild ram tbl s) : SameTables ram (writeEntry ram tbl s val) r := by
  constructor
  intro path _
  apply descend_congr
  intro pre i n _ _
  by_cases eq : (n, i) = (tbl, s)
  · obtain ⟨rfl, rfl⟩ := Prod.mk.inj eq
    exact sameChild
  · exact tableChild_writeEntry_other eq

lemma sameTables_writeEntry_lowest (t : PageTree ram r) (lowest : spot.length = 3)
    (hr : tableAt ram r spot = some tbl) : SameTables ram (writeEntry ram tbl s val) r := by
  constructor
  intro path pathShort
  apply tableAt_writeEntry_avoids t (by omega) hr pathShort
  intro isPrefix
  have := isPrefix.length_le
  simp only [length_append, length_singleton] at this
  omega

lemma PageTree.ne_of_length (t : PageTree ram r) {fst snd : List (Fin 512)}
    {table1 secondTable : Nat} (short1 : fst.length ≤ 3) (sndShort : snd.length ≤ 3)
    (ne : fst.length ≠ snd.length) (at1 : tableAt ram r fst = some table1)
    (nextReached : tableAt ram r snd = some secondTable) : table1 ≠ secondTable := by
  rintro rfl
  have pathEq := t.distinct fst snd _ short1 sndShort at1 nextReached
  exact ne (congrArg List.length pathEq)

variable {p lp : Nat}

section
variable (eq : SameTables ram (writeEntry ram tbl s val) r)
include eq

lemma pageLeaf_writeEntry_other (ne : ∀ lowest, tableAt ram r (pagePath p) = some lowest →
      (lowest, Fin.ofNat 512 p) ≠ (tbl, s)) :
    pageLeaf (writeEntry ram tbl s val) r p = pageLeaf ram r p := by
  rw [pageLeaf, pageLeaf, eq.tableAt_eq (pagePath p) (by simp [pagePath_length])]
  cases hr : tableAt ram r (pagePath p) with
  | none => simp only [bind_none]
  | some lowest => simp only [bind_some, entryAt_writeEntry_other (ne lowest hr)]

lemma largeLeaf_writeEntry_other (ne : ∀ dir, tableAt ram r (largePath lp) = some dir →
      (dir, Fin.ofNat 512 lp) ≠ (tbl, s)) :
    largeLeaf (writeEntry ram tbl s val) r lp = largeLeaf ram r lp := by
  rw [largeLeaf, largeLeaf, eq.tableAt_eq (largePath lp) (by simp [largePath_length])]
  cases hr : tableAt ram r (largePath lp) with
  | none => simp only [bind_none]
  | some dir => simp only [bind_some, entryAt_writeEntry_other (ne dir hr)]

end

section
variable (t : PageTree ram r)
include t

lemma pageTree_writeEntry (eq : SameTables ram (writeEntry ram tbl s val) r)
    (hb : val < 256 ^ 8) (hs : spot.length ≤ 3) (hr : tableAt ram r spot = some tbl)
    (hn : spot.length ≤ 1 → flagSet val pageHuge = false) :
    PageTree (writeEntry ram tbl s val) r := by
  constructor
  · exact eq.isTree t.distinct
  intro path n i pathShort nodeReached pres
  have pre := (eq.tableAt_eq path (by omega)).symm.trans nodeReached
  by_cases hw : (n, i) = (tbl, s)
  · obtain ⟨rfl, rfl⟩ := Prod.mk.inj hw
    have pathEq := t.distinct path spot n (by omega) hs pre hr
    subst pathEq
    rw [entryAt_writeEntry_same hb]
    exact hn pathShort
  rw [entryAt_writeEntry_other hw] at pres ⊢
  exact t.upper path n i pathShort pre pres

lemma writeLeaf_spec (hlt : p < 2 ^ 36)
    (hr : tableAt ram r (pagePath p) = some tbl) (hb : val < 256 ^ 8) :
    SameTables ram (writeEntry ram tbl (Fin.ofNat 512 p) val) r ∧
      PageTree (writeEntry ram tbl (Fin.ofNat 512 p) val) r ∧
      pageLeaf (writeEntry ram tbl (Fin.ofNat 512 p) val) r = update (pageLeaf ram r) p
          (if flagSet val pagePresent then some val else none) ∧
      largeLeaf (writeEntry ram tbl (Fin.ofNat 512 p) val) r = largeLeaf ram r := by
  have eq : SameTables ram (writeEntry ram tbl (Fin.ofNat 512 p) val) r :=
    sameTables_writeEntry_lowest t (pagePath_length p) hr
  refine ⟨eq, ?_, ?_, ?_⟩
  · apply pageTree_writeEntry t eq hb (by simp [pagePath_length]) hr
    simp [pagePath_length]
  · ext1 o
    by_cases samePage : o = p
    · subst samePage
      rw [update_self, pageLeaf, if_pos hlt,
        eq.tableAt_eq (pagePath o) (by simp [pagePath_length]), hr, bind_some,
        entryAt_writeEntry_same hb]
    rw [update_of_ne samePage]
    by_cases otherLt : o < 2 ^ 36
    · apply pageLeaf_writeEntry_other eq
      intro lowest lowestAt hw
      obtain ⟨rfl, slotEq⟩ := Prod.mk.inj hw
      have pathEq := t.distinct _ _ _ (by simp [pagePath_length]) (by simp [pagePath_length])
        lowestAt hr
      exact samePage (page_eq_of_path otherLt hlt pathEq slotEq)
    · rw [pageLeaf, if_neg otherLt, pageLeaf, if_neg otherLt]
  ext1 lp
  apply largeLeaf_writeEntry_other eq
  intro dir directoryReached hw
  have ne := t.ne_of_length (by simp [largePath_length]) (by simp [pagePath_length])
    (by simp [largePath_length, pagePath_length]) directoryReached hr
  exact ne (congrArg Prod.fst hw)

lemma writeLarge_spec (largeLt : lp < 2 ^ 27) (hr : tableAt ram r (largePath lp) = some tbl)
    (noTable : tableChild ram tbl (Fin.ofNat 512 lp) = none) (hb : val < 256 ^ 8)
    (pres : flagSet val pagePresent = true) (huge : flagSet val pageHuge = true) :
    SameTables ram (writeEntry ram tbl (Fin.ofNat 512 lp) val) r ∧
      PageTree (writeEntry ram tbl (Fin.ofNat 512 lp) val) r ∧
      pageLeaf (writeEntry ram tbl (Fin.ofNat 512 lp) val) r = pageLeaf ram r ∧
      largeLeaf (writeEntry ram tbl (Fin.ofNat 512 lp) val) r =
        update (largeLeaf ram r) lp (some val) := by
  have stillNone : tableChild (writeEntry ram tbl (Fin.ofNat 512 lp) val) tbl
    (Fin.ofNat 512 lp) = none := by
    rw [tableChild, entryAt_writeEntry_same hb]
    simp [huge]
  have eq : SameTables ram (writeEntry ram tbl (Fin.ofNat 512 lp) val) r :=
    sameTables_writeEntry (stillNone.trans noTable.symm)
  refine ⟨eq, ?_, ?_, ?_⟩
  · apply pageTree_writeEntry t eq hb (by simp [largePath_length]) hr
    simp [largePath_length]
  · ext1 p
    apply pageLeaf_writeEntry_other eq
    intro lowest lowestAt hw
    have ne := t.ne_of_length (by simp [pagePath_length]) (by simp [largePath_length])
      (by simp [largePath_length, pagePath_length]) lowestAt hr
    exact ne (congrArg Prod.fst hw)
  ext1 o
  by_cases samePage : o = lp
  · subst samePage
    rw [update_self, largeLeaf, if_pos largeLt,
      eq.tableAt_eq (largePath o) (by simp [largePath_length]), hr, bind_some,
      entryAt_writeEntry_same hb]
    simp [pres, huge]
  rw [update_of_ne samePage]
  by_cases otherLt : o < 2 ^ 27
  · apply largeLeaf_writeEntry_other eq
    intro dir directoryReached hw
    obtain ⟨rfl, slotEq⟩ := Prod.mk.inj hw
    have pathEq := t.distinct _ _ _ (by simp [largePath_length]) (by simp [largePath_length])
      directoryReached hr
    exact samePage (largePage_eq_of_path otherLt largeLt pathEq slotEq)
  · rw [largeLeaf, if_neg otherLt, largeLeaf, if_neg otherLt]

lemma writeFlags_spec (upper : spot.length ≤ 1) (hr : tableAt ram r spot = some tbl)
    (hb : val < 256 ^ 8) (sameChild : tableChild (writeEntry ram tbl s val) tbl s =
      tableChild ram tbl s) (hn : flagSet val pageHuge = false) :
    SameTables ram (writeEntry ram tbl s val) r ∧ PageTree (writeEntry ram tbl s val) r ∧
      pageLeaf (writeEntry ram tbl s val) r = pageLeaf ram r ∧
      largeLeaf (writeEntry ram tbl s val) r = largeLeaf ram r := by
  have eq : SameTables ram (writeEntry ram tbl s val) r := sameTables_writeEntry sameChild
  refine ⟨eq, ?_, ?_, ?_⟩
  · exact pageTree_writeEntry t eq hb (by omega) hr fun _ => hn
  · ext1 p
    apply pageLeaf_writeEntry_other eq
    intro lowest lowestAt hw
    have ne := t.ne_of_length (by simp [pagePath_length]) (by omega)
      (by simp only [pagePath_length]; omega) lowestAt hr
    exact ne (congrArg Prod.fst hw)
  ext1 lp
  apply largeLeaf_writeEntry_other eq
  intro dir directoryReached hw
  have ne := t.ne_of_length (by simp [largePath_length]) (by omega)
    (by simp only [largePath_length]; omega) directoryReached hr
  exact ne (congrArg Prod.fst hw)

end

end Write

end

open PointerTree List Option

variable {ram : ByteMemory} {r : Nat}

variable {spot : List (Fin 512)} {tbl val fresh : Nat} {s : Fin 512}

/-- A frame of zeros outside the tree, about to be linked from an empty
entry. -/
structure Linkable (ram : ByteMemory) (root : Nat) (spot : List (Fin 512)) (slot : Fin 512)
    (tbl fresh value : Nat) : Prop where
  inner : spot.length ≤ 2
  reached : tableAt ram root spot = some tbl
  empty : flagSet (entryAt ram (tbl * pageSize) slot) pagePresent = false
  outside : ¬ IsTable ram root fresh
  zero : ∀ index, entryAt ram (fresh * pageSize) index = 0
  bound : value < 256 ^ 8
  frame : frameNumber value = fresh
  present : flagSet value pagePresent = true
  notHuge : flagSet value pageHuge = false

variable (hl : Linkable ram r spot s tbl fresh val)
include hl

lemma Linkable.fresh_ne : fresh ≠ tbl := by
  rintro rfl
  exact hl.outside ⟨spot, by have := hl.inner; omega, hl.reached⟩

lemma Linkable.entryAt_fresh (i : Fin 512) :
    entryAt (writeEntry ram tbl s val) (fresh * pageSize) i = 0 := by
  have ne : (fresh, i) ≠ (tbl, s) := fun eq => hl.fresh_ne (congrArg Prod.fst eq)
  rw [entryAt_writeEntry_other ne]
  exact hl.zero i

lemma Linkable.child_before : tableChild ram tbl s = none := by simp [tableChild, hl.empty]

lemma Linkable.child_after : tableChild (writeEntry ram tbl s val) tbl s = some fresh := by
  rw [tableChild, entryAt_writeEntry_same hl.bound]
  simp [hl.present, hl.notHuge, hl.frame]

section
variable (t : PageTree ram r)
include t

lemma Linkable.tableAt_eq {path : List (Fin 512)} (pathShort : path.length ≤ 3) :
    tableAt (writeEntry ram tbl s val) r path =
      if path = spot ++ [s] then some fresh else tableAt ram r path := by
  have spotShort : spot.length ≤ 3 := by
    have := hl.inner
    omega
  have spotAfter : tableAt (writeEntry ram tbl s val) r spot = some tbl := by
    rw [tableAt_writeEntry_avoids t spotShort hl.reached spotShort, hl.reached]
    intro isPrefix
    have := isPrefix.length_le
    simp only [length_append, length_singleton] at this
    omega
  by_cases through : spot ++ [s] <+: path
  · obtain ⟨rest, rfl⟩ := through
    have atAfter : tableAt (writeEntry ram tbl s val) r (spot ++ [s]) = some fresh := by
      rw [tableAt_concat, spotAfter]
      exact hl.child_after
    have absentPre : tableAt ram r (spot ++ [s]) = none := by
      rw [tableAt_concat, hl.reached]
      exact hl.child_before
    cases rest with
    | nil =>
      rw [append_nil, if_pos rfl]
      exact atAfter
    | cons next rest =>
      have notEnd : spot ++ [s] ++ next :: rest ≠ spot ++ [s] := by simp
      have noChild : tableChild (writeEntry ram tbl s val) fresh next = none := by
        rw [tableChild, hl.entryAt_fresh next]
        simp [flagSet]
      rw [if_neg notEnd, tableAt_append _ _ (spot ++ [s]), tableAt_append _ _ (spot ++ [s]),
        atAfter, absentPre, bind_some, bind_none, tableAt, descend_cons,
        noChild, bind_none]
  have notEnd : path ≠ spot ++ [s] := by
    rintro rfl
    exact through prefix_rfl
  rw [if_neg notEnd]
  exact tableAt_writeEntry_avoids t spotShort hl.reached pathShort through

lemma Linkable.isTable_iff (o : Nat) :
    IsTable (writeEntry ram tbl s val) r o ↔ IsTable ram r o ∨ o = fresh := by
  constructor
  · rintro ⟨path, hs, hr⟩
    rw [hl.tableAt_eq t hs] at hr
    split at hr
    · exact .inr (Option.some.inj hr).symm
    · exact .inl ⟨path, hs, hr⟩
  rintro (⟨path, hs, hr⟩ | rfl)
  · refine ⟨path, hs, ?_⟩
    rw [hl.tableAt_eq t hs, if_neg, hr]
    rintro rfl
    rw [tableAt_concat, hl.reached, bind_some, hl.child_before] at hr
    simp at hr
  have endShort : (spot ++ [s]).length ≤ 3 := by
    have := hl.inner
    simp only [length_append, length_singleton]
    omega
  exact ⟨spot ++ [s], endShort, by rw [hl.tableAt_eq t endShort, if_pos rfl]⟩

lemma Linkable.pageTree : PageTree (writeEntry ram tbl s val) r := by
  have spotShort : spot.length ≤ 3 := by
    have := hl.inner
    omega
  constructor
  · intro fst snd n short1 sndShort at1 nextReached
    change tableAt _ r fst = some n at at1
    change tableAt _ r snd = some n at nextReached
    rw [hl.tableAt_eq t short1] at at1
    rw [hl.tableAt_eq t sndShort] at nextReached
    split at at1
    · rename_i firstEnd
      split at nextReached
      · rename_i secondEnd
        rw [firstEnd, secondEnd]
      obtain rfl := Option.some.inj at1
      exact absurd ⟨snd, sndShort, nextReached⟩ hl.outside
    split at nextReached
    · obtain rfl := Option.some.inj nextReached
      exact absurd ⟨fst, short1, at1⟩ hl.outside
    · exact t.distinct fst snd n short1 sndShort at1 nextReached
  intro path n i hs hr pres
  rw [hl.tableAt_eq t (by omega)] at hr
  split at hr
  · obtain rfl := Option.some.inj hr
    rw [hl.entryAt_fresh i] at pres
    simp [flagSet] at pres
  by_cases hw : (n, i) = (tbl, s)
  · obtain ⟨rfl, rfl⟩ := Prod.mk.inj hw
    rw [entryAt_writeEntry_same hl.bound]
    exact hl.notHuge
  rw [entryAt_writeEntry_other hw] at pres ⊢
  exact t.upper path n i hs hr pres

lemma Linkable.pageLeaf_eq : pageLeaf (writeEntry ram tbl s val) r = pageLeaf ram r := by
  ext1 p
  have inner := hl.inner
  rw [pageLeaf, pageLeaf, hl.tableAt_eq t (by simp [pagePath_length])]
  by_cases h : pagePath p = spot ++ [s]
  · have ha : tableAt ram r (pagePath p) = none := by
      rw [h, tableAt_concat, hl.reached, bind_some, hl.child_before]
    rw [if_pos h, ha, bind_some, bind_none, hl.entryAt_fresh]
    simp [flagSet]
  rw [if_neg h]
  cases hr : tableAt ram r (pagePath p) with
  | none => simp only [bind_none]
  | some lowest =>
    have ne : (lowest, Fin.ofNat 512 p) ≠ (tbl, s) := by
      intro hw
      have lengths := t.ne_of_length (by simp [pagePath_length]) (by omega)
        (by simp only [pagePath_length]; omega) hr hl.reached
      exact lengths (congrArg Prod.fst hw)
    simp only [bind_some, entryAt_writeEntry_other ne]

lemma Linkable.largeLeaf_eq : largeLeaf (writeEntry ram tbl s val) r = largeLeaf ram r := by
  ext1 lp
  rw [largeLeaf, largeLeaf, hl.tableAt_eq t (by simp [largePath_length])]
  by_cases h : largePath lp = spot ++ [s]
  · have ha : tableAt ram r (largePath lp) = none := by
      rw [h, tableAt_concat, hl.reached, bind_some, hl.child_before]
    rw [if_pos h, ha, bind_some, bind_none, hl.entryAt_fresh]
    simp [flagSet]
  rw [if_neg h]
  cases hr : tableAt ram r (largePath lp) with
  | none => simp
  | some dir =>
    by_cases hw : (dir, Fin.ofNat 512 lp) = (tbl, s)
    · obtain ⟨rfl, rfl⟩ := Prod.mk.inj hw
      simp only [bind_some, entryAt_writeEntry_same hl.bound, hl.empty,
        hl.notHuge, Bool.and_false, Bool.false_and, Bool.false_eq_true, if_false]
    · simp only [bind_some, entryAt_writeEntry_other hw]

end

end HnxKernel
