import Hnx.HnxfsOperations
import Hnx.StateActions

/-!
# The driver on a device with failing transfers

A relation of states that single transfers keep is kept by every action of the driver.
-/

namespace HnxKernel

section

open Keeps

namespace Hnxfs

variable {rel : Hnxfs → Hnxfs → Prop} [IsPreorder Hnxfs rel]
  (reads : ∀ blk, Keeps rel (hnxfsReadBlock blk))
include reads

lemma keeps_readInode (n : Nat) : Keeps rel (hnxfsReadInode n) := by
  unfold hnxfsReadInode
  refine .bind get ?_
  intro fs
  refine .ite (pure _) ?_
  apply (reads _).bind
  rintro (_ | buf)
  · exact .pure _
  · exact .pure _

lemma keeps_findSlot {wanted : DiskBlock → Nat → Bool} {dir : Inode}
    (positions : List Nat) : Keeps rel (findSlot wanted dir positions) := by
  induction positions with
  | nil => exact .pure _
  | cons b r ih =>
    apply (reads _).bind
    rintro (_ | buf)
    · exact ih
    dsimp only
    split
    · exact .pure _
    · exact ih

lemma keeps_readDirectory (dir : Nat) : Keeps rel (readDirectory dir) := by
  apply (keeps_readInode reads _).bind
  rintro (_ | n)
  · exact .pure _
  · exact .pure _

lemma keeps_dirLookup (dir : Nat) (name : FileName) : Keeps rel (hnxfsDirLookup dir name) := by
  apply (keeps_readDirectory reads _).bind
  rintro (_ | n)
  · exact .pure _
  apply (keeps_findSlot reads _).bind
  rintro (_ | found)
  · exact .pure _
  · exact .pure _

lemma keeps_dirEmpty (dir : Nat) : Keeps rel (hnxfsDirEmpty dir) := by
  apply (keeps_readDirectory reads _).bind
  rintro (_ | n)
  · exact .pure _
  · exact (keeps_findSlot reads _).bind fun _ => pure _

lemma keeps_lookupFrom (k n : Nat) (path : FileName) : Keeps rel (lookupFrom k n path) := by
  induction k generalizing n path with
  | zero => exact .pure _
  | succ k ih =>
    rw [lookupFrom]
    refine .ite (pure _) ?_
    apply (keeps_dirLookup reads _ _).bind
    intro c
    refine .ite (pure _) ?_
    exact ih _ _

variable (writes : ∀ blk buf, Keeps rel (hnxfsWriteBlock blk buf))
include writes

lemma keeps_writeInode (n : Nat) (inode : Inode) : Keeps rel (hnxfsWriteInode n inode) := by
  unfold hnxfsWriteInode
  refine .bind get ?_
  intro fs
  refine .ite (pure _) ?_
  apply (reads _).bind
  rintro (_ | buf)
  · exact .pure _
  · exact (writes _ _).bind fun _ => pure _

lemma keeps_bitmapAlloc (blk lim fst : Nat) : Keeps rel (bitmapAlloc blk lim fst) := by
  apply (reads _).bind
  rintro (_ | buf)
  · exact .pure _
  dsimp only
  split
  · exact .pure _
  · exact (writes _ _).bind fun _ => pure _

lemma keeps_bitmapFree (blk i : Nat) : Keeps rel (bitmapFree blk i) := by
  apply (reads _).bind
  rintro (_ | buf)
  · exact .pure _
  · exact (writes _ _).bind fun _ => pure _

lemma keeps_allocInode : Keeps rel hnxfsAllocInode :=
  bind get fun _ => (keeps_bitmapAlloc reads writes _ _ _).bind fun _ => pure _

lemma keeps_freeInode (n : Nat) : Keeps rel (hnxfsFreeInode n) :=
  bind get fun _ => ite (keeps_bitmapFree reads writes _ _) (pure _)

lemma keeps_allocBlock : Keeps rel hnxfsAllocBlock := by
  unfold hnxfsAllocBlock
  refine .bind get ?_
  intro fs
  apply (keeps_bitmapAlloc reads writes _ _ _).bind
  rintro (_ | i)
  · exact .pure _
  · exact (writes _ _).bind fun _ => pure _

lemma keeps_freeBlock (blk : Nat) : Keeps rel (hnxfsFreeBlock blk) :=
  bind get fun _ => ite (pure _) (keeps_bitmapFree reads writes _ _)

lemma keeps_dirGrow (dir : Nat) (n : Inode) (name : FileName) (c : Nat) :
    Keeps rel (dirGrow dir n name c) := by
  refine .ite (pure _) ?_
  apply (keeps_allocBlock reads writes).bind
  intro blk
  refine .ite (pure _) ?_
  apply (keeps_writeInode reads writes _ _).bind
  intro res
  refine .ite (pure _) ?_
  exact (writes _ _).bind fun _ => pure _

lemma keeps_dirAdd (dir : Nat) (name : FileName) (c : Nat) :
    Keeps rel (hnxfsDirAdd dir name c) := by
  apply (keeps_readDirectory reads _).bind
  rintro (_ | n)
  · exact .pure _
  apply (keeps_findSlot reads _).bind
  rintro (_ | found)
  · exact keeps_dirGrow reads writes _ _ _ _
  · exact (writes _ _).bind fun _ => pure _

lemma keeps_dirRemove (dir : Nat) (name : FileName) : Keeps rel (hnxfsDirRemove dir name) := by
  apply (keeps_readDirectory reads _).bind
  rintro (_ | n)
  · exact .pure _
  apply (keeps_findSlot reads _).bind
  rintro (_ | found)
  · exact .pure _
  · exact (writes _ _).bind fun _ => pure _

lemma keeps_truncateLoop (positions : List Nat) (n : Inode) :
    Keeps rel (truncateLoop positions n) := by
  induction positions generalizing n with
  | nil => exact .pure _
  | cons b r ih =>
    refine .ite ?_ ?_
    · exact (keeps_freeBlock reads writes _).bind fun _ => ih _
    · exact ih _

lemma keeps_fileTruncate (n : Nat) : Keeps rel (hnxfsFileTruncate n) := by
  apply (keeps_readInode reads _).bind
  rintro (_ | inode)
  · exact .pure _
  exact (keeps_truncateLoop reads writes _ _).bind fun _ =>
    (keeps_writeInode reads writes _ _).bind fun _ => pure _

lemma keeps_vUnlink (dir : Nat) (name : FileName) : Keeps rel (vUnlink dir name) := by
  apply (keeps_dirLookup reads _ _).bind
  intro c
  refine .ite (pure _) ?_
  apply (keeps_readInode reads _).bind
  rintro (_ | n)
  · exact .pure _
  apply (ite (keeps_dirEmpty reads _) (pure _)).bind
  intro removable
  refine .ite (pure _) ?_
  exact (keeps_fileTruncate reads writes _).bind fun _ =>
    (keeps_freeInode reads writes _).bind fun _ => keeps_dirRemove reads writes _ _

lemma keeps_vCreate (dir : Nat) (name : FileName) (type : VnodeType) :
    Keeps rel (vCreate dir name type false) := by
  apply (keeps_dirLookup reads _ _).bind
  intro pres
  refine .ite (pure _) ?_
  apply (keeps_allocInode reads writes).bind
  intro c
  refine .ite (pure _) ?_
  apply (keeps_writeInode reads writes _ _).bind
  intro wrote
  refine .ite ((keeps_freeInode reads writes _).bind fun _ => pure _) ?_
  apply (keeps_dirAdd reads writes _ _ _).bind
  intro added
  refine .ite ((keeps_freeInode reads writes _).bind fun _ => pure _) ?_
  exact .pure _

end Hnxfs

end

open Function Bool
open HnxfsM Bitmap

namespace Hnxfs

variable {fs post : Hnxfs} {n i blk child dir : Nat} {inode : Inode}

structure SameDisk (before post : Hnxfs) : Prop where
  sb : post.sb = before.sb
  blocks : post.blocks = before.blocks

lemma SameDisk.refl (fs : Hnxfs) : fs.SameDisk fs := ⟨rfl, rfl⟩

lemma SameDisk.trans {fst snd third : Hnxfs} (left : fst.SameDisk snd)
    (right : snd.SameDisk third) : fst.SameDisk third :=
  ⟨right.sb.trans left.sb, right.blocks.trans left.blocks⟩

instance : IsPreorder Hnxfs SameDisk where
  refl := SameDisk.refl
  trans _ _ _ := SameDisk.trans

lemma SameDisk.image (same : fs.SameDisk post) : post.image = fs.image := by
  rw [Hnxfs.image, same.sb, same.blocks, Hnxfs.image]

def fails (fs : Hnxfs) : Bool := fs.faults.headD false

def spend (fs : Hnxfs) : Hnxfs := { fs with faults := fs.faults.tail }

lemma sameDisk_spend : fs.SameDisk fs.spend := ⟨rfl, rfl⟩

lemma readBlock_apply (blk : Nat) (fs : Hnxfs) :
    hnxfsReadBlock blk fs = (if fs.fails then none else some (fs.blocks blk), fs.spend) := by
  show ((if (!fs.fails) = true then _ else _ : HnxfsM _) fs.spend) = _
  cases fs.fails with
  | true => rfl
  | false => rfl

lemma writeBlock_apply (blk : Nat) (buf : DiskBlock) (fs : Hnxfs) : hnxfsWriteBlock blk buf fs =
    if fs.fails then (-1, fs.spend) else (0, fs.spend.putBlock blk buf) := by
  show ((if (!fs.fails) = true then _ else _ : HnxfsM _) fs.spend) = _
  cases fs.fails with
  | true => rfl
  | false => rfl

def SameSb (pre post : Hnxfs) : Prop := post.sb = pre.sb

instance : IsPreorder Hnxfs SameSb where
  refl _ := rfl
  trans _ _ _ left right := right.trans left

lemma sameSb_readBlock (blk : Nat) : Keeps SameSb (hnxfsReadBlock blk) := by
  intro fs
  rw [readBlock_apply]
  rfl

lemma sameSb_writeBlock (blk : Nat) (buf : DiskBlock) : Keeps SameSb (hnxfsWriteBlock blk buf) := by
  intro fs
  rw [writeBlock_apply]
  split
  · rfl
  · rfl

lemma sameDisk_readBlock (blk : Nat) : Keeps SameDisk (hnxfsReadBlock blk) := by
  intro fs
  rw [readBlock_apply]
  exact sameDisk_spend

lemma bitmapFree_apply (blk i : Nat) (fs : Hnxfs) : (bitmapFree blk i fs).2 =
    if fs.fails then fs.spend
    else if fs.spend.fails then fs.spend.spend
    else fs.spend.spend.putBlock blk (bitClear (fs.blocks blk) 0 i) := by
  simp only [bitmapFree, bind_apply, readBlock_apply]
  cases fs.fails with
  | true => rfl
  | false =>
    simp only [false_eq_true, if_false, bind_apply, writeBlock_apply]
    cases fs.spend.fails with
    | true => rfl
    | false => rfl

lemma writeInode_apply (pos : n ≠ 0) (numLt : n < fs.sb.inodeCount) : hnxfsWriteInode n inode fs =
    if fs.fails then (-sysEio, fs.spend)
    else if fs.spend.fails then (-sysEio, fs.spend.spend)
    else (0, fs.spend.spend.setInode n inode) := by
  have valid : ¬ (n = 0 ∨ n ≥ fs.sb.inodeCount) := by omega
  show (if n = 0 ∨ n ≥ fs.sb.inodeCount then _ else _ : HnxfsM _) fs = _
  simp only [if_neg valid, bind_apply, readBlock_apply]
  cases fs.fails with
  | true => rfl
  | false =>
    simp only [false_eq_true, if_false, bind_apply, writeBlock_apply]
    cases fs.spend.fails with
    | true => rfl
    | false => rfl

lemma readInode_apply (pos : n ≠ 0) (numLt : n < fs.sb.inodeCount) :
    hnxfsReadInode n fs = (if fs.fails then none else some (fs.image.inode n), fs.spend) := by
  have valid : ¬ (n = 0 ∨ n ≥ fs.sb.inodeCount) := by omega
  show (if n = 0 ∨ n ≥ fs.sb.inodeCount then _ else _ : HnxfsM _) fs = _
  simp only [if_neg valid, bind_apply, readBlock_apply]
  cases fs.fails with
  | true => rfl
  | false => simp [pure_apply, image_inode numLt]

def firstRead (wanted : Nat → Option Nat) :
    List Bool → List Nat → Option (Nat × Nat) × List Bool
  | faults, [] => (none, faults)
  | faults, b :: rest =>
    if faults.headD false then firstRead wanted faults.tail rest
    else
      match wanted b with
      | some slot => (some (b, slot), faults.tail)
      | none => firstRead wanted faults.tail rest

lemma firstRead_some {wanted : Nat → Option Nat} {faults : List Bool} {positions : List Nat}
    {b slot : Nat} (found : (firstRead wanted faults positions).1 = some (b, slot)) :
    b ∈ positions ∧ wanted b = some slot := by
  induction positions generalizing faults with
  | nil => cases found
  | cons c _ ih =>
    rw [firstRead] at found
    by_cases failed : faults.headD false = true
    · rw [if_pos failed] at found
      exact ⟨List.mem_cons_of_mem c (ih found).1, (ih found).2⟩
    rw [if_neg failed] at found
    cases hit : wanted c with
    | some =>
      rw [hit] at found
      cases found
      exact ⟨List.mem_cons_self, hit⟩
    | none =>
      rw [hit] at found
      exact ⟨List.mem_cons_of_mem c (ih found).1, (ih found).2⟩

def slotOf (blocks : Nat → DiskBlock) (wanted : DiskBlock → Nat → Bool) (dir : Inode) (b : Nat) :
    Option Nat :=
  (List.range 32).find? (wanted (blocks (dir.direct b)))

lemma findSlot_apply {wanted : DiskBlock → Nat → Bool} {dir : Inode} (positions : List Nat)
    (fs : Hnxfs) : findSlot wanted dir positions fs =
      ((firstRead (slotOf fs.blocks wanted dir) fs.faults positions).1.map
          (fun place => (place.1, place.2, fs.blocks (dir.direct place.1))),
        { fs with faults := (firstRead (slotOf fs.blocks wanted dir) fs.faults positions).2 }) := by
  induction positions generalizing fs with
  | nil => rfl
  | cons b _ ih =>
    have next := ih fs.spend
    simp only [findSlot, bind_apply, readBlock_apply, firstRead]
    by_cases failed : fs.faults.headD false = true
    · have failsEq : fs.fails = true := failed
      simp only [failsEq, if_true, if_pos failed]
      exact next
    have failsEq : fs.fails = false := by
      rw [fails]
      exact eq_false_of_not_eq_true failed
    simp only [failsEq, false_eq_true, if_false, if_neg failed]
    cases hit : slotOf fs.blocks wanted dir b with
    | some =>
      rw [slotOf] at hit
      simp only [hit, pure_apply]
      rfl
    | none =>
      rw [slotOf] at hit
      simp only [hit]
      exact next

structure Loses (g h : Image) (child : Nat) : Prop where
  inodeUsed : h.inodeUsed = g.inodeUsed
  data : h.data = g.data
  others : ∀ n, n ≠ child → h.inode n = g.inode n
  self : h.inode child = g.inode child ∨ (h.inode child).blocks = 0

lemma Loses.refl (g : Image) (child : Nat) : Loses g g child :=
  ⟨rfl, rfl, fun _ _ => rfl, .inl rfl⟩

lemma Loses.trans {fst snd third : Image} (left : Loses fst snd child)
    (right : Loses snd third child) : Loses fst third child where
  inodeUsed := right.inodeUsed.trans left.inodeUsed
  data := right.data.trans left.data
  others n ne := (right.others n ne).trans (left.others n ne)
  self := by
    rcases right.self with same | none
    · rw [same]
      exact left.self
    · exact .inr none

structure Emptying (child : Nat) (before post : Hnxfs) : Prop where
  sb : post.sb = before.sb
  loses : before.sb.Layout → Loses before.image post.image child

instance : IsPreorder Hnxfs (Emptying child) where
  refl fs := ⟨rfl, fun _ => Loses.refl _ _⟩
  trans fst snd third left right := by
    refine ⟨right.sb.trans left.sb, ?_⟩
    intro layout
    apply (left.loses layout).trans (right.loses _)
    rw [left.sb]
    exact layout

lemma SameDisk.emptying (same : fs.SameDisk post) : Emptying child fs post := by
  refine ⟨same.sb, fun _ => ?_⟩
  rw [same.image]
  exact Loses.refl _ _

lemma emptying_unmarkBlock : Emptying child fs (fs.unmarkBlock i) := by
  refine ⟨rfl, fun layout => ?_⟩
  rw [image_unmarkBlock layout]
  exact ⟨rfl, rfl, fun _ _ => rfl, .inl rfl⟩

lemma emptying_freeBlock (blk : Nat) : Keeps (Emptying child) (hnxfsFreeBlock blk) := by
  intro fs
  show Emptying child fs ((if blk < fs.sb.dataBlockStart then _ else _ : HnxfsM Unit) fs).2
  have spent : fs.SameDisk fs.spend.spend := sameDisk_spend.trans sameDisk_spend
  split
  · exact (SameDisk.refl fs).emptying
  rw [bitmapFree_apply]
  split
  · exact sameDisk_spend.emptying
  split
  · exact spent.emptying
  · exact trans_of (Emptying child) spent.emptying emptying_unmarkBlock

lemma emptying_truncateLoop (positions : List Nat) (inode : Inode) :
    Keeps (Emptying child) (truncateLoop positions inode) := by
  induction positions generalizing inode with
  | nil => exact .pure _
  | cons _ _ ih =>
    rw [truncateLoop]
    refine .ite ?_ (ih _)
    exact (emptying_freeBlock _).bind fun _ => ih _

lemma truncateLoop_fits (fits : inode.Fits) (positions : List Nat) (fs : Hnxfs) :
    (truncateLoop positions inode fs).1.Fits := by
  induction positions generalizing inode fs with
  | nil => exact fits
  | cons b _ ih =>
    rw [truncateLoop]
    split
    · apply ih
      refine ⟨fits.type_lt, fits.mode_lt, fits.size_lt, fits.blocks_lt, ?_, ?_, fits.mtime_lt⟩
      · intro c
        by_cases same : c = b
        · subst same
          simp only [update_self]
          exact Nat.pow_pos (by decide)
        simp only [update_of_ne same]
        exact fits.direct_lt c
      intro c beyond
      by_cases same : c = b
      · subst same
        simp
      simp only [update_of_ne same]
      exact fits.direct_beyond c beyond
    · exact ih fits fs

lemma emptying_setInode (childLt : child < fs.sb.inodeCount) (fits : inode.Fits)
    (empty : inode.blocks = 0) : Emptying child fs (fs.setInode child inode) := by
  refine ⟨rfl, fun layout => ?_⟩
  rw [image_setInode layout childLt fits]
  refine ⟨rfl, rfl, fun n ne => update_of_ne ne _ _, .inr ?_⟩
  simp only [update_self]
  exact empty

lemma emptying_fileTruncate (pos : child ≠ 0) (childLt : child < fs.sb.inodeCount) :
    Emptying child fs (hnxfsFileTruncate child fs).2 := by
  simp only [hnxfsFileTruncate, bind_apply, readInode_apply pos childLt]
  cases fs.fails with
  | true => exact sameDisk_spend.emptying
  | false =>
    simp only [false_eq_true, if_false, bind_apply, pure_apply]
    set inode := fs.image.inode child
    have loop := @emptying_truncateLoop child inode.dirBlocks inode fs.spend
    have fits := @truncateLoop_fits inode image_inode_fits inode.dirBlocks fs.spend
    set looped := truncateLoop inode.dirBlocks inode fs.spend
    have loopedLt : child < looped.2.sb.inodeCount := by
      rw [loop.sb]
      exact childLt
    have start : Emptying child fs looped.2 :=
      trans_of (Emptying child) sameDisk_spend.emptying loop
    refine trans_of (Emptying child) start ?_
    have spent : looped.2.SameDisk looped.2.spend.spend := sameDisk_spend.trans sameDisk_spend
    rw [writeInode_apply pos loopedLt]
    split
    · exact sameDisk_spend.emptying
    split
    · exact spent.emptying
    refine trans_of (Emptying child) spent.emptying (emptying_setInode loopedLt ?_ rfl)
    exact ⟨fits.type_lt, fits.mode_lt, Nat.pow_pos (by decide), Nat.pow_pos (by decide),
      fits.direct_lt, fits.direct_beyond, fits.mtime_lt⟩

end Hnxfs

end HnxKernel
