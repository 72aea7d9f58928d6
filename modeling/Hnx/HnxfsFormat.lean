import Hnx.Hnxfs

/-!
# The on-disk records of HNXFS

Storing a record of 128 bytes reads back as that record and leaves every other slot alone.
-/

namespace HnxKernel

open ByteMemory List

structure Inode.Fits (inode : Inode) : Prop where
  type_lt : inode.type < 256 ^ 4
  mode_lt : inode.mode < 256 ^ 4
  size_lt : inode.size < 256 ^ 8
  blocks_lt : inode.blocks < 256 ^ 8
  direct_lt : ∀ b, inode.direct b < 256 ^ 8
  direct_beyond : ∀ b, 12 ≤ b → inode.direct b = 0
  mtime_lt : inode.mtime < 256 ^ 8

variable {block o : DiskBlock} {i s pos : Nat} {inode : Inode}

lemma inodeAt_fits : (inodeAt block i).Fits where
  type_lt := readLE_lt
  mode_lt := readLE_lt
  size_lt := readLE_lt
  blocks_lt := readLE_lt
  direct_lt b := by
    simp only [inodeAt]
    split
    · exact readLE_lt
    · positivity
  direct_beyond b beyond := if_neg (by omega)
  mtime_lt := readLE_lt

lemma newInode_fits (type : VnodeType) : (newInode type).Fits where
  type_lt := by
    simp only [newInode]
    split <;> norm_num
  mode_lt := by norm_num [newInode]
  size_lt := by norm_num [newInode]
  blocks_lt := by norm_num [newInode]
  direct_lt b := by norm_num [newInode]
  direct_beyond b beyond := rfl
  mtime_lt := by norm_num [newInode]

private lemma readLE_putInode (off : Nat) {width value : Nat} (mem : off + width ≤ 128)
    (digits : ∀ k < width, inodeBytes inode (off + k) = UInt8.ofNat (value / 256 ^ k))
    (bound : value < 256 ^ width) :
    (putInode block i inode).readLE (i * 128 + off) width = value := by
  have stored : ∀ k < width, putInode block i inode (i * 128 + off + k) =
    UInt8.ofNat (value / 256 ^ k) := by
    intro k kLt
    rw [putInode, Nat.add_assoc, blit_inside (by omega)]
    exact digits k kLt
  rw [readLE_of_digits stored, Nat.mod_eq_of_lt bound]

lemma Inode.ext_of {first second : Inode} (type : first.type = second.type)
    (mode : first.mode = second.mode) (size : first.size = second.size)
    (blocks : first.blocks = second.blocks) (direct : first.direct = second.direct)
    (mtime : first.mtime = second.mtime) : first = second := by
  cases first
  cases second
  simp_all

lemma inodeAt_putInode_same (fits : inode.Fits) : inodeAt (putInode block i inode) i = inode := by
  apply Inode.ext_of
  · apply readLE_putInode 0 (by norm_num) _ fits.type_lt
    intro k kLt
    simp [inodeBytes, kLt]
  · apply readLE_putInode 4 (by norm_num) _ fits.mode_lt
    intro k kLt
    rw [inodeBytes, if_neg (by omega), if_pos (by omega), Nat.add_sub_cancel_left]
  · apply readLE_putInode 8 (by norm_num) _ fits.size_lt
    intro k kLt
    rw [inodeBytes, if_neg (by omega), if_neg (by omega), if_pos (by omega),
      Nat.add_sub_cancel_left]
  · apply readLE_putInode 16 (by norm_num) _ fits.blocks_lt
    intro k kLt
    rw [inodeBytes, if_neg (by omega), if_neg (by omega), if_neg (by omega), if_pos (by omega),
      Nat.add_sub_cancel_left]
  · funext b
    by_cases mem : b < 12
    · simp only [inodeAt, if_pos mem]
      apply readLE_putInode (24 + 8 * b) (by omega) _ (fits.direct_lt b)
      intro k kLt
      have quotient : (24 + 8 * b + k - 24) / 8 = b := by omega
      have remainder : (24 + 8 * b + k - 24) % 8 = k := by omega
      rw [inodeBytes, if_neg (by omega), if_neg (by omega), if_neg (by omega),
        if_neg (by omega), if_pos (by omega), quotient, remainder]
    simp only [inodeAt, if_neg mem]
    exact (fits.direct_beyond b (by omega)).symm
  apply readLE_putInode 120 (by norm_num) _ fits.mtime_lt
  intro k kLt
  rw [inodeBytes, if_neg (by omega), if_neg (by omega), if_neg (by omega), if_neg (by omega),
    if_neg (by omega), Nat.add_sub_cancel_left]

lemma inodeAt_congr (agree : ∀ k < 128, block (i * 128 + k) = o (i * 128 + k)) :
    inodeAt block i = inodeAt o i := by
  have field : ∀ off {width : Nat}, off + width ≤ 128 →
    block.readLE (i * 128 + off) width = o.readLE (i * 128 + off) width := by
    intro off width mem
    apply readLE_congr
    intro k kLt
    rw [Nat.add_assoc]
    exact agree _ (by omega)
  apply Inode.ext_of
  · exact field 0 (by norm_num)
  · exact field 4 (by norm_num)
  · exact field 8 (by norm_num)
  · exact field 16 (by norm_num)
  · funext b
    simp only [inodeAt]
    split
    · exact field (24 + 8 * b) (by omega)
    · rfl
  · exact field 120 (by norm_num)

lemma inodeAt_putInode_of_ne (ne : pos ≠ i) :
    inodeAt (putInode block i inode) pos = inodeAt block pos := by
  apply inodeAt_congr
  intro k kLt
  exact blit_outside (by omega)

def storedName (block : DiskBlock) (slot : Nat) : FileName :=
  ((List.range 120).map (direntName block slot)).takeWhile (· ≠ 0)

lemma strncmpEq_iff {count : Nat} {chars : Nat → UInt8} {name : FileName}
    (ne0 : (0 : UInt8) ∉ name) : strncmpEq count chars (cString name) = true ↔
      ((List.range count).map chars).takeWhile (· ≠ 0) = name.take count := by
  induction count generalizing chars name with
  | zero => simp [strncmpEq]
  | succ _ ih =>
    rw [strncmpEq, range_succ_eq_map, map_cons, map_map, takeWhile_cons]
    cases name with
    | nil =>
      by_cases fst : chars 0 = 0
      · simp [cString, fst]
      · simp [cString, fst]
    | cons letter rest =>
      have letterNe : letter ≠ 0 := fun zero => ne0 (by simp [zero])
      have restNe0 : (0 : UInt8) ∉ rest := fun mem => ne0 (by simp [mem])
      have restEq : (fun i => cString (letter :: rest) (i + 1)) = cString rest := by
        funext i
        simp [cString]
      by_cases same : chars 0 = letter
      · have ne1 : chars 0 ≠ 0 := same ▸ letterNe
        have tailEq := @ih (fun i => chars (i + 1)) rest restNe0
        simp only [restEq]
        rw [if_neg (by simp [cString, same]), if_neg ne1, tailEq]
        simp [same, letterNe, Function.comp_def]
      rw [if_pos (by simpa [cString] using same)]
      by_cases fst : chars 0 = 0
      · simp [fst]
      · simp [fst, same]

lemma nameEq_iff {name : FileName} (ne0 : (0 : UInt8) ∉ name) :
    nameEq block s name = true ↔ storedName block s = name.take 120 :=
  strncmpEq_iff ne0

def FileName.Dots (name : FileName) : Prop := name = [46] ∨ name = [46, 46]

instance (name : FileName) : Decidable name.Dots := inferInstanceAs (Decidable (_ ∨ _))

lemma isDot_iff : isDot (direntName block s) = true ↔ (storedName block s).Dots := by
  have split : storedName block s =
    (direntName block s 0 :: direntName block s 1 :: direntName block s 2 ::
      (List.range' 3 117).map (direntName block s)).takeWhile (· ≠ 0) := rfl
  rw [split, FileName.Dots, isDot]
  generalize direntName block s 0 = first
  generalize direntName block s 1 = snd
  generalize direntName block s 2 = third
  by_cases firstZero : first = 0
  · simp [firstZero]
  by_cases secondZero : snd = 0
  · simp [firstZero, secondZero]
  by_cases thirdZero : third = 0
  · simp [firstZero, secondZero, thirdZero]
  · simp [firstZero, secondZero, thirdZero]

lemma FileName.dots_take {name : FileName} {cnt : Nat} (long : 3 ≤ cnt) :
    FileName.Dots (name.take cnt) ↔ name.Dots := by
  match name, cnt, long with
  | [], _, _ => simp
  | [_], cnt + 3, _ => simp
  | [_, _], cnt + 3, _ => simp
  | _ :: _ :: _ :: _, cnt + 3, _ => simp [FileName.Dots]

section
variable (agree : ∀ k < 128, block (s * 128 + k) = o (s * 128 + k))
include agree

lemma direntName_congr : ∀ k < 120, direntName block s k = direntName o s k := by
  intro k kLt
  rw [direntName, direntName, Nat.add_assoc]
  exact agree _ (by omega)

lemma direntInode_congr : direntInode block s = direntInode o s :=
  readLE_congr fun k kLt => agree k (by omega)

lemma storedName_congr : storedName block s = storedName o s := by
  have mapEq : (List.range 120).map (direntName block s) =
    (List.range 120).map (direntName o s) := by
    apply map_congr_left
    intro k mem
    exact direntName_congr agree k (mem_range.mp mem)
  rw [storedName, mapEq, storedName]

end

lemma putDirent_outside {c : Nat} {name : FileName} {k : Nat} (ne : pos ≠ s) (kLt : k < 128) :
    putDirent block s c name (pos * 128 + k) = block (pos * 128 + k) := by
  rw [putDirent, strlcpy, blit_outside (by omega), writeLE_outside (by omega)]

lemma clearDirent_outside {k : Nat} (ne : pos ≠ s) (kLt : k < 128) :
    clearDirent block s (pos * 128 + k) = block (pos * 128 + k) := by
  rw [clearDirent, fill_outside (by omega), writeLE_outside (by omega)]

lemma direntInode_putDirent {child : Nat} {name : FileName} (bound : child < 256 ^ 8) :
    direntInode (putDirent block s child name) s = child := by
  rw [direntInode, putDirent, strlcpy, readLE_blit_outside (by omega), readLE_writeLE_same bound]

lemma direntInode_clearDirent : direntInode (clearDirent block s) s = 0 := by
  rw [direntInode, clearDirent, fill, readLE_blit_outside (by omega),
    readLE_writeLE_same (by norm_num)]

lemma storedName_putDirent {c : Nat} {name : FileName} (ne0 : (0 : UInt8) ∉ name) :
    storedName (putDirent block s c name) s = name.take 119 := by
  have kept : (0 : UInt8) ∉ name.take 119 := fun mem => ne0 (mem_of_mem_take mem)
  have lengthEq : (name.take 119).length = min name.length 119 := by simp [Nat.min_comm]
  have stored : ∀ k < min name.length 119 + 1,
    direntName (putDirent block s c name) s k = cString (name.take 119) k := by
    intro k kLt
    rw [direntName, putDirent, strlcpy, blit_inside kLt]
  have mapSplit : (List.range 120).map (direntName (putDirent block s c name) s) =
    name.take 119 ++ 0 :: ((List.range' (min name.length 119 + 1)
        (120 - (min name.length 119 + 1))).map
          (direntName (putDirent block s c name) s)) := by
    apply ext_getElem
    · simp
      omega
    intro k leftLt rightLt
    rw [getElem_map, getElem_range]
    by_cases copied : k < (name.take 119).length
    · rw [getElem_append_left copied, stored k (by omega), cString, getD_eq_getElem _ _ copied]
    rw [getElem_append_right (by omega)]
    by_cases last : k = min name.length 119
    · have zeroIndex : k - (name.take 119).length = 0 := by omega
      rw [stored k (by omega), cString, getD_eq_default _ _ (by omega)]
      simp only [zeroIndex, getElem_cons_zero]
    rw [getElem_cons, dif_neg (by omega), getElem_map, getElem_range']
    congr 1
    omega
  rw [storedName, mapSplit, takeWhile_append_of_pos]
  · simp
  intro letter mem
  have : letter ≠ 0 := fun zero => kept (zero ▸ mem)
  simpa using this

end HnxKernel
