import Hnx.ByteMemory
import Mathlib.Data.UInt

/-!
# GPT partition entries

`gpt_parse` takes whole entries of a sector only, and goes on at the start of the next one.
-/

namespace HnxKernel

open List Nat

def rd32 (p : Nat → UInt8) (i : Nat) : Nat :=
  (p i).toNat ||| (p (i + 1)).toNat <<< 8 ||| (p (i + 2)).toNat <<< 16 |||
    (p (i + 3)).toNat <<< 24

def rd64 (p : Nat → UInt8) (i : Nat) : Nat := rd32 p i ||| rd32 p (i + 4) <<< 32

def guidIsZero (g : Nat → UInt8) : Bool := (List.range 16).all fun i => g i = 0

structure PartitionCall where
  index : Nat
  start : Nat
  length : Nat
  type : Nat
deriving DecidableEq

/-- An entry that is decoded: its number, and the pointer `e` by the sector and
the offset in it. -/
structure GptEntry where
  idx : Nat
  lba : Nat
  offset : Nat

/-- `block_read` of one sector; `none` is a failure. -/
abbrev SectorRead := Nat → Option (Nat → UInt8)

def entryCall (idx : Nat) (e : Nat → UInt8) : Option PartitionCall :=
  if guidIsZero e then
    none
  else if rd64 e 40 < rd64 e 32 then
    none
  else
    some ⟨idx + 1, rd64 e 32, u64 (rd64 e 40 - rd64 e 32 + 1), 0x83⟩

/-- The inner loop makes `passes` rounds. -/
def gptSectors (read : SectorRead) (entryLba numEntries entrySize : Nat) :
    Nat → Nat → Nat → List (GptEntry × Option PartitionCall)
  | 0, _, _ => []
  | fuel + 1, s, idx =>
    if idx < numEntries then
      match read (u64 (entryLba + s)) with
      | none => []
      | some sector =>
        let passes := min (512 / entrySize) (numEntries - idx)
        (List.range passes).map (fun k => (⟨idx + k, u64 (entryLba + s), k * entrySize⟩,
          entryCall (idx + k) fun byte => sector (k * entrySize + byte))) ++
          gptSectors read entryLba numEntries entrySize fuel (s + 1) (idx + passes)
    else []

def efiPart : List UInt8 := [69, 70, 73, 32, 80, 65, 82, 84]

def gptEntries (read : SectorRead) : Option (List (GptEntry × Option PartitionCall)) :=
  (read 1).bind fun hdr =>
    if (List.range 8).map hdr ≠ efiPart then
      none
    else if rd32 hdr 84 < 128 ∨ rd32 hdr 84 > 512 then
      none
    else
      let numEntries := if rd32 hdr 80 > 128 then 128 else rd32 hdr 80
      -- every pass of the outer loop decodes an entry
      some (gptSectors read (rd64 hdr 72) numEntries (rd32 hdr 84) numEntries 0 0)

/-- The decoded entries with their calls of `partition_register`, and the result. `registers`
are the results of these calls. -/
def gptParse (read : SectorRead) (registers : PartitionCall → Bool) :
    List (GptEntry × Option PartitionCall) × Int :=
  match gptEntries read with
  | none => ([], -1)
  | some entries => (entries, if (entries.filterMap Prod.snd).any registers then 0 else -1)

variable {read : SectorRead} {disk : Nat → UInt8} {entryLba numEntries entrySize : Nat}

def foundAt (entryLba entrySize i : Nat) : GptEntry :=
  ⟨i, u64 (entryLba + i / (512 / entrySize)), i % (512 / entrySize) * entrySize⟩

def GptEntry.position (entry : GptEntry) : Nat := 512 * entry.lba + entry.offset

def bytesFrom (disk : Nat → UInt8) (pos : Nat) : Nat → UInt8 := fun byte => disk (pos + byte)

lemma bytesFrom_add (disk : Nat → UInt8) (pos off : Nat) :
    (fun byte => bytesFrom disk pos (off + byte)) = bytesFrom disk (pos + off) := by
  funext byte
  rw [bytesFrom, bytesFrom, add_assoc]

def Reads (read : SectorRead) (disk : Nat → UInt8) : Prop :=
  ∀ lba, read lba = some (bytesFrom disk (512 * lba))

def decoded (disk : Nat → UInt8) (entry : GptEntry) : GptEntry × Option PartitionCall :=
  (entry, entryCall entry.idx (bytesFrom disk entry.position))

lemma gptSectors_eq (reads : Reads read disk) (perPos : 0 < 512 / entrySize) {fuel s idx : Nat}
    (start : idx < numEntries → idx = s * (512 / entrySize)) (enough : numEntries ≤ idx + fuel) :
    gptSectors read entryLba numEntries entrySize fuel s idx =
      (List.range' idx (numEntries - idx)).map fun i =>
        decoded disk (foundAt entryLba entrySize i) := by
  induction fuel generalizing s idx with
  | zero => rw [gptSectors, show numEntries - idx = 0 by omega, List.range'_zero, map_nil]
  | succ _ ih =>
    rw [gptSectors]
    split
    case isFalse past => rw [show numEntries - idx = 0 by omega, List.range'_zero, map_nil]
    case isTrue more =>
      set per := 512 / entrySize with perDef
      set passes := min per (numEntries - idx) with passesDef
      have idxEq := start more
      have next : idx + passes < numEntries → idx + passes = (s + 1) * per := by
        rw [succ_mul]
        omega
      have split : numEntries - idx = passes + (numEntries - (idx + passes)) := by omega
      rw [reads, split, ← List.range'_append_1, map_append]
      dsimp only
      rw [ih next (by omega)]
      congr 1
      rw [List.range'_eq_map_range, map_map]
      apply map_congr_left
      intro k mem
      have kLt : k < per := by
        have := mem_range.mp mem
        omega
      have quotient : (idx + k) / per = s := by
        rw [idxEq, add_comm, add_mul_div_right _ _ perPos, div_eq_of_lt kLt, zero_add]
      have remainder : (idx + k) % per = k := by
        rw [idxEq, add_comm, add_mul_mod_self_right, mod_eq_of_lt kLt]
      simp [decoded, foundAt, ← perDef, quotient, remainder, GptEntry.position, bytesFrom_add]

/-- The type GUID of the entry is not zero. -/
def Used (e : Nat → UInt8) : Prop := ¬ ∀ i < 16, e i = 0

instance (e : Nat → UInt8) : Decidable (Used e) := inferInstanceAs (Decidable (¬ _))

/-- The partition that the bytes `e` of entry `i` describe: the blocks from the first LBA to
the last. -/
def partitionOf (i : Nat) (e : Nat → UInt8) : Option PartitionCall :=
  if Used e ∧ rd64 e 32 ≤ rd64 e 40 then
    some ⟨i + 1, rd64 e 32, rd64 e 40 + 1 - rd64 e 32, 0x83⟩
  else
    none

/-- The partition has 2^64 blocks, one more than a length can say. -/
def WholeRange (e : Nat → UInt8) : Prop := Used e ∧ rd64 e 32 = 0 ∧ rd64 e 40 = 2 ^ 64 - 1

instance (e : Nat → UInt8) : Decidable (WholeRange e) := inferInstanceAs (Decidable (_ ∧ _))

/-- The table as a linear array: where each entry starts on the disk, and its partition. -/
def linearEntries (disk : Nat → UInt8) (entryLba numEntries entrySize : Nat) :
    List (Nat × Option PartitionCall) :=
  (List.range numEntries).map fun i => (512 * entryLba + i * entrySize,
    partitionOf i (bytesFrom disk (512 * entryLba + i * entrySize)))

lemma guidIsZero_iff (e : Nat → UInt8) : guidIsZero e = true ↔ ¬ Used e := by
  simp [guidIsZero, Used]

lemma position_eq_iff (sizeLe : entrySize ≤ 512) (sizePos : 0 < entrySize)
    (lbaLt : entryLba < 2 ^ 64) (few : numEntries ≤ 128) :
    (∀ i < numEntries, (foundAt entryLba entrySize i).position = 512 * entryLba + i * entrySize) ↔
      (entrySize ∣ 512 ∨ numEntries ≤ 512 / entrySize) ∧
        entryLba + (numEntries - 1) / (512 / entrySize) < 2 ^ 64 := by
  have perPos := div_pos sizeLe sizePos
  simp only [GptEntry.position, foundAt]
  set per := 512 / entrySize with perDef
  constructor
  · intro linear
    constructor
    · by_contra! crossing
      have pos := linear per crossing.2
      rw [Nat.div_self perPos, Nat.mod_self] at pos
      have whole : per * entrySize ≠ 512 := fun whole => crossing.1 (Dvd.intro_left per whole)
      have partly : per * entrySize ≤ 512 := Nat.div_mul_le_self 512 entrySize
      have positive : 0 < per * entrySize := Nat.mul_pos perPos sizePos
      simp only [u64] at pos
      omega
    by_contra wraps
    have last := linear (numEntries - 1) (by
      by_contra none
      rw [show numEntries - 1 = 0 by omega, Nat.zero_div] at wraps
      exact wraps lbaLt)
    have early : (numEntries - 1) / per ≤ numEntries - 1 := Nat.div_le_self _ _
    have off := Nat.mul_le_mul_right entrySize (Nat.mod_le (numEntries - 1) per)
    simp only [u64] at last
    omega
  rintro ⟨fits, unwrapped⟩ i iLt
  have sector : i / per ≤ (numEntries - 1) / per := Nat.div_le_div_right (by omega)
  rw [u64_of_lt (by omega), Nat.mul_add, Nat.add_assoc]
  congr 1
  rcases fits with whole | single
  · calc 512 * (i / per) + i % per * entrySize
        = (per * entrySize) * (i / per) + i % per * entrySize := by
          rw [perDef, Nat.div_mul_cancel whole]
      _ = (per * (i / per) + i % per) * entrySize := by rw [Nat.add_mul, Nat.mul_right_comm]
      _ = i * entrySize := by rw [Nat.div_add_mod]
  · rw [div_eq_of_lt (by omega), mod_eq_of_lt (by omega), mul_zero, zero_add]

lemma rd32_lt (p : Nat → UInt8) (i : Nat) : rd32 p i < 2 ^ 32 := by
  have shifted : ∀ (byte : UInt8) (places : Nat), places ≤ 24 →
    byte.toNat <<< places < 2 ^ 32 := fun byte places le =>
    lt_of_lt_of_le (Nat.shiftLeft_lt byte.toNat_lt) (Nat.pow_le_pow_right (by decide) (by omega))
  exact Nat.or_lt_two_pow (Nat.or_lt_two_pow (Nat.or_lt_two_pow (shifted _ 0 (by decide))
    (shifted _ 8 (by decide))) (shifted _ 16 (by decide))) (shifted _ 24 (by decide))

lemma rd64_lt (p : Nat → UInt8) (i : Nat) : rd64 p i < 2 ^ 64 :=
  or_lt_two_pow ((rd32_lt p i).trans (by decide))
    (shiftLeft_lt (rd32_lt p (i + 4)))

structure GptHeader (hdr : Nat → UInt8) (entryLba numEntries entrySize : Nat) : Prop where
  signature : (List.range 8).map hdr = efiPart
  lba : rd64 hdr 72 = entryLba
  count : min (rd32 hdr 80) 128 = numEntries
  size : rd32 hdr 84 = entrySize
  large : 128 ≤ entrySize
  small : entrySize ≤ 512

lemma gptEntries_eq (reads : Reads read disk)
    (header : GptHeader (bytesFrom disk 512) entryLba numEntries entrySize) :
    gptEntries read = some ((List.range numEntries).map fun i =>
      decoded disk (foundAt entryLba entrySize i)) := by
  obtain ⟨signature, rfl, rfl, rfl, large, small⟩ := header
  rw [gptEntries, show read 1 = some (bytesFrom disk 512) from reads 1, Option.bind_some,
    if_neg (not_not.mpr signature), if_neg (by omega)]
  have numEq : (if rd32 (bytesFrom disk 512) 80 > 128 then 128 else rd32 (bytesFrom disk 512) 80) =
    min (rd32 (bytesFrom disk 512) 80) 128 := by
    split <;> omega
  dsimp only
  rw [numEq, gptSectors_eq reads (Nat.div_pos small (by omega)) (by omega) (by omega),
    range_eq_range', Nat.sub_zero]

lemma entryCall_eq_iff (i : Nat) (e : Nat → UInt8) :
    entryCall i e = partitionOf i e ↔ ¬ WholeRange e := by
  by_cases used : Used e
  · have firstLt := rd64_lt e 32
    have lastLt := rd64_lt e 40
    rw [entryCall, if_neg (by rwa [guidIsZero_iff, not_not]), partitionOf, WholeRange]
    by_cases order : rd64 e 32 ≤ rd64 e 40
    · rw [if_neg (not_lt.mpr order), if_pos ⟨used, order⟩]
      simp only [Option.some_inj, PartitionCall.mk.injEq, true_and, and_true, used, u64]
      omega
    · rw [if_pos (not_le.mp order), if_neg (fun h => order h.2)]
      exact iff_of_true rfl (by omega)
  · rw [entryCall, if_pos ((guidIsZero_iff e).mpr used), partitionOf, if_neg (fun h => used h.1)]
    exact iff_of_true rfl (fun whole => used whole.1)

/-- The linear array, exactly if no entry crosses a sector, the last sector does not wrap and
no entry has all 2^64 blocks. -/
theorem gptParse_linear_iff (reads : Reads read disk)
    (header : GptHeader (bytesFrom disk 512) entryLba numEntries entrySize)
    (registers : PartitionCall → Bool) :
    (gptParse read registers).1.map (fun entry => (entry.1.position, entry.2)) =
        linearEntries disk entryLba numEntries entrySize ↔
      (entrySize ∣ 512 ∨ numEntries ≤ 512 / entrySize) ∧
        entryLba + (numEntries - 1) / (512 / entrySize) < 2 ^ 64 ∧
        ∀ i < numEntries, ¬ WholeRange (bytesFrom disk (512 * entryLba + i * entrySize)) := by
  have lbaLt : entryLba < 2 ^ 64 := header.lba ▸ rd64_lt _ _
  have few : numEntries ≤ 128 := header.count ▸ min_le_right _ _
  have large := header.large
  rw [← and_assoc, ← position_eq_iff header.small (by omega) lbaLt few, gptParse,
    gptEntries_eq reads header, linearEntries]
  dsimp only
  rw [map_map, map_inj_left]
  simp only [mem_range, Function.comp_apply, decoded, Prod.mk.injEq]
  rw [← forall₂_and]
  refine forall₂_congr fun i _ => and_congr_right fun position => ?_
  rw [position]
  exact entryCall_eq_iff i _

/-- Three entries, the first with the blocks 5 to 9. -/
def gptDisk (entrySize : UInt8) (pos : Nat) : UInt8 :=
  if pos < 520 then efiPart.getD (pos - 512) 0
  else if pos = 584 then 2
  else if pos = 592 then 3
  else if pos = 596 then entrySize
  else if pos = 1024 then 1
  else if pos = 1056 then 5
  else if pos = 1064 then 9
  else 0

theorem gptParse_linear_gptDisk :
    (gptParse (fun lba => some (bytesFrom (gptDisk 128) (512 * lba))) fun _ => true).1.map
        (fun entry => (entry.1.position, entry.2)) = linearEntries (gptDisk 128) 2 3 128 ∧
      linearEntries (gptDisk 128) 2 3 128 =
        [(1024, some ⟨1, 5, 5, 0x83⟩), (1152, none), (1280, none)] :=
  ⟨(gptParse_linear_iff (fun _ => rfl) ⟨by decide +kernel, by decide +kernel, by decide +kernel,
    by decide +kernel, by decide, by decide⟩ _).mpr (by decide +kernel), by decide +kernel⟩

/-- The third entry of 200 bytes is read from the second sector. -/
theorem gptParse_cross_sector :
    (gptParse (fun lba => some (bytesFrom (gptDisk 200) (512 * lba))) fun _ => true).1.map
        (fun entry => entry.1.position) = [1024, 1224, 1536] ∧
      (linearEntries (gptDisk 200) 2 3 200).map Prod.fst = [1024, 1224, 1424] := by
  decide +kernel

end HnxKernel
