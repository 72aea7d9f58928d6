import Hnx.ByteMemory

/-!
# Packed records

Little-endian fields without padding; a format is the list of their widths.
-/

namespace HnxKernel

open List Nat ByteMemory

namespace ByteMemory

def ofBytes (bytes : List UInt8) : ByteMemory := fun idx => bytes.getD idx 0

def readFields (ram : ByteMemory) (addr : Nat) : List Nat → List Nat
  | [] => []
  | width :: widths => ram.readLE addr width :: readFields ram (addr + width) widths

variable {ram o : ByteMemory} {a shift : Nat}

lemma readLE_shift {width : Nat} (agree : ∀ i < width, ram (a + i) = o (shift + i)) :
    ram.readLE a width = o.readLE shift width := by
  induction width generalizing a shift with
  | zero => rfl
  | succ width ih =>
    have fst : ram a = o shift := by simpa using agree 0 (by omega)
    have rest : ram.readLE (a + 1) width = o.readLE (shift + 1) width := by
      apply ih
      intro i idxLt
      simpa [add_assoc, add_comm 1] using agree (i + 1) (by omega)
    rw [readLE, readLE, fst, rest]

lemma readFields_congr {widths : List Nat} (agree : ∀ i < widths.sum, ram (a + i) = o (shift + i)) :
    ram.readFields a widths = o.readFields shift widths := by
  induction widths generalizing a shift with
  | nil => rfl
  | cons width widths ih =>
    have head : ram.readLE a width = o.readLE shift width := by
      apply readLE_shift
      intro i idxLt
      exact agree i (by simp only [sum_cons]; omega)
    have tail : ram.readFields (a + width) widths = o.readFields (shift + width) widths := by
      apply ih
      intro i idxLt
      have later := agree (width + i) (by simp only [sum_cons]; omega)
      simpa only [add_assoc] using later
    rw [readFields, readFields, head, tail]

lemma readFields_append {fst second : List Nat} : ram.readFields a (fst ++ second) =
    ram.readFields a fst ++ ram.readFields (a + fst.sum) second := by
  induction fst generalizing a with
  | nil => rfl
  | cons _ _ ih => rw [cons_append, readFields, readFields, ih, sum_cons, add_assoc, cons_append]

lemma readFields_replicate {cnt width : Nat} : ram.readFields a (List.replicate cnt width) =
    (List.range cnt).map fun i => ram.readLE (a + i * width) width := by
  induction cnt generalizing a with
  | zero => rfl
  | succ _ ih =>
    rw [replicate_succ, readFields, ih, range_succ_eq_map, map_cons, map_map, zero_mul, add_zero]
    congr 2
    funext i
    rw [Function.comp_apply, succ_mul, add_assoc, add_comm width]

end ByteMemory

def leBytes : Nat → Nat → List UInt8
  | 0, _ => []
  | width + 1, val => UInt8.ofNat val :: leBytes width (val / 256)

def leValue : List UInt8 → Nat
  | [] => 0
  | byte :: bytes => byte.toNat + 256 * leValue bytes

/-- `struct.pack`; a value that does not fit its field is an error. -/
def structPack : List (Nat × Nat) → Option (List UInt8)
  | [] => some []
  | (width, val) :: fields =>
    if val < 256 ^ width then (leBytes width val ++ ·) <$> structPack fields else none

/-- `struct.unpack`; the bytes must have the length of the format. -/
def structUnpack : List Nat → List UInt8 → Option (List Nat)
  | [], [] => some []
  | [], _ :: _ => none
  | width :: widths, raw =>
    if raw.length < width then none
    else (leValue (raw.take width) :: ·) <$> structUnpack widths (raw.drop width)

variable {width val : Nat} {widths : List Nat} {fields : List (Nat × Nat)}
  {bytes raw : List UInt8}

@[simp]
lemma length_leBytes : (leBytes width val).length = width := by
  induction width generalizing val with
  | zero => rfl
  | succ _ ih => simp [leBytes, ih]

lemma leValue_leBytes (fits : val < 256 ^ width) : leValue (leBytes width val) = val := by
  induction width generalizing val with
  | zero => simpa [leBytes, leValue, eq_comm] using fits
  | succ width ih =>
    have rest : val / 256 < 256 ^ width := by
      rw [pow_succ] at fits
      omega
    have low : (UInt8.ofNat val).toNat = val % 256 := by simp
    rw [leBytes, leValue, ih rest, low]
    omega

lemma leValue_take (enough : width ≤ bytes.length) :
    leValue (bytes.take width) = (ofBytes bytes).readLE 0 width := by
  induction bytes generalizing width with
  | nil =>
    have none : width = 0 := by simpa using enough
    rw [none]
    rfl
  | cons byte bytes ih =>
    cases width with
    | zero => rfl
    | succ width =>
      have shifted : (ofBytes (byte :: bytes)).readLE (0 + 1) width =
        (ofBytes bytes).readLE 0 width := by
        apply readLE_shift
        intro i idxLt
        simp [ofBytes, add_comm]
      have head : ofBytes (byte :: bytes) 0 = byte := rfl
      rw [take_succ_cons, leValue, ih (by simpa using enough), readLE, shifted, head]

lemma structUnpack_eq_readFields (whole : raw.length = widths.sum) :
    structUnpack widths raw = some ((ofBytes raw).readFields 0 widths) := by
  induction widths generalizing raw with
  | nil =>
    rw [length_eq_zero_iff.mp whole]
    rfl
  | cons width widths ih =>
    rw [sum_cons] at whole
    have rest : (raw.drop width).length = widths.sum := by
      rw [length_drop]
      omega
    have moved : (ofBytes (raw.drop width)).readFields 0 widths =
      (ofBytes raw).readFields (0 + width) widths := by
      apply readFields_congr
      intro i idxLt
      simp [ofBytes, List.getD_eq_getElem?_getD, List.getElem?_drop]
    rw [structUnpack, if_neg (by omega), ih rest, moved, leValue_take (by omega)]
    rfl

section
variable (packed : structPack fields = some bytes)
include packed

lemma length_of_structPack : bytes.length = (fields.map Prod.fst).sum := by
  induction fields generalizing bytes with
  | nil =>
    obtain rfl : [] = bytes := by simpa [structPack] using packed
    rfl
  | cons _ _ ih =>
    simp only [structPack] at packed
    split at packed
    · obtain ⟨rest, restPacked, rfl⟩ := Option.map_eq_some_iff.mp packed
      simp [ih restPacked]
    · cases packed

lemma structUnpack_structPack :
    structUnpack (fields.map Prod.fst) bytes = some (fields.map Prod.snd) := by
  induction fields generalizing bytes with
  | nil =>
    obtain rfl : [] = bytes := by simpa [structPack] using packed
    rfl
  | cons field _ ih =>
    simp only [structPack] at packed
    split at packed
    case isTrue fits =>
      obtain ⟨rest, restPacked, rfl⟩ := Option.map_eq_some_iff.mp packed
      have longEnough : ¬ (leBytes field.1 field.2 ++ rest).length < field.1 := by simp
      have first : (leBytes field.1 field.2 ++ rest).take field.1 = leBytes field.1 field.2 :=
        take_left' length_leBytes
      have others : (leBytes field.1 field.2 ++ rest).drop field.1 = rest :=
        drop_left' length_leBytes
      simp [structUnpack, first, others, ih restPacked, leValue_leBytes fits]
    case isFalse => cases packed

lemma readFields_structPack :
    (ofBytes bytes).readFields 0 (fields.map Prod.fst) = fields.map Prod.snd := by
  have unpacked := structUnpack_structPack packed
  rw [structUnpack_eq_readFields (length_of_structPack packed)] at unpacked
  exact Option.some.inj unpacked

end

end HnxKernel
