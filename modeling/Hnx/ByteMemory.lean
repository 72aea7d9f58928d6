import Mathlib.Data.Nat.Bitwise
import Mathlib.Order.Interval.Finset.Nat
import Mathlib.Tactic.NormNum
import Mathlib.Tactic.Ring

/-!
# Machine words, bytes and bitmaps

Words are natural numbers: every operation that can leave the word range reduces its result
explicitly.  All updates of memory are instances of one, the overwriting of an interval, and bit
`index` of a bitmap is bit `index % 8` of its byte `index / 8`.
-/

namespace HnxKernel

section

open Nat

def u64 (val : Nat) : Nat := val % 2 ^ 64

def u32 (val : Nat) : Nat := val % 2 ^ 32

lemma u64_lt (val : Nat) : u64 val < 2 ^ 64 := mod_lt _ (by norm_num)

variable {val exponent : Nat}

lemma u64_of_lt (bound : val < 2 ^ 64) : u64 val = val := mod_eq_of_lt bound

lemma u32_lt (val : Nat) : u32 val < 2 ^ 32 := mod_lt _ (by norm_num)

lemma u32_of_lt (bound : val < 2 ^ 32) : u32 val = val := mod_eq_of_lt bound

def sub64 (fst snd : Nat) : Nat := u64 (fst + (2 ^ 64 - snd))

lemma sub64_of_le {fst second : Nat} (sorted : second ≤ fst) (bound : fst < 2 ^ 64) :
    sub64 fst second = fst - second := by
  simp only [sub64, u64]
  omega

/-- `value & ~(alignment - 1)` on 64-bit words. -/
def alignDown (val alignment : Nat) : Nat := val &&& (2 ^ 64 - alignment)

/-- `(value + (alignment - 1)) & ~(alignment - 1)` on 64-bit words. -/
def alignUp (val alignment : Nat) : Nat := alignDown (u64 (val + (alignment - 1))) alignment

lemma alignDown_two_pow (bound : val < 2 ^ 64) (expLe : exponent ≤ 64) :
    alignDown val (2 ^ exponent) = val / 2 ^ exponent * 2 ^ exponent := by
  have maskEq : 2 ^ 64 - 2 ^ exponent = 2 ^ 64 - ((2 ^ exponent - 1) + 1) := by
    have := Nat.two_pow_pos exponent
    omega
  have maskBound : 2 ^ exponent - 1 < 2 ^ 64 := by
    have := Nat.pow_le_pow_right (by norm_num : 0 < 2) expLe
    have := Nat.two_pow_pos exponent
    omega
  apply Nat.eq_of_testBit_eq
  intro pos
  rw [alignDown, maskEq, testBit_and, testBit_two_pow_sub_succ maskBound,
    testBit_two_pow_sub_one, testBit_mul_two_pow, testBit_div_two_pow]
  by_cases low : pos < exponent
  · simp [low]
  have posEq : pos - exponent + exponent = pos := by omega
  by_cases inside : pos < 64
  · have above : exponent ≤ pos := by omega
    simp [inside, above, posEq]
  have highBit : val.testBit pos = false :=
    Nat.testBit_lt_two_pow (lt_of_lt_of_le bound
      (Nat.pow_le_pow_right (by norm_num) (by omega)))
  simp [low, inside, posEq, highBit]

lemma alignUp_two_pow (expLe : exponent ≤ 64) (bound : val + (2 ^ exponent - 1) < 2 ^ 64) :
    alignUp val (2 ^ exponent) = (val + (2 ^ exponent - 1)) / 2 ^ exponent * 2 ^ exponent := by
  rw [alignUp, u64_of_lt bound, alignDown_two_pow bound expLe]

end

abbrev ByteMemory := Nat → UInt8

namespace ByteMemory

/-- Overwrite `length` bytes from `start` on by `source 0`, `source 1`, …. -/
def blit (ram : ByteMemory) (start len : Nat) (source : Nat → UInt8) :
    ByteMemory :=
  fun a =>
    if start ≤ a ∧ a < start + len then
      source (a - start)
    else
      ram a

def fill (ram : ByteMemory) (start len : Nat) (byte : UInt8) : ByteMemory :=
  ram.blit start len fun _ => byte

def copy (ram : ByteMemory) (target source len : Nat) : ByteMemory :=
  ram.blit target len fun i => ram (source + i)

def readLE (ram : ByteMemory) (addr : Nat) : Nat → Nat
  | 0 => 0
  | width + 1 => (ram addr).toNat + 256 * readLE ram (addr + 1) width

/-- Store the low `width` bytes of a number at an address, little-endian. -/
def writeLE (ram : ByteMemory) (addr width val : Nat) : ByteMemory :=
  ram.blit addr width fun i => UInt8.ofNat (val / 256 ^ i)

variable {ram o : ByteMemory} {start len a width val : Nat}

variable {source : Nat → UInt8} {i : Nat} {byte : UInt8}

lemma blit_inside (mem : i < len) : ram.blit start len source (start + i) = source i := by
  simp [blit, mem]

lemma blit_outside (out : a < start ∨ start + len ≤ a) : ram.blit start len source a = ram a := by
  have : ¬ (start ≤ a ∧ a < start + len) := by omega
  simp [blit, this]

lemma blit_zero (ram : ByteMemory) (start : Nat) (source : Nat → UInt8) :
    ram.blit start 0 source = ram := by
  funext a
  exact blit_outside (by omega)

lemma blit_append {first snd : Nat} {more : Nat → UInt8}
    (same : ∀ i < snd, more i = source (first + i)) :
    (ram.blit start first source).blit (start + first) snd more =
      ram.blit start (first + snd) source := by
  funext a
  simp only [blit]
  split_ifs with later both both both
  any_goals first | rfl | omega
  rw [same _ (by omega)]
  congr 1
  omega

lemma fill_inside (mem : i < len) : ram.fill start len byte (start + i) = byte :=
  blit_inside mem

lemma fill_outside (out : a < start ∨ start + len ≤ a) : ram.fill start len byte a = ram a :=
  blit_outside out

lemma writeLE_outside (out : a < start ∨ start + width ≤ a) :
    ram.writeLE start width val a = ram a :=
  blit_outside out

lemma readLE_congr (agree : ∀ i < width, ram (a + i) = o (a + i)) :
    ram.readLE a width = o.readLE a width := by
  induction width generalizing a with
  | zero => rfl
  | succ width ih =>
    have fst : ram a = o a := by simpa using agree 0 (by omega)
    have rest : ram.readLE (a + 1) width = o.readLE (a + 1) width := by
      apply ih
      intro i idxLt
      simpa [Nat.add_assoc, Nat.add_comm 1] using agree (i + 1) (by omega)
    simp only [readLE, fst, rest]

lemma readLE_lt : ram.readLE a width < 256 ^ width := by
  induction width generalizing a with
  | zero => simp [readLE]
  | succ width ih =>
    have tailLt : ram.readLE (a + 1) width < 256 ^ width := ih
    have headLt := (ram a).toNat_lt
    simp only [readLE, pow_succ]
    omega

/-- The base-256 digits of a number, reduced to the width of the field. -/
lemma readLE_of_digits (digits : ∀ i < width, ram (a + i) = UInt8.ofNat (val / 256 ^ i)) :
    ram.readLE a width = val % 256 ^ width := by
  induction width generalizing a val with
  | zero => simp [readLE, Nat.mod_one]
  | succ width ih =>
    have fst : ram a = UInt8.ofNat val := by simpa using digits 0 (by omega)
    have rest : ram.readLE (a + 1) width = val / 256 % 256 ^ width := by
      apply ih
      intro i idxLt
      have digit := digits (i + 1) (by omega)
      rw [pow_succ', ← Nat.div_div_eq_div_mul] at digit
      simpa [Nat.add_assoc, Nat.add_comm 1] using digit
    have byteEq : (UInt8.ofNat val).toNat = val % 256 := by simp
    rw [readLE, fst, rest, byteEq, pow_succ', Nat.mod_mul]

lemma readLE_writeLE_same (bound : val < 256 ^ width) :
    (ram.writeLE a width val).readLE a width = val := by
  have digits : ∀ i < width, ram.writeLE a width val (a + i) = UInt8.ofNat (val / 256 ^ i) :=
    fun _ idxLt => blit_inside idxLt
  rw [readLE_of_digits digits, Nat.mod_eq_of_lt bound]

lemma readLE_blit_outside (out : a + width ≤ start ∨ start + len ≤ a) :
    (ram.blit start len source).readLE a width = ram.readLE a width := by
  apply readLE_congr
  intro i idxLt
  exact blit_outside (by omega)

lemma readLE_writeLE_outside {field size : Nat} (out : a + width ≤ field ∨ field + size ≤ a) :
    (ram.writeLE field size val).readLE a width = ram.readLE a width :=
  readLE_blit_outside out

lemma readLE_eq_zero (zeros : ∀ i < width, ram (a + i) = 0) : ram.readLE a width = 0 := by
  have digits : ram.readLE a width = 0 % 256 ^ width := by
    apply readLE_of_digits
    intro i idxLt
    simpa using zeros i idxLt
  simpa using digits

end ByteMemory

open Function ByteMemory Nat

namespace Bitmap

/-- `(byte >> bit) & 1`. -/
def byteTest (byte : UInt8) (bit : Nat) : Bool := byte.toNat.testBit bit

/-- `byte | (1 << bit)`. -/
def byteSet (byte : UInt8) (bit : Nat) : UInt8 := UInt8.ofNat (byte.toNat ||| 1 <<< bit)

/-- `byte & ~(1 << bit)`. -/
def byteClear (byte : UInt8) (bit : Nat) : UInt8 := UInt8.ofNat (byte.toNat &&& (255 - 1 <<< bit))

variable {bit o a : Nat} {byte : UInt8}

lemma byteTest_ofNat {val : Nat} (bound : val < 2 ^ 8) :
    byteTest (UInt8.ofNat val) bit = val.testBit bit := by
  rw [byteTest, UInt8.toNat_ofNat', mod_eq_of_lt bound]

lemma byteTest_byteSet (bitLt : bit < 8) :
    byteTest (byteSet byte bit) o = (decide (bit = o) || byteTest byte o) := by
  have powerLt : 1 <<< bit < 2 ^ 8 := by
    rw [Nat.one_shiftLeft]
    exact Nat.pow_lt_pow_right (by norm_num) bitLt
  rw [byteSet, byteTest_ofNat (Nat.or_lt_two_pow byte.toNat_lt powerLt), Nat.testBit_or,
    Nat.one_shiftLeft, Nat.testBit_two_pow, Bool.or_comm, byteTest]

lemma byteTest_byteClear (bitLt : bit < 8) (otherLt : o < 8) :
    byteTest (byteClear byte bit) o = (!decide (bit = o) && byteTest byte o) := by
  have powerLt : 2 ^ bit < 2 ^ 8 := Nat.pow_lt_pow_right (by norm_num) bitLt
  have maskEq : 255 - 1 <<< bit = 2 ^ 8 - (2 ^ bit + 1) := by
    rw [Nat.one_shiftLeft]
    omega
  rw [byteClear, byteTest_ofNat (lt_of_le_of_lt and_le_left byte.toNat_lt), testBit_and,
    maskEq, testBit_two_pow_sub_succ powerLt, testBit_two_pow, byteTest]
  simp [otherLt, Bool.and_comm]

def bitTest (ram : ByteMemory) (base idx : Nat) : Bool := byteTest (ram (base + idx / 8)) (idx % 8)

def bitSet (ram : ByteMemory) (base idx : Nat) : ByteMemory :=
  ram.fill (base + idx / 8) 1 (byteSet (ram (base + idx / 8)) (idx % 8))

def bitClear (ram : ByteMemory) (base idx : Nat) : ByteMemory :=
  ram.fill (base + idx / 8) 1 (byteClear (ram (base + idx / 8)) (idx % 8))

variable {ram : ByteMemory} {base i : Nat}

lemma bitTest_fill_byte : bitTest (ram.fill (base + i / 8) 1 byte) base o =
    if o / 8 = i / 8 then byteTest byte (o % 8) else bitTest ram base o := by
  by_cases same : o / 8 = i / 8
  · rw [if_pos same, bitTest, same]
    congr 1
    exact fill_inside one_pos
  · rw [if_neg same, bitTest, fill_outside (by omega), bitTest]

lemma bitTest_bitSet : bitTest (bitSet ram base i) base = update (bitTest ram base) i true := by
  ext o
  rw [bitSet, bitTest_fill_byte]
  by_cases same : o = i
  · subst same
    simp [byteTest_byteSet (mod_lt _ _)]
  rw [update_of_ne same]
  split
  · rename_i sameByte
    rw [byteTest_byteSet (mod_lt _ (by norm_num)), bitTest, sameByte]
    have ne : i % 8 ≠ o % 8 := by omega
    simp [ne]
  · rfl

lemma bitTest_bitClear :
    bitTest (bitClear ram base i) base = update (bitTest ram base) i false := by
  ext o
  rw [bitClear, bitTest_fill_byte]
  by_cases same : o = i
  · subst same
    simp [byteTest_byteClear (mod_lt _ _) (mod_lt _ _)]
  rw [update_of_ne same]
  split
  · rename_i sameByte
    rw [byteTest_byteClear (mod_lt _ (by norm_num)) (mod_lt _ (by norm_num)), bitTest, sameByte]
    have ne : i % 8 ≠ o % 8 := by omega
    simp [ne]
  · rfl

lemma bitSet_outside (out : a ≠ base + i / 8) : bitSet ram base i a = ram a :=
  fill_outside (by omega)

lemma bitClear_outside (out : a ≠ base + i / 8) : bitClear ram base i a = ram a :=
  fill_outside (by omega)

def clearBits (bits : Nat → Bool) (bound : Nat) : Finset Nat :=
  (Finset.range bound).filter fun i => bits i = false

variable {bits : Nat → Bool} {bound : Nat}

@[simp]
lemma mem_clearBits : i ∈ clearBits bits bound ↔ i < bound ∧ bits i = false := by simp [clearBits]

lemma card_clearBits_le : (clearBits bits bound).card ≤ bound := by
  exact (Finset.card_filter_le _ _).trans_eq (Finset.card_range bound)

lemma card_clearBits_set (clear : i ∈ clearBits bits bound) :
    (clearBits (update bits i true) bound).card + 1 = (clearBits bits bound).card := by
  have erased : clearBits (update bits i true) bound = (clearBits bits bound).erase i := by
    ext o
    by_cases same : o = i
    · simp [same]
    · simp [same]
  rw [erased]
  exact Finset.card_erase_add_one clear

lemma card_clearBits_clear (idxLt : i < bound) (set : bits i = true) :
    (clearBits (update bits i false) bound).card = (clearBits bits bound).card + 1 := by
  have inserted : clearBits (update bits i false) bound = insert i (clearBits bits bound) := by
    ext o
    by_cases same : o = i
    · simp [same, idxLt]
    · simp [same]
  rw [inserted]
  apply Finset.card_insert_of_notMem
  simp [set]

end Bitmap

end HnxKernel
