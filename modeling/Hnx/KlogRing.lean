import Mathlib.Data.List.Induction

/-!
# The log ring

A full ring drops its oldest byte for each new one.
-/

namespace HnxKernel

open Function List

structure Ringbuf where
  data : Nat → UInt8
  (capacity head tail count : Nat)

/-- The second part says whether a byte was dropped. -/
def ringbufForcePutc (r : Ringbuf) (c : UInt8) : Ringbuf × Bool :=
  let full := decide (r.count = r.capacity)
  let r := if full then { r with tail := (r.tail + 1) % r.capacity, count := r.count - 1 } else r
  ({ r with
    data := update r.data r.head c
    head := (r.head + 1) % r.capacity
    count := r.count + 1 }, full)

structure KlogRing where
  ring : Ringbuf
  (total dropped : Nat)
  inited : Bool

namespace KlogRing

def klogRingInit (data : Nat → UInt8) : KlogRing := ⟨⟨data, 65536, 0, 0, 0⟩, 0, 0, true⟩

def put (k : KlogRing) (c : UInt8) : KlogRing :=
  let (ring, dropped) := ringbufForcePutc k.ring c
  { k with ring, total := k.total + 1, dropped := k.dropped + dropped.toNat }

def klogRingWriteN (s : List UInt8) (k : KlogRing) : KlogRing :=
  s.foldl put (if k.inited then k else klogRingInit k.ring.data)

def klogRingWrite (s : List UInt8) : KlogRing → KlogRing := klogRingWriteN (s.takeWhile (· ≠ 0))

def klogRingUsed (k : KlogRing) : Nat := if k.inited then k.ring.count else 0

/-- What is copied to `out`. -/
def klogRingSnapshot (max : Nat) (k : KlogRing) : List UInt8 :=
  if k.inited then
    let skip := if max < k.ring.count then k.ring.count - max else 0
    ((range k.ring.count).foldl (fun (idx, out) i =>
      ((idx + 1) % k.ring.capacity, if i < skip then out
        else if out.length < max then out ++ [k.ring.data idx] else out)) (k.ring.tail, [])).2
  else []

inductive Call
  | writeN (s : List UInt8)
  | write (s : List UInt8)

def Call.bytes : Call → List UInt8
  | .writeN s => s
  | .write s => s.takeWhile (· ≠ 0)

def perform (k : KlogRing) : Call → KlogRing
  | .writeN s => k.klogRingWriteN s
  | .write s => k.klogRingWrite s

/-- The ring holds the end of what was written. -/
structure Holds (k : KlogRing) (written : List UInt8) : Prop where
  inited : k.inited = true
  capacity : k.ring.capacity = 65536
  head : k.ring.head = written.length % 65536
  count : k.ring.count = min written.length 65536
  tail : k.ring.tail = (written.length - k.ring.count) % 65536
  data : ∀ i, written.length - k.ring.count ≤ i → i < written.length →
    written[i]? = some (k.ring.data (i % 65536))
  total : k.total = written.length
  dropped : k.dropped = written.length - k.ring.count

variable {k : KlogRing} {written : List UInt8}

lemma Holds.put (holds : k.Holds written) (c : UInt8) : (k.put c).Holds (written ++ [c]) := by
  have stays (n count : Nat) (h : count = min n 65536) (full : count = 65536) :
      count = min (n + 1) 65536 := by omega
  have grows (n count : Nat) (h : count = min n 65536) (room : count ≠ 65536) :
      count + 1 = min (n + 1) 65536 := by omega
  obtain ⟨inited, capacity, head, count, tail, data, total, dropped⟩ := holds
  have stored (n i : Nat) (le : written.length + 1 - n ≤ i) (lt : i < written.length + 1)
      (small : n ≤ 65536) (old : n ≤ k.ring.count + 1) :
      (written ++ [c])[i]? = some (update k.ring.data k.ring.head c (i % 65536)) := by
    rcases Nat.lt_succ_iff_lt_or_eq.mp lt with before | rfl
    · rw [getElem?_append_left before, update_of_ne (by omega)]
      exact data i (by omega) before
    · simp [head]
  have length : (written ++ [c]).length = written.length + 1 := length_append
  simp only [KlogRing.put, ringbufForcePutc, capacity]
  by_cases full : k.ring.count = 65536
  · rw [decide_eq_true full, if_pos rfl]
    have kept : k.ring.count - 1 + 1 = k.ring.count := by omega
    refine ⟨inited, rfl, ?_, ?_, ?_, fun i le lt => ?_, ?_, ?_⟩ <;>
      simp only [length, kept, Bool.toNat_true] at *
    · rw [head, Nat.mod_add_mod]
    · exact stays _ _ count full
    · omega
    · exact stored k.ring.count i le lt (by omega) (by omega)
    · omega
    · omega
  rw [decide_eq_false full, if_neg Bool.false_ne_true]
  refine ⟨inited, capacity, ?_, ?_, ?_, fun i le lt => ?_, ?_, ?_⟩ <;>
    simp only [length, capacity, Bool.toNat_false] at *
  · rw [head, Nat.mod_add_mod]
  · exact grows _ _ count full
  · omega
  · exact stored (k.ring.count + 1) i le lt (by omega) (Nat.le_refl _)
  · omega
  · omega

lemma Holds.writeN (holds : k.Holds written) (s : List UInt8) :
    (k.klogRingWriteN s).Holds (written ++ s) := by
  rw [klogRingWriteN, if_pos holds.inited]
  induction s generalizing k written with
  | nil => rwa [append_nil]
  | cons c s ih =>
    rw [append_cons]
    exact ih (holds.put c)

lemma holds_run (data : Nat → UInt8) (calls : List Call) :
    (calls.foldl perform (klogRingInit data)).Holds (calls.flatMap Call.bytes) := by
  induction calls using reverseRecOn with
  | nil => exact ⟨rfl, rfl, rfl, rfl, rfl, by simp, rfl, rfl⟩
  | append_singleton calls call ih =>
    rw [foldl_append, flatMap_append, flatMap_singleton]
    cases call with
    | writeN s => exact ih.writeN s
    | write s => exact ih.writeN _

/-- After `n` turns of the loop the bytes behind the skipped ones are copied. -/
lemma Holds.snapshot (holds : k.Holds written) (max : Nat) :
    k.klogRingSnapshot max = written.drop (written.length - min k.ring.count max) := by
  have count := holds.count
  have tail := holds.tail
  rw [klogRingSnapshot, if_pos holds.inited]
  simp only [holds.capacity]
  generalize isSkip : (if max < k.ring.count then k.ring.count - max else 0) = skip
  have skipped : skip = k.ring.count - max := by
    rw [← isSkip]
    split_ifs <;> omega
  have turns (n : Nat) (le : n ≤ k.ring.count) : (range n).foldl (fun (x : Nat × List UInt8) i =>
      ((x.1 + 1) % 65536, if i < skip then x.2
        else if x.2.length < max then x.2 ++ [k.ring.data x.1] else x.2)) (k.ring.tail, []) =
      ((written.length - k.ring.count + n) % 65536,
        ((written.drop (written.length - k.ring.count)).take n).drop skip) := by
    induction n with
    | zero => simp [tail]
    | succ n ih =>
      rw [range_succ, foldl_append, ih (by omega)]
      have byte := holds.data (written.length - k.ring.count + n) (by omega) (by omega)
      rw [foldl_cons, foldl_nil, Nat.mod_add_mod, Nat.add_assoc, Prod.mk.injEq]
      refine ⟨rfl, ?_⟩
      rw [take_add_one, getElem?_drop, byte, Option.toList_some]
      split_ifs with early room
      · rw [drop_of_length_le (by simp; omega), drop_of_length_le (by simp; omega)]
      · rw [drop_append_of_le_length (by simp; omega)]
      · simp at room
        omega
  rw [turns _ (Nat.le_refl _)]
  rw [take_of_length_le (by simp; omega), drop_drop, skipped]
  exact congrArg (written.drop ·) (by omega)

/-- The ring holds the end of what was written, and a snapshot the end of that. -/
theorem klogRing_run (data : Nat → UInt8) (calls : List Call) :
    let k := calls.foldl perform (klogRingInit data)
    let written := calls.flatMap Call.bytes
    k.klogRingUsed = min written.length 65536 ∧ k.total = written.length ∧
      k.dropped = k.total - k.klogRingUsed ∧ ∀ max,
      k.klogRingSnapshot max = written.drop (written.length - min k.klogRingUsed max) := by
  have holds := holds_run data calls
  simp only [klogRingUsed, if_pos holds.inited]
  exact ⟨holds.count, holds.total, holds.total ▸ holds.dropped, holds.snapshot⟩

end KlogRing

end HnxKernel
