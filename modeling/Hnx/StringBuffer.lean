import Hnx.Formatting

/-!
# String buffers

A `strbuf` keeps the beginning of what is appended to it, with a terminator behind it.
-/

namespace HnxKernel

open Function List

structure Strbuf where
  buf : Nat → Char
  (cap len : Nat)
  truncated : Bool

namespace Strbuf

def init (buf : Nat → Char) (cap : Nat) : Strbuf :=
  ⟨if 0 < cap then update buf 0 '\x00' else buf, cap, 0, false⟩

def reset (sb : Strbuf) : Strbuf :=
  { sb with
    buf := if 0 < sb.cap then update sb.buf 0 '\x00' else sb.buf
    len := 0
    truncated := false }

def putc (c : Char) (sb : Strbuf) : Strbuf :=
  if sb.len + 1 < sb.cap then
    { sb with
      buf := update (update sb.buf sb.len c) (sb.len + 1) '\x00'
      len := sb.len + 1 }
  else
    { sb with truncated := true }

def putn : List Char → Strbuf → Strbuf
  | [], sb => if 0 < sb.cap then { sb with buf := update sb.buf sb.len '\x00' } else sb
  | c :: s, sb =>
    if sb.cap ≤ sb.len + 1 then
      { sb with truncated := true }
    else
      putn s { sb with buf := update sb.buf sb.len c, len := sb.len + 1 }

def putU64 (v : Nat) : Strbuf → Strbuf := putn (kfmtU64 24 v 10 false)

def putI64 (v : Int64) (sb : Strbuf) : Strbuf :=
  if v.toInt < 0 then (sb.putc '-').putU64 ((-(v.toInt + 1)).toNat + 1) else sb.putU64 v.toInt.toNat

def putHex (v : UInt64) (sb : Strbuf) : Strbuf :=
  (sb.putn ['0', 'x']).putn (kfmtU64 20 v.toNat 16 false)

inductive Call
  | putc (c : Char)
  | putn (s : List Char)
  | puts (s : List Char)
  | putU64 (v : UInt64)
  | putI64 (v : Int64)
  | putHex (v : UInt64)
  | reset

/-- The string, and what was appended since it was empty. -/
def perform : Strbuf × List Char → Call → Strbuf × List Char
  | (sb, text), .putc c => (sb.putc c, text ++ [c])
  | (sb, text), .putn s => (sb.putn s, text ++ s)
  | (sb, text), .puts s => (sb.putn (s.takeWhile (· ≠ '\x00')), text ++ s.takeWhile (· ≠ '\x00'))
  | (sb, text), .putU64 v => (sb.putU64 v.toNat, text ++ kfmtU64 24 v.toNat 10 false)
  | (sb, text), .putI64 v =>
    (sb.putI64 v, text ++ if v.toInt < 0
      then '-' :: kfmtU64 24 ((-(v.toInt + 1)).toNat + 1) 10 false
      else kfmtU64 24 v.toInt.toNat 10 false)
  | (sb, text), .putHex v => (sb.putHex v, text ++ '0' :: 'x' :: kfmtU64 20 v.toNat 16 false)
  | (sb, _), .reset => (sb.reset, [])

/-- The string keeps what fits of a text. -/
structure Keeps (sb : Strbuf) (text : List Char) : Prop where
  pos : 0 < sb.cap
  len : sb.len = min text.length (sb.cap - 1)
  truncated : sb.truncated = decide (sb.cap ≤ text.length)
  stored : ∀ i < sb.len, text[i]? = some (sb.buf i)

structure Holds (sb : Strbuf) (text : List Char) : Prop extends Keeps sb text where
  ends : sb.truncated = false → sb.buf sb.len = '\x00'

variable {sb : Strbuf} {text : List Char}

namespace Keeps

lemma drops (keeps : sb.Keeps text) (noRoom : sb.cap ≤ sb.len + 1) {s : List Char} (ne : s ≠ []) :
    Holds { sb with truncated := true } (text ++ s) := by
  have := keeps.len
  have := length_pos_iff.mpr ne
  refine ⟨⟨keeps.pos, ?_, ?_, fun i lt => ?_⟩, by simp⟩
  · simp only [length_append]
    omega
  · simp only [length_append]
    exact (decide_eq_true (by omega)).symm
  · rw [getElem?_append_left (by dsimp at lt; omega)]
    exact keeps.stored i lt

lemma stores (keeps : sb.Keeps text) (room : sb.len + 1 < sb.cap) (c : Char) :
    Keeps { sb with buf := update sb.buf sb.len c, len := sb.len + 1 } (text ++ [c]) := by
  have len := keeps.len
  have all : sb.len = text.length := by omega
  refine ⟨keeps.pos, ?_, ?_, fun i lt => ?_⟩
  · simp only [length_append, length_singleton]
    omega
  · simp only [keeps.truncated, length_append, length_singleton]
    exact decide_eq_decide.mpr (by omega)
  rcases Nat.lt_succ_iff_lt_or_eq.mp lt with before | rfl
  · rw [getElem?_append_left (all ▸ before), keeps.stored i before]
    exact congrArg some (update_of_ne before.ne ..).symm
  · simp [all]

lemma ends (keeps : sb.Keeps text) : Holds { sb with buf := update sb.buf sb.len '\x00' } text := by
  refine ⟨⟨keeps.pos, keeps.len, keeps.truncated, fun i lt => ?_⟩, fun _ => update_self ..⟩
  exact (keeps.stored i lt).trans (congrArg some (update_of_ne (Nat.ne_of_lt lt) ..).symm)

lemma putc (keeps : sb.Keeps text) (c : Char) : (sb.putc c).Holds (text ++ [c]) := by
  rw [Strbuf.putc]
  split_ifs with room
  · exact (keeps.stores room c).ends
  · exact keeps.drops (by omega) (by simp)

lemma putn (keeps : sb.Keeps text) (s : List Char) : (sb.putn s).Holds (text ++ s) := by
  induction s generalizing sb text with
  | nil =>
    rw [Strbuf.putn, if_pos keeps.pos, append_nil]
    exact keeps.ends
  | cons c s ih =>
    rw [Strbuf.putn]
    split_ifs with noRoom
    · exact keeps.drops noRoom (by simp)
    · rw [append_cons]
      exact ih (keeps.stores (by omega) c)

end Keeps

lemma Holds.perform (holds : sb.Holds text) (call : Call) :
    (perform (sb, text) call).1.Holds (perform (sb, text) call).2 := by
  have keeps := holds.toKeeps
  cases call with
  | putc c => exact keeps.putc c
  | putn s => exact keeps.putn s
  | puts s => exact keeps.putn _
  | putU64 v => exact keeps.putn _
  | putI64 v =>
    simp only [Strbuf.perform, putI64]
    split_ifs
    · rw [append_cons]
      exact (keeps.putc '-').putn _
    · exact keeps.putn _
  | putHex v =>
    have all := (keeps.putn ['0', 'x']).putn (kfmtU64 20 v.toNat 16 false)
    rwa [append_assoc] at all
  | reset =>
    simp only [Strbuf.perform, reset, if_pos keeps.pos]
    exact ⟨⟨keeps.pos, by simp, by simp [keeps.pos.ne'], by simp⟩, by simp⟩

lemma holds_run (buf : Nat → Char) {cap : Nat} (pos : 0 < cap) (calls : List Call) :
    (calls.foldl perform (init buf cap, [])).1.Holds
      (calls.foldl perform (init buf cap, [])).2 := by
  induction calls using reverseRecOn with
  | nil =>
    rw [foldl_nil, init, if_pos pos]
    exact ⟨⟨pos, by simp, by simp [pos.ne'], by simp⟩, by simp⟩
  | append_singleton calls call ih =>
    rw [foldl_append]
    exact ih.perform call

/-- The terminator is there if the text fits with it. -/
theorem strbuf_run (buf : Nat → Char) {cap : Nat} (pos : 0 < cap) (calls : List Call) :
    let (sb, text) := calls.foldl perform (init buf cap, [])
    sb.len < sb.cap ∧ (∀ i < sb.len, text[i]? = some (sb.buf i)) ∧
      (sb.truncated = true ↔ sb.len < text.length) ∧
      (text.length < sb.cap → sb.buf sb.len = '\x00') := by
  have holds := holds_run buf pos calls
  have := holds.len
  have := holds.pos
  refine ⟨by omega, holds.stored, ?_, fun fits => holds.ends ?_⟩
  · rw [holds.truncated, decide_eq_true_iff]
    omega
  · rw [holds.truncated, decide_eq_false_iff_not]
    omega

def someCalls : List Call := [.putn ['a', 'b', 'c', 'd'], .reset, .putc 'n', .putU64 12]

theorem strbuf_run_someCalls :
    let (sb, text) := someCalls.foldl perform (init (fun _ => 'x') 4, [])
    text = ['n', '1', '2'] ∧ sb.len < sb.cap ∧ (∀ i < sb.len, text[i]? = some (sb.buf i)) ∧
      (sb.truncated = true ↔ sb.len < text.length) ∧
      (text.length < sb.cap → sb.buf sb.len = '\x00') :=
  ⟨by decide +kernel, strbuf_run (fun _ => 'x') (by decide : 0 < 4) someCalls⟩

/-- A block of two characters for which there is no room. -/
theorem strbuf_unterminated : ((init (fun _ => 'x') 2).putn ['a', 'b']).len = 1 ∧
    ((init (fun _ => 'x') 2).putn ['a', 'b']).buf 1 = 'x' := by
  decide

end Strbuf

end HnxKernel
