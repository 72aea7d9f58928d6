import Hnx.ByteMemory

/-!
# Terminals

Submitted lines go to a buffer that is written from its start to its end once.
-/

namespace HnxKernel

open List

/-- The last three fields record what was typed since Enter, submitted and read. -/
structure Tty where
  input : List UInt8
  pos : Nat
  line : List UInt8
  (typed submitted returned : List UInt8)

namespace Tty

def ttyInit : Tty := ⟨[], 0, [], [], [], []⟩

def ttyPushInput (data : List UInt8) (tty : Tty) : Tty :=
  { tty with input := tty.input ++ data.take (4096 - tty.input.length) }

def ttyPushLine (line : List UInt8) (tty : Tty) : Tty :=
  { (tty.ttyPushInput line).ttyPushInput [10] with submitted := tty.submitted ++ (line ++ [10]) }

def ttyRead (size : Nat) (tty : Tty) : List UInt8 × Tty :=
  if tty.input.length ≤ tty.pos ∨ size = 0 then
    ([], tty)
  else
    let n := min size (tty.input.length - tty.pos)
    let data := (tty.input.drop tty.pos).take n
    (data, { tty with pos := tty.pos + n, returned := tty.returned ++ data })

def edited (typed : List UInt8) : List UInt8 :=
  typed.foldl (fun line c => if c = 8 ∨ c = 127 then line.dropLast
    else if line.length < 255 then line ++ [c] else line) []

def ttyInputChar (c : UInt8) (tty : Tty) : Tty :=
  if c = 10 ∨ c = 13 then
    { (tty.ttyPushInput tty.line).ttyPushInput [10] with
      line := [], typed := [], submitted := tty.submitted ++ (edited tty.typed ++ [10]) }
  else if c = 8 ∨ c = 127 then
    { tty with line := tty.line.dropLast, typed := tty.typed ++ [c] }
  else if tty.line.length < 255 then
    { tty with line := tty.line ++ [c], typed := tty.typed ++ [c] }
  else
    { tty with typed := tty.typed ++ [c] }

inductive Call
  | inputChar (c : UInt8)
  | pushLine (line : List UInt8)
  | read (size : Nat)

def perform (tty : Tty) : Call → Tty
  | .inputChar c => tty.ttyInputChar c
  | .pushLine line => tty.ttyPushLine line
  | .read size => (tty.ttyRead size).2

def Delivers (tty : Tty) : Prop :=
  tty.returned <+: tty.submitted ∧ ∃ size, tty.returned ++ (tty.ttyRead size).1 = tty.submitted

def unread (tty : Tty) : Nat := tty.submitted.length - tty.returned.length

/-- The buffer keeps the first 4096 bytes. -/
structure Kept (tty : Tty) : Prop where
  line : tty.line = edited tty.typed
  input : tty.input = tty.submitted.take 4096
  pos_le : tty.pos ≤ tty.input.length
  read : tty.returned = tty.input.take tty.pos

variable {tty : Tty}

lemma ttyRead_fst (size : Nat) : (tty.ttyRead size).1 = (tty.input.drop tty.pos).take size := by
  rw [ttyRead]
  split_ifs with none
  · rcases none with all | zero
    · simp [drop_of_length_le all]
    · simp [zero]
  · rw [take_eq_take_iff, length_drop]
    omega

lemma take_append_take (sent data : List UInt8) :
    sent.take 4096 ++ data.take (4096 - (sent.take 4096).length) = (sent ++ data).take 4096 := by
  rw [take_append, length_take]
  congr 2
  omega

/-- The line that is pushed may be the edited one. -/
lemma Kept.submit (kept : tty.Kept) (line : List UInt8) {text typed : List UInt8}
    (isLine : text = edited typed) : Kept { (tty.ttyPushInput line).ttyPushInput [10] with
      line := text, typed := typed, submitted := tty.submitted ++ (line ++ [10]) } := by
  have grown : ((tty.ttyPushInput line).ttyPushInput [10]).input = tty.input ++ _ := append_assoc ..
  refine ⟨isLine, ?_, ?_, ?_⟩
  · simp only [ttyPushInput, kept.input, take_append_take, append_assoc]
  · exact grown ▸ kept.pos_le.trans (by simp)
  · exact grown ▸ kept.read.trans (take_append_of_le_length kept.pos_le).symm

lemma Kept.perform (kept : tty.Kept) (call : Call) : (tty.perform call).Kept := by
  cases call with
  | inputChar =>
    rw [Tty.perform, ttyInputChar]
    have typedEq := kept.line
    -- Enter submits the line, every other character edits it
    split_ifs with enter back short
    · exact typedEq ▸ kept.submit tty.line rfl
    all_goals refine ⟨?_, kept.input, kept.pos_le, kept.read⟩
    all_goals rw [edited, foldl_append, ← edited, ← typedEq]
    · exact (if_pos back).symm
    · exact ((if_neg back).trans (if_pos short)).symm
    · exact ((if_neg back).trans (if_neg short)).symm
  | pushLine line => exact kept.submit line kept.line
  | read size =>
    rw [Tty.perform, ttyRead]
    split_ifs with none
    · exact kept
    refine ⟨kept.line, kept.input, ?_, ?_⟩
    · have := kept.pos_le
      show tty.pos + min size (tty.input.length - tty.pos) ≤ tty.input.length
      omega
    · exact (congrArg (· ++ _) kept.read).trans (take_add ..).symm

lemma kept_run (calls : List Call) : (calls.foldl perform ttyInit).Kept := by
  induction calls using reverseRecOn with
  | nil => exact ⟨rfl, rfl, le_rfl, rfl⟩
  | append_singleton _ call ih =>
    rw [foldl_append]
    exact ih.perform call

lemma Kept.delivers (kept : tty.Kept) : tty.Delivers ↔ tty.submitted.length ≤ 4096 := by
  simp only [Delivers, ttyRead_fst, kept.read, ← take_add]
  -- the bytes that were returned and those of the next read are stored ones
  have short : tty.input.length ≤ 4096 := by
    rw [kept.input, length_take]
    exact min_le_left ..
  constructor
  · rintro ⟨-, size, all⟩
    rw [← all, length_take]
    exact (min_le_right ..).trans short
  intro fits
  rw [kept.input, take_of_length_le fits]
  exact ⟨ take_prefix .., tty.submitted.length, take_of_length_le (by omega)⟩

/-- All that was submitted since the start counts, also what was read. -/
theorem delivers_iff (calls : List Call) : (calls.foldl perform ttyInit).Delivers ↔
    (calls.foldl perform ttyInit).submitted.length ≤ 4096 :=
  (kept_run calls).delivers

/-- A line that fills the buffer is read before another one is submitted. -/
def filledOnce : List Call := [.pushLine (replicate 4095 97), .read 4096, .pushLine []]

theorem not_delivers_filledOnce :
    (∀ n ≤ 3, ((filledOnce.take n).foldl perform ttyInit).unread ≤ 4096) ∧
      ¬ (filledOnce.foldl perform ttyInit).Delivers := by
  refine ⟨by decide +kernel, fun delivers => ?_⟩
  have short := (kept_run filledOnce).delivers.mp delivers
  revert short
  decide +kernel

end Tty

end HnxKernel
