import Hnx.ByteMemory

/-!
# The heap of a program

`malloc` moves a cursor through the mapped memory; the size of a block stands before it.
-/

namespace HnxKernel

open ByteMemory

/-- `USER_HEAP_BASE`, and the end of the mapped memory behind it. -/
def mallocBase : Nat := 0x4000000000

def mallocEnd : Nat := mallocBase + 0x100000

/-- `blocks` are the pointers that were returned, with their sizes. -/
structure UserHeap where
  ram : ByteMemory
  cursor : Nat
  blocks : List (Nat × Nat)

namespace UserHeap

def malloc (size : Nat) (h : UserHeap) : Option Nat × UserHeap :=
  let hdr := alignUp h.cursor 16
  let start := u64 (hdr + 16)
  let stop := u64 (start + size)
  if size = 0 ∨ mallocEnd < stop then
    (none, h)
  else
    (some start, ⟨h.ram.writeLE hdr 8 size, stop, (start, size) :: h.blocks⟩)

def calloc (count size : Nat) (h : UserHeap) : Option Nat × UserHeap :=
  let total := u64 (count * size)
  match h.malloc total with
  | (none, h) => (none, h)
  | (some p, h) => (some p, { h with ram := h.ram.fill p total 0 })

def realloc (ptr size : Nat) (h : UserHeap) : Option Nat × UserHeap :=
  if ptr = 0 then
    h.malloc size
  else if size = 0 then
    (none, h)
  else
    let old := h.ram.readLE (ptr - 16) 8
    match h.malloc size with
    | (none, h) => (none, h)
    | (some p, h) => (some p, { h with ram := h.ram.copy p ptr (if old < size then old else size) })

/-- Programs write to their blocks as well. -/
inductive Call
  | malloc (size : Nat)
  | calloc (count size : Nat)
  | realloc (ptr size : Nat)
  | write (a : Nat) (byte : UInt8)

def perform (h : UserHeap) : Call → Option Nat × UserHeap
  | .malloc size => h.malloc size
  | .calloc count size => h.calloc count size
  | .realloc ptr size => h.realloc ptr size
  | .write a byte => (none, { h with ram := h.ram.fill a 1 byte })

def Call.size : Call → Nat
  | .malloc size | .realloc _ size => size
  | .calloc count size => count * size
  | .write .. => 0

/-- No request comes near the size of the address space; pointers are those of blocks. -/
def Careful (h : UserHeap) (call : Call) : Prop :=
  call.size < 2 ^ 63 ∧ match call with
    | .realloc ptr _ => ptr = 0 ∨ ∃ size, (ptr, size) ∈ h.blocks
    | .write a _ => ∃ b ∈ h.blocks, b.1 ≤ a ∧ a < b.1 + b.2
    | _ => True

inductive Reachable : UserHeap → Prop
  | init ram : Reachable ⟨ram, mallocBase, []⟩
  | call {h c} : Reachable h → Careful h c → Reachable (h.perform c).2

def Filled (h after : UserHeap) (p : Nat) : Call → Prop
  | .calloc count size => ∀ i < count * size, after.ram (p + i) = 0
  | .realloc ptr size =>
    ∀ old, (ptr, old) ∈ h.blocks → ∀ i < min old size, after.ram (p + i) = h.ram (ptr + i)
  | _ => True

/-- A block lies in the heap, behind its header and all earlier blocks. -/
def Serves (h : UserHeap) (c : Call) : Prop :=
  ∀ p, (h.perform c).1 = some p → 16 ∣ p ∧ mallocBase ≤ p ∧ p + c.size ≤ mallocEnd ∧
    (∀ b ∈ h.blocks, b.1 + b.2 + 16 ≤ p) ∧ Filled h (h.perform c).2 p c

structure Sound (h : UserHeap) : Prop where
  low : mallocBase ≤ h.cursor
  high : h.cursor ≤ mallocEnd
  inside : ∀ b ∈ h.blocks, mallocBase + 16 ≤ b.1 ∧ b.1 + b.2 ≤ h.cursor
  header : ∀ b ∈ h.blocks, h.ram.readLE (b.1 - 16) 8 = b.2
  apart : ∀ b ∈ h.blocks, ∀ b' ∈ h.blocks, b.1 < b'.1 → b.1 + b.2 + 16 ≤ b'.1

variable {h : UserHeap}

/-- Bytes of a block may change. -/
lemma Sound.blit (sound : h.Sound) {b : Nat × Nat} (mem : b ∈ h.blocks) {a len : Nat}
    {source : Nat → UInt8} (low : b.1 ≤ a) (high : a + len ≤ b.1 + b.2) :
    Sound { h with ram := h.ram.blit a len source } := by
  refine { sound with header := fun b' mem' => ?_ }
  have := sound.inside b mem
  have := sound.inside b' mem'
  have := sound.apart b mem b' mem'
  rw [readLE_blit_outside (by omega)]
  exact sound.header b' mem'

lemma Sound.malloc (sound : h.Sound) {size : Nat} (small : size < 2 ^ 63) :
    h.malloc size = (none, h) ∨ ∃ p, 16 ∣ p ∧ h.cursor + 16 ≤ p ∧ p + size ≤ mallocEnd ∧
      h.malloc size = (some p, ⟨h.ram.writeLE (p - 16) 8 size, p + size, (p, size) :: h.blocks⟩) ∧
      Sound ⟨h.ram.writeLE (p - 16) 8 size, p + size, (p, size) :: h.blocks⟩ := by
  have low := sound.low
  have high := sound.high
  have base : mallocBase = 0x4000000000 := rfl
  have limit : mallocEnd = 0x4000100000 := rfl
  obtain ⟨k, aligned, hdrLow, hdrHigh⟩ :
      ∃ k, alignUp h.cursor 16 = k * 16 ∧ h.cursor ≤ k * 16 ∧ k * 16 ≤ h.cursor + 15 :=
    ⟨_, @alignUp_two_pow h.cursor 4 (by decide) (by omega), by omega, by omega⟩
  rw [UserHeap.malloc, aligned]
  have start : u64 (k * 16 + 16) = k * 16 + 16 := u64_of_lt (by omega)
  have stop : u64 (k * 16 + 16 + size) = k * 16 + 16 + size := u64_of_lt (by omega)
  rw [start, stop]
  split_ifs with refused
  · exact .inl rfl
  refine .inr ⟨k * 16 + 16, by omega, by omega, by omega, by rw [Nat.add_sub_cancel], ?_⟩
  refine ⟨by dsimp only; omega, by dsimp only; omega, ?_, ?_, ?_⟩
  · intro b mem
    rcases List.mem_cons.mp mem with rfl | old
    · exact ⟨by omega, le_rfl⟩
    · have := sound.inside b old
      exact ⟨by omega, by dsimp only; omega⟩
  · intro b mem
    rcases List.mem_cons.mp mem with rfl | old
    · exact readLE_writeLE_same (by omega)
    · have := sound.inside b old
      exact (readLE_writeLE_outside (by omega)).trans (sound.header b old)
  · intro b mem b' mem' lt
    rcases List.mem_cons.mp mem with rfl | old <;> rcases List.mem_cons.mp mem' with rfl | old'
    · omega
    · have := sound.inside b' old'
      dsimp only at *
      omega
    · have := sound.inside b old
      dsimp only at *
      omega
    · exact sound.apart b old b' old' lt

lemma Sound.behind (sound : h.Sound) {p : Nat} (le : h.cursor + 16 ≤ p) :
    mallocBase ≤ p ∧ ∀ b ∈ h.blocks, b.1 + b.2 + 16 ≤ p := by
  have low := sound.low
  refine ⟨by omega, fun b mem => ?_⟩
  have := sound.inside b mem
  omega

/-- The copy reads the old block, which the new header does not touch. -/
lemma Sound.realloc (sound : h.Sound) {ptr size old : Nat} (small : size < 2 ^ 63)
    (mem : (ptr, old) ∈ h.blocks) :
    (h.perform (.realloc ptr size)).2.Sound ∧ h.Serves (.realloc ptr size) := by
  have inside := sound.inside _ mem
  dsimp only at inside
  rw [Serves, UserHeap.perform, UserHeap.realloc, if_neg (by omega)]
  split_ifs with zero
  · exact ⟨sound, by simp⟩
  rcases sound.malloc small with none | ⟨p, aligned, le, room, eq, after⟩
  · rw [none]
    exact ⟨sound, by simp⟩
  rw [eq, sound.header _ mem]
  refine ⟨after.blit List.mem_cons_self le_rfl ?_, ?_⟩
  · simp only
    split_ifs <;> omega
  rintro _ ⟨⟩
  obtain ⟨low, behind⟩ := sound.behind le
  refine ⟨aligned, low, room, behind, fun old' mem' i lt => ?_⟩
  rw [show old' = old from (sound.header _ mem').symm.trans (sound.header _ mem)] at lt
  have copied : i < if old < size then old else size := by
    split_ifs <;> omega
  dsimp only
  exact (blit_inside copied).trans (writeLE_outside (.inl (by omega)))

lemma Sound.perform (sound : h.Sound) {c : Call} (careful : h.Careful c) :
    (h.perform c).2.Sound ∧ h.Serves c := by
  obtain ⟨small, known⟩ := careful
  cases c with
  | malloc size =>
    change size < 2 ^ 63 at small
    rw [Serves, UserHeap.perform]
    rcases sound.malloc small with none | ⟨p, aligned, le, room, eq, after⟩
    · rw [none]
      exact ⟨sound, by simp⟩
    · rw [eq]
      refine ⟨after, ?_⟩
      rintro _ ⟨⟩
      exact ⟨aligned, (sound.behind le).1, room, (sound.behind le).2, trivial⟩
  | calloc count size =>
    change count * size < 2 ^ 63 at small
    rw [Serves, UserHeap.perform, calloc, u64_of_lt (small.trans (by decide))]
    rcases sound.malloc small with none | ⟨p, aligned, le, room, eq, after⟩
    · rw [none]
      exact ⟨sound, by simp⟩
    · rw [eq]
      refine ⟨after.blit List.mem_cons_self le_rfl le_rfl, ?_⟩
      rintro _ ⟨⟩
      exact ⟨aligned, (sound.behind le).1, room, (sound.behind le).2, fun i => fill_inside⟩
  | realloc ptr size =>
    rcases known with rfl | ⟨old, mem⟩
    · rw [Serves, UserHeap.perform, UserHeap.realloc, if_pos rfl]
      rcases sound.malloc small with none | ⟨p, aligned, le, room, eq, after⟩
      · rw [Call.size] at none
        rw [none]
        exact ⟨sound, by simp⟩
      · rw [Call.size] at eq
        rw [eq]
        refine ⟨after, ?_⟩
        rintro _ ⟨⟩
        refine ⟨aligned, (sound.behind le).1, room, (sound.behind le).2, fun old mem => ?_⟩
        have := (sound.inside _ mem).1
        dsimp only at this
        omega
    · exact sound.realloc small mem
  | write a byte =>
    obtain ⟨b, mem, le, lt⟩ := known
    exact ⟨sound.blit mem le lt, by simp [Serves, UserHeap.perform]⟩

lemma sound_of_reachable (reachable : Reachable h) : h.Sound := by
  induction reachable with
  | init ram =>
    exact ⟨le_rfl, Nat.le_add_right .., by simp, by simp, by simp⟩
  | call _ careful ih => exact (ih.perform careful).1

/-- After any careful calls, what is returned is a block of its own. -/
theorem serves_of_reachable (reachable : Reachable h) {c : Call} (careful : h.Careful c) :
    h.Serves c :=
  ((sound_of_reachable reachable).perform careful).2

/-- A heap with a block of 100 bytes and one of 8. -/
def twoBlocks : UserHeap :=
  (perform (perform ⟨fun _ => 0, mallocBase, []⟩ (.malloc 100)).2 (.malloc 8)).2

theorem serves_twoBlocks :
    twoBlocks.blocks = [(mallocBase + 144, 8), (mallocBase + 16, 100)] ∧
    (twoBlocks.perform (.realloc (mallocBase + 16) 120)).1 = some (mallocBase + 176) ∧
    twoBlocks.Serves (.realloc (mallocBase + 16) 120) := by
  have reachable : Reachable twoBlocks :=
    .call (.call (.init _) ⟨by decide, trivial⟩) ⟨by decide, trivial⟩
  exact ⟨by decide +kernel, by decide +kernel,
    serves_of_reachable reachable ⟨by decide, .inr ⟨100, by decide +kernel⟩⟩⟩

/-- The end of the block wraps to the base of the heap. -/
theorem not_serves_wrapped : ¬ Serves ⟨fun _ => 0, mallocBase, []⟩ (.malloc (2 ^ 64 - 16)) := by
  intro serves
  have inside := (serves (mallocBase + 16) (by decide +kernel)).2.2.1
  revert inside
  decide +kernel

end UserHeap

end HnxKernel
