import Hnx.ByteMemory

/-!
# USB keyboards

A report names the keys that are down.
-/

namespace HnxKernel

open List

inductive InputEvent
  | key (code : UInt16) (pressed : Bool)
  | text (c : UInt8)

def hidUsageToKeycode (usage : UInt8) : UInt16 := usage.toUInt16

/-- Usage, character and character with shift. -/
def hidKeys : List (UInt8 × UInt8 × UInt8) :=
  [(0x28, 10, 10), (0x2A, 8, 8), (0x2B, 9, 9), (0x2C, 32, 32), (0x2D, 45, 95), (0x2E, 61, 43),
    (0x2F, 91, 123), (0x30, 93, 125), (0x31, 92, 124), (0x33, 59, 58), (0x34, 39, 34),
    (0x35, 96, 126), (0x36, 44, 60), (0x37, 46, 62), (0x38, 47, 63)]

def hidUsageToChar (usage : UInt8) (shift : Bool) : UInt8 :=
  if 0x04 ≤ usage ∧ usage ≤ 0x1D then
    (if shift then 65 else 97) + (usage - 0x04)
  else if 0x1E ≤ usage ∧ usage ≤ 0x27 then
    (if shift then [33, 64, 35, 36, 37, 94, 38, 42, 40, 41]
      else [49, 50, 51, 52, 53, 54, 55, 56, 57, 48]).getD (usage - 0x1E).toNat 0
  else
    match hidKeys.find? fun key => key.1 = usage with
    | some key => if shift then key.2.2 else key.2.1
    | none => 0

def slots (report : List UInt8) : List UInt8 := (report.drop 2).take 6

def containsKey (report : List UInt8) (key : UInt8) : Bool := decide (key ∈ slots report)

def shifted (report : List UInt8) : Bool := report.headD 0 &&& 0x22 != 0

def hidText (report : List UInt8) (k : UInt8) : List InputEvent :=
  if hidUsageToChar k (shifted report) = 0 then [] else [.text (hidUsageToChar k (shifted report))]

def hidKeyboardHandleReport (prev report : List UInt8) : List InputEvent × List UInt8 :=
  if report.length < 8 then
    ([], prev)
  else
    (((slots prev).filter fun k => 4 ≤ k ∧ !containsKey report k).map
        (fun k => .key (hidUsageToKeycode k) false) ++
      ((slots report).filter fun k => 4 ≤ k ∧ !containsKey prev k).flatMap fun k =>
        .key (hidUsageToKeycode k) true :: hidText report k,
      report.take 8)

def replay (down : Set UInt16) : InputEvent → Set UInt16
  | .key code true => insert code down
  | .key code false => down \ {code}
  | .text _ => down

/-- `g_prev` and the keys that are down, after reports since `hid_keyboard_attach`. -/
def session (reports : List (List UInt8)) : List UInt8 × Set UInt16 :=
  reports.foldl (fun st report => ((hidKeyboardHandleReport st.1 report).2,
    (hidKeyboardHandleReport st.1 report).1.foldl replay st.2)) (replicate 8 0, ∅)

def reported (report : List UInt8) : Set UInt16 :=
  {code | ∃ k ∈ slots report, 4 ≤ k ∧ code = hidUsageToKeycode k}

variable {prev report : List UInt8} {down : Set UInt16} {code : UInt16}

lemma mem_replay_releases (keys : List UInt8) :
    code ∈ (keys.map fun k => InputEvent.key (hidUsageToKeycode k) false).foldl replay down ↔
      code ∈ down ∧ ∀ k ∈ keys, code ≠ hidUsageToKeycode k := by
  induction keys generalizing down with
  | nil => simp
  | cons _ _ ih => simp [ih, replay, and_assoc]

lemma mem_replay_presses (keys : List UInt8) : code ∈ (keys.flatMap fun k =>
    InputEvent.key (hidUsageToKeycode k) true :: hidText report k).foldl replay down ↔
    code ∈ down ∨ ∃ k ∈ keys, code = hidUsageToKeycode k := by
  have text : ∀ k down, (hidText report k).foldl replay down = down := by
    intro k down
    rw [hidText]
    split
    · rfl
    · rfl
  induction keys generalizing down with
  | nil => simp
  | cons _ _ ih =>
    rw [flatMap_cons, foldl_append, foldl_cons, text]
    refine ih.trans ?_
    simp [replay, or_assoc, or_left_comm]

lemma reported_iff {k : UInt8} :
    hidUsageToKeycode k ∈ reported report ↔ k ∈ slots report ∧ 4 ≤ k := by
  constructor
  · rintro ⟨k', mem, four, same⟩
    cases UInt8.toUInt16_inj.mp same
    exact ⟨mem, four⟩
  · rintro ⟨mem, four⟩
    exact ⟨k, mem, four, rfl⟩

lemma replay_report (long : 8 ≤ report.length) :
    (hidKeyboardHandleReport prev report).1.foldl replay (reported prev) = reported report := by
  rw [hidKeyboardHandleReport, if_neg (by omega)]
  ext code
  rw [foldl_append]
  refine (mem_replay_presses _).trans ((or_congr_left (mem_replay_releases _)).trans ?_)
  simp only [mem_filter, containsKey, Bool.not_eq_true', decide_eq_false_iff_not, decide_eq_true_eq]
  constructor
  · rintro (⟨⟨k, mem, four, rfl⟩, kept⟩ | ⟨k, ⟨mem, four, -⟩, rfl⟩)
    · -- a key that is down is named by the report, or its release is emitted
      by_contra out
      exact kept k ⟨mem, four, fun now => out ⟨k, now, four, rfl⟩⟩ rfl
    · exact ⟨k, mem, four, rfl⟩
  rintro ⟨k, mem, four, rfl⟩
  -- a key of both reports is neither released nor pressed again
  by_cases before : k ∈ slots prev
  · refine .inl ⟨⟨k, before, four, rfl⟩, fun k' released same => ?_⟩
    cases UInt8.toUInt16_inj.mp same
    exact released.2.2 mem
  · exact .inr ⟨k, ⟨mem, four, before⟩, rfl⟩

lemma session_concat (reports : List (List UInt8)) : session (reports ++ [report]) =
    ((hidKeyboardHandleReport (session reports).1 report).2,
      (hidKeyboardHandleReport (session reports).1 report).1.foldl replay (session reports).2) :=
  foldl_append ..

lemma session_reported (reports : List (List UInt8)) :
    (session reports).2 = reported (session reports).1 := by
  induction reports using reverseRecOn with
  | nil =>
    ext code
    simp [session, reported, slots]
  | append_singleton _ report ih =>
    rw [session_concat, ih]
    rcases Nat.lt_or_ge report.length 8 with short | long
    · simp [hidKeyboardHandleReport, short]
    · rw [replay_report long, hidKeyboardHandleReport, if_neg (by omega)]
      simp [reported, slots, drop_take, take_take]

theorem hidKeyboard_tracks (reports : List (List UInt8)) (report : List UInt8) :
    (8 ≤ report.length → (session (reports ++ [report])).2 = reported report) ∧
    (report.length < 8 → (hidKeyboardHandleReport (session reports).1 report).1 = [] ∧
      (session (reports ++ [report])).2 = (session reports).2) ∧
    ∀ c, .text c ∈ (hidKeyboardHandleReport (session reports).1 report).1 → ∃ k ∈ slots report,
      4 ≤ k ∧ hidUsageToKeycode k ∉ (session reports).2 ∧ c =
        hidUsageToChar k (shifted report) := by
  rw [session_concat, session_reported]
  refine ⟨replay_report, fun short => by simp [hidKeyboardHandleReport, short], fun c mem => ?_⟩
  rw [hidKeyboardHandleReport] at mem
  split at mem
  · cases mem
  rcases mem_append.mp mem with release | press
  · obtain ⟨k, -, isKey⟩ := mem_map.mp release
    cases isKey
  obtain ⟨k, pressed, isText⟩ := mem_flatMap.mp press
  obtain ⟨now, new⟩ := mem_filter.mp pressed
  simp only [containsKey, Bool.not_eq_true', decide_eq_false_iff_not, decide_eq_true_eq] at new
  refine ⟨k, now, new.1, fun down => new.2 (reported_iff.mp down).1, ?_⟩
  exact (show _ ∧ c = _ by simpa [hidText, ite_eq_iff] using isText).2

end HnxKernel
