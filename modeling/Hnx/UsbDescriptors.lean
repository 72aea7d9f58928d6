import Hnx.ByteMemory
import Mathlib.Data.List.TakeWhile

/-!
# USB configuration descriptors

`usb_parse_config` goes from one descriptor to the next by the lengths in the blob.
-/

namespace HnxKernel

open List

structure UsbEndpoint where
  (address attributes : UInt8)
  maxPacket : UInt16
  interval : UInt8

structure UsbInterface where
  (number ifaceClass ifaceSubclass ifaceProtocol : UInt8)
  endpoints : List UsbEndpoint

/-- There is an `interface` once `have_iface` is set. -/
structure UsbConfiguration where
  (value numInterfaces : UInt8)
  totalLength : UInt16
  interface : Option UsbInterface

variable (blob : List UInt8)

def usbWord (off : Nat) : Option UInt16 :=
  return (← blob[off]?).toUInt16 + 256 * (← blob[off + 1]?).toUInt16

def usbInterface (off : Nat) : Option UsbInterface :=
  return ⟨← blob[off + 2]?, ← blob[off + 5]?, ← blob[off + 6]?, ← blob[off + 7]?, []⟩

def usbEndpoint (off : Nat) : Option UsbEndpoint :=
  return ⟨← blob[off + 2]?, ← blob[off + 3]?, ← usbWord blob (off + 4), ← blob[off + 6]?⟩

def usbDescriptor (off : Nat) (btype : UInt8) (out : UsbConfiguration) : Option UsbConfiguration :=
  match out.interface with
  | none => if btype = 4 then return { out with interface := ← usbInterface blob off } else some out
  | some iface =>
    if btype = 5 ∧ iface.endpoints.length < 8 then do
      let ep ← usbEndpoint blob off
      return { out with interface := some { iface with endpoints := iface.endpoints ++ [ep] } }
    else some out

def usbDescriptors (off : Nat) (out : UsbConfiguration) : Option UsbConfiguration :=
  if off + 2 ≤ blob.length then do
    let blen ← blob[off]?
    let btype ← blob[off + 1]?
    if _ : blen.toNat = 0 ∨ blob.length < off + blen.toNat then
      return out
    else
      usbDescriptors (off + blen.toNat) (← usbDescriptor blob off btype out)
  else some out
termination_by blob.length - off

/-- `none` is a read beyond the blob, `some none` the answer `-1`. -/
def usbParseConfig : Option (Option UsbConfiguration) := do
  if blob.length < 9 then
    return none
  if (← blob[1]?) ≠ 2 then
    return none
  let out ← usbDescriptors blob (← blob[0]?).toNat
    ⟨← blob[5]?, ← blob[4]?, ← usbWord blob 2, none⟩
  return if out.interface.isSome then some out else none

/-- The offset and the type of each descriptor that the lengths lead to from `off` on. -/
def usbChain (off : Nat) : List (Nat × UInt8) :=
  match blob[off]?, blob[off + 1]? with
  | some blen, some btype =>
    if _ : blen.toNat = 0 ∨ blob.length < off + blen.toNat then
      []
    else
      (off, btype) :: usbChain (off + blen.toNat)
  | _, _ => []
termination_by blob.length - off

/-- How many bytes of a descriptor are used after descriptors of the types `before`: the fields
of the first interface and of eight endpoints after it, otherwise its length and type. -/
def usbUsed (before : List UInt8) (btype : UInt8) : Nat :=
  if btype = 4 ∧ 4 ∉ before then
    8
  else if btype = 5 ∧ 4 ∈ before ∧ (before.dropWhile (· != 4)).count 5 < 8 then
    7
  else
    2

/-- The bytes used of the descriptors from `off` on are in the blob. -/
def UsbWhole (off : Nat) (seen : List UInt8) : Prop :=
  ∀ before place btype after, usbChain blob off = before ++ (place, btype) :: after →
    place + usbUsed (seen ++ before.map Prod.snd) btype ≤ blob.length

/-- What the loop knows after descriptors of the types `seen`. -/
def UsbConfiguration.Saw (out : UsbConfiguration) (seen : List UInt8) : Prop :=
  out.interface.map (fun iface => iface.endpoints.length) =
    if 4 ∈ seen then some (min 8 ((seen.dropWhile (· != 4)).count 5)) else none

variable {blob} {off : Nat} {btype : UInt8} {seen : List UInt8} {out post : UsbConfiguration}

lemma usbWhole_cons {next : Nat} (chain : usbChain blob off = (off, btype) :: usbChain blob next) :
    UsbWhole blob off seen ↔
      off + usbUsed seen btype ≤ blob.length ∧ UsbWhole blob next (seen ++ [btype]) := by
  constructor
  · intro whole
    constructor
    · simpa using whole [] off btype _ chain
    intro before place type after isNext
    have := whole ((off, btype) :: before) place type after (by rw [chain, isNext, cons_append])
    rwa [map_cons, append_cons] at this
  rintro ⟨first, rest⟩ before place type after isNext
  rw [chain] at isNext
  cases before with
  | nil =>
    cases isNext
    simpa using first
  | cons d before =>
    obtain ⟨isFirst, isNext⟩ := cons.inj isNext
    have := rest before place type after isNext
    rwa [← isFirst, map_cons, append_cons]

lemma usbInterface_isSome_iff (blob : List UInt8) (off : Nat) :
    (usbInterface blob off).isSome ↔ off + 8 ≤ blob.length := by
  by_cases long : off + 8 ≤ blob.length
  · simp (disch := omega) [usbInterface, long]
  · have past : blob[off + 7]? = none := getElem?_eq_none (by omega)
    simp [usbInterface, past, long]

lemma usbEndpoint_isSome_iff (blob : List UInt8) (off : Nat) :
    (usbEndpoint blob off).isSome ↔ off + 7 ≤ blob.length := by
  by_cases long : off + 7 ≤ blob.length
  · simp (disch := omega) [usbEndpoint, usbWord, long]
  · have past : blob[off + 6]? = none := getElem?_eq_none (by omega)
    simp [usbEndpoint, past, long]

namespace UsbConfiguration.Saw

lemma not_mem (saw : out.Saw seen) (none : out.interface = none) : 4 ∉ seen := by
  intro old
  simp [Saw, none, old] at saw

lemma mem (saw : out.Saw seen) {iface : UsbInterface} (some : out.interface = some iface) :
    4 ∈ seen ∧ iface.endpoints.length = min 8 ((seen.dropWhile (· != 4)).count 5) := by
  rw [Saw, some, Option.map_some] at saw
  by_cases old : 4 ∈ seen
  · rw [if_pos old] at saw
    exact ⟨old, Option.some_inj.mp saw⟩
  · rw [if_neg old] at saw
    cases saw

end UsbConfiguration.Saw

lemma usbDescriptor_isSome_iff (saw : out.Saw seen) (two : off + 2 ≤ blob.length) :
    (usbDescriptor blob off btype out).isSome ↔ off + usbUsed seen btype ≤ blob.length := by
  rw [usbDescriptor]
  cases isInterface : out.interface with
  | none =>
    have new := saw.not_mem isInterface
    by_cases first : btype = 4
    · have used : usbUsed seen btype = 8 := if_pos ⟨first, new⟩
      rw [used, ← usbInterface_isSome_iff]
      cases usbInterface blob off <;> simp [first]
    · have used : usbUsed seen btype = 2 := by simp [usbUsed, first, new]
      simp [first, used, two]
  | some iface =>
    obtain ⟨old, count⟩ := saw.mem isInterface
    by_cases endpoint : btype = 5 ∧ iface.endpoints.length < 8
    · have used : usbUsed seen btype = 7 := by
        rw [usbUsed, if_neg (fun h => h.2 old), if_pos ⟨endpoint.1, old, by omega⟩]
      rw [used, ← usbEndpoint_isSome_iff]
      cases usbEndpoint blob off <;> simp [endpoint]
    · have used : usbUsed seen btype = 2 := by
        rw [usbUsed, if_neg (fun h => h.2 old), if_neg (fun h => endpoint ⟨h.1, by omega⟩)]
      simp [endpoint, used, two]

lemma usbDescriptor_saw (saw : out.Saw seen) (got : usbDescriptor blob off btype out = some post) :
    post.Saw (seen ++ [btype]) := by
  rw [usbDescriptor] at got
  rw [UsbConfiguration.Saw]
  cases isInterface : out.interface with
  | none =>
    have new := saw.not_mem isInterface
    have dropped : seen.dropWhile (· != 4) = [] := by
      rw [dropWhile_eq_nil_iff]
      intro type mem
      exact bne_iff_ne.mpr (ne_of_mem_of_not_mem mem new)
    simp only [isInterface] at got
    by_cases first : btype = 4
    · rw [if_pos first] at got
      obtain ⟨iface, isIface, isPost⟩ := Option.bind_eq_some_iff.mp got
      have fresh : iface.endpoints = [] := by
        simp only [usbInterface, Option.bind_eq_bind, Option.bind_eq_some_iff] at isIface
        obtain ⟨_, -, _, -, _, -, _, -, isIface⟩ := isIface
        cases isIface
        rfl
      cases isPost
      simp [dropWhile_append, dropped, first, fresh]
    · rw [if_neg first, Option.some_inj] at got
      subst got
      simp [isInterface, new, Ne.symm first]
  | some iface =>
    obtain ⟨old, count⟩ := saw.mem isInterface
    have kept : (seen ++ [btype]).dropWhile (· != 4) = seen.dropWhile (· != 4) ++ [btype] := by
      rw [dropWhile_append, if_neg]
      rw [List.isEmpty_iff, dropWhile_eq_nil_iff]
      exact fun all => bne_iff_ne.mp (all 4 old) rfl
    rw [kept, count_append, if_pos (mem_append_left _ old)]
    simp only [isInterface] at got
    by_cases endpoint : btype = 5 ∧ iface.endpoints.length < 8
    · rw [if_pos endpoint] at got
      obtain ⟨ep, -, isPost⟩ := Option.bind_eq_some_iff.mp got
      cases isPost
      simp [endpoint.1]
      omega
    · rw [if_neg endpoint, Option.some_inj] at got
      subst got
      rw [isInterface, Option.map_some, Option.some_inj, count_singleton]
      split_ifs with isType
      · have := not_and.mp endpoint (by simpa using isType)
        omega
      · omega

lemma usbDescriptors_isSome_iff (saw : out.Saw seen) :
    (usbDescriptors blob off out).isSome ↔ UsbWhole blob off seen := by
  fun_induction usbDescriptors blob off out generalizing seen with
  | case1 off out two ih =>
    obtain ⟨blen, isLen⟩ : ∃ b, blob[off]? = some b := ⟨_, getElem?_eq_getElem (by omega)⟩
    obtain ⟨btype, isType⟩ : ∃ b, blob[off + 1]? = some b := ⟨_, getElem?_eq_getElem (by omega)⟩
    simp only [isLen, isType, Option.bind_eq_bind, Option.bind_some]
    split_ifs with last
    · have ends : usbChain blob off = [] := by
        rw [usbChain, isLen, isType]
        exact dif_pos last
      exact iff_of_true rfl fun before place type after isNext => by simp [ends] at isNext
    have chain : usbChain blob off = (off, btype) :: usbChain blob (off + blen.toNat) := by
      rw [usbChain, isLen, isType]
      exact dif_neg last
    rw [usbWhole_cons chain, ← usbDescriptor_isSome_iff saw two]
    cases got : usbDescriptor blob off btype out with
    | none => simp
    | some post =>
      rw [Option.bind_some, ih blen last post (usbDescriptor_saw saw got)]
      simp
  | case2 off out short =>
    have ends : usbChain blob off = [] := by
      rw [usbChain, getElem?_eq_none (show blob.length ≤ off + 1 by omega)]
      cases blob[off]? <;> rfl
    exact iff_of_true rfl fun before place type after isNext => by simp [ends] at isNext

/-- All reads are in the blob exactly if the used bytes of the descriptors are. -/
theorem usbParseConfig_reads_iff (blob : List UInt8) :
    usbParseConfig blob ≠ none ↔
      (9 ≤ blob.length → blob[1]? = some 2 → UsbWhole blob (blob.headD 0).toNat []) := by
  rw [usbParseConfig]
  split_ifs with short
  · exact iff_of_true (by simp) (by omega)
  have head : blob[0]? = some (blob.headD 0) := by
    cases blob with
    | nil => simp at short
    | cons => rfl
  have saw (value count : UInt8) (total : UInt16) :
      UsbConfiguration.Saw ⟨value, count, total, none⟩ [] := rfl
  have type := getElem?_eq_getElem (show 1 < blob.length by omega)
  simp only [Option.bind_eq_bind, type, Option.bind_some, head]
  split_ifs with other
  · exact iff_of_true (by simp) (fun _ isType => absurd (Option.some_inj.mp isType) other)
  rw [imp_iff_right (by omega), imp_iff_right (by simpa using other)]
  simp (disch := omega) only [usbWord, getElem?_eq_getElem, Option.bind_eq_bind,
    Option.bind_some, Option.pure_def]
  rw [← usbDescriptors_isSome_iff (saw blob[5] blob[4] _)]
  cases usbDescriptors blob _ _ <;> simp

theorem usbParseConfig_reads_keyboard :
    usbParseConfig [9, 2, 20, 0, 1, 1, 0, 0, 0, 9, 4, 0, 0, 0, 3, 1, 1, 0, 2, 4] ≠ none := by
  refine (usbParseConfig_reads_iff _).mpr fun _ _ => ?_
  have chain : usbChain [9, 2, 20, 0, 1, 1, 0, 0, 0, 9, 4, 0, 0, 0, 3, 1, 1, 0, 2, 4] 9 =
      [(9, 4), (18, 4)] := by
    simp [usbChain]
  intro before place btype after isNext
  rw [headD_cons, show (9 : UInt8).toNat = 9 from rfl, chain] at isNext
  rcases before with _ | ⟨_, _ | ⟨_, before⟩⟩
  · cases isNext
    decide
  · cases isNext
    decide
  · cases before <;> cases isNext

/-- An interface descriptor of two bytes ends the blob. -/
theorem usbParseConfig_shortInterface :
    usbParseConfig [9, 2, 11, 0, 1, 1, 0, 0, 0, 2, 4] = none := by
  have beyond (out : UsbConfiguration) (new : out.interface = none) :
      usbDescriptors [9, 2, 11, 0, 1, 1, 0, 0, 0, 2, 4] 9 out = none := by
    rw [usbDescriptors]
    simp [usbDescriptor, usbInterface, new]
  simp [usbParseConfig, usbWord, beyond]

end HnxKernel
