import Hnx.NetStack

/-!
# The DHCP client

The client is written while a message is parsed, whatever its transaction number is.
-/

namespace HnxKernel

inductive DhcpState where
  | init
  | selecting
  | requesting
  | bound
  deriving DecidableEq

structure DhcpClient where
  state : DhcpState
  xid : Nat
  offeredIp : Nat
  serverId : Nat
  subnetMask : Nat
  router : Nat
  dns : Nat
  leaseSecs : Nat
  deriving DecidableEq

structure NetifAddr where
  ip : Nat
  netmask : Nat
  gateway : Nat
  deriving DecidableEq

/-- The options that an answer may carry, and `DHCP_OPT_MSG_TYPE`, which is
returned. -/
def DhcpClient.storeOption (c : DhcpClient) (code : Nat) (v : List UInt8) (olen : Nat) :
    DhcpClient :=
  if olen < 4 then c
  else
    match code with
    | 1 => { c with subnetMask := getBe32 v 0 }
    | 3 => { c with router := getBe32 v 0 }
    | 6 => { c with dns := getBe32 v 0 }
    | 54 => { c with serverId := getBe32 v 0 }
    | 51 => { c with leaseSecs := getBe32 v 0 }
    | _ => c

/-- The loop of `dhcp_parse` over the options, of which `skip` bytes are still
to be passed over. -/
def dhcpOptions : List UInt8 → Nat → DhcpClient → Nat → DhcpClient × Nat
  | [], _, c, msgType => (c, msgType)
  | _ :: rest, skip + 1, c, msgType => dhcpOptions rest skip c msgType
  | code :: rest, 0, c, msgType =>
    if code = 255 then (c, msgType)
    else if code = 0 then dhcpOptions rest 0 c msgType
    else
      match rest with
      | [] => (c, msgType)
      | olen :: v =>
        if v.length < olen.toNat then (c, msgType)
        else
          dhcpOptions v olen.toNat (c.storeOption code.toNat v olen.toNat)
            (if code = 53 ∧ 1 ≤ olen then (v.getD 0 0).toNat else msgType)

def DhcpMalformed (data : List UInt8) : Prop :=
  data.length < 241 ∨ getBe32 data 236 ≠ 0x63825363 ∨ data.getD 0 0 ≠ 2

instance (data : List UInt8) : Decidable (DhcpMalformed data) := inferInstanceAs (Decidable (_ ∨ _))

def dhcpParse (c : DhcpClient) (data : List UInt8) : DhcpClient × Nat :=
  if DhcpMalformed data then (c, 0)
  else dhcpOptions ((data.drop 240).take 312) 0 { c with offeredIp := getBe32 data 16 } 0

/-- The last component says whether `DHCP_REQUEST` is sent. -/
def dhcpInput (c : DhcpClient) (nif : Option NetifAddr) (data : List UInt8) :
    Nat × DhcpClient × Option NetifAddr × Bool :=
  let (c, type) := dhcpParse c data
  if type = 0 then (0, c, nif, false)
  else
    match c.state with
    | .selecting =>
      if type = 2 then (type, { c with state := .requesting }, nif, true)
      else (type, c, nif, false)
    | .requesting =>
      if type = 5 then
        let mask := if c.subnetMask = 0 then 0xFFFFFF00 else c.subnetMask
        (type, { c with state := .bound },
          nif.map fun addr => if c.offeredIp = 0 then addr else ⟨c.offeredIp, mask, c.router⟩,
          false)
      else if type = 6 then (type, { c with state := .init }, nif, false)
      else (type, c, nif, false)
    | _ => (type, c, nif, false)

def DhcpState.Handles (st : DhcpState) (type : Nat) : Prop :=
  st = .selecting ∧ type = 2 ∨ st = .requesting ∧ (type = 5 ∨ type = 6)

/-- The options of a message, by code and value, of which `skip` bytes are still to be passed
over. -/
def dhcpFields : List UInt8 → Nat → List (Nat × List UInt8)
  | [], _ => []
  | _ :: rest, skip + 1 => dhcpFields rest skip
  | code :: rest, 0 =>
    if code = 255 then []
    else if code = 0 then dhcpFields rest 0
    else
      match rest with
      | [] => []
      | olen :: v =>
        if v.length < olen.toNat then []
        else (code.toNat, v.take olen.toNat) :: dhcpFields v olen.toNat

/-- The last option with this code and a value of at least this length. -/
def lastField (fields : List (Nat × List UInt8)) (code len : Nat) : Option (List UInt8) :=
  (fields.reverse.find? fun field => field.1 = code ∧ len ≤ field.2.length).map Prod.snd

def messageFields (data : List UInt8) : List (Nat × List UInt8) :=
  dhcpFields ((data.drop 240).take 312) 0

/-- The message type of a well-formed message, or zero. -/
def messageType (data : List UInt8) : Nat :=
  (lastField (messageFields data) 53 1).elim 0 fun v => (v.getD 0 0).toNat

/-- The field of the client that an option is stored in. -/
def DhcpClient.field (c : DhcpClient) : Nat → Nat
  | 1 => c.subnetMask
  | 3 => c.router
  | 6 => c.dns
  | 54 => c.serverId
  | 51 => c.leaseSecs
  | _ => 0

/-- The message says nothing that the client does not hold already. -/
def DhcpClient.Repeats (c : DhcpClient) (data : List UInt8) : Prop :=
  getBe32 data 16 = c.offeredIp ∧ ∀ code ∈ [1, 3, 6, 54, 51],
    ∀ v ∈ lastField (messageFields data) code 4, getBe32 v 0 = c.field code

/-- Malformed, for another transaction, or without a type that the state handles. -/
def DhcpClient.Rejects (c : DhcpClient) (data : List UInt8) : Prop :=
  DhcpMalformed data ∨ getBe32 data 4 ≠ c.xid ∨ messageType data = 0 ∨
    ¬c.state.Handles (messageType data)

def DhcpClient.Ignores (c : DhcpClient) (nif : Option NetifAddr) (data : List UInt8) : Prop :=
  (dhcpInput c nif data).2.1 = c ∧ (dhcpInput c nif data).2.2.1 = nif

instance (c : DhcpClient) (nif : Option NetifAddr) (data : List UInt8) :
    Decidable (c.Ignores nif data) :=
  inferInstanceAs (Decidable (_ ∧ _))

lemma DhcpClient.storeOption_state (c : DhcpClient) (code : Nat) (v : List UInt8)
    (olen : Nat) : (c.storeOption code v olen).state = c.state := by
  unfold storeOption
  split
  · rfl
  · split <;> rfl

lemma dhcpOptions_state (options : List UInt8) (skip : Nat) (c : DhcpClient) (msgType : Nat) :
    (dhcpOptions options skip c msgType).1.state = c.state := by
  fun_induction dhcpOptions options skip c msgType with
  | case1 | case3 | case5 | case6 => rfl
  | case2 _ _ _ _ _ ih | case4 _ _ _ _ ih => exact ih
  | case7 _ _ _ _ _ _ _ _ ih => rw [ih, DhcpClient.storeOption_state]

lemma dhcpParse_state (c : DhcpClient) (data : List UInt8) :
    (dhcpParse c data).1.state = c.state := by
  unfold dhcpParse
  split
  · rfl
  · rw [dhcpOptions_state]

variable {c : DhcpClient} {data : List UInt8}

lemma dhcpInput_state_ne (nif : Option NetifAddr) (handled : c.state.Handles (dhcpParse c data).2) :
    (dhcpInput c nif data).2.1.state ≠ c.state := by
  have kept := dhcpParse_state c data
  obtain ⟨st, type⟩ | ⟨st, type | type⟩ := handled <;>
    simp [dhcpInput, kept, st, type]

lemma dhcpInput_of_not_handles (nif : Option NetifAddr)
    (ignored : ¬c.state.Handles (dhcpParse c data).2) :
    (dhcpInput c nif data).2 = ((dhcpParse c data).1, nif, false) := by
  have kept := dhcpParse_state c data
  simp only [DhcpState.Handles, not_or, not_and] at ignored
  simp only [dhcpInput, kept]
  split
  · rfl
  cases st : c.state with
  | selecting => simp [ignored.1 st]
  | requesting => simp [ignored.2 st]
  | init | bound => rfl

/-- The value of an option and the bytes behind it agree where they are read. -/
lemma DhcpClient.storeOption_take (c : DhcpClient) (code : Nat) (v : List UInt8) (olen : Nat) :
    c.storeOption code (v.take olen) olen = c.storeOption code v olen := by
  unfold storeOption
  split
  · rfl
  next long =>
  have same : getBe32 (v.take olen) 0 = getBe32 v 0 := by
    simp [getBe32, getBe16, show 0 < olen by omega, show 1 < olen by omega,
      show 2 < olen by omega, show 3 < olen by omega]
  rw [same]

def DhcpClient.store (c : DhcpClient) (field : Nat × List UInt8) : DhcpClient :=
  c.storeOption field.1 field.2 field.2.length

def typeAfter (msgType : Nat) (field : Nat × List UInt8) : Nat :=
  if field.1 = 53 ∧ 1 ≤ field.2.length then (field.2.getD 0 0).toNat else msgType

lemma dhcpOptions_eq (options : List UInt8) (skip : Nat) (c : DhcpClient) (msgType : Nat) :
    dhcpOptions options skip c msgType = ((dhcpFields options skip).foldl DhcpClient.store c,
      (dhcpFields options skip).foldl typeAfter msgType) := by
  fun_induction dhcpOptions options skip c msgType with
  | case1 => rfl
  | case2 _ _ _ _ _ ih => rw [ih, dhcpFields]
  | case3 | case5 | case6 =>
    unfold dhcpFields
    simp [*]
  | case4 _ _ _ _ ih =>
    unfold dhcpFields
    simpa using ih
  | case7 code c msgType notEnd notPad olen v long ih =>
    have fields : dhcpFields (code :: olen :: v) 0 =
        (code.toNat, v.take olen.toNat) :: dhcpFields v olen.toNat := by
      rw [dhcpFields.eq_def]
      simp [notEnd, notPad, long]
    have len : (v.take olen.toNat).length = olen.toNat :=
      List.length_take_of_le (Nat.le_of_not_lt long)
    have isType : code = 53 ∧ 1 ≤ olen ↔ code.toNat = 53 ∧ 1 ≤ olen.toNat :=
      and_congr UInt8.toNat_inj.symm UInt8.le_iff_toNat_le
    have value : (if code = 53 ∧ 1 ≤ olen then (v.getD 0 0).toNat else msgType) =
        typeAfter msgType (code.toNat, v.take olen.toNat) := by
      rw [typeAfter, len]
      by_cases typed : code = 53 ∧ 1 ≤ olen
      · have pos : 0 < olen.toNat := (isType.mp typed).2
        rw [if_pos typed, if_pos (isType.mp typed)]
        simp [pos]
      · rw [if_neg typed, if_neg (mt isType.mpr typed)]
    rw [ih, fields, List.foldl_cons, List.foldl_cons, DhcpClient.store, len,
      DhcpClient.storeOption_take, value]

lemma lastField_append (fields : List (Nat × List UInt8)) (field : Nat × List UInt8)
    (code len : Nat) : lastField (fields ++ [field]) code len =
      if field.1 = code ∧ len ≤ field.2.length then some field.2
      else lastField fields code len := by
  simp only [lastField, List.reverse_append, List.reverse_singleton, List.singleton_append,
    List.find?_cons]
  split_ifs with here
  · simp [here]
  · simp [here]

lemma foldl_typeAfter (fields : List (Nat × List UInt8)) :
    fields.foldl typeAfter 0 = (lastField fields 53 1).elim 0 fun v => (v.getD 0 0).toNat := by
  induction fields using List.reverseRecOn with
  | nil => rfl
  | append_singleton fields field ih =>
    rw [List.foldl_append, List.foldl_cons, List.foldl_nil, lastField_append, typeAfter]
    split_ifs
    · rfl
    · exact ih

lemma DhcpClient.store_field (c : DhcpClient) (field : Nat × List UInt8) {code : Nat}
    (stored : code ∈ [1, 3, 6, 54, 51]) : (c.store field).field code =
      if field.1 = code ∧ 4 ≤ field.2.length then getBe32 field.2 0 else c.field code := by
  unfold store storeOption
  split
  · next short => rw [if_neg (by omega)]
  next long =>
  have fits : 4 ≤ field.2.length := Nat.le_of_not_lt long
  simp only [fits, and_true]
  simp only [List.mem_cons, List.not_mem_nil, or_false] at stored
  split <;> rcases stored with rfl | rfl | rfl | rfl | rfl <;> simp_all [DhcpClient.field]

lemma DhcpClient.foldl_store (c : DhcpClient) (fields : List (Nat × List UInt8)) :
    let post := fields.foldl store c
    (post.state, post.xid, post.offeredIp) = (c.state, c.xid, c.offeredIp) ∧
    ∀ code ∈ [1, 3, 6, 54, 51], post.field code =
      ((lastField fields code 4).map fun v => getBe32 v 0).getD (c.field code) := by
  induction fields using List.reverseRecOn with
  | nil => exact ⟨rfl, fun _ _ => rfl⟩
  | append_singleton fields field ih =>
    simp only [List.foldl_append, List.foldl_cons, List.foldl_nil]
    refine ⟨?_, fun code stored => ?_⟩
    · rw [← ih.1]
      unfold store storeOption
      split
      · rfl
      · split <;> rfl
    rw [store_field _ _ stored, lastField_append]
    split_ifs
    · rfl
    · exact ih.2 code stored

lemma dhcpParse_type (c : DhcpClient) (formed : ¬DhcpMalformed data) :
    (dhcpParse c data).2 = messageType data := by
  rw [dhcpParse, if_neg formed, dhcpOptions_eq]
  exact foldl_typeAfter _

lemma dhcpParse_eq_self_iff (formed : ¬DhcpMalformed data) :
    (dhcpParse c data).1 = c ↔ c.Repeats data := by
  rw [dhcpParse, if_neg formed, dhcpOptions_eq]
  obtain ⟨rest, fields⟩ := DhcpClient.foldl_store { c with offeredIp := getBe32 data 16 }
    (dhcpFields ((data.drop 240).take 312) 0)
  dsimp only at rest fields ⊢
  generalize List.foldl _ _ _ = post at *
  have same (code : Nat) (stored : code ∈ [1, 3, 6, 54, 51]) : post.field code = c.field code ↔
      ∀ v ∈ lastField (messageFields data) code 4, getBe32 v 0 = c.field code := by
    rw [fields code stored, messageFields]
    cases lastField (dhcpFields ((data.drop 240).take 312) 0) code 4 with
    | none => exact iff_of_true rfl (by simp)
    | some v => simp
  constructor
  · rintro rfl
    exact ⟨(Prod.mk.inj (Prod.mk.inj rest).2).2.symm, fun code stored => (same code stored).mp rfl⟩
  rintro ⟨address, repeated⟩
  obtain ⟨state, xid, offered⟩ := by simpa only [Prod.mk.injEq] using rest
  have equal (code : Nat) (stored : code ∈ [1, 3, 6, 54, 51]) : post.field code = c.field code :=
    (same code stored).mpr (repeated code stored)
  have mask : post.subnetMask = c.subnetMask := equal 1 (by simp)
  have router : post.router = c.router := equal 3 (by simp)
  have dns : post.dns = c.dns := equal 6 (by simp)
  have server : post.serverId = c.serverId := equal 54 (by simp)
  have lease : post.leaseSecs = c.leaseSecs := equal 51 (by simp)
  obtain ⟨_, _, _, _, _, _, _, _⟩ := post
  simp_all

lemma ignores_iff (c : DhcpClient) (nif : Option NetifAddr) (data : List UInt8) :
    c.Ignores nif data ↔
      DhcpMalformed data ∨ c.Repeats data ∧ ¬c.state.Handles (messageType data) := by
  by_cases malformed : DhcpMalformed data
  · have parsed : dhcpParse c data = (c, 0) := if_pos malformed
    simp [DhcpClient.Ignores, dhcpInput, parsed, malformed]
  rw [← dhcpParse_eq_self_iff malformed, ← dhcpParse_type c malformed]
  by_cases handled : c.state.Handles (dhcpParse c data).2
  · have moved := dhcpInput_state_ne nif handled
    simp only [malformed, handled, not_true, and_false, or_self, iff_false]
    exact fun ignored => moved (congrArg DhcpClient.state ignored.1)
  · simp [DhcpClient.Ignores, dhcpInput_of_not_handles nif handled, malformed, handled]

/-- A message for another transaction is like any other. -/
theorem rejected_ignored_iff (c : DhcpClient) (nif : Option NetifAddr) (data : List UInt8) :
    (c.Rejects data → c.Ignores nif data) ↔ (c.Rejects data →
      DhcpMalformed data ∨ c.Repeats data ∧ ¬c.state.Handles (messageType data)) :=
  imp_congr_right fun _ => ignores_iff c nif data

def dhcpReply (xid yiaddr : Nat) (options : List UInt8) : List UInt8 :=
  [2, 1, 6, 0] ++ be32 xid ++ List.replicate 8 0 ++ be32 yiaddr ++ List.replicate 216 0 ++
    be32 0x63825363 ++ options

def selectingClient : DhcpClient := ⟨.selecting, 0x4D594F53, 0, 0, 0, 0, 0, 0⟩

theorem offer_of_other_transaction :
    selectingClient.Rejects (dhcpReply 1 0x0A000001 [53, 1, 2, 255]) ∧
      dhcpInput selectingClient (some ⟨0, 0, 0⟩) (dhcpReply 1 0x0A000001 [53, 1, 2, 255]) =
        (2, { selectingClient with state := .requesting, offeredIp := 0x0A000001 },
          some ⟨0, 0, 0⟩, true) := by
  exact ⟨.inr (.inl (by decide +kernel)), by decide +kernel⟩

def dhcpStart (c : DhcpClient) : DhcpClient := { c with state := .selecting }

/-- How often `dhcp_send` was called for each message, whatever it returned, and how often the
interface changed. -/
structure DhcpRun where
  client : DhcpClient
  nif : Option NetifAddr
  (discovers requests changes : Nat)

namespace DhcpRun

/-- A call of `dhcp_start`, or of `dhcp_input` with these bytes. -/
def perform (run : DhcpRun) : Option (List UInt8) → DhcpRun
  | none => { run with client := dhcpStart run.client, discovers := run.discovers + 1 }
  | some data =>
    let (_, client, nif, sends) := dhcpInput run.client run.nif data
    ⟨client, nif, run.discovers, run.requests + sends.toNat,
      run.changes + if nif = run.nif then 0 else 1⟩

/-- A waiting client has called `dhcp_send` once more than it took answers. -/
structure Paired (run : DhcpRun) : Prop where
  offers : run.requests + (if run.client.state = .selecting then 1 else 0) ≤ run.discovers
  acks : run.changes + (if run.client.state = .requesting then 1 else 0) ≤ run.requests

lemma Paired.step {run : DhcpRun} (paired : run.Paired) (call : Option (List UInt8)) :
    (run.perform call).Paired := by
  obtain ⟨offers, acks⟩ := paired
  cases call with
  | none => constructor <;> simp [perform, dhcpStart] <;> omega
  | some data =>
    have kept := dhcpParse_state run.client data
    by_cases handled : run.client.state.Handles (dhcpParse run.client data).2
    · obtain ⟨st, type⟩ | ⟨st, type | type⟩ := handled <;> constructor <;>
        simp [perform, dhcpInput, kept, st, type] at offers acks ⊢ <;> grind
    · rw [← kept] at offers acks
      simpa [perform, dhcpInput_of_not_handles run.nif handled] using Paired.mk offers acks

/-- Each change of the interface had an attempt at a request, and each of these one at a
discovery. -/
theorem dhcp_changes_le (start : c.state = .init) (nif : Option NetifAddr)
    (calls : List (Option (List UInt8))) :
    let run := calls.foldl perform ⟨c, nif, 0, 0, 0⟩
    run.changes ≤ run.requests ∧ run.requests ≤ run.discovers := by
  have paired : (calls.foldl perform ⟨c, nif, 0, 0, 0⟩).Paired :=
    List.foldlRecOn calls perform ⟨by simp [start], by simp [start]⟩
      fun _ paired call _ => paired.step call
  exact ⟨Nat.le_of_add_right_le paired.acks, Nat.le_of_add_right_le paired.offers⟩

theorem dhcp_changes_le_leased :
    let run := [none, some (dhcpReply 1 1 [53, 1, 2]), some (dhcpReply 1 1 [53, 1, 5])].foldl
      perform
      ⟨{ selectingClient with state := .init }, some ⟨0, 0, 0⟩, 0, 0, 0⟩
    run.changes ≤ run.requests ∧ run.requests ≤ run.discovers :=
  dhcp_changes_le rfl _ _

end DhcpRun

end HnxKernel
