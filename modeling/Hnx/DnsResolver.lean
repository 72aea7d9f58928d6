import Hnx.NetBuffers
import Mathlib.Algebra.BigOperators.Fin

/-!
# The DNS resolver

The identifier of the query comes from a counter of 16 bits, and 0 stands for any in the
parser.
-/

namespace HnxKernel

section

section

open Function PartialAction

def udpUnbind (localIp localPort : Nat) : NetM Unit :=
  modify fun net =>
    match (List.finRange 16).find? fun i => (net.bindings i).inUse &&
        (net.bindings i).localPort == localPort && (net.bindings i).localIp == localIp with
    | none => net
    | some i =>
      { net with bindings := update net.bindings i { net.bindings i with inUse := false } }

def Net.Taken (net : Net) (port : Nat) : Prop :=
  ∃ i, (net.bindings i).inUse = true ∧ (net.bindings i).localPort = port

variable {net : Net}

lemma Net.taken_next {next port : Nat} :
    ({ net with ephemeralNext := next } : Net).Taken port ↔ net.Taken port :=
  Iff.rfl

lemma udpEphemeralPort_search {tries : Nat} (low : 49152 ≤ net.ephemeralNext)
    (high : net.ephemeralNext < 65536) :
    ∃ port next, udpEphemeralPort tries net = some (port, { net with ephemeralNext := next }) ∧
      49152 ≤ next ∧ next < 65536 ∧
      (49152 ≤ port ∧ port < 65536 ∧ ¬net.Taken port ∨
        ∀ k < tries, net.Taken (49152 + (net.ephemeralNext - 49152 + k) % 16384)) := by
  induction tries generalizing net with
  | zero => exact ⟨0, net.ephemeralNext, rfl, low, high, .inr (by simp)⟩
  | succ _ ih =>
    have taken_iff : ((List.finRange 16).any fun i =>
      (net.bindings i).inUse && (net.bindings i).localPort == net.ephemeralNext) = true ↔
        net.Taken net.ephemeralNext := by
      simp [Net.Taken]
    simp only [udpEphemeralPort, bind_apply, get_apply, set_apply, Option.bind_some]
    set next := if (net.ephemeralNext + 1) % 2 ^ 16 < 49152 then 49152
      else (net.ephemeralNext + 1) % 2 ^ 16 with nextDef
    have round : next = 49152 + (net.ephemeralNext - 49152 + 1) % 16384 := by
      rw [nextDef]
      split <;> omega
    split
    · rename_i taken
      rw [taken_iff] at taken
      obtain ⟨port, last, run, lastLow, lastHigh, found⟩ :=
        @ih { net with ephemeralNext := next } (by dsimp only; omega) (by dsimp only; omega)
      refine ⟨port, last, run, lastLow, lastHigh, found.imp_right fun rest k kLt => ?_⟩
      cases k with
      | zero =>
        rw [show 49152 + (net.ephemeralNext - 49152 + 0) % 16384 = net.ephemeralNext by omega]
        exact taken
      | succ k =>
        have visited := Net.taken_next.mp (rest k (by omega))
        rw [round, show 49152 + (49152 + (net.ephemeralNext - 49152 + 1) % 16384 - 49152 + k) %
          16384 = 49152 + (net.ephemeralNext - 49152 + (k + 1)) % 16384 by omega] at visited
        exact visited
    rename_i free
    rw [taken_iff] at free
    exact ⟨_, next, rfl, by omega, by omega, .inl ⟨low, high, free⟩⟩

lemma not_all_taken : ∃ port, 49152 ≤ port ∧ port < 65536 ∧ ¬net.Taken port := by
  by_contra all
  push Not at all
  have covered : Finset.Ico 49152 65536 ⊆
    Finset.univ.image fun i => (net.bindings i).localPort := by
    intro port mem
    obtain ⟨low, high⟩ := Finset.mem_Ico.mp mem
    obtain ⟨i, -, eq⟩ := all port low high
    exact Finset.mem_image.mpr ⟨i, Finset.mem_univ i, eq⟩
  have few := (Finset.card_le_card covered).trans Finset.card_image_le
  rw [Nat.card_Ico, Finset.card_univ, Fintype.card_fin] at few
  omega

lemma udpEphemeralPort_finds (low : 49152 ≤ net.ephemeralNext) (high : net.ephemeralNext < 65536) :
    ∃ port next, udpEphemeralPort 16384 net = some (port, { net with ephemeralNext := next }) ∧
      49152 ≤ next ∧ next < 65536 ∧ 49152 ≤ port ∧ port < 65536 ∧ ¬net.Taken port := by
  obtain ⟨port, next, run, nextLow, nextHigh, found | all⟩ :=
    udpEphemeralPort_search low high
  · exact ⟨port, next, run, nextLow, nextHigh, found⟩
  obtain ⟨free, freeLow, freeHigh, notTaken⟩ := not_all_taken
  refine absurd ?_ notTaken
  have visited := all ((free + 16384 - net.ephemeralNext) % 16384) (Nat.mod_lt _ (by omega))
  rwa [show 49152 + (net.ephemeralNext - 49152 +
    (free + 16384 - net.ephemeralNext) % 16384) % 16384 = free by omega] at visited

lemma udpBind_cases (localIp localPort ctx : Nat) (net : Net) :
    udpBind localIp localPort ctx net = some (-1, net) ∨
    ∃ i, (net.bindings i).inUse = false ∧ udpBind localIp localPort ctx net = some (0, { net with
        bindings := update net.bindings i ⟨true, localIp, localPort, ctx⟩ }) := by
  simp only [udpBind, bind_apply, get_apply, Option.bind_some]
  split
  · exact .inl rfl
  cases found : (List.finRange 16).find? fun i => !(net.bindings i).inUse with
  | none => exact .inl rfl
  | some i => exact .inr ⟨i, by simpa using List.find?_some found, rfl⟩

lemma udpUnbind_of_not_taken {localPort : Nat} (free : ¬net.Taken localPort) (localIp : Nat) :
    udpUnbind localIp localPort net = some ((), net) := by
  have none : ((List.finRange 16).find? fun i => (net.bindings i).inUse &&
    (net.bindings i).localPort == localPort && (net.bindings i).localIp == localIp) = none := by
    rw [List.find?_eq_none]
    intro i _ found
    simp only [Bool.and_eq_true, beq_iff_eq] at found
    exact free ⟨i, found.1.1, found.1.2⟩
  simp only [udpUnbind, modify_apply, none]

end

open Function PartialAction Option

/-- `dns_encode_name` of a string, label by label; `room` is left in the buffer. -/
def dnsEncodeName : Nat → Nat → List UInt8 → Option (List UInt8)
  | _, room, [] => if room < 1 then none else some [0]
  | 0, _, _ :: _ => none
  | fuel + 1, room, name =>
    let label := name.takeWhile (· ≠ 46)
    if label.length = 0 ∨ 63 < label.length ∨ room ≤ 1 + label.length then none
    else
      (dnsEncodeName fuel (room - (1 + label.length)) ((name.dropWhile (· ≠ 46)).drop 1)).map
        fun rest => UInt8.ofNat label.length :: label ++ rest

def dnsBuildQuery (id : Nat) (name : List UInt8) : Option (List UInt8) :=
  (dnsEncodeName name.length 500 name).bind fun encoded =>
    if 512 < 12 + encoded.length + 4 then none
    else
      some (be16 id ++ be16 0x0100 ++ be16 1 ++ be16 0 ++ be16 0 ++ be16 0 ++ encoded ++
        be16 1 ++ be16 1)

/-- Each round passes over a byte at least. -/
def dnsSkipName (buf : List UInt8) : Nat → Nat → Nat
  | 0, _ => 0
  | fuel + 1, off =>
    let b := (buf.getD off 0).toNat
    if buf.length ≤ off then 0
    else if b = 0 then off + 1
    else if b &&& 0xC0 = 0xC0 then off + 2
    else if b &&& 0xC0 ≠ 0 then 0
    else dnsSkipName buf fuel (off + (1 + b))

def dnsSkipQuestions (buf : List UInt8) : Nat → Nat → Option Nat
  | 0, off => some off
  | questions + 1, off =>
    let off := dnsSkipName buf (buf.length + 1) off
    if off = 0 ∨ buf.length < off + 4 then none
    else dnsSkipQuestions buf questions (off + 4)

def dnsFindAddress (buf : List UInt8) : Nat → Nat → Option Nat
  | 0, _ => none
  | answers + 1, off =>
    let off := dnsSkipName buf (buf.length + 1) off
    let rdlen := getBe16 buf (off + 8)
    if off = 0 ∨ buf.length < off + 10 ∨ buf.length < off + 10 + rdlen then none
    else if getBe16 buf off = 1 ∧ rdlen = 4 then some (getBe32 buf (off + 10))
    else dnsFindAddress buf answers (off + 10 + rdlen)

def dnsParseResponse (buf : List UInt8) (matchId : Nat) : Option Nat :=
  let flags := getBe16 buf 2
  if buf.length < 12 ∨ matchId ≠ 0 ∧ getBe16 buf 0 ≠ matchId ∨ flags &&& 0x8000 = 0 ∨
      flags &&& 0xF ≠ 0 ∨ getBe16 buf 6 = 0 then
    none
  else
    (dnsSkipQuestions buf (getBe16 buf 4) 12).bind (dnsFindAddress buf (getBe16 buf 6))

/-- The pointers may be null. -/
structure DnsResolution where
  id : Nat
  out : Option Nat
  done : Option Nat

/-- `calls`, `sent`, `unbound` and `answered` count queries; `waiting`: the last is not answered. -/
structure Dns where
  net : Net
  nextId : Nat
  resolution : DnsResolution
  addresses : Nat → Nat
  flags : Nat → Nat
  calls : Nat
  sent : Nat
  unbound : Nat
  answered : Nat
  waiting : Bool

/-- The context of the bindings of the resolver; any value that is no socket. -/
def dnsCtx : Nat := 16

namespace Dns

def store (cells : Nat → Nat) (ptr : Option Nat) (val : Nat) : Nat → Nat :=
  ptr.elim cells fun addr => update cells addr val

def recv (dns : Dns) (data : List UInt8) : Dns :=
  match dnsParseResponse data dns.resolution.id with
  | none => dns
  | some addr =>
    { dns with
      addresses := store dns.addresses dns.resolution.out addr
      flags := store dns.flags dns.resolution.done 1
      answered := dns.answered + dns.waiting.toNat
      waiting := false }

/-- The datagrams for the resolver that have come up to `post`. -/
def arrivals (dns : Dns) (post : Net) : List Datagram :=
  (post.received.drop dns.net.received.length).filter (·.ctx = dnsCtx)

/-- No one else reads what `dns_recv` writes, so that it may be called after the receptions. -/
def deliver (dns : Dns) (post : Net) : Dns :=
  { (dns.arrivals post).foldl (fun dns datagram => dns.recv datagram.data) dns with net := post }

def resolve (rx : Netbuf → NetM Unit) (server : Nat) (name : List UInt8)
    (out done : Option Nat) (dns : Dns) : Option (Int × Dns) :=
  let id := dns.nextId
  let dns := { dns with nextId := (id + 1) % 2 ^ 16, calls := dns.calls + 1 }
  match dnsBuildQuery id name with
  | none => some (-1, dns)
  | some query => do
    let dns :=
      { dns with
        resolution := ⟨id, out, done⟩, waiting := false
        flags := store dns.flags done 0 }
    let (lport, net) ← udpEphemeralPort 16384 dns.net
    let (bound, net) ← udpBind 0 lport dnsCtx net
    let (rc, net) ← udpOutput rx 0 lport server 53 (some query) query.length net
    if rc < 0 then
      let ((), post) ← udpUnbind 0 lport net
      some (-1, { dns.deliver net with net := post })
    else
      some (0, { dns with
        sent := dns.sent + 1
        unbound := dns.unbound + if bound = 0 then 0 else 1
        waiting := true }.deliver net)

def boot (net : Net) : Dns :=
  ⟨net, 0x1000, ⟨0, none, none⟩, fun _ => 0, fun _ => 0, 0, 0, 0, 0, false⟩

def Sets (dns : Dns) (data : List UInt8) : Prop :=
  ∃ addresses flags, (({ dns with addresses, flags } : Dns).recv data).addresses ≠ addresses ∨
    (({ dns with addresses, flags } : Dns).recv data).flags ≠ flags

def owned (net : Net) : Nat :=
  ∑ i, if (net.bindings i).inUse ∧ (net.bindings i).ctx = dnsCtx then 1 else 0

end Dns

/-- Calls of `dns_resolve` and frames that arrive, from a stack without bindings of
the resolver. -/
inductive DnsReachable : Dns → Prop
  | boot {net : Net} : 49152 ≤ net.ephemeralNext → net.ephemeralNext < 65536 →
      Dns.owned net = 0 → DnsReachable (Dns.boot net)
  | resolve {dns : Dns} (fuel server : Nat) (name : List UInt8) (out done : Option Nat)
      {outcome : Int × Dns} : DnsReachable dns →
      dns.resolve (netifRx fuel) server name out done = some outcome → DnsReachable outcome.2
  | frame {dns : Dns} (fuel : Nat) (nb : Netbuf) {outcome : Unit × Net} : DnsReachable dns →
      netifRx fuel nb dns.net = some outcome → DnsReachable (dns.deliver outcome.2)

variable {dns : Dns} {fuel : Nat} {net post : Net}

lemma Dns.deliver_keeps {kept : Dns → Prop} (step : ∀ dns data, kept dns → kept (dns.recv data))
    (h : kept dns) (post : Net) :
    ∃ last, kept last ∧ dns.deliver post = { last with net := post } := by
  unfold deliver
  generalize dns.arrivals post = datagrams
  induction datagrams generalizing dns with
  | nil => exact ⟨dns, h, rfl⟩
  | cons datagram _ ih => exact ih (step dns datagram.data h)

lemma Dns.deliver_resolution (dns : Dns) (post : Net) :
    (dns.deliver post).resolution = dns.resolution := by
  have step (last : Dns) (data : List UInt8) (eq : last.resolution = dns.resolution) :
    (last.recv data).resolution = dns.resolution := by
    unfold recv
    split <;> exact eq
  obtain ⟨last, eq, delivered⟩ := deliver_keeps step rfl post
  rw [delivered]
  exact eq

lemma bindings_invariant (bindings : Fin 16 → UdpBinding) (next : Nat) :
    StackInvariant (fun net => net.bindings = bindings ∧ net.ephemeralNext = next)
      fun _ => True where
  faults _ := id
  alloc holds := ⟨trivial, holds⟩
  free _ := id
  ipId _ := id
  received _ := id

lemma netifRx_bindings (bindings : Fin 16 → UdpBinding) (next fuel : Nat) :
    Receives (fun net => net.bindings = bindings ∧ net.ephemeralNext = next) (fun _ => True)
      (netifRx fuel) :=
  StackInvariant.netifRx_keeps (fun _ : Unit => bindings_invariant bindings next)
    (fun _ receives _ => (bindings_invariant bindings next).tcpInput_keeps (receives ())
      fun _ _ => id) fuel ()

lemma udpOutput_bindings {src srcPort dst dstPort len : Nat} {data : Option (List UInt8)}
    {out : Int × Net}
    (ret : udpOutput (netifRx fuel) src srcPort dst dstPort data len net = some out) :
    out.2.bindings = net.bindings ∧ out.2.ephemeralNext = net.ephemeralNext := by
  have inv := bindings_invariant net.bindings net.ephemeralNext
  have keeps : Ensures (fun post => post.bindings = net.bindings ∧
    post.ephemeralNext = net.ephemeralNext)
    (udpOutput (netifRx fuel) src srcPort dst dstPort data len) fun _ post =>
      post.bindings = net.bindings ∧ post.ephemeralNext = net.ephemeralNext := by
    refine (inv.netbufOf_provides _).bind (Ensures.pure fun _ => id) fun nb isOwned => ?_
    exact inv.ipv4Output_keeps (netifRx_bindings _ _ fuel) isOwned _ _ _ _
  exact keeps net ⟨rfl, rfl⟩ out ret

lemma Dns.owned_update (net : Net) (i : Fin 16) (binding : UdpBinding) :
    owned { net with bindings := update net.bindings i binding } +
        (if (net.bindings i).inUse ∧ (net.bindings i).ctx = dnsCtx then 1 else 0) =
      owned net + if binding.inUse ∧ binding.ctx = dnsCtx then 1 else 0 := by
  have split (bindings : Fin 16 → UdpBinding) : owned { net with bindings } =
    (if (bindings i).inUse ∧ (bindings i).ctx = dnsCtx then 1 else 0) + ∑ j ∈ Finset.univ.erase i,
        if (bindings j).inUse ∧ (bindings j).ctx = dnsCtx then 1 else 0 :=
    (Finset.add_sum_erase _ _ (Finset.mem_univ i)).symm
  have others : ∀ j ∈ Finset.univ.erase i, update net.bindings i binding j = net.bindings j :=
    fun j mem => update_of_ne (Finset.ne_of_mem_erase mem) _ _
  have eq : owned net = owned { net with bindings := net.bindings } := rfl
  rw [split, eq, split, update_self]
  rw [Finset.sum_congr rfl fun j mem => by rw [others j mem]]
  omega

structure Dns.Accounted (dns : Dns) : Prop where
  nextId : dns.nextId = (0x1000 + dns.calls) % 2 ^ 16
  low : 49152 ≤ dns.net.ephemeralNext
  high : dns.net.ephemeralNext < 65536
  owned : Dns.owned dns.net + dns.unbound = dns.sent
  answered : dns.answered + dns.waiting.toNat ≤ dns.sent

lemma Dns.Accounted.deliver (ha : ({ dns with net } : Dns).Accounted) (post : Net) :
    ({ dns.deliver post with net } : Dns).Accounted := by
  have step (last : Dns) (data : List UInt8) (holds : ({ last with net } : Dns).Accounted) :
    ({ last.recv data with net } : Dns).Accounted := by
    unfold recv
    split
    · exact holds
    · exact { holds with answered := holds.answered }
  obtain ⟨last, holds, delivered⟩ := deliver_keeps step ha post
  rw [delivered]
  exact holds

lemma Dns.Accounted.delivered
    (ha : ({ dns with net := post } : Dns).Accounted) : (dns.deliver post).Accounted :=
  ha.deliver post

lemma Dns.owned_congr (eq : post.bindings = net.bindings) : owned post = owned net := by
  rw [owned, owned, eq]

lemma Dns.udpUnbind_udpBind {net : Net} {port : Nat} (free : ¬net.Taken port) :
    ∃ rc hb, udpBind 0 port dnsCtx net = some (rc, hb) ∧ hb.ephemeralNext = net.ephemeralNext ∧
      owned hb = owned net + (if rc = 0 then 1 else 0) ∧
      ∀ sent : Net, sent.bindings = hb.bindings → ∃ post, udpUnbind 0 port sent = some ((), post) ∧
          post.ephemeralNext = sent.ephemeralNext ∧ owned post = owned net := by
  obtain failed | ⟨i, hc, run⟩ := udpBind_cases 0 port dnsCtx net
  · refine ⟨-1, net, failed, rfl, by simp, fun sent eq => ?_⟩
    have sentFree : ¬sent.Taken port := by rwa [Net.Taken, eq]
    exact ⟨sent, udpUnbind_of_not_taken sentFree 0, rfl, owned_congr eq⟩
  have grown := owned_update net i ⟨true, 0, port, dnsCtx⟩
  simp only [hc, Bool.false_eq_true, false_and, if_false, true_and, if_true] at grown
  refine ⟨0, _, run, rfl, by simpa using grown, fun sent eq => ?_⟩
  dsimp only at eq
  cases hf : (List.finRange 16).find? fun j => (sent.bindings j).inUse &&
      (sent.bindings j).localPort == port && (sent.bindings j).localIp == 0 with
  | none =>
    have absent := List.find?_eq_none.mp hf i (List.mem_finRange i)
    simp [eq] at absent
  | some j =>
    have isBinding := List.find?_some hf
    simp only [Bool.and_eq_true, beq_iff_eq] at isBinding
    -- no other binding uses the port
    have isNew : j = i := by
      by_contra o
      rw [eq, update_of_ne o] at isBinding
      exact free ⟨j, isBinding.1⟩
    subst isNew
    have isOurs : (sent.bindings j).ctx = dnsCtx := by rw [eq, update_self]
    have total : owned sent = owned net + 1 := by
      rw [← grown, Nat.add_zero]
      exact owned_congr eq
    have shrunk := owned_update sent j { sent.bindings j with inUse := false }
    simp only [isBinding.1.1, isOurs, Bool.false_eq_true, false_and, if_false, true_and,
      if_true, total] at shrunk
    refine ⟨_, ?_, ?_, Nat.add_right_cancel shrunk⟩
    · simp only [udpUnbind, modify_apply, hf, isOurs]
    · rfl

lemma Dns.Accounted.resolve (ha : dns.Accounted) {server : Nat}
    {name : List UInt8} {out done : Option Nat} {outcome : Int × Dns}
    (ret : dns.resolve (netifRx fuel) server name out done = some outcome) :
    outcome.2.Accounted ∧ (outcome.1 = 0 → outcome.2.resolution = ⟨dns.nextId, out, done⟩) := by
  obtain ⟨nextId, low, high, owned, answered⟩ := ha
  have nextId' : (dns.nextId + 1) % 2 ^ 16 = (0x1000 + (dns.calls + 1)) % 2 ^ 16 := by omega
  have answered' : dns.answered ≤ dns.sent := (Nat.le_add_right _ _).trans answered
  unfold Dns.resolve at ret
  cases built : dnsBuildQuery dns.nextId name with
  | none =>
    simp only [built] at ret
    cases ret
    exact ⟨⟨nextId', low, high, owned, answered⟩, fun hf => by simp at hf⟩
  | some =>
    obtain ⟨port, next, searched, nextLow, nextHigh, -, -, free⟩ := udpEphemeralPort_finds low high
    obtain ⟨bindRc, hb, bindRun, boundNext, boundOwned, unbind⟩ :=
      @udpUnbind_udpBind { dns.net with ephemeralNext := next } port (Net.taken_next.not.mpr free)
    simp only [built, searched, bind_eq_bind, bind_some, bindRun] at ret
    obtain ⟨⟨rc, sentNet⟩, output, ret⟩ := bind_eq_some_iff.mp ret
    obtain ⟨sameBinds, sameNext⟩ := udpOutput_bindings output
    obtain ⟨post, released, afterNext, afterOwned⟩ := unbind sentNet sameBinds
    have kept : Dns.owned { dns.net with ephemeralNext := next } = Dns.owned dns.net := rfl
    dsimp only at ret sameNext boundNext
    split at ret
    · simp only [released, bind_some] at ret
      cases ret
      refine ⟨Dns.Accounted.deliver ?_ _, fun hf => by simp at hf⟩
      refine ⟨nextId', ?_, ?_, ?_, answered'⟩
      · rwa [afterNext, sameNext, boundNext]
      · rwa [afterNext, sameNext, boundNext]
      · exact (congrArg (· + dns.unbound) (afterOwned.trans kept)).trans owned
    cases ret
    refine ⟨Dns.Accounted.delivered ?_, fun _ => deliver_resolution _ _⟩
    refine ⟨nextId', ?_, ?_, ?_, Nat.succ_le_succ answered'⟩
    · rwa [sameNext, boundNext]
    · rwa [sameNext, boundNext]
    simp only [owned_congr sameBinds, boundOwned, kept]
    split <;> omega

lemma DnsReachable.accounted (hr : DnsReachable dns) : dns.Accounted := by
  induction hr with
  | boot low high none => exact ⟨rfl, low, high, (Nat.add_zero _).trans none, Nat.zero_le _⟩
  | resolve _ _ _ _ _ _ ret ih => exact (ih.resolve ret).1
  | @frame dns fuel nb outcome _ ret ih =>
    obtain ⟨sameBinds, sameNext⟩ := netifRx_bindings dns.net.bindings dns.net.ephemeralNext
      fuel nb trivial dns.net ⟨rfl, rfl⟩ outcome ret
    refine Dns.Accounted.delivered ⟨ih.nextId, ?_, ?_, ?_, ih.answered⟩
    · exact sameNext ▸ ih.low
    · exact sameNext ▸ ih.high
    · exact (congrArg (· + dns.unbound) (Dns.owned_congr sameBinds)).trans ih.owned

/-- As `DnsReachable`, with a free entry in the table of bindings whenever `dns_resolve` is
called, and without a response to the query among the datagrams that arrive. -/
inductive DnsUnanswered : Dns → Prop
  | boot {net : Net} : 49152 ≤ net.ephemeralNext → net.ephemeralNext < 65536 →
      Dns.owned net = 0 → DnsUnanswered (Dns.boot net)
  | resolve {dns : Dns} (fuel server : Nat) (name : List UInt8) (out done : Option Nat)
      {outcome : Int × Dns} : DnsUnanswered dns →
      (∃ i, (dns.net.bindings i).inUse = false) →
      dns.resolve (netifRx fuel) server name out done = some outcome →
      (∀ datagram ∈ dns.arrivals outcome.2.net,
        dnsParseResponse datagram.data dns.nextId = none) → DnsUnanswered outcome.2
  | frame {dns : Dns} (fuel : Nat) (nb : Netbuf) {outcome : Unit × Net} : DnsUnanswered dns →
      netifRx fuel nb dns.net = some outcome →
      (∀ datagram ∈ dns.arrivals outcome.2,
        dnsParseResponse datagram.data dns.resolution.id = none) →
      DnsUnanswered (dns.deliver outcome.2)

lemma DnsUnanswered.reachable (careful : DnsUnanswered dns) : DnsReachable dns := by
  induction careful with
  | boot low high none => exact .boot low high none
  | resolve fuel server name out done _ _ ret _ ih =>
    exact .resolve fuel server name out done ih ret
  | frame fuel nb _ ret _ ih => exact .frame fuel nb ih ret

lemma Dns.deliver_of_none (none : ∀ datagram ∈ dns.arrivals post,
    dnsParseResponse datagram.data dns.resolution.id = none) :
    dns.deliver post = { dns with net := post } := by
  unfold deliver
  generalize dns.arrivals post = datagrams at none
  induction datagrams with
  | nil => rfl
  | cons datagram datagrams ih =>
    have ignored : dns.recv datagram.data = dns := by
      rw [recv, none datagram List.mem_cons_self]
    rw [List.foldl_cons, ignored]
    exact ih fun other mem => none other (List.mem_cons_of_mem _ mem)

lemma udpBind_of_free {port : Nat} (free : ¬net.Taken port)
    (entry : ∃ i, (net.bindings i).inUse = false) (localIp ctx : Nat) :
    ∃ post, udpBind localIp port ctx net = some (0, post) := by
  have noDuplicate : ¬(List.finRange 16).any fun i => (net.bindings i).inUse &&
      (net.bindings i).localPort == port && (net.bindings i).localIp == localIp := by
    simp only [List.any_eq_true, Bool.and_eq_true, beq_iff_eq]
    exact fun ⟨i, _, taken, _⟩ => free ⟨i, taken⟩
  simp only [udpBind, PartialAction.bind_apply, get_apply, Option.bind_some]
  rw [if_neg noDuplicate]
  cases found : (List.finRange 16).find? fun i => !(net.bindings i).inUse with
  | none =>
    obtain ⟨i, unused⟩ := entry
    exact absurd unused (by simpa using List.find?_eq_none.mp found i (List.mem_finRange i))
  | some i => exact ⟨_, rfl⟩

/-- A call in such a run binds the port of its query and gets no response. -/
lemma Dns.resolve_unanswered (ha : dns.Accounted) (entry : ∃ i, (dns.net.bindings i).inUse = false)
    {server : Nat} {name : List UInt8} {out done : Option Nat} {outcome : Int × Dns}
    (ret : dns.resolve (netifRx fuel) server name out done = some outcome)
    (none : ∀ datagram ∈ dns.arrivals outcome.2.net,
      dnsParseResponse datagram.data dns.nextId = none) :
    outcome.2.unbound = dns.unbound ∧ outcome.2.answered = dns.answered := by
  unfold Dns.resolve at ret
  cases built : dnsBuildQuery dns.nextId name with
  | none =>
    simp only [built] at ret
    cases ret
    exact ⟨rfl, rfl⟩
  | some =>
    obtain ⟨port, next, searched, -, -, -, -, free⟩ := udpEphemeralPort_finds ha.low ha.high
    obtain ⟨boundNet, bound⟩ := @udpBind_of_free { dns.net with ephemeralNext := next } port
      (Net.taken_next.not.mpr free) entry 0 dnsCtx
    simp only [built, searched, bind_eq_bind, bind_some, bound] at ret
    obtain ⟨⟨rc, sentNet⟩, -, ret⟩ := bind_eq_some_iff.mp ret
    dsimp only at ret
    split at ret
    · obtain ⟨⟨-, post⟩, -, ret⟩ := bind_eq_some_iff.mp ret
      cases ret
      -- the query is over, so that a response would not count
      have step (last : Dns) (data : List UInt8) (same : last.unbound = dns.unbound ∧
          last.answered = dns.answered ∧ last.waiting = false) :
          (last.recv data).unbound = dns.unbound ∧ (last.recv data).answered = dns.answered ∧
            (last.recv data).waiting = false := by
        unfold recv
        split
        · exact same
        · exact ⟨same.1, by simpa [same.2.2] using same.2.1, rfl⟩
      have kept (later : Dns) (same : later.unbound = dns.unbound ∧
          later.answered = dns.answered ∧ later.waiting = false) :
          (later.deliver sentNet).unbound = dns.unbound ∧
            (later.deliver sentNet).answered = dns.answered := by
        obtain ⟨last, same, delivered⟩ := deliver_keeps step same sentNet
        rw [delivered]
        exact ⟨same.1, same.2.1⟩
      exact kept _ ⟨rfl, rfl, rfl⟩
    · cases ret
      rw [Dns.deliver_of_none none]
      exact ⟨rfl, rfl⟩

/-- No more bindings than unanswered queries, and no query without a binding. -/
theorem bindings_le_unanswered (careful : DnsUnanswered dns) :
    Dns.owned dns.net ≤ dns.sent - dns.answered ∧ dns.unbound = 0 := by
  have counts : dns.unbound = 0 ∧ dns.answered = 0 := by
    induction careful with
    | boot => exact ⟨rfl, rfl⟩
    | resolve _ _ _ _ _ before entry ret none ih =>
      obtain ⟨unbound, answered⟩ :=
        Dns.resolve_unanswered before.reachable.accounted entry ret none
      exact ⟨unbound.trans ih.1, answered.trans ih.2⟩
    | frame _ _ _ _ none ih =>
      rw [Dns.deliver_of_none none]
      exact ih
  have := careful.reachable.accounted.owned
  omega

def dnsAnswer (id : Nat) : List UInt8 :=
  be16 id ++ be16 0x8000 ++ be16 0 ++ be16 1 ++ be32 0 ++
    ([0] ++ be16 1 ++ be16 1 ++ be32 0 ++ be16 4 ++ [1, 2, 3, 4])

def dnsRun : Option Dns :=
  ((Dns.boot netInit).resolve (netifRx 1) ipAddrLoopback [97] (some 0) (some 0)).bind fun sent =>
    (netifRx 1 ⟨0, 64, ipv4Frame 0 ipAddrLoopback ipAddrLoopback 17 64
      (udpMessage 53 49152 27 (dnsAnswer 0x1000) 0), 0⟩ sent.2.net).map fun received =>
        sent.2.deliver received.2

/-- A query, and then a response to another one. -/
def strayRun : Option (Dns × Net) :=
  ((Dns.boot netInit).resolve (netifRx 1) ipAddrLoopback [97] (some 0) (some 0)).bind fun sent =>
    (netifRx 1 ⟨0, 64, ipv4Frame 0 ipAddrLoopback ipAddrLoopback 17 64
      (udpMessage 53 49152 27 (dnsAnswer 0x1001) 0), 0⟩ sent.2.net).map fun received =>
        (sent.2, received.2)

theorem bindings_le_unanswered_stray : ∃ dns, DnsUnanswered dns ∧ dns.sent = 1 ∧
    Dns.owned dns.net = 1 ∧ Dns.owned dns.net ≤ dns.sent - dns.answered ∧ dns.unbound = 0 := by
  have seen : strayRun.map (fun (sent, net) =>
      (((Dns.boot netInit).arrivals sent.net).length, (sent.arrivals net).map fun datagram =>
        dnsParseResponse datagram.data sent.resolution.id, (sent.deliver net).sent,
        Dns.owned (sent.deliver net).net)) = some (0, [none], 1, 1) := by decide +kernel
  obtain ⟨⟨_, net⟩, run, counts⟩ := map_eq_some_iff.mp seen
  unfold strayRun at run
  obtain ⟨sent, resolved, run⟩ := bind_eq_some_iff.mp run
  obtain ⟨received, ret, isRun⟩ := map_eq_some_iff.mp run
  cases isRun
  simp only [Prod.mk.injEq, List.length_eq_zero_iff] at counts
  obtain ⟨early, late, isSent, isOwned⟩ := counts
  have booted : DnsUnanswered (Dns.boot netInit) :=
    .boot (by decide) (by decide) (by decide +kernel)
  have asked := booted.resolve 1 _ _ _ _ ⟨0, by decide +kernel⟩ resolved
    (by simp [early])
  have careful := asked.frame 1 _ ret fun datagram mem =>
    List.mem_singleton.mp (late ▸ List.mem_map_of_mem mem)
  exact ⟨_, careful, isSent, isOwned, bindings_le_unanswered careful⟩

/-- The query is answered, and its port remains bound. -/
theorem binding_outlives_answer :
    ∃ dns, DnsReachable dns ∧ (dns.sent, dns.answered, Dns.owned dns.net) = (1, 1, 1) := by
  have seen : dnsRun.map (fun dns => (dns.sent, dns.answered, Dns.owned dns.net)) =
    some (1, 1, 1) := by decide +kernel
  obtain ⟨dns, run, counts⟩ := map_eq_some_iff.mp seen
  unfold dnsRun at run
  obtain ⟨sent, resolved, run⟩ := bind_eq_some_iff.mp run
  obtain ⟨received, ret, rfl⟩ := map_eq_some_iff.mp run
  have booted : DnsReachable (Dns.boot netInit) := .boot (by decide) (by decide) (by decide +kernel)
  exact ⟨_, .frame 1 _ (.resolve 1 _ _ _ _ booted resolved) ret, counts⟩

lemma Dns.sets_iff (dns : Dns) (data : List UInt8) :
    dns.Sets data ↔ dnsParseResponse data dns.resolution.id ≠ none ∧
      (dns.resolution.out ≠ none ∨ dns.resolution.done ≠ none) := by
  have stored (cells : Nat → Nat) (ptr : Option Nat) (val : Nat)
    (changed : store cells ptr val ≠ cells) : ptr ≠ none := by
    rintro rfl
    exact changed rfl
  unfold Sets recv
  cases parsed : dnsParseResponse data dns.resolution.id with
  | none => simp [parsed]
  | some addr =>
    simp only [parsed, ne_eq, reduceCtorEq, not_false_iff, true_and]
    constructor
    · rintro ⟨addresses, fl, changed | changed⟩
      · exact .inl (stored _ _ _ changed)
      · exact .inr (stored _ _ _ changed)
    have hw {ptr : Option Nat} (given : ¬ptr = none) (val : Nat) :
      store (fun _ => val + 1) ptr val ≠ fun _ => val + 1 := by
      obtain ⟨a, rfl⟩ := ne_none_iff_exists'.mp given
      intro eq
      have at_address := congrFun eq a
      simp [store] at at_address
    exact fun given => ⟨_, _, given.imp (hw · addr) (hw · 1)⟩

/-- Only answers to the current query are taken, exactly if its identifier is not 0. -/
theorem resolve_matches_iff {dns : Dns} (hr : DnsReachable dns) {fuel server : Nat}
    {name : List UInt8} {out done : Option Nat} {post : Dns}
    (returned : dns.resolve (netifRx fuel) server name out done = some (0, post)) :
    (∀ data, post.Sets data → getBe16 data 0 = dns.nextId) ↔
      ((0x1000 + dns.calls) % 2 ^ 16 ≠ 0 ∨ out = none ∧ done = none) := by
  have resolution := (hr.accounted.resolve returned).2 rfl
  dsimp only at resolution
  simp only [Dns.sets_iff, resolution, ← hr.accounted.nextId]
  constructor
  · intro only
    by_contra zero
    push Not at zero
    have pointers : out ≠ none ∨ done ≠ none := by
      by_contra null
      push Not at null
      exact zero.2 null.1 null.2
    have wrong := only (dnsAnswer 1) ⟨by rw [zero.1]; decide, pointers⟩
    rw [zero.1] at wrong
    exact absurd wrong (by decide)
  rintro (nonzero | ⟨rfl, rfl⟩) data ⟨parses, pointers⟩
  · by_contra o
    exact parses (if_pos (.inr (.inl ⟨nonzero, o⟩)))
  · simp at pointers

/-- The state after a number of calls for the name ".", which has an empty label. -/
def afterFailures (cnt : Nat) : Dns :=
  { Dns.boot netInit with nextId := (0x1000 + cnt) % 2 ^ 16, calls := cnt }

lemma afterFailures_reachable (cnt : Nat) : DnsReachable (afterFailures cnt) := by
  induction cnt with
  | zero => exact .boot (by decide) (by decide) (by decide +kernel)
  | succ cnt ih =>
    have hf : (afterFailures cnt).resolve (netifRx 0) 0 [46] none none =
      some (-1, afterFailures (cnt + 1)) := by
      simp [afterFailures, Dns.resolve, dnsBuildQuery, dnsEncodeName, Dns.boot, Nat.add_assoc]
    exact .resolve 0 0 [46] none none ih hf

theorem first_resolve_matches :
    ∃ post, (Dns.boot netInit).resolve (netifRx 1) ipAddrLoopback [97] (some 0) (some 0) =
        some (0, post) ∧ ∀ data, post.Sets data → getBe16 data 0 = 0x1000 := by
  have seen : ((Dns.boot netInit).resolve (netifRx 1) ipAddrLoopback [97] (some 0) (some 0)).map
    Prod.fst = some 0 := by decide +kernel
  obtain ⟨⟨rc, post⟩, ret, rfl⟩ := map_eq_some_iff.mp seen
  exact ⟨post, ret, (resolve_matches_iff (afterFailures_reachable 0) ret).mpr (.inl (by decide))⟩

/-- After 61440 calls the identifier is 0, and the answer to another query is taken. -/
theorem any_answer_taken :
    ∃ post, (afterFailures 61440).resolve (netifRx 1) ipAddrLoopback [97] (some 0) (some 0) =
        some (0, post) ∧ (post.flags 0, (post.recv (dnsAnswer 1)).flags 0) = (0, 1) := by
  have seen : ((afterFailures 61440).resolve (netifRx 1) ipAddrLoopback [97] (some 0)
    (some 0)).map (fun outcome =>
      (outcome.1, outcome.2.flags 0, (outcome.2.recv (dnsAnswer 1)).flags 0)) =
    some (0, 0, 1) := by decide +kernel
  obtain ⟨⟨rc, post⟩, ret, fl⟩ := map_eq_some_iff.mp seen
  obtain ⟨rfl, fl⟩ := Prod.mk.inj fl
  exact ⟨post, ret, fl⟩

end

section Dns

variable (buf : List UInt8) {off next e r b fuel : Nat}

def readByte (off : Nat) : Option Nat := buf[off]?.map UInt8.toNat

def readBe16 (off : Nat) : Option Nat := do
  return (← readByte buf off) * 2 ^ 8 + (← readByte buf (off + 1))

def readBe32 (off : Nat) : Option Nat := do
  return (← readBe16 buf off) * 2 ^ 16 + (← readBe16 buf (off + 2))

def dnsSkipNameChecked : Nat → Nat → Option Nat
  | 0, _ => none
  | fuel + 1, off =>
    if buf.length ≤ off then some 0
    else do
      let b ← readByte buf off
      if b = 0 then some (off + 1)
      else if b &&& 0xC0 = 0xC0 then some (off + 2)
      else if b &&& 0xC0 ≠ 0 then some 0
      else dnsSkipNameChecked fuel (off + (1 + b))

def dnsSkipQuestionsChecked : Nat → Nat → Option (Option Nat)
  | 0, off => some (some off)
  | questions + 1, off => do
    let off ← dnsSkipNameChecked buf (buf.length + 1) off
    if off = 0 ∨ buf.length < off + 4 then some none
    else dnsSkipQuestionsChecked questions (off + 4)

def dnsFindAddressChecked : Nat → Nat → Option (Option Nat)
  | 0, _ => some none
  | answers + 1, off => do
    let off ← dnsSkipNameChecked buf (buf.length + 1) off
    if off = 0 ∨ buf.length < off + 10 then some none
    else
      let type ← readBe16 buf off
      let rdlen ← readBe16 buf (off + 8)
      if buf.length < off + 10 + rdlen then some none
      else if type = 1 ∧ rdlen = 4 then return some (← readBe32 buf (off + 10))
      else dnsFindAddressChecked answers (off + 10 + rdlen)

/-- `dns_parse_response` with its result and what is at `out`, which may be null. -/
def dnsParseResponseChecked (matchId : Nat) (out : Option Nat) : Option (Nat × Option Nat) :=
  if buf.length < 12 then some (0, out)
  else do
    let id ← readBe16 buf 0
    let flags ← readBe16 buf 2
    if matchId ≠ 0 ∧ id ≠ matchId ∨ flags &&& 0x8000 = 0 ∨ flags &&& 0xF ≠ 0 then some (0, out)
    else
      let questions ← readBe16 buf 4
      let answers ← readBe16 buf 6
      if answers = 0 then some (0, out)
      else
        let some off ← dnsSkipQuestionsChecked buf questions 12 | some (0, out)
        let some r ← dnsFindAddressChecked buf answers off | some (0, out)
        some (1, out.map fun _ => r)

inductive NameEnds : Nat → Nat → Prop
  | zero {off : Nat} : buf[off]? = some 0 → NameEnds off (off + 1)
  | pointer {off : Nat} {b : UInt8} : buf[off]? = some b → 192 ≤ b.toNat → NameEnds off (off + 2)
  | label {off next : Nat} {b : UInt8} : buf[off]? = some b → 0 < b.toNat → b.toNat < 64 →
      NameEnds (off + (1 + b.toNat)) next → NameEnds off next

inductive Questions : Nat → Nat → Nat → Prop
  | nil {off : Nat} : Questions 0 off off
  | cons {questions off e next : Nat} : NameEnds buf off e → e + 4 ≤ buf.length →
      Questions questions (e + 4) next → Questions (questions + 1) off next

/-- Records up to the first one of type A with four bytes of data, which are `r`. -/
inductive FirstAddress : Nat → Nat → Nat → Prop
  | found {answers off e : Nat} : NameEnds buf off e → e + 14 ≤ buf.length →
      getBe16 buf e = 1 → getBe16 buf (e + 8) = 4 →
      FirstAddress (answers + 1) off (getBe32 buf (e + 10))
  | skip {answers off e r : Nat} : NameEnds buf off e → e + 10 + getBe16 buf (e + 8) ≤ buf.length →
      ¬ (getBe16 buf e = 1 ∧ getBe16 buf (e + 8) = 4) →
      FirstAddress answers (e + 10 + getBe16 buf (e + 8)) r → FirstAddress (answers + 1) off r

structure DnsResponse (matchId r : Nat) : Prop where
  header : 12 ≤ buf.length
  id : matchId = 0 ∨ getBe16 buf 0 = matchId
  response : getBe16 buf 2 &&& 0x8000 ≠ 0
  rcode : getBe16 buf 2 &&& 0xF = 0
  body : ∃ off, Questions buf (getBe16 buf 4) 12 off ∧ FirstAddress buf (getBe16 buf 6) off r

variable {buf}

lemma readByte_of_lt (lt : off < buf.length) : readByte buf off = some (buf.getD off 0).toNat := by
  simp [readByte, List.getElem?_eq_getElem lt]

lemma readBe16_of_le (le : off + 2 ≤ buf.length) : readBe16 buf off = some (getBe16 buf off) := by
  rw [readBe16, readByte_of_lt (by omega), readByte_of_lt (by omega)]
  rfl

lemma readBe32_of_le (le : off + 4 ≤ buf.length) : readBe32 buf off = some (getBe32 buf off) := by
  rw [readBe32, readBe16_of_le (by omega), readBe16_of_le (by omega)]
  rfl

lemma dnsSkipNameChecked_eq (pos : 0 < fuel) (enough : buf.length < off + fuel) :
    dnsSkipNameChecked buf fuel off = some (dnsSkipName buf fuel off) := by
  induction fuel generalizing off with
  | zero => exact absurd pos (lt_irrefl 0)
  | succ _ ih =>
    rw [dnsSkipNameChecked, dnsSkipName]
    split
    · rfl
    rename_i hi
    rw [readByte_of_lt (not_le.mp hi), Option.bind_eq_bind, Option.bind_some]
    split_ifs
    · rfl
    · rfl
    · rfl
    · exact ih (by omega) (by omega)

lemma dnsSkipQuestionsChecked_eq (questions : Nat) :
    dnsSkipQuestionsChecked buf questions off = some (dnsSkipQuestions buf questions off) := by
  induction questions generalizing off with
  | zero => rfl
  | succ _ ih =>
    rw [dnsSkipQuestionsChecked, dnsSkipQuestions,
      dnsSkipNameChecked_eq (Nat.succ_pos _) (by omega), Option.bind_eq_bind, Option.bind_some]
    split_ifs
    · rfl
    · exact ih

lemma dnsFindAddressChecked_eq (answers : Nat) :
    dnsFindAddressChecked buf answers off = some (dnsFindAddress buf answers off) := by
  induction answers generalizing off with
  | zero => rfl
  | succ _ ih =>
    rw [dnsFindAddressChecked, dnsFindAddress,
      dnsSkipNameChecked_eq (Nat.succ_pos _) (by omega), Option.bind_eq_bind, Option.bind_some]
    generalize dnsSkipName buf (buf.length + 1) off = e
    by_cases short : e = 0 ∨ buf.length < e + 10
    · rw [if_pos short, if_pos (short.imp_right .inl)]
    rw [if_neg short]
    obtain ⟨nonzero, fits⟩ := not_or.mp short
    rw [readBe16_of_le (by omega), readBe16_of_le (by omega)]
    simp only [Option.bind_some, nonzero, fits, false_or]
    split_ifs with past isAddr
    · rfl
    · rw [readBe32_of_le (by omega)]
      rfl
    · exact ih

lemma and_192_eq_iff : ∀ b < 256, (b &&& 0xC0 = 0xC0 ↔ 192 ≤ b) ∧ (b &&& 0xC0 = 0 ↔ b < 64) := by
  decide +kernel

lemma nameEnds_iff : NameEnds buf off next ↔ ∃ b : UInt8, buf[off]? = some b ∧
    (b = 0 ∧ next = off + 1 ∨ 192 ≤ b.toNat ∧ next = off + 2 ∨
      0 < b.toNat ∧ b.toNat < 64 ∧ NameEnds buf (off + (1 + b.toNat)) next) := by
  constructor
  · intro ends
    cases ends with
    | zero read => exact ⟨0, read, .inl ⟨rfl, rfl⟩⟩
    | pointer read large => exact ⟨_, read, .inr (.inl ⟨large, rfl⟩)⟩
    | label read pos small rest => exact ⟨_, read, .inr (.inr ⟨pos, small, rest⟩)⟩
  rintro ⟨b, read, ⟨rfl, rfl⟩ | ⟨large, rfl⟩ | ⟨pos, small, rest⟩⟩
  · exact .zero read
  · exact .pointer read large
  · exact .label read pos small rest

lemma dnsSkipName_iff (pos : 0 < fuel) (enough : buf.length < off + fuel) :
    dnsSkipName buf fuel off = next ∧ next ≠ 0 ↔ NameEnds buf off next := by
  induction fuel generalizing off with
  | zero => exact absurd pos (lt_irrefl 0)
  | succ _ ih =>
    rw [dnsSkipName, nameEnds_iff]
    cases read : buf[off]? with
    | none =>
      rw [if_pos (List.getElem?_eq_none_iff.mp read)]
      simp +contextual [eq_comm]
    | some =>
      obtain ⟨hi, rfl⟩ := List.getElem?_eq_some_iff.mp read
      obtain ⟨pointer, label⟩ := and_192_eq_iff _ buf[off].toNat_lt
      have rest : _ ↔ NameEnds buf (off + (1 + buf[off].toNat)) next := ih (by omega) (by omega)
      simp only [List.getD_eq_getElem _ _ hi, not_le.mpr hi, if_false, pointer, label, ne_eq,
        Option.some.injEq, exists_eq_left']
      rw [← rest, ← UInt8.toNat_inj]
      split_ifs <;> grind

lemma dnsSkipQuestions_iff (questions : Nat) :
    dnsSkipQuestions buf questions off = some next ↔ Questions buf questions off next := by
  induction questions generalizing off with
  | zero =>
    constructor
    · rintro ⟨rfl⟩
      exact .nil
    rintro ⟨⟩
    rfl
  | succ _ ih =>
    have ends : ∀ e, dnsSkipName buf (buf.length + 1) off = e ∧ e ≠ 0 ↔ NameEnds buf off e :=
      fun e => dnsSkipName_iff (by omega) (by omega)
    rw [dnsSkipQuestions]
    constructor
    · intro found
      split_ifs at found with short
      obtain ⟨nonzero, fits⟩ := not_or.mp short
      exact .cons ((ends _).mp ⟨rfl, nonzero⟩) (not_lt.mp fits) (ih.mp found)
    rintro (_ | ⟨name, fits, rest⟩)
    obtain ⟨rfl, nonzero⟩ := (ends _).mpr name
    rw [if_neg (not_or.mpr ⟨nonzero, not_lt.mpr fits⟩)]
    exact ih.mpr rest

lemma dnsFindAddress_iff (answers : Nat) :
    dnsFindAddress buf answers off = some r ↔ FirstAddress buf answers off r := by
  induction answers generalizing off with
  | zero =>
    constructor
    · rintro ⟨⟩
    · rintro ⟨⟩
  | succ _ ih =>
    have ends : ∀ e, dnsSkipName buf (buf.length + 1) off = e ∧ e ≠ 0 ↔ NameEnds buf off e :=
      fun e => dnsSkipName_iff (by omega) (by omega)
    rw [dnsFindAddress]
    constructor
    · intro found
      split_ifs at found with short isAddr
      · obtain ⟨nonzero, _, fits⟩ := not_or.mp short |>.imp_right not_or.mp
        cases found
        exact .found ((ends _).mp ⟨rfl, nonzero⟩) (by omega) isAddr.1 isAddr.2
      obtain ⟨nonzero, _, fits⟩ := not_or.mp short |>.imp_right not_or.mp
      exact .skip ((ends _).mp ⟨rfl, nonzero⟩) (not_lt.mp fits) isAddr (ih.mp found)
    intro found
    cases found with
    | found name _ type rdlen =>
      obtain ⟨rfl, nonzero⟩ := (ends _).mpr name
      rw [if_neg (by omega), if_pos ⟨type, rdlen⟩]
    | skip name _ notAddress rest =>
      obtain ⟨rfl, nonzero⟩ := (ends _).mpr name
      rw [if_neg (by omega), if_neg notAddress]
      exact ih.mpr rest

lemma dnsParseResponse_iff (matchId : Nat) :
    dnsParseResponse buf matchId = some r ↔ DnsResponse buf matchId r := by
  rw [dnsParseResponse]
  constructor
  · intro found
    split_ifs at found with bad
    obtain ⟨off, skipped, found⟩ := Option.bind_eq_some_iff.mp found
    simp only [not_or, not_and_or, not_lt, not_not, ne_eq] at bad
    exact ⟨bad.1, bad.2.1, bad.2.2.1, bad.2.2.2.1, off, (dnsSkipQuestions_iff _).mp skipped,
      (dnsFindAddress_iff _).mp found⟩
  rintro ⟨header, id, response, rcode, off, questions, answers⟩
  have nonzero : getBe16 buf 6 ≠ 0 := by
    intro zero
    rw [zero] at answers
    cases answers
  rw [if_neg (by simp only [not_or, not_and_or, not_lt, not_not, ne_eq]
                 exact ⟨header, id, response, rcode, nonzero⟩),
    (dnsSkipQuestions_iff _).mpr questions]
  exact (dnsFindAddress_iff _).mpr answers

/-- Every read is in the buffer, the loops end, and what is accepted is a response. -/
theorem dnsParseResponse_correct (buf : List UInt8) (matchId : Nat) (out : Option Nat) :
    dnsParseResponseChecked buf matchId out = some ((dnsParseResponse buf matchId).elim (0, out)
      fun r => (1, out.map fun _ => r)) ∧
    ∀ r, dnsParseResponse buf matchId = some r ↔ DnsResponse buf matchId r := by
  refine ⟨?_, fun r => dnsParseResponse_iff matchId⟩
  rw [dnsParseResponseChecked, dnsParseResponse]
  by_cases short : buf.length < 12
  · rw [if_pos short, if_pos (.inl short)]
    rfl
  rw [if_neg short, readBe16_of_le (by omega), readBe16_of_le (by omega),
    readBe16_of_le (by omega), readBe16_of_le (by omega)]
  simp only [Option.bind_eq_bind, Option.bind_some, short, false_or, dnsSkipQuestionsChecked_eq,
    dnsFindAddressChecked_eq]
  by_cases bad : matchId ≠ 0 ∧ getBe16 buf 0 ≠ matchId ∨ getBe16 buf 2 &&& 0x8000 = 0 ∨
    getBe16 buf 2 &&& 0xF ≠ 0
  · rw [if_pos bad, if_pos (bad.imp_right fun h => h.imp_right .inl)]
    rfl
  by_cases none : getBe16 buf 6 = 0
  · rw [if_neg bad, if_pos none, if_pos (.inr (.inr (.inr none)))]
    rfl
  have good := not_or.mpr ⟨bad, none⟩
  rw [or_assoc, or_assoc] at good
  rw [if_neg bad, if_neg none, if_neg good]
  cases dnsSkipQuestions buf (getBe16 buf 4) 12 with
  | none => rfl
  | some off =>
    simp only [Option.bind_some]
    cases dnsFindAddress buf (getBe16 buf 6) off with
    | none => rfl
    | some => rfl

end Dns

end HnxKernel
