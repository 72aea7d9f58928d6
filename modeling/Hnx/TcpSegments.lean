import Hnx.NetBuffers

/-!
# Segments on the loopback interface

The listening control blocks bound the nested receptions.
-/

namespace HnxKernel

open Function PartialAction

def segFlags (nb : Netbuf) : Nat := (nb.bytes.getD 13 0).toNat

def segLen (nb : Netbuf) : Nat :=
  (nb.bytes.length % 2 ^ 16 + 2 ^ 16 - (nb.bytes.getD 12 0).toNat / 2 ^ 4 * 4) % 2 ^ 16

variable {rx : Netbuf → NetM Unit} {net : Net} {Value Result : Type}

def Returns (action : NetM Value) (net : Net) : Prop := (action net).isSome

lemma Returns.bind {action : NetM Value} {next : Value → NetM Result} (first : Returns action net)
    (r : ∀ val post, Returns (next val) post) : Returns (action >>= next) net := by
  obtain ⟨out, ret⟩ := Option.isSome_iff_exists.mp first
  rw [Returns, bind_apply, ret]
  exact r _ _

lemma Returns.get_bind {next : Net → NetM Value} (r : Returns (next net) net) :
    Returns (get >>= next) net :=
  r

lemma Returns.modify_bind {change : Net → Net} {next : PUnit → NetM Value}
    (r : Returns (next ⟨⟩) (change net)) : Returns (modify change >>= next) net :=
  r

lemma Returns.ite {condition : Prop} [Decidable condition] {yes no : NetM Value}
    (ifTrue : condition → Returns yes net) (ifFalse : ¬condition → Returns no net) :
    Returns (if condition then yes else no) net := by
  split
  · exact ifTrue ‹_›
  · exact ifFalse ‹_›

lemma Returns.pure (val : Value) : Returns (Pure.pure val) net := rfl

variable {nb copy : Netbuf} {src dst fl : Nat} {t : Fin 8}

lemma ipv4Output_returns (room : 34 ≤ nb.headroom) (src dst proto ttl : Nat)
    (received : ∀ copy post, (∃ id src dst, copy.bytes = ipv4Frame id src dst proto ttl nb.bytes) →
      post.tcbs = net.tcbs → Returns (rx copy) post) :
    Returns (ipv4Output rx nb src dst proto ttl) net := by
  by_cases up : net.up = true
  · rw [Returns, ipv4Output_of_up up room, loopbackTx, netbufAlloc, bind_apply]
    by_cases fails : Net.AllocFails { net with ipId := (net.ipId + 1) % 2 ^ 16 }
    · rw [netbufAllocHeadroom_of_fails fails]
      rfl
    rw [netbufAllocHeadroom_of_not_fails fails (by norm_num), Option.bind_some]
    refine Returns.bind (received _ _
      ⟨net.ipId, if src = 0 then ipAddrLoopback else src, dst, ?_⟩ rfl) fun _ _ => .pure _
    simp [Netbuf.put]
  have short : ¬nb.headroom < 20 := by omega
  have shortEth : ¬nb.headroom - 20 < 14 := by omega
  by_cases routed : (net.routes.any fun route => dst &&& route.2 == route.1 &&& route.2) = true
  · simp [Returns, ipv4Output, up, routed, ipv4Build, Netbuf.push, ipv4Header, be16, be32, short,
      ethBuild, ethZero, shortEth, netifTransmit, netbufFree]
    rfl
  simp only [Returns, ipv4Output, bind_apply, get_apply, Option.bind_some]
  rw [if_pos (by simp [up, routed])]
  rfl

lemma udpInput_returns (nb : Netbuf) (src dst : Nat) : Returns (udpInput nb src dst) net := by
  unfold Returns udpInput
  split <;> rfl

def ipInner (nb : Netbuf) : Netbuf :=
  let h := nb.bytes
  let hdrBytes := (h.getD 0 0).toNat % 2 ^ 4 * 4
  (if getBe16 h 2 < hdrBytes ∨ getBe16 h 2 > h.length then nb
    else nb.trim (getBe16 h 2)).pull hdrBytes

lemma ipv4Input_returns (icmp : (nb.bytes.getD 9 0).toNat = 1 →
      ∀ src dst, Returns (icmpInput rx (ipInner nb) src dst) net)
    (tcp : (nb.bytes.getD 9 0).toNat = 6 →
      ∀ src dst, Returns (tcpInput rx (ipInner nb) src dst) net) : Returns (ipv4Input rx nb)
        net := by
  unfold ipv4Input
  dsimp only
  split
  · rfl
  split
  case h_1 proto => exact icmp proto _ _
  case h_2 => exact udpInput_returns _ _ _
  case h_3 proto => exact tcp proto _ _
  case h_4 => rfl

lemma Netbuf.bytes_trim (nb : Netbuf) (len : Nat) : (nb.trim len).bytes = nb.bytes.take len := by
  unfold trim
  split
  · rfl
  · exact (List.take_of_length_le (by omega)).symm

lemma ipInner_frame {id proto ttl : Nat} {payload : List UInt8}
    (f : nb.bytes = ipv4Frame id src dst proto ttl payload) :
    getBe16 nb.bytes 12 = 0x0800 ∧ ((nb.pull 14).bytes.getD 9 0).toNat = proto % 2 ^ 8 ∧
      ∃ len, (ipInner (nb.pull 14)).bytes = payload.take len ∧
        (payload.length < 65516 → payload.length ≤ len) := by
  have bs : (nb.pull 14).bytes = ipv4Header (payload.length % 2 ^ 16) id ttl proto src dst
    (netChecksum (ipv4Header (payload.length % 2 ^ 16) id ttl proto src dst 0)) ++ payload := by
    rw [Netbuf.pull, if_neg (by simp [f, ipv4Frame, ethZero, be16]), f]
    rfl
  generalize nb.pull 14 = packet at bs
  have protoEq : (packet.bytes.getD 9 0).toNat = proto % 2 ^ 8 := by
    rw [bs]
    exact UInt8.toNat_ofNat'
  have fst : packet.bytes.getD 0 0 = 0x45 := by
    rw [bs]
    rfl
  have hdrBytes : (packet.bytes.getD 0 0).toNat % 2 ^ 4 * 4 = 20 := by
    rw [fst]
    rfl
  have total : getBe16 packet.bytes 2 = (20 + payload.length % 2 ^ 16) % 2 ^ 16 := by
    rw [bs]
    show (UInt8.ofNat _).toNat * 2 ^ 8 + (UInt8.ofNat _).toNat = _
    simp only [UInt8.toNat_ofNat']
    omega
  have length : packet.bytes.length = 20 + payload.length := by
    rw [bs]
    simp [ipv4Header, be16, be32]
    omega
  have r : packet.bytes.drop 20 = payload := by
    rw [bs]
    rfl
  refine ⟨by simp [f, ipv4Frame, ethZero, be16, getBe16], protoEq, ?_⟩
  simp only [ipInner, hdrBytes, total, length]
  split
  · refine ⟨payload.length, ?_, fun _ => le_rfl⟩
    rw [Netbuf.pull, if_neg (by omega), List.take_length]
    exact r
  refine ⟨(20 + payload.length % 2 ^ 16) % 2 ^ 16 - 20, ?_, by omega⟩
  rw [Netbuf.pull, Netbuf.bytes_trim, List.length_take, if_neg (by omega)]
  rw [List.drop_take, r]

def IsReply (flags : Nat) (nb : Netbuf) : Prop :=
  ∃ id src dst srcPort dstPort seq ack window checksum, nb.bytes = ipv4Frame id src dst 6 64
      (tcpSegment srcPort dstPort seq ack flags window [] checksum)

lemma tcpSendSegment_returns (received : ∀ copy post, IsReply fl copy →
      post.tcbs = update net.tcbs t ((net.tcbs t).sent fl 0) → Returns (rx copy) post) :
    Returns (tcpSendSegment rx t fl none 0) net := by
  unfold tcpSendSegment
  by_cases fails : net.AllocFails
  · simp [Returns, tcpBuildSegment, netbufOf_of_fails fails]
  simp only [Returns, bind_apply, get_apply, Option.bind_some, tcpBuildSegment,
    netbufOf_of_not_fails fails]
  refine ipv4Output_returns (by norm_num) _ _ _ _ ?_
  rintro copy post ⟨id, src, dst, bs⟩ tcbs
  exact received copy post ⟨_, _, _, _, _, _, _, _, _, bs⟩ tcbs

def reply (st : TcpState) (flags seglen : Nat) : Option Nat :=
  match st with
  | .listen => if hasFlag flags 2 then some 0x12 else none
  | .synSent =>
    if flags &&& 0x12 = 0x12 then some 0x10
    else if hasFlag flags 2 then some 0x12
    else none
  | .established => if 0 < seglen ∨ hasFlag flags 1 then some 0x10 else none
  | .finWait1 | .finWait2 => if hasFlag flags 1 then some 0x10 else none
  | _ => none

def listeners (net : Net) : Finset (Fin 8) :=
  Finset.univ.filter fun t => (net.tcbs t).state = .listen

lemma tcpAck_returns (received : ∀ copy post, IsReply 0x10 copy → Returns (rx copy) post) :
    Returns (tcpAck rx t) net :=
  (tcpSendSegment_returns fun copy post isReply _ => received copy post isReply).bind
    fun _ _ => .pure _

lemma tcpStateMachine_returns {seq ack seglen : Nat}
    (received : ∀ ans ∈ reply (net.tcbs t).state fl seglen, ∀ copy after, IsReply ans copy →
      (ans = 0x12 → listeners after ⊆ (listeners net).erase t) → Returns (rx copy) after) :
    Returns (tcpStateMachine rx t seq ack fl seglen) net := by
  have acks (answered : reply (net.tcbs t).state fl seglen = some 0x10) (after : Net) :
    Returns (tcpAck rx t) after :=
    tcpAck_returns fun copy after isReply => received _ answered copy after isReply (by simp)
  have synAcks (answered : reply (net.tcbs t).state fl seglen = some 0x12) {after : Net}
    (here : (after.tcbs t).state = .synReceived)
    (others : ∀ u ≠ t, after.tcbs u = net.tcbs u) :
    Returns (tcpSendSegment rx t 0x12 none 0) after := by
    refine tcpSendSegment_returns fun copy last isReply tcbs =>
      received _ answered copy last isReply fun _ u listens => ?_
    have listening := (Finset.mem_filter.mp listens).2
    rw [tcbs] at listening
    have o : u ≠ t := by
      rintro rfl
      rw [update_self] at listening
      exact absurd (here.symm.trans listening) (by decide)
    rw [update_of_ne o, others u o] at listening
    exact Finset.mem_erase.mpr ⟨o, Finset.mem_filter.mpr ⟨Finset.mem_univ u, listening⟩⟩
  have same : ((net.withTcb t ((net.tcbs t).hear ack fl)).tcbs t).state = (net.tcbs t).state := by
    simp [Net.withTcb, Tcb.hear]
  unfold tcpStateMachine
  refine .modify_bind (.get_bind ?_)
  rw [same]
  split
  case h_1 st =>
    refine .ite (fun syn => ?_) fun _ => .pure _
    refine .modify_bind (.modify_bind (.modify_bind (.bind (synAcks ?_ ?_ ?_) fun _ _ => .pure _)))
    · simp [reply, st, syn]
    · simp [Net.withTcb]
    intro u o
    simp [Net.withTcb, o]
  case h_2 st =>
    refine .ite (fun both => ?_) fun notBoth => .ite (fun syn => ?_) fun _ => .pure _
    · exact .modify_bind (acks (by simp [reply, st, both]) _)
    refine .modify_bind (.bind (synAcks ?_ ?_ ?_) fun _ _ => .pure _)
    · simp [reply, st, notBoth, syn]
    · simp [Net.withTcb]
    intro u o
    simp [Net.withTcb, o]
  case h_4 st =>
    have close (after : Net) : Returns (if hasFlag fl 1 then do
        modifyTcb t fun tcb => { tcb with rcvNxt := u32 (seq + seglen + 1), state := .closeWait }
        tcpAck rx t
      else Pure.pure ()) after :=
      .ite (fun fin => .modify_bind (acks (by simp [reply, st, fin]) _)) fun _ => .pure _
    refine .ite (fun data => ?_) fun _ => close _
    exact .modify_bind (.bind (acks (by simp [reply, st, data]) _) fun _ => close)
  case h_5 st =>
    refine .ite (fun _ => .modify_bind ?_) fun _ => ?_
    all_goals
      exact .ite (fun fin => .modify_bind (acks (by simp [reply, st, fin]) _)) fun _ => .pure _
  case h_6 st =>
    exact .ite (fun fin => .modify_bind (acks (by simp [reply, st, fin]) _)) fun _ => .pure _
  all_goals first | exact .pure _ | exact .ite (fun _ => rfl) fun _ => .pure _

lemma tcpInput_returns (m : ∀ t post, (∀ u, (post.tcbs u).state = (net.tcbs u).state) →
    Returns (tcpStateMachine rx t (getBe32 nb.bytes 4) (getBe32 nb.bytes 8) (segFlags nb)
      (segLen nb)) post) : Returns (tcpInput rx nb src dst) net := by
  unfold tcpInput
  refine .ite (fun _ => .pure _) fun _ => .get_bind ?_
  split
  · exact .pure _
  rename_i t _
  refine .ite (fun _ => .modify_bind (m t _ fun u => ?_)) fun _ => m t _ fun _ => rfl
  by_cases isT : u = t
  · subst isT
    simp [Net.withTcb]
  · simp [Net.withTcb, isT]

lemma netifRxWith_returns (ipv4 : getBe16 nb.bytes 12 = 0x0800)
    (received : Returns (ipv4Input rx (nb.pull 14)) net) : Returns (netifRxWith rx nb) net := by
  unfold netifRxWith
  refine .ite (fun _ => rfl) fun _ => ?_
  rw [ipv4]
  exact received.bind fun _ _ => rfl

lemma netifRxWith_reply (replies : IsReply fl copy) (small : fl < 2 ^ 8)
    (received : ∀ t, ∀ ans ∈ reply (net.tcbs t).state fl 0, ∀ next post,
      IsReply ans next → (ans = 0x12 → listeners post ⊆ (listeners net).erase t) →
      Returns (rx next) post) : Returns (netifRxWith rx copy) net := by
  obtain ⟨id, src, dst, srcPort, dstPort, seq, ack, window, checksum, f⟩ := replies
  obtain ⟨ipv4, proto, len, bs, enough⟩ := ipInner_frame f
  have seg : (ipInner (copy.pull 14)).bytes =
    tcpSegment srcPort dstPort seq ack fl window [] checksum := by
    rw [bs]
    exact List.take_of_length_le (enough (by simp [tcpSegment, be16, be32]))
  have noData : segLen (ipInner (copy.pull 14)) = 0 := by simp [segLen, seg, tcpSegment, be16, be32]
  have flagsEq : segFlags (ipInner (copy.pull 14)) = fl := by
    rw [segFlags, seg]
    exact UInt8.toNat_ofNat'.trans (Nat.mod_eq_of_lt small)
  refine netifRxWith_returns ipv4 (ipv4Input_returns (fun icmp => ?_) ?_)
  · rw [proto] at icmp
    cases icmp
  intro _ _ _
  refine tcpInput_returns fun t post eq => ?_
  rw [noData, flagsEq]
  refine tcpStateMachine_returns ?_
  have sameListeners : listeners post = listeners net := by simp only [listeners, eq]
  rw [eq, sameListeners]
  exact received t

lemma ack_returns (replies : IsReply 0x10 copy) (k : Nat) (net : Net) :
    Returns (netifRx (k + 1) copy) net := by
  have silent (st : TcpState) : reply st 0x10 0 = none := by cases st <;> rfl
  refine netifRxWith_reply replies (by norm_num) fun t ans answered => ?_
  rw [silent] at answered
  cases answered

lemma synAck_returns (replies : IsReply 0x12 copy) {k : Nat}
    (enough : (listeners net).card + 2 ≤ k) : Returns (netifRx k copy) net := by
  have answers (st : TcpState) (ans : Nat) (answered : reply st 0x12 0 = some ans) :
    ans = 0x10 ∨ ans = 0x12 ∧ st = .listen := by
    cases st <;> simp_all [reply, hasFlag]
  induction k generalizing net copy with
  | zero => omega
  | succ k ih =>
    refine netifRxWith_reply replies (by norm_num) ?_
    intro t ans answered next post isNext fewer
    obtain rfl | ⟨rfl, listening⟩ := answers _ _ answered
    · obtain ⟨k, rfl⟩ := Nat.exists_eq_add_of_lt (show 0 < k by omega)
      exact ack_returns isNext _ post
    have mem : t ∈ listeners net := Finset.mem_filter.mpr ⟨Finset.mem_univ t, listening⟩
    have less := Finset.card_le_card (fewer rfl)
    rw [Finset.card_erase_of_mem mem] at less
    have pos := Finset.card_pos.mpr ⟨t, mem⟩
    exact ih isNext (by omega)

lemma icmpInput_returns (nb : Netbuf) (src dst k : Nat) (net : Net) :
    Returns (icmpInput (netifRx (k + 1)) nb src dst) net := by
  refine .ite (fun _ => .pure _) fun _ => ?_
  by_cases fails : net.AllocFails
  · simp [Returns, icmpBuild, netbufOf_of_fails fails]
  simp only [Returns, icmpBuild, bind_apply, netbufOf_of_not_fails fails, Option.bind_some]
  refine Returns.bind (ipv4Output_returns (by norm_num) _ _ _ _ ?_) fun _ _ => .pure _
  rintro copy post ⟨id, sender, receiver, f⟩ -
  obtain ⟨ipv4, proto, len, bs, -⟩ := ipInner_frame f
  refine netifRxWith_returns ipv4 (ipv4Input_returns ?_ fun tcp => ?_)
  · intro _ _ _
    -- the type of the message is that of an echo reply
    refine .ite (fun _ => .pure _) fun req => absurd (.inr (.inr ?_)) req
    rw [bs]
    cases len <;> simp [icmpMessage]
  rw [proto] at tcp
  cases tcp

/-- A packet that is received causes ten nested receptions at most, whatever the
control blocks are. -/
theorem netifRx_returns {nb : Netbuf} (ipv4 : getBe16 nb.bytes 12 = 0x0800) {k : Nat}
    (enough : 11 ≤ k) (net : Net) : (netifRx k nb net).isSome := by
  obtain ⟨k, rfl⟩ := Nat.exists_eq_add_of_le enough
  rw [show 11 + k = (9 + k) + 1 + 1 by omega]
  refine netifRxWith_returns ipv4 (ipv4Input_returns ?_ ?_)
  · intro _ src dst
    exact icmpInput_returns _ src dst _ net
  intro _ _ _
  refine tcpInput_returns fun t post _ => tcpStateMachine_returns ?_
  intro ans answered copy last isReply _
  have answers : ans = 0x10 ∨ ans = 0x12 := by
    revert answered
    unfold reply
    split <;> grind
  obtain rfl | rfl := answers
  · exact ack_returns isReply _ last
  have bound := Finset.card_le_univ (listeners last)
  rw [Fintype.card_fin] at bound
  exact synAck_returns isReply (by omega)

def openListener : Net :=
  netInit.withTcb (Fin.last 7) { Tcb.cleared with inUse := true, state := .listen, localPort := 80 }

/-- A SYN, or another segment, to port 80. -/
def segmentTo80 (flags : Nat) : Netbuf :=
  let seg := tcpSegment 1000 80 0 0 flags 65535 []
  ⟨0, 64, seg (netTransportChecksum ipAddrLoopback ipAddrLoopback 6 (seg 0) 20), 0⟩

theorem netifRx_returns_from_listener :
    (netifRx 11 ⟨0, 64, ipv4Frame 0 ipAddrLoopback ipAddrLoopback 6 64
      (segmentTo80 2).bytes, 0⟩ openListener).isSome :=
  netifRx_returns (by decide +kernel) le_rfl _

end HnxKernel
