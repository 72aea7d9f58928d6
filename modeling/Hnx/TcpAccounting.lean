import Hnx.NetBuffers

/-!
# The send sequence space of a TCP connection

`snd_nxt` runs ahead of `iss` by what was sent; `snd_una` is set by any opening segment.
-/

namespace HnxKernel

open Function PartialAction

namespace Tcb

variable {tcb next : Tcb}

def IsOpen (tcb : Tcb) : Prop :=
  tcb.state = .synSent ∨ tcb.state = .synReceived ∨ tcb.state = .established ∨
    tcb.state = .closeWait

/-- A SYN without ACK in SYN_SENT: the other side opens the connection as well. -/
def Crosses (segment : Heard) : Prop :=
  segment.state = .synSent ∧ segment.flags &&& 0x12 ≠ 0x12 ∧ hasFlag segment.flags 2 = true

/-- An acknowledgement for which the connection is opened. -/
def Opens (segment : Heard) : Prop :=
  segment.state = .synSent ∧ segment.flags &&& 0x12 = 0x12 ∨
    segment.state = .synReceived ∧ hasFlag segment.flags 0x10 = true

instance (segment : Heard) : Decidable (Crosses segment) := inferInstanceAs (Decidable (_ ∧ _))

instance (segment : Heard) : Decidable (Opens segment) := inferInstanceAs (Decidable (_ ∨ _))

/-- Every acknowledgement that opens the connection is that of `snd_nxt`. -/
def RightAcks (tcb : Tcb) : Prop :=
  ∀ segment ∈ tcb.heard, Opens segment → segment.ack = segment.sndNxt

/-- There was a buffer for the SYN, and no other SYN crossed it. -/
def SynOnce (tcb : Tcb) : Prop :=
  tcb.chosen = true ∧ tcb.lost = false ∧ ∀ segment ∈ tcb.heard, ¬ Crosses segment

instance (tcb : Tcb) : Decidable tcb.RightAcks := inferInstanceAs (Decidable (∀ _ ∈ _, _))

instance (tcb : Tcb) : Decidable tcb.SynOnce := inferInstanceAs (Decidable (_ ∧ _))

structure Numbered (tcb : Tcb) : Prop where
  issLt : tcb.iss < 2 ^ 32
  sndNxt_eq : tcb.sndNxt = u32 (tcb.iss + tcb.synsSent + tcb.finsSent)
  bytesSent_eq : tcb.bytesSent = 0
  synsSent_le : tcb.synsSent ≤ 2
  synSent : tcb.state = .synSent → tcb.synsSent ≤ 1
  finsSent_le : tcb.finsSent ≤ 1
  isOpen : tcb.IsOpen → tcb.finsSent = 0
  acked : tcb.wrongAck = false →
    ∃ count ≤ tcb.synsSent + tcb.finsSent, tcb.sndUna = u32 (tcb.iss + count)
  rightAck : tcb.RightAcks → tcb.wrongAck = false

/-- Between two calls. -/
structure Accounted (tcb : Tcb) : Prop extends tcb.Numbered where
  syn : tcb.SynOnce → tcb.synsSent = 1

namespace Numbered

lemma sent (ha : tcb.Numbered) {fl : Nat}
    (synsLe : hasFlag fl 2 = true → tcb.synsSent ≤ 1 ∧ (tcb.state = .synSent → tcb.synsSent = 0))
    (noFins : hasFlag fl 1 = true → tcb.finsSent = 0 ∧ ¬tcb.IsOpen) :
    (tcb.sent fl 0).Numbered where
  __ := ha
  sndNxt_eq := by
    simp only [Tcb.sent, ha.sndNxt_eq, u32]
    omega
  synsSent_le := by
    have := ha.synsSent_le
    simp only [Tcb.sent]
    split <;> grind
  synSent state := by
    have := ha.synSent state
    simp only [Tcb.sent]
    split <;> grind [Tcb.sent]
  finsSent_le := by
    have := ha.finsSent_le
    simp only [Tcb.sent]
    split <;> grind
  isOpen opened := by
    have := ha.isOpen opened
    have noFin : hasFlag fl 1 = false := by
      by_contra fin
      exact (noFins (by simpa using fin)).2 opened
    simpa [Tcb.sent, noFin] using this
  acked right := by
    obtain ⟨cnt, countLe, unaEq⟩ := ha.acked right
    refine ⟨cnt, ?_, unaEq⟩
    simp only [Tcb.sent]
    omega

lemma of_chosen (issLt : tcb.iss < 2 ^ 32)
    (chosen : (tcb.sndUna, tcb.sndNxt, tcb.synsSent, tcb.bytesSent, tcb.finsSent, tcb.wrongAck) =
      (tcb.iss, tcb.iss, 0, 0, 0, false)) : tcb.Numbered := by
  simp only [Prod.mk.injEq] at chosen
  obtain ⟨una, nxt, syns, bs, fins, right⟩ := chosen
  refine ⟨issLt, ?_, bs, by omega, fun _ => by omega, by omega, fun _ => fins, fun _ => ?_,
    fun _ => right⟩
  · rw [nxt, syns, fins]
    exact (u32_of_lt issLt).symm
  · exact ⟨0, Nat.zero_le _, una.trans (u32_of_lt issLt).symm⟩

end Numbered

namespace Accounted

lemma of_same (ha : tcb.Accounted)
    (eq : (next.iss, next.sndUna, next.sndNxt, next.synsSent, next.bytesSent, next.finsSent,
      next.wrongAck, next.chosen, next.lost, next.heard) = (tcb.iss, tcb.sndUna, tcb.sndNxt,
      tcb.synsSent, tcb.bytesSent, tcb.finsSent, tcb.wrongAck, tcb.chosen, tcb.lost, tcb.heard))
    (synSent : next.state = .synSent → tcb.state = .synSent)
    (isOpen : next.IsOpen → tcb.finsSent = 0) : next.Accounted := by
  simp only [Prod.mk.injEq] at eq
  obtain ⟨iss, una, nxt, syns, bs, fins, wrong, chosen, lost, heard⟩ := eq
  obtain ⟨⟨issLt, nxtEq, noBytes, synsLe, sent, finsLe, -, acked, right⟩, syn⟩ := ha
  refine ⟨⟨?_, ?_, ?_, ?_, ?_, ?_, ?_, ?_, ?_⟩, ?_⟩
  all_goals simp only [RightAcks, SynOnce, iss, una, nxt, syns, bs, fins, wrong, chosen, lost,
      heard]
  · exact issLt
  · exact nxtEq
  · exact noBytes
  · exact synsLe
  · exact fun state => sent (synSent state)
  · exact finsLe
  · exact isOpen
  · exact acked
  · exact right
  · exact syn

lemma sent (ha : tcb.Accounted) {fl : Nat} (noSyn : hasFlag fl 2 = false)
    (noFins : hasFlag fl 1 = true → tcb.finsSent = 0 ∧ ¬tcb.IsOpen) :
      (tcb.sent fl 0).Accounted where
  __ := ha.toNumbered.sent (by simp [noSyn]) noFins
  syn once := by simpa [Tcb.sent, noSyn] using ha.syn once

/-- A segment more makes the two conditions stronger only. -/
lemma hear (ha : tcb.Accounted) (ack fl : Nat) : (tcb.hear ack fl).Accounted where
  __ := ha
  rightAck right := ha.rightAck fun segment mem => right segment (List.mem_append_left _ mem)
  syn once := ha.syn ⟨once.1, once.2.1, fun segment mem =>
    once.2.2 segment (List.mem_append_left _ mem)⟩

lemma opened (accounted : tcb.Accounted) (state : tcb.state = .synSent ∨ tcb.state = .synReceived)
    {ack : Nat} (right : tcb.RightAcks → ack = tcb.sndNxt) : (tcb.open ack).Accounted := by
  have noFins : tcb.finsSent = 0 := accounted.isOpen (by grind [IsOpen])
  refine { accounted with
    synSent := by simp [Tcb.open]
    isOpen := fun _ => noFins
    acked := ?_
    rightAck := fun rights => ?_ }
  · simp only [Tcb.open, Bool.or_eq_false_iff, bne_eq_false_iff_eq]
    rintro ⟨-, rfl⟩
    refine ⟨_, le_rfl, ?_⟩
    rw [accounted.sndNxt_eq, Nat.add_assoc]
  · simp only [Tcb.open, Bool.or_eq_false_iff, bne_eq_false_iff_eq]
    exact ⟨accounted.rightAck rights, right rights⟩

end Accounted

end Tcb

def TcbsAccounted (finless : Fin 8 → Prop) (net : Net) : Prop :=
  ∀ t, (net.tcbs t).Accounted ∧ (finless t → (net.tcbs t).finsSent = 0)

namespace TcbsAccounted

variable {finless : Fin 8 → Prop} {net : Net} {t : Fin 8} {tcb : Tcb}

lemma invariant (finless : Fin 8 → Prop) :
    StackInvariant (TcbsAccounted finless) fun _ => True where
  faults _ holds := holds
  alloc holds := ⟨trivial, holds⟩
  free _ holds := holds
  ipId _ holds := holds
  received _ holds := holds

lemma withTcb (h : TcbsAccounted finless net) (ha : tcb.Accounted)
    (fins : finless t → tcb.finsSent = 0) : TcbsAccounted finless (net.withTcb t tcb) := by
  intro u
  by_cases eq : u = t
  · subst eq
    simpa [Net.withTcb] using ⟨ha, fins⟩
  · simpa [Net.withTcb, eq] using h u

end TcbsAccounted

section Segments

variable {rx : Netbuf → NetM Unit}
  (receives : ∀ finless, Receives (TcbsAccounted finless) (fun _ => True) rx)
  {finless : Fin 8 → Prop} {t : Fin 8}
include receives

variable {net : Net} {g : Tcb → Tcb}

lemma send_accounted (fl : Nat) (h : TcbsAccounted finless net)
    (sent : ((net.tcbs t).sent fl 0).Accounted)
    (fins : finless t → ((net.tcbs t).sent fl 0).finsSent = 0) :
    Ensures (· = net) (tcpSendSegment rx t fl none 0) fun _ => TcbsAccounted finless := by
  refine ((TcbsAccounted.invariant finless).tcpSendSegment_keeps (receives finless) t fl
    none 0).of_imp ?_
  rintro _ rfl
  exact ⟨h, h.withTcb sent fins⟩

lemma send_accounted_of_not_fails {fl : Nat} (allocates : ¬net.AllocFails)
    (h : TcbsAccounted finless (net.withTcb t ((net.tcbs t).sent fl 0))) :
    Ensures (· = net) (tcpSendSegment rx t fl none 0) fun _ => TcbsAccounted finless := by
  intro net' isNet out ret
  subst isNet
  have later : TcbsAccounted finless
    (net'.allocated.withTcb t ((net'.allocated.tcbs t).sent fl 0)) := h
  simp only [tcpSendSegment, tcpBuildSegment, bind_apply, get_apply,
    netbufOf_of_not_fails allocates, modifyTcb, modify_apply, Option.bind_some] at ret
  exact (TcbsAccounted.invariant finless).ipv4Output_keeps (receives finless) trivial _ _ _ _ _
    later out ret

/-- The first SYN after `iss` was chosen: it is sent, or there was no buffer for it. -/
lemma first_syn_accounted {fl : Nat} (syn : hasFlag fl 2 = true) (noFin : hasFlag fl 1 = false)
    (others : ∀ u ≠ t, (net.tcbs u).Accounted ∧ (finless u → (net.tcbs u).finsSent = 0))
    (numbered : (net.tcbs t).Numbered) (noSyns : (net.tcbs t).synsSent = 0)
    (noFins : (net.tcbs t).finsSent = 0)
    (lost : (net.tcbs t).lost = net.allocFaults.headD false) :
    Ensures (· = net) (tcpSendSegment rx t fl none 0) fun _ => TcbsAccounted finless := by
  have sent : ((net.tcbs t).sent fl 0).Accounted := by
    refine ⟨numbered.sent (fun _ => ⟨by omega, fun _ => noSyns⟩) (by simp [noFin]), fun _ => ?_⟩
    simp [Tcb.sent, syn, noSyns]
  have noFinsSent : ((net.tcbs t).sent fl 0).finsSent = 0 := by simp [Tcb.sent, noFin, noFins]
  by_cases fails : net.AllocFails
  · refine send_accounted receives fl (fun u => ?_) sent fun _ => noFinsSent
    by_cases eq : u = t
    · subst eq
      refine ⟨⟨numbered, fun once => ?_⟩, fun _ => noFins⟩
      exact absurd (once.2.1.symm.trans (lost.trans fails)) Bool.false_ne_true
    · exact others u eq
  · refine send_accounted_of_not_fails receives fails fun u => ?_
    by_cases eq : u = t
    · subst eq
      simpa [Net.withTcb] using ⟨sent, fun _ => noFinsSent⟩
    · simpa [Net.withTcb, eq] using others u eq

lemma tcpAck_accounted :
    Ensures (TcbsAccounted finless) (tcpAck rx t) fun _ => TcbsAccounted finless := by
  have noSyn : hasFlag 0x10 2 = false := rfl
  have noFin : hasFlag 0x10 1 = false := rfl
  refine .bind (fun net h => ?_) fun _ => Ensures.pure fun _ => id
  exact send_accounted receives 0x10 h
    ((h t).1.sent noSyn (by simp [noFin])) (h t).2 net rfl

section
variable (h : TcbsAccounted finless net) (ha : (g (net.tcbs t)).Accounted)
include h ha

lemma answer_accounted (fins : (g (net.tcbs t)).finsSent = (net.tcbs t).finsSent) :
    Ensures (· = net) (do modifyTcb t g; tcpAck rx t) fun _ => TcbsAccounted finless := by
  refine .modify_bind ((tcpAck_accounted receives).of_imp ?_)
  rintro _ rfl
  exact h.withTcb ha fun chosen => fins.trans ((h t).2 chosen)

lemma answer_syn_accounted (syns : (g (net.tcbs t)).synsSent ≤ 1)
    (state : (g (net.tcbs t)).state = .synReceived)
    (crossed : ∃ segment ∈ (g (net.tcbs t)).heard, Tcb.Crosses segment) :
    Ensures (· = net) (do modifyTcb t g; let _ ← tcpSendSegment rx t 0x12 none 0)
      fun _ => TcbsAccounted finless := by
  have noFin : hasFlag 0x12 1 = false := rfl
  have noFins : (g (net.tcbs t)).finsSent = 0 := ha.isOpen (.inr (.inl state))
  refine .modify_bind (Ensures.bind (send_accounted receives 0x12
    (h.withTcb ha fun _ => noFins) ?_ ?_) fun _ => Ensures.pure fun _ => id)
  · simp only [Net.withTcb, update_self]
    refine ⟨ha.toNumbered.sent (fun _ => ⟨syns, by simp [state]⟩) (by simp [noFin]), fun once => ?_⟩
    obtain ⟨segment, mem, crosses⟩ := crossed
    exact absurd crosses (once.2.2 segment mem)
  simp only [Net.withTcb, update_self]
  exact fun _ => noFins

end

lemma tcpStateMachine_accounted (seq ack fl seglen : Nat) :
    Ensures (TcbsAccounted finless) (tcpStateMachine rx t seq ack fl seglen)
      fun _ => TcbsAccounted finless := by
  intro before holds
  suffices handled : Ensures (· = before) (tcpStateMachine rx t seq ack fl seglen)
      fun _ => TcbsAccounted finless from handled before rfl
  refine .modify_bind (Ensures.get_bind fun net isNet => ?_)
  have h : TcbsAccounted finless net :=
    isNet ▸ holds.withTcb ((holds t).1.hear ack fl) (holds t).2
  -- the segment itself is the last that was heard
  have heard : ⟨(net.tcbs t).state, (net.tcbs t).sndNxt, ack, fl⟩ ∈ (net.tcbs t).heard := by
    simp [isNet, Net.withTcb, Tcb.hear]
  have accounted := (h t).1
  have skip : Ensures (· = net) (pure () : NetM Unit) fun _ => TcbsAccounted finless :=
    Ensures.pure fun _ eq => eq ▸ h
  have move {g : Tcb → Tcb} (moved : (g (net.tcbs t)).Accounted)
    (fins : (g (net.tcbs t)).finsSent = (net.tcbs t).finsSent) :
    Ensures (· = net) (modifyTcb t g) fun _ => TcbsAccounted finless := by
    refine .modify ?_
    rintro _ rfl
    exact h.withTcb moved fun chosen => fins.trans ((h t).2 chosen)
  split
  case h_1 state =>
    refine .ite (fun _ => ?_) fun _ => skip
    refine .modify_bind (Ensures.modify_bind (Ensures.modify_bind (Ensures.bind
      (first_syn_accounted receives rfl rfl ?_ ?_ ?_ ?_ ?_) fun _ => Ensures.pure fun _ => id)))
    · intro u o
      simpa [Net.withTcb, o] using h u
    all_goals simp only [Net.withTcb, update_self]
    exact .of_chosen (u32_lt _) rfl
  case h_2 state =>
    have isOpen : (net.tcbs t).IsOpen := .inl state
    refine .ite (fun both => ?_) fun notBoth => Ensures.ite (fun syn => ?_) fun _ => skip
    · refine answer_accounted receives h ?_ rfl
      exact (accounted.opened (.inl state) fun right =>
        right _ heard (.inl ⟨state, both⟩)).of_same rfl id fun _ => accounted.isOpen isOpen
    refine answer_syn_accounted receives h ?_ (accounted.synSent state) rfl
      ⟨_, heard, state, notBoth, syn⟩
    exact accounted.of_same rfl (by simp) fun _ => accounted.isOpen isOpen
  case h_3 state =>
    refine .ite (fun acks => move (accounted.opened (.inr state) fun right => ?_) rfl) fun _ => skip
    exact right _ heard (.inr ⟨state, acks⟩)
  case h_4 state =>
    have noFins : (net.tcbs t).finsSent = 0 := accounted.isOpen (.inr (.inr (.inl state)))
    -- the nested receptions send no FIN, so that one can be sent from CLOSE_WAIT
    have finlessHolds : TcbsAccounted (fun u => finless u ∨ u = t) net := fun u =>
      ⟨(h u).1, fun chosen => chosen.elim (h u).2 fun eq => eq ▸ noFins⟩
    have close : Ensures (TcbsAccounted fun u => finless u ∨ u = t)
      (if hasFlag fl 1 then do
        modifyTcb t fun tcb => { tcb with rcvNxt := u32 (seq + seglen + 1), state := .closeWait }
        tcpAck rx t
      else pure ()) fun _ => TcbsAccounted finless := by
      intro later kept
      have weaker : TcbsAccounted finless later := fun u => ⟨(kept u).1, fun chosen =>
        (kept u).2 (.inl chosen)⟩
      refine Ensures.ite (fun _ => answer_accounted receives weaker ?_ rfl)
        (fun _ => Ensures.pure fun _ eq => eq ▸ weaker) later rfl
      exact (kept t).1.of_same rfl (by simp) fun _ => (kept t).2 (.inr rfl)
    refine .ite (fun _ => ?_) fun _ => close.of_imp fun _ eq => eq ▸ finlessHolds
    refine .modify_bind (Ensures.bind ((tcpAck_accounted receives).of_imp ?_) fun _ => close)
    rintro _ rfl
    exact finlessHolds.withTcb (accounted.of_same rfl id accounted.isOpen) fun _ => noFins
  case h_5 state =>
    have close : Ensures (TcbsAccounted finless)
      (if hasFlag fl 1 then do
        modifyTcb t fun tcb =>
          { tcb with
            rcvNxt := u32 (seq + 1)
            state := if hasFlag fl 0x10 then .timeWait else .closing }
        tcpAck rx t
      else pure ()) fun _ => TcbsAccounted finless := by
      intro later kept
      refine Ensures.ite (fun _ => answer_accounted receives kept ?_ rfl)
        (fun _ => Ensures.pure fun _ eq => eq ▸ kept) later rfl
      refine (kept t).1.of_same rfl ?_ ?_
      · simp only
        split <;> simp
      simp only [Tcb.IsOpen]
      split <;> simp
    refine .ite (fun _ => Ensures.bind (move ?_ rfl) fun _ => close)
      fun _ => close.of_imp fun _ eq => eq ▸ h
    exact accounted.of_same rfl (by simp) (by simp [Tcb.IsOpen])
  case h_6 state =>
    refine .ite (fun _ => answer_accounted receives h ?_ rfl) fun _ => skip
    exact accounted.of_same rfl (by simp) (by simp [Tcb.IsOpen])
  case h_7 state =>
    refine .ite (fun _ => move ?_ rfl) fun _ => skip
    exact accounted.of_same rfl (by simp) (by simp [Tcb.IsOpen])
  case h_8 state =>
    refine .ite (fun _ => move ?_ rfl) fun _ => skip
    exact accounted.of_same rfl (by simp) (by simp [Tcb.IsOpen])
  all_goals exact skip

lemma tcpInput_accounted (nb : Netbuf) (src dst : Nat) :
    Ensures (TcbsAccounted finless) (tcpInput rx nb src dst) fun _ => TcbsAccounted finless := by
  refine .ite (fun _ => Ensures.pure fun _ => id) fun _ => ?_
  refine .get_bind fun net h => ?_
  split
  · exact .pure fun _ eq => eq ▸ h
  rename_i t hf
  have m (net : Net) (h : TcbsAccounted finless net) (seq ack fl seglen : Nat) :
    Ensures (· = net) (tcpStateMachine rx t seq ack fl seglen)
      fun _ => TcbsAccounted finless :=
    (tcpStateMachine_accounted receives seq ack fl seglen).of_imp fun _ eq => eq ▸ h
  refine .ite (fun listening => Ensures.modify_bind (m _ ?_ _ _ _ _))
    fun _ => m net h _ _ _ _
  exact h.withTcb ((h t).1.of_same rfl id (h t).1.isOpen) (h t).2

end Segments

inductive TcpCall where
  | alloc (t : Fin 8)
  | listen (t : Fin 8) (localIp localPort : Nat)
  | connect (t : Fin 8) (localIp localPort remoteIp remotePort : Nat)
  | close (t : Fin 8)
  | segment (nb : Netbuf) (src dst : Nat)

def TcpCall.run (fuel : Nat) : TcpCall → NetM Unit
  | .alloc t => modifyTcb t fun _ => { Tcb.cleared with inUse := true }
  | .listen t localIp localPort => tcpListen t localIp localPort
  | .connect t localIp localPort remoteIp remotePort => do
    let _ ← tcpConnect (netifRx fuel) t localIp localPort remoteIp remotePort
  | .close t => do
    let _ ← tcpClose (netifRx fuel) t
  | .segment nb src dst => tcpInput (netifRx fuel) nb src dst

inductive TcpReachable : Net → Prop
  | init (net : Net) : (∀ t, net.tcbs t = Tcb.cleared) → TcpReachable net
  | call {net : Net} (fuel : Nat) (call : TcpCall) {outcome : Unit × Net} :
      TcpReachable net → call.run fuel net = some outcome → TcpReachable outcome.2

lemma netifRx_accounted (k : Nat) (finless : Fin 8 → Prop) :
    Receives (TcbsAccounted finless) (fun _ => True) (netifRx k) :=
  StackInvariant.netifRx_keeps TcbsAccounted.invariant
    (fun _ receives _ => tcpInput_accounted receives) k finless

lemma Tcb.Accounted.cleared (inUse : Bool) : { Tcb.cleared with inUse }.Accounted :=
  ⟨.of_chosen (by norm_num [Tcb.cleared]) rfl, fun once => by cases once.1⟩

lemma TcpCall.run_accounted (k : Nat) (call : TcpCall) :
    Ensures (TcbsAccounted fun _ => False) (call.run k) fun _ => TcbsAccounted fun _ => False := by
  have receives := netifRx_accounted k
  cases call with
  | alloc => exact .modify fun net h => h.withTcb (.cleared true) False.elim
  | listen t =>
    refine .modify fun net h => h.withTcb ?_ False.elim
    exact (h t).1.of_same rfl (by simp) (by simp [Tcb.IsOpen])
  | connect t localIp localPort remoteIp remotePort =>
    refine .bind (fun net h => ?_) fun _ => Ensures.pure fun _ => id
    suffices connected : Ensures (· = net)
        (tcpConnect (netifRx k) t localIp localPort remoteIp remotePort)
        fun _ => TcbsAccounted fun _ => False from connected net rfl
    refine .modify_bind (Ensures.modify_bind (Ensures.modify_bind
      (first_syn_accounted receives rfl rfl ?_ ?_ ?_ ?_ ?_)))
    · intro u o
      simpa [Net.withTcb, o] using h u
    all_goals simp only [Net.withTcb, update_self]
    exact .of_chosen (u32_lt _) rfl
  | close t =>
    refine .bind (Ensures.get_bind fun net h => ?_) fun _ => Ensures.pure fun _ => id
    have accounted := (h t).1
    have fin {state : TcpState} (isOpen : (net.tcbs t).IsOpen)
      (closing : ¬{ net.tcbs t with state }.IsOpen) :
      Ensures (· = net) (do
        modifyTcb t fun tcb => { tcb with state }
        tcpSendSegment (netifRx k) t 0x11 none 0) fun _ => TcbsAccounted fun _ => False := by
      have closed : { net.tcbs t with state }.Accounted :=
        accounted.of_same rfl (fun eq => absurd (.inl eq) closing) fun still => absurd still closing
      refine .modify_bind (send_accounted receives 0x11 (h.withTcb closed False.elim) ?_
        False.elim)
      simp only [Net.withTcb, update_self]
      exact closed.sent rfl fun _ => ⟨accounted.isOpen isOpen, closing⟩
    split
    case h_1 state => exact fin (.inr (.inr (.inl state))) (by simp [Tcb.IsOpen])
    case h_2 state => exact fin (.inr (.inr (.inr state))) (by simp [Tcb.IsOpen])
    case h_6 => exact .pure fun _ eq => eq ▸ h
    all_goals
      refine .modify_bind (Ensures.pure ?_)
      rintro _ rfl
      exact h.withTcb (accounted.of_same rfl (by simp) (by simp [Tcb.IsOpen])) False.elim
  | segment nb src dst => exact tcpInput_accounted receives nb src dst

lemma TcpReachable.accounted {net : Net} (hr : TcpReachable net) (t : Fin 8) :
    (net.tcbs t).Accounted := by
  suffices h : TcbsAccounted (fun _ => False) net from (h t).1
  induction hr with
  | init _ hf =>
    intro u
    rw [hf u]
    exact ⟨.cleared false, False.elim⟩
  | call k call _ ret ih => exact call.run_accounted k _ ih _ ret

namespace Tcb

/-- `snd_nxt - iss` counts one SYN, the payload, and one FIN if it was sent. -/
def SendAccounting (tcb : Tcb) : Prop :=
  (tcb.sndNxt + (2 ^ 32 - tcb.iss)) % 2 ^ 32 =
    (1 + tcb.bytesSent + if tcb.finsSent = 0 then 0 else 1) % 2 ^ 32

/-- `snd_una` is in the modular interval from `iss` to `snd_nxt`. -/
def InSendWindow (tcb : Tcb) : Prop :=
  (tcb.sndUna + (2 ^ 32 - tcb.iss)) % 2 ^ 32 ≤ (tcb.sndNxt + (2 ^ 32 - tcb.iss)) % 2 ^ 32

instance (tcb : Tcb) : Decidable tcb.SendAccounting := inferInstanceAs (Decidable (_ = _))

instance (tcb : Tcb) : Decidable tcb.InSendWindow := inferInstanceAs (Decidable (_ ≤ _))

end Tcb

def connectThen (segments : List (Nat × Nat)) : List TcpCall :=
  let seg flags ack := tcpSegment 80 1000 7 ack flags 65535 []
  [.alloc 0, .connect 0 ipAddrLoopback 1000 ipAddrLoopback 80] ++ segments.map fun (flags, ack) =>
      .segment ⟨0, 64, seg flags ack
        (netTransportChecksum ipAddrLoopback ipAddrLoopback 6 (seg flags ack 0) 20), 0⟩
        ipAddrLoopback ipAddrLoopback

lemma TcpReachable.of_run {net : Net} (reachable : TcpReachable net) (cs : List TcpCall)
    {out : PUnit × Net} (ret : cs.forM (TcpCall.run 1) net = some out) : TcpReachable out.2 := by
  induction cs generalizing net with
  | nil =>
    cases ret
    exact reachable
  | cons call r ih =>
    obtain ⟨mid, hr, ret⟩ := Option.bind_eq_some_iff.mp ret
    exact ih (.call 1 call reachable hr) ret

lemma connectThen_reachable {Value : Type} {value : Value} (segments : List (Nat × Nat))
    (view : Tcb → Value) (seen : ((connectThen segments).forM (TcpCall.run 1) netInit).map
      (fun out => view (out.2.tcbs 0)) = some value) :
    ∃ net, TcpReachable net ∧ view (net.tcbs 0) = value := by
  obtain ⟨out, ret, viewed⟩ := Option.map_eq_some_iff.mp seen
  exact ⟨out.2, .of_run (.init netInit fun _ => rfl) _ ret, viewed⟩

/-- The sequence numbers add up in every run in which there was a buffer for the SYN and no other
SYN crossed it. -/
theorem sendAccounting_of_run {net : Net} (hr : TcpReachable net) (t : Fin 8)
    (once : (net.tcbs t).SynOnce) : (net.tcbs t).SendAccounting := by
  have syns := (hr.accounted t).syn once
  obtain ⟨issLt, nxt, bs, -, -, fins, -, -, -⟩ := (hr.accounted t).toNumbered
  simp only [Tcb.SendAccounting, nxt, bs, syns, u32]
  split <;> omega

theorem sendAccounting_after_handshake :
    ∃ net, TcpReachable net ∧ (net.tcbs 0).state = .closeWait ∧ (net.tcbs 0).heard.length = 2 ∧
      (net.tcbs 0).SendAccounting := by
  have found : ∃ net, TcpReachable net ∧ ((net.tcbs 0).state, (net.tcbs 0).heard.length,
      decide (net.tcbs 0).SynOnce) = (.closeWait, 2, true) :=
    connectThen_reachable [(0x12, 129537), (0x11, 129537)]
      (fun tcb => (tcb.state, tcb.heard.length, decide tcb.SynOnce)) (by decide +kernel)
  obtain ⟨net, hr, seen⟩ := found
  simp only [Prod.mk.injEq, decide_eq_true_eq] at seen
  exact ⟨net, hr, seen.1, seen.2.1, sendAccounting_of_run hr 0 seen.2.2⟩

/-- When both sides open the connection, SYN is counted twice. -/
theorem simultaneous_open_counts_two :
    ∃ net, TcpReachable net ∧ ((net.tcbs 0).state, (net.tcbs 0).synsSent,
      decide (net.tcbs 0).SendAccounting) = (.synReceived, 2, false) :=
  connectThen_reachable [(2, 0)]
    (fun tcb => (tcb.state, tcb.synsSent, decide tcb.SendAccounting)) (by decide +kernel)

/-- If every segment that opens the connection acknowledges `snd_nxt`, then `snd_una` is in the
window, and no other segment has opened it. -/
theorem ackWindow_of_run {net : Net} (hr : TcpReachable net) (t : Fin 8)
    (right : (net.tcbs t).RightAcks) :
    (net.tcbs t).InSendWindow ∧ (net.tcbs t).wrongAck = false := by
  obtain ⟨issLt, nxt, -, syns, -, fins, -, acked, rightAck⟩ := (hr.accounted t).toNumbered
  refine ⟨?_, rightAck right⟩
  obtain ⟨cnt, countLe, una⟩ := acked (rightAck right)
  simp only [Tcb.InSendWindow, nxt, una, u32]
  omega

theorem ackWindow_after_handshake :
    ∃ net, TcpReachable net ∧ (net.tcbs 0).state = .established ∧
      (net.tcbs 0).InSendWindow ∧ (net.tcbs 0).wrongAck = false := by
  have found : ∃ net, TcpReachable net ∧
      ((net.tcbs 0).state, decide (net.tcbs 0).RightAcks) = (.established, true) :=
    connectThen_reachable [(0x12, 129537), (0x10, 3)]
      (fun tcb => (tcb.state, decide tcb.RightAcks)) (by decide +kernel)
  obtain ⟨net, hr, seen⟩ := found
  simp only [Prod.mk.injEq, decide_eq_true_eq] at seen
  exact ⟨net, hr, seen.1, ackWindow_of_run hr 0 seen.2⟩

/-- Any acknowledgement number opens the connection. -/
theorem wrong_ack_leaves_window :
    ∃ net, TcpReachable net ∧ ((net.tcbs 0).state, (net.tcbs 0).sndUna,
      decide (net.tcbs 0).InSendWindow) = (.established, 5, false) :=
  connectThen_reachable [(0x12, 5)]
    (fun tcb => (tcb.state, tcb.sndUna, decide tcb.InSendWindow)) (by decide +kernel)

/-- FIN is sent at most once after the choice of `iss`, and never before the connection closes. -/
theorem fin_once_of_reachable {net : Net} (hr : TcpReachable net) (t : Fin 8) :
    (net.tcbs t).finsSent ≤ 1 ∧ ((net.tcbs t).IsOpen → (net.tcbs t).finsSent = 0) :=
  ⟨(hr.accounted t).finsSent_le, (hr.accounted t).isOpen⟩

theorem fin_once_after_handshake :
    ∃ net, TcpReachable net ∧ (net.tcbs 0).state = .established ∧ (net.tcbs 0).finsSent = 0 := by
  obtain ⟨net, hr, state⟩ : ∃ net, TcpReachable net ∧ (net.tcbs 0).state = .established :=
    connectThen_reachable [(0x12, 129537)] Tcb.state (by decide +kernel)
  exact ⟨net, hr, state, (fin_once_of_reachable hr 0).2 (.inr (.inr (.inl state)))⟩

end HnxKernel
