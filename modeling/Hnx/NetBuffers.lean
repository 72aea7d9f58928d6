import Hnx.NetStack

/-!
# Who frees the packet buffers

`loopback_tx` hands on a copy of the frame, and nobody frees the frame itself.
-/

namespace HnxKernel

section

open PartialAction

variable {net : Net} {rx : Netbuf → NetM Unit}

abbrev Net.AllocFails (net : Net) : Prop := net.allocFaults.headD false = true

def Net.allocated (net : Net) : Net :=
  { net with allocFaults := net.allocFaults.tail, nextBuf := net.nextBuf + 1 }

lemma netbufAllocHeadroom_of_fails (fails : net.AllocFails) (cap headroom : Nat) :
    netbufAllocHeadroom cap headroom net =
      some (none, { net with allocFaults := net.allocFaults.tail }) := by
  simp only [netbufAllocHeadroom, bind_apply, get_apply, set_apply, Option.bind_some]
  rw [if_pos fails]
  rfl

lemma netbufAllocHeadroom_of_not_fails (allocates : ¬net.AllocFails) {cap headroom : Nat}
    (pos : 0 < headroom) : netbufAllocHeadroom cap headroom net =
      some (some ⟨net.nextBuf, headroom, [], cap⟩, net.allocated) := by
  simp only [netbufAllocHeadroom, bind_apply, get_apply, set_apply, Option.bind_some]
  rw [if_neg allocates, if_neg (by omega), Nat.add_sub_cancel]
  rfl

lemma netbufOf_of_fails (fails : net.AllocFails) (msg : List UInt8) :
    netbufOf msg net = some (none, { net with allocFaults := net.allocFaults.tail }) := by
  simp only [netbufOf, netbufAlloc, bind_apply, netbufAllocHeadroom_of_fails fails,
    Option.bind_some, pure_apply]

lemma netbufOf_of_not_fails (allocates : ¬net.AllocFails) (msg : List UInt8) :
    netbufOf msg net = some (some ⟨net.nextBuf, 64, msg, 0⟩, net.allocated) := by
  simp [netbufOf, netbufAlloc, netbufAllocHeadroom_of_not_fails allocates, Netbuf.put]

def ipv4Frame (ipId src dst proto ttl : Nat) (payload : List UInt8) : List UInt8 :=
  let header := ipv4Header (payload.length % 2 ^ 16) ipId ttl proto src dst
  ethZero ++ ethZero ++ be16 0x0800 ++ (header (netChecksum (header 0)) ++ payload)

lemma ipv4Output_of_up (up : net.up = true) {nb : Netbuf} (room : 34 ≤ nb.headroom)
    (src dst proto ttl : Nat) : ipv4Output rx nb src dst proto ttl net = loopbackTx rx
        { nb with
          headroom := nb.headroom - 34
          bytes := ipv4Frame net.ipId (if src = 0 then ipAddrLoopback else src) dst proto ttl
            nb.bytes }
        { net with ipId := (net.ipId + 1) % 2 ^ 16 } := by
  have short : ¬nb.headroom < 20 := by omega
  have shortEth : ¬nb.headroom - 20 < 14 := by omega
  simp [ipv4Output, up, ipv4Build, Netbuf.push, ipv4Header, be16, be32, short, ethBuild, ethZero,
    shortEth, netifTransmit, ipv4Frame, Nat.sub_sub]

end

open PartialAction Ensures

namespace Netbuf

variable {nb after : Netbuf} {bs : List UInt8}

lemma id_of_push (pushed : nb.push bs = some after) : after.id = nb.id := by
  unfold push at pushed
  grind

lemma id_of_put (stored : nb.put bs = some after) : after.id = nb.id := by
  unfold put at stored
  grind

@[simp] lemma reserve_id (nb : Netbuf) (len : Nat) : (nb.reserve len).id = nb.id := by
  unfold reserve
  split <;> rfl

end Netbuf

variable {Value : Type} {inv : Net → Prop} {owned : Nat → Prop}

def Provides (inv : Net → Prop) (owned : Nat → Prop) (action : NetM (Option Netbuf)) : Prop :=
  Ensures inv action fun found net => inv net ∧ ∀ nb ∈ found, owned nb.id

namespace Provides

lemma pure {hf : Option Netbuf} (areOwned : ∀ nb ∈ hf, owned nb.id) :
    Provides inv owned (Pure.pure hf) :=
  Ensures.pure fun _ h => ⟨h, areOwned⟩

lemma bind {action : NetM (Option Netbuf)} {next : Option Netbuf → NetM Value}
    {post : Value → Net → Prop} (provides : Provides inv owned action)
    (without : Ensures inv (next none) post)
    (given : ∀ nb, owned nb.id → Ensures inv (next (some nb)) post) :
    Ensures inv (action >>= next) post := by
  refine .bind provides fun hf => of_and fun areOwned => ?_
  cases hf with
  | none => exact without
  | some nb => exact given nb (areOwned nb rfl)

end Provides

structure StackInvariant (inv : Net → Prop) (owned : Nat → Prop) : Prop where
  faults : ∀ {net} faults, inv net → inv { net with allocFaults := faults }
  alloc : ∀ {net}, inv net → owned net.nextBuf ∧ inv { net with nextBuf := net.nextBuf + 1 }
  free : ∀ {net id}, owned id → inv net → inv { net with freed := net.freed ++ [id] }
  ipId : ∀ {net} ipId, inv net → inv { net with ipId }
  received : ∀ {net} received, inv net → inv { net with received }

def Receives (inv : Net → Prop) (owned : Nat → Prop) (rx : Netbuf → NetM Unit) : Prop :=
  ∀ nb, owned nb.id → Ensures inv (rx nb) fun _ => inv

namespace StackInvariant

variable (invariant : StackInvariant inv owned) {rx : Netbuf → NetM Unit}
  (receives : Receives inv owned rx) {nb : Netbuf} (isOwned : owned nb.id)

section Buffers

include invariant

lemma alloc_provides (cap headroom : Nat) :
    Provides inv owned (netbufAllocHeadroom cap headroom) := by
  rintro net h ⟨nb, after⟩ ret
  simp only [netbufAllocHeadroom, bind_apply, get_apply, set_apply, Option.bind_some] at ret
  split at ret
  · obtain ⟨rfl, rfl⟩ := Prod.ext_iff.mp (Option.some_injective _ ret)
    exact ⟨invariant.faults _ h, by simp⟩
  obtain ⟨rfl, rfl⟩ := Prod.ext_iff.mp (Option.some_injective _ ret)
  refine ⟨(invariant.alloc (invariant.faults _ h)).2, ?_⟩
  rintro b ⟨⟩
  exact (invariant.alloc h).1

lemma freeing (isOwned : owned nb.id) (val : Value) {post : Value → Net → Prop}
    (h : ∀ net, inv net → post val net) : Ensures inv (do netbufFree nb; pure val) post :=
  Ensures.bind (Ensures.modify fun _ => invariant.free isOwned) fun _ => Ensures.pure h

lemma netbufOf_provides (message : List UInt8) : Provides inv owned (netbufOf message) := by
  refine (invariant.alloc_provides _ _).bind (Provides.pure (by simp)) fun nb isOwned => ?_
  dsimp only
  split
  · exact invariant.freeing isOwned none fun _ h => ⟨h, by simp⟩
  rename_i filled stored
  refine Provides.pure ?_
  rintro _ ⟨⟩
  rwa [Netbuf.id_of_put stored]

lemma arpBuild_provides (oper tpa : Nat) (tha ethDst : List UInt8) :
    Provides inv owned (arpBuild oper tpa tha ethDst) := by
  refine (invariant.alloc_provides _ _).bind (Provides.pure (by simp)) fun nb isOwned => ?_
  dsimp only
  split
  · exact invariant.freeing isOwned none fun _ h => ⟨h, by simp⟩
  rename_i framed built
  obtain ⟨packet, stored, pushed⟩ := Option.bind_eq_some_iff.mp built
  refine Provides.pure ?_
  rintro _ ⟨⟩
  rwa [Netbuf.id_of_push pushed, Netbuf.id_of_put stored, Netbuf.reserve_id]

lemma ipv4Build_provides (isOwned : owned nb.id) (src dst proto ttl : Nat) :
    Provides inv owned (ipv4Build nb src dst proto ttl) := by
  refine .bind_get fun net => ?_
  dsimp only
  split
  · exact Provides.pure (by simp)
  rename_i built pushed
  refine .bind (Ensures.modify fun _ => invariant.ipId _) fun _ => Provides.pure ?_
  rintro _ ⟨⟩
  rwa [Netbuf.id_of_push pushed]

include receives

lemma loopbackTx_keeps (nb : Netbuf) : Ensures inv (loopbackTx rx nb) fun _ => inv := by
  refine (invariant.alloc_provides _ _).bind (Ensures.pure fun _ => id) fun rxb isOwned => ?_
  refine .bind (receives _ ?_) fun _ => Ensures.pure fun _ => id
  cases stored : rxb.put nb.bytes with
  | none => exact isOwned
  | some => rwa [Option.getD_some, Netbuf.id_of_put stored]

lemma netifTransmit_keeps (isOwned : owned nb.id) :
    Ensures inv (netifTransmit rx nb) fun _ => inv :=
  bind_get fun _ =>
    Ensures.ite (fun _ => invariant.loopbackTx_keeps receives nb)
      fun _ => invariant.freeing isOwned _ fun _ => id

lemma ipv4Output_keeps (isOwned : owned nb.id) (src dst proto ttl : Nat) :
    Ensures inv (ipv4Output rx nb src dst proto ttl) fun _ => inv := by
  have fails : Ensures inv (do netbufFree nb; pure (-1)) fun (_ : Int) => inv :=
    invariant.freeing isOwned _ fun _ => id
  refine .bind_get fun net => Ensures.ite (fun _ => fails) fun _ => ?_
  refine (invariant.ipv4Build_provides isOwned _ _ _ _).bind fails fun built isOwned => ?_
  dsimp only
  split
  · exact invariant.freeing isOwned _ fun _ => id
  rename_i framed pushed
  refine invariant.netifTransmit_keeps receives ?_
  rwa [Netbuf.id_of_push pushed]

lemma arpInput_keeps (nb : Netbuf) : Ensures inv (arpInput rx nb) fun _ => inv := by
  refine .ite (fun _ => Ensures.pure fun _ => id) fun _ => ?_
  refine .ite (fun _ => ?_) fun _ => Ensures.pure fun _ => id
  refine (invariant.arpBuild_provides _ _ _ _).bind (Ensures.pure fun _ => id) ?_
  intro reply isOwned
  exact (invariant.netifTransmit_keeps receives isOwned).bind fun _ => Ensures.pure fun _ => id

lemma icmpInput_keeps (nb : Netbuf) (src dst : Nat) :
    Ensures inv (icmpInput rx nb src dst) fun _ => inv := by
  refine .ite (fun _ => Ensures.pure fun _ => id) fun _ => ?_
  refine (invariant.netbufOf_provides _).bind (Ensures.pure fun _ => id) fun reply isOwned => ?_
  exact (invariant.ipv4Output_keeps receives isOwned _ _ _ _).bind fun _ => Ensures.pure fun _ => id

omit receives in
lemma udpInput_keeps (nb : Netbuf) (src dst : Nat) :
    Ensures inv (udpInput nb src dst) fun _ => inv := by
  refine .ite (fun _ => Ensures.pure fun _ => id) fun _ => Ensures.modify fun net h => ?_
  split
  · exact h
  · exact invariant.received _ h

lemma netifRxWith_keeps
    (segments : ∀ nb src dst, Ensures inv (tcpInput rx nb src dst) fun _ => inv) :
    Receives inv owned (netifRxWith rx) := by
  intro nb isOwned
  have free : Ensures inv (netbufFree nb) fun _ => inv :=
    Ensures.modify fun _ => invariant.free isOwned
  refine .ite (fun _ => free) fun _ => ?_
  have packet (nb : Netbuf) : Ensures inv (ipv4Input rx nb) fun _ => inv := by
    refine .ite (fun _ => Ensures.pure fun _ => id) fun _ => ?_
    split
    · exact invariant.icmpInput_keeps receives _ _ _
    · exact invariant.udpInput_keeps _ _ _
    · exact segments _ _ _
    · exact .pure fun _ => id
  split
  · exact (invariant.arpInput_keeps receives _).bind fun _ => free
  · exact (packet _).bind fun _ => free
  · exact free

omit invariant receives in
lemma netifRx_keeps {Index : Type} {family : Index → Net → Prop}
    (invariant : ∀ idx, StackInvariant (family idx) owned)
    (segments : ∀ rx, (∀ idx, Receives (family idx) owned rx) → ∀ idx nb src dst,
      Ensures (family idx) (tcpInput rx nb src dst) fun _ => family idx)
    (k : Nat) (idx : Index) : Receives (family idx) owned (netifRx k) := by
  induction k generalizing idx with
  | zero => rintro nb - net - out ⟨⟩
  | succ k ih => exact (invariant idx).netifRxWith_keeps (ih idx) (segments _ ih idx)

lemma tcpSendSegment_keeps (t : Fin 8) (fl : Nat) (data : Option (List UInt8)) (len : Nat) :
    Ensures (fun net => inv net ∧ inv (net.withTcb t ((net.tcbs t).sent fl len)))
      (tcpSendSegment rx t fl data len) fun _ => inv := by
  have pre : StackInvariant
    (fun net => inv net ∧ inv (net.withTcb t ((net.tcbs t).sent fl len))) owned :=
    { faults := fun faults h => ⟨invariant.faults faults h.1, invariant.faults faults h.2⟩
      alloc := fun h => ⟨(invariant.alloc h.1).1, (invariant.alloc h.1).2, (invariant.alloc h.2).2⟩
      free := fun isOwned h => ⟨invariant.free isOwned h.1, invariant.free isOwned h.2⟩
      ipId := fun ipId h => ⟨invariant.ipId ipId h.1, invariant.ipId ipId h.2⟩
      received := fun received h =>
        ⟨invariant.received received h.1, invariant.received received h.2⟩ }
  refine .bind_get fun net => ?_
  refine (pre.netbufOf_provides _).bind (Ensures.pure fun _ => And.left) fun nb isOwned => ?_
  exact .bind (Ensures.modify fun _ => And.right) fun _ =>
    invariant.ipv4Output_keeps receives isOwned _ _ _ _

omit invariant receives in
/-- An invariant that depends neither on a control block nor on the replies. -/
lemma tcpStateMachine_keeps {t : Fin 8}
    (sends : ∀ fl ∈ [0x10, 0x12], Ensures inv (tcpSendSegment rx t fl none 0) fun _ => inv)
    (block : ∀ {net} issClock tcb, inv net → inv (Net.withTcb { net with issClock } t tcb))
    (seq ack fl seglen : Nat) :
    Ensures inv (tcpStateMachine rx t seq ack fl seglen) fun _ => inv := by
  have skip : Ensures inv (pure () : NetM Unit) fun _ => inv := Ensures.pure fun _ => id
  have assign (change : Tcb → Tcb) : Ensures inv (modifyTcb t change) fun _ => inv :=
    Ensures.modify fun net => block net.issClock _
  have send (fl : Nat) (isReply : fl ∈ [0x10, 0x12]) :
    Ensures inv (do let _ ← tcpSendSegment rx t fl none 0) fun _ => inv :=
    (sends fl isReply).bind fun _ => skip
  have ans (change : Tcb → Tcb) (fl : Nat) (isReply : fl ∈ [0x10, 0x12]) :
    Ensures inv (do modifyTcb t change; let _ ← tcpSendSegment rx t fl none 0) fun _ => inv :=
    (assign change).bind fun _ => send fl isReply
  refine (assign _).bind fun _ => bind_get fun net => ?_
  split
  · refine .ite (fun _ => (assign _).bind fun _ => ?_) fun _ => skip
    exact .bind (Ensures.modify fun _ => block _ _) fun _ => ans _ _ (by simp)
  · exact .ite (fun _ => ans _ _ (by simp)) fun _ =>
      Ensures.ite (fun _ => ans _ _ (by simp)) fun _ => skip
  · exact .ite (fun _ => assign _) fun _ => skip
  · refine .ite (fun _ => (assign _).bind fun _ => (send _ (by simp)).bind fun _ => ?_) fun _ => ?_
    all_goals exact .ite (fun _ => ans _ _ (by simp)) fun _ => skip
  · refine .ite (fun _ => (assign _).bind fun _ => ?_) fun _ => ?_
    all_goals exact .ite (fun _ => ans _ _ (by simp)) fun _ => skip
  · exact .ite (fun _ => ans _ _ (by simp)) fun _ => skip
  · exact .ite (fun _ => assign _) fun _ => skip
  · exact .ite (fun _ => assign _) fun _ => skip
  all_goals exact skip

lemma tcpInput_keeps (bs : ∀ {net} tcbs issClock, inv net → inv { net with tcbs, issClock })
    (nb : Netbuf) (src dst : Nat) : Ensures inv (tcpInput rx nb src dst) fun _ => inv := by
  have skip : Ensures inv (pure () : NetM Unit) fun _ => inv := Ensures.pure fun _ => id
  have m (t : Fin 8) (seq ack fl seglen : Nat) :
    Ensures inv (tcpStateMachine rx t seq ack fl seglen) fun _ => inv :=
    tcpStateMachine_keeps (fun fl _ net h => invariant.tcpSendSegment_keeps receives t
      fl none 0 net ⟨h, bs _ _ h⟩) (fun _ _ => bs _ _) seq ack fl seglen
  refine .ite (fun _ => skip) fun _ => bind_get fun net => ?_
  split
  · exact skip
  exact .ite
    (fun _ => (Ensures.modify fun _ => bs _ _).bind fun _ => m _ _ _ _ _)
    fun _ => m _ _ _ _ _

end Buffers

end StackInvariant

inductive SendCall where
  | udp (src srcPort dst dstPort : Nat) (data : Option (List UInt8)) (len : Nat)
  | echo (dst id seq : Nat) (payload : Option (List UInt8)) (len : Nat)
  | segment (t : Fin 8) (flags : Nat) (data : Option (List UInt8)) (len : Nat)
  | request (target : Nat)
  | announce

def SendCall.run (fuel : Nat) : SendCall → NetM Int
  | .udp src srcPort dst dstPort data len =>
    udpOutput (netifRx fuel) src srcPort dst dstPort data len
  | .echo dst id seq payload len => icmpSendEcho (netifRx fuel) dst id seq payload len
  | .segment t flags data len => tcpSendSegment (netifRx fuel) t flags data len
  | .request target => arpSendRequest (netifRx fuel) target
  | .announce => arpAnnounce (netifRx fuel)

def FreesOnce (net : Net) (outcome : Option (Int × Net)) : Prop :=
  ∃ rc after, outcome = some (rc, after) ∧ ∀ id, net.nextBuf ≤ id → id < after.nextBuf →
    after.freed.count id = net.freed.count id + 1

structure OldBuffers (bound : Nat) (freed : List Nat) (net : Net) : Prop where
  bound_le : bound ≤ net.nextBuf
  count_eq : ∀ id < bound, net.freed.count id = freed.count id

lemma oldBuffers_invariant (bound : Nat) (freed : List Nat) :
    StackInvariant (OldBuffers bound freed) (bound ≤ ·) where
  faults _ holds := ⟨holds.1, holds.2⟩
  alloc holds := ⟨holds.1, Nat.le_succ_of_le holds.1, holds.2⟩
  free {net freedId} notOld holds := by
    refine ⟨holds.1, fun id old => ?_⟩
    have notFreed : id ∉ [freedId] := by
      simp only [List.mem_singleton]
      omega
    rw [List.count_append, holds.2 id old, List.count_eq_zero_of_not_mem notFreed, Nat.add_zero]
  ipId _ holds := ⟨holds.1, holds.2⟩
  received _ holds := ⟨holds.1, holds.2⟩

variable {net : Net}

lemma loopbackTx_count {k : Nat} {nb : Netbuf} (old : nb.id < net.nextBuf)
    {out : Int × Net} (ret : loopbackTx (netifRx k) nb net = some out) :
    out.2.freed.count nb.id = net.freed.count nb.id ∧ net.nextBuf ≤ out.2.nextBuf := by
  have invariant := oldBuffers_invariant net.nextBuf net.freed
  have receives := StackInvariant.netifRx_keeps (fun _ : Unit => invariant)
    (fun rx receives _ => invariant.tcpInput_keeps (receives ()) fun _ _ h => ⟨h.1, h.2⟩)
    k ()
  have kept := invariant.loopbackTx_keeps receives nb net ⟨le_rfl, fun _ _ => rfl⟩ out ret
  exact ⟨kept.count_eq nb.id old, kept.bound_le⟩

lemma SendCall.run_of_fails (fails : net.AllocFails) (k : Nat) (c : SendCall) :
    c.run k net = some (-1, { net with allocFaults := net.allocFaults.tail }) := by
  cases c <;>
    simp [run, udpOutput, icmpSendEcho, icmpBuild, tcpSendSegment, tcpBuildSegment, arpSendRequest,
      arpAnnounce, arpBuild, netbufAlloc, netbufOf_of_fails fails,
      netbufAllocHeadroom_of_fails fails]

lemma arpBuild_of_not_fails (allocates : ¬net.AllocFails) (oper tpa : Nat)
    (tha ethDst : List UInt8) (thaLength : tha.length = 6) (dstLength : ethDst.length = 6) :
    ∃ nb, nb.id = net.nextBuf ∧ arpBuild oper tpa tha ethDst net =
      some (some nb, net.allocated) := by
  simp [arpBuild, netbufAlloc, netbufAllocHeadroom_of_not_fails allocates, Netbuf.reserve,
    Netbuf.put, be16, be32, ethZero, thaLength, ethBuild, Netbuf.push, dstLength]

lemma SendCall.run_of_not_fails (up : net.up = true) (allocates : ¬net.AllocFails)
    (k : Nat) (c : SendCall) : ∃ nb after, nb.id = net.nextBuf ∧ after.nextBuf = net.nextBuf + 1 ∧
      after.freed = net.freed ∧ c.run k net = loopbackTx (netifRx k) nb after := by
  have upAfter : net.allocated.up = true := up
  cases c with
  | udp =>
    simp only [run, udpOutput, bind_apply, netbufOf_of_not_fails allocates, Option.bind_some]
    refine ⟨_, _, ?_, ?_, ?_, ipv4Output_of_up upAfter (by norm_num) _ _ _ _⟩ <;> rfl
  | echo =>
    simp only [run, icmpSendEcho, icmpBuild, bind_apply, netbufOf_of_not_fails allocates,
      Option.bind_some]
    refine ⟨_, _, ?_, ?_, ?_, ipv4Output_of_up upAfter (by norm_num) _ _ _ _⟩ <;> rfl
  | segment =>
    simp only [run, tcpSendSegment, tcpBuildSegment, bind_apply, get_apply,
      netbufOf_of_not_fails allocates, Option.bind_some, modifyTcb, modify_apply]
    refine ⟨_, _, ?_, ?_, ?_, ipv4Output_of_up (by exact up) (by norm_num) _ _ _ _⟩ <;> rfl
  | request target =>
    obtain ⟨nb, isNext, built⟩ :=
      arpBuild_of_not_fails allocates 1 target ethZero ethBroadcast rfl rfl
    refine ⟨nb, net.allocated, isNext, rfl, rfl, ?_⟩
    simp [run, arpSendRequest, built, netifTransmit, upAfter]
  | announce =>
    obtain ⟨nb, isNext, built⟩ := arpBuild_of_not_fails allocates 1 ipAddrLoopback
      ethBroadcast ethBroadcast rfl rfl
    refine ⟨nb, net.allocated, isNext, rfl, rfl, ?_⟩
    simp [run, arpAnnounce, built, netifTransmit, upAfter]

/-- The buffers of a call are freed exactly once only if it cannot allocate one. -/
theorem sendCall_freesOnce_iff {net : Net} (up : net.up = true) (k : Nat) (c : SendCall) :
    FreesOnce net (c.run k net) ↔ net.AllocFails := by
  constructor
  · rintro ⟨rc, after, returned, freed⟩
    by_contra allocates
    obtain ⟨nb, start, isNext, startNext, startFreed, sent⟩ := c.run_of_not_fails up allocates k
    rw [sent] at returned
    obtain ⟨kept, grows⟩ := loopbackTx_count (by omega) returned
    have once := freed net.nextBuf le_rfl (by simp only at grows; omega)
    simp only [isNext, startFreed] at kept
    omega
  intro fails
  refine ⟨-1, _, c.run_of_fails fails k, fun id allocated isLt => ?_⟩
  exact absurd isLt (Nat.not_lt.mpr allocated)

theorem arpAnnounce_freesOnce_iff :
    netInit.up = true ∧ (FreesOnce netInit (SendCall.announce.run 3 netInit) ↔
      netInit.AllocFails) :=
  ⟨rfl, sendCall_freesOnce_iff rfl 3 .announce⟩

/-- A datagram to a port without a receiver leaves its buffer behind. -/
theorem udpOutput_leaks : (udpOutput (netifRx 1) 0 1000 ipAddrLoopback 7 none 0 netInit).map
    (fun out => (out.1, out.2.nextBuf, out.2.freed)) = some (0, 2, [1]) := by
  decide +kernel

end HnxKernel
