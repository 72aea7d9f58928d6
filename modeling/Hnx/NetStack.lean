import Hnx.ByteMemory
import Hnx.StateActions

/-!
# The network stack on the loopback interface

Every route leads to the loopback interface, which hands each frame to `netif_rx` before it
returns; the number of nested receptions is bounded by fuel.
-/

namespace HnxKernel

def be16 (val : Nat) : List UInt8 := [UInt8.ofNat (val / 2 ^ 8), UInt8.ofNat val]

/-- `net_put_be32`, and the bytes of an address. -/
def be32 (val : Nat) : List UInt8 := be16 (val / 2 ^ 16) ++ be16 val

def getBe16 (bytes : List UInt8) (off : Nat) : Nat :=
  (bytes.getD off 0).toNat * 2 ^ 8 + (bytes.getD (off + 1) 0).toNat

def getBe32 (bytes : List UInt8) (off : Nat) : Nat :=
  getBe16 bytes off * 2 ^ 16 + getBe16 bytes (off + 2)

def netCsumPartial : List UInt8 → Nat → Nat
  | high :: low :: rest, sum => netCsumPartial rest (u32 (sum + (high.toNat * 2 ^ 8 + low.toNat)))
  | [high], sum => u32 (sum + high.toNat * 2 ^ 8)
  | [], sum => sum

def foldCarry (sum : Nat) : Nat :=
  if sum / 2 ^ 16 = 0 then sum else sum % 2 ^ 16 + sum / 2 ^ 16

/-- A 32-bit sum is folded after two rounds. -/
def netCsumFold (sum : Nat) : Nat := 2 ^ 16 - 1 - foldCarry (foldCarry sum)

def netChecksum (bytes : List UInt8) : Nat := netCsumFold (netCsumPartial bytes 0)

def netPseudoHeaderSum (src dst proto transportLen : Nat) : Nat :=
  u32 (u32 (netCsumPartial (be32 dst) (netCsumPartial (be32 src) 0) + proto) + transportLen)

def netTransportChecksum (src dst proto : Nat) (l4 : List UInt8) (l4Len : Nat) : Nat :=
  netCsumFold (netCsumPartial (l4.take l4Len) (netPseudoHeaderSum src dst proto l4Len))

open Function

structure Netbuf where
  id : Nat
  headroom : Nat
  bytes : List UInt8
  tailroom : Nat

inductive TcpState where
  | closed
  | listen
  | synSent
  | synReceived
  | established
  | finWait1
  | finWait2
  | closeWait
  | closing
  | lastAck
  | timeWait
  deriving DecidableEq

/-- A segment that the state machine was given, with the state and `snd_nxt` before it. -/
structure Heard where
  state : TcpState
  sndNxt : Nat
  ack : Nat
  flags : Nat

/-- The fields from `synsSent` on are ghosts: what was sent since `iss` was chosen, an opening
with another acknowledgement than `snd_nxt`, whether `iss` was chosen, whether there was no buffer
for the SYN, and the segments handled since then. -/
structure Tcb where
  inUse : Bool
  state : TcpState
  localIp : Nat
  remoteIp : Nat
  localPort : Nat
  remotePort : Nat
  sndUna : Nat
  sndNxt : Nat
  iss : Nat
  rcvNxt : Nat
  rcvWnd : Nat
  irs : Nat
  synsSent : Nat
  bytesSent : Nat
  finsSent : Nat
  wrongAck : Bool
  chosen : Bool
  lost : Bool
  heard : List Heard

def Tcb.hear (tcb : Tcb) (ack flags : Nat) : Tcb :=
  { tcb with heard := tcb.heard ++ [⟨tcb.state, tcb.sndNxt, ack, flags⟩] }

/-- The receiver is named by its context. -/
structure UdpBinding where
  inUse : Bool
  localIp : Nat
  localPort : Nat
  ctx : Nat

structure Datagram where
  ctx : Nat
  src : Nat
  srcPort : Nat
  dst : Nat
  dstPort : Nat
  data : List UInt8
  deriving DecidableEq

/-- `allocFaults` says which allocations fail; `freed` lists the buffers that were freed. -/
structure Net where
  up : Bool
  routes : List (Nat × Nat)
  ipId : Nat
  issClock : Nat
  tcbs : Fin 8 → Tcb
  bindings : Fin 16 → UdpBinding
  ephemeralNext : Nat
  received : List Datagram
  allocFaults : List Bool
  nextBuf : Nat
  freed : List Nat

def Tcb.cleared : Tcb := ⟨false, .closed, 0, 0, 0, 0, 0, 0, 0, 0, 65535, 0, 0, 0, 0, false,
  false, false, []⟩

def netInit : Net where
  up := true
  routes := [(0x7F000000, 0xFF000000)]
  ipId := 0x1000
  issClock := 0x10000
  tcbs _ := Tcb.cleared
  bindings _ := ⟨false, 0, 0, 0⟩
  ephemeralNext := 49152
  received := []
  allocFaults := []
  nextBuf := 0
  freed := []

abbrev NetM := StateT Net Option

def ipAddrLoopback : Nat := 0x7F000001

/-- `eth_zero`, the address of the loopback interface, and `eth_broadcast`. -/
def ethZero : List UInt8 := List.replicate 6 0
@[inherit_doc ethZero] def ethBroadcast : List UInt8 := List.replicate 6 255

def hasFlag (flags mask : Nat) : Bool := flags &&& mask != 0

def netbufAllocHeadroom (cap headroom : Nat) : NetM (Option Netbuf) := do
  let net ← get
  set { net with allocFaults := net.allocFaults.tail }
  if net.allocFaults.headD false then
    pure none
  else
    let total := if cap + headroom = 0 then 1 else cap + headroom
    modify fun net => { net with nextBuf := net.nextBuf + 1 }
    pure (some ⟨net.nextBuf, headroom, [], total - headroom⟩)

def netbufAlloc (cap : Nat) : NetM (Option Netbuf) := netbufAllocHeadroom cap 64

def netbufFree (nb : Netbuf) : NetM Unit :=
  modify fun net => { net with freed := net.freed ++ [nb.id] }

namespace Netbuf

def reserve (nb : Netbuf) (len : Nat) : Netbuf :=
  if nb.bytes = [] ∧ len ≤ nb.tailroom then
    { nb with headroom := nb.headroom + len, tailroom := nb.tailroom - len }
  else
    nb

/-- `netbuf_push`, and the bytes that are stored there. -/
def push (nb : Netbuf) (header : List UInt8) : Option Netbuf :=
  if nb.headroom < header.length then
    none
  else
    some { nb with headroom := nb.headroom - header.length, bytes := header ++ nb.bytes }

def pull (nb : Netbuf) (len : Nat) : Netbuf :=
  if nb.bytes.length < len then nb
  else { nb with headroom := nb.headroom + len, bytes := nb.bytes.drop len }

/-- `netbuf_put`, and the bytes that are stored there. -/
def put (nb : Netbuf) (data : List UInt8) : Option Netbuf :=
  if nb.tailroom < data.length then
    none
  else
    some { nb with bytes := nb.bytes ++ data, tailroom := nb.tailroom - data.length }

def trim (nb : Netbuf) (len : Nat) : Netbuf :=
  if nb.bytes.length > len then
    { nb with bytes := nb.bytes.take len, tailroom := nb.tailroom + (nb.bytes.length - len) }
  else
    nb

end Netbuf

def netbufOf (msg : List UInt8) : NetM (Option Netbuf) := do
  let some nb ← netbufAlloc msg.length | pure none
  match nb.put msg with
  | none =>
    netbufFree nb
    pure none
  | some nb => pure (some nb)

def payloadOf (data : Option (List UInt8)) (len : Nat) : List UInt8 :=
  match data with
  | some data => data.take len ++ List.replicate (len - data.length) 0
  | none => List.replicate len 0

def ethBuild (nb : Netbuf) (dst src : List UInt8) (ethertype : Nat) : Option Netbuf :=
  nb.push (dst ++ src ++ be16 ethertype)

section Layers

variable (rx : Netbuf → NetM Unit)

def loopbackTx (nb : Netbuf) : NetM Int := do
  let some rxb ← netbufAlloc nb.bytes.length | pure (-1)
  rx ((rxb.put nb.bytes).getD rxb)
  pure 0

def netifTransmit (nb : Netbuf) : NetM Int := do
  if (← get).up then
    loopbackTx rx nb
  else
    netbufFree nb
    pure (-1)

def arpBuild (oper tpa : Nat) (tha ethDst : List UInt8) : NetM (Option Netbuf) := do
  let some nb ← netbufAlloc 42 | pure none
  let packet := be16 1 ++ be16 0x0800 ++ [6, 4] ++ be16 oper ++ ethZero ++ be32 ipAddrLoopback ++
    tha ++ be32 tpa
  match ((nb.reserve 14).put packet).bind fun nb => ethBuild nb ethDst ethZero 0x0806 with
  | none =>
    netbufFree nb
    pure none
  | some nb => pure (some nb)

def arpSendRequest (target : Nat) : NetM Int := do
  let some nb ← arpBuild 1 target ethZero ethBroadcast | pure (-1)
  netifTransmit rx nb

def arpAnnounce : NetM Int := do
  let some nb ← arpBuild 1 ipAddrLoopback ethBroadcast ethBroadcast | pure (-1)
  netifTransmit rx nb

def arpInput (nb : Netbuf) : NetM Unit := do
  let ah := nb.bytes
  if ah.length < 28 ∨ getBe16 ah 0 ≠ 1 ∨ getBe16 ah 2 ≠ 0x0800 ∨ ah.getD 4 0 ≠ 6 ∨
      ah.getD 5 0 ≠ 4 then
    pure ()
  else if getBe16 ah 6 = 1 ∧ getBe32 ah 24 = ipAddrLoopback then
    let sha := (ah.drop 8).take 6
    let some reply ← arpBuild 2 (getBe32 ah 14) sha sha | pure ()
    let _ ← netifTransmit rx reply
  else
    pure ()

def ipv4Header (payload ipId ttl proto src dst checksum : Nat) : List UInt8 :=
  [0x45, 0] ++ be16 (20 + payload) ++ be16 ipId ++ be16 0x4000 ++
    [UInt8.ofNat ttl, UInt8.ofNat proto] ++ be16 checksum ++ be32 src ++ be32 dst

def ipv4Build (nb : Netbuf) (src dst proto ttl : Nat) : NetM (Option Netbuf) := do
  let net ← get
  let header := ipv4Header (nb.bytes.length % 2 ^ 16) net.ipId ttl proto src dst
  match nb.push (header (netChecksum (header 0))) with
  | none => pure none
  | some nb =>
    modify fun net => { net with ipId := (net.ipId + 1) % 2 ^ 16 }
    pure (some nb)

def ipv4Output (nb : Netbuf) (src dst proto ttl : Nat) : NetM Int := do
  let net ← get
  if !net.up && !net.routes.any fun route => dst &&& route.2 == route.1 &&& route.2 then
    netbufFree nb
    pure (-1)
  else
    match ← ipv4Build nb (if src = 0 then ipAddrLoopback else src) dst proto ttl with
    | none =>
      netbufFree nb
      pure (-1)
    | some nb =>
      match ethBuild nb ethZero ethZero 0x0800 with
      | none =>
        netbufFree nb
        pure (-1)
      | some nb => netifTransmit rx nb

def icmpMessage (type id seq : Nat) (payload : List UInt8) (checksum : Nat) : List UInt8 :=
  [UInt8.ofNat type, 0] ++ be16 checksum ++ be16 id ++ be16 seq ++ payload

def icmpBuild (type id seq : Nat) (payload : List UInt8) : NetM (Option Netbuf) :=
  let msg := icmpMessage type id seq payload
  netbufOf (msg (netChecksum (msg 0)))

def icmpSendEcho (dst id seq : Nat) (payload : Option (List UInt8)) (len : Nat) : NetM Int := do
  let some nb ← icmpBuild 8 id seq (payloadOf payload len) | pure (-1)
  ipv4Output rx nb 0 dst 1 64

def icmpInput (nb : Netbuf) (src dst : Nat) : NetM Unit := do
  let ih := nb.bytes
  if ih.length < 8 ∨ netChecksum ih ≠ 0 ∨ ih.getD 0 0 ≠ 8 then
    pure ()
  else
    let some reply ← icmpBuild 0 (getBe16 ih 4) (getBe16 ih 6)
      ((ih.drop 8).take ((ih.length - 8) % 2 ^ 16)) | pure ()
    let _ ← ipv4Output rx reply dst src 1 64

def udpFind (net : Net) (ip port : Nat) : Option UdpBinding :=
  let bound := ((List.finRange 16).map net.bindings).filter fun b => b.inUse && b.localPort == port
  match bound.find? fun b => b.localIp == ip with
  | some b => some b
  | none => (bound.filter fun b => b.localIp == 0).getLast?

def udpBind (localIp localPort ctx : Nat) : NetM Int := do
  let net ← get
  if (List.finRange 16).any fun i => (net.bindings i).inUse &&
      (net.bindings i).localPort == localPort && (net.bindings i).localIp == localIp then
    pure (-1)
  else
    match (List.finRange 16).find? fun i => !(net.bindings i).inUse with
    | none => pure (-1)
    | some i =>
      set { net with bindings := update net.bindings i ⟨true, localIp, localPort, ctx⟩ }
      pure 0

/-- `udp_ephemeral_port` with a number of tries. -/
def udpEphemeralPort : Nat → NetM Nat
  | 0 => pure 0
  | tries + 1 => do
    let net ← get
    let port := net.ephemeralNext
    let next := (port + 1) % 2 ^ 16
    set { net with ephemeralNext := if next < 49152 then 49152 else next }
    if (List.finRange 16).any fun i =>
        (net.bindings i).inUse && (net.bindings i).localPort == port then
      udpEphemeralPort tries
    else
      pure port

def udpMessage (srcPort dstPort len : Nat) (payload : List UInt8) (checksum : Nat) : List UInt8 :=
  be16 srcPort ++ be16 dstPort ++ be16 (8 + len) ++ be16 checksum ++ payload

/-- The checksum is computed with the address of the interface if the source has none. -/
def udpOutput (src srcPort dst dstPort : Nat) (data : Option (List UInt8)) (len : Nat) :
    NetM Int := do
  let msg := udpMessage srcPort dstPort len (payloadOf data len)
  let csumSrc := if src = 0 then ipAddrLoopback else src
  let csum := netTransportChecksum csumSrc dst 17 (msg 0) ((8 + len) % 2 ^ 16)
  let some nb ← netbufOf (msg (if csum = 0 then 0xFFFF else csum)) | pure (-1)
  ipv4Output rx nb src dst 17 64

def udpInput (nb : Netbuf) (src dst : Nat) : NetM Unit := do
  let uh := nb.bytes
  let ulen := getBe16 uh 4
  if uh.length < 8 ∨ ulen < 8 ∨ ulen > uh.length ∨
      (getBe16 uh 6 ≠ 0 ∧ netTransportChecksum src dst 17 uh ulen ≠ 0) then
    pure ()
  else
    modify fun net =>
      match udpFind net dst (getBe16 uh 2) with
      | none => net
      | some b =>
        { net with
          received := net.received ++
            [⟨b.ctx, src, getBe16 uh 0, dst, getBe16 uh 2, (uh.drop 8).take (ulen - 8)⟩] }

def Net.withTcb (net : Net) (t : Fin 8) (tcb : Tcb) : Net :=
  { net with tcbs := update net.tcbs t tcb }

def modifyTcb (t : Fin 8) (change : Tcb → Tcb) : NetM Unit :=
  modify fun net => net.withTcb t (change (net.tcbs t))

/-- `tcp_gen_iss`, and the assignments that follow it. -/
def chooseIss (t : Fin 8) : NetM Unit :=
  modify fun net =>
    let iss := u32 (net.issClock + 64000)
    Net.withTcb { net with issClock := iss } t
      { net.tcbs t with
        iss, sndUna := iss, sndNxt := iss
        synsSent := 0, bytesSent := 0, finsSent := 0, wrongAck := false
        chosen := true, lost := net.allocFaults.headD false, heard := [] }

def tcpLookup (net : Net) (localIp localPort remoteIp remotePort : Nat) : Option (Fin 8) :=
  let bound := (List.finRange 8).filter fun t =>
    (net.tcbs t).inUse && (net.tcbs t).localPort == localPort &&
      ((net.tcbs t).localIp == 0 || (net.tcbs t).localIp == localIp)
  match bound.find? fun t => (net.tcbs t).state != .listen &&
      (net.tcbs t).remotePort == remotePort && (net.tcbs t).remoteIp == remoteIp with
  | some t => some t
  | none => (bound.filter fun t => (net.tcbs t).state == .listen).getLast?

def tcpSegment (srcPort dstPort seq ack flags window : Nat) (payload : List UInt8)
    (checksum : Nat) : List UInt8 :=
  be16 srcPort ++ be16 dstPort ++ be32 seq ++ be32 ack ++ [0x50, UInt8.ofNat flags] ++
    be16 window ++ be16 checksum ++ be16 0 ++ payload

def tcpBuildSegment (src srcPort dst dstPort seq ack flags window : Nat)
    (payload : List UInt8) : NetM (Option Netbuf) :=
  let seg := tcpSegment srcPort dstPort seq ack flags window payload
  netbufOf (seg
    (netTransportChecksum src dst 6 (seg 0) ((20 + payload.length) % 2 ^ 16)))

/-- The flags and the payload of a segment advance `snd_nxt`. -/
def Tcb.sent (tcb : Tcb) (flags len : Nat) : Tcb :=
  let syn := if hasFlag flags 2 then 1 else 0
  let fin := if hasFlag flags 1 then 1 else 0
  { tcb with
    sndNxt := u32 (tcb.sndNxt + syn + len + fin)
    synsSent := tcb.synsSent + syn
    bytesSent := tcb.bytesSent + len
    finsSent := tcb.finsSent + fin }

def tcpSendSegment (t : Fin 8) (flags : Nat) (data : Option (List UInt8)) (len : Nat) :
    NetM Int := do
  let tcb := (← get).tcbs t
  let some nb ← tcpBuildSegment tcb.localIp tcb.localPort tcb.remoteIp tcb.remotePort tcb.sndNxt
    tcb.rcvNxt flags (tcb.rcvWnd % 2 ^ 16) (payloadOf data len) | pure (-1)
  modifyTcb t fun tcb => tcb.sent flags len
  ipv4Output rx nb tcb.localIp tcb.remoteIp 6 64

def tcpConnect (t : Fin 8) (localIp localPort remoteIp remotePort : Nat) : NetM Int := do
  modifyTcb t fun tcb => { tcb with localIp, localPort, remoteIp, remotePort }
  chooseIss t
  modifyTcb t fun tcb => { tcb with rcvNxt := 0, state := .synSent }
  tcpSendSegment rx t 2 none 0

def tcpClose (t : Fin 8) : NetM Int := do
  match ((← get).tcbs t).state with
  | .established =>
    modifyTcb t fun tcb => { tcb with state := .finWait1 }
    tcpSendSegment rx t 0x11 none 0
  | .closeWait =>
    modifyTcb t fun tcb => { tcb with state := .lastAck }
    tcpSendSegment rx t 0x11 none 0
  | .synSent | .synReceived | .listen =>
    modifyTcb t fun tcb => { tcb with state := .closed }
    pure 0
  | _ => pure 0

/-- A segment is answered by an acknowledgement. -/
def tcpAck (t : Fin 8) : NetM Unit := do
  let _ ← tcpSendSegment rx t 0x10 none 0

/-- An acknowledgement opens the connection, whatever number it carries. -/
def Tcb.open (tcb : Tcb) (ack : Nat) : Tcb :=
  { tcb with
    sndUna := ack
    state := .established
    wrongAck := tcb.wrongAck || ack != tcb.sndNxt }

def tcpStateMachine (t : Fin 8) (seq ack flags seglen : Nat) : NetM Unit := do
  modifyTcb t fun tcb => tcb.hear ack flags
  match ((← get).tcbs t).state with
  | .listen =>
    if hasFlag flags 2 then
      modifyTcb t fun tcb => { tcb with irs := seq, rcvNxt := u32 (seq + 1) }
      chooseIss t
      modifyTcb t fun tcb => { tcb with state := .synReceived }
      let _ ← tcpSendSegment rx t 0x12 none 0
  | .synSent =>
    if flags &&& 0x12 = 0x12 then
      modifyTcb t fun tcb => { tcb.open ack with irs := seq, rcvNxt := u32 (seq + 1) }
      tcpAck rx t
    else if hasFlag flags 2 then
      modifyTcb t fun tcb => { tcb with irs := seq, rcvNxt := u32 (seq + 1), state := .synReceived }
      let _ ← tcpSendSegment rx t 0x12 none 0
  | .synReceived =>
    if hasFlag flags 0x10 then
      modifyTcb t fun tcb => tcb.open ack
  | .established =>
    if 0 < seglen then
      modifyTcb t fun tcb => { tcb with rcvNxt := u32 (seq + seglen) }
      tcpAck rx t
    if hasFlag flags 1 then
      modifyTcb t fun tcb => { tcb with rcvNxt := u32 (seq + seglen + 1), state := .closeWait }
      tcpAck rx t
  | .finWait1 =>
    let acked := hasFlag flags 0x10
    if acked then
      modifyTcb t fun tcb => { tcb with state := .finWait2 }
    if hasFlag flags 1 then
      modifyTcb t fun tcb =>
        { tcb with
          rcvNxt := u32 (seq + 1)
          state := if acked then .timeWait else .closing }
      tcpAck rx t
  | .finWait2 =>
    if hasFlag flags 1 then
      modifyTcb t fun tcb => { tcb with rcvNxt := u32 (seq + 1), state := .timeWait }
      tcpAck rx t
  | .closing =>
    if hasFlag flags 0x10 then
      modifyTcb t fun tcb => { tcb with state := .timeWait }
  | .lastAck =>
    if hasFlag flags 0x10 then
      modifyTcb t fun tcb => { tcb with state := .closed, inUse := false }
  | .timeWait | .closeWait | .closed => pure ()

def tcpInput (nb : Netbuf) (src dst : Nat) : NetM Unit := do
  let th := nb.bytes
  let hdrBytes := (th.getD 12 0).toNat / 2 ^ 4 * 4
  let segTotal := th.length % 2 ^ 16
  if th.length < 20 ∨ hdrBytes < 20 ∨ hdrBytes > th.length ∨
      netTransportChecksum src dst 6 th segTotal ≠ 0 then
    pure ()
  else
    let net ← get
    match tcpLookup net dst (getBe16 th 2) src (getBe16 th 0) with
    | none => pure ()
    | some t =>
      if (net.tcbs t).state = .listen then
        modifyTcb t fun tcb =>
          { tcb with remoteIp := src, remotePort := getBe16 th 0, localIp := dst }
      tcpStateMachine rx t (getBe32 th 4) (getBe32 th 8) (th.getD 13 0).toNat
        ((segTotal + 2 ^ 16 - hdrBytes) % 2 ^ 16)

def ipv4Input (nb : Netbuf) : NetM Unit := do
  let h := nb.bytes
  let hdrBytes := (h.getD 0 0).toNat % 2 ^ 4 * 4
  if h.length < 20 ∨ (h.getD 0 0).toNat / 2 ^ 4 ≠ 4 ∨ hdrBytes < 20 ∨ h.length < hdrBytes ∨
      netChecksum (h.take hdrBytes) ≠ 0 then
    pure ()
  else
    let totalLen := getBe16 h 2
    let nb := if totalLen < hdrBytes ∨ totalLen > h.length then nb else nb.trim totalLen
    let nb := nb.pull hdrBytes
    match (h.getD 9 0).toNat with
    | 1 => icmpInput rx nb (getBe32 h 12) (getBe32 h 16)
    | 17 => udpInput nb (getBe32 h 12) (getBe32 h 16)
    | 6 => tcpInput rx nb (getBe32 h 12) (getBe32 h 16)
    | _ => pure ()

def netifRxWith (nb : Netbuf) : NetM Unit := do
  if nb.bytes.length < 14 then
    netbufFree nb
  else
    match getBe16 nb.bytes 12 with
    | 0x0806 => arpInput rx (nb.pull 14)
    | 0x0800 => ipv4Input rx (nb.pull 14)
    | _ => pure ()
    netbufFree nb

end Layers

def tcpListen (t : Fin 8) (localIp localPort : Nat) : NetM Unit :=
  modifyTcb t fun tcb =>
    { tcb with localIp, localPort, remoteIp := 0, remotePort := 0, state := .listen }

def netifRx : Nat → Netbuf → NetM Unit
  | 0, _ => fun _ => none
  | fuel + 1, nb => netifRxWith (netifRx fuel) nb

end HnxKernel
