import Bonded.SmoltcpForwarder

/-! A server session in forwarder mode: the TCP poll thread, the tasks and sockets of UDP flows
and the probes of ICMP echo requests, which all answer on one channel to the client. -/
namespace Bonded.ServerSession

open Ipv4 Packet Session SmoltcpForwarder

structure UdpFlowKey where
  srcIp : Ipv4Addr
  dstIp : Ipv4Addr
  srcPort : ℕ
  dstPort : ℕ
  deriving DecidableEq, Repr

structure UdpFlowState where
  connectionId : UInt32
  nextSequence : UInt64
  identification : ℕ
  deriving DecidableEq, Repr

/-- A datagram that a flow's socket has received, with the header taken for it. -/
structure UdpResponse where
  header : SessionHeader
  identification : ℕ
  datagram : List UInt8
  deriving DecidableEq, Repr

/-- A flow's shared state and the task that answers for it: `running` until it ends, with a
`response` between reading its socket and sending to the client. -/
structure UdpFlow where
  key : UdpFlowKey
  state : UdpFlowState
  response : Option UdpResponse
  running : Bool
  deriving DecidableEq, Repr

/-- How far a task for a packet of the client is: looking for the flow, opening a socket for
it, or writing to the flow's state. -/
inductive UdpPhase
  | lookup
  | insert
  | update (handle : ℕ)
  deriving DecidableEq, Repr

structure UdpTask where
  header : SessionHeader
  pkt : Ipv4UdpPacket
  phase : UdpPhase
  deriving DecidableEq, Repr

structure IcmpTask where
  header : SessionHeader
  pkt : Ipv4IcmpEchoPacket
  deriving DecidableEq, Repr

/-- `udpFlowMap` refers to places in `udpFlows`; `outbound` is everything sent to the client,
in order. -/
structure State (τ : Type) where
  tcp : Forwarder τ
  udpFlowMap : Table UdpFlowKey ℕ
  udpFlows : List UdpFlow
  udpTasks : List UdpTask
  icmpTasks : List IcmpTask
  outbound : List SessionFrame
  deriving DecidableEq

def new (τ : Type) : State τ := ⟨SmoltcpForwarder.new τ,∅,[],[],[],[]⟩

section Tasks

variable {τ : Type}

def dispatchUdp (s : State τ) (frame : SessionFrame) : State τ :=
  match parseIpv4UdpPacket frame.payload with
  | none => s
  | some pkt => {s with udpTasks := s.udpTasks++[⟨frame.header,pkt,.lookup⟩]}

def dispatchIcmp (s : State τ) (frame : SessionFrame) : State τ :=
  match parseIpv4IcmpEchoPacket frame.payload with
  | none => s
  | some pkt => {s with icmpTasks := s.icmpTasks++[⟨frame.header,pkt⟩]}

/-- A call for a frame of the client; for TCP it goes on in a second step. -/
def ingestPacket (s : State τ) (frame : SessionFrame) : State τ :=
  if frame.payload.length < 20 then s
  else
    match byteAt frame.payload 9 with
    | 6 => {s with tcp := beginIngest s.tcp frame.payload}
    | 17 => dispatchUdp s frame
    | 1 => dispatchIcmp s frame
    | _ => s

def UdpTask.key (task : UdpTask) : UdpFlowKey :=
  ⟨task.pkt.srcIp,task.pkt.dstIp,task.pkt.srcPort,task.pkt.dstPort⟩

def UdpTask.newFlow (task : UdpTask) : UdpFlow :=
  ⟨task.key,⟨task.header.connectionId,task.header.sequence,task.pkt.identification⟩,none,true⟩

/-- A request moves a flow's next sequence number forwards only. -/
def UdpTask.touch (task : UdpTask) (flow : UdpFlow) : UdpFlow :=
  {flow with state :=
    ⟨task.header.connectionId,
      if flow.state.nextSequence < task.header.sequence then task.header.sequence
      else flow.state.nextSequence,
      task.pkt.identification⟩}

/-- Go on with the task at place `i`. The map is looked at again after the socket was opened,
which may have failed. -/
def forwardUdpPacket (s : State τ) (i : ℕ) (task : UdpTask) (opened : Bool) :
    State τ :=
  match task.phase with
  | .lookup =>
    let phase := match s.udpFlowMap.get task.key with
      | some handle => .update handle
      | none => .insert
    {s with udpTasks := s.udpTasks.set i {task with phase := phase}}
  | .insert =>
    if opened then
      match s.udpFlowMap.get task.key with
      | some handle => {s with udpTasks := s.udpTasks.set i {task with phase := .update handle}}
      | none => {s with
          udpFlowMap := s.udpFlowMap.set task.key s.udpFlows.length
          udpFlows := s.udpFlows++[task.newFlow]
          udpTasks := s.udpTasks.set i {task with phase := .update s.udpFlows.length}}
    else {s with udpTasks := s.udpTasks.eraseIdx i}
  | .update handle => {s with
      udpFlows := s.udpFlows.modify handle task.touch
      udpTasks := s.udpTasks.eraseIdx i}

def bufferLen : ℕ := 65535

/-- Take a header for a datagram; an empty one is passed over. -/
def UdpFlow.receive (flow : UdpFlow) (datagram : List UInt8) : UdpFlow :=
  if datagram = [] then flow
  else {flow with
    state := {flow.state with nextSequence := flow.state.nextSequence+1}
    response := some ⟨⟨flow.state.connectionId,flow.state.nextSequence,0⟩,
      flow.state.identification,datagram.take bufferLen⟩}

/-- The frame of a response, unless its packet would be too long. -/
def UdpFlow.frame (flow : UdpFlow) (r : UdpResponse) : Option SessionFrame :=
  (buildIpv4UdpPacket flow.key.dstIp flow.key.srcIp flow.key.dstPort flow.key.srcPort
    r.identification r.datagram).map fun payload => ⟨r.header,payload⟩

/-- The reply with the identifier of the request and a new checksum. -/
def restoreEcho (pkt : Ipv4IcmpEchoPacket) (buf : List UInt8) : List UInt8 :=
  let seg := putAt (putAt buf 4 (be16Bytes pkt.echoIdentifier)) 2 [0,0]
  putAt seg 2 (be16Bytes (onesComplementSum seg))

/-- The frame for what a probe's socket has received in time; it echoes the request's header. -/
def forwardIcmp (task : IcmpTask) (received : Option (List UInt8)) : Option SessionFrame :=
  match received with
  | none => none
  | some datagram =>
    let buf := datagram.take bufferLen
    if buf.length < 8 ∨ byteAt buf 0 ≠ 0 then none
    else (buildIpv4IcmpPacket task.pkt.dstIp task.pkt.srcIp task.pkt.identification
      (restoreEcho task.pkt buf)).map fun payload => ⟨task.header,payload⟩

end Tasks

/-- The steps of a session: a frame of the client comes in; the TCP poll thread or the second
part of a call goes on; a UDP task goes on; a flow's task reads its socket, sends to the client
or ends; a probe ends. -/
inductive Event
  | ingest (frame : SessionFrame)
  | tcp (event : SmoltcpForwarder.Event)
  | udpTask (i : ℕ) (opened : Bool)
  | udpReceive (handle : ℕ) (datagram : List UInt8)
  | udpSend (handle : ℕ)
  | udpStop (handle : ℕ)
  | icmpReply (i : ℕ) (received : Option (List UInt8))

section Step

variable {τ : Type} (api : TcpApi τ)

/-- Packets reach the poll thread by `ingest` only. Its new frames go to the channel. -/
def stepTcp (s : State τ) (e : SmoltcpForwarder.Event) : Option (State τ) :=
  match e with
  | .ingest _ => none
  | e => (SmoltcpForwarder.step api s.tcp e).map fun tcp =>
    {s with
      tcp := tcp
      outbound := s.outbound++(tcp.emitted.drop s.tcp.emitted.length).map Emitted.frame}

/-- The flow whose task reads its socket, or the one with a response to send. -/
def idleFlow (s : State τ) (handle : ℕ) : Option UdpFlow :=
  s.udpFlows[handle]?.filter fun flow => flow.running ∧ flow.response = none

def respondingFlow (s : State τ) (handle : ℕ) : Option (UdpFlow × UdpResponse) :=
  s.udpFlows[handle]?.bind fun flow => flow.response.map fun r => (flow,r)

def step (s : State τ) : Event → Option (State τ)
  | .ingest frame => if s.tcp.caller = none then some (ingestPacket s frame) else none
  | .tcp e => stepTcp api s e
  | .udpTask i opened => s.udpTasks[i]?.map fun task => forwardUdpPacket s i task opened
  | .udpReceive handle datagram => (idleFlow s handle).map fun flow =>
    {s with udpFlows := s.udpFlows.set handle (flow.receive datagram)}
  | .udpSend handle => (respondingFlow s handle).map fun (flow,r) =>
    {s with
      udpFlows := s.udpFlows.set handle {flow with response := none}
      outbound := s.outbound++(flow.frame r).toList}
  | .udpStop handle => (idleFlow s handle).map fun flow =>
    {s with
      udpFlows := s.udpFlows.set handle {flow with running := false}
      udpFlowMap := s.udpFlowMap.remove flow.key}
  | .icmpReply i received => s.icmpTasks[i]?.map fun task =>
    {s with
      icmpTasks := s.icmpTasks.eraseIdx i
      outbound := s.outbound++(forwardIcmp task received).toList}

end Step

end Bonded.ServerSession
