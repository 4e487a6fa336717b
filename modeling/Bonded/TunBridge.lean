import Bonded.Machine
import Bonded.Session
import Bonded.Packet

/-! The TUN bridge: clients' packets go to one TUN device, and packets read from
the device go back to the session that last used their destination as a source. -/
namespace Bonded.TunBridge

open Session Packet

def parseIpv4SrcDst (packet : List UInt8) : Option (Ipv4Addr × Ipv4Addr) :=
  if packet.length < 20 then none
  else
    let version := byteAt packet 0 >>> 4
    let ihl := (byteAt packet 0 &&& 0x0f).toNat
    if version ≠ 4 ∨ ihl < 5 then none
    else
      let headerLen := ihl*4
      if packet.length < headerLen then none
      else
        let totalLen := be16 packet 2
        if totalLen < headerLen ∨ totalLen > packet.length then none
        else some (ipAt packet 12,ipAt packet 16)

structure OutboundPacket where
  sessionId : UInt64
  connectionId : UInt32
  payload : List UInt8
  deriving DecidableEq

/-- Where a session's return packets go. `tx` names the channel of the connection
that registered the route; the route owns its only sender. -/
structure SessionRoute where
  tx : ℕ
  connectionId : UInt32
  nextServerSequence : UInt64
  deriving DecidableEq

structure TunBridgeState where
  sessions : Table UInt64 SessionRoute
  ipToSession : Table Ipv4Addr UInt64
  deriving DecidableEq

def new : TunBridgeState := ⟨∅,∅⟩

/-- Insert a fresh route, dropping the sender of the route it replaces. -/
def registerSession (s : TunBridgeState) (sessionId : UInt64) (tx : ℕ) : TunBridgeState :=
  {s with sessions := s.sessions.set sessionId ⟨tx,1,0⟩}

def unregisterSession (s : TunBridgeState) (sessionId : UInt64) : TunBridgeState :=
  ⟨s.sessions.remove sessionId,s.ipToSession.retain fun _ mapped => mapped ≠ sessionId⟩

/-- A return frame handed to a session's channel. -/
structure Delivery where
  sessionId : UInt64
  tx : ℕ
  frame : SessionFrame
  deriving DecidableEq

/-- The bridge with its queue, its two tasks, the channels whose receiver is gone, and
the frames it has delivered. -/
structure BridgeSystem where
  state : TunBridgeState
  queue : List OutboundPacket
  writerAlive : Bool
  readerAlive : Bool
  closed : List ℕ
  delivered : List Delivery
  deriving DecidableEq

def start : BridgeSystem := ⟨new,[],true,true,[],[]⟩

/-- A registered session takes over its packet's connection id and source address. -/
def rememberSource (s : TunBridgeState) (pkt : OutboundPacket) (src : Ipv4Addr) :
    TunBridgeState :=
  match s.sessions.get pkt.sessionId with
  | none => s
  | some route =>
    ⟨s.sessions.set pkt.sessionId {route with connectionId := pkt.connectionId},
      s.ipToSession.set src pkt.sessionId⟩

/-- The writer's work on one packet: remember its source for a registered session, then
write it to the device. A failed write ends the writer. -/
def writePacket (s : BridgeSystem) (pkt : OutboundPacket) (writeOk : Bool) : BridgeSystem :=
  match parseIpv4SrcDst pkt.payload with
  | none => s
  | some (src,_) =>
    let routed := {s with state := rememberSource s.state pkt src}
    if writeOk then routed else {routed with writerAlive := false}

/-- The reader's work on one packet from the device. -/
def readPacket (s : BridgeSystem) (packet : List UInt8) : BridgeSystem :=
  match parseIpv4SrcDst packet with
  | none => s
  | some (_,dst) =>
    match s.state.ipToSession.get dst with
    | none => s
    | some sessionId =>
      match s.state.sessions.get sessionId with
      | none => {s with state := {s.state with ipToSession := s.state.ipToSession.remove dst}}
      | some route =>
        let frame : SessionFrame := ⟨⟨route.connectionId,route.nextServerSequence,0⟩,packet⟩
        let used := {route with nextServerSequence := route.nextServerSequence+1}
        if route.tx ∈ s.closed then {s with state := unregisterSession s.state sessionId}
        else {s with
          state := {s.state with sessions := s.state.sessions.set sessionId used}
          delivered := s.delivered++[⟨sessionId,route.tx,frame⟩]}

/-- Enqueue a client's frame; the queue is gone once the writer has ended. -/
def submitClientFrame (s : BridgeSystem) (sessionId : UInt64) (frame : SessionFrame) :
    BridgeSystem :=
  if s.writerAlive then
    {s with queue := s.queue++[⟨sessionId,frame.header.connectionId,frame.payload⟩]}
  else s

inductive Event
  | register (sessionId : UInt64) (tx : ℕ)
  | unregister (sessionId : UInt64)
  | submit (sessionId : UInt64) (frame : SessionFrame)
  | write (pkt : OutboundPacket) (writeOk : Bool)
  | read (packet : List UInt8)
  | readFailed
  | dropReceiver (tx : ℕ)
  deriving DecidableEq

/-- A connection registers with a channel it has just made, and drops the receiver only
after it has unregistered, so no route holds the sender then. -/
def step (s : BridgeSystem) : Event → Option BridgeSystem
  | .register sessionId tx =>
    if tx ∈ s.closed then none
    else some {s with state := registerSession s.state sessionId tx}
  | .unregister sessionId => some {s with state := unregisterSession s.state sessionId}
  | .submit sessionId frame => some (submitClientFrame s sessionId frame)
  | .write pkt writeOk =>
    if s.writerAlive = true ∧ s.queue.head? = some pkt then
      some (writePacket {s with queue := s.queue.tail} pkt writeOk)
    else none
  | .read packet => if s.readerAlive then some (readPacket s packet) else none
  | .readFailed => if s.readerAlive then some {s with readerAlive := false} else none
  | .dropReceiver tx =>
    if ∃ e ∈ s.state.sessions.toList, e.2.tx = tx then none
    else some {s with closed := tx::s.closed}

theorem rememberSource_sessions (s : TunBridgeState) (pkt : OutboundPacket) (src : Ipv4Addr)
    (c : UInt64) : (rememberSource s pkt src).sessions.get c =
      if c = pkt.sessionId then (s.sessions.get c).map fun r =>
        {r with connectionId := pkt.connectionId}
      else s.sessions.get c := by
  unfold rememberSource
  split
  · next h =>
    split
    · next hc => simp [hc,h]
    · rfl
  · next route h =>
    simp only [Table.get_set]
    split
    · next hc => simp [hc,h]
    · rfl

theorem rememberSource_ips (s : TunBridgeState) (pkt : OutboundPacket) (src ip : Ipv4Addr) :
    (rememberSource s pkt src).ipToSession.get ip =
      if s.sessions.contains pkt.sessionId = true ∧ ip = src then some pkt.sessionId
      else s.ipToSession.get ip := by
  unfold rememberSource
  split
  · next h => simp [Table.contains,h]
  · next route h => simp [Table.contains,h,Table.get_set]

theorem unregisterSession_ips (s : TunBridgeState) (c a : UInt64) (ip : Ipv4Addr) :
    (unregisterSession s c).ipToSession.get ip = some a ↔ a ≠ c ∧ s.ipToSession.get ip = some a := by
  simp only [unregisterSession,Table.get_retain,Option.filter_eq_some_iff,decide_eq_true_eq]
  exact and_comm

@[simp] theorem writePacket_queue (s : BridgeSystem) (pkt : OutboundPacket) (writeOk : Bool) :
    (writePacket s pkt writeOk).queue = s.queue := by
  unfold writePacket
  split
  · rfl
  · split <;> rfl

@[simp] theorem readPacket_queue (s : BridgeSystem) (packet : List UInt8) :
    (readPacket s packet).queue = s.queue := by
  unfold readPacket
  repeat' split
  all_goals rfl

end Bonded.TunBridge
