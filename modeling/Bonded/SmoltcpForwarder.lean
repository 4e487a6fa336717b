import Bonded.Ipv4
import Bonded.Machine
import Bonded.Session

/-! The TCP half of the forwarder: `ingestPacket` feeds a bounded command queue, and the poll
thread drains it, runs the TCP stack, sends the stack's packets to the client, promotes
established sockets to bridges and moves bytes between sockets and bridges. The TCP stack is
a parameter; what the model adds to the code's data is history and is named as such. -/
namespace Bonded.SmoltcpForwarder

open Ipv4 Machine Packet Session

inductive TcpState
  | closed
  | listen
  | synSent
  | synReceived
  | established
  | finWait1
  | finWait2
  | closeWait
  | closing
  | lastAck
  | timeWait
  deriving DecidableEq, Repr

/-- The sockets of the TCP stack. `process` takes a segment that was handed to the socket,
`dispatch` lets it send, both with the packets that result; `refuse` answers a segment that
no socket accepts, and a packet that is not `wellFormed` is ignored. -/
structure TcpApi (τ : Type) where
  listen : ℕ → τ
  state : τ → TcpState
  localPort : τ → ℕ
  remote : τ → Option (Ipv4Addr × ℕ)
  wellFormed : List UInt8 → Bool
  process : τ → ℕ → List UInt8 → τ × List (List UInt8)
  dispatch : τ → ℕ → τ × List (List UInt8)
  refuse : List UInt8 → List (List UInt8)
  canRecv : τ → Bool
  recv : τ → List UInt8 × τ
  canSend : τ → Bool
  sendSlice : τ → List UInt8 → Option ℕ × τ

/-- The two ends of a client's connection, with the address the client dialled. -/
structure Flow where
  clientSrcIp : Ipv4Addr
  clientSrcPort : ℕ
  originalDstIp : Ipv4Addr
  dstPort : ℕ
  deriving DecidableEq, Repr

/-- What is left of a flow once its destination address is rewritten. -/
def Flow.triple (f : Flow) : Ipv4Addr × ℕ × ℕ := (f.clientSrcIp,f.clientSrcPort,f.dstPort)

/-- A rewritten packet; where the client sent it is history. -/
structure Injected where
  bytes : List UInt8
  originalDst : Ipv4Addr
  deriving DecidableEq, Repr

inductive PollCommand
  | injectPacket (packet : Injected)
  | createTcpSocket (flow : Flow)
  deriving DecidableEq, Repr

structure PendingTcpConn where
  handle : ℕ
  flow : Flow
  deriving DecidableEq, Repr

structure PendingBridgeBytes where
  bytes : List UInt8
  offset : ℕ
  deriving DecidableEq, Repr

/-- `bridge` stands for the two channels to the bridge task. -/
structure ActiveTcpConn where
  flow : Flow
  bridge : ℕ
  fromBridge : List (List UInt8)
  pendingFromBridge : Option PendingBridgeBytes
  deriving DecidableEq, Repr

/-- Bytes sent to a bridge; the destinations of the packets that the socket had been handed
by then are history. -/
structure Chunk where
  bytes : List UInt8
  origins : List Ipv4Addr
  deriving DecidableEq, Repr

/-- A bridge task connects to `flow.originalDstIp` and `flow.dstPort`. -/
structure Bridge where
  connId : UInt32
  flow : Flow
  sent : List Chunk
  deriving DecidableEq, Repr

/-- A socket in the set. History: the flow of the SYN it accepted, and the destinations of
the packets it was handed since then. -/
structure Slot (τ : Type) where
  sock : τ
  accepted : Option Flow
  handed : List Ipv4Addr
  deriving DecidableEq

/-- A packet of the stack; the flow of the socket that made it is history. -/
structure Tx where
  bytes : List UInt8
  producer : Option Flow
  deriving DecidableEq, Repr

structure Emitted where
  frame : SessionFrame
  producer : Option Flow
  deriving DecidableEq, Repr

/-- Where the poll thread is: taking commands, sending the stack's packets, or ended by a
panic. -/
inductive Phase
  | drain
  | emit
  | stopped
  deriving DecidableEq, Repr

/-- `caller` is the packet of a call of `ingestPacket` that is still running; the rest is the
poll thread's, and shares the queue with the caller. -/
structure Forwarder (τ : Type) where
  caller : Option (List UInt8)
  queue : List PollCommand
  rx : List Injected
  sockets : List (Option (Slot τ))
  pending : List PendingTcpConn
  active : Table ℕ ActiveTcpConn
  promoted : List ℕ
  nextConnId : UInt32
  globalSeq : UInt64
  tx : List Tx
  phase : Phase
  bridges : List Bridge
  emitted : List Emitted
  deriving DecidableEq

def new (τ : Type) : Forwarder τ := ⟨none,[],[],[],[],∅,[],1,0,[],.drain,[],[]⟩

def capacity : ℕ := 8192

section Client

variable {τ : Type}

/-- A command that finds the queue full is dropped. -/
def trySend (s : Forwarder τ) (command : PollCommand) : Forwarder τ :=
  if s.queue.length < capacity then {s with queue := s.queue++[command]} else s

def flowOf (t : TcpTuple) (originalDst : Ipv4Addr) : Flow :=
  ⟨t.srcIp,t.srcPort,originalDst,t.dstPort⟩

/-- A SYN first asks for a listening socket. -/
def announceSyn (s : Forwarder τ) (payload : List UInt8) : Forwarder τ :=
  match parseTcpHeader payload with
  | some (t,true) => trySend s (.createTcpSocket (flowOf t t.dstIp))
  | _ => s

/-- The first part of a call. Packets of the other protocols do not reach the poll thread. -/
def beginIngest (s : Forwarder τ) (payload : List UInt8) : Forwarder τ :=
  if payload.length < 20 then s
  else if byteAt payload 9 = 6 then {announceSyn s payload with caller := some payload}
  else s

def injected (payload : List UInt8) : Option Injected :=
  match rewriteDstIpInbound payload with
  | .packet bytes => some ⟨bytes,ipAt payload 16⟩
  | _ => none

/-- The second part. A panic of the rewrite ends the caller and queues nothing. -/
def endIngest (s : Forwarder τ) : Forwarder τ :=
  match s.caller.bind injected with
  | some packet => {trySend s (.injectPacket packet) with caller := none}
  | none => {s with caller := none}

/-- A call that the poll thread does not run into. -/
def ingestPacket (s : Forwarder τ) (payload : List UInt8) : Forwarder τ :=
  endIngest (beginIngest s payload)

end Client

section Stack

variable {τ : Type} (api : TcpApi τ)

def socketAt (sockets : List (Option (Slot τ))) (handle : ℕ) : Option (Slot τ) :=
  sockets.getD handle none

/-- A new socket takes the first free place. -/
def addSocket (slot : Slot τ) : List (Option (Slot τ)) → ℕ × List (Option (Slot τ))
  | [] => (0,[some slot])
  | none::rest => (0,some slot::rest)
  | some other::rest => ((addSocket slot rest).1+1,some other::(addSocket slot rest).2)

/-- Listening on port 0 fails, and nothing is kept of the command. -/
def createTcpSocket (s : Forwarder τ) (flow : Flow) : Forwarder τ :=
  if flow.dstPort = 0 then s
  else
    let added := addSocket ⟨api.listen flow.dstPort,none,[]⟩ s.sockets
    {s with sockets := added.2, pending := s.pending++[⟨added.1,flow⟩]}

def takeCommand (s : Forwarder τ) : Option (Forwarder τ) :=
  match s.queue with
  | [] => none
  | .injectPacket packet::rest => some {s with queue := rest, rx := s.rx++[packet]}
  | .createTcpSocket flow::rest => some (createTcpSocket api {s with queue := rest} flow)

/-- The segment that the stack sees in a packet. -/
def segment (bytes : List UInt8) : Option TcpTuple :=
  if api.wellFormed bytes then parseIpv4TcpTupleFlags bytes else none

/-- A listening socket accepts a SYN for its port, a connected one the segments of its
connection. -/
def accepts (sock : τ) (t : TcpTuple) : Bool :=
  api.localPort sock = t.dstPort &&
    match api.state sock with
    | .listen => t.isSyn
    | .closed => false
    | _ => api.remote sock = some (t.srcIp,t.srcPort)

/-- A slot after its socket changed by a packet that was handed to it: the history starts
with the SYN that takes the socket out of the listening state and ends when it returns. -/
def noteSegment (slot : Slot τ) (sock : τ) (flow : Flow) : Slot τ :=
  if api.state sock = .listen then ⟨sock,none,[]⟩
  else if api.state slot.sock = .listen then ⟨sock,some flow,[flow.originalDstIp]⟩
  else ⟨sock,slot.accepted,slot.handed++[flow.originalDstIp]⟩

/-- The socket that gets a segment, if there is one. -/
def receiver (sockets : List (Option (Slot τ))) (t : TcpTuple) : Option ℕ :=
  sockets.findIdx? fun slot => slot.any fun slot => accepts api slot.sock t

/-- A slot after its socket was handed a packet. -/
def processSlot (now : ℕ) (slot : Slot τ) (packet : Injected) (t : TcpTuple) : Slot τ :=
  noteSegment api slot (api.process slot.sock now packet.bytes).1 (flowOf t packet.originalDst)

/-- Hand a packet to the first socket, in the order of the set, that accepts it. -/
def ingress (now : ℕ) (s : Forwarder τ) (packet : Injected) : Forwarder τ :=
  match segment api packet.bytes with
  | none => s
  | some t =>
    match receiver api s.sockets t with
    | none => {s with tx := s.tx++(api.refuse packet.bytes).map fun bytes => ⟨bytes,none⟩}
    | some i =>
      match socketAt s.sockets i with
      | none => s
      | some slot => {s with
          sockets := s.sockets.set i (some (processSlot api now slot packet t))
          tx := s.tx++(api.process slot.sock now packet.bytes).2.map fun bytes =>
            ⟨bytes,(processSlot api now slot packet t).accepted⟩}

theorem receiver_accepts {sockets : List (Option (Slot τ))} {t : TcpTuple} {i : ℕ}
    (h : receiver api sockets t = some i) :
    ∃ slot, socketAt sockets i = some slot ∧ accepts api slot.sock t = true := by
  obtain ⟨hlt,hany,-⟩ := List.findIdx?_eq_some_iff_getElem.mp h
  cases hslot : sockets[i] with
  | none => simp [hslot] at hany
  | some slot =>
    exact ⟨slot,by simp [socketAt,List.getD_eq_getElem?_getD,hlt,hslot],by simpa [hslot] using hany⟩

/-- What can become of a packet: it is ignored, refused, or handed to a socket. -/
theorem ingress_cases (now : ℕ) (s : Forwarder τ) (packet : Injected) :
    ingress api now s packet = s ∨
    ingress api now s packet =
      {s with tx := s.tx++(api.refuse packet.bytes).map fun bytes => ⟨bytes,none⟩} ∨
    ∃ t i slot, segment api packet.bytes = some t ∧ receiver api s.sockets t = some i ∧
      socketAt s.sockets i = some slot ∧ accepts api slot.sock t = true ∧
      ingress api now s packet = {s with
        sockets := s.sockets.set i (some (processSlot api now slot packet t))
        tx := s.tx++(api.process slot.sock now packet.bytes).2.map fun bytes =>
          ⟨bytes,(processSlot api now slot packet t).accepted⟩} := by
  cases hseg : segment api packet.bytes with
  | none => exact .inl (by simp only [ingress,hseg])
  | some t =>
    cases hrec : receiver api s.sockets t with
    | none => exact .inr (.inl (by simp only [ingress,hseg,hrec]))
    | some i =>
      obtain ⟨slot,hslot,hacc⟩ := receiver_accepts api hrec
      exact .inr (.inr ⟨t,i,slot,rfl,hrec,hslot,hacc,by simp only [ingress,hseg,hrec,hslot]⟩)

def sendingSlot (now : ℕ) (slot : Slot τ) : Slot τ := {slot with sock := (api.dispatch slot.sock now).1}

def egress (now : ℕ) (s : Forwarder τ) : Forwarder τ :=
  {s with
    sockets := s.sockets.map fun slot => slot.map (sendingSlot api now)
    tx := s.tx++s.sockets.flatMap fun slot => slot.elim [] fun slot =>
      (api.dispatch slot.sock now).2.map fun bytes => ⟨bytes,slot.accepted⟩}

def egressRounds (now : ℕ) : ℕ → Forwarder τ → Forwarder τ
  | 0, s => s
  | n+1, s => egressRounds now n (egress api now s)

/-- All packets that have arrived, then rounds of sending. -/
def pollStack (now rounds : ℕ) (s : Forwarder τ) : Forwarder τ :=
  egressRounds api now rounds (s.rx.foldl (ingress api now) {s with rx := []})

def besidesStack (s : Forwarder τ) : Option (List UInt8) × List PollCommand × List PendingTcpConn ×
    Table ℕ ActiveTcpConn × List ℕ × Phase × List Bridge × List Emitted :=
  (s.caller,s.queue,s.pending,s.active,s.promoted,s.phase,s.bridges,s.emitted)

theorem pollStack_keeps (now rounds : ℕ) (s : Forwarder τ) :
    (pollStack api now rounds s).rx = [] ∧
      besidesStack (pollStack api now rounds s) = besidesStack s := by
  have hingress : ∀ (t : Forwarder τ) x, ((ingress api now t x).rx,
      besidesStack (ingress api now t x)) = (t.rx,besidesStack t) := by
    intro t x
    rcases ingress_cases api now t x with heq | heq | ⟨_,_,_,_,_,_,_,heq⟩ <;> rw [heq] <;> rfl
  have hegress : ∀ n (t : Forwarder τ), ((egressRounds api now n t).rx,
      besidesStack (egressRounds api now n t)) = (t.rx,besidesStack t) := by
    intro n
    induction n with
    | zero => exact fun t => rfl
    | succ n ih => exact fun t => ih (egress api now t)
  have hdone := (hegress rounds _).trans
    (foldl_keeps (fun t => (t.rx,besidesStack t)) hingress s.rx {s with rx := []})
  exact Prod.mk.inj hdone

end Stack

section Emit

variable {τ : Type}

inductive Lookup
  | missing
  | unique (ip : Ipv4Addr)
  | ambiguous
  deriving DecidableEq, Repr

/-- The destination that all entries for a triple agree on. -/
def originalSrc (flows : List Flow) (triple : Ipv4Addr × ℕ × ℕ) : Lookup :=
  match flows.filter fun f => f.triple = triple with
  | [] => .missing
  | f::rest => if rest.all fun g => g.originalDstIp = f.originalDstIp
      then .unique f.originalDstIp else .ambiguous

def activeFlows (s : Forwarder τ) : List Flow := s.active.toList.map fun e => e.2.flow

def pendingFlows (s : Forwarder τ) : List Flow := s.pending.map PendingTcpConn.flow

/-- The pending connections are looked at only if no active one has the triple. -/
def flowSource (s : Forwarder τ) (triple : Ipv4Addr × ℕ × ℕ) : Option Ipv4Addr :=
  match originalSrc (activeFlows s) triple with
  | .unique ip => some ip
  | .ambiguous => none
  | .missing =>
    match originalSrc (pendingFlows s) triple with
    | .unique ip => some ip
    | _ => none

/-- The triple is read at fixed offsets; shorter packets are dropped. -/
def txTriple (bytes : List UInt8) : Option (Ipv4Addr × ℕ × ℕ) :=
  if bytes.length < 20 ∨ version bytes ≠ 4 ∨ bytes.length < 24 then none
  else some (ipAt bytes 16,be16 bytes 22,be16 bytes 20)

/-- The rewrite of a packet to the client panics exactly on a bad header length. -/
theorem rewriteSrcIpOutbound_isSome {pkt : List UInt8} {triple : Ipv4Addr × ℕ × ℕ} (src : Ipv4Addr)
    (htriple : txTriple pkt = some triple) :
    (rewriteSrcIpOutbound pkt src).isSome ↔ ihl pkt*4 ≤ pkt.length := by
  have hlen : ¬ pkt.length < 20 := by
    intro hshort
    simp [txTriple,hshort] at htriple
  simp only [rewriteSrcIpOutbound,if_neg hlen]
  split
  · simp; omega
  · simp; omega

/-- The header of a TCP frame to the client. -/
def tcpHeader (globalSeq : UInt64) : SessionHeader := ⟨0,globalSeq,0⟩

/-- Send one packet of the stack to the client, as if the flow's destination had sent it. -/
def drainTx (s : Forwarder τ) : Option (Forwarder τ) :=
  match s.tx with
  | [] => none
  | packet::rest =>
    match (txTriple packet.bytes).bind (flowSource s) with
    | none => some {s with tx := rest}
    | some ip =>
      match rewriteSrcIpOutbound packet.bytes ip with
      | none => some {s with tx := rest, phase := .stopped}
      | some payload => some {s with
          tx := rest
          globalSeq := s.globalSeq+1
          emitted := s.emitted++[⟨⟨tcpHeader s.globalSeq,payload⟩,packet.producer⟩]}

end Emit

section Finish

variable {τ : Type} (api : TcpApi τ)

def isEstablished (s : Forwarder τ) (p : PendingTcpConn) : Bool :=
  p.handle ∉ s.promoted ∧
    (socketAt s.sockets p.handle).any fun slot => api.state slot.sock = .established

/-- Another destination is active for the same triple. -/
def tupleConflict (s : Forwarder τ) (flow : Flow) : Bool :=
  (activeFlows s).any fun f => f.triple = flow.triple ∧ f.originalDstIp ≠ flow.originalDstIp

/-- Connection ids skip zero when they wrap. -/
def succConnId (id : UInt32) : UInt32 := max (id+1) 1

/-- Give an established socket its bridge, or remove it if its triple is taken. -/
def promoteOne (s : Forwarder τ) (p : PendingTcpConn) : Forwarder τ :=
  if tupleConflict s p.flow then
    {s with sockets := s.sockets.set p.handle none, promoted := s.promoted.filter (· ≠ p.handle)}
  else {s with
    promoted := p.handle::s.promoted
    nextConnId := succConnId s.nextConnId
    bridges := s.bridges++[⟨s.nextConnId,p.flow,[]⟩]
    active := s.active.set p.handle ⟨p.flow,s.bridges.length,[],none⟩}

/-- Established sockets are found first and then promoted, the last one first. -/
def promote (s : Forwarder τ) : Forwarder τ :=
  (s.pending.filter (isEstablished api s)).reverse.foldl promoteOne
    {s with pending := s.pending.filter fun p => ¬ isEstablished api s p}

def PendingBridgeBytes.isComplete (p : PendingBridgeBytes) : Bool := p.bytes.length ≤ p.offset

/-- Move bytes of the bridge into the socket while it takes them. Every round takes a chunk,
drops a chunk that is done or sends a byte, so the fuel of `pumpFuel` is never used up. -/
def pumpFromBridge : ℕ → τ → List (List UInt8) → Option PendingBridgeBytes →
    τ × List (List UInt8) × Option PendingBridgeBytes
  | 0, sock, chunks, pending => (sock,chunks,pending)
  | n+1, sock, chunks, pending =>
    if api.canSend sock then
      match pending with
      | none =>
        match chunks with
        | [] => (sock,[],none)
        | bytes::rest =>
          pumpFromBridge n sock rest (if bytes = [] then none else some ⟨bytes,0⟩)
      | some p =>
        if p.isComplete then pumpFromBridge n sock chunks none
        else
          match api.sendSlice sock (p.bytes.drop p.offset) with
          | (none,sock) => (sock,chunks,some p)
          | (some 0,sock) => (sock,chunks,some p)
          | (some (k+1),sock) =>
            let p' : PendingBridgeBytes := {p with offset := p.offset+(k+1)}
            pumpFromBridge n sock chunks (if p'.isComplete then none else some p')
    else (sock,chunks,pending)

def pumpFuel (chunks : List (List UInt8)) (pending : Option PendingBridgeBytes) : ℕ :=
  2*chunks.length+chunks.flatten.length+pending.elim 0 (fun p => p.bytes.length+1)+1

/-- What is left to move; every round takes away from it. -/
def pumpLeft (chunks : List (List UInt8)) (pending : Option PendingBridgeBytes) : ℕ :=
  2*chunks.length+chunks.flatten.length+pending.elim 0 (fun p => p.bytes.length-p.offset+1)

theorem pumpLeft_take (bytes : List UInt8) (rest : List (List UInt8)) :
    pumpLeft rest (if bytes = [] then none else some ⟨bytes,0⟩) < pumpLeft (bytes::rest) none := by
  by_cases hempty : bytes = []
  · rw [if_pos hempty,hempty]
    simp only [pumpLeft,List.length_cons,List.flatten_cons,List.nil_append,Option.elim]
    omega
  · rw [if_neg hempty]
    simp only [pumpLeft,List.length_cons,List.flatten_cons,List.length_append,Option.elim]
    omega

theorem pumpLeft_drop (chunks : List (List UInt8)) (p : PendingBridgeBytes) :
    pumpLeft chunks none < pumpLeft chunks (some p) := by
  simp only [pumpLeft,Option.elim]
  omega

theorem pumpLeft_send (chunks : List (List UInt8)) {p : PendingBridgeBytes} (k : ℕ)
    (h : ¬ p.isComplete = true) :
    pumpLeft chunks (if PendingBridgeBytes.isComplete ⟨p.bytes,p.offset+(k+1)⟩ then none
      else some ⟨p.bytes,p.offset+(k+1)⟩) < pumpLeft chunks (some p) := by
  simp only [PendingBridgeBytes.isComplete,decide_eq_true_eq,not_le] at h
  split
  · simp only [pumpLeft,Option.elim]
    omega
  · simp only [pumpLeft,Option.elim]
    omega

/-- The pump does to the socket only what sending does to it. -/
theorem pumpFromBridge_sock {R : τ → Prop}
    (hsend : ∀ sock bytes, R sock → R (api.sendSlice sock bytes).2) (n : ℕ) {sock : τ}
    (h : R sock) (chunks : List (List UInt8)) (pending : Option PendingBridgeBytes) :
    R (pumpFromBridge api n sock chunks pending).1 := by
  induction n generalizing sock chunks pending with
  | zero => exact h
  | succ n ih =>
    simp only [pumpFromBridge]
    split
    · cases pending with
      | none =>
        cases chunks with
        | nil => exact h
        | cons bytes rest => exact ih h rest _
      | some p =>
        simp only
        split
        · exact ih h chunks none
        · have hsent := hsend sock (p.bytes.drop p.offset) h
          generalize api.sendSlice sock (p.bytes.drop p.offset) = sent at hsent
          obtain ⟨written,sock'⟩ := sent
          rcases written with _ | _ | k
          · exact hsent
          · exact hsent
          · exact ih hsent chunks _
    · exact h

/-- What the client has sent since the last iteration. -/
def receive (sock : τ) : List UInt8 × τ := if api.canRecv sock then api.recv sock else ([],sock)

/-- Add a chunk to what a bridge was sent; an empty one is not sent. -/
def sendToBridge (bridges : List Bridge) (bridge : ℕ) (chunk : Chunk) : List Bridge :=
  if chunk.bytes = [] then bridges
  else bridges.modify bridge fun b => {b with sent := b.sent++[chunk]}

/-- Serve one active connection; `replies` is what has come from the upstream side. -/
def serviceOne (replies : ℕ → List (List UInt8)) (s : Forwarder τ) (handle : ℕ) : Forwarder τ :=
  match s.active.get handle, socketAt s.sockets handle with
  | some conn, some slot =>
    let received := receive api slot.sock
    let chunks := conn.fromBridge++replies conn.bridge
    let pumped := pumpFromBridge api (pumpFuel chunks conn.pendingFromBridge) received.2 chunks
      conn.pendingFromBridge
    {s with
      bridges := sendToBridge s.bridges conn.bridge ⟨received.1,slot.handed⟩
      sockets := s.sockets.set handle (some {slot with sock := pumped.1})
      active := s.active.set handle
        {conn with fromBridge := pumped.2.1, pendingFromBridge := pumped.2.2}}
  | _, _ => s

def handles (s : Forwarder τ) : List ℕ := s.active.toList.map Prod.fst

def service (replies : ℕ → List (List UInt8)) (s : Forwarder τ) : Forwarder τ :=
  (handles s).foldl (serviceOne api replies) s

def isActive : TcpState → Bool
  | .closed | .timeWait | .listen => false
  | _ => true

/-- An active connection whose socket has closed. -/
def isClosed (s : Forwarder τ) (handle : ℕ) : Bool :=
  (socketAt s.sockets handle).any fun slot =>
    ¬ isActive (api.state slot.sock) ∧ api.state slot.sock ≠ .listen

def removeOne (s : Forwarder τ) (handle : ℕ) : Forwarder τ :=
  {s with
    active := s.active.remove handle
    promoted := s.promoted.filter (· ≠ handle)
    sockets := s.sockets.set handle none}

def removeClosed (s : Forwarder τ) : Forwarder τ :=
  let removed := ((handles s).filter (isClosed api s)).foldl removeOne s
  {removed with promoted := removed.promoted.filter fun h => removed.active.contains h}

/-- The rest of an iteration after the packets have been sent. -/
def finish (replies : ℕ → List (List UInt8)) (s : Forwarder τ) : Forwarder τ :=
  {removeClosed api (service api replies (promote api s)) with phase := .drain}

/-- What the end of an iteration leaves alone. -/
def besidesFinish (s : Forwarder τ) : Option (List UInt8) × List PollCommand × List Injected ×
    List Tx × List Emitted := (s.caller,s.queue,s.rx,s.tx,s.emitted)

theorem finish_keeps (replies : ℕ → List (List UInt8)) (s : Forwarder τ) :
    besidesFinish (finish api replies s) = besidesFinish s := by
  have hpromote : besidesFinish (promote api s) = besidesFinish s := by
    refine foldl_keeps besidesFinish (fun t p => ?_) _ _
    unfold promoteOne
    split <;> rfl
  have hservice : ∀ t, besidesFinish (service api replies t) = besidesFinish t := by
    refine fun t => foldl_keeps besidesFinish (fun u h => ?_) _ _
    unfold serviceOne
    split <;> rfl
  have hremove : ∀ t : Forwarder τ, besidesFinish (removeClosed api t) = besidesFinish t :=
    fun t => foldl_keeps (f := removeOne) besidesFinish (fun _ _ => rfl) _ t
  have hphase : ∀ t : Forwarder τ, besidesFinish {t with phase := .drain} = besidesFinish t :=
    fun t => rfl
  rw [finish,hphase,hremove,hservice,hpromote]

end Finish

/-- The two parts of a call for a packet of the client, and the steps of the poll thread: it
takes a command, runs the stack when the queue is empty, sends one packet of the stack, or
finishes the iteration. -/
inductive Event
  | ingest (payload : List UInt8)
  | inject
  | command
  | poll (now rounds : ℕ)
  | emit
  | finish (replies : ℕ → List (List UInt8))

def step {τ : Type} (api : TcpApi τ) (s : Forwarder τ) : Event → Option (Forwarder τ)
  | .ingest payload => if s.caller = none then some (beginIngest s payload) else none
  | .inject => if s.caller = none then none else some (endIngest s)
  | .command => if s.phase = .drain then takeCommand api s else none
  | .poll now rounds =>
    if s.phase = .drain ∧ s.queue = [] then some {pollStack api now rounds s with phase := .emit}
    else none
  | .emit => if s.phase = .emit then drainTx s else none
  | .finish replies =>
    if s.phase = .emit ∧ s.tx = [] then some (finish api replies s) else none

end Bonded.SmoltcpForwarder
