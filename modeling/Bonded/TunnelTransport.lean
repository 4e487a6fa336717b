import Bonded.Ipv4
import Bonded.WireGuardServer

/-! The client's WireGuard transport and the sending half of a server peer: the wrapping of
a frame in an IPv4 packet, the lazy handshake, and the two ways in which tunnel output
reaches the socket. The tunnel library is a parameter, as it is for the listener. -/
namespace Bonded.TunnelTransport

open Packet Session WireGuardServer
open Ipv4 (putAt be16Bytes octets ipv4Checksum)

def wgMaxDatagram : ℕ := 1500

def wgEncapOverhead : ℕ := 60

/-- The size of the client's receive buffer. -/
def udpBuf : ℕ := wgMaxDatagram

/-- The size of the listener's receive buffer. -/
def datagramBuf : ℕ := wgMaxDatagram+wgEncapOverhead

def wgFakeSrcIp : Ipv4Addr := ⟨100,64,0,1⟩

def wgFakeDstIp : Ipv4Addr := ⟨100,64,0,2⟩

/-- The header before its checksum is filled in. The length field keeps the low 16 bits. -/
def wrapHeader (total : ℕ) : List UInt8 :=
  [0x45,0]++be16Bytes total++[0,0,0,0,64,253,0,0]++octets wgFakeSrcIp++octets wgFakeDstIp

def wrapInIpv4 (payload : List UInt8) : List UInt8 :=
  let header := wrapHeader (20+payload.length)
  putAt header 10 (be16Bytes (ipv4Checksum header))++payload

/-- The IP packet that carries a frame through the tunnel. -/
def framePacket (frame : SessionFrame) : List UInt8 := wrapInIpv4 (encode frame)

/-- The sending side of the tunnel library; `timeSinceLastHandshake` says whether the
value is present. -/
structure TunnSender (τ : Type) where
  updateTimers : τ → ℕ → TunnResult × τ
  encapsulate : τ → List UInt8 → TunnResult × τ
  formatHandshakeInitiation : τ → TunnResult × τ
  timeSinceLastHandshake : τ → Bool

def toNetwork : TunnResult → List (List UInt8)
  | .writeToNetwork packet => [packet]
  | _ => []

/-- Send packets in order until the socket refuses one as too long. The result says
whether all went out, and which did. -/
def sendAll (maxDatagram : ℕ) : List (List UInt8) → Bool × List (List UInt8)
  | [] => (true,[])
  | packet::rest =>
    if packet.length ≤ maxDatagram then
      ((sendAll maxDatagram rest).1,packet::(sendAll maxDatagram rest).2)
    else (false,[])

/-- The transport; `wire` is a record of the datagrams its socket has taken. -/
structure WireGuardTransport (τ : Type) where
  tunn : τ
  peerIp : IpAddr
  pendingRecv : List SessionFrame
  wire : List (List UInt8)
  deriving DecidableEq

section Client

variable {τ : Type} (api : TunnApi τ) (out : TunnSender τ) (maxDatagram : ℕ)

/-- Hand packets to the socket; the source returns early when one is refused. -/
def emit (s : WireGuardTransport τ) (packets : List (List UInt8)) : Bool × WireGuardTransport τ :=
  ((sendAll maxDatagram packets).1,{s with wire := s.wire++(sendAll maxDatagram packets).2})

def processDatagram (s : WireGuardTransport τ) (datagram : List UInt8) :
    Bool × WireGuardTransport τ :=
  let first := api.decapsulate s.tunn s.peerIp datagram
  let rest := api.flush first.2
  let all := (first.1::rest.1).foldl (fun acc result => (handleTunnResult result acc).2) ⟨[],[]⟩
  match emit maxDatagram {s with tunn := rest.2} all.outbound with
  | (false,s) => (false,s)
  | (true,s) => (true,{s with pendingRecv := s.pendingRecv++all.frames})

/-- The reading loop of `establishSession` over the datagrams that come in before its
deadline. -/
def awaitHandshake : WireGuardTransport τ → List (List UInt8) → Bool × WireGuardTransport τ
  | s, [] => (out.timeSinceLastHandshake s.tunn,s)
  | s, datagram::rest =>
    if out.timeSinceLastHandshake s.tunn then (true,s)
    else
      match processDatagram api maxDatagram s datagram with
      | (false,s) => (false,s)
      | (true,s) => awaitHandshake s rest

def establishSession (s : WireGuardTransport τ) (datagrams : List (List UInt8)) :
    Bool × WireGuardTransport τ :=
  if out.timeSinceLastHandshake s.tunn then (true,s)
  else
    match out.formatHandshakeInitiation s.tunn with
    | (.writeToTunnel _,tunn) | (.err,tunn) => (false,{s with tunn := tunn})
    | (result,tunn) =>
      match emit maxDatagram {s with tunn := tunn} (toNetwork result) with
      | (false,s) => (false,s)
      | (true,s) => awaitHandshake api out maxDatagram s datagrams

def serviceTimers (s : WireGuardTransport τ) (now : ℕ) : Bool × WireGuardTransport τ :=
  let timers := out.updateTimers s.tunn now
  emit maxDatagram {s with tunn := timers.2} (toNetwork timers.1)

/-- The rest of `send` once the timers are serviced; `datagrams` are those that come in
while it waits for a handshake. -/
def sendPacket (s : WireGuardTransport τ) (ipPacket : List UInt8)
    (datagrams : List (List UInt8)) : Bool × WireGuardTransport τ :=
  match out.encapsulate s.tunn ipPacket with
  | (.writeToNetwork packet,tunn) => emit maxDatagram {s with tunn := tunn} [packet]
  | (.writeToTunnel _,tunn) => (false,{s with tunn := tunn})
  | (.err,tunn) | (.done,tunn) =>
    match establishSession api out maxDatagram {s with tunn := tunn} datagrams with
    | (false,s) => (false,s)
    | (true,s) =>
      match out.encapsulate s.tunn ipPacket with
      | (.writeToNetwork packet,tunn) => emit maxDatagram {s with tunn := tunn} [packet]
      | (_,tunn) => (false,{s with tunn := tunn})

def send (s : WireGuardTransport τ) (frame : SessionFrame) (now : ℕ)
    (datagrams : List (List UInt8)) : Bool × WireGuardTransport τ :=
  match serviceTimers out maxDatagram s now with
  | (false,s) => (false,s)
  | (true,s) => sendPacket api out maxDatagram s (framePacket frame) datagrams

/-- The loop of `recv`. A round services the timers and then waits for a datagram; the
call is dropped when no datagram comes, or when the rounds run out. -/
def recvLoop : WireGuardTransport τ → List (ℕ × Option (List UInt8)) → WireGuardTransport τ
  | s, [] => s
  | s, (now,datagram)::rest =>
    match serviceTimers out maxDatagram s now, datagram with
    | (false,s), _ => s
    | (true,s), none => s
    | (true,s), some datagram =>
      match processDatagram api maxDatagram s datagram with
      | (false,s) => s
      | (true,s) =>
        match s.pendingRecv with
        | [] => recvLoop s rest
        | _::pending => {s with pendingRecv := pending}

def recv (s : WireGuardTransport τ) (rounds : List (ℕ × Option (List UInt8))) :
    WireGuardTransport τ :=
  match s.pendingRecv with
  | [] => recvLoop api out maxDatagram s rounds
  | _::pending => {s with pendingRecv := pending}

/-- The server's counterpart of `send`, with the packets its socket took. -/
def sendFrame (r : WireGuardPeerRuntime τ) (frame : SessionFrame) (now : ℕ) :
    Bool × WireGuardPeerRuntime τ × List (List UInt8) :=
  match r.peerAddr with
  | none => (false,r,[])
  | some _ =>
    let timers := out.updateTimers r.tunn now
    match out.encapsulate timers.2 (framePacket frame) with
    | (.writeToNetwork packet,tunn) =>
      let sent := sendAll maxDatagram (toNetwork timers.1++[packet])
      (sent.1,{r with tunn := tunn},sent.2)
    | (_,tunn) => (false,{r with tunn := tunn},[])

end Client

section Sockets

variable {maxDatagram : ℕ} {packets : List (List UInt8)}

variable (h : ∀ packet ∈ packets, packet.length ≤ maxDatagram)
include h

theorem sendAll_of_fits :
    sendAll maxDatagram packets = (true,packets) := by
  induction packets with
  | nil => rfl
  | cons packet rest ih =>
    rw [sendAll,if_pos (h packet (by simp)),ih (fun p hp => h p (by simp [hp]))]

/-- What goes out when the last packet is the only one that may be too long. -/
theorem sendAll_append_singleton (last : List UInt8) : sendAll maxDatagram (packets++[last]) =
      if last.length ≤ maxDatagram then (true,packets++[last]) else (false,packets) := by
  induction packets with
  | nil => by_cases hl : last.length ≤ maxDatagram <;> simp [sendAll,hl]
  | cons packet rest ih =>
    rw [List.cons_append,sendAll,if_pos (h packet (by simp)),ih (fun p hp => h p (by simp [hp]))]
    split_ifs <;> rfl

theorem emit_of_fits {τ : Type} (s : WireGuardTransport τ) :
    emit maxDatagram s packets = (true,{s with wire := s.wire++packets}) := by
  rw [emit,sendAll_of_fits h]

end Sockets

section Wrapping

theorem wrapInIpv4_eq (payload : List UInt8) :
    ∃ c₁ c₂, wrapInIpv4 payload = [0x45,0]++be16Bytes (20+payload.length)++[0,0,0,0,64,253,c₁,c₂]++
      octets wgFakeSrcIp++octets wgFakeDstIp++payload :=
  ⟨_,_,rfl⟩

@[simp] theorem wrapInIpv4_length (payload : List UInt8) :
    (wrapInIpv4 payload).length = 20+payload.length := by
  obtain ⟨c₁,c₂,h⟩ := wrapInIpv4_eq payload
  rw [h]
  simp [be16Bytes,octets]
  omega

theorem be16_wrapInIpv4 {payload : List UInt8} (h : 20+payload.length < 65536) :
    be16 (wrapInIpv4 payload) 2 = 20+payload.length := by
  obtain ⟨c₁,c₂,hw⟩ := wrapInIpv4_eq payload
  rw [hw]
  simp [be16,byteAt,be16Bytes]
  omega

theorem unwrapFromIpv4_wrapInIpv4 (payload : List UInt8) :
    unwrapFromIpv4 (wrapInIpv4 payload) = some payload := by
  obtain ⟨c₁,c₂,hw⟩ := wrapInIpv4_eq payload
  have hlen := wrapInIpv4_length payload
  have hihl : (byteAt (wrapInIpv4 payload) 0 &&& 0x0f).toNat*4 = 20 := by
    have hfirst : byteAt (wrapInIpv4 payload) 0 = 0x45 := by
      rw [hw]
      rfl
    rw [hfirst]
    rfl
  have hdrop : (wrapInIpv4 payload).drop 20 = payload := by
    rw [hw]
    rfl
  rw [unwrapFromIpv4,if_neg (by omega),hihl,if_neg (by omega),hdrop]

@[simp] theorem framePacket_length (frame : SessionFrame) :
    (framePacket frame).length = frame.payload.length+36 := by
  simp [framePacket,encode]
  omega

theorem handleTunnResult_framePacket (frame : SessionFrame) (acc : Decoded) :
    handleTunnResult (.writeToTunnel (framePacket frame)) acc =
      (true,{acc with frames := acc.frames++[frame]}) := by
  simp only [handleTunnResult,framePacket,unwrapFromIpv4_wrapInIpv4,decode_encode]

end Wrapping

end Bonded.TunnelTransport
