import Bonded.SmoltcpForwarder

/-! What the forwarder relies on in the TCP stack: which segments open and close its sockets, and
where its packets go. Two small stacks that keep these laws follow. -/
namespace Bonded.TcpStack

open Ipv4 Packet SmoltcpForwarder

/-- A packet of the stack to a client's address, in the layout that `drainTx` reads. -/
def Addressed (bytes : List UInt8) (ip : Ipv4Addr) (port localPort : ℕ) : Prop :=
  24 ≤ bytes.length ∧ version bytes = 4 ∧ ihl bytes = 5 ∧ ipAt bytes 16 = ip ∧
    be16 bytes 22 = port ∧ be16 bytes 20 = localPort

section Laws

variable {τ : Type} (api : TcpApi τ)

/-- A socket changed without a segment: it neither starts nor stops listening. -/
structure Quiet (a b : τ) : Prop where
  port : api.localPort b = api.localPort a
  listen : api.state b = .listen ↔ api.state a = .listen
  synReceived : api.state b = .synReceived → api.state a = .synReceived ∨ api.state a = .synSent
  synSent : api.state b = .synSent → api.state a = .synSent
  remote : api.remote b = api.remote a ∨ api.remote b = none

/-- What the TCP stack is assumed to do. A listening socket that takes a SYN is connected to
its sender; a socket starts to listen again only by a reset of a half-open connection; and
packets go to the other end of the connection. -/
structure TcpLaws : Prop where
  listen_state : ∀ p, api.state (api.listen p) = .listen
  listen_port : ∀ p, api.localPort (api.listen p) = p
  process_port : ∀ sock now bytes,
    api.localPort (api.process sock now bytes).1 = api.localPort sock
  process_listening : ∀ sock now bytes t, api.state sock = .listen →
    segment api bytes = some t → api.state (api.process sock now bytes).1 ≠ .listen →
    api.remote (api.process sock now bytes).1 = some (t.srcIp,t.srcPort) ∨
      api.remote (api.process sock now bytes).1 = none
  process_connected : ∀ sock now bytes, api.state sock ≠ .listen →
    api.remote (api.process sock now bytes).1 = api.remote sock ∨
      api.remote (api.process sock now bytes).1 = none
  process_listens : ∀ sock now bytes t, api.state sock ≠ .listen →
    segment api bytes = some t → api.state (api.process sock now bytes).1 = .listen →
    api.state sock = .synReceived ∧ t.isRst = true
  process_synReceived : ∀ sock now bytes, api.state sock ≠ .listen →
    api.state (api.process sock now bytes).1 = .synReceived →
    api.state sock = .synReceived ∨ api.state sock = .synSent
  process_synSent : ∀ sock now bytes,
    api.state (api.process sock now bytes).1 = .synSent → api.state sock = .synSent
  process_replies : ∀ sock now bytes t, segment api bytes = some t → accepts api sock t = true →
    ∀ reply ∈ (api.process sock now bytes).2, Addressed reply t.srcIp t.srcPort t.dstPort
  dispatch_quiet : ∀ sock now, Quiet api sock (api.dispatch sock now).1
  dispatch_packets : ∀ sock now, ∀ bytes ∈ (api.dispatch sock now).2, ∃ ip port,
    api.remote sock = some (ip,port) ∧ Addressed bytes ip port (api.localPort sock)
  recv_quiet : ∀ sock, Quiet api sock (api.recv sock).2
  sendSlice_quiet : ∀ sock bytes, Quiet api sock (api.sendSlice sock bytes).2

theorem Quiet.refl (a : τ) : Quiet api a a := ⟨rfl,Iff.rfl,.inl,id,.inl rfl⟩

theorem Quiet.trans {a b c : τ} (h : Quiet api a b) (h' : Quiet api b c) : Quiet api a c := by
  refine ⟨h'.port.trans h.port,h'.listen.trans h.listen,fun hc => ?_,
    fun hc => h.synSent (h'.synSent hc),?_⟩
  · rcases h'.synReceived hc with hb | hb
    · exact h.synReceived hb
    · exact .inr (h.synSent hb)
  · rcases h'.remote with heq | hnone
    · rw [heq]; exact h.remote
    · exact .inr hnone

theorem pumpFromBridge_quiet (laws : TcpLaws api) (n : ℕ) (sock : τ) (chunks : List (List UInt8))
    (pending : Option PendingBridgeBytes) :
    Quiet api sock (pumpFromBridge api n sock chunks pending).1 :=
  pumpFromBridge_sock api (fun s bytes h => h.trans api (laws.sendSlice_quiet s bytes)) n
    (Quiet.refl api sock) chunks pending

end Laws

/-! A small stack that keeps the laws: connections are opened with a SYN and its acknowledgement,
reset while half-open, and pass on the bytes in the order in which they come. -/

structure ToySocket where
  state : TcpState
  port : ℕ
  remote : Option (Ipv4Addr × ℕ)
  received : List UInt8
  deriving DecidableEq, Repr

def ToySocket.process (sock : ToySocket) (t : TcpTuple) (payload : List UInt8) : ToySocket :=
  match sock.state with
  | .listen =>
    if t.isSyn then {sock with state := .synReceived, remote := some (t.srcIp,t.srcPort)} else sock
  | .synReceived =>
    if t.isRst then {sock with state := .listen, remote := none}
    else if t.isSyn then sock
    else {sock with state := .established, received := payload}
  | .established => {sock with received := sock.received++payload}
  | _ => sock

def ToySocket.synAck (sock : ToySocket) : List (List UInt8) :=
  match sock.state, sock.remote with
  | .synReceived, some (ip,port) =>
    if sock.port < 65536 ∧ port < 65536 then
      [[0x45,0,0,40,0,0,0,0,64,6,0,0]++octets smoltcpIp++octets ip++be16Bytes sock.port++
        be16Bytes port++List.replicate 8 0++[0x50,0x12,0,0,0,0,0,0]]
    else []
  | _, _ => []

def toyTcp : TcpApi ToySocket where
  listen port := ⟨.listen,port,none,[]⟩
  state := ToySocket.state
  localPort := ToySocket.port
  remote := ToySocket.remote
  wellFormed _ := true
  process sock _ bytes :=
    match parseIpv4TcpTupleFlags bytes with
    | none => (sock,[])
    | some t => (sock.process t (bytes.drop 40),[])
  dispatch sock _ := (sock,sock.synAck)
  refuse _ := []
  canRecv sock := sock.received ≠ []
  recv sock := (sock.received,{sock with received := []})
  canSend sock := sock.state = .established
  sendSlice sock bytes := (some bytes.length,sock)

theorem ToySocket.synAck_addressed (sock : ToySocket) :
    ∀ bytes ∈ sock.synAck, ∃ ip port, sock.remote = some (ip,port) ∧
      Addressed bytes ip port sock.port := by
  intro bytes hbytes
  unfold ToySocket.synAck at hbytes
  split at hbytes
  · next ip port _ hremote =>
    split at hbytes
    · next hport =>
      obtain rfl := List.mem_singleton.mp hbytes
      refine ⟨ip,port,hremote,?_,?_,?_,rfl,?_,?_⟩
      · simp [octets,be16Bytes]
      · simp [version,byteAt]
      · simp [ihl,byteAt]
      · simp [be16,byteAt,octets,be16Bytes]; omega
      · simp [be16,byteAt,octets,be16Bytes]; omega
    · cases hbytes
  · cases hbytes

/-- The socket after a segment: unchanged, half-open, listening again, or connected. -/
inductive ToySocket.Moves (sock : ToySocket) (t : TcpTuple) : ToySocket → Prop
  | same : Moves sock t sock
  | halfOpen (received : List UInt8) : sock.state = .listen →
      Moves sock t ⟨.synReceived,sock.port,some (t.srcIp,t.srcPort),received⟩
  | reset (received : List UInt8) : sock.state = .synReceived → t.isRst = true →
      Moves sock t ⟨.listen,sock.port,none,received⟩
  | connected (received : List UInt8) : sock.state ≠ .listen →
      Moves sock t ⟨.established,sock.port,sock.remote,received⟩

theorem ToySocket.process_moves (sock : ToySocket) (t : TcpTuple) (payload : List UInt8) :
    sock.Moves t (sock.process t payload) := by
  unfold ToySocket.process
  split
  · next hstate =>
    split
    · exact .halfOpen _ hstate
    · exact .same
  · next hstate =>
    split
    · next hreset => exact .reset _ hstate hreset
    · split
      · exact .same
      · exact .connected _ (by simp [hstate])
  · next hstate =>
    simpa only [← hstate] using Moves.connected (t := t) (sock.received++payload) (by simp [hstate])
  · exact .same

/-! The same stack with the end of connections: a FIN ends the client's side of a connection, and
a reset takes the connection down. -/

/-- The segment is the last one of its sender. -/
def isFin (t : TcpTuple) : Bool := t.flags.toNat%2 = 1

def ToySocket.close (sock : ToySocket) (t : TcpTuple) : ToySocket :=
  match sock.state with
  | .established =>
    if t.isRst then {sock with state := .closed, remote := none}
    else if isFin t then {sock with state := .closeWait}
    else sock
  | .closeWait => if t.isRst then {sock with state := .closed, remote := none} else sock
  | _ => sock

def closingTcp : TcpApi ToySocket := {toyTcp with
  process := fun sock _ bytes =>
    match parseIpv4TcpTupleFlags bytes with
    | none => (sock,[])
    | some t => ((sock.process t (bytes.drop 40)).close t,[])
  canSend := fun sock => sock.state = .established ∨ sock.state = .closeWait}

/-- The socket after a segment: as before, or a connection whose end has begun. -/
inductive ToySocket.Ends (sock : ToySocket) (t : TcpTuple) : ToySocket → Prop
  | moved {after : ToySocket} : sock.Moves t after → Ends sock t after
  | ended (state : TcpState) (remote : Option (Ipv4Addr × ℕ)) (received : List UInt8) :
      sock.state ≠ .listen → state = .closeWait ∨ state = .closed →
      remote = sock.remote ∨ remote = none → Ends sock t ⟨state,sock.port,remote,received⟩

theorem ToySocket.close_ends {sock after : ToySocket} {t : TcpTuple} (h : sock.Moves t after) :
    sock.Ends t (after.close t) := by
  unfold ToySocket.close
  split
  · next hstate =>
    -- the socket is connected now, and it did not listen before
    have hkept : sock.state ≠ .listen ∧ after.port = sock.port ∧ after.remote = sock.remote := by
      cases h with
      | same => exact ⟨by simp [hstate],rfl,rfl⟩
      | halfOpen | reset => cases hstate
      | connected _ hnot => exact ⟨hnot,rfl,rfl⟩
    obtain ⟨hnot,hport,hremote⟩ := hkept
    split
    · rw [hport]
      exact .ended .closed none _ hnot (.inr rfl) (.inr rfl)
    · split
      · rw [hport]
        exact .ended .closeWait _ _ hnot (.inl rfl) (.inl hremote)
      · exact .moved h
  · next hstate =>
    split
    · cases h with
      | same => exact .ended .closed none _ (by simp [hstate]) (.inr rfl) (.inr rfl)
      | halfOpen | reset | connected => cases hstate
    · exact .moved h
  · exact .moved h

section Laws

variable (process : ToySocket → ℕ → List UInt8 → ToySocket × List (List UInt8))
  (canSend : ToySocket → Bool)

/-- A small stack keeps the laws if segments move its sockets only as above. -/
theorem laws_of_ends
    (hends : ∀ (sock : ToySocket) now bytes t, parseIpv4TcpTupleFlags bytes = some t →
      sock.Ends t (process sock now bytes).1)
    (hsame : ∀ sock now bytes, parseIpv4TcpTupleFlags bytes = none →
      (process sock now bytes).1 = sock)
    (hsilent : ∀ sock now bytes, (process sock now bytes).2 = []) :
    TcpLaws {toyTcp with process := process, canSend := canSend} := by
  have hany : ∀ (sock : ToySocket) now bytes, ∃ t, sock.Ends t (process sock now bytes).1 := by
    intro sock now bytes
    cases ht : parseIpv4TcpTupleFlags bytes with
    | none =>
      refine ⟨⟨⟨0,0,0,0⟩,0,⟨0,0,0,0⟩,0,0⟩,.moved ?_⟩
      rw [hsame sock now bytes ht]
      exact .same
    | some t => exact ⟨t,hends sock now bytes t ht⟩
  exact {
    listen_state := fun _ => rfl
    listen_port := fun _ => rfl
    process_port := by
      intro sock now bytes
      obtain ⟨t,h⟩ := hany sock now bytes
      simp only [toyTcp]
      generalize (process sock now bytes).1 = after at h ⊢
      cases h with
      | moved h => cases h <;> rfl
      | ended => rfl
    process_listening := by
      intro sock now bytes t hlisten hseg hnot
      have h := hends sock now bytes t hseg
      generalize (process sock now bytes).1 = after at h hnot ⊢
      cases h with
      | moved h =>
        cases h with
        | same => exact absurd hlisten hnot
        | halfOpen => exact .inl rfl
        | reset => exact .inr rfl
        | connected _ hstate => exact absurd hlisten hstate
      | ended _ _ _ hstate => exact absurd hlisten hstate
    process_connected := by
      intro sock now bytes hlisten
      obtain ⟨t,h⟩ := hany sock now bytes
      generalize (process sock now bytes).1 = after at h ⊢
      cases h with
      | moved h =>
        cases h with
        | same | connected => exact .inl rfl
        | halfOpen _ hstate => exact absurd hstate hlisten
        | reset => exact .inr rfl
      | ended _ _ _ _ _ hremote => exact hremote
    process_listens := by
      intro sock now bytes t hlisten hseg hlistens
      have h := hends sock now bytes t hseg
      generalize (process sock now bytes).1 = after at h hlistens
      cases h with
      | moved h =>
        cases h with
        | same => exact absurd hlistens hlisten
        | halfOpen | connected => cases hlistens
        | reset _ hstate hreset => exact ⟨hstate,hreset⟩
      | ended _ _ _ _ hend => rcases hend with rfl | rfl <;> cases hlistens
    process_synReceived := by
      intro sock now bytes hlisten hsyn
      obtain ⟨t,h⟩ := hany sock now bytes
      generalize (process sock now bytes).1 = after at h hsyn
      cases h with
      | moved h =>
        cases h with
        | same => exact .inl hsyn
        | halfOpen _ hstate => exact absurd hstate hlisten
        | reset | connected => cases hsyn
      | ended _ _ _ _ hend => rcases hend with rfl | rfl <;> cases hsyn
    process_synSent := by
      intro sock now bytes hsyn
      obtain ⟨t,h⟩ := hany sock now bytes
      generalize (process sock now bytes).1 = after at h hsyn
      cases h with
      | moved h =>
        cases h with
        | same => exact hsyn
        | halfOpen | reset | connected => cases hsyn
      | ended _ _ _ _ hend => rcases hend with rfl | rfl <;> cases hsyn
    process_replies := by
      intro sock now bytes t _ _ reply hreply
      simp only [hsilent] at hreply
      cases hreply
    dispatch_quiet := fun sock _ => Quiet.refl _ sock
    dispatch_packets := fun sock _ => sock.synAck_addressed
    recv_quiet := fun _ => ⟨rfl,Iff.rfl,.inl,id,.inl rfl⟩
    sendSlice_quiet := fun sock _ => Quiet.refl _ sock }

end Laws

theorem toyTcp_laws : TcpLaws toyTcp := by
  refine laws_of_ends toyTcp.process toyTcp.canSend
    (fun sock now bytes t ht => ?_) (fun sock now bytes ht => ?_) fun sock now bytes => ?_
  · simp only [toyTcp,ht]
    exact .moved (sock.process_moves t _)
  · simp only [toyTcp,ht]
  · simp only [toyTcp]
    split <;> rfl

theorem closingTcp_laws : TcpLaws closingTcp := by
  refine laws_of_ends closingTcp.process closingTcp.canSend
    (fun sock now bytes t ht => ?_) (fun sock now bytes ht => ?_) fun sock now bytes => ?_
  · simp only [closingTcp,ht]
    exact ToySocket.close_ends (sock.process_moves t _)
  · simp only [closingTcp,ht]
  · simp only [closingTcp]
    split <;> rfl

/-- A segment of a client in a packet without options. -/
def tcpPacket (src dst : Ipv4Addr) (srcPort dstPort : ℕ) (flags : UInt8) (payload : List UInt8) :
    List UInt8 :=
  [0x45,0]++be16Bytes (40+payload.length)++[0,0,0,0,64,6,0,0]++octets src++octets dst++
    be16Bytes srcPort++be16Bytes dstPort++List.replicate 8 0++[0x50,flags,0,0,0,0,0,0]++payload

def clientIp : Ipv4Addr := ⟨10,8,0,2⟩

def flowA : Flow := ⟨clientIp,1000,⟨1,1,1,1⟩,443⟩

def flowB : Flow := ⟨clientIp,1001,⟨2,2,2,2⟩,443⟩

def syn (f : Flow) : List UInt8 :=
  tcpPacket f.clientSrcIp f.originalDstIp f.clientSrcPort f.dstPort 2 []

def acked (f : Flow) (payload : List UInt8) : List UInt8 :=
  tcpPacket f.clientSrcIp f.originalDstIp f.clientSrcPort f.dstPort 16 payload

def fin (f : Flow) (payload : List UInt8) : List UInt8 :=
  tcpPacket f.clientSrcIp f.originalDstIp f.clientSrcPort f.dstPort 17 payload

def reset (f : Flow) : List UInt8 :=
  tcpPacket f.clientSrcIp f.originalDstIp f.clientSrcPort f.dstPort 4 []

end Bonded.TcpStack
