import Bonded.TunnelTransport

/-! Which accepted frames get through an established tunnel. A frame of `n` payload bytes
travels in a datagram of `n+68`: 16 bytes of frame header, 20 of IPv4 header and 32 of
encryption. The senders grow their buffer to any size, but the receive buffers have a fixed
one, and a datagram cut to it no longer authenticates. -/
namespace Bonded.TransportDelivery

open Bytes Packet Session TunnelTransport
open WireGuardServer (IpAddr TunnApi TunnResult WireGuardPeerRuntime handleTunnResult)

section Delivery

variable {τ : Type} (api : TunnApi τ) (out : TunnSender τ) (maxDatagram : ℕ)

/-- An established tunnel between a sender, once it has serviced its timers, and a receiver
with nothing queued. What the sender encrypts the receiver gives back up to the length the
IPv4 header states, and it rejects a datagram that was cut. -/
structure Established (sender : τ) (now : ℕ) (receive : List UInt8 → TunnResult × τ) : Prop where
  timers : ∀ packet ∈ toNetwork (out.updateTimers sender now).1, packet.length ≤ maxDatagram
  encrypts : ∀ ipPacket, ∃ datagram tunn,
    out.encapsulate (out.updateTimers sender now).2 ipPacket = (.writeToNetwork datagram,tunn) ∧
    datagram.length = ipPacket.length+32 ∧
    (datagram.length ≤ maxDatagram →
      (receive datagram).1 = .writeToTunnel (ipPacket.take (be16 ipPacket 2)) ∧
      ∀ cut, cut <+: datagram → cut ≠ datagram → (receive cut).1 = .err)
  quiet : ∀ datagram, (api.flush (receive datagram).2).1 = []

/-- The client's `send` fails, or the server decodes the frame from the datagram. -/
def ClientDelivers (s : WireGuardTransport τ) (now : ℕ) (datagrams : List (List UInt8))
    (r : WireGuardPeerRuntime τ) (src : IpAddr) (frame : SessionFrame) : Prop :=
  (send api out maxDatagram s frame now datagrams).1 = true →
    ∀ datagram, (send api out maxDatagram s frame now datagrams).2.wire.getLast? = some datagram →
      (WireGuardServer.processDatagram api r src (datagram.take datagramBuf)).1.map (·.frames) =
        some [frame]

/-- The server's `sendFrame` fails, or the client decodes the frame from the datagram. -/
def ServerDelivers (r : WireGuardPeerRuntime τ) (now : ℕ) (s : WireGuardTransport τ)
    (frame : SessionFrame) : Prop :=
  (sendFrame out maxDatagram r frame now).1 = true →
    ∀ datagram, (sendFrame out maxDatagram r frame now).2.2.getLast? = some datagram →
      (processDatagram api maxDatagram s (datagram.take udpBuf)).2.pendingRecv =
        s.pendingRecv++[frame]

end Delivery

section Limits

variable {τ : Type} {api : TunnApi τ} {out : TunnSender τ} {maxDatagram : ℕ}
variable {sender : τ} {now : ℕ} {receive : List UInt8 → TunnResult × τ}

/-- The datagram of a frame, with what a receiver makes of it from a buffer that is small
enough for the length field not to wrap. -/
theorem Established.datagram (h : Established api out maxDatagram sender now receive)
    (frame : SessionFrame) : ∃ datagram tunn,
    out.encapsulate (out.updateTimers sender now).2 (framePacket frame) =
      (.writeToNetwork datagram,tunn) ∧
    datagram.length = frame.payload.length+68 ∧
    ∀ buffer ≤ 65535, datagram.length ≤ maxDatagram →
      (receive (datagram.take buffer)).1 =
        if frame.payload.length+68 ≤ buffer then .writeToTunnel (framePacket frame) else .err := by
  obtain ⟨datagram,tunn,hseal,hlen,hopen⟩ := h.encrypts (framePacket frame)
  rw [framePacket_length] at hlen
  refine ⟨datagram,tunn,hseal,hlen,fun buffer hbuffer hmax => ?_⟩
  obtain ⟨hwhole,hcut⟩ := hopen hmax
  split_ifs with hfits
  · have htotal : be16 (framePacket frame) 2 = (framePacket frame).length := by
      have hp := framePacket_length frame
      rw [framePacket,wrapInIpv4_length] at hp
      rw [framePacket,be16_wrapInIpv4 (by omega),wrapInIpv4_length]
    rw [List.take_of_length_le (by omega),hwhole,htotal,List.take_length]
  · refine hcut _ (List.take_prefix _ _) fun heq => ?_
    have := congrArg List.length heq
    rw [List.length_take] at this
    omega

theorem length_le_of_mem {packets : List (List UInt8)} {last : List UInt8}
    (h : ∀ packet ∈ packets, packet.length ≤ maxDatagram) (hlast : last.length ≤ maxDatagram) :
    ∀ packet ∈ packets++[last],packet.length ≤ maxDatagram := by
  intro packet hp
  rcases List.mem_append.mp hp with hp | hp
  · exact h packet hp
  · rw [List.mem_singleton.mp hp]
    exact hlast

variable (maxDatagram) in
/-- What a datagram does to the client when nothing is queued in its tunnel. -/
theorem pendingRecv_processDatagram {s : WireGuardTransport τ} {datagram : List UInt8}
    (hquiet : (api.flush (api.decapsulate s.tunn s.peerIp datagram).2).1 = []) :
    (∀ frame, (api.decapsulate s.tunn s.peerIp datagram).1 = .writeToTunnel (framePacket frame) →
      (processDatagram api maxDatagram s datagram).2.pendingRecv = s.pendingRecv++[frame]) ∧
    ((api.decapsulate s.tunn s.peerIp datagram).1 = .err →
      (processDatagram api maxDatagram s datagram).2.pendingRecv = s.pendingRecv) := by
  constructor
  · intro frame hfirst
    simp [processDatagram,hquiet,hfirst,handleTunnResult_framePacket,emit,sendAll]
  · intro hfirst
    simp [processDatagram,hquiet,hfirst,handleTunnResult,emit,sendAll]

/-- The client's frames get through when they fit the listener's buffer or the socket
refuses them. -/
theorem clientDelivers_iff {s : WireGuardTransport τ} {r : WireGuardPeerRuntime τ} {src : IpAddr}
    (h : Established api out maxDatagram s.tunn now (api.decapsulate r.tunn src))
    (hpending : r.pendingRecv = []) (datagrams : List (List UInt8)) (frame : SessionFrame) :
    ClientDelivers api out maxDatagram s now datagrams r src frame ↔
      frame.payload.length ≤ 1492 ∨ maxDatagram < frame.payload.length+68 := by
  obtain ⟨datagram,tunn,hseal,hlen,hreceive⟩ := h.datagram frame
  have hsend : send api out maxDatagram s frame now datagrams =
      emit maxDatagram ⟨tunn,s.peerIp,s.pendingRecv,
        s.wire++toNetwork (out.updateTimers s.tunn now).1⟩ [datagram] := by
    rw [send,serviceTimers,emit_of_fits h.timers]
    simp only [sendPacket,hseal]
  rw [ClientDelivers,hsend]
  by_cases hmax : datagram.length ≤ maxDatagram
  · rw [emit_of_fits (by simpa using hmax)]
    have hresult := hreceive datagramBuf (by decide) hmax
    have hquiet := h.quiet (datagram.take datagramBuf)
    simp only [List.getLast?_concat,Option.some.injEq,forall_true_left,forall_eq']
    -- the datagram went out, so its length against the buffer decides
    by_cases hfits : frame.payload.length+68 ≤ datagramBuf
    · rw [if_pos hfits] at hresult
      have hfit : frame.payload.length ≤ 1492 := by
        simp only [datagramBuf,wgMaxDatagram,wgEncapOverhead] at hfits
        omega
      simp [WireGuardServer.processDatagram,hresult,handleTunnResult_framePacket,hquiet,hpending,
        hfit]
    · rw [if_neg hfits] at hresult
      simp only [WireGuardServer.processDatagram,hresult,handleTunnResult,Option.map_none,
        reduceCtorEq,false_iff]
      simp only [datagramBuf,wgMaxDatagram,wgEncapOverhead] at hfits
      omega
  · refine iff_of_true (fun hsent => ?_) (Or.inr (by omega))
    simp [emit,sendAll,hmax] at hsent

/-- The server's frames get through when they fit the client's buffer, which is the smaller
one, or the socket refuses them. -/
theorem serverDelivers_iff {s : WireGuardTransport τ} {r : WireGuardPeerRuntime τ}
    (h : Established api out maxDatagram r.tunn now (api.decapsulate s.tunn s.peerIp))
    (hbound : r.peerAddr ≠ none) (frame : SessionFrame) :
    ServerDelivers api out maxDatagram r now s frame ↔
      frame.payload.length ≤ 1432 ∨ maxDatagram < frame.payload.length+68 := by
  obtain ⟨datagram,tunn,hseal,hlen,hreceive⟩ := h.datagram frame
  obtain ⟨addr,haddr⟩ := Option.ne_none_iff_exists'.mp hbound
  have hsend : sendFrame out maxDatagram r frame now =
      ((sendAll maxDatagram (toNetwork (out.updateTimers r.tunn now).1++[datagram])).1,
        {r with tunn := tunn},
        (sendAll maxDatagram (toNetwork (out.updateTimers r.tunn now).1++[datagram])).2) := by
    simp only [sendFrame,haddr,hseal]
  rw [ServerDelivers,hsend]
  by_cases hmax : datagram.length ≤ maxDatagram
  · rw [sendAll_of_fits (length_le_of_mem h.timers hmax)]
    have hresult := hreceive udpBuf (by decide) hmax
    have hclient := pendingRecv_processDatagram maxDatagram
      (h.quiet (datagram.take udpBuf))
    simp only [List.getLast?_concat,Option.some.injEq,forall_true_left,forall_eq']
    by_cases hfits : frame.payload.length+68 ≤ udpBuf
    · rw [if_pos hfits] at hresult
      refine iff_of_true (hclient.1 frame hresult) (Or.inl ?_)
      simp only [udpBuf,wgMaxDatagram] at hfits
      omega
    · rw [if_neg hfits] at hresult
      rw [hclient.2 hresult]
      refine iff_of_false (by simp) ?_
      simp only [udpBuf,wgMaxDatagram] at hfits
      omega
  · refine iff_of_true (fun hsent => ?_) (Or.inr (by omega))
    rw [sendAll_append_singleton h.timers,if_neg hmax] at hsent
    exact absurd hsent (by simp)

end Limits

section PlainTunnel

/-- A cipher that writes the length in front and pads to the real overhead. -/
def plainEncrypt (ipPacket : List UInt8) : List UInt8 :=
  beBytes 8 ipPacket.length++(ipPacket++List.replicate 24 0)

def plainDecrypt (datagram : List UInt8) : TunnResult :=
  let length := beNat (datagram.take 8)
  let ipPacket := (datagram.drop 8).take length
  if datagram.length = length+32 then .writeToTunnel (ipPacket.take (be16 ipPacket 2)) else .err

def plainTunn : TunnApi Unit :=
  ⟨fun _ => none,fun _ _ => (),fun _ _ datagram => (plainDecrypt datagram,()),fun _ => ([],())⟩

def plainSender : TunnSender Unit :=
  ⟨fun _ _ => (.done,()),fun _ ipPacket => (.writeToNetwork (plainEncrypt ipPacket),()),
    fun _ => (.done,()),fun _ => true⟩

theorem plainEncrypt_length (ipPacket : List UInt8) :
    (plainEncrypt ipPacket).length = ipPacket.length+32 := by
  simp [plainEncrypt]
  omega

theorem plainDecrypt_plainEncrypt {ipPacket : List UInt8} (h : ipPacket.length < 256^8) :
    plainDecrypt (plainEncrypt ipPacket) = .writeToTunnel (ipPacket.take (be16 ipPacket 2)) := by
  have hlength : beNat ((plainEncrypt ipPacket).take 8) = ipPacket.length := by
    rw [plainEncrypt,List.take_left' (beBytes_length _ _),beNat_beBytes _ _ h]
  have hpacket : ((plainEncrypt ipPacket).drop 8).take ipPacket.length = ipPacket := by
    rw [plainEncrypt,List.drop_left' (beBytes_length _ _),List.take_left]
  rw [plainDecrypt,hlength,hpacket,if_pos (plainEncrypt_length ipPacket)]

theorem plainDecrypt_cut {ipPacket cut : List UInt8} (h : ipPacket.length < 256^8)
    (hcut : cut <+: plainEncrypt ipPacket) (hne : cut ≠ plainEncrypt ipPacket) :
    plainDecrypt cut = .err := by
  have hlen := plainEncrypt_length ipPacket
  have hlt : cut.length ≠ (plainEncrypt ipPacket).length :=
    fun heq => hne (hcut.eq_of_length heq)
  rw [plainDecrypt,if_neg]
  intro hlength
  -- a cut that still states its length keeps the whole length field
  obtain ⟨rest,hrest⟩ := hcut
  have htake : cut.take 8 = (plainEncrypt ipPacket).take 8 := by
    rw [← hrest,List.take_append_of_le_length (by omega)]
  rw [htake,plainEncrypt,List.take_left' (beBytes_length _ _),beNat_beBytes _ _ h] at hlength
  omega

theorem plainTunn_decapsulate (src : IpAddr) (datagram : List UInt8) :
    plainTunn.decapsulate () src datagram = (plainDecrypt datagram,()) := rfl

theorem plain_established (now : ℕ) (src : IpAddr) :
    Established plainTunn plainSender 65507 () now (plainTunn.decapsulate () src) where
  timers := by simp [plainSender,toNetwork]
  encrypts := fun ipPacket => by
    refine ⟨_,_,rfl,plainEncrypt_length ipPacket,fun hmax => ?_⟩
    rw [plainEncrypt_length] at hmax
    have h : ipPacket.length < 256^8 := by omega
    simp only [plainTunn_decapsulate]
    exact ⟨plainDecrypt_plainEncrypt h,fun cut hcut hne => plainDecrypt_cut h hcut hne⟩
  quiet := fun _ => rfl

def demoAddr : WireGuardServer.SocketAddr := ⟨.v4 ⟨203,0,113,7⟩,51820⟩

def demoClient : WireGuardTransport Unit := ⟨(),.v4 ⟨198,51,100,1⟩,[],[]⟩

def demoServer : WireGuardPeerRuntime Unit := ⟨1,"key",(),some demoAddr,[]⟩

def demoFrame (length : ℕ) : SessionFrame := ⟨⟨7,0,0⟩,List.replicate length 0⟩

theorem length_payload_demoFrame (length : ℕ) : (demoFrame length).payload.length = length :=
  List.length_replicate

end PlainTunnel

end Bonded.TransportDelivery
