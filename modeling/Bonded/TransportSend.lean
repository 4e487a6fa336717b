import Bonded.TunnelTransport

/-! Which frames the client's transport puts on the wire. Without a session the tunnel
library queues a packet, and the queue goes out once the handshake response has been
processed. `sendPacket` encapsulates a second time after it has waited for a handshake, so
a frame that found a handshake in progress goes out from the queue and then once more. -/
namespace Bonded.TransportSend

open Machine Session TunnelTransport
open WireGuardServer (TunnApi TunnResult Decoded handleTunnResult)

/-- The part of a tunnel that decides where a packet goes. -/
structure TunnView where
  session : Bool
  inProgress : Bool
  queue : List (List UInt8)
  deriving DecidableEq

/-- The calls a client makes. A `send` has the time of its timers and the datagrams that
come in if it waits for a handshake, a `recv` the rounds of its loop. -/
inductive Call
  | send (frame : SessionFrame) (now : ℕ) (datagrams : List (List UInt8))
  | recv (rounds : List (ℕ × Option (List UInt8)))
  deriving DecidableEq

/-- A transport with the frames for which `send` has returned without an error. -/
structure Client (τ : Type) where
  transport : WireGuardTransport τ
  sent : List SessionFrame
  deriving DecidableEq

section Calls

variable {τ : Type} (api : TunnApi τ) (out : TunnSender τ) (maxDatagram : ℕ)

def call (s : Client τ) : Call → Option (Client τ)
  | .send frame now datagrams =>
    match send api out maxDatagram s.transport frame now datagrams with
    | (true,transport) => some ⟨transport,s.sent++[frame]⟩
    | (false,transport) => some ⟨transport,s.sent⟩
  | .recv rounds => some {s with transport := recv api out maxDatagram s.transport rounds}

variable (view : τ → TunnView) (carries : List UInt8 → Option (List UInt8))

/-- A handshake or keepalive packet; an initiation, with 148 bytes, is the longest. -/
def IsControl (datagram : List UInt8) : Prop := carries datagram = none ∧ datagram.length ≤ 148

def IsData (ipPacket datagram : List UInt8) : Prop :=
  carries datagram = some ipPacket ∧ datagram.length = ipPacket.length+32

/-- The library's queue. A packet is encrypted when there is a session, and is queued behind
an initiation when there is none. The calls with an empty datagram give the queue in order
once there is a session, and nothing else touches it. -/
structure Queues : Prop where
  timers : ∀ t now,
    (∀ datagram ∈ toNetwork (out.updateTimers t now).1, IsControl carries datagram) ∧
    (view (out.updateTimers t now).2).session = (view t).session ∧
    (view (out.updateTimers t now).2).queue = (view t).queue
  encrypt : ∀ t ipPacket, (view t).session = true → ∃ datagram u,
    out.encapsulate t ipPacket = (.writeToNetwork datagram,u) ∧
    IsData carries ipPacket datagram ∧ view u = view t
  enqueue : ∀ t ipPacket, (view t).session = false → (view t).inProgress = false → ∃ datagram u,
    out.encapsulate t ipPacket = (.writeToNetwork datagram,u) ∧
    IsControl carries datagram ∧ view u = ⟨false,true,(view t).queue++[ipPacket]⟩
  decapsulate : ∀ t src datagram,
    (∀ reply ∈ toNetwork (api.decapsulate t src datagram).1, IsControl carries reply) ∧
    (view (api.decapsulate t src datagram).2).queue = (view t).queue
  flush : ∀ t, (view t).session = true →
    List.Forall₂ (IsData carries) (view t).queue ((api.flush t).1.flatMap toNetwork) ∧
    (view (api.flush t).2).queue = []
  hold : ∀ t, (view t).session = false →
    (∀ datagram ∈ (api.flush t).1.flatMap toNetwork, IsControl carries datagram) ∧
    (view (api.flush t).2).session = false ∧ (view (api.flush t).2).queue = (view t).queue

/-- The packets that went out encrypted, in order. -/
def dataOn (s : WireGuardTransport τ) : List (List UInt8) := s.wire.filterMap carries

/-- No accepted frame is on the wire twice or out of order, and none is missing once there
is a session. -/
def SentOnce (s : Client τ) : Prop :=
  dataOn carries s.transport <+: s.sent.map framePacket ∧
    ((view s.transport.tunn).session = true →
      dataOn carries s.transport = s.sent.map framePacket)

/-- A `send` that finds a session, or else no handshake in progress once its timers are
serviced, with a frame that the socket will take later. -/
def FindsNoHandshake (s : Client τ) : Call → Prop
  | .send frame now _ =>
    (view (out.updateTimers s.transport.tunn now).2).session = true ∨
      (view (out.updateTimers s.transport.tunn now).2).inProgress = false ∧
        frame.payload.length+68 ≤ maxDatagram
  | .recv _ => True

instance (s : Client τ) (c : Call) : Decidable (FindsNoHandshake out maxDatagram view s c) := by
  cases c <;> unfold FindsNoHandshake <;> infer_instance

instance (s : Client τ) : Decidable (SentOnce view carries s) := by
  unfold SentOnce
  infer_instance

end Calls

section Accounting

variable {τ : Type} {api : TunnApi τ} {out : TunnSender τ} {maxDatagram : ℕ}
variable {view : τ → TunnView} {carries : List UInt8 → Option (List UInt8)}

variable (maxDatagram view carries) in
/-- The packets that were accepted are those on the wire followed by those in the queue. -/
structure Accounted (s : WireGuardTransport τ) (packets : List (List UInt8)) : Prop where
  total : dataOn carries s++(view s.tunn).queue = packets
  drained : (view s.tunn).session = true → (view s.tunn).queue = []
  fits : ∀ packet ∈ (view s.tunn).queue, packet.length+32 ≤ maxDatagram

variable {datagrams packets : List (List UInt8)} {s : WireGuardTransport τ}

theorem filterMap_control (h : ∀ datagram ∈ datagrams, IsControl carries datagram) :
    datagrams.filterMap carries = [] :=
  List.filterMap_eq_nil_iff.mpr fun datagram hd => (h datagram hd).1

theorem filterMap_data (h : List.Forall₂ (IsData carries) packets datagrams) :
    datagrams.filterMap carries = packets := by
  induction h with
  | nil => rfl
  | cons hd _ ih => rw [List.filterMap_cons_some hd.1,ih]

theorem length_le_of_data (h : List.Forall₂ (IsData carries) packets datagrams)
    (hfits : ∀ packet ∈ packets, packet.length+32 ≤ maxDatagram) :
    ∀ datagram ∈ datagrams, datagram.length ≤ maxDatagram := by
  induction h with
  | nil => simp
  | cons hd _ ih =>
    intro datagram hm
    rcases List.mem_cons.mp hm with rfl | hm
    · rw [hd.2]
      exact hfits _ (by simp)
    · exact ih (fun packet hp => hfits packet (by simp [hp])) datagram hm

theorem foldl_outbound (results : List TunnResult) (acc : Decoded) :
    (results.foldl (fun acc result => (handleTunnResult result acc).2) acc).outbound =
      acc.outbound++results.flatMap toNetwork := by
  induction results generalizing acc with
  | nil => simp
  | cons result rest ih =>
    have hfirst : (handleTunnResult result acc).2.outbound = acc.outbound++toNetwork result := by
      unfold handleTunnResult toNetwork
      split <;> try simp
      split <;> try rfl
      split <;> rfl
    rw [List.foldl_cons,ih,hfirst,List.flatMap_cons,List.append_assoc]

/-- Control packets leave the account as it is. -/
theorem Accounted.control {t : τ} (h : Accounted maxDatagram view carries s packets)
    (hcontrol : ∀ datagram ∈ datagrams, IsControl carries datagram)
    (hsession : (view t).session = (view s.tunn).session)
    (hqueue : (view t).queue = (view s.tunn).queue) : Accounted maxDatagram view carries
      ⟨t,s.peerIp,s.pendingRecv,s.wire++datagrams⟩ packets where
  total := by
    have htotal := h.total
    rw [dataOn] at htotal ⊢
    rw [List.filterMap_append,filterMap_control hcontrol,List.append_nil,hqueue]
    exact htotal
  drained := by
    rw [hsession,hqueue]
    exact h.drained
  fits := by
    rw [hqueue]
    exact h.fits

variable (hq : Queues api out view carries) (hmax : 148 ≤ maxDatagram)

include hq hmax

section

variable (h : Accounted maxDatagram view carries s packets)
include h

theorem serviceTimers_accounted (now : ℕ) :
    ∃ t, serviceTimers out maxDatagram s now = (true,t) ∧
      Accounted maxDatagram view carries t packets ∧
      t.tunn = (out.updateTimers s.tunn now).2 := by
  obtain ⟨hcontrol,hsession,hqueue⟩ := hq.timers s.tunn now
  refine ⟨_,emit_of_fits (fun datagram hd => Nat.le_trans (hcontrol datagram hd).2 hmax) _,?_,rfl⟩
  exact h.control hcontrol hsession hqueue

/-- A datagram is answered with control packets; if there is a session then, the queue goes
out behind them. -/
theorem processDatagram_accounted
    (datagram : List UInt8) : ∃ t, processDatagram api maxDatagram s datagram = (true,t) ∧
      Accounted maxDatagram view carries t packets := by
  obtain ⟨hreply,hqueue⟩ := hq.decapsulate s.tunn s.peerIp datagram
  generalize hfirst : api.decapsulate s.tunn s.peerIp datagram = first at hreply hqueue
  have hout := foldl_outbound (first.1::(api.flush first.2).1) ⟨[],[]⟩
  rw [List.nil_append,List.flatMap_cons] at hout
  have hsent : ∀ reply ∈ toNetwork first.1++(api.flush first.2).1.flatMap toNetwork,
      reply.length ≤ maxDatagram := by
    intro reply hr
    rcases List.mem_append.mp hr with hr | hr
    · exact Nat.le_trans (hreply reply hr).2 hmax
    · by_cases hsession : (view first.2).session = true
      · refine length_le_of_data (hq.flush first.2 hsession).1 ?_ reply hr
        rw [hqueue]
        exact h.fits
      · exact Nat.le_trans ((hq.hold first.2 (by simpa using hsession)).1 reply hr).2 hmax
  simp only [processDatagram,hfirst,hout,emit_of_fits hsent]
  refine ⟨_,rfl,?_⟩
  have htotal := h.total
  rw [dataOn] at htotal
  by_cases hsession : (view first.2).session = true
  · obtain ⟨hdata,hempty⟩ := hq.flush first.2 hsession
    refine ⟨?_,fun _ => hempty,by simp [hempty]⟩
    simp only [dataOn]
    rw [List.filterMap_append,List.filterMap_append,filterMap_control hreply,filterMap_data hdata,
      hempty,hqueue,List.nil_append,List.append_nil,htotal]
  · have hwaiting : (view first.2).session = false := by simpa using hsession
    obtain ⟨hcontrol,hstill,hheld⟩ := hq.hold first.2 hwaiting
    refine ⟨?_,by simp [hstill],by simpa only [hheld,hqueue] using h.fits⟩
    simp only [dataOn]
    rw [List.filterMap_append,List.filterMap_append,filterMap_control hreply,
      filterMap_control hcontrol,hheld,hqueue,List.nil_append,List.append_nil,htotal]

theorem recvLoop_accounted (rounds : List (ℕ × Option (List UInt8))) :
    Accounted maxDatagram view carries (recvLoop api out maxDatagram s rounds) packets := by
  induction rounds generalizing s with
  | nil => exact h
  | cons round rest ih =>
    obtain ⟨now,datagram⟩ := round
    obtain ⟨t,ht,hacc,-⟩ := serviceTimers_accounted hq hmax h now
    simp only [recvLoop,ht]
    cases datagram with
    | none => exact hacc
    | some datagram =>
      obtain ⟨u,hu,hacc⟩ := processDatagram_accounted hq hmax hacc datagram
      simp only [hu]
      split
      · exact ih hacc
      · exact ⟨hacc.total,hacc.drained,hacc.fits⟩

theorem recv_accounted (rounds : List (ℕ × Option (List UInt8))) :
    Accounted maxDatagram view carries (recv api out maxDatagram s rounds) packets := by
  unfold recv
  split
  · exact recvLoop_accounted hq hmax h rounds
  · exact ⟨h.total,h.drained,h.fits⟩

end

omit hmax in
/-- With a session the packet goes out, unless the socket refuses it. -/
theorem sendPacket_session (h : Accounted maxDatagram view carries s packets)
    (hsession : (view s.tunn).session = true) (ipPacket : List UInt8)
    (datagrams : List (List UInt8)) :
    ∃ ok t, sendPacket api out maxDatagram s ipPacket datagrams = (ok,t) ∧
      Accounted maxDatagram view carries t (if ok then packets++[ipPacket] else packets) := by
  obtain ⟨datagram,u,hu,hdata,hview⟩ := hq.encrypt s.tunn ipPacket hsession
  have htotal := h.total
  rw [h.drained hsession,List.append_nil,dataOn] at htotal
  have hempty : (view u).queue = [] := by
    rw [hview]
    exact h.drained hsession
  simp only [sendPacket,hu]
  refine ⟨_,_,rfl,?_,fun _ => hempty,by simp [hempty]⟩
  by_cases hfits : datagram.length ≤ maxDatagram
  · simp [dataOn,sendAll,hfits,hempty,htotal,hdata.1]
  · simp [dataOn,sendAll,hfits,hempty,htotal]

/-- Without one, and with no handshake in progress, the packet is queued. -/
theorem sendPacket_enqueues (h : Accounted maxDatagram view carries s packets)
    (hsession : (view s.tunn).session = false) (hidle : (view s.tunn).inProgress = false)
    {ipPacket : List UInt8} (hfits : ipPacket.length+32 ≤ maxDatagram)
    (datagrams : List (List UInt8)) :
    ∃ t, sendPacket api out maxDatagram s ipPacket datagrams = (true,t) ∧
      Accounted maxDatagram view carries t (packets++[ipPacket]) := by
  obtain ⟨datagram,u,hu,hcontrol,hview⟩ := hq.enqueue s.tunn ipPacket hsession hidle
  have hfit : ∀ d ∈ [datagram],d.length ≤ maxDatagram := by
    simpa using Nat.le_trans hcontrol.2 hmax
  have htotal := h.total
  simp only [sendPacket,hu,emit_of_fits hfit]
  refine ⟨_,rfl,?_,by simp [hview],?_⟩
  · rw [dataOn] at htotal
    simp only [dataOn,List.filterMap_append,hview]
    rw [filterMap_control (show ∀ d ∈ [datagram],IsControl carries d by simpa using hcontrol),
      List.append_nil,← List.append_assoc,htotal]
  · intro packet hp
    simp only [hview] at hp
    rcases List.mem_append.mp hp with hp | hp
    · exact h.fits packet hp
    · rw [List.mem_singleton.mp hp]
      exact hfits

theorem call_accounted {s t : Client τ} {c : Call}
    (h : Accounted maxDatagram view carries s.transport (s.sent.map framePacket))
    (hc : FindsNoHandshake out maxDatagram view s c) (ht : call api out maxDatagram s c = some t) :
    Accounted maxDatagram view carries t.transport (t.sent.map framePacket) := by
  cases c with
  | recv rounds =>
    obtain rfl := Option.some.inj ht
    exact recv_accounted hq hmax h rounds
  | send frame now datagrams =>
    obtain ⟨u,hu,hacc,htunn⟩ := serviceTimers_accounted hq hmax h now
    rw [FindsNoHandshake,← htunn] at hc
    have hsent : ∃ ok v, send api out maxDatagram s.transport frame now datagrams = (ok,v) ∧
        Accounted maxDatagram view carries v
          (if ok then s.sent.map framePacket++[framePacket frame] else s.sent.map framePacket) := by
      simp only [send,hu]
      by_cases hsession : (view u.tunn).session = true
      · exact sendPacket_session hq hacc hsession _ _
      · obtain ⟨hidle,hfits⟩ := hc.resolve_left hsession
        obtain ⟨v,hv,hvacc⟩ := sendPacket_enqueues hq hmax hacc (by simpa using hsession) hidle
          (by rw [framePacket_length]; omega) datagrams
        exact ⟨true,v,hv,hvacc⟩
    obtain ⟨ok,v,hv,hvacc⟩ := hsent
    rw [call,hv] at ht
    cases ok <;> obtain rfl := Option.some.inj ht <;> simpa using hvacc

omit hq hmax in
theorem Accounted.sentOnce {s : Client τ}
    (h : Accounted maxDatagram view carries s.transport (s.sent.map framePacket)) :
    SentOnce view carries s := by
  refine ⟨⟨_,h.total⟩,fun hsession => ?_⟩
  rw [← h.total,h.drained hsession,List.append_nil]

end Accounting

section QueueTunnel

/-- A data packet is marked with a 4 and padded to the real overhead. -/
def queueEncrypt (ipPacket : List UInt8) : List UInt8 := 4::(ipPacket++List.replicate 31 0)

def queueCarries : List UInt8 → Option (List UInt8)
  | 4::rest => some (rest.take (rest.length-31))
  | _ => none

/-- A tunnel that is its view: an initiation is a 1 and completes with a 2. -/
def queueTunn : TunnApi TunnView where
  base64 _ := none
  new _ _ := ⟨false,false,[]⟩
  decapsulate t _ datagram :=
    if datagram = [2] ∧ t.inProgress = true then (.done,⟨true,false,t.queue⟩) else (.err,t)
  flush t :=
    if t.session then (t.queue.map fun p => .writeToNetwork (queueEncrypt p),{t with queue := []})
    else ([],t)

def queueSender : TunnSender TunnView where
  updateTimers t _ := (.done,t)
  encapsulate t ipPacket :=
    if t.session then (.writeToNetwork (queueEncrypt ipPacket),t)
    else if t.inProgress then (.done,⟨false,true,t.queue++[ipPacket]⟩)
    else (.writeToNetwork [1],⟨false,true,t.queue++[ipPacket]⟩)
  formatHandshakeInitiation t :=
    if t.inProgress then (.done,t) else (.writeToNetwork [1],{t with inProgress := true})
  timeSinceLastHandshake t := t.session

theorem isData_queueEncrypt (ipPacket : List UInt8) :
    IsData queueCarries ipPacket (queueEncrypt ipPacket) := by
  refine ⟨?_,by simp [queueEncrypt]⟩
  simp [queueEncrypt,queueCarries]

theorem isControl_initiation : IsControl queueCarries [1] := by
  simp [IsControl,queueCarries]

theorem queueTunn_queues : Queues queueTunn queueSender id queueCarries where
  timers _ _ := ⟨by simp [queueSender,toNetwork],rfl,rfl⟩
  encrypt t ipPacket hsession :=
    ⟨_,_,if_pos hsession,isData_queueEncrypt ipPacket,rfl⟩
  enqueue t ipPacket hsession hidle := by
    refine ⟨[1],⟨false,true,t.queue++[ipPacket]⟩,?_,isControl_initiation,rfl⟩
    simp only [id] at hsession hidle
    simp [queueSender,hsession,hidle]
  decapsulate t src datagram := by
    simp only [queueTunn]
    split_ifs <;> simp [toNetwork]
  flush t hsession := by
    simp only [id] at hsession
    simp only [queueTunn,hsession,if_true,id,and_true]
    induction t.queue with
    | nil => exact List.Forall₂.nil
    | cons packet rest ih => exact List.Forall₂.cons (isData_queueEncrypt packet) ih
  hold t hsession := by
    simp only [id] at hsession
    simp [queueTunn,hsession]

def demoClient : Client TunnView := ⟨⟨⟨false,false,[]⟩,.v4 ⟨198,51,100,1⟩,[],[]⟩,[]⟩

def demoFrame (sequence : UInt64) : SessionFrame := ⟨⟨7,sequence,0⟩,[1,2,3]⟩

/-- The response comes in while the first `recv` waits, and before the second `send`. -/
def orderlyCalls : List Call :=
  [.send (demoFrame 0) 0 [],.recv [(0,some [2])],.send (demoFrame 1) 0 []]

/-- The response comes in while the second `send` waits for it. -/
def hastyCalls : List Call := [.send (demoFrame 0) 0 [],.send (demoFrame 1) 0 [[2]]]

end QueueTunnel

end Bonded.TransportSend
