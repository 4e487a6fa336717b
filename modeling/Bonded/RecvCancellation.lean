import Bonded.TunnelTransport

/-! The `recv` of the client's WireGuard transport as a future that may be dropped at each of
its await points: the send of a timer packet, the read of a datagram, and the sends of
`process_datagram`, which keeps the decoded frames in a local variable until they are done. -/
namespace Bonded.RecvCancellation

open Machine Session TunnelTransport
open WireGuardServer (IpAddr TunnApi Decoded handleTunnResult)

/-- The await point at which a call of `recv` is suspended, with its local variables. -/
inductive Call
  | idle
  | timer (packet : List UInt8)
  | reading
  | sending (packet : List UInt8) (rest : List (List UInt8)) (frames : List SessionFrame)
  deriving DecidableEq

/-- The packets that only the suspended call knows of. -/
def Call.packets : Call → List (List UInt8)
  | .idle => []
  | .timer packet => [packet]
  | .reading => []
  | .sending packet rest _ => packet::rest

/-- The frames that only the suspended call knows of. -/
def Call.frames : Call → List SessionFrame
  | .sending _ _ frames => frames
  | _ => []

/-- A transport with its current call. The last three fields are histories: the frames that
completed calls returned, the frames decoded, and the packets the tunnel library produced. -/
structure Receiver (τ : Type) where
  transport : WireGuardTransport τ
  call : Call
  returned : List SessionFrame
  decoded : List SessionFrame
  produced : List (List UInt8)
  deriving DecidableEq

/-- What the caller and the socket do. An event after which the loop may start over has the
time for its timers. -/
inductive Event
  /-- `recv` is called. -/
  | call (now : ℕ)
  /-- The send at which the call is suspended completes. -/
  | sent (ok : Bool) (now : ℕ)
  /-- A datagram is read from the socket. -/
  | datagram (bytes : List UInt8) (now : ℕ)
  | readError
  /-- The future is dropped. -/
  | drop
  deriving DecidableEq

section Steps

variable {τ : Type} (api : TunnApi τ) (out : TunnSender τ)

/-- The results of `decapsulate` for a datagram and for the empty ones after it. -/
def decapsulateAll (tunn : τ) (peerIp : IpAddr) (datagram : List UInt8) : Decoded × τ :=
  let first := api.decapsulate tunn peerIp datagram
  let rest := api.flush first.2
  ((first.1::rest.1).foldl (fun acc result => (handleTunnResult result acc).2) ⟨[],[]⟩,rest.2)

/-- The loop of `recv` up to its next await point. -/
def nextRound (s : Receiver τ) (now : ℕ) : Receiver τ :=
  match out.updateTimers s.transport.tunn now with
  | (.writeToNetwork packet,tunn) =>
    {s with
      transport := {s.transport with tunn := tunn}
      call := .timer packet
      produced := s.produced++[packet]}
  | (_,tunn) => {s with transport := {s.transport with tunn := tunn}, call := .reading}

/-- Return a waiting frame, or go on with the loop. -/
def popOrRound (s : Receiver τ) (now : ℕ) : Receiver τ :=
  match s.transport.pendingRecv with
  | [] => nextRound out s now
  | frame::pending =>
    {s with
      transport := {s.transport with pendingRecv := pending}
      call := .idle
      returned := s.returned++[frame]}

/-- The rest of `process_datagram` from the next send on, and what `recv` does after it. -/
def sendOutbound (s : Receiver τ) (outbound : List (List UInt8)) (frames : List SessionFrame)
    (now : ℕ) : Receiver τ :=
  match outbound with
  | [] =>
    popOrRound out
      {s with transport := {s.transport with pendingRecv := s.transport.pendingRecv++frames}} now
  | packet::rest => {s with call := .sending packet rest frames}

def step (s : Receiver τ) : Event → Option (Receiver τ)
  | .call now =>
    match s.call with
    | .idle => some (popOrRound out s now)
    | _ => none
  | .sent ok now =>
    match s.call with
    | .timer packet =>
      if ok then
        some {s with
          transport := {s.transport with wire := s.transport.wire++[packet]}
          call := .reading}
      else some {s with call := .idle}
    | .sending packet rest frames =>
      if ok then
        some (sendOutbound out
          {s with transport := {s.transport with wire := s.transport.wire++[packet]}} rest frames
          now)
      else some {s with call := .idle}
    | _ => none
  | .datagram bytes now =>
    match s.call with
    | .reading =>
      let all := decapsulateAll api s.transport.tunn s.transport.peerIp bytes
      some (sendOutbound out
        {s with
          transport := {s.transport with tunn := all.2}
          decoded := s.decoded++all.1.frames
          produced := s.produced++all.1.outbound} all.1.outbound all.1.frames now)
    | _ => none
  | .readError =>
    match s.call with
    | .reading => some {s with call := .idle}
    | _ => none
  | .drop =>
    match s.call with
    | .idle => none
    | _ => some {s with call := .idle}

/-- A transport before its first `recv`. -/
def start (transport : WireGuardTransport τ) : Receiver τ :=
  ⟨transport,.idle,[],transport.pendingRecv,transport.wire⟩

/-- When no call runs, all packets have been sent, and the next calls return at once the
decoded frames that no call has returned yet. -/
def Kept (s : Receiver τ) : Prop :=
  s.call = .idle → s.transport.wire = s.produced ∧
    ∀ nows : List ℕ, nows.length = s.transport.pendingRecv.length →
      (exec (step api out) s (nows.map .call)).map Receiver.returned = some s.decoded

/-- Whether the event gives up the call with an unfinished send. -/
def Event.abandons : Event → Bool
  | .drop => true
  | .sent ok _ => !ok
  | _ => false

/-- The call is given up only where it waits for a datagram. -/
def SafePoint (s : Receiver τ) (e : Event) : Prop := e.abandons = true → s.call.packets = []

instance (s : Receiver τ) (e : Event) : Decidable (SafePoint s e) := by
  unfold SafePoint
  infer_instance

end Steps

section Accounting

variable {τ : Type} {api : TunnApi τ} {out : TunnSender τ}

/-- Nothing is lost: what is not yet returned or sent waits in the transport or in the call. -/
structure Accounted (s : Receiver τ) : Prop where
  frames : s.returned++(s.transport.pendingRecv++s.call.frames) = s.decoded
  packets : s.transport.wire++s.call.packets = s.produced

theorem start_accounted (transport : WireGuardTransport τ) : Accounted (start transport) :=
  ⟨List.append_nil _,List.append_nil _⟩

variable {s : Receiver τ}

theorem nextRound_accounted (hframes : s.returned++s.transport.pendingRecv = s.decoded)
    (hpackets : s.transport.wire = s.produced) (now : ℕ) : Accounted (nextRound out s now) := by
  unfold nextRound
  split
  · exact ⟨by simpa [Call.frames] using hframes,by simp [Call.packets,hpackets]⟩
  · exact ⟨by simpa [Call.frames] using hframes,by simp [Call.packets,hpackets]⟩

theorem popOrRound_accounted (hframes : s.returned++s.transport.pendingRecv = s.decoded)
    (hpackets : s.transport.wire = s.produced) (now : ℕ) : Accounted (popOrRound out s now) := by
  unfold popOrRound
  split
  · exact nextRound_accounted hframes hpackets now
  · rename_i frame pending hpending
    rw [hpending] at hframes
    exact ⟨by simpa [Call.frames] using hframes,by simp [Call.packets,hpackets]⟩

theorem sendOutbound_accounted {outbound : List (List UInt8)} {frames : List SessionFrame}
    (hframes : s.returned++(s.transport.pendingRecv++frames) = s.decoded)
    (hpackets : s.transport.wire++outbound = s.produced) (now : ℕ) :
    Accounted (sendOutbound out s outbound frames now) := by
  unfold sendOutbound
  split
  · exact popOrRound_accounted hframes (by simpa using hpackets) now
  · exact ⟨hframes,hpackets⟩

theorem step_accounted (s : Receiver τ) (e : Event) (t : Receiver τ) (h : Accounted s)
    (hsafe : SafePoint s e) (ht : step api out s e = some t) : Accounted t := by
  obtain ⟨hframes,hpackets⟩ := h
  cases e with
  | call now =>
    simp only [step] at ht
    split at ht
    · rename_i hcall
      cases ht
      simp only [hcall,Call.frames,Call.packets,List.append_nil] at hframes hpackets
      exact popOrRound_accounted hframes hpackets now
    · cases ht
  | sent ok now =>
    simp only [step] at ht
    split at ht
    · rename_i packet hcall
      cases ok with
      | true =>
        cases ht
        simp only [hcall,Call.frames,Call.packets] at hframes hpackets
        exact ⟨hframes,by simpa [Call.packets] using hpackets⟩
      | false => simp [SafePoint,Event.abandons,hcall,Call.packets] at hsafe
    · rename_i packet rest frames hcall
      cases ok with
      | true =>
        cases ht
        simp only [hcall,Call.frames,Call.packets] at hframes hpackets
        refine sendOutbound_accounted ?_ ?_ now
        · exact hframes
        · simpa using hpackets
      | false => simp [SafePoint,Event.abandons,hcall,Call.packets] at hsafe
    · cases ht
  | datagram bytes now =>
    simp only [step] at ht
    split at ht
    · rename_i hcall
      cases ht
      simp only [hcall,Call.frames,Call.packets,List.append_nil] at hframes hpackets
      exact sendOutbound_accounted (by simp [← hframes]) (by simp [← hpackets]) now
    · cases ht
  | readError =>
    simp only [step] at ht
    split at ht
    · rename_i hcall
      cases ht
      simp only [hcall,Call.frames,Call.packets] at hframes hpackets
      exact ⟨hframes,hpackets⟩
    · cases ht
  | drop =>
    have hnone := hsafe rfl
    simp only [step] at ht
    split at ht
    · cases ht
    · cases ht
      rw [hnone] at hpackets
      refine ⟨?_,hpackets⟩
      cases hcall : s.call with
      | sending packet rest frames => simp [hcall,Call.packets] at hnone
      | _ => simpa [hcall,Call.frames] using hframes

theorem call_pops {frame : SessionFrame} {pending : List SessionFrame} (hcall : s.call = .idle)
    (hpending : s.transport.pendingRecv = frame::pending) (now : ℕ) :
    step api out s (.call now) = some {s with
      transport := {s.transport with pendingRecv := pending}
      call := .idle
      returned := s.returned++[frame]} := by
  simp only [step,hcall,popOrRound,hpending]

theorem calls_return {nows : List ℕ} (hcall : s.call = .idle)
    (hlength : nows.length = s.transport.pendingRecv.length) :
    (exec (step api out) s (nows.map .call)).map Receiver.returned =
      some (s.returned++s.transport.pendingRecv) := by
  induction nows generalizing s with
  | nil =>
    have hpending := List.length_eq_zero_iff.mp hlength.symm
    simp [hpending]
  | cons now nows ih =>
    cases hpending : s.transport.pendingRecv with
    | nil => simp [hpending] at hlength
    | cons frame pending =>
      rw [List.map_cons]
      simp only [exec,call_pops hcall hpending,Option.bind_some]
      rw [ih rfl (by simpa [hpending] using hlength)]
      simp

theorem Accounted.kept (h : Accounted s) : Kept api out s := by
  intro hcall
  obtain ⟨hframes,hpackets⟩ := h
  simp only [hcall,Call.frames,Call.packets,List.append_nil] at hframes hpackets
  refine ⟨hpackets,?_⟩
  intro nows hlength
  rw [calls_return hcall hlength,hframes]

theorem abandon_loses {e : Event} (h : Accounted s) (he : ¬ SafePoint s e) :
    ∃ t, step api out s e = some t ∧ ¬ Kept api out t := by
  simp only [SafePoint,Classical.not_imp] at he
  obtain ⟨habandons,hpackets⟩ := he
  have hstep : step api out s e = some {s with call := .idle} := by
    cases e with
    | drop => cases hcall : s.call <;> simp_all [step,Call.packets]
    | sent ok now =>
      simp only [Event.abandons,Bool.not_eq_true'] at habandons
      cases hcall : s.call <;> simp_all [step,Call.packets]
    | _ => cases habandons
  refine ⟨_,hstep,?_⟩
  intro hkept
  have hwire : s.transport.wire = s.produced := (hkept rfl).1
  have hlost := h.packets
  rw [hwire] at hlost
  exact hpackets (List.append_right_eq_self.mp hlost)

/-- No frame and no packet is lost in exactly the runs in which `recv` is given up only while
it waits for a datagram. -/
theorem recv_cancel_safe_iff (api : TunnApi τ) (out : TunnSender τ)
    (transport : WireGuardTransport τ) (es : List Event) :
    Along (step api out) (Kept api out) (start transport) es ↔
      Meets (step api out) SafePoint (start transport) es :=
  along_iff_meets (fun _ h => h.kept) step_accounted (fun _ _ h he => abandon_loses h he)
    (start_accounted transport)

end Accounting

section Whole

variable {τ : Type} {api : TunnApi τ} {out : TunnSender τ}

/-- When the socket refuses only what is too long for it, the sends of `process_datagram` do
what `emit` does in one go. -/
theorem sendOutbound_run (maxDatagram : ℕ) (s : Receiver τ) (outbound : List (List UInt8))
    (frames : List SessionFrame) (now : ℕ) :
    ∃ es t, exec (step api out) (sendOutbound out s outbound frames now) es = some t ∧
      match emit maxDatagram s.transport outbound with
      | (false,u) => t.call = .idle ∧ t.transport = u
      | (true,u) => ∃ v, t = popOrRound out v now ∧
          v.transport = {u with pendingRecv := u.pendingRecv++frames} := by
  induction outbound generalizing s with
  | nil =>
    refine ⟨[],_,rfl,_,rfl,?_⟩
    simp [sendAll]
  | cons packet rest ih =>
    by_cases hfits : packet.length ≤ maxDatagram
    · obtain ⟨es,t,hrun,ht⟩ :=
        ih {s with
          transport := {s.transport with wire := s.transport.wire++[packet]}
          call := .sending packet rest frames}
      refine ⟨.sent true now::es,t,exec_cons.mpr ⟨_,rfl,hrun⟩,?_⟩
      simpa [emit,sendAll,hfits] using ht
    · refine ⟨[.sent false now],_,rfl,?_⟩
      simp [emit,sendAll,hfits,sendOutbound]

theorem serviceTimers_run (maxDatagram : ℕ) (s : Receiver τ) (now : ℕ) :
    ∃ es t, exec (step api out) (nextRound out s now) es = some t ∧
      t.transport = (serviceTimers out maxDatagram s.transport now).2 ∧
      t.call = if (serviceTimers out maxDatagram s.transport now).1 then .reading else .idle := by
  unfold nextRound serviceTimers
  split
  · next packet tunn htimers =>
    by_cases hfits : packet.length ≤ maxDatagram
    · exact ⟨[.sent true now],_,rfl,by simp [htimers,toNetwork,emit,sendAll,hfits]⟩
    · exact ⟨[.sent false now],_,rfl,by simp [htimers,toNetwork,emit,sendAll,hfits]⟩
  · next result tunn hnot htimers =>
    have hnone : toNetwork result = [] := by
      cases result with
      | writeToNetwork packet => exact absurd rfl (hnot packet)
      | _ => rfl
    exact ⟨[],_,rfl,by simp [htimers,hnone,emit,sendAll]⟩

end Whole

section Lost

/-- A tunnel that waits for a session with packets in its queue. A handshake response gives
the keepalive that confirms it; after every datagram the queue goes out. -/
def confirmingTunn : TunnApi (List (List UInt8)) where
  base64 _ := none
  new _ _ := []
  decapsulate queue _ datagram :=
    match datagram with
    | 2::_ => (.writeToNetwork [4],queue)
    | 4::ipPacket => (.writeToTunnel ipPacket,queue)
    | _ => (.err,queue)
  flush queue := (queue.map .writeToNetwork,[])

def confirmingSender : TunnSender (List (List UInt8)) where
  updateTimers queue _ := (.done,queue)
  encapsulate queue ipPacket := (.done,queue++[ipPacket])
  formatHandshakeInitiation queue := (.writeToNetwork [1],queue)
  timeSinceLastHandshake _ := false

def waitingTransport (queue : List (List UInt8)) : WireGuardTransport (List (List UInt8)) :=
  ⟨queue,.v4 ⟨198,51,100,1⟩,[],[]⟩

/-- A handshake response is read and `recv` is dropped at the send of the keepalive, which is
never sent. A data packet is read while a packet is queued and `recv` is dropped at its send:
the decoded frame is in nobody's hands. -/
theorem recv_drop_loses :
    let frame : SessionFrame := ⟨⟨7,0,0⟩,[1,2,3]⟩
    let run := fun queue datagram => exec (step confirmingTunn confirmingSender)
      (start (waitingTransport queue)) [.call 0,.datagram datagram 0,.drop]
    (run [] [2]).map (fun s => (s.call,s.produced,s.transport.wire)) = some (.idle,[[4]],[]) ∧
    (run [[9]] (4::framePacket frame)).map
      (fun s => (s.call,s.decoded,s.returned,s.transport.pendingRecv)) =
        some (.idle,[frame],[],[]) := by
  decide +kernel

end Lost

end Bonded.RecvCancellation
