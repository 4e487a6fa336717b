import Bonded.Machine
import Bonded.Session

/-! The client's packet loops: `runLinuxPacketLoop` and the worker of the mobile
library. Both number the outgoing packets with one session and send them over the
active one of several paths, dropping a path that fails. -/
namespace Bonded.PacketLoop

open Machine Session

/-- Why a loop is over. A panic is an index into the path list that is out of range. -/
inductive LoopEnd
  | error
  | stopped
  | panicked
  deriving DecidableEq, Repr

/-- A packet taken from the device or the queue, the number of paths at that moment,
and whether its send succeeded. -/
structure OutboundRead where
  packet : List UInt8
  paths : ℕ
  sendOk : Bool
  deriving DecidableEq, Repr

/-- A successful send: the position of the packet among the packets read, the path, the frame. -/
structure Sent where
  packet : ℕ
  path : ℕ
  frame : SessionFrame
  deriving DecidableEq, Repr

/-- The variables of a loop, with a log of what it read, sent and delivered. -/
structure LoopState where
  transports : List ℕ
  activeIndex : ℕ
  session : SessionState
  pingSequence : UInt64
  reads : List OutboundRead
  sends : List Sent
  pings : List SessionFrame
  delivered : List (List UInt8)
  ended : Option LoopEnd
  deriving DecidableEq

def initial (transports : List ℕ) : LoopState :=
  ⟨transports,0,SessionState.new 1,0,[],[],[],[],none⟩

/-- A failed path ends the loop if it is the only one; otherwise it is removed and the
active index stays, or goes back to the first path at the end of the list. -/
def failover (s : LoopState) : LoopState :=
  if s.transports.length = 1 then {s with ended := some .error}
  else
    let remaining := s.transports.eraseIdx s.activeIndex
    {s with
      transports := remaining
      activeIndex := if s.activeIndex ≥ remaining.length then 0 else s.activeIndex}

/-- Number a packet and send it on the active path. After a failure the frame is dropped. -/
def sendOutbound (s : LoopState) (packet : List UInt8) (sendOk : Bool) : LoopState :=
  let made := createOutboundFrame s.session packet 0
  let numbered := {s with
    session := made.2
    reads := s.reads++[⟨packet,s.transports.length,sendOk⟩]}
  match s.transports[s.activeIndex]? with
  | none => {numbered with ended := some .panicked}
  | some path =>
    if sendOk then {numbered with sends := s.sends++[⟨s.reads.length,path,made.1⟩]}
    else failover numbered

/-- The active path exists; each round of a loop polls it for incoming frames. -/
def Ready (s : LoopState) : Prop := s.activeIndex < s.transports.length

def addTransport (s : LoopState) (path : ℕ) : LoopState :=
  {s with transports := s.transports++[path]}

/-- Events of `runLinuxPacketLoop`. `writes` is the number of device writes that succeed. -/
inductive LinuxEvent
  | tunRead (packet : List UInt8) (sendOk : Bool)
  | tunReadFailed
  | peerTransport (path : ℕ)
  | received (frame : SessionFrame) (writes : ℕ)
  | recvFailed
  deriving DecidableEq, Repr

def runLinuxPacketLoop (s : LoopState) (e : LinuxEvent) : Option LoopState :=
  if s.ended.isSome then none
  else if s.transports.length ≤ s.activeIndex then some {s with ended := some .panicked}
  else match e with
  | .tunRead packet sendOk =>
    if packet.length = 0 then some s else some (sendOutbound s packet sendOk)
  | .tunReadFailed => some {s with ended := some .error}
  | .peerTransport path => some (addTransport s path)
  | .received frame writes =>
    match ingestInbound s.session frame with
    | (.error _,session) => some {s with session := session, ended := some .error}
    | (.ok ready,session) =>
      let delivered := s.delivered++(ready.map (·.payload)).take writes
      if ready.length ≤ writes then some {s with session := session, delivered := delivered}
      else some {s with session := session, delivered := delivered, ended := some .error}
  | .recvFailed => some (failover s)

/-- Events of the worker. `cancelled` is the state of the cancellation token when the packet
is taken; `drained` are the frames already buffered behind a received one. -/
inductive WorkerEvent
  | cancelled
  | peerTransport (path : ℕ)
  | outbound (packet : List UInt8) (cancelled sendOk : Bool)
  | outboundClosed
  | received (frame : SessionFrame) (drained : List SessionFrame)
  | recvFailed
  | heartbeat (sendOk : Bool)
  deriving DecidableEq, Repr

/-- The worker hands every payload over at once, without the reorder buffer. -/
def deliverDirect (frames : List SessionFrame) : List (List UInt8) :=
  (frames.filter fun f => f.header.flags &&& flagPong = 0 ∧ f.payload ≠ []).map (·.payload)

def pingFrame (s : LoopState) : SessionFrame := ⟨⟨0,s.pingSequence,flagPing⟩,[]⟩

def runWorker (s : LoopState) (e : WorkerEvent) : Option LoopState :=
  if s.ended.isSome then none
  else if s.transports.length ≤ s.activeIndex then some {s with ended := some .panicked}
  else match e with
  | .cancelled => some {s with ended := some .stopped}
  | .peerTransport path => some (addTransport s path)
  | .outbound packet cancelled sendOk =>
    if packet = [] ∧ cancelled = true then some {s with ended := some .stopped}
    else some (sendOutbound s packet sendOk)
  | .outboundClosed => some {s with ended := some .stopped}
  | .received frame drained =>
    if frame.header.flags &&& flagPong ≠ 0 then some s
    else some {s with delivered := s.delivered++deliverDirect (frame::drained)}
  | .recvFailed => some (failover s)
  | .heartbeat sendOk =>
    if sendOk then some {s with
      pings := s.pings++[pingFrame s]
      pingSequence := s.pingSequence+1}
    else some s

/-- The packet an event makes the loop send, with the result of the send. A read of no
bytes, and an empty packet after cancellation, are not packets. -/
def LinuxEvent.outbound? : LinuxEvent → Option (List UInt8 × Bool)
  | .tunRead packet sendOk => if packet.length = 0 then none else some (packet,sendOk)
  | _ => none

def WorkerEvent.outbound? : WorkerEvent → Option (List UInt8 × Bool)
  | .outbound packet stopping sendOk =>
    if packet = [] ∧ stopping = true then none else some (packet,sendOk)
  | _ => none

/-- A step that sends no packet. -/
structure Quiet (s t : LoopState) : Prop where
  nextTx : t.session.nextTxSequence = s.session.nextTxSequence
  reads : t.reads = s.reads
  sends : t.sends = s.sends
  ready : t.ended = none → Ready t
  notPanicked : t.ended ≠ some .panicked

/-- What the two loops have in common: each event sends its packet on the active path or
leaves the outgoing direction alone. -/
structure Loop (ε : Type) where
  step : LoopState → ε → Option LoopState
  outbound? : ε → Option (List UInt8 × Bool)
  running : ∀ s e t, step s e = some t → s.ended = none
  sends : ∀ s e packet sendOk, s.ended = none → Ready s → outbound? e = some (packet,sendOk) →
    step s e = some (sendOutbound s packet sendOk)
  quiet : ∀ s e t, Ready s → outbound? e = none → step s e = some t → Quiet s t

theorem ingestInbound_nextTx (s : SessionState) (frame : SessionFrame) :
    (ingestInbound s frame).2.nextTxSequence = s.nextTxSequence := by
  have hdrain : ∀ n (u : SessionState), (drainReady n u).2.nextTxSequence = u.nextTxSequence := by
    intro n
    induction n with
    | zero => intro u; rfl
    | succ n ih =>
      intro u
      simp only [drainReady]
      split
      · rfl
      · exact ih _
  unfold ingestInbound
  split
  · rfl
  · split
    · rfl
    · exact hdrain _ _

variable {s t : LoopState}

theorem failover_quiet (hr : Ready s) (hrun : s.ended = none) : Quiet s (failover s) := by
  unfold failover
  split
  · exact ⟨rfl,rfl,rfl,by simp,by simp⟩
  · next hlen =>
    refine ⟨rfl,rfl,rfl,fun _ => ?_,by simp [hrun]⟩
    simp only [Ready] at hr ⊢
    split
    · rw [List.length_eraseIdx_of_lt hr]; omega
    · omega

/-- A step that changes no variable of the outgoing direction but possibly ends the loop. -/
theorem quiet_same (hr : Ready s) (ht : t.session.nextTxSequence = s.session.nextTxSequence)
    (hreads : t.reads = s.reads) (hsends : t.sends = s.sends)
    (htrans : s.transports <+: t.transports) (hactive : t.activeIndex = s.activeIndex)
    (hend : t.ended ≠ some .panicked) : Quiet s t :=
  ⟨ht,hreads,hsends,fun _ => by
    rw [Ready,hactive]
    exact Nat.lt_of_lt_of_le hr htrans.length_le,hend⟩

theorem runLinuxPacketLoop_quiet {e : LinuxEvent} (hr : Ready s) (he : e.outbound? = none)
    (h : runLinuxPacketLoop s e = some t) : Quiet s t := by
  have hrun : s.ended = none := by
    cases hs : s.ended with
    | none => rfl
    | some _ => simp [runLinuxPacketLoop,hs] at h
  have hready : ¬ s.transports.length ≤ s.activeIndex := Nat.not_le.mpr hr
  simp only [runLinuxPacketLoop,hrun,Option.isSome_none,Bool.false_eq_true,if_false,
    if_neg hready] at h
  cases e with
  | tunRead packet sendOk =>
    by_cases hp : packet.length = 0
    · simp only [hp,if_true,Option.some.injEq] at h
      subst h
      exact quiet_same hr rfl rfl rfl (List.prefix_refl _) rfl (by simp [hrun])
    · simp only [LinuxEvent.outbound?,if_neg hp] at he
      cases he
  | tunReadFailed =>
    cases h
    exact quiet_same hr rfl rfl rfl (List.prefix_refl _) rfl (by simp)
  | peerTransport path =>
    cases h
    exact quiet_same hr rfl rfl rfl (List.prefix_append _ _) rfl (by simp [addTransport,hrun])
  | received frame writes =>
    have htx := ingestInbound_nextTx s.session frame
    simp only at h
    split at h
    · next hi =>
      rw [hi] at htx
      cases h
      exact quiet_same hr htx rfl rfl (List.prefix_refl _) rfl (by simp)
    · next hi =>
      rw [hi] at htx
      split at h <;> cases h <;>
        exact quiet_same hr htx rfl rfl (List.prefix_refl _) rfl (by simp)
  | recvFailed =>
    cases h
    exact failover_quiet hr hrun

theorem runWorker_quiet {e : WorkerEvent} (hr : Ready s) (he : e.outbound? = none)
    (h : runWorker s e = some t) : Quiet s t := by
  have hrun : s.ended = none := by
    cases hs : s.ended with
    | none => rfl
    | some _ => simp [runWorker,hs] at h
  have hready : ¬ s.transports.length ≤ s.activeIndex := Nat.not_le.mpr hr
  simp only [runWorker,hrun,Option.isSome_none,Bool.false_eq_true,if_false,if_neg hready] at h
  cases e with
  | cancelled | outboundClosed =>
    cases h
    exact quiet_same hr rfl rfl rfl (List.prefix_refl _) rfl (by simp)
  | peerTransport path =>
    cases h
    exact quiet_same hr rfl rfl rfl (List.prefix_append _ _) rfl (by simp [addTransport,hrun])
  | outbound packet cancelled sendOk =>
    by_cases hp : packet = [] ∧ cancelled = true
    · simp only [if_pos hp,Option.some.injEq] at h
      subst h
      exact quiet_same hr rfl rfl rfl (List.prefix_refl _) rfl (by simp)
    · simp only [WorkerEvent.outbound?,if_neg hp] at he
      cases he
  | received frame drained =>
    simp only at h
    split at h <;> cases h <;>
      exact quiet_same hr rfl rfl rfl (List.prefix_refl _) rfl (by simp [hrun])
  | recvFailed =>
    cases h
    exact failover_quiet hr hrun
  | heartbeat sendOk =>
    simp only at h
    split at h <;> cases h <;>
      exact quiet_same hr rfl rfl rfl (List.prefix_refl _) rfl (by simp [hrun])

def linuxLoop : Loop LinuxEvent where
  step := runLinuxPacketLoop
  outbound? := LinuxEvent.outbound?
  running s e t h := by
    cases hs : s.ended with
    | none => rfl
    | some _ => simp [runLinuxPacketLoop,hs] at h
  sends s e packet sendOk hrun hr he := by
    cases e with
    | tunRead p ok =>
      by_cases hp : p.length = 0
      · simp [LinuxEvent.outbound?,hp] at he
      · simp only [LinuxEvent.outbound?,if_neg hp,Option.some.injEq,Prod.mk.injEq] at he
        obtain ⟨rfl,rfl⟩ := he
        simp only [runLinuxPacketLoop,hrun,Option.isSome_none,Bool.false_eq_true,if_false,
          Nat.not_le.mpr hr,if_neg hp]
    | _ => cases he
  quiet _ _ _ := runLinuxPacketLoop_quiet

def workerLoop : Loop WorkerEvent where
  step := runWorker
  outbound? := WorkerEvent.outbound?
  running s e t h := by
    cases hs : s.ended with
    | none => rfl
    | some _ => simp [runWorker,hs] at h
  sends s e packet sendOk hrun hr he := by
    cases e with
    | outbound p cancelled ok =>
      by_cases hp : p = [] ∧ cancelled = true
      · simp [WorkerEvent.outbound?,hp] at he
      · simp only [WorkerEvent.outbound?,if_neg hp,Option.some.injEq,Prod.mk.injEq] at he
        obtain ⟨rfl,rfl⟩ := he
        simp only [runWorker,hrun,Option.isSome_none,Bool.false_eq_true,if_false,
          Nat.not_le.mpr hr,if_neg hp]
    | _ => cases he
  quiet _ _ _ := runWorker_quiet

/-- No packet is lost: a packet read while there was more than one path, or whose send
succeeded, was sent exactly once, unless the loop ended with an error; and the sent
frames are numbered from zero without a gap. -/
structure NothingLost (s : LoopState) : Prop where
  once : s.ended = some .error ∨ ∀ i r, s.reads[i]? = some r → 1 < r.paths ∨ r.sendOk = true →
    s.sends.countP (fun x => x.packet = i) = 1
  consecutive : s.sends.map (fun x => x.frame.header.sequence) =
    (List.range s.sends.length).map UInt64.ofNat

/-- The condition of the two loops: a send fails only on the last path. -/
def FailsOnlyOnLastPath {ε : Type} (loop : Loop ε) (s : LoopState) (e : ε) : Prop :=
  ∀ r, loop.outbound? e = some r → r.2 = false → s.ended = none → s.transports.length = 1

instance {ε : Type} (loop : Loop ε) (s : LoopState) (e : ε) :
    Decidable (FailsOnlyOnLastPath loop s e) :=
  inferInstanceAs (Decidable (∀ r, loop.outbound? e = some r → _))

/-- While no packet was lost, the packets sent are the packets read. -/
structure Complete (s : LoopState) : Prop where
  all : s.ended = some .error ∨ s.sends.map (·.packet) = List.range s.reads.length
  consecutive : s.sends.map (fun x => x.frame.header.sequence) =
    (List.range s.sends.length).map UInt64.ofNat
  running : s.ended = none → Ready s ∧
    s.session.nextTxSequence = UInt64.ofNat s.sends.length

theorem Complete.nothingLost (hs : Complete s) : NothingLost s := by
  refine ⟨?_,hs.consecutive⟩
  rcases hs.all with herr | hall
  · exact .inl herr
  · refine .inr fun i r hi _ => ?_
    have hlt : i < s.reads.length := (List.getElem?_eq_some_iff.mp hi).1
    have hcount : (s.sends.map (·.packet)).count i = 1 := by
      rw [hall]
      exact List.count_eq_one_of_mem List.nodup_range (List.mem_range.mpr hlt)
    rw [List.count,List.countP_map] at hcount
    rw [← hcount]
    exact List.countP_congr fun x _ => by simp

theorem complete_initial {transports : List ℕ} (h : transports ≠ []) :
    Complete (initial transports) :=
  ⟨.inr rfl,rfl,fun _ => ⟨List.length_pos_of_ne_nil h,rfl⟩⟩

theorem complete_quiet (hs : Complete s) (hrun : s.ended = none) (hq : Quiet s t) : Complete t := by
  have hall := hs.all.resolve_left (by simp [hrun])
  refine ⟨.inr ?_,?_,fun ht => ⟨hq.ready ht,?_⟩⟩
  · rw [hq.sends,hq.reads,hall]
  · rw [hq.sends,hs.consecutive]
  · rw [hq.nextTx,hq.sends,(hs.running hrun).2]

theorem complete_send (hs : Complete s) (hrun : s.ended = none) (packet : List UInt8) :
    Complete (sendOutbound s packet true) := by
  have hall := hs.all.resolve_left (by simp [hrun])
  obtain ⟨hr,htx⟩ := hs.running hrun
  have hpath := List.getElem?_eq_getElem (l := s.transports) hr
  simp only [sendOutbound,hpath,createOutboundFrame,if_true]
  refine ⟨.inr ?_,?_,fun _ => ⟨hr,?_⟩⟩
  · simp [hall,List.range_succ]
  · simp [hs.consecutive,List.range_succ,htx]
  · simp [htx,UInt64.ofNat_add]

/-- A failed send on the only path ends the loop with an error. -/
theorem complete_last_path (hs : Complete s) (hrun : s.ended = none) (packet : List UInt8)
    (hlen : s.transports.length = 1) : Complete (sendOutbound s packet false) := by
  have hpath := List.getElem?_eq_getElem (l := s.transports) (hs.running hrun).1
  simp only [sendOutbound,hpath,createOutboundFrame,Bool.false_eq_true,if_false,failover,
    if_pos hlen]
  exact ⟨.inl rfl,hs.consecutive,fun h => by simp at h⟩

theorem failed_send_loses (hs : Complete s) (hrun : s.ended = none) (packet : List UInt8)
    (hlen : s.transports.length ≠ 1) : ¬ NothingLost (sendOutbound s packet false) := by
  have hall := hs.all.resolve_left (by simp [hrun])
  obtain ⟨hr,-⟩ := hs.running hrun
  have hpath := List.getElem?_eq_getElem (l := s.transports) hr
  have hmany : 1 < s.transports.length := by unfold Ready at hr; omega
  simp only [sendOutbound,hpath,createOutboundFrame,Bool.false_eq_true,if_false,failover,
    if_neg hlen]
  rintro ⟨honce,-⟩
  simp only [hrun,reduceCtorEq,false_or] at honce
  have hone := honce s.reads.length ⟨packet,s.transports.length,false⟩ (by simp) (.inl hmany)
  have hpos : 0 < s.sends.countP (fun x => x.packet = s.reads.length) := by omega
  obtain ⟨x,hx,hxi⟩ := List.countP_pos_iff.mp hpos
  have hmem : x.packet ∈ List.range s.reads.length := hall ▸ List.mem_map_of_mem hx
  simp only [decide_eq_true_eq] at hxi
  rw [hxi] at hmem
  simp at hmem

theorem nothingLost_along_iff {ε : Type} (loop : Loop ε) (transports : List ℕ)
    (h : transports ≠ []) (events : List ε) :
    Along loop.step NothingLost (initial transports) events ↔
      Meets loop.step (FailsOnlyOnLastPath loop) (initial transports) events := by
  refine along_iff_meets (I := Complete) (fun s hs => hs.nothingLost) ?_ ?_ (complete_initial h)
  · intro s e t hs hg ht
    have hrun := loop.running s e t ht
    obtain ⟨hr,-⟩ := hs.running hrun
    cases he : loop.outbound? e with
    | none => exact complete_quiet hs hrun (loop.quiet s e t hr he ht)
    | some r =>
      obtain ⟨packet,sendOk⟩ := r
      rw [loop.sends s e packet sendOk hrun hr he,Option.some.injEq] at ht
      subst ht
      cases sendOk with
      | true => exact complete_send hs hrun packet
      | false => exact complete_last_path hs hrun packet (hg _ he rfl hrun)
  · intro s e hs hg
    simp only [FailsOnlyOnLastPath,not_forall] at hg
    obtain ⟨⟨packet,sendOk⟩,he,hfail,hrun,hlen⟩ := hg
    subst hfail
    exact ⟨_,loop.sends s e packet false hrun (hs.running hrun).1 he,
      failed_send_loses hs hrun packet hlen⟩

/-- From any non-empty list of paths, either loop loses no packet in a run exactly when
no send fails in it while another path is left. -/
theorem nothingLost_iff_fails_only_on_last_path (transports : List ℕ) (h : transports ≠ [])
    (linux : List LinuxEvent) (worker : List WorkerEvent) :
    (Along runLinuxPacketLoop NothingLost (initial transports) linux ↔
        Meets runLinuxPacketLoop (FailsOnlyOnLastPath linuxLoop) (initial transports) linux) ∧
      (Along runWorker NothingLost (initial transports) worker ↔
        Meets runWorker (FailsOnlyOnLastPath workerLoop) (initial transports) worker) :=
  ⟨nothingLost_along_iff linuxLoop transports h linux,
    nothingLost_along_iff workerLoop transports h worker⟩

/-- A receive failure moves both loops to the second path without losing a packet. -/
theorem nothingLost_over_receive_failure :
    Along runLinuxPacketLoop NothingLost (initial [0,1])
        [.tunRead [69] true,.recvFailed,.peerTransport 2,.tunRead [70] true] ∧
      Along runWorker NothingLost (initial [0,1])
        [.outbound [69] false true,.recvFailed,.heartbeat true,.outbound [70] false true] := by
  have h := nothingLost_iff_fails_only_on_last_path [0,1] (by simp)
    [.tunRead [69] true,.recvFailed,.peerTransport 2,.tunRead [70] true]
    [.outbound [69] false true,.recvFailed,.heartbeat true,.outbound [70] false true]
  exact ⟨h.1.mpr (by decide),h.2.mpr (by decide)⟩

/-- With two paths, a packet whose send fails is dropped, and the next packet is sent with
sequence number one. -/
theorem failover_drops_packet :
    (∃ s, exec runLinuxPacketLoop (initial [0,1]) [.tunRead [69] false,.tunRead [70] true] =
        some s ∧ s.ended = none ∧ s.sends = [⟨1,1,⟨⟨1,1,0⟩,[70]⟩⟩] ∧ ¬ NothingLost s) ∧
      ∃ s, exec runWorker (initial [0,1]) [.outbound [69] false false,.outbound [70] false true] =
        some s ∧ s.ended = none ∧ s.sends = [⟨1,1,⟨⟨1,1,0⟩,[70]⟩⟩] ∧ ¬ NothingLost s := by
  refine ⟨⟨_,rfl,rfl,rfl,fun h => ?_⟩,_,rfl,rfl,rfl,fun h => ?_⟩ <;>
    exact absurd h.consecutive (by decide)

end Bonded.PacketLoop
