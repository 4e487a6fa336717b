import Bonded.Channel
import Bonded.SessionLifecycle

/-! The task that `ensurePeerRuntime` spawns for a WireGuard peer: it sends the peer's return
frames, from the TUN bridge or from the peer's forwarder, and cleans up when it ends. It runs
against the listener and the other peers' tasks. -/
namespace Bonded.WireGuardPeerTask

open Machine Session SessionLifecycle SessionRegistry TunBridge

structure Shared where
  sessions : Registry
  bridge : TunBridgeState
  forwarders : Table UInt64 ℕ
  deriving DecidableEq

/-- Where the task stands: in one of its two drain loops with the rounds left, at the receive that
ends a cycle, or ended. -/
inductive Pc
  | drainTun (left : ℕ)
  | drainForward (left : ℕ)
  | receive
  | ended
  deriving DecidableEq, Repr

def maxResponseDrainPerCycle : ℕ := 256

/-- The peer's own data, its two channels and its task. `tx` names the peer's return channel in
the bridge, or its forwarder. The last four are history: `ensurePeerRuntime` has returned, a
`sendFrame` has failed, the bridge has closed the return channel, and the task has called
`cleanupWireguardPeer`. -/
structure PeerTask where
  shared : Shared
  device : String
  sessionId : UInt64
  tx : ℕ
  tun : Channel SessionFrame
  forward : Channel SessionFrame
  pc : Pc
  returned : Bool
  failed : Bool
  closedByBridge : Bool
  cleaned : Bool
  deriving DecidableEq

def attachPath (mode : Mode) (shared : Shared) (sessionId : UInt64) (tx : ℕ) : Shared :=
  match mode with
  | .tunBridge => {shared with bridge := registerSession shared.bridge sessionId tx}
  | .forwarder => {shared with forwarders := shared.forwarders.set sessionId tx}

def detachPath (mode : Mode) (shared : Shared) (sessionId : UInt64) : Shared :=
  match mode with
  | .tunBridge => {shared with bridge := unregisterSession shared.bridge sessionId}
  | .forwarder => {shared with forwarders := shared.forwarders.remove sessionId}

/-- The task has been spawned and `ensurePeerRuntime` is about to return. -/
def spawn (mode : Mode) (shared : Shared) (device : String) (tx : ℕ) : PeerTask :=
  let handle := registerClient shared.sessions device
  ⟨attachPath mode {shared with sessions := handle.2} handle.1 tx,device,handle.1,tx,
    .new,.new,.drainTun maxResponseDrainPerCycle,false,false,false,false⟩

inductive Branch
  | tun
  | forward
  deriving DecidableEq, Repr

/-- The return of `ensurePeerRuntime`; a step of the task, with the branch that is chosen at a
`select` and the outcome of a send; frames for the two channels; the bridge closing the return
channel; a send by the listener; and other peers coming and going. -/
inductive Event
  | returns
  | task (branch : Branch) (sendOk : Bool)
  | tunFrame (frame : SessionFrame)
  | forwardFrame (frame : SessionFrame)
  | bridgeCloses
  | listenerSends (sendOk : Bool)
  | otherRegisters (device : String) (tx : ℕ)
  | otherCleansUp (device : String) (sessionId : UInt64)
  deriving DecidableEq

section Step

variable (mode : Mode)

def cleanupWireguardPeer (s : PeerTask) : PeerTask :=
  let detached := detachPath mode s.shared s.sessionId
  {s with
    shared := {detached with sessions := unregisterClient detached.sessions s.device}
    pc := .ended
    cleaned := true}

/-- After a send the task goes on; a failed send ends it. -/
def afterSend (s : PeerTask) (sendOk : Bool) (next : Pc) : PeerTask :=
  if sendOk then {s with pc := next} else cleanupWireguardPeer mode {s with failed := true}

/-- A receive that waits for an item; the end of the channel ends the task. -/
def afterReceive (s : PeerTask) (received : Channel.Received SessionFrame) (sendOk : Bool) :
    Option PeerTask :=
  match received with
  | .item _ => some (afterSend mode s sendOk (.drainTun maxResponseDrainPerCycle))
  | .closed => some (cleanupWireguardPeer mode s)
  | .pending => none

def taskStep (s : PeerTask) (branch : Branch) (sendOk : Bool) : Option PeerTask :=
  match s.pc with
  | .drainTun left =>
    match mode with
    | .forwarder => some {s with pc := .drainForward maxResponseDrainPerCycle}
    | .tunBridge =>
      match left, s.tun.recv with
      | left+1, (.item _,tun) => some (afterSend mode {s with tun := tun} sendOk (.drainTun left))
      | _, _ => some {s with pc := .receive}
  | .drainForward left =>
    match left, s.forward.recv with
    | left+1, (.item _,forward) =>
      some (afterSend mode {s with forward := forward} sendOk (.drainForward left))
    | _, _ => some {s with pc := .receive}
  | .receive =>
    match mode, branch with
    | .tunBridge, .tun => afterReceive mode {s with tun := s.tun.recv.2} s.tun.recv.1 sendOk
    | .forwarder, .tun => none
    | _, .forward =>
      afterReceive mode {s with forward := s.forward.recv.2} s.forward.recv.1 sendOk
  | .ended => none

/-- The sender of the forward channel is dropped when `ensurePeerRuntime` returns, unless a
forwarder holds it; the task holds the forwarder. -/
def step (s : PeerTask) : Event → Option PeerTask
  | .returns =>
    if s.returned then none
    else match mode with
      | .tunBridge => some {s with returned := true, forward := s.forward.disconnect}
      | .forwarder => some {s with returned := true}
  | .task branch sendOk => taskStep mode s branch sendOk
  | .tunFrame frame =>
    if mode = .tunBridge ∧ s.tun.connected then some {s with tun := s.tun.send frame} else none
  | .forwardFrame frame =>
    if mode = .forwarder then some {s with forward := s.forward.send frame} else none
  | .bridgeCloses =>
    if mode = .tunBridge then some {s with
      shared := detachPath mode s.shared s.sessionId
      tun := s.tun.disconnect
      closedByBridge := true}
    else none
  | .listenerSends sendOk => some {s with failed := s.failed || !sendOk}
  | .otherRegisters device tx =>
    let handle := registerClient s.shared.sessions device
    if device = s.device ∨ handle.1 = s.sessionId then none
    else some {s with
      shared := attachPath mode {s.shared with sessions := handle.2} handle.1 tx}
  | .otherCleansUp device sessionId =>
    if device = s.device ∨ sessionId = s.sessionId then none
    else
      let detached := detachPath mode s.shared sessionId
      some {s with
        shared := {detached with sessions := unregisterClient detached.sessions device}}

/-- The peer's route, or its forwarder's entry, is in the shared table. -/
def pathInPlace (s : PeerTask) : Prop :=
  match mode with
  | .tunBridge => ∃ route, s.shared.bridge.sessions.get s.sessionId = some route ∧ route.tx = s.tx
  | .forwarder => s.shared.forwarders.get s.sessionId = some s.tx

/-- From the return of `ensurePeerRuntime` until a send fails or the bridge closes the return
channel, the task has not cleaned up, the device is registered and its path is in place. -/
def StaysRegistered (s : PeerTask) : Prop :=
  s.returned = true → s.failed = false → s.closedByBridge = false →
    s.cleaned = false ∧ containsClient s.shared.sessions s.device = true ∧ pathInPlace mode s

end Step

section Forwarder

/-- Without a TUN bridge the forward channel has its sender, and the peer is in the tables until a
send fails. -/
structure Stays (s : PeerTask) : Prop where
  connected : s.forward.connected = true
  kept : s.failed = false → s.cleaned = false ∧
    containsClient s.shared.sessions s.device = true ∧
    s.shared.forwarders.get s.sessionId = some s.tx

theorem Stays.spawn (shared : Shared) (device : String) (tx : ℕ) :
    Stays (spawn .forwarder shared device tx) := by
  refine ⟨rfl,fun _ => ⟨rfl,?_,Table.get_set_self _ _ _⟩⟩
  unfold WireGuardPeerTask.spawn attachPath containsClient Table.contains
  simp only
  rw [registerClient_get,if_pos rfl]
  rfl

variable {s t : PeerTask}

theorem Stays.others (h : Stays s) {shared : Shared}
    (hsession : containsClient shared.sessions s.device = containsClient s.shared.sessions s.device)
    (hpath : shared.forwarders.get s.sessionId = s.shared.forwarders.get s.sessionId) :
    Stays {s with shared := shared} := by
  refine ⟨h.connected,fun hfailed => ?_⟩
  obtain ⟨hcleaned,hkept,htx⟩ := h.kept hfailed
  exact ⟨hcleaned,hsession.trans hkept,hpath.trans htx⟩

theorem Stays.afterSend (h : Stays s) (sendOk : Bool) (next : Pc) :
    Stays (afterSend .forwarder s sendOk next) := by
  unfold WireGuardPeerTask.afterSend
  cases sendOk with
  | true => exact ⟨h.connected,h.kept⟩
  | false => exact ⟨h.connected,fun hfailed => by cases hfailed⟩

theorem Stays.taskStep (h : Stays s) {branch : Branch} {sendOk : Bool}
    (ht : taskStep .forwarder s branch sendOk = some t) : Stays t := by
  have hrecv : Stays {s with forward := s.forward.recv.2} :=
    ⟨(Channel.recv_connected _).trans h.connected,h.kept⟩
  unfold WireGuardPeerTask.taskStep at ht
  split at ht
  · cases ht
    exact ⟨h.connected,h.kept⟩
  · split at ht
    · next hitem _ =>
      rw [hitem] at hrecv
      cases ht
      exact hrecv.afterSend sendOk _
    · cases ht
      exact ⟨h.connected,h.kept⟩
  · cases branch with
    | tun => cases ht
    | forward =>
      simp only [afterReceive] at ht
      split at ht
      · cases ht
        exact hrecv.afterSend sendOk _
      · next hclosed => exact absurd hclosed (Channel.recv_ne_closed h.connected)
      · cases ht
  · cases ht

theorem Stays.step (h : Stays s) {e : Event} (ht : step .forwarder s e = some t) : Stays t := by
  cases e with
  | returns =>
    simp only [WireGuardPeerTask.step] at ht
    split at ht
    · cases ht
    · cases ht
      exact ⟨h.connected,h.kept⟩
  | task branch sendOk => exact h.taskStep ht
  | tunFrame frame => cases ht
  | forwardFrame frame =>
    cases ht
    exact ⟨h.connected,h.kept⟩
  | bridgeCloses => cases ht
  | listenerSends sendOk =>
    cases ht
    exact ⟨h.connected,fun hfailed => h.kept (Bool.or_eq_false_iff.mp hfailed).1⟩
  | otherRegisters device tx =>
    simp only [WireGuardPeerTask.step] at ht
    split at ht
    · cases ht
    next hother =>
    simp only [not_or] at hother
    cases ht
    refine h.others ?_ (Table.get_set_ne (Ne.symm hother.2))
    simp only [attachPath,containsClient,Table.contains,registerClient_get]
    rw [if_neg (Ne.symm hother.1)]
  | otherCleansUp device sessionId =>
    simp only [WireGuardPeerTask.step] at ht
    split at ht
    · cases ht
    next hother =>
    simp only [not_or] at hother
    cases ht
    refine h.others ?_ (Table.get_remove_ne (Ne.symm hother.2))
    simp only [detachPath,containsClient,Table.contains,unregisterClient_get]
    rw [if_neg (Ne.symm hother.1)]

end Forwarder

section Bridge

/-- With a TUN bridge: the function returns, the task finds no frame to drain, and at its receive
the forward channel has ended. -/
def closedForwardRun : List Event := [.returns,.task .tun true,.task .forward true]

theorem closedForwardRun_cleans (shared : Shared) (device : String) (tx : ℕ) :
    ∃ s, exec (step .tunBridge) (spawn .tunBridge shared device tx) closedForwardRun = some s ∧
      s.returned = true ∧ s.failed = false ∧ s.closedByBridge = false ∧ s.cleaned = true :=
  ⟨_,rfl,rfl,rfl,rfl,rfl⟩

end Bridge

/-- A peer stays registered on every schedule exactly if the server has no TUN bridge. -/
theorem stays_registered_iff_no_bridge (mode : Mode) (shared : Shared) (device : String) (tx : ℕ) :
    (∀ es, Along (step mode) (StaysRegistered mode) (spawn mode shared device tx) es) ↔
      mode = .forwarder := by
  constructor
  · intro h
    cases mode with
    | forwarder => rfl
    | tunBridge =>
      obtain ⟨s,hs,hreturned,hfailed,hclosed,hcleaned⟩ := closedForwardRun_cleans shared device tx
      have hstays := h closedForwardRun closedForwardRun s (List.prefix_refl _) hs hreturned
        hfailed hclosed
      rw [hcleaned] at hstays
      cases hstays.1
  · rintro rfl es done s hdone hs
    have hstays : Stays s := exec_preserves (fun s e t hs ht => hs.step ht)
      (Stays.spawn shared device tx) hs
    exact fun _ hfailed _ => hstays.kept hfailed

/-- A peer with a TUN bridge on an empty server is cleaned up without a failed send. -/
theorem bridge_peer_unregistered :
    ∃ s, exec (step .tunBridge) (spawn .tunBridge ⟨SessionRegistry.new,TunBridge.new,∅⟩ "dev" 0)
        closedForwardRun = some s ∧ s.returned = true ∧ s.failed = false ∧
      s.closedByBridge = false ∧ s.cleaned = true ∧
      containsClient s.shared.sessions "dev" = false ∧
      s.shared.bridge.sessions.get s.sessionId = none ∧ ¬ StaysRegistered .tunBridge s := by
  obtain ⟨s,hs,hreturned,hfailed,hclosed,hcleaned⟩ :=
    closedForwardRun_cleans ⟨SessionRegistry.new,TunBridge.new,∅⟩ "dev" 0
  have hgone : (exec (step .tunBridge)
      (spawn .tunBridge ⟨SessionRegistry.new,TunBridge.new,∅⟩ "dev" 0) closedForwardRun).map
        (fun s => (containsClient s.shared.sessions "dev",
          s.shared.bridge.sessions.get s.sessionId)) = some (false,none) := by decide
  rw [hs] at hgone
  simp only [Option.map_some,Option.some.injEq,Prod.mk.injEq] at hgone
  refine ⟨s,hs,hreturned,hfailed,hclosed,hcleaned,hgone.1,hgone.2,fun hstays => ?_⟩
  have hkept := (hstays hreturned hfailed hclosed).1
  rw [hcleaned] at hkept
  cases hkept

end Bonded.WireGuardPeerTask
