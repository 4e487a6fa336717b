import Bonded.ServerSession

/-! The UDP flow table of a session, one step per lock and await. The tasks that forward the
client's packets share the map of flows and the tracker with the response pumps they spawn,
and each pump takes its flow out of both when it ends. -/
namespace Bonded.UdpFlowTable

open Session Ipv4
open ServerSession (UdpFlowKey UdpFlowState bufferLen)

/-- An idle flow is given up after this many milliseconds. -/
def idleLimit : ℕ := 240*1000

/-- Where the pump of a flow is. Before it is spawned, the task that will do so is named. -/
inductive Pump
  | unspawned (task : ℕ)
  | checking
  | reading
  | stamping (datagram : List UInt8)
  | touching (frame : SessionFrame)
  | unmapping
  | untracking
  | ended
  deriving DecidableEq, Repr

def Pump.running : Pump → Bool
  | .checking | .reading | .stamping _ | .touching _ => true
  | _ => false

/-- The flow has been put into the map and not been taken out. -/
def Pump.mapped : Pump → Bool
  | .untracking | .ended => false
  | _ => true

/-- The flow has been registered with the tracker and not been removed. -/
def Pump.tracked : Pump → Bool
  | .unspawned _ | .ended => false
  | _ => true

/-- The socket and the state of a flow, which the handles in the map and in tasks share, with
its pump and a record of the frames the pump has sent. -/
structure Flow where
  key : UdpFlowKey
  state : UdpFlowState
  lastClientAt : ℕ
  pump : Pump
  responses : List SessionFrame
  deriving DecidableEq, Repr

/-- How far `forward_udp_packet` is; a handle is a place in the list of flows. -/
inductive Phase
  | lookup
  | bind
  | connect
  | insert (bound : String) (createdAt : ℕ)
  | register (handle : ℕ) (bound : String)
  | update (handle : ℕ)
  | touch (handle : ℕ)
  | send (handle : ℕ)
  | done
  deriving DecidableEq, Repr

/-- The flow that the task has put into the map and is going to register. -/
def Phase.registers : Phase → Option ℕ
  | .register handle _ => some handle
  | _ => none

/-- The flow whose socket the task is going to use. -/
def Phase.handle : Phase → Option ℕ
  | .update handle | .touch handle | .send handle => some handle
  | _ => none

structure Task where
  header : SessionHeader
  pkt : Ipv4UdpPacket
  phase : Phase
  deriving DecidableEq, Repr

def Task.key (task : Task) : UdpFlowKey :=
  ⟨task.pkt.srcIp,task.pkt.dstIp,task.pkt.srcPort,task.pkt.dstPort⟩

structure UdpFlowStatus where
  boundSocket : String
  createdAt : ℕ
  lastClientPacketAt : ℕ
  lastRemotePacketAt : Option ℕ
  clientToRemotePackets : ℕ
  remoteToClientPackets : ℕ
  deriving DecidableEq, Repr

/-- A session's tracker has the entries of this session only. -/
abbrev Tracker := Table UdpFlowKey UdpFlowStatus

def registerFlow (tracker : Tracker) (key : UdpFlowKey) (bound : String) (now : ℕ) : Tracker :=
  tracker.set key ⟨bound,now,now,none,0,0⟩

/-- The counters stop at the greatest 64-bit number. -/
def saturatingSucc (n : ℕ) : ℕ := min (n+1) (2^64-1)

def touchClient (tracker : Tracker) (key : UdpFlowKey) (now : ℕ) : Tracker :=
  match tracker.get key with
  | none => tracker
  | some e => tracker.set key {e with
      lastClientPacketAt := now
      clientToRemotePackets := saturatingSucc e.clientToRemotePackets}

def touchRemote (tracker : Tracker) (key : UdpFlowKey) (now : ℕ) : Tracker :=
  match tracker.get key with
  | none => tracker
  | some e => tracker.set key {e with
      lastRemotePacketAt := some now
      remoteToClientPackets := saturatingSucc e.remoteToClientPackets}

/-- The session's shared data, its tasks, the clock, and whether the channel to the client is
closed. -/
structure State where
  now : ℕ
  closed : Bool
  flowMap : Table UdpFlowKey ℕ
  tracker : Tracker
  flows : List Flow
  tasks : List Task
  deriving DecidableEq

def start : State := ⟨0,false,∅,∅,[],[]⟩

/-- How the wait of a pump for its socket ends. -/
inductive Read
  | timeout
  | error
  | datagram (bytes : List UInt8)
  deriving DecidableEq, Repr

/-- A packet of the client comes in; time passes; the client's channel is closed; a task or a
pump makes its next step, with what the socket says to it. -/
inductive Event
  | spawn (header : SessionHeader) (pkt : Ipv4UdpPacket)
  | tick (elapsed : ℕ)
  | close
  | task (i : ℕ) (ok : Bool) (bound : String)
  | pump (handle : ℕ) (read : Read)
  deriving DecidableEq

def State.setPhase (s : State) (i : ℕ) (task : Task) (phase : Phase) : State :=
  {s with tasks := s.tasks.set i {task with phase := phase}}

def State.setFlow (s : State) (handle : ℕ) (flow : Flow) : State :=
  {s with flows := s.flows.set handle flow}

def newFlow (task : Task) (i createdAt : ℕ) : Flow :=
  ⟨task.key,⟨task.header.connectionId,task.header.sequence,task.pkt.identification⟩,createdAt,
    .unspawned i,[]⟩

/-- A request moves a flow's next sequence number forwards only. -/
def Task.updateState (task : Task) (now : ℕ) (flow : Flow) : Flow :=
  {flow with
    state := ⟨task.header.connectionId,
      if flow.state.nextSequence < task.header.sequence then task.header.sequence
      else flow.state.nextSequence,
      task.pkt.identification⟩
    lastClientAt := now}

def forwardUdpPacket (s : State) (i : ℕ) (task : Task) (ok : Bool) (bound : String) :
    Option State :=
  match task.phase with
  | .lookup =>
    match s.flowMap.get task.key with
    | some handle => some (s.setPhase i task (.update handle))
    | none => some (s.setPhase i task .bind)
  | .bind => some (s.setPhase i task (if ok then .connect else .done))
  | .connect => some (s.setPhase i task (if ok then .insert bound s.now else .done))
  | .insert bound createdAt =>
    match s.flowMap.get task.key with
    | some handle => some (s.setPhase i task (.update handle))
    | none => some {s.setPhase i task (.register s.flows.length bound) with
        flowMap := s.flowMap.set task.key s.flows.length
        flows := s.flows++[newFlow task i createdAt]}
  | .register handle bound => some {s.setPhase i task (.update handle) with
      tracker := registerFlow s.tracker task.key bound s.now
      flows := s.flows.modify handle fun flow => {flow with pump := .checking}}
  | .update handle => some {s.setPhase i task (.touch handle) with
      flows := s.flows.modify handle (task.updateState s.now)}
  | .touch handle => some {s.setPhase i task (.send handle) with
      tracker := touchClient s.tracker task.key s.now}
  | .send _ => some (s.setPhase i task .done)
  | .done => none

/-- The frame of a response, unless its packet would be too long. -/
def Flow.response (flow : Flow) (datagram : List UInt8) : Option SessionFrame :=
  (buildIpv4UdpPacket flow.key.dstIp flow.key.srcIp flow.key.dstPort flow.key.srcPort
    flow.state.identification datagram).map fun payload =>
      ⟨⟨flow.state.connectionId,flow.state.nextSequence,0⟩,payload⟩

/-- The pump takes a sequence number for a datagram, also when no packet can be built. -/
def Flow.stamp (flow : Flow) (datagram : List UInt8) : Flow :=
  {flow with
    state := {flow.state with nextSequence := flow.state.nextSequence+1}
    pump := match flow.response datagram with
      | none => .checking
      | some frame => .touching frame}

def pumpResponses (s : State) (handle : ℕ) (flow : Flow) (read : Read) : Option State :=
  match flow.pump with
  | .unspawned _ => none
  | .checking =>
    if s.now-flow.lastClientAt ≥ idleLimit then
      some (s.setFlow handle {flow with pump := .unmapping})
    else some (s.setFlow handle {flow with pump := .reading})
  | .reading =>
    match read with
    | .timeout => some (s.setFlow handle {flow with pump := .checking})
    | .error => some (s.setFlow handle {flow with pump := .unmapping})
    | .datagram bytes =>
      if bytes = [] then some (s.setFlow handle {flow with pump := .checking})
      else some (s.setFlow handle {flow with pump := .stamping (bytes.take bufferLen)})
  | .stamping datagram => some (s.setFlow handle (flow.stamp datagram))
  | .touching frame =>
    let tracker := touchRemote s.tracker flow.key s.now
    if s.closed then
      some {s.setFlow handle {flow with pump := .unmapping} with tracker := tracker}
    else
      some {s.setFlow handle {flow with
          pump := .checking
          responses := flow.responses++[frame]} with tracker := tracker}
  | .unmapping => some {s.setFlow handle {flow with pump := .untracking} with
      flowMap := s.flowMap.remove flow.key}
  | .untracking => some {s.setFlow handle {flow with pump := .ended} with
      tracker := s.tracker.remove flow.key}
  | .ended => none

def step (s : State) : Event → Option State
  | .spawn header pkt => some {s with tasks := s.tasks++[⟨header,pkt,.lookup⟩]}
  | .tick elapsed => some {s with now := s.now+elapsed}
  | .close => some {s with closed := true}
  | .task i ok bound => s.tasks[i]?.bind fun task => forwardUdpPacket s i task ok bound
  | .pump handle read => s.flows[handle]?.bind fun flow => pumpResponses s handle flow read

/-- The pump leaves its loop in this step: the flow is idle, the socket has failed, or the
client's channel is closed. -/
def leaves (s : State) (flow : Flow) (read : Read) : Bool :=
  match flow.pump,read with
  | .checking,_ => s.now-flow.lastClientAt ≥ idleLimit
  | .reading,.error => true
  | .touching _,_ => s.closed
  | _,_ => false

inductive TaskMoves (s : State) (i : ℕ) (task : Task) : State → Prop
  | advance (phase : Phase) (hold : task.phase.registers = none)
      (hregisters : phase.registers = none) (hhandle : phase.handle = none) :
    TaskMoves s i task (s.setPhase i task phase)
  | found (handle : ℕ)
      (hphase : task.phase = .lookup ∨ ∃ bound createdAt, task.phase = .insert bound createdAt)
      (hget : s.flowMap.get task.key = some handle) :
    TaskMoves s i task (s.setPhase i task (.update handle))
  | insert (bound : String) (createdAt : ℕ) (hphase : task.phase = .insert bound createdAt)
      (hget : s.flowMap.get task.key = none) :
    TaskMoves s i task {s.setPhase i task (.register s.flows.length bound) with
      flowMap := s.flowMap.set task.key s.flows.length
      flows := s.flows++[newFlow task i createdAt]}
  | register (handle : ℕ) (bound : String) (hphase : task.phase = .register handle bound) :
    TaskMoves s i task {s.setPhase i task (.update handle) with
      tracker := registerFlow s.tracker task.key bound s.now
      flows := s.flows.modify handle fun flow => {flow with pump := .checking}}
  | update (handle : ℕ) (hphase : task.phase = .update handle) :
    TaskMoves s i task {s.setPhase i task (.touch handle) with
      flows := s.flows.modify handle (task.updateState s.now)}
  | touch (handle : ℕ) (hphase : task.phase = .touch handle) :
    TaskMoves s i task {s.setPhase i task (.send handle) with
      tracker := touchClient s.tracker task.key s.now}

theorem taskMoves_of_forward {s t : State} {i : ℕ} {task : Task} {ok : Bool} {bound : String}
    (h : forwardUdpPacket s i task ok bound = some t) : TaskMoves s i task t := by
  unfold forwardUdpPacket at h
  cases hphase : task.phase with
  | lookup =>
    simp only [hphase] at h
    split at h
    · cases h
      exact .found _ (.inl hphase) ‹_›
    · cases h
      exact .advance _ (by simp [hphase,Phase.registers]) rfl rfl
  | bind =>
    simp only [hphase] at h
    cases h
    refine .advance _ (by simp [hphase,Phase.registers]) ?_ ?_ <;> cases ok <;> rfl
  | connect =>
    simp only [hphase] at h
    cases h
    refine .advance _ (by simp [hphase,Phase.registers]) ?_ ?_ <;> cases ok <;> rfl
  | insert bound createdAt =>
    simp only [hphase] at h
    split at h
    · cases h
      exact .found _ (.inr ⟨_,_,hphase⟩) ‹_›
    · cases h
      exact .insert _ _ hphase ‹_›
  | register handle bound =>
    simp only [hphase] at h
    cases h
    exact .register _ _ hphase
  | update handle =>
    simp only [hphase] at h
    cases h
    exact .update _ hphase
  | touch handle =>
    simp only [hphase] at h
    cases h
    exact .touch _ hphase
  | send handle =>
    simp only [hphase] at h
    cases h
    exact .advance _ (by simp [hphase,Phase.registers]) rfl rfl
  | done =>
    simp only [hphase] at h
    cases h

inductive PumpMoves (s : State) (handle : ℕ) (flow : Flow) (read : Read) : State → Prop
  | loop (pump : Pump) (hrunning : flow.pump.running = true) (hpump : pump.running = true)
      (htouching : ∀ frame, pump ≠ .touching frame) :
    PumpMoves s handle flow read (s.setFlow handle {flow with pump := pump})
  | stamp (datagram : List UInt8) (hpump : flow.pump = .stamping datagram) :
    PumpMoves s handle flow read (s.setFlow handle (flow.stamp datagram))
  | respond (frame : SessionFrame) (hpump : flow.pump = .touching frame) :
    PumpMoves s handle flow read {s.setFlow handle {flow with
        pump := .checking
        responses := flow.responses++[frame]} with
      tracker := touchRemote s.tracker flow.key s.now}
  | leave (tracker : Tracker) (hrunning : flow.pump.running = true)
      (hleaves : leaves s flow read = true)
      (htracker : tracker = s.tracker ∨ tracker = touchRemote s.tracker flow.key s.now) :
    PumpMoves s handle flow read
      {s.setFlow handle {flow with pump := .unmapping} with tracker := tracker}
  | unmap (hpump : flow.pump = .unmapping) :
    PumpMoves s handle flow read {s.setFlow handle {flow with pump := .untracking} with
      flowMap := s.flowMap.remove flow.key}
  | untrack (hpump : flow.pump = .untracking) :
    PumpMoves s handle flow read {s.setFlow handle {flow with pump := .ended} with
      tracker := s.tracker.remove flow.key}

theorem pumpMoves_of_pump {s t : State} {handle : ℕ} {flow : Flow} {read : Read}
    (h : pumpResponses s handle flow read = some t) : PumpMoves s handle flow read t := by
  unfold pumpResponses at h
  cases hpump : flow.pump with
  | unspawned task =>
    simp only [hpump] at h
    cases h
  | checking =>
    simp only [hpump] at h
    split at h
    · cases h
      exact .leave s.tracker (by simp [hpump,Pump.running]) (by simpa [leaves,hpump]) (.inl rfl)
    · cases h
      exact .loop _ (by simp [hpump,Pump.running]) rfl (by simp)
  | reading =>
    have hrunning : flow.pump.running = true := by simp [hpump,Pump.running]
    cases read with
    | timeout =>
      simp only [hpump] at h
      cases h
      exact .loop _ hrunning rfl (by simp)
    | error =>
      simp only [hpump] at h
      cases h
      exact .leave s.tracker hrunning (by simp [leaves,hpump]) (.inl rfl)
    | datagram bytes =>
      simp only [hpump] at h
      split at h
      · cases h
        exact .loop _ hrunning rfl (by simp)
      · cases h
        exact .loop _ hrunning rfl (by simp)
  | stamping datagram =>
    simp only [hpump] at h
    cases h
    exact .stamp datagram hpump
  | touching frame =>
    simp only [hpump] at h
    split at h
    · cases h
      exact .leave _ (by simp [hpump,Pump.running]) (by simpa [leaves,hpump]) (.inr rfl)
    · cases h
      exact .respond frame hpump
  | unmapping =>
    simp only [hpump] at h
    cases h
    exact .unmap hpump
  | untracking =>
    simp only [hpump] at h
    cases h
    exact .untrack hpump
  | ended =>
    simp only [hpump] at h
    cases h

/-- Everything that can happen in one step. -/
inductive Moves (s : State) : Event → State → Prop
  | spawn (header : SessionHeader) (pkt : Ipv4UdpPacket) :
    Moves s (.spawn header pkt) {s with tasks := s.tasks++[⟨header,pkt,.lookup⟩]}
  | tick (elapsed : ℕ) : Moves s (.tick elapsed) {s with now := s.now+elapsed}
  | close : Moves s .close {s with closed := true}
  | task (i : ℕ) (ok : Bool) (bound : String) (task : Task) (t : State)
      (htask : s.tasks[i]? = some task) (h : TaskMoves s i task t) :
    Moves s (.task i ok bound) t
  | pump (handle : ℕ) (read : Read) (flow : Flow) (t : State)
      (hflow : s.flows[handle]? = some flow) (h : PumpMoves s handle flow read t) :
    Moves s (.pump handle read) t

theorem moves_of_step {s t : State} {e : Event} (h : step s e = some t) : Moves s e t := by
  cases e with
  | spawn header pkt =>
    cases h
    exact .spawn header pkt
  | tick elapsed =>
    cases h
    exact .tick elapsed
  | close =>
    cases h
    exact .close
  | task i ok bound =>
    obtain ⟨task,htask,ht⟩ := Option.bind_eq_some_iff.mp h
    exact .task i ok bound task t htask (taskMoves_of_forward ht)
  | pump handle read =>
    obtain ⟨flow,hflow,ht⟩ := Option.bind_eq_some_iff.mp h
    exact .pump handle read flow t hflow (pumpMoves_of_pump ht)

end Bonded.UdpFlowTable
