import Bonded.PollService

/-! The end of a connection. A bridge task ends when it cannot connect or write, or when its input
channel is closed; its reader ends when the upstream closes. The poll thread, on the other side,
gives a connection up only when its socket is closed: it ignores that a bridge has ended, and it
keeps the channel to the bridge while the socket is there. So ends are passed on only as long as
there are none. -/
namespace Bonded.BridgeLifecycle

open Machine PollService PollThread TcpStack
open SmoltcpForwarder hiding Event step

inductive EndCause
  | connectFailed
  | writeFailed
  | inputClosed
  deriving DecidableEq, Repr

/-- Where a bridge task is. In `writing` the upstream has closed, or reading failed, and the task
goes on to write what the client sends. -/
inductive Stage
  | connecting
  | running
  | writing
  | ended (cause : EndCause)
  deriving DecidableEq, Repr

def Stage.hasEnded : Stage → Bool
  | .ended _ => true
  | _ => false

/-- A bridge task with its input channel `fromSmoltcp`. What it has written upstream, and what was
handed to it and thrown away, is history. -/
structure BridgeTask where
  stage : Stage
  fromSmoltcp : List (List UInt8)
  written : List UInt8
  discarded : List UInt8
  deriving DecidableEq, Repr

def spawned : BridgeTask := ⟨.connecting,[],[],[]⟩

/-- Chunks are sent to the task. After its end the receiver is gone, and the error of the send is
ignored. -/
def BridgeTask.hand (task : BridgeTask) (chunks : List (List UInt8)) : BridgeTask :=
  if task.stage.hasEnded then {task with discarded := task.discarded++chunks.flatten}
  else {task with fromSmoltcp := task.fromSmoltcp++chunks}

/-- The task returns; what waits in its input channel is dropped with it. -/
def BridgeTask.finish (task : BridgeTask) (cause : EndCause) : BridgeTask :=
  {task with
    stage := .ended cause
    fromSmoltcp := []
    discarded := task.discarded++task.fromSmoltcp.flatten}

def BridgeTask.connect (task : BridgeTask) (connects : Bool) : BridgeTask :=
  if connects then {task with stage := .running} else task.finish .connectFailed

/-- Write the next chunk; `failsAfter` is how much of it was written when writing failed. -/
def BridgeTask.write (task : BridgeTask) (failsAfter : Option ℕ) : Option BridgeTask :=
  match task.fromSmoltcp, failsAfter with
  | [], _ => none
  | bytes::rest, none => some {task with fromSmoltcp := rest, written := task.written++bytes}
  | bytes::rest, some n => some (BridgeTask.finish {task with
      fromSmoltcp := bytes.drop n::rest, written := task.written++bytes.take n} .writeFailed)

/-- The poll thread and the bridge tasks; `tasks` has the task of each of the forwarder's
bridges. -/
structure Bridged (τ : Type) where
  poller : Poller τ
  tasks : List BridgeTask
  deriving DecidableEq

def start (τ : Type) : Bridged τ := ⟨spawn τ,[]⟩

def taskOf {τ : Type} (s : Bridged τ) (bridge : ℕ) : BridgeTask := s.tasks.getD bridge spawned

/-- The steps of the poll thread, its callers and the bridges' readers, and those of the tasks:
connecting, the end of what the upstream sends, writing a chunk, and finding the input closed. -/
inductive Event
  | thread (e : PollThread.Event)
  | connect (bridge : ℕ) (connects : Bool)
  | upstreamEnd (bridge : ℕ)
  | write (bridge : ℕ) (failsAfter : Option ℕ)
  | inputClosed (bridge : ℕ)
  deriving DecidableEq, Repr

/-- What the thread sent in a step: the end of what each bridge has been sent. -/
def settle (before after : List Bridge) (tasks : List BridgeTask) : List BridgeTask :=
  after.mapIdx fun i bridge => (tasks.getD i spawned).hand
    ((bridge.sent.drop (before[i]?.elim 0 fun old => old.sent.length)).map Chunk.bytes)

section Steps

variable {τ : Type} (api : TcpApi τ) (pollDelay : List (Option (Slot τ)) → ℕ → Option ℕ)

/-- Only a running task has a reader, and it sends what it has read, which is not empty. -/
def feeds (s : Bridged τ) : PollThread.Event → Bool
  | .chunk handle bytes => bytes ≠ [] ∧
      (s.poller.forwarder.active.get handle).any fun conn => (taskOf s conn.bridge).stage = .running
  | _ => true

/-- The sender of the input channel lives in the active connection. -/
def hasSender (s : Bridged τ) (bridge : ℕ) : Bool :=
  s.poller.forwarder.active.toList.any fun e => e.2.bridge = bridge

def setTask (s : Bridged τ) (bridge : ℕ) (task : BridgeTask) : Bridged τ :=
  {s with tasks := s.tasks.set bridge task}

def step (s : Bridged τ) : Event → Option (Bridged τ)
  | .thread e =>
    if feeds s e then
      (PollThread.step api pollDelay s.poller e).map fun poller =>
        ⟨poller,settle s.poller.forwarder.bridges poller.forwarder.bridges s.tasks⟩
    else none
  | .connect bridge connects =>
    if bridge < s.tasks.length ∧ (taskOf s bridge).stage = .connecting then
      some (setTask s bridge ((taskOf s bridge).connect connects))
    else none
  | .upstreamEnd bridge =>
    if bridge < s.tasks.length ∧ (taskOf s bridge).stage = .running then
      some (setTask s bridge {taskOf s bridge with stage := .writing})
    else none
  | .write bridge failsAfter =>
    if bridge < s.tasks.length ∧
        ((taskOf s bridge).stage = .running ∨ (taskOf s bridge).stage = .writing) then
      ((taskOf s bridge).write failsAfter).map (setTask s bridge)
    else none
  | .inputClosed bridge =>
    if bridge < s.tasks.length ∧
        ((taskOf s bridge).stage = .running ∨ (taskOf s bridge).stage = .writing) ∧
        (taskOf s bridge).fromSmoltcp = [] ∧ hasSender s bridge = false then
      some (setTask s bridge ((taskOf s bridge).finish .inputClosed))
    else none

end Steps

section Property

variable {τ : Type} (api : TcpApi τ)

/-- The forwarder has closed or aborted its side. -/
def locallyClosed : TcpState → Bool
  | .finWait1 | .finWait2 | .closing | .lastAck | .timeWait | .closed => true
  | _ => false

def clientClosed : TcpState → Bool
  | .closeWait | .closing | .lastAck | .timeWait => true
  | _ => false

/-- The bridge is over for its connection: the task has ended, or the upstream has closed and all
its bytes are in the socket. -/
def bridgeOver (task : BridgeTask) (conn : ActiveTcpConn) : Bool :=
  task.stage.hasEnded || (task.stage = .writing ∧ backlog conn = 0)

/-- Ends are passed on for an active connection: the end of its bridge to the client, and the end
of what the client sends to the bridge, whose input channel is closed while the connection keeps
the sender only if the task has ended; and what a client of an open connection has sent is not
thrown away. -/
structure PassesEnds (task : BridgeTask) (conn : ActiveTcpConn) (sock : τ) : Prop where
  toClient : bridgeOver task conn = true → locallyClosed (api.state sock) = true
  toUpstream : clientClosed (api.state sock) = true → api.canRecv sock = false →
    task.stage.hasEnded = true
  keepsBytes : locallyClosed (api.state sock) = false → task.discarded = []

def Propagates (s : Bridged τ) : Prop :=
  ∀ handle conn sock, connAt s.poller.forwarder handle = some (conn,sock) →
    PassesEnds api (taskOf s conn.bridge) conn sock

/-- Nothing has ended: the task is there, and if the upstream has closed its last bytes wait for a
socket that cannot take them; and the client has not closed its side. -/
def Lively (task : BridgeTask) (conn : ActiveTcpConn) (sock : τ) : Prop :=
  task.stage.hasEnded = false ∧
    (task.stage = .writing → api.canSend sock = false ∧ backlog conn ≠ 0) ∧
    clientClosed (api.state sock) = false

/-- The condition on a step: nothing has ended on an active connection when an iteration comes to
its end. -/
def AllLively (s : Bridged τ) : Event → Prop
  | .thread .finish => ∀ handle ∈ handles s.poller.forwarder,
      ∀ x ∈ connAt s.poller.forwarder handle, Lively api (taskOf s x.1.bridge) x.1 x.2
  | _ => True

instance (task : BridgeTask) (conn : ActiveTcpConn) (sock : τ) :
    Decidable (PassesEnds api task conn sock) :=
  decidable_of_iff ((_ → _) ∧ (_ → _ → _) ∧ (_ → _))
    ⟨fun h => ⟨h.1,h.2.1,h.2.2⟩,fun h => ⟨h.toClient,h.toUpstream,h.keepsBytes⟩⟩

instance (task : BridgeTask) (conn : ActiveTcpConn) (sock : τ) :
    Decidable (Lively api task conn sock) := inferInstanceAs (Decidable (_ ∧ (_ → _) ∧ _))

instance (s : Bridged τ) (e : Event) : Decidable (AllLively api s e) := by
  unfold AllLively
  split <;> infer_instance

/-- Reading and sending are assumed to leave the state of a socket alone. -/
structure StateLaws : Prop where
  recv_state : ∀ sock, api.state (api.recv sock).2 = api.state sock
  sendSlice_state : ∀ sock bytes, api.state (api.sendSlice sock bytes).2 = api.state sock

end Property

section Serve

variable {τ : Type} {api : TcpApi τ}

theorem serve_state (states : StateLaws api) (x : ActiveTcpConn × τ) :
    api.state (serve api x).2 = api.state x.2 := by
  have hreceived : api.state (receive api x.2).2 = api.state x.2 := by
    unfold receive
    split
    · exact states.recv_state x.2
    · rfl
  exact pumpFromBridge_sock (R := fun sock => api.state sock = api.state x.2) api
    (fun sock bytes h => (states.sendSlice_state sock bytes).trans h) _ hreceived _ _

theorem promoteOne_bridges (f : Forwarder τ) (p : PendingTcpConn) :
    f.bridges.length ≤ (promoteOne f p).bridges.length := by
  unfold promoteOne
  split
  · exact le_rfl
  · simp

theorem socketAt_promoteOne {f : Forwarder τ} {p : PendingTcpConn} {k : ℕ} {slot : Slot τ}
    (h : socketAt (promoteOne f p).sockets k = some slot) : socketAt f.sockets k = some slot := by
  unfold promoteOne at h
  split at h
  · simp only [FlowIsolation.socketAt_set_none] at h
    split at h
    · cases h
    · exact h
  · exact h

theorem connAt_promoteOne {f : Forwarder τ} {p : PendingTcpConn} {handle : ℕ}
    {x : ActiveTcpConn × τ} (h : connAt (promoteOne f p) handle = some x) :
    connAt f handle = some x ∨ f.bridges.length ≤ x.1.bridge ∧
      ∃ slot, socketAt f.sockets p.handle = some slot ∧ slot.sock = x.2 := by
  obtain ⟨hget,slot,hslot,hsock⟩ := connAt_some.mp h
  have hbefore := socketAt_promoteOne hslot
  unfold promoteOne at hget
  split at hget
  · exact .inl (connAt_some.mpr ⟨hget,slot,hbefore,hsock⟩)
  · simp only [Table.get_set] at hget
    split at hget
    · next hhandle =>
      refine .inr ⟨?_,slot,hhandle ▸ hbefore,hsock⟩
      rw [← Option.some.inj hget]
    · exact .inl (connAt_some.mpr ⟨hget,slot,hbefore,hsock⟩)

/-- A connection after the promotion was active before, or has a new bridge and is established. -/
theorem connAt_promoted {f : Forwarder τ} {handle : ℕ} {x : ActiveTcpConn × τ}
    (h : connAt (promote api f) handle = some x) :
    connAt f handle = some x ∨ f.bridges.length ≤ x.1.bridge ∧ api.state x.2 = .established := by
  -- over the sockets that are left to promote, all of them established
  have hall : ∀ (left : List PendingTcpConn) (t : Forwarder τ),
      f.bridges.length ≤ t.bridges.length →
      (∀ p ∈ left, ∀ slot, socketAt t.sockets p.handle = some slot →
        api.state slot.sock = .established) →
      connAt (left.foldl promoteOne t) handle = some x →
      connAt t handle = some x ∨ f.bridges.length ≤ x.1.bridge ∧ api.state x.2 = .established := by
    intro left
    induction left with
    | nil => exact fun t _ _ ht => .inl ht
    | cons p left ih =>
      intro t hbridges hleft ht
      have hrest := ih (promoteOne t p) (le_trans hbridges (promoteOne_bridges t p))
        (fun q hq slot hslot => hleft q (by simp [hq]) slot (socketAt_promoteOne hslot)) ht
      refine hrest.elim (fun hone => ?_) .inr
      rcases connAt_promoteOne hone with hold | ⟨hnew,slot,hslot,hsock⟩
      · exact .inl hold
      · exact .inr ⟨le_trans hbridges hnew,hsock ▸ hleft p (by simp) slot hslot⟩
  refine hall _ {f with pending := f.pending.filter fun p => ¬ isEstablished api f p} le_rfl
    (fun p hp slot hslot => ?_) h
  have hest := (List.mem_filter.mp (List.mem_reverse.mp hp)).2
  simp only [isEstablished,hslot,Option.any_some,decide_eq_true_eq] at hest
  exact hest.2

theorem hand_stage (task : BridgeTask) (chunks : List (List UInt8)) :
    (task.hand chunks).stage = task.stage := by
  unfold BridgeTask.hand
  split <;> rfl

theorem hand_discarded {task : BridgeTask} (h : task.stage.hasEnded = false)
    (chunks : List (List UInt8)) : (task.hand chunks).discarded = task.discarded := by
  rw [BridgeTask.hand,if_neg (by simp [h])]

theorem passesEnds_serve (buffers : BufferLaws api) (states : StateLaws api) {task : BridgeTask}
    {x : ActiveTcpConn × τ} (h : Lively api task x.1 x.2) (hkept : task.discarded = [])
    (chunks : List (List UInt8)) :
    PassesEnds api (task.hand chunks) (serve api x).1 (serve api x).2 := by
  obtain ⟨hthere,hwriting,hclient⟩ := h
  refine ⟨fun hover => ?_,fun hclosed => ?_,fun _ => ?_⟩
  · simp only [bridgeOver,hand_stage,hthere,Bool.false_or,decide_eq_true_eq] at hover
    obtain ⟨hsend,hbacklog⟩ := hwriting hover.1
    rw [serve_of_not_canSend buffers hsend] at hover
    exact absurd hover.2 hbacklog
  · rw [serve_state states,hclient] at hclosed
    cases hclosed
  · rw [hand_discarded hthere]
    exact hkept

end Serve

section Invariant

variable {τ : Type} {api : TcpApi τ} {pollDelay : List (Option (Slot τ)) → ℕ → Option ℕ}
  {s t : Bridged τ}

/-- Every bridge has its task, and a task that is there has thrown nothing away. -/
structure Kept (s : Bridged τ) : Prop where
  tasks : s.tasks.length = s.poller.forwarder.bridges.length
  bytes : ∀ i, (taskOf s i).stage.hasEnded = false → (taskOf s i).discarded = []

theorem kept_start : Kept (start τ) := ⟨rfl,fun _ _ => rfl⟩

/-- A task after a step of the thread, or one that there is not. -/
theorem taskOf_settle (before after : List Bridge) (tasks : List BridgeTask) (i : ℕ) :
    (∃ chunks, (settle before after tasks).getD i spawned = (tasks.getD i spawned).hand chunks) ∨
      (settle before after tasks).getD i spawned = spawned.hand [] := by
  simp only [List.getD_eq_getElem?_getD,settle,List.getElem?_mapIdx]
  cases after[i]? with
  | none => exact .inr rfl
  | some bridge => exact .inl ⟨_,rfl⟩

theorem Kept.setTask (h : Kept s) {i : ℕ} {task : BridgeTask}
    (htask : task.stage.hasEnded = false → task.discarded = []) : Kept (setTask s i task) := by
  refine ⟨(List.length_set ..).trans h.tasks,fun j hj => ?_⟩
  simp only [taskOf,BridgeLifecycle.setTask,List.getD_eq_getElem?_getD,List.getElem?_set] at hj ⊢
  by_cases hi : i = j
  · rw [if_pos hi] at hj ⊢
    by_cases hlt : i < s.tasks.length
    · rw [if_pos hlt] at hj ⊢
      exact htask hj
    · rw [if_neg hlt]
      rfl
  · rw [if_neg hi] at hj ⊢
    have hold := h.bytes j
    exact hold hj

theorem Kept.step (h : Kept s) {e : Event} (ht : step api pollDelay s e = some t) : Kept t := by
  cases e with
  | thread e =>
    obtain ⟨-,ht⟩ := Option.ite_none_right_eq_some.mp ht
    obtain ⟨poller,-,rfl⟩ := Option.map_eq_some_iff.mp ht
    refine ⟨by simp [settle],fun i hi => ?_⟩
    rcases taskOf_settle s.poller.forwarder.bridges poller.forwarder.bridges s.tasks i with
      ⟨chunks,heq⟩ | heq
    · simp only [taskOf,heq,hand_stage] at hi ⊢
      rw [hand_discarded hi]
      exact h.bytes i hi
    · simp only [taskOf,heq]
      rfl
  | connect i connects =>
    obtain ⟨⟨-,hstage⟩,ht⟩ := Option.ite_none_right_eq_some.mp ht
    cases ht
    refine h.setTask fun hthere => ?_
    cases connects with
    | false => cases hthere
    | true => exact h.bytes i (by rw [hstage]; rfl)
  | upstreamEnd i =>
    obtain ⟨⟨-,hstage⟩,ht⟩ := Option.ite_none_right_eq_some.mp ht
    cases ht
    exact h.setTask fun _ => h.bytes i (by rw [hstage]; rfl)
  | write i failsAfter =>
    obtain ⟨-,ht⟩ := Option.ite_none_right_eq_some.mp ht
    obtain ⟨task,htask,rfl⟩ := Option.map_eq_some_iff.mp ht
    unfold BridgeTask.write at htask
    split at htask
    · cases htask
    · cases htask
      exact h.setTask fun hthere => h.bytes i hthere
    · cases htask
      exact h.setTask fun hthere => by cases hthere
  | inputClosed i =>
    obtain ⟨-,ht⟩ := Option.ite_none_right_eq_some.mp ht
    cases ht
    exact h.setTask fun hthere => by cases hthere

theorem propagates_finish (buffers : BufferLaws api) (states : StateLaws api) (h : Kept s)
    (hlively : AllLively api s (.thread .finish))
    (ht : step api pollDelay s (.thread .finish) = some t) : Propagates api t := by
  obtain ⟨poller,hpoller,rfl⟩ := Option.map_eq_some_iff.mp ht
  have hforwarder : poller.forwarder = finish api noReplies s.poller.forwarder := by
    cases takes_of_step hpoller
    rfl
  intro handle conn sock hconn
  simp only [hforwarder] at hconn
  obtain ⟨x,hx,hserved⟩ := connAt_finish hconn
  have hfst : conn = (serve api x).1 := by rw [hserved]
  have hsnd : sock = (serve api x).2 := by rw [hserved]
  rw [hfst,hsnd]
  -- the task as the iteration found it, which serving has sent something
  have hfound : Lively api (taskOf s x.1.bridge) x.1 x.2 ∧ Lively api spawned x.1 x.2 := by
    rcases connAt_promoted hx with hold | ⟨hnew,hest⟩
    · have hget := (connAt_some.mp hold).1
      have hthere := hlively handle
        (List.mem_map.mpr ⟨_,(Table.mem_toList _ _ _).mpr hget,rfl⟩) x hold
      exact ⟨hthere,rfl,fun hw => (by cases hw),hthere.2.2⟩
    · have hspawned : taskOf s x.1.bridge = spawned := by
        rw [taskOf,List.getD_eq_getElem?_getD,List.getElem?_eq_none (h.tasks ▸ hnew)]
        rfl
      have hfresh : Lively api spawned x.1 x.2 :=
        ⟨rfl,fun hw => (by cases hw),by rw [hest]; rfl⟩
      exact ⟨hspawned ▸ hfresh,hfresh⟩
  rcases taskOf_settle s.poller.forwarder.bridges poller.forwarder.bridges s.tasks x.1.bridge with
    ⟨chunks,heq⟩ | heq
  · have hpasses := passesEnds_serve buffers states hfound.1 (h.bytes _ hfound.1.1) chunks
    rw [taskOf,← heq] at hpasses
    exact hpasses
  · have hpasses := passesEnds_serve buffers states hfound.2 rfl []
    rw [← heq] at hpasses
    exact hpasses

end Invariant

section ClosingStack

theorem closingTcp_buffers : BufferLaws closingTcp where
  recv_canSend _ := rfl
  sendSlice_canRecv _ _ := rfl
  sendSlice_takes _ bytes _ hbytes := by
    cases bytes with
    | nil => exact absurd rfl hbytes
    | cons x rest => exact ⟨rest.length,rfl⟩

theorem closingTcp_states : StateLaws closingTcp := ⟨fun _ => rfl,fun _ _ => rfl⟩

def noDelay (_ : List (Option (Slot ToySocket))) (_ : ℕ) : Option ℕ := some 0

/-- A packet is taken in and the loop goes round once. -/
def loop (payload : List UInt8) (commands frames : ℕ) : List Event :=
  [Event.thread (.call payload),.thread (.inject payload),.thread .notify,.thread .lock]++
    List.replicate commands (Event.thread .command)++[Event.thread (.poll 0 1)]++
    List.replicate frames (Event.thread .emit)++[Event.thread .finish]

/-- A connection is opened; `bytes` come with the acknowledgement. -/
def opened (bytes : List UInt8) : List Event := loop (syn flowA) 2 1++loop (acked flowA bytes) 1 0

/-- What an iteration leaves of the first connection: the state of its socket, and its task. -/
def firstConn (s : Bridged ToySocket) : Option (TcpState × BridgeTask) :=
  (connAt s.poller.forwarder 0).map fun x => (x.2.state,taskOf s x.1.bridge)

/-- Bytes go both ways over an open connection. -/
def exchangeRun : List Event :=
  opened [1,2]++[.connect 0 true,.write 0 none,.thread (.chunk 0 [7])]++loop (acked flowA [3]) 1 0

def connectFailedRun : List Event :=
  opened [1,2]++[.connect 0 false]++loop (acked flowA [3]) 1 0

/-- One byte of the first chunk is written. -/
def writeFailedRun : List Event :=
  opened [1,2]++[.connect 0 true,.write 0 (some 1)]++loop (acked flowA [3]) 1 0

def upstreamClosedRun : List Event :=
  opened [1,2]++[.connect 0 true,.upstreamEnd 0]++loop (acked flowA [3]) 1 0

def clientClosedRun : List Event := opened [1,2]++[.connect 0 true]++loop (fin flowA [3]) 1 0

end ClosingStack

end Bonded.BridgeLifecycle
