import Bonded.SmoltcpForwarder

/-! The poll thread with its condition variable. Callers of `ingestPacket` and the readers of
the bridge tasks put work into a queue and then set the flag and notify; the thread looks at
the flag, waits, takes the commands, runs the stack and serves the connections. Here every
such step is a transition of its own, so that runs are the interleavings of all parties. -/
namespace Bonded.PollThread

open SmoltcpForwarder hiding Event step

/-- Where the thread is: before the lock, in a wait with or without a timeout, in the rest of
the loop body, or at its return. The place in the body is the forwarder's `phase`. -/
inductive Place
  | top
  | blocked (wait : Option ℕ)
  | running
  | returned
  deriving DecidableEq, Repr

/-- The forwarder, its poll thread and the parties that feed it. `callers` are the packets
of calls that have still to be injected, `notifying` counts the parties that have queued
something and have still to set the flag, and `connected` says that the command sender
exists. The handles in `unpolled`, a record, got bytes since the stack last ran. -/
structure Poller (τ : Type) where
  forwarder : Forwarder τ
  callers : List (List UInt8)
  notifying : ℕ
  work : Bool
  nextPollWait : Option ℕ
  place : Place
  connected : Bool
  unpolled : List ℕ
  deriving DecidableEq

def spawn (τ : Type) : Poller τ := ⟨SmoltcpForwarder.new τ,[],0,false,some 0,.top,true,[]⟩

/-- Bytes of a connection's bridge that have not been written to its socket. -/
def backlog (conn : ActiveTcpConn) : ℕ :=
  conn.fromBridge.flatten.length+conn.pendingFromBridge.elim 0 fun p => p.bytes.length-p.offset

def connAt {τ : Type} (s : Forwarder τ) (handle : ℕ) : Option (ActiveTcpConn × τ) :=
  match s.active.get handle, socketAt s.sockets handle with
  | some conn, some slot => some (conn,slot.sock)
  | _, _ => none

/-- In this model a chunk is queued by a step of its bridge, not by the serving step. -/
def noReplies : ℕ → List (List UInt8) := fun _ => []

inductive Event
  | call (payload : List UInt8)
  | inject (payload : List UInt8)
  | chunk (handle : ℕ) (bytes : List UInt8)
  | notify
  | drop
  | lock
  | timeout
  | spurious
  | command
  | disconnected
  | poll (now rounds : ℕ)
  | emit
  | finish
  deriving DecidableEq, Repr

/-- The steps that the thread takes, and those of a party that has still to notify it. -/
def Event.isThread : Event → Bool
  | .call _ | .inject _ | .chunk _ _ | .drop => false
  | _ => true

section Steps

variable {τ : Type} (api : TcpApi τ) (pollDelay : List (Option (Slot τ)) → ℕ → Option ℕ)

/-- The handles whose sockets are given bytes when the connections are served. -/
def written (s : Forwarder τ) : List ℕ :=
  (handles (promote api s)).filter fun handle =>
    (connAt (service api noReplies (promote api s)) handle).elim 0 (fun x => backlog x.1) <
      (connAt (promote api s) handle).elim 0 fun x => backlog x.1

/-- A call up to its first command. Only a TCP packet is kept for the rest of the call. -/
def beginCall (s : Poller τ) (payload : List UInt8) : Poller τ :=
  let begun := beginIngest s.forwarder payload
  {s with forwarder := {begun with caller := none}, callers := s.callers++begun.caller.toList}

/-- The rest of a call up to its notification; a packet that is not rewritten ends it. -/
def injectCall (s : Poller τ) (payload : List UInt8) : Poller τ :=
  match injected payload with
  | none => {s with callers := s.callers.erase payload}
  | some _ => {s with
      forwarder := endIngest {s.forwarder with caller := some payload}
      callers := s.callers.erase payload
      notifying := s.notifying+1}

/-- The reader of a bridge sends what it has read. -/
def sendChunk (s : Poller τ) (handle : ℕ) (bytes : List UInt8) : Option (Poller τ) :=
  match s.forwarder.active.get handle with
  | none => none
  | some conn => some {s with
      forwarder := {s.forwarder with
        active := s.forwarder.active.set handle {conn with
          fromBridge := conn.fromBridge++[bytes]}}
      notifying := s.notifying+1}

def wake : Place → Place
  | .blocked _ => .running
  | place => place

/-- The wait at the head of the loop. The flag is cleared only if it was found set. -/
def waitForWork (s : Poller τ) : Poller τ :=
  if s.work then {s with work := false, place := .running}
  else
    match s.nextPollWait with
    | some 0 => {s with place := .running}
    | wait => {s with place := .blocked wait}

def step (s : Poller τ) : Event → Option (Poller τ)
  | .call payload => if s.connected then some (beginCall s payload) else none
  | .inject payload => if payload ∈ s.callers then some (injectCall s payload) else none
  | .chunk handle bytes => if s.place = .returned then none else sendChunk s handle bytes
  | .notify =>
    if s.notifying = 0 then none
    else some {s with notifying := s.notifying-1, work := true, place := wake s.place}
  | .drop => if s.connected ∧ s.callers = [] then some {s with connected := false} else none
  | .lock => if s.place = .top then some (waitForWork s) else none
  | .timeout =>
    match s.place with
    | .blocked (some _) => some {s with place := .running}
    | _ => none
  | .spurious =>
    match s.place with
    | .blocked _ => some {s with place := .running}
    | _ => none
  | .command =>
    if s.place = .running then
      (SmoltcpForwarder.step api s.forwarder .command).map fun f => {s with forwarder := f}
    else none
  | .disconnected =>
    if s.place = .running ∧ s.forwarder.phase = .drain ∧ s.forwarder.queue = [] ∧
        s.connected = false then some {s with place := .returned}
    else none
  | .poll now rounds =>
    if s.place = .running ∧ s.connected = true then
      (SmoltcpForwarder.step api s.forwarder (.poll now rounds)).map fun f => {s with
        forwarder := f, nextPollWait := pollDelay f.sockets now, unpolled := []}
    else none
  | .emit =>
    if s.place = .running then
      (SmoltcpForwarder.step api s.forwarder .emit).map fun f => {s with forwarder := f}
    else none
  | .finish =>
    if s.place = .running then
      (SmoltcpForwarder.step api s.forwarder (.finish noReplies)).map fun f => {s with
        forwarder := f, place := .top, unpolled := s.unpolled++written api s.forwarder}
    else none

inductive Takes (s : Poller τ) : Event → Poller τ → Prop
  | call {payload} : s.connected = true → Takes s (.call payload) (beginCall s payload)
  | inject {payload} : payload ∈ s.callers → Takes s (.inject payload) (injectCall s payload)
  | chunk {handle bytes t} : sendChunk s handle bytes = some t → Takes s (.chunk handle bytes) t
  | notify : s.notifying ≠ 0 → Takes s .notify
      {s with notifying := s.notifying-1, work := true, place := wake s.place}
  | drop : s.connected = true → s.callers = [] → Takes s .drop {s with connected := false}
  | lock : s.place = .top → Takes s .lock (waitForWork s)
  | timeout {wait} : s.place = .blocked (some wait) → Takes s .timeout {s with place := .running}
  | spurious {wait} : s.place = .blocked wait → Takes s .spurious {s with place := .running}
  | command {f} : s.place = .running → s.forwarder.phase = .drain →
      takeCommand api s.forwarder = some f → Takes s .command {s with forwarder := f}
  | disconnected : s.place = .running → s.forwarder.phase = .drain → s.forwarder.queue = [] →
      s.connected = false → Takes s .disconnected {s with place := .returned}
  | poll {now rounds f} : s.place = .running → s.connected = true → s.forwarder.phase = .drain →
      s.forwarder.queue = [] → f = {pollStack api now rounds s.forwarder with phase := .emit} →
      Takes s (.poll now rounds)
        {s with forwarder := f, nextPollWait := pollDelay f.sockets now, unpolled := []}
  | emit {f} : s.place = .running → s.forwarder.phase = .emit → drainTx s.forwarder = some f →
      Takes s .emit {s with forwarder := f}
  | finish : s.place = .running → s.forwarder.phase = .emit → s.forwarder.tx = [] →
      Takes s .finish {s with
        forwarder := SmoltcpForwarder.finish api noReplies s.forwarder
        place := .top
        unpolled := s.unpolled++written api s.forwarder}

/-- What holds of the thread's place in every run: outside the loop body the thread has
finished its iteration, and a wait is for the time computed in it, with the flag clear. -/
structure Placed (s : Poller τ) : Prop where
  idle : s.place = .top ∨ (∃ wait, s.place = .blocked wait) → s.forwarder.phase = .drain
  waits : ∀ wait, s.place = .blocked wait → s.nextPollWait = wait ∧ s.work = false

theorem placed_spawn : Placed (spawn τ) := ⟨fun _ => rfl,fun _ h => by cases h⟩

variable {api pollDelay} {s t : Poller τ}

theorem takes_of_step {e : Event} (h : step api pollDelay s e = some t) :
    Takes api pollDelay s e t := by
  cases e with
  | call payload =>
    obtain ⟨hconnected,h⟩ := Option.ite_none_right_eq_some.mp h
    cases h
    exact .call hconnected
  | inject payload =>
    obtain ⟨hmem,h⟩ := Option.ite_none_right_eq_some.mp h
    cases h
    exact .inject hmem
  | chunk handle bytes =>
    obtain ⟨-,h⟩ := Option.ite_none_left_eq_some.mp h
    exact .chunk h
  | notify =>
    obtain ⟨hsome,h⟩ := Option.ite_none_left_eq_some.mp h
    cases h
    exact .notify hsome
  | drop =>
    obtain ⟨⟨hconnected,hcallers⟩,h⟩ := Option.ite_none_right_eq_some.mp h
    cases h
    exact .drop hconnected hcallers
  | lock =>
    obtain ⟨htop,h⟩ := Option.ite_none_right_eq_some.mp h
    cases h
    exact .lock htop
  | timeout =>
    simp only [step] at h
    split at h
    · next hplace => cases h; exact .timeout hplace
    · cases h
  | spurious =>
    simp only [step] at h
    split at h
    · next hplace => cases h; exact .spurious hplace
    · cases h
  | command =>
    obtain ⟨hplace,h⟩ := Option.ite_none_right_eq_some.mp h
    obtain ⟨f,hf,rfl⟩ := Option.map_eq_some_iff.mp h
    obtain ⟨hphase,hf⟩ := Option.ite_none_right_eq_some.mp hf
    exact .command hplace hphase hf
  | disconnected =>
    obtain ⟨⟨hplace,hphase,hqueue,hconnected⟩,h⟩ := Option.ite_none_right_eq_some.mp h
    cases h
    exact .disconnected hplace hphase hqueue hconnected
  | poll now rounds =>
    obtain ⟨⟨hplace,hconnected⟩,h⟩ := Option.ite_none_right_eq_some.mp h
    obtain ⟨f,hf,rfl⟩ := Option.map_eq_some_iff.mp h
    obtain ⟨⟨hphase,hqueue⟩,hf⟩ := Option.ite_none_right_eq_some.mp hf
    cases hf
    exact .poll hplace hconnected hphase hqueue rfl
  | emit =>
    obtain ⟨hplace,h⟩ := Option.ite_none_right_eq_some.mp h
    obtain ⟨f,hf,rfl⟩ := Option.map_eq_some_iff.mp h
    obtain ⟨hphase,hf⟩ := Option.ite_none_right_eq_some.mp hf
    exact .emit hplace hphase hf
  | finish =>
    obtain ⟨hplace,h⟩ := Option.ite_none_right_eq_some.mp h
    obtain ⟨f,hf,rfl⟩ := Option.map_eq_some_iff.mp h
    obtain ⟨⟨hphase,htx⟩,hf⟩ := Option.ite_none_right_eq_some.mp hf
    cases hf
    exact .finish hplace hphase htx

theorem trySend_keeps (f : Forwarder τ) (command : PollCommand) :
    (trySend f command).phase = f.phase ∧ (trySend f command).tx = f.tx ∧
      (trySend f command).active = f.active ∧ (trySend f command).sockets = f.sockets := by
  unfold trySend
  split <;> exact ⟨rfl,rfl,rfl,rfl⟩

theorem beginIngest_keeps (f : Forwarder τ) (payload : List UInt8) :
    (beginIngest f payload).phase = f.phase ∧ (beginIngest f payload).tx = f.tx ∧
      (beginIngest f payload).active = f.active ∧ (beginIngest f payload).sockets = f.sockets := by
  unfold beginIngest announceSyn
  split
  · exact ⟨rfl,rfl,rfl,rfl⟩
  · split
    · split
      · exact trySend_keeps f _
      · exact ⟨rfl,rfl,rfl,rfl⟩
    · exact ⟨rfl,rfl,rfl,rfl⟩

theorem endIngest_keeps (f : Forwarder τ) :
    (endIngest f).phase = f.phase ∧ (endIngest f).tx = f.tx ∧
      (endIngest f).active = f.active ∧ (endIngest f).sockets = f.sockets := by
  unfold endIngest
  split
  · exact trySend_keeps f _
  · exact ⟨rfl,rfl,rfl,rfl⟩

/-- Sending a packet of the stack takes it out of the ring; it can end the thread. -/
theorem drainTx_keeps {f g : Forwarder τ} (h : drainTx f = some g) :
    g.queue = f.queue ∧ f.tx.length = g.tx.length+1 ∧
      (g.phase = f.phase ∨ g.phase = .stopped) := by
  unfold drainTx at h
  split at h
  · cases h
  · next packet rest htx =>
    have hlen : f.tx.length = rest.length+1 := by
      rw [htx]
      rfl
    split at h
    · cases h
      exact ⟨rfl,hlen,.inl rfl⟩
    · split at h <;> cases h
      · exact ⟨rfl,hlen,.inr rfl⟩
      · exact ⟨rfl,hlen,.inl rfl⟩

/-- What a party that feeds the thread leaves alone. -/
structure Fed (s t : Poller τ) : Prop where
  place : t.place = s.place
  work : t.work = s.work
  nextPollWait : t.nextPollWait = s.nextPollWait
  connected : t.connected = s.connected
  unpolled : t.unpolled = s.unpolled
  phase : t.forwarder.phase = s.forwarder.phase
  tx : t.forwarder.tx = s.forwarder.tx
  sockets : t.forwarder.sockets = s.forwarder.sockets

theorem fed_beginCall (s : Poller τ) (payload : List UInt8) : Fed s (beginCall s payload) := by
  obtain ⟨hphase,htx,-,hsockets⟩ := beginIngest_keeps s.forwarder payload
  exact ⟨rfl,rfl,rfl,rfl,rfl,hphase,htx,hsockets⟩

theorem fed_injectCall (s : Poller τ) (payload : List UInt8) : Fed s (injectCall s payload) := by
  obtain ⟨hphase,htx,-,hsockets⟩ := endIngest_keeps {s.forwarder with caller := some payload}
  unfold injectCall
  split
  · exact ⟨rfl,rfl,rfl,rfl,rfl,rfl,rfl,rfl⟩
  · exact ⟨rfl,rfl,rfl,rfl,rfl,hphase,htx,hsockets⟩

theorem fed_sendChunk {handle : ℕ} {bytes : List UInt8} (h : sendChunk s handle bytes = some t) :
    Fed s t := by
  unfold sendChunk at h
  split at h
  · cases h
  · cases h
    exact ⟨rfl,rfl,rfl,rfl,rfl,rfl,rfl,rfl⟩

theorem Placed.fed (hs : Placed s) (h : Fed s t) : Placed t := by
  refine ⟨?_,?_⟩
  · rw [h.place,h.phase]
    exact hs.idle
  · rw [h.place,h.nextPollWait,h.work]
    exact hs.waits

/-- A thread that is not outside its loop body is placed. -/
theorem placed_of_inside (h : t.place = .running ∨ t.place = .returned) : Placed t := by
  refine ⟨?_,?_⟩
  · rintro (htop | ⟨wait,hblocked⟩)
    · rw [htop] at h
      simp at h
    · rw [hblocked] at h
      simp at h
  · intro wait hblocked
    rw [hblocked] at h
    simp at h

theorem placed_waitForWork (hphase : s.forwarder.phase = .drain) : Placed (waitForWork s) := by
  unfold waitForWork
  split
  · exact placed_of_inside (.inl rfl)
  · next hwork =>
    split
    · exact placed_of_inside (.inl rfl)
    · refine ⟨fun _ => hphase,fun wait hwait => ?_⟩
      cases hwait
      exact ⟨rfl,by simpa using hwork⟩

theorem wake_blocked (place : Place) (wait : Option ℕ) : wake place ≠ .blocked wait := by
  cases place <;> simp [wake]

theorem wake_top {place : Place} (h : wake place = .top) : place = .top := by
  cases place <;> simp_all [wake]

theorem Placed.takes (hs : Placed s) {e : Event} (h : Takes api pollDelay s e t) : Placed t := by
  cases h with
  | call => exact hs.fed (fed_beginCall s _)
  | inject => exact hs.fed (fed_injectCall s _)
  | chunk h => exact hs.fed (fed_sendChunk h)
  | notify =>
    refine ⟨?_,fun wait hwait => absurd hwait (wake_blocked _ _)⟩
    rintro (htop | ⟨wait,hwait⟩)
    · exact hs.idle (.inl (wake_top htop))
    · exact absurd hwait (wake_blocked _ _)
  | drop => exact ⟨hs.idle,hs.waits⟩
  | lock htop => exact placed_waitForWork (hs.idle (.inl htop))
  | timeout | spurious => exact placed_of_inside (.inl rfl)
  | command hplace | poll hplace | emit hplace => exact placed_of_inside (.inl hplace)
  | disconnected => exact placed_of_inside (.inr rfl)
  | finish => exact ⟨fun _ => rfl,fun wait hwait => by cases hwait⟩

end Steps

end Bonded.PollThread
