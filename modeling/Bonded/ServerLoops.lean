import Bonded.Machine
import Bonded.Session

/-! The three session loops of the server: NaiveTCP in forwarder mode, WebSocket and QUIC.
Each of them drains the queue of the forwarder's responses, takes the initial frame if there
is one, and then waits for a response or for a frame of the client. -/
namespace Bonded.ServerLoops

open Machine Session

/-- What a loop does with a frame; the flag of a send says whether it succeeded. -/
inductive Action
  | respond (frame : SessionFrame) (sent : Bool)
  | pong (frame : SessionFrame) (sent : Bool)
  | ingest (frame : SessionFrame)
  deriving DecidableEq, Repr

def Action.failed : Action → Bool
  | .respond _ sent => !sent
  | .pong _ sent => !sent
  | .ingest _ => false

def Action.response : Action → Option SessionFrame
  | .respond frame _ => some frame
  | .pong _ _ => none
  | .ingest _ => none

def Action.forClient : Action → Bool
  | .respond _ _ => false
  | .pong _ _ => true
  | .ingest _ => true

/-- Where a loop stands. The numbers are the rounds left of a bounded drain. -/
inductive Place
  | tun (left : ℕ)
  | drain (left : ℕ)
  | initial
  | select
  | ended
  deriving DecidableEq, Repr

/-- A running loop. `queue` is the forwarder's channel and `tun` the one of the TUN bridge,
which only the NaiveTCP loop has; the last four fields are histories. -/
structure Loop where
  place : Place
  queue : List SessionFrame
  closed : Bool
  tun : List SessionFrame
  pending : Option SessionFrame
  arrived : List SessionFrame
  taken : List SessionFrame
  received : List SessionFrame
  actions : List Action
  deriving DecidableEq, Repr

inductive Event
  /-- The forwarder queues a response. -/
  | arrive (frame : SessionFrame)
  /-- The last sender of the forwarder's channel is gone. -/
  | close
  /-- A round of the drain loop over the TUN channel. -/
  | tun (sent : Bool)
  /-- A round of the drain loop over the forwarder's channel. -/
  | drain (sent : Bool)
  /-- The look at the initial frame. -/
  | initial (sent : Bool)
  /-- The select takes a frame of the TUN channel. -/
  | bridged (sent : Bool)
  /-- The select takes the forwarder's channel. -/
  | response (sent : Bool)
  /-- The select takes a frame from the client. -/
  | recv (frame : SessionFrame) (sent : Bool)
  /-- The select takes a receive error. -/
  | recvError
  deriving DecidableEq, Repr

/-- A heartbeat of the client. A frame with the flag and a payload is data. -/
def isPing (frame : SessionFrame) : Bool :=
  frame.header.flags &&& flagPing ≠ 0 && frame.payload.isEmpty

def pong (frame : SessionFrame) : SessionFrame :=
  ⟨⟨frame.header.connectionId,frame.header.sequence,flagPong⟩,frame.payload⟩

/-- Send the first queued response and go to `next`, or to `onError` if the send fails. -/
def respond (s : Loop) (frame : SessionFrame) (rest : List SessionFrame) (sent : Bool)
    (next onError : Place) : Loop :=
  {s with
    queue := rest
    taken := s.taken++[frame]
    actions := s.actions++[.respond frame sent]
    place := if sent then next else onError}

/-- Answer a heartbeat, which ends the session if the send fails, or ingest the frame. -/
def handle (s : Loop) (frame : SessionFrame) (sent : Bool) (next : Place) : Loop :=
  if isPing frame then
    {s with
      received := s.received++[frame]
      actions := s.actions++[.pong (pong frame) sent]
      place := if sent then next else .ended}
  else
    {s with
      received := s.received++[frame]
      actions := s.actions++[.ingest frame]
      place := next}

/-- What the loops write each its own way: the bound of the drain, and where the `break` at
a failed send of the drain leads. -/
structure Variant where
  maxDrain : ℕ
  drainError : Place

/-- The part the loops share. `again` is where a new round starts. -/
def round (v : Variant) (again : Place) (s : Loop) : Event → Option Loop
  | .arrive frame =>
    if s.closed then none
    else some {s with queue := s.queue++[frame], arrived := s.arrived++[frame]}
  | .close => some {s with closed := true}
  | .drain sent =>
    match s.place,s.queue with
    | .drain 0,_ => some {s with place := .initial}
    | .drain (_+1),[] => some {s with place := .initial}
    | .drain (left+1),frame::rest => some (respond s frame rest sent (.drain left) v.drainError)
    | _,_ => none
  | .initial sent =>
    match s.place,s.pending with
    | .initial,some frame => some (handle {s with pending := none} frame sent again)
    | .initial,none => some {s with place := .select}
    | _,_ => none
  | .response sent =>
    match s.place,s.queue with
    | .select,frame::rest => some (respond s frame rest sent again .ended)
    | .select,[] => if s.closed then some {s with place := .ended} else none
    | _,_ => none
  | .recv frame sent =>
    match s.place with
    | .select => some (handle s frame sent again)
    | _ => none
  | .recvError =>
    match s.place with
    | .select => some {s with place := .ended}
    | _ => none
  | .tun _ => none
  | .bridged _ => none

def maxResponseDrainPerCycle : ℕ := 256

def bootstrapMaxDrain : ℕ := 256

def quicMaxDrain : ℕ := 256

/-- A plain `break`, which leaves the `for` loop only. -/
def naiveTcp : Variant := ⟨maxResponseDrainPerCycle,.initial⟩

/-- A plain `break`, which leaves the `for` loop only. -/
def webSocket : Variant := ⟨bootstrapMaxDrain,.initial⟩

/-- The drain of the QUIC loop leaves the labelled session loop. -/
def quic : Variant := ⟨quicMaxDrain,.ended⟩

def webSocketStep (s : Loop) (e : Event) : Option Loop :=
  round webSocket (.drain webSocket.maxDrain) s e

def quicStep (s : Loop) (e : Event) : Option Loop :=
  round quic (.drain quic.maxDrain) s e

/-- The drain of the TUN channel comes first. On an empty channel it ends before its first
await. -/
def naiveTcpAgain (s : Loop) : Place :=
  match s.tun with
  | [] => .drain naiveTcp.maxDrain
  | _::_ => .tun naiveTcp.maxDrain

/-- The loop that also serves the TUN channel. Its sender stays with the loop unless a bridge
takes it, so the channel is never closed. -/
def naiveTcpStep (s : Loop) : Event → Option Loop
  | .tun sent =>
    match s.place,s.tun with
    | .tun 0,_ => some {s with place := .drain naiveTcp.maxDrain}
    | .tun (_+1),[] => some {s with place := .drain naiveTcp.maxDrain}
    | .tun (left+1),frame::rest =>
      some {respond s frame s.queue sent (.tun left) (.drain naiveTcp.maxDrain) with tun := rest}
    | _,_ => none
  | .bridged sent =>
    match s.place,s.tun with
    | .select,frame::rest =>
      some {respond s frame s.queue sent (naiveTcpAgain {s with tun := rest}) .ended with
        tun := rest}
    | _,_ => none
  | e => round naiveTcp (naiveTcpAgain s) s e

inductive Transport
  | naiveTcp
  | webSocket
  | quic
  deriving DecidableEq, Repr

def step : Transport → Loop → Event → Option Loop
  | .naiveTcp => naiveTcpStep
  | .webSocket => webSocketStep
  | .quic => quicStep

/-- A loop in forwarder mode, with the frame that came with the session's binding. -/
def start (initial : Option SessionFrame) : Loop :=
  ⟨.drain 256,[],false,[],initial,[],[],[],[]⟩

/-- A frame of the client gets one PONG if it is a heartbeat, and is ingested otherwise. -/
def Answers (frame : SessionFrame) (action : Action) : Prop :=
  if isPing frame then ∃ sent, action = .pong (pong frame) sent else action = .ingest frame

/-- What is expected of a loop at every moment. -/
structure Fair (initial : Option SessionFrame) (s : Loop) : Prop where
  responses : s.actions.filterMap Action.response = s.taken
  waiting : s.taken++s.queue = s.arrived
  answered : List.Forall₂ Answers s.received (s.actions.filter Action.forClient)
  first : s.pending = initial ∧ s.received = [] ∨ s.pending = none ∧ initial.toList <+: s.received
  selecting : s.place = .select → s.pending = none
  failing : ∀ a ∈ s.actions, a.failed = true → s.place = .ended ∧ s.actions.getLast? = some a

/-- Nobody sends on the TUN channel in forwarder mode. -/
structure Forwarding (s : Loop) : Prop where
  tun : s.tun = []
  place : ∀ left, s.place ≠ .tun left

/-- The event is a round of the drain in which the send of a response fails. -/
def drainFails (s : Loop) (e : Event) : Bool :=
  match e,s.place,s.queue with
  | .drain false,.drain (_+1),_::_ => true
  | _,_,_ => false

theorem start_fair (initial : Option SessionFrame) : Fair initial (start initial) where
  responses := rfl
  waiting := rfl
  answered := .nil
  first := .inl ⟨rfl,rfl⟩
  selecting h := by cases h
  failing _ ha := by cases ha

theorem start_forwarding (initial : Option SessionFrame) : Forwarding (start initial) where
  tun := rfl
  place _ h := by cases h

variable {initial : Option SessionFrame} {s t : Loop} {a : Action} {place next again : Place}
  {frame : SessionFrame} {sent : Bool} {e : Event} {v : Variant}

/-- A loop that goes on has not failed to send anything. -/
theorem Fair.none_failed (h : Fair initial s) (hplace : s.place ≠ .ended) :
    ∀ a ∈ s.actions, a.failed = false := by
  intro a ha
  by_contra hfailed
  exact hplace (h.failing a ha (by simpa using hfailed)).1

theorem failing_snoc {actions : List Action} (h : ∀ b ∈ actions, b.failed = false)
    (hlast : a.failed = true → place = .ended) : ∀ b ∈ actions++[a], b.failed = true →
      place = .ended ∧ (actions++[a]).getLast? = some b := by
  intro b hb hfailed
  rcases List.mem_append.mp hb with hb | hb
  · rw [h b hb] at hfailed
    cases hfailed
  · rw [List.mem_singleton.mp hb] at hfailed ⊢
    exact ⟨hlast hfailed,by simp⟩

theorem Fair.respond {rest : List SessionFrame} {onError : Place} (h : Fair initial s)
    (hplace : s.place ≠ .ended) (hqueue : s.queue = frame::rest) (hnext : next ≠ .select)
    (honError : onError ≠ .select) (hend : sent = true ∨ onError = .ended) :
    Fair initial (ServerLoops.respond s frame rest sent next onError) where
  responses := by simp [ServerLoops.respond,h.responses,Action.response]
  waiting := by
    have hwaiting := h.waiting
    rw [hqueue] at hwaiting
    simpa [ServerLoops.respond] using hwaiting
  answered := by simpa [ServerLoops.respond,Action.forClient] using h.answered
  first := h.first
  selecting hs := by
    cases sent with
    | true => exact absurd hs hnext
    | false => exact absurd hs honError
  failing := by
    refine failing_snoc (h.none_failed hplace) ?_
    intro hfailed
    cases sent with
    | true => cases hfailed
    | false => exact hend.resolve_left (by simp)

theorem answers_snoc {received : List SessionFrame} {actions : List Action}
    (h : List.Forall₂ Answers received
      (actions.filter Action.forClient)) (ha : a.forClient = true) (hanswer : Answers frame a) :
    List.Forall₂ Answers (received++[frame]) ((actions++[a]).filter Action.forClient) := by
  rw [List.filter_append,List.filter_singleton,ha]
  exact List.rel_append h (.cons hanswer .nil)

/-- One more frame of the client with the action for it, which ends the session if it fails. -/
theorem Fair.client (h : Fair initial s) (hplace : s.place ≠ .ended)
    (hfirst : initial.toList <+: s.received++[frame]) (hclient : a.forClient = true)
    (hresponse : a.response = none) (hanswer : Answers frame a)
    (hfailed : a.failed = true → place = .ended) : Fair initial {s with
      pending := none
      received := s.received++[frame]
      actions := s.actions++[a]
      place := place} where
  responses := by simp [h.responses,hresponse]
  waiting := h.waiting
  answered := answers_snoc h.answered hclient hanswer
  first := .inr ⟨rfl,hfirst⟩
  selecting _ := rfl
  failing := failing_snoc (h.none_failed hplace) hfailed

theorem Fair.handle (h : Fair initial s) (hplace : s.place ≠ .ended)
    (hfirst : initial.toList <+: s.received++[frame]) :
    Fair initial (ServerLoops.handle {s with pending := none} frame sent next) := by
  unfold ServerLoops.handle
  split
  · rename_i hping
    refine h.client hplace hfirst rfl rfl (by simp [Answers,hping]) ?_
    intro hfailed
    simp only [Action.failed,Bool.not_eq_true'] at hfailed
    simp [hfailed]
  · rename_i hping
    refine h.client hplace hfirst rfl rfl (by simp [Answers,hping]) ?_
    intro hfailed
    cases hfailed

/-- Everything a round of the shared part can do. -/
inductive Moves (v : Variant) (again : Place) (s : Loop) : Event → Loop → Prop
  | arrive (frame : SessionFrame) :
    Moves v again s (.arrive frame)
      {s with queue := s.queue++[frame], arrived := s.arrived++[frame]}
  | close : Moves v again s .close {s with closed := true}
  | drained (sent : Bool) (left : ℕ) (hplace : s.place = .drain left) :
    Moves v again s (.drain sent) {s with place := .initial}
  | drain (sent : Bool) (left : ℕ) (frame : SessionFrame) (rest : List SessionFrame)
      (hplace : s.place = .drain (left+1)) (hqueue : s.queue = frame::rest) :
    Moves v again s (.drain sent) (respond s frame rest sent (.drain left) v.drainError)
  | initial (sent : Bool) (frame : SessionFrame) (hplace : s.place = .initial)
      (hpending : s.pending = some frame) :
    Moves v again s (.initial sent) (handle {s with pending := none} frame sent again)
  | noInitial (sent : Bool) (hplace : s.place = .initial) (hpending : s.pending = none) :
    Moves v again s (.initial sent) {s with place := .select}
  | response (sent : Bool) (frame : SessionFrame) (rest : List SessionFrame)
      (hplace : s.place = .select) (hqueue : s.queue = frame::rest) :
    Moves v again s (.response sent) (respond s frame rest sent again .ended)
  | queueClosed (sent : Bool) (hplace : s.place = .select) :
    Moves v again s (.response sent) {s with place := .ended}
  | recv (frame : SessionFrame) (sent : Bool) (hplace : s.place = .select) :
    Moves v again s (.recv frame sent) (handle s frame sent again)
  | recvError (hplace : s.place = .select) : Moves v again s .recvError {s with place := .ended}

theorem moves_of_round (h : round v again s e = some t) : Moves v again s e t := by
  cases e with
  | arrive frame =>
    simp only [round] at h
    split at h
    · cases h
    · cases h
      exact .arrive frame
  | close =>
    cases h
    exact .close
  | drain sent =>
    simp only [round] at h
    split at h
    · cases h
      exact .drained sent 0 ‹_›
    · cases h
      exact .drained sent _ ‹_›
    · cases h
      exact .drain sent _ _ _ ‹_› ‹_›
    · cases h
  | initial sent =>
    simp only [round] at h
    split at h
    · cases h
      exact .initial sent _ ‹_› ‹_›
    · cases h
      exact .noInitial sent ‹_› ‹_›
    · cases h
  | response sent =>
    simp only [round] at h
    split at h
    · cases h
      exact .response sent _ _ ‹_› ‹_›
    · split at h
      · cases h
        exact .queueClosed sent ‹_›
      · cases h
    · cases h
  | recv frame sent =>
    simp only [round] at h
    split at h
    · cases h
      exact .recv frame sent ‹_›
    · cases h
  | recvError =>
    simp only [round] at h
    split at h
    · cases h
      exact .recvError ‹_›
    · cases h
  | tun sent => cases h
  | bridged sent => cases h

theorem Fair.goto (h : Fair initial s) (hplace : s.place ≠ .ended)
    (hselect : place = .select → s.pending = none) : Fair initial {s with place := place} where
  responses := h.responses
  waiting := h.waiting
  answered := h.answered
  first := h.first
  selecting := hselect
  failing a ha hfailed := by
    rw [h.none_failed hplace a ha] at hfailed
    cases hfailed

theorem Fair.first_snoc (h : Fair initial s) (hpending : s.pending = none) (frame : SessionFrame) :
    initial.toList <+: s.received++[frame] := by
  rcases h.first with ⟨hinitial,hreceived⟩ | ⟨-,hreceived⟩
  · rw [← hinitial,hpending]
    exact List.nil_prefix
  · exact hreceived.trans (List.prefix_append _ _)

/-- A round keeps the loop fair unless a send of the drain fails and the loop goes on. -/
theorem Fair.round (h : Fair initial s) (hagain : again ≠ .select) (hv : v.drainError ≠ .select)
    (hdrain : v.drainError = .ended ∨ drainFails s e = false)
    (ht : ServerLoops.round v again s e = some t) : Fair initial t := by
  cases moves_of_round ht with
  | arrive frame =>
    refine ⟨h.responses,?_,h.answered,h.first,h.selecting,h.failing⟩
    rw [← List.append_assoc,h.waiting]
  | close => exact ⟨h.responses,h.waiting,h.answered,h.first,h.selecting,h.failing⟩
  | drained sent left hplace => exact h.goto (by simp [hplace]) (fun hs => by cases hs)
  | drain sent left frame rest hplace hqueue =>
    refine h.respond (by simp [hplace]) hqueue (by simp) hv ?_
    cases sent with
    | true => exact .inl rfl
    | false =>
      refine .inr (hdrain.resolve_right ?_)
      simp [drainFails,hplace,hqueue]
  | initial sent frame hplace hpending =>
    refine h.handle (by simp [hplace]) ?_
    rcases h.first with ⟨hinitial,hreceived⟩ | ⟨hnone,-⟩
    · rw [← hinitial,hpending,hreceived]
      exact List.prefix_refl _
    · rw [hnone] at hpending
      cases hpending
  | noInitial sent hplace hpending => exact h.goto (by simp [hplace]) (fun _ => hpending)
  | response sent frame rest hplace hqueue =>
    exact h.respond (by simp [hplace]) hqueue hagain (by simp) (.inr rfl)
  | queueClosed sent hplace => exact h.goto (by simp [hplace]) (fun hs => by cases hs)
  | recv frame sent hplace =>
    have hpending := h.selecting hplace
    have hs : s = {s with pending := none} := by rw [← hpending]
    rw [hs]
    exact h.handle (by simp [hplace]) (h.first_snoc hpending frame)
  | recvError hplace => exact h.goto (by simp [hplace]) (fun hs => by cases hs)

theorem handle_place (s : Loop) (frame : SessionFrame) (sent : Bool) (next : Place) :
    (handle s frame sent next).place = next ∨ (handle s frame sent next).place = .ended := by
  unfold handle
  cases sent <;> split <;> simp

theorem handle_tun (s : Loop) (frame : SessionFrame) (sent : Bool) (next : Place) :
    (handle s frame sent next).tun = s.tun := by
  unfold handle
  split <;> rfl

theorem Forwarding.handle (h : s.tun = []) (hnext : ∀ left, next ≠ .tun left) :
    Forwarding (ServerLoops.handle s frame sent next) where
  tun := (handle_tun s frame sent next).trans h
  place left hplace := by
    rcases handle_place s frame sent next with hp | hp
    · exact hnext left (hp.symm.trans hplace)
    · rw [hp] at hplace
      cases hplace

theorem Forwarding.respond {rest : List SessionFrame} {onError : Place} (h : s.tun = [])
    (hnext : ∀ left, next ≠ .tun left) (honError : ∀ left, onError ≠ .tun left) :
    Forwarding (ServerLoops.respond s frame rest sent next onError) where
  tun := h
  place left hplace := by
    cases sent with
    | true => exact hnext left hplace
    | false => exact honError left hplace

theorem Forwarding.round (h : Forwarding s) (hagain : ∀ left, again ≠ .tun left)
    (hv : ∀ left, v.drainError ≠ .tun left) (ht : ServerLoops.round v again s e = some t) :
    Forwarding t := by
  cases moves_of_round ht with
  | arrive frame => exact ⟨h.tun,h.place⟩
  | close => exact ⟨h.tun,h.place⟩
  | drained sent left hplace => exact ⟨h.tun,by simp⟩
  | drain sent left frame rest hplace hqueue => exact .respond h.tun (by simp) hv
  | initial sent frame hplace hpending => exact .handle h.tun hagain
  | noInitial sent hplace hpending => exact ⟨h.tun,by simp⟩
  | response sent frame rest hplace hqueue => exact .respond h.tun hagain (by simp)
  | queueClosed sent hplace => exact ⟨h.tun,by simp⟩
  | recv frame sent hplace => exact .handle h.tun hagain
  | recvError hplace => exact ⟨h.tun,by simp⟩

/-- Without a bridge the TUN channel changes nothing: the NaiveTCP loop makes the steps of
the WebSocket loop. -/
theorem naiveTcpStep_eq (h : Forwarding s) (e : Event) : naiveTcpStep s e = webSocketStep s e := by
  have hagain : naiveTcpAgain s = .drain webSocket.maxDrain := by
    unfold naiveTcpAgain
    rw [h.tun]
    rfl
  cases e with
  | tun sent =>
    simp only [naiveTcpStep,webSocketStep,round]
    split
    · exact absurd ‹_› (h.place _)
    · exact absurd ‹_› (h.place _)
    · exact absurd ‹_› (h.place _)
    · rfl
  | bridged sent =>
    simp only [naiveTcpStep,webSocketStep,round]
    split
    · rename_i htun
      rw [h.tun] at htun
      cases htun
    · rfl
  | arrive frame => rfl
  | close => rfl
  | drain sent => rfl
  | initial sent =>
    simp only [naiveTcpStep,hagain]
    rfl
  | response sent =>
    simp only [naiveTcpStep,hagain]
    rfl
  | recv frame sent =>
    simp only [naiveTcpStep,hagain]
    rfl
  | recvError => rfl

theorem quicStep_eq (h : drainFails s e = false) : quicStep s e = webSocketStep s e := by
  cases e with
  | drain sent =>
    cases sent with
    | true =>
      simp only [quicStep,webSocketStep,round]
      split <;> rfl
    | false =>
      simp only [quicStep,webSocketStep,round]
      split
      · rfl
      · rfl
      · rename_i hplace hqueue
        simp [drainFails,hplace,hqueue] at h
      · rfl
  | _ => rfl

theorem webSocketStep_fair (h : Fair initial s) (hdrain : drainFails s e = false)
    (ht : webSocketStep s e = some t) : Fair initial t :=
  h.round (by simp) (by simp [webSocket]) (.inr hdrain) ht

theorem webSocketStep_forwarding (h : Forwarding s) (ht : webSocketStep s e = some t) :
    Forwarding t :=
  h.round (by simp) (by simp [webSocket]) ht

/-- The QUIC loop needs no condition: a failed send always ends it. -/
theorem quic_fair (initial : Option SessionFrame) (es : List Event) :
    Along quicStep (Fair initial) (start initial) es := by
  refine along_of_meets (G:=fun _ _ => True) (fun s h => h) ?_ (start_fair initial)
    (meets_true _ _ es)
  intro s e t h _ ht
  exact h.round (by simp) (by simp [quic]) (.inl rfl) ht

/-- The invariant of the two loops whose drain may go on after a failure. -/
structure Steady (initial : Option SessionFrame) (s : Loop) : Prop where
  fair : Fair initial s
  forwarding : Forwarding s

theorem start_steady (initial : Option SessionFrame) : Steady initial (start initial) :=
  ⟨start_fair initial,start_forwarding initial⟩

theorem naiveTcpStep_steady (s : Loop) (e : Event) (t : Loop) (h : Steady initial s)
    (hdrain : drainFails s e = false) (ht : naiveTcpStep s e = some t) : Steady initial t := by
  rw [naiveTcpStep_eq h.forwarding] at ht
  exact ⟨webSocketStep_fair h.fair hdrain ht,webSocketStep_forwarding h.forwarding ht⟩

theorem naiveTcp_drain_goes_on (hs : Steady initial s) (h : drainFails s e ≠ false) :
    ∃ t, naiveTcpStep s e = some t ∧ ¬ Fair initial t := by
  simp only [ne_eq,Bool.not_eq_false] at h
  unfold drainFails at h
  split at h
  · rename_i left frame rest hplace hqueue
    refine ⟨respond s frame rest false (.drain left) .initial,?_,?_⟩
    · rw [naiveTcpStep_eq hs.forwarding]
      simp [webSocketStep,round,hplace,hqueue,webSocket]
    · intro hfair
      have hlast := hfair.failing (.respond frame false) (by simp [respond]) rfl
      simp [respond] at hlast
  · cases h

theorem exec_alike {es : List Event}
    (h : Meets naiveTcpStep (fun s e => drainFails s e = false) (start initial) es)
    (transport : Transport) :
    exec (step transport) (start initial) es = exec naiveTcpStep (start initial) es := by
  refine (exec_congr (I:=Steady initial) ?_ naiveTcpStep_steady (start_steady initial) h).symm
  intro s e hs hdrain
  rw [naiveTcpStep_eq hs.forwarding]
  cases transport with
  | naiveTcp => exact (naiveTcpStep_eq hs.forwarding e).symm
  | webSocket => rfl
  | quic => exact (quicStep_eq hdrain).symm

/-- The three loops treat frames alike and fairly in exactly the runs in which no send of the
drain phase fails. -/
theorem session_loops_alike_iff (initial : Option SessionFrame) (es : List Event) :
    ((∀ transport, Along (step transport) (Fair initial) (start initial) es) ∧
      ∀ transport done, done <+: es → exec (step transport) (start initial) done =
        exec (step .quic) (start initial) done) ↔
    Meets naiveTcpStep (fun s e => drainFails s e = false) (start initial) es := by
  have hiff : Along naiveTcpStep (Fair initial) (start initial) es ↔
      Meets naiveTcpStep (fun s e => drainFails s e = false) (start initial) es :=
    along_iff_meets (fun _ h => h.fair) naiveTcpStep_steady
      (fun _ _ hs hbad => naiveTcp_drain_goes_on hs hbad) (start_steady initial)
  constructor
  · intro h
    exact hiff.mp (h.1 .naiveTcp)
  · intro h
    have hmeets : ∀ done, done <+: es →
        Meets naiveTcpStep (fun s e => drainFails s e = false) (start initial) done := by
      rintro done ⟨rest,rfl⟩
      exact h.of_append
    refine ⟨?_,?_⟩
    · intro transport done t hdone ht
      rw [exec_alike (hmeets done hdone)] at ht
      exact hiff.mpr h done t hdone ht
    · intro transport done hdone
      rw [exec_alike (hmeets done hdone),exec_alike (hmeets done hdone)]

/-- Two responses wait and the first send fails: NaiveTCP and WebSocket send the second one to
the client all the same, while QUIC has ended. -/
theorem drain_failure_drops_response :
    let one : SessionFrame := ⟨⟨7,1,0⟩,[1]⟩
    let two : SessionFrame := ⟨⟨7,2,0⟩,[2]⟩
    let failed := [Event.arrive one,.arrive two,.drain false]
    let later := failed++[.initial true,.response true]
    (∀ transport ∈ [Transport.naiveTcp,.webSocket],
      (exec (step transport) (start none) later).map (fun s => (s.place,s.actions)) =
        some (.drain 256,[.respond one false,.respond two true])) ∧
    (exec (step .quic) (start none) failed).map (fun s => (s.place,s.actions)) =
      some (.ended,[.respond one false]) ∧
    exec (step .quic) (start none) later = none := by
  decide

end Bonded.ServerLoops
