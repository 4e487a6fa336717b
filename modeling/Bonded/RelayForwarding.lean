import Bonded.Framing
import Bonded.RelayRegistration

/-! The provider's relay between a consumer and the server. It registers the consumer's
introduction upstream and then passes frames on in both directions; in every round the call of
`recv` that loses the race is dropped. -/
namespace Bonded.RelayForwarding

open Machine Reader Session
open Framing (Texts recv nextFrame closedAt framed sends)
open PeerShare (SignedPeerShareIntroduction resolveSessionBinding verifyRelayRegistration)
open RelayRegistration (intoControlFrame fromControlFrame ReadsRegistrations)

section Code

/-- A transport: a new call of `recv`, one poll of a suspended call with the number of reads that
are ready for it, what arrives from the network, and the end of a `send`. A poll that gives no
result leaves the call suspended. The queue says which frames have arrived and have not been
returned. -/
structure Transport (σ κ α : Type) where
  call : κ
  poll : ℕ → κ → σ → Option (Except String SessionFrame) × κ × σ
  arrive : σ → α → σ
  sent : σ → SessionFrame → Except String Unit → σ
  queue : σ → List SessionFrame

/-- A frame that is being sent, or was when the sending failed. -/
inductive Held
  | registration (frame : SessionFrame)
  | forUpstream (frame : SessionFrame)
  | forPeer (frame : SessionFrame)
  deriving DecidableEq, Repr

/-- Where the provider stands: in its `select!` with the two suspended calls, in a `send`, or
returned with an error. -/
inductive Stage (κ κ' : Type)
  | selecting (peerCall : κ) (upstreamCall : κ')
  | sending (held : Held)
  | returned (error : String) (held : Option Held)
  deriving DecidableEq

/-- The last four fields are history: what has arrived on either side, and the sends that
succeeded. -/
structure Relay (σ σ' κ κ' : Type) where
  peer : σ
  upstream : σ'
  stage : Stage κ κ'
  fromPeer : List SessionFrame
  fromUpstream : List SessionFrame
  sentUpstream : List SessionFrame
  sentPeer : List SessionFrame
  deriving DecidableEq

inductive Event (α β : Type)
  | peerArrives (input : α)
  | upstreamArrives (input : β)
  | pollPeer (reads : ℕ)
  | pollUpstream (reads : ℕ)
  | sendEnds (result : Except String Unit)

variable {σ σ' κ κ' α β : Type} (T : Transport σ κ α) (U : Transport σ' κ' β)

/-- The frames that an input adds to the queue. -/
def Transport.completes (s : σ) (input : α) : List SessionFrame :=
  (T.queue (T.arrive s input)).drop (T.queue s).length

/-- The provider enters its `select!` with new calls. -/
def select (s : Relay σ σ' κ κ') : Relay σ σ' κ κ' := {s with stage := .selecting T.call U.call}

def step (s : Relay σ σ' κ κ') : Event α β → Option (Relay σ σ' κ κ')
  | .peerArrives input => some {s with
      peer := T.arrive s.peer input
      fromPeer := s.fromPeer++T.completes s.peer input}
  | .upstreamArrives input => some {s with
      upstream := U.arrive s.upstream input
      fromUpstream := s.fromUpstream++U.completes s.upstream input}
  | .pollPeer reads =>
    match s.stage with
    | .selecting peerCall upstreamCall =>
      match T.poll reads peerCall s.peer with
      | (none,peerCall,peer) =>
        some {s with peer := peer, stage := .selecting peerCall upstreamCall}
      | (some (.ok frame),_,peer) =>
        some {s with peer := peer, stage := .sending (.forUpstream frame)}
      | (some (.error e),_,peer) => some {s with peer := peer, stage := .returned e none}
    | _ => none
  | .pollUpstream reads =>
    match s.stage with
    | .selecting peerCall upstreamCall =>
      match U.poll reads upstreamCall s.upstream with
      | (none,upstreamCall,upstream) =>
        some {s with upstream := upstream, stage := .selecting peerCall upstreamCall}
      | (some (.ok frame),_,upstream) =>
        some {s with upstream := upstream, stage := .sending (.forPeer frame)}
      | (some (.error e),_,upstream) =>
        some {s with upstream := upstream, stage := .returned e none}
    | _ => none
  | .sendEnds result =>
    match s.stage with
    | .sending held =>
      let s := match held with
        | .registration frame | .forUpstream frame =>
          {s with upstream := U.sent s.upstream frame result}
        | .forPeer frame => {s with peer := T.sent s.peer frame result}
      match result with
      | .error e => some {s with stage := .returned e (some held)}
      | .ok () =>
        match held with
        | .registration frame | .forUpstream frame =>
          some (select T U {s with sentUpstream := s.sentUpstream++[frame]})
        | .forPeer frame => some (select T U {s with sentPeer := s.sentPeer++[frame]})
    | _ => none

/-- `relay_peer_frames` is called, after the given sends on the upstream. -/
def relayPeerFrames (peer : σ) (upstream : σ') (sent : List SessionFrame) : Relay σ σ' κ κ' :=
  ⟨peer,upstream,.selecting T.call U.call,T.queue peer,U.queue upstream,sent,[]⟩

/-- `register_peer_relay_upstream` is called, with the relay to follow if it succeeds. -/
def registerPeerRelayUpstream (peer : σ) (upstream : σ') (i : SignedPeerShareIntroduction) :
    Relay σ σ' κ κ' :=
  ⟨peer,upstream,.sending (.registration (intoControlFrame i)),T.queue peer,U.queue upstream,[],[]⟩

end Code

section Laws

variable {σ κ α : Type}

/-- A call can be dropped wherever it is suspended: the frames are in the state of the transport,
and only a call that returns a frame takes one. `ok` says which calls may be suspended in a
state. -/
structure CancelSafe (T : Transport σ κ α) (ok : κ → σ → Prop) : Prop where
  call : ∀ s, ok T.call s
  suspended : ∀ {n c c' s s'}, ok c s → T.poll n c s = (none,c',s') →
    ok c' s' ∧ T.queue s' = T.queue s
  returned : ∀ {n c c' s s' frame}, ok c s → T.poll n c s = (some (.ok frame),c',s') →
    T.queue s = frame::T.queue s'
  arrive : ∀ {c s} input, ok c s → ok c (T.arrive s input)
  adds : ∀ s input, T.queue s <+: T.queue (T.arrive s input)
  sent : ∀ s frame result, T.queue (T.sent s frame result) = T.queue s

/-- A frame that has arrived is returned by a poll with enough reads. -/
def Responsive (T : Transport σ κ α) (ok : κ → σ → Prop) : Prop :=
  ∀ c s frame rest, ok c s → T.queue s = frame::rest →
    ∃ n c' s', T.poll n c s = (some (.ok frame),c',s')

theorem CancelSafe.queue_arrive {T : Transport σ κ α} {ok : κ → σ → Prop} (h : CancelSafe T ok)
    (s : σ) (input : α) : T.queue (T.arrive s input) = T.queue s++T.completes s input :=
  (List.prefix_iff_eq_append.mp (h.adds s input)).symm

end Laws

section Relaying

variable {σ σ' κ κ' α β : Type}

def Held.fromPeer : Held → List SessionFrame
  | .forUpstream frame => [frame]
  | .registration _ | .forPeer _ => []

def Held.fromUpstream : Held → List SessionFrame
  | .forPeer frame => [frame]
  | .registration _ | .forUpstream _ => []

def Held.onUpstream : Held → List SessionFrame
  | .registration frame | .forUpstream frame => [frame]
  | .forPeer _ => []

/-- The one frame that is between the transports. -/
def Stage.held : Stage κ κ' → Option Held
  | .selecting _ _ => none
  | .sending held => some held
  | .returned _ held => held

def Stage.frames (stage : Stage κ κ') (f : Held → List SessionFrame) : List SessionFrame :=
  stage.held.elim [] f

/-- What was given to the upstream's `send` so far. -/
def offered (s : Relay σ σ' κ κ') : List SessionFrame :=
  s.sentUpstream++s.stage.frames Held.onUpstream

variable (T : Transport σ κ α) (U : Transport σ' κ' β)

/-- No `recv` has failed. -/
def Stage.receives (stage : Stage κ κ') : Prop := ∀ error, stage ≠ .returned error none

/-- Everything that has arrived was sent on, in order and unchanged, but for the frames that are
still in the transport and the one frame that is being sent or whose sending failed. On the
upstream the frames follow those sent before the relay began. -/
structure Transparent (opening : List SessionFrame) (s : Relay σ σ' κ κ') : Prop where
  upstream : ∃ relayed left, s.sentUpstream = opening++relayed ∧
    s.fromPeer = relayed++(s.stage.frames Held.fromPeer++left) ∧
    (s.stage.receives → left = T.queue s.peer)
  peer : ∃ left, s.fromUpstream = s.sentPeer++(s.stage.frames Held.fromUpstream++left) ∧
    (s.stage.receives → left = U.queue s.upstream)
  /-- The two directions together have at most one frame between the transports, and only a send
  that fails leaves one there when the relay returns. -/
  lost : (s.stage.frames Held.fromPeer++s.stage.frames Held.fromUpstream).length ≤ 1

theorem frames_length_le (stage : Stage κ κ') :
    (stage.frames Held.fromPeer++stage.frames Held.fromUpstream).length ≤ 1 := by
  unfold Stage.frames
  cases stage.held with
  | none => exact Nat.zero_le 1
  | some held => cases held <;> simp [Held.fromPeer,Held.fromUpstream]

variable (okPeer : κ → σ → Prop) (okUpstream : κ' → σ' → Prop)

/-- The invariant of the relay; the suspended calls are the ones that may be. -/
structure Relaying (opening : List SessionFrame) (s : Relay σ σ' κ κ') : Prop where
  transparent : Transparent T U opening s
  calls : ∀ c d, s.stage = .selecting c d → okPeer c s.peer ∧ okUpstream d s.upstream
  registered : ∀ frame, s.stage.held ≠ some (.registration frame)

variable {T U okPeer okUpstream} {opening : List SessionFrame} {s t : Relay σ σ' κ κ'}

theorem transparent_of {relayed : List SessionFrame} (hsent : s.sentUpstream = opening++relayed)
    (hfrom : s.fromPeer = relayed++(s.stage.frames Held.fromPeer++T.queue s.peer))
    (hfrom' : s.fromUpstream = s.sentPeer++(s.stage.frames Held.fromUpstream++U.queue s.upstream)) :
    Transparent T U opening s :=
  ⟨⟨relayed,_,hsent,hfrom,fun _ => rfl⟩,⟨_,hfrom',fun _ => rfl⟩,frames_length_le _⟩

/-- As long as no `recv` has failed, what has not been sent on is held or in the transports. -/
theorem Transparent.queued (h : Transparent T U opening s) {stage : Stage κ κ'}
    (hstage : s.stage = stage) (hreceives : stage.receives) :
    ∃ relayed, s.sentUpstream = opening++relayed ∧
      s.fromPeer = relayed++(stage.frames Held.fromPeer++T.queue s.peer) ∧
      s.fromUpstream = s.sentPeer++(stage.frames Held.fromUpstream++U.queue s.upstream) := by
  subst hstage
  obtain ⟨⟨relayed,left,hsent,hfrom,hleft⟩,⟨left',hfrom',hleft'⟩,-⟩ := h
  rw [hleft hreceives] at hfrom
  rw [hleft' hreceives] at hfrom'
  exact ⟨relayed,hsent,hfrom,hfrom'⟩

variable (hpeer : CancelSafe T okPeer)
include hpeer

theorem relaying_peerArrives (h : Relaying T U okPeer okUpstream opening s) (input : α) :
    Relaying T U okPeer okUpstream opening {s with
      peer := T.arrive s.peer input
      fromPeer := s.fromPeer++T.completes s.peer input} := by
  obtain ⟨⟨⟨relayed,left,hsent,hfrom,hleft⟩,hdown,hlost⟩,hcalls,hregistered⟩ := h
  refine ⟨⟨⟨relayed,left++T.completes s.peer input,hsent,?_,fun hreceives => ?_⟩,hdown,hlost⟩,
    fun c d hstage => ?_,hregistered⟩
  · simp only [hfrom,List.append_assoc]
  · rw [hleft hreceives,hpeer.queue_arrive]
  · exact ⟨hpeer.arrive input (hcalls c d hstage).1,(hcalls c d hstage).2⟩

omit hpeer in
theorem relaying_upstreamArrives (hupstream : CancelSafe U okUpstream)
    (h : Relaying T U okPeer okUpstream opening s) (input : β) :
    Relaying T U okPeer okUpstream opening {s with
      upstream := U.arrive s.upstream input
      fromUpstream := s.fromUpstream++U.completes s.upstream input} := by
  obtain ⟨⟨hup,⟨left,hfrom,hleft⟩,hlost⟩,hcalls,hregistered⟩ := h
  refine ⟨⟨hup,⟨left++U.completes s.upstream input,?_,fun hreceives => ?_⟩,hlost⟩,
    fun c d hstage => ?_,hregistered⟩
  · simp only [hfrom,List.append_assoc]
  · rw [hleft hreceives,hupstream.queue_arrive]
  · exact ⟨(hcalls c d hstage).1,hupstream.arrive input (hcalls c d hstage).2⟩

theorem relaying_pollPeer (h : Relaying T U okPeer okUpstream opening s) {reads : ℕ}
    (ht : step T U s (.pollPeer reads) = some t) : Relaying T U okPeer okUpstream opening t := by
  simp only [step] at ht
  split at ht
  · next c d hstage =>
    obtain ⟨hc,hd⟩ := h.calls c d hstage
    obtain ⟨relayed,hsent,hfrom,hfrom'⟩ := h.transparent.queued hstage nofun
    split at ht
    · next c' p hpoll =>
      cases ht
      obtain ⟨hc',hqueue⟩ := hpeer.suspended hc hpoll
      refine ⟨transparent_of hsent (by rw [hqueue]; exact hfrom) hfrom',?_,nofun⟩
      rintro _ _ ⟨⟩
      exact ⟨hc',hd⟩
    · next frame c' p hpoll =>
      cases ht
      rw [hpeer.returned hc hpoll] at hfrom
      exact ⟨transparent_of hsent hfrom hfrom',nofun,nofun⟩
    · next e c' p hpoll =>
      cases ht
      exact ⟨⟨⟨relayed,_,hsent,hfrom,fun hreceives => absurd rfl (hreceives e)⟩,
        ⟨_,hfrom',fun _ => rfl⟩,frames_length_le _⟩,nofun,nofun⟩
  · cases ht

omit hpeer in
theorem relaying_pollUpstream (hupstream : CancelSafe U okUpstream)
    (h : Relaying T U okPeer okUpstream opening s) {reads : ℕ}
    (ht : step T U s (.pollUpstream reads) = some t) :
    Relaying T U okPeer okUpstream opening t := by
  simp only [step] at ht
  split at ht
  · next c d hstage =>
    obtain ⟨hc,hd⟩ := h.calls c d hstage
    obtain ⟨relayed,hsent,hfrom,hfrom'⟩ := h.transparent.queued hstage nofun
    split at ht
    · next d' u hpoll =>
      cases ht
      obtain ⟨hd',hqueue⟩ := hupstream.suspended hd hpoll
      refine ⟨transparent_of hsent hfrom (by rw [hqueue]; exact hfrom'),?_,nofun⟩
      rintro _ _ ⟨⟩
      exact ⟨hc,hd'⟩
    · next frame d' u hpoll =>
      cases ht
      rw [hupstream.returned hd hpoll] at hfrom'
      exact ⟨transparent_of hsent hfrom hfrom',nofun,nofun⟩
    · next e d' u hpoll =>
      cases ht
      exact ⟨⟨⟨relayed,_,hsent,hfrom,fun _ => rfl⟩,
        ⟨_,hfrom',fun hreceives => absurd rfl (hreceives e)⟩,frames_length_le _⟩,nofun,nofun⟩
  · cases ht

variable (hupstream : CancelSafe U okUpstream)
include hupstream

theorem relaying_select (h : Transparent T U opening (select T U s)) :
    Relaying T U okPeer okUpstream opening (select T U s) := by
  refine ⟨h,?_,nofun⟩
  rintro _ _ ⟨⟩
  exact ⟨hpeer.call _,hupstream.call _⟩

theorem relaying_sendEnds
    (h : Relaying T U okPeer okUpstream opening s) {result : Except String Unit}
    (ht : step T U s (.sendEnds result) = some t) : Relaying T U okPeer okUpstream opening t := by
  simp only [step] at ht
  split at ht
  · next held hstage =>
    obtain ⟨relayed,hsent,hfrom,hfrom'⟩ := h.transparent.queued hstage nofun
    cases held with
    | registration frame => exact absurd (congrArg Stage.held hstage) (h.registered frame)
    | forUpstream frame =>
      have hqueue := hupstream.sent s.upstream frame result
      cases result with
      | error e =>
        cases ht
        exact ⟨transparent_of hsent hfrom (hqueue ▸ hfrom'),nofun,nofun⟩
      | ok =>
        cases ht
        have hnext : s.sentUpstream++[frame] = opening++(relayed++[frame]) := by
          rw [hsent,List.append_assoc]
        refine relaying_select hpeer hupstream (transparent_of hnext ?_ (hqueue ▸ hfrom'))
        rw [List.append_assoc]
        exact hfrom
    | forPeer frame =>
      have hqueue := hpeer.sent s.peer frame result
      cases result with
      | error e =>
        cases ht
        exact ⟨transparent_of hsent (hqueue ▸ hfrom) hfrom',nofun,nofun⟩
      | ok =>
        cases ht
        refine relaying_select hpeer hupstream (transparent_of hsent (hqueue ▸ hfrom) ?_)
        simp only [select,List.append_assoc]
        exact hfrom'
  · cases ht

theorem relaying_step (h : Relaying T U okPeer okUpstream opening s) {e : Event α β}
    (ht : step T U s e = some t) : Relaying T U okPeer okUpstream opening t := by
  cases e with
  | peerArrives input => cases ht; exact relaying_peerArrives hpeer h input
  | upstreamArrives input => cases ht; exact relaying_upstreamArrives hupstream h input
  | pollPeer reads => exact relaying_pollPeer hpeer h ht
  | pollUpstream reads => exact relaying_pollUpstream hupstream h ht
  | sendEnds result => exact relaying_sendEnds hpeer hupstream h ht

theorem relaying_relayPeerFrames (peer : σ) (upstream : σ') (log : List SessionFrame) :
    Relaying T U okPeer okUpstream log (relayPeerFrames T U peer upstream log) := by
  refine ⟨transparent_of (List.append_nil log).symm rfl rfl,?_,nofun⟩
  rintro _ _ ⟨⟩
  exact ⟨hpeer.call _,hupstream.call _⟩

end Relaying

section Draining

variable {σ σ' κ κ' α β : Type} {T : Transport σ κ α} {U : Transport σ' κ' β}
  {okPeer : κ → σ → Prop} {okUpstream : κ' → σ' → Prop}

/-- What the provider does by itself as long as its sends succeed. -/
def Event.own : Event α β → Bool
  | .pollPeer _ | .pollUpstream _ | .sendEnds (.ok ()) => true
  | .peerArrives _ | .upstreamArrives _ | .sendEnds (.error _) => false

variable (T U) in
/-- The provider can send on everything that has arrived. -/
def Drains (opening : List SessionFrame) (s : Relay σ σ' κ κ') : Prop :=
  ∃ es t, (∀ e ∈ es, e.own = true) ∧ exec (step T U) s es = some t ∧
    t.sentUpstream = opening++s.fromPeer ∧ t.sentPeer = s.fromUpstream

def waiting (T : Transport σ κ α) (U : Transport σ' κ' β) (s : Relay σ σ' κ κ') : ℕ :=
  (T.queue s.peer).length+(U.queue s.upstream).length

/-- The provider itself gets from one state to another, while nothing arrives. -/
structure Goes (T : Transport σ κ α) (U : Transport σ' κ' β) (s t : Relay σ σ' κ κ') : Prop where
  run : ∃ es, (∀ e ∈ es, e.own = true) ∧ exec (step T U) s es = some t
  fromPeer : t.fromPeer = s.fromPeer
  fromUpstream : t.fromUpstream = s.fromUpstream

variable {opening : List SessionFrame} {s : Relay σ σ' κ κ'} {c : κ} {d : κ'}

theorem Goes.drains {t : Relay σ σ' κ κ'} (h : Goes T U s t) (ht : Drains T U opening t) :
    Drains T U opening s := by
  obtain ⟨⟨es,hown,hrun⟩,hpeer,hupstream⟩ := h
  obtain ⟨fs,u,hown',hrun',hsent,hsent'⟩ := ht
  refine ⟨es++fs,u,?_,exec_append.mpr ⟨t,hrun,hrun'⟩,hpeer ▸ hsent,hupstream ▸ hsent'⟩
  exact List.forall_mem_append.mpr ⟨hown,hown'⟩

/-- One successful send, and the provider is in its `select!` again. -/
theorem goes_sendEnds {held : Held} (hstage : s.stage = .sending held) :
    ∃ t, step T U s (.sendEnds (.ok ())) = some t ∧ t.stage = .selecting T.call U.call ∧
      t.fromPeer = s.fromPeer ∧ t.fromUpstream = s.fromUpstream ∧
      (t.peer = s.peer ∨ ∃ frame, t.peer = T.sent s.peer frame (.ok ())) ∧
      (t.upstream = s.upstream ∨ ∃ frame, t.upstream = U.sent s.upstream frame (.ok ())) := by
  simp only [step,hstage]
  cases held with
  | registration frame => exact ⟨_,rfl,rfl,rfl,rfl,.inl rfl,.inr ⟨frame,rfl⟩⟩
  | forUpstream frame => exact ⟨_,rfl,rfl,rfl,rfl,.inl rfl,.inr ⟨frame,rfl⟩⟩
  | forPeer frame => exact ⟨_,rfl,rfl,rfl,rfl,.inr ⟨frame,rfl⟩,.inl rfl⟩

theorem drains_empty (h : Transparent T U opening s) (hstage : s.stage = .selecting c d)
    (hpeer : T.queue s.peer = []) (hupstream : U.queue s.upstream = []) : Drains T U opening s := by
  obtain ⟨relayed,hsent,hfrom,hfrom'⟩ := h.queued hstage nofun
  refine ⟨[],s,by simp,rfl,?_,?_⟩
  · rw [hsent,hfrom,hpeer]
    simp [Stage.frames,Stage.held]
  · rw [hfrom',hupstream]
    simp [Stage.frames,Stage.held]

variable (hpeer : CancelSafe T okPeer) (hupstream : CancelSafe U okUpstream)
include hpeer hupstream

theorem Goes.relaying {t : Relay σ σ' κ κ'} (h : Goes T U s t)
    (hs : Relaying T U okPeer okUpstream opening s) : Relaying T U okPeer okUpstream opening t := by
  obtain ⟨⟨es,-,hrun⟩,-,-⟩ := h
  exact exec_preserves (fun s e t hs ht => relaying_step hpeer hupstream hs ht) hs hrun

/-- A frame is taken from a transport and sent on; the other frames stay. -/
theorem goes_on {taken : Relay σ σ' κ κ'} {e : Event α β} {held : Held} (he : e.own = true)
    (hfirst : step T U s e = some taken) (hstage : taken.stage = .sending held)
    (hfrom : taken.fromPeer = s.fromPeer) (hfrom' : taken.fromUpstream = s.fromUpstream) :
    ∃ t, Goes T U s t ∧ t.stage = .selecting T.call U.call ∧
      waiting T U t = waiting T U taken := by
  obtain ⟨t,hsecond,hselecting,hkept,hkept',hp,hu⟩ := goes_sendEnds (T := T) (U := U) hstage
  refine ⟨t,⟨⟨[e,.sendEnds (.ok ())],?_,?_⟩,hkept.trans hfrom,hkept'.trans hfrom'⟩,hselecting,?_⟩
  · simpa using ⟨he,rfl⟩
  · exact exec_cons.mpr ⟨taken,hfirst,exec_cons.mpr ⟨t,hsecond,rfl⟩⟩
  · have hqueue : T.queue t.peer = T.queue taken.peer := by
      rcases hp with hp | ⟨frame,hp⟩
      · rw [hp]
      · rw [hp,hpeer.sent]
    have hqueue' : U.queue t.upstream = U.queue taken.upstream := by
      rcases hu with hu | ⟨frame,hu⟩
      · rw [hu]
      · rw [hu,hupstream.sent]
    rw [waiting,waiting,hqueue,hqueue']

variable (hanswers : Responsive T okPeer) (hanswers' : Responsive U okUpstream)
include hanswers hanswers'

/-- A relay in its `select!` sends the next frame of either side. -/
theorem goes_selecting (hc : okPeer c s.peer) (hd : okUpstream d s.upstream)
    (hstage : s.stage = .selecting c d) (hmore : 0 < waiting T U s) :
    ∃ t, Goes T U s t ∧ t.stage = .selecting T.call U.call ∧
      waiting T U t+1 = waiting T U s := by
  cases hqueue : T.queue s.peer with
  | cons frame rest =>
    obtain ⟨reads,c',p,hpoll⟩ := hanswers c s.peer frame rest hc hqueue
    have htaken : step T U s (.pollPeer reads) =
        some {s with peer := p, stage := .sending (.forUpstream frame)} := by
      simp only [step,hstage,hpoll]
    obtain ⟨t,hgoes,hselecting,hsame⟩ := goes_on hpeer hupstream rfl htaken rfl rfl rfl
    refine ⟨t,hgoes,hselecting,?_⟩
    rw [hsame]
    simp only [waiting,hpeer.returned hc hpoll,List.length_cons]
    omega
  | nil =>
    have hleft : 0 < (U.queue s.upstream).length := by simpa [waiting,hqueue] using hmore
    obtain ⟨frame,rest,hqueue'⟩ := List.exists_cons_of_length_pos hleft
    obtain ⟨reads,d',u,hpoll⟩ := hanswers' d s.upstream frame rest hd hqueue'
    have htaken : step T U s (.pollUpstream reads) =
        some {s with upstream := u, stage := .sending (.forPeer frame)} := by
      simp only [step,hstage,hpoll]
    obtain ⟨t,hgoes,hselecting,hsame⟩ := goes_on hpeer hupstream rfl htaken rfl rfl rfl
    refine ⟨t,hgoes,hselecting,?_⟩
    rw [hsame]
    simp only [waiting,hupstream.returned hd hpoll,List.length_cons]
    omega

theorem drains_selecting {n : ℕ} (hn : waiting T U s = n)
    (h : Relaying T U okPeer okUpstream opening s)
    (hstage : s.stage = .selecting c d) : Drains T U opening s := by
  induction n generalizing s c d with
  | zero =>
    unfold waiting at hn
    exact drains_empty h.transparent hstage (List.length_eq_zero_iff.mp (by omega))
      (List.length_eq_zero_iff.mp (by omega))
  | succ n ih =>
    obtain ⟨hc,hd⟩ := h.calls c d hstage
    obtain ⟨t,hgoes,hselecting,hless⟩ :=
      goes_selecting hpeer hupstream hanswers hanswers' hc hd hstage (by omega)
    exact hgoes.drains (ih (by omega) (hgoes.relaying hpeer hupstream h) hselecting)

/-- As long as the relay has not returned, it can send on everything that has arrived. -/
theorem drains_of_relaying (h : Relaying T U okPeer okUpstream opening s)
    (hrunning : ∀ error held, s.stage ≠ .returned error held) : Drains T U opening s := by
  cases hstage : s.stage with
  | selecting c d => exact drains_selecting hpeer hupstream hanswers hanswers' rfl h hstage
  | returned error held => exact absurd hstage (hrunning error held)
  | sending held =>
    obtain ⟨t,hends,hselecting,hfrom,hfrom',-⟩ := goes_sendEnds (T := T) (U := U) hstage
    have hgoes : Goes T U s t :=
      ⟨⟨[.sendEnds (.ok ())],by simp [Event.own],exec_cons.mpr ⟨t,hends,rfl⟩⟩,hfrom,hfrom'⟩
    exact hgoes.drains (drains_selecting hpeer hupstream hanswers hanswers' rfl
      (hgoes.relaying hpeer hupstream h) hselecting)

end Draining

section Registering

variable {σ σ' κ κ' α β : Type} {T : Transport σ κ α} {U : Transport σ' κ' β}
  {okPeer : κ → σ → Prop} {okUpstream : κ' → σ' → Prop} {i : SignedPeerShareIntroduction}
  {s t : Relay σ σ' κ κ'}

variable (T U i) in
/-- The registration is being sent, or could not be sent: nothing else has left the transports. -/
structure Unregistered (s : Relay σ σ' κ κ') : Prop where
  stage : s.stage.held = some (.registration (intoControlFrame i))
  sentUpstream : s.sentUpstream = []
  sentPeer : s.sentPeer = []
  fromPeer : s.fromPeer = T.queue s.peer
  fromUpstream : s.fromUpstream = U.queue s.upstream

theorem unregistered_step (hpeer : CancelSafe T okPeer) (hupstream : CancelSafe U okUpstream)
    (h : Unregistered T U i s) {e : Event α β} (ht : step T U s e = some t) :
    Unregistered T U i t ∨ Relaying T U okPeer okUpstream [intoControlFrame i] t := by
  obtain ⟨hheld,hsent,hsent',hfrom,hfrom'⟩ := h
  cases e with
  | peerArrives input =>
    cases ht
    exact .inl ⟨hheld,hsent,hsent',by rw [hfrom,hpeer.queue_arrive],hfrom'⟩
  | upstreamArrives input =>
    cases ht
    exact .inl ⟨hheld,hsent,hsent',hfrom,by rw [hfrom',hupstream.queue_arrive]⟩
  | pollPeer reads | pollUpstream reads =>
    simp only [step] at ht
    split at ht
    · next hstage =>
      rw [hstage] at hheld
      cases hheld
    · cases ht
  | sendEnds result =>
    simp only [step] at ht
    split at ht
    · next held hstage =>
      rw [hstage] at hheld
      cases hheld
      have hqueue := hupstream.sent s.upstream (intoControlFrame i) result
      cases result with
      | error e =>
        cases ht
        exact .inl ⟨rfl,hsent,hsent',hfrom,hfrom'.trans hqueue.symm⟩
      | ok =>
        cases ht
        have hfirst : s.sentUpstream++[intoControlFrame i] = [intoControlFrame i]++[] := by
          rw [hsent,List.nil_append,List.append_nil]
        refine .inr (relaying_select hpeer hupstream (transparent_of hfirst hfrom ?_))
        simp only [select,hsent']
        exact hfrom'.trans hqueue.symm
    · cases ht

/-- The first frame that is given to the upstream's `send` is the registration. -/
theorem offered_registration (h : Unregistered T U i s ∨
      Relaying T U okPeer okUpstream [intoControlFrame i] s) :
    ∃ more, offered s = intoControlFrame i::more := by
  rcases h with h | h
  · refine ⟨[],?_⟩
    rw [offered,h.sentUpstream,Stage.frames,h.stage]
    rfl
  · obtain ⟨⟨relayed,left,hsent,-⟩,-⟩ := h.transparent
    exact ⟨relayed++s.stage.frames Held.onUpstream,by rw [offered,hsent]; simp⟩

end Registering

section Streams

/-- A transport that reads frames off a stream. A suspended call has no variable of its own but
the length it has read, which is still in the buffer. The stream brings a chunk, or ends. -/
def lengthPrefixed (texts : Texts) : Transport (Source UInt8) Unit (Option (List UInt8)) where
  call := ()
  poll reads _ s := ((recv texts reads s).1,(),(recv texts reads s).2)
  arrive s input :=
    match input with
    | none => {s with ended := true}
    | some chunk => if s.ended then s else {s with chunks := s.chunks++[chunk]}
  sent s _ _ := s
  queue s := decided (nextFrame texts) Except.toOption s.rest.length s.rest

variable (texts : Texts)

theorem toOption_eq_some {answer : Except String SessionFrame} {frame : SessionFrame}
    (h : answer.toOption = some frame) : answer = .ok frame := by
  cases answer with
  | error e => cases h
  | ok x => cases h; rfl

theorem nextFrame_consumes : Consumes (nextFrame texts) Except.toOption := by
  intro buf answer left frame h hok
  have hanswer := toOption_eq_some hok
  simp only [nextFrame] at h
  split at h
  · cases h
  · split at h
    · cases h; cases hanswer
    · split at h
      · cases h
      · cases h
        rw [List.length_drop]
        omega

/-- What `recv` does to the frames that have arrived. -/
theorem recv_queue (reads : ℕ) (s : Source UInt8) :
    (∃ frame, (recv texts reads s).1 = some (.ok frame) ∧
        (lengthPrefixed texts).queue s = frame::(lengthPrefixed texts).queue (recv texts reads s).2) ∨
      ((recv texts reads s).1 = none ∧
        (lengthPrefixed texts).queue (recv texts reads s).2 = (lengthPrefixed texts).queue s) ∨
      ∃ e, (recv texts reads s).1 = some (.error e) := by
  rw [Framing.recv_eq_callOn]
  obtain ⟨-,⟨answer,hanswer,hnext⟩ | ⟨hnone,hrest⟩ | ⟨-,-,heq⟩⟩ :=
    callOn_cases (closedAt texts) (Framing.nextFrame_stable texts) reads s
  · cases answer with
    | error e => exact .inr (.inr ⟨e,hanswer⟩)
    | ok frame => exact .inl ⟨frame,hanswer,decided_cons (nextFrame_consumes texts) hnext rfl⟩
  · refine .inr (.inl ⟨hnone,?_⟩)
    simp only [lengthPrefixed,hrest]
  · exact .inr (.inr ⟨_,by rw [heq]; rfl⟩)

theorem arrive_rest (s : Source UInt8) (input : Option (List UInt8)) :
    ∃ more, ((lengthPrefixed texts).arrive s input).rest = s.rest++more := by
  cases input with
  | none => exact ⟨[],(List.append_nil _).symm⟩
  | some chunk =>
    simp only [lengthPrefixed]
    split
    · exact ⟨[],(List.append_nil _).symm⟩
    · exact ⟨chunk,by simp [Source.rest]⟩

/-- The calls of `recv` on a stream can be dropped: what was read stays in the buffer. -/
theorem lengthPrefixed_cancelSafe :
    CancelSafe (lengthPrefixed texts) fun _ _ => True := by
  refine ⟨fun _ => trivial,?_,?_,fun _ _ => trivial,fun s input => ?_,fun _ _ _ => rfl⟩
  · rintro n c c' s s' - hpoll
    simp only [lengthPrefixed,Prod.mk.injEq] at hpoll
    obtain ⟨hnone,-,rfl⟩ := hpoll
    rcases recv_queue texts n s with ⟨frame,hsome,-⟩ | ⟨-,hqueue⟩ | ⟨e,hsome⟩
    · rw [hnone] at hsome; cases hsome
    · exact ⟨trivial,hqueue⟩
    · rw [hnone] at hsome; cases hsome
  · rintro n c c' s s' frame - hpoll
    simp only [lengthPrefixed,Prod.mk.injEq] at hpoll
    obtain ⟨hok,-,rfl⟩ := hpoll
    rcases recv_queue texts n s with ⟨frame',hsome,hqueue⟩ | ⟨hnone,-⟩ | ⟨e,hsome⟩
    · rw [hok] at hsome; cases hsome; exact hqueue
    · rw [hok] at hnone; cases hnone
    · rw [hok] at hsome; cases hsome
  · obtain ⟨more,hmore⟩ := arrive_rest texts s input
    have hgrows := decided_append Except.toOption (Framing.nextFrame_stable texts)
      s.rest.length (s.rest++more).length (by simp) s.rest more
    rw [← hmore] at hgrows
    exact hgrows

variable {texts}

theorem sends_eq_ok {frames : List SessionFrame} {written : List UInt8}
    (h : sends texts frames = .ok written) :
    written = frames.flatMap framed ∧ ∀ f ∈ frames, (encode f).length < 2^32 := by
  induction frames generalizing written with
  | nil => cases h; exact ⟨rfl,by simp⟩
  | cons frame frames ih =>
    by_cases hfits : (encode frame).length < 2^32
    · have hsend : Framing.send texts frame = .ok (framed frame) := by
        simp only [Framing.send,if_pos hfits,framed]
      simp only [sends,hsend] at h
      cases hrest : sends texts frames with
      | error e => rw [hrest] at h; cases h
      | ok rest =>
        rw [hrest] at h
        cases h
        obtain ⟨rfl,hall⟩ := ih hrest
        exact ⟨rfl,List.forall_mem_cons.mpr ⟨hfits,hall⟩⟩
    · simp only [sends,Framing.send,if_neg hfits] at h
      cases h

/-- The first frame that is read off a stream of frames is the first of them, whatever part of
the stream has arrived, in whatever chunks. -/
theorem recv_first {first : SessionFrame} {frames : List SessionFrame} {written : List UInt8}
    (hsends : sends texts (first::frames) = .ok written) {s : Source UInt8}
    (hrest : s.rest <+: written) {reads : ℕ} {frame : SessionFrame}
    (hread : (recv texts reads s).1 = some (.ok frame)) : frame = first := by
  obtain ⟨rfl,hall⟩ := sends_eq_ok hsends
  have hstable := Framing.nextFrame_stable texts
  rw [Framing.recv_eq_callOn] at hread
  obtain ⟨-,⟨answer,hanswer,hnext⟩ | ⟨hnone,-⟩ | ⟨-,-,heq⟩⟩ :=
    callOn_cases (closedAt texts) hstable reads s
  · obtain ⟨more,hmore⟩ := hrest
    have hwhole := hstable _ _ _ more hnext
    rw [hmore,List.flatMap_cons,
      Framing.nextFrame_framed texts (hall first List.mem_cons_self)] at hwhole
    rw [hread] at hanswer
    cases hanswer
    exact (Except.ok.inj (Prod.mk.inj (Option.some.inj hwhole)).1).symm
  · rw [hread] at hnone
    cases hnone
  · rw [heq] at hread
    cases hread

end Streams

section Claims

variable {σ σ' κ κ' α β : Type}

/-- What the server makes of the frames that the provider sends it. -/
structure Registers (libs : Bootstrap.Libs)
    (fromSlice : List UInt8 → Option SignedPeerShareIntroduction)
    (i : SignedPeerShareIntroduction) (s : Relay σ σ' κ κ') : Prop where
  /-- Over a transport that keeps the order, the first frame received is the registration. -/
  first : ∀ received first, received <+: offered s → received.head? = some first →
    first = intoControlFrame i
  /-- On a stream it is the first frame read, whichever part of the bytes has arrived. -/
  stream : ∀ (texts : Texts) (frames : List SessionFrame) (written : List UInt8)
    (source : Source UInt8) (reads : ℕ) (frame : SessionFrame), frames <+: offered s →
    sends texts frames = .ok written → source.rest <+: written →
    (recv texts reads source).1 = some (.ok frame) → frame = intoControlFrame i
  decoded : fromControlFrame fromSlice (intoControlFrame i) = .ok i
  /-- The server verifies that very introduction and binds the session to its consumer. -/
  bound : ∀ serverKey provider clock,
    resolveSessionBinding libs serverKey fromSlice provider (some (intoControlFrame i)) clock =
      (verifyRelayRegistration libs serverKey i provider clock).map fun _ =>
        ⟨i.introduction.consumerDevicePublicKey,none,true⟩

theorem registration_flag (i : SignedPeerShareIntroduction) :
    (intoControlFrame i).header.flags &&& flagPeerRelayRegistration ≠ 0 := by
  have hflags : (intoControlFrame i).header.flags = flagPeerRelayRegistration := rfl
  rw [hflags]
  decide

theorem registers_of_offered {libs : Bootstrap.Libs}
    {fromSlice : List UInt8 → Option SignedPeerShareIntroduction}
    {i : SignedPeerShareIntroduction} (hreads : fromSlice (intoControlFrame i).payload = some i)
    {s : Relay σ σ' κ κ'} {more : List SessionFrame} (h : offered s = intoControlFrame i::more) :
    Registers libs fromSlice i s := by
  have hflag := registration_flag i
  refine ⟨fun received first hprefix hhead => ?_,?_,?_,fun serverKey provider clock => ?_⟩
  · obtain ⟨rest,rfl⟩ := List.head?_eq_some_iff.mp hhead
    rw [h] at hprefix
    exact (List.cons_prefix_cons.mp hprefix).1
  · intro texts frames written source reads frame hprefix hsends hrest hread
    cases frames with
    | nil =>
      cases hsends
      -- nothing was written, and an empty stream has no frame
      have hempty := List.prefix_nil.mp hrest
      rcases recv_queue texts reads source with ⟨_,-,hqueue⟩ | ⟨hnone,-⟩ | ⟨e,herror⟩
      · simp only [lengthPrefixed,hempty] at hqueue
        cases hqueue
      · rw [hread] at hnone; cases hnone
      · rw [hread] at herror; cases herror
    | cons first frames =>
      rw [h] at hprefix
      rw [recv_first hsends hrest hread,(List.cons_prefix_cons.mp hprefix).1]
  · simp only [fromControlFrame,if_neg hflag,hreads]
  · simp only [resolveSessionBinding,if_neg hflag,hreads]
    cases verifyRelayRegistration libs serverKey i provider clock <;> rfl

/-- Forwarding is transparent in every run: for transports whose `recv` can be dropped, whatever
arrives and however the two sides are polled. A relay that has not returned can send on all that
has arrived, if polls return what has arrived. With the registration before it, the server reads
the registration first and decodes the introduction. -/
theorem relay_transparent {T : Transport σ κ α} {U : Transport σ' κ' β} {okPeer : κ → σ → Prop}
    {okUpstream : κ' → σ' → Prop} (hpeer : CancelSafe T okPeer)
    (hupstream : CancelSafe U okUpstream) (libs : Bootstrap.Libs)
    {fromSlice : List UInt8 → Option SignedPeerShareIntroduction}
    (hserde : ReadsRegistrations fromSlice) (i : SignedPeerShareIntroduction)
    (hexpires : i.introduction.expiresAt < 2^64) (peer : σ) (upstream : σ')
    (es : List (Event α β)) :
    (∀ log, Along (step T U) (Transparent T U log) (relayPeerFrames T U peer upstream log) es) ∧
    (Responsive T okPeer → Responsive U okUpstream → ∀ log, Along (step T U)
      (fun s => (∀ error held, s.stage ≠ .returned error held) → Drains T U log s)
      (relayPeerFrames T U peer upstream log) es) ∧
    Along (step T U) (fun s => (s.sentUpstream = [] ∧ s.sentPeer = [] ∧
        s.fromPeer = T.queue s.peer ∧ s.fromUpstream = U.queue s.upstream ∨
        Transparent T U [intoControlFrame i] s) ∧ Registers libs fromSlice i s)
      (registerPeerRelayUpstream T U peer upstream i) es := by
  have hrelaying : ∀ log done t,
      exec (step T U) (relayPeerFrames T U peer upstream log) done = some t →
      Relaying T U okPeer okUpstream log t := fun log done t ht =>
    exec_preserves (fun s e t hs ht => relaying_step hpeer hupstream hs ht)
      (relaying_relayPeerFrames hpeer hupstream peer upstream log) ht
  refine ⟨fun log done t _ ht => (hrelaying log done t ht).transparent,
    fun hanswers hanswers' log done t _ ht hrunning =>
      drains_of_relaying hpeer hupstream hanswers hanswers' (hrelaying log done t ht) hrunning,
    fun done t _ ht => ?_⟩
  have hinv : Unregistered T U i t ∨ Relaying T U okPeer okUpstream [intoControlFrame i] t := by
    refine exec_preserves (I:=fun t => Unregistered T U i t ∨
      Relaying T U okPeer okUpstream [intoControlFrame i] t) ?_ ?_ ht
    · rintro s e t (hs | hs) ht
      · exact unregistered_step hpeer hupstream hs ht
      · exact .inr (relaying_step hpeer hupstream hs ht)
    · exact .inl ⟨rfl,rfl,rfl,rfl,rfl⟩
  obtain ⟨more,hoffered⟩ := offered_registration hinv
  refine ⟨?_,registers_of_offered (hserde.reads i hexpires) hoffered⟩
  rcases hinv with h | h
  · exact .inl ⟨h.sentUpstream,h.sentPeer,h.fromPeer,h.fromUpstream⟩
  · exact .inr h.transparent

end Claims

def demoIntroduction : SignedPeerShareIntroduction :=
  ⟨⟨"consumer","provider","nonce-1","192.168.1.20:54443","quic","sha256:abcd",12345⟩,"sig"⟩

def peerFrame : SessionFrame := ⟨⟨7,1,0⟩,[1,2]⟩

def serverFrame : SessionFrame := ⟨⟨7,1,0⟩,[3]⟩

/-- A frame of the peer arrives in two parts. Between them the server's frame is passed on, and
the call that has read the first part is dropped. -/
def droppedCall : List (Event (Option (List UInt8)) (Option (List UInt8))) :=
  [.sendEnds (.ok ()),.peerArrives (some ((framed peerFrame).take 9)),.pollPeer 1,
    .upstreamArrives (some (framed serverFrame)),.pollUpstream 1,.sendEnds (.ok ()),
    .peerArrives (some ((framed peerFrame).drop 9)),.pollPeer 1,.sendEnds (.ok ())]

theorem droppedCall_is_transparent :
    let T := lengthPrefixed Framing.quic
    ∃ s, exec (step T T) (registerPeerRelayUpstream T T ⟨[],[],false⟩ ⟨[],[],false⟩
        demoIntroduction) droppedCall = some s ∧
      s.sentUpstream.tail = [peerFrame] ∧ s.sentPeer = [serverFrame] ∧
      ∀ libs, Registers libs RelayRegistration.readRegistration demoIntroduction s := by
  intro T
  have hrun : (exec (step T T) (registerPeerRelayUpstream T T ⟨[],[],false⟩ ⟨[],[],false⟩
      demoIntroduction) droppedCall).map (fun s => (s.sentUpstream.tail,s.sentPeer)) =
      some ([peerFrame],[serverFrame]) := by decide +kernel
  obtain ⟨s,hs,heq⟩ := Option.map_eq_some_iff.mp hrun
  refine ⟨s,hs,congrArg Prod.fst heq,congrArg Prod.snd heq,fun libs => ?_⟩
  have hsafe := lengthPrefixed_cancelSafe Framing.quic
  exact ((relay_transparent hsafe hsafe libs RelayRegistration.readRegistration_reads
    demoIntroduction (by decide) ⟨[],[],false⟩ ⟨[],[],false⟩ droppedCall).2.2 droppedCall s
      (List.prefix_refl _) hs).2

end Bonded.RelayForwarding
