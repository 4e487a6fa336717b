import Bonded.Machine
import Bonded.Table

/-! The accept task of a provider's peer-share listener. It serves one connection at a time:
it completes the handshake, waits for a stream and for the introduction, answers, dials and
registers upstream, and relays frames until an error. -/
namespace Bonded.RelayAccept

open Machine

/-- A QUIC connection to the listener. `keepAlive` says whether the peer's QUIC stack keeps an
established connection from timing out; `window` counts the messages that fit into what the
peer lets the provider send. The rest is what the peer has done so far. -/
structure PeerConn (ι : Type) where
  keepAlive : Bool
  window : ℕ
  handshaken : Bool
  stream : Bool
  line : Option ι
  frames : ℕ
  closed : Bool
  deriving DecidableEq

/-- What the accept task waits for: `accept`, the handshake, `accept_bi`, `recv_text`,
`send_text`, the upstream paths, the registration, the `select!` of the relay loop, a send of
that loop, or the end of its retry delay. -/
inductive Stage
  | accepting
  | handshaking (c : ℕ)
  | opening (c : ℕ)
  | reading (c : ℕ)
  | replying (c : ℕ)
  | dialling (c : ℕ)
  | registering (c : ℕ)
  | relaying (c : ℕ)
  | toUpstream (c : ℕ)
  | toPeer (c : ℕ)
  | sleeping
  deriving DecidableEq, Repr

/-- `upstreamOpen` and `fromUpstream` are the server's end of the upstream transport of the
relay that is running. -/
structure Provider (ι : Type) where
  incoming : List ℕ
  conns : Table ℕ (PeerConn ι)
  stage : Stage
  upstreamOpen : Bool
  fromUpstream : ℕ
  deriving DecidableEq

def start (ι : Type) : Provider ι := ⟨[],∅,.accepting,false,0⟩

inductive Event (ι : Type)
  | connect (c : ℕ) (keepAlive : Bool) (window : ℕ)
  | handshake (c : ℕ)
  | openStream (c : ℕ)
  | sendLine (c : ℕ) (line : ι)
  | sendFrame (c : ℕ)
  | grant (c : ℕ)
  | close (c : ℕ)
  | accept
  | advance
  | expire
  | dial (ok : Bool)
  | register (ok : Bool)
  | relayFrame
  | forward (ok : Bool)
  | relayReturn
  | wake
  | downstream
  | closeUpstream
  deriving DecidableEq

inductive Actor
  | peer (c : ℕ)
  | provider
  | server
  deriving DecidableEq

def Event.actor {ι : Type} : Event ι → Actor
  | .connect c _ _ | .handshake c | .openStream c | .sendLine c _ | .sendFrame c | .grant c
  | .close c => .peer c
  | .downstream | .closeUpstream => .server
  | _ => .provider

def Stage.served : Stage → Option ℕ
  | .handshaking c | .opening c | .reading c | .replying c | .dialling c | .registering c
  | .relaying c | .toUpstream c | .toPeer c => some c
  | .accepting | .sleeping => none

section Step

variable {ι : Type} (admits : ι → Bool)

/-- A peer acts on a connection that is open. -/
def act (s : Provider ι) (c : ℕ) (enabled : PeerConn ι → Bool)
    (f : PeerConn ι → PeerConn ι) : Option (Provider ι) :=
  match s.conns.get c with
  | none => none
  | some r =>
    if r.closed = false ∧ enabled r = true then some {s with conns := s.conns.set c (f r)} else none

/-- The task moves on as soon as what it waits for is there. An error on the connection brings
it back to `accept`; `admits` is whether a line parses and the introduction is verified. -/
def advanceOn (s : Provider ι) (c : ℕ) (r : PeerConn ι) : Option (Provider ι) :=
  if r.closed then some {s with stage := .accepting}
  else match s.stage with
  | .handshaking _ => if r.handshaken then some {s with stage := .opening c} else none
  | .opening _ => if r.stream then some {s with stage := .reading c} else none
  | .reading _ =>
    match r.line with
    | none => none
    | some line => some {s with stage := if admits line then .replying c else .accepting}
  | .replying _ =>
    if r.window = 0 then none
    else some {s with
      stage := .dialling c
      conns := s.conns.set c {r with window := r.window-1}}
  | .toPeer _ =>
    if r.window = 0 then none
    else some {s with
      stage := .relaying c
      conns := s.conns.set c {r with window := r.window-1}}
  | .relaying _ => if s.upstreamOpen then none else some {s with stage := .accepting}
  | _ => none

def advance (s : Provider ι) : Option (Provider ι) :=
  match s.stage with
  | .handshaking c | .opening c | .reading c | .replying c | .relaying c | .toPeer c =>
    (s.conns.get c).bind (advanceOn admits s c)
  | _ => none

/-- The provider's idle timer ends a connection from which nothing comes: before the handshake
in any case, later unless the peer's stack keeps it alive. -/
def expire (s : Provider ι) : Option (Provider ι) :=
  match s.stage.served with
  | none => none
  | some c => act s c (fun r => ¬ (r.handshaken ∧ r.keepAlive)) fun r => {r with closed := true}

def step (s : Provider ι) : Event ι → Option (Provider ι)
  | .connect c keepAlive window =>
    if s.conns.contains c then none
    else some {s with
      incoming := s.incoming++[c]
      conns := s.conns.set c ⟨keepAlive,window,false,false,none,0,false⟩}
  | .handshake c =>
    if s.stage = .handshaking c then act s c (fun _ => true) fun r => {r with handshaken := true}
    else none
  | .openStream c => act s c (·.handshaken) fun r => {r with stream := true}
  | .sendLine c line =>
    act s c (fun r => r.stream && r.line.isNone) fun r => {r with line := some line}
  | .sendFrame c => act s c (·.stream) fun r => {r with frames := r.frames+1}
  | .grant c => act s c (·.handshaken) fun r => {r with window := r.window+1}
  | .close c => act s c (fun _ => true) fun r => {r with closed := true}
  | .accept =>
    match s.stage, s.incoming with
    | .accepting, c::rest => some {s with incoming := rest, stage := .handshaking c}
    | _, _ => none
  | .advance => advance admits s
  | .expire => expire s
  | .dial ok =>
    match s.stage with
    | .dialling c => some (if ok then {s with
        stage := .registering c
        upstreamOpen := true
        fromUpstream := 0}
      else {s with stage := .sleeping})
    | _ => none
  | .register ok =>
    match s.stage with
    | .registering c => some {s with stage := if ok then .relaying c else .sleeping}
    | _ => none
  | .relayFrame =>
    match s.stage with
    | .relaying c => (act s c (fun r => r.frames ≠ 0) fun r => {r with frames := r.frames-1}).map
        fun t => {t with stage := .toUpstream c}
    | _ => none
  | .forward ok =>
    match s.stage with
    | .toUpstream c => some {s with stage := if ok then .relaying c else .accepting}
    | _ => none
  | .relayReturn =>
    match s.stage with
    | .relaying c => if s.fromUpstream = 0 then none
      else some {s with stage := .toPeer c, fromUpstream := s.fromUpstream-1}
    | _ => none
  | .wake => if s.stage = .sleeping then some {s with stage := .accepting} else none
  | .downstream => if s.upstreamOpen then some {s with fromUpstream := s.fromUpstream+1} else none
  | .closeUpstream => some {s with upstreamOpen := false}

/-- Steps of the provider, the server and the connection `w`. -/
def Alone (w : ℕ) (e : Event ι) : Prop :=
  e.actor = .provider ∨ e.actor = .server ∨ e.actor = .peer w

/-- Without any step of the other connections, `w` can be accepted and registered upstream. -/
def CanRegister (s : Provider ι) (w : ℕ) : Prop :=
  ∃ t, Reaches (step admits) (Alone w) s t ∧ t.stage = .relaying w

/-- What the stage waits for will not come from this connection if its peer does nothing: it
has sent no introduction, or the provider's message does not fit into its window. -/
def Waits (stage : Stage) (r : PeerConn ι) : Prop :=
  match stage with
  | .handshaking _ | .opening _ | .reading _ =>
    r.line = none ∨ ∃ line, r.line = some line ∧ admits line = true ∧ r.window = 0
  | .replying _ | .toPeer _ => r.window = 0
  | _ => False

/-- The task serves a connection that is open and kept alive and waits for its peer. -/
def StuckOn (c : ℕ) (s : Provider ι) : Prop :=
  s.stage.served = some c ∧ ∃ r, s.conns.get c = some r ∧ r.closed = false ∧
    r.handshaken = true ∧ r.keepAlive = true ∧ Waits admits s.stage r

end Step

section Invariant

variable {ι : Type} {admits : ι → Bool} {s t : Provider ι} {c : ℕ}

variable {enabled : PeerConn ι → Bool} {f : PeerConn ι → PeerConn ι} {r : PeerConn ι}

theorem act_some (h : act s c enabled f = some t) : ∃ r, s.conns.get c = some r ∧ r.closed = false ∧
      enabled r = true ∧ t = {s with conns := s.conns.set c (f r)} := by
  unfold act at h
  split at h
  · cases h
  · next r hr =>
    split at h
    · next hen =>
      cases h
      exact ⟨r,hr,hen.1,hen.2,rfl⟩
    · cases h

theorem act_of (hr : s.conns.get c = some r) (hopen : r.closed = false) (hen : enabled r = true) :
    act s c enabled f = some {s with conns := s.conns.set c (f r)} := by
  simp [act,hr,hopen,hen]

/-- A connection that the task has not accepted yet: its peer cannot have gone beyond the
first packet. -/
def Untouched (r : PeerConn ι) : Prop :=
  r.handshaken = false ∧ r.stream = false ∧ r.line = none

structure Inv (s : Provider ι) : Prop where
  nodup : s.incoming.Nodup
  served : ∀ c, s.stage.served = some c → c ∉ s.incoming ∧ ∃ r, s.conns.get c = some r
  waiting : ∀ c ∈ s.incoming, ∃ r, s.conns.get c = some r ∧ Untouched r
  opened : ∀ c r, s.conns.get c = some r → r.line ≠ none → r.stream = true

theorem inv_start : Inv (start ι) := by
  constructor <;> simp [start,Stage.served]

variable (h : Inv s)
include h

theorem Inv.setConn {r' : PeerConn ι} (hr : s.conns.get c = some r)
    (hwait : c ∈ s.incoming → Untouched r') (hopened : r'.line ≠ none → r'.stream = true) :
    Inv {s with conns := s.conns.set c r'} := by
  refine ⟨h.nodup,?_,?_,?_⟩
  · intro d hd
    refine ⟨(h.served d hd).1,?_⟩
    simp only [Table.get_set]
    split
    · exact ⟨r',rfl⟩
    · exact (h.served d hd).2
  · intro d hd
    simp only [Table.get_set]
    split
    · next hdc =>
      subst hdc
      exact ⟨r',rfl,hwait hd⟩
    · exact h.waiting d hd
  · intro d x hx
    simp only [Table.get_set] at hx
    split at hx
    · cases hx
      exact hopened
    · exact h.opened d x hx

theorem Inv.act (ht : act s c enabled f = some t)
    (hwait : ∀ r, Untouched r → enabled r = true → c ∈ s.incoming → Untouched (f r))
    (hopened : ∀ r, enabled r = true → (r.line ≠ none → r.stream = true) →
      (f r).line ≠ none → (f r).stream = true) : Inv t := by
  obtain ⟨r,hr,-,hen,rfl⟩ := act_some ht
  refine h.setConn hr (fun hc => ?_) (hopened r hen (h.opened c r hr))
  obtain ⟨x,hx,huntouched⟩ := h.waiting c hc
  rw [hr] at hx
  cases hx
  exact hwait r huntouched hen hc

theorem Inv.setStage (stage : Stage)
    (hstage : stage.served = none ∨ stage.served = s.stage.served) :
    Inv {s with stage := stage} := by
  refine ⟨h.nodup,fun d hd => ?_,h.waiting,h.opened⟩
  rcases hstage with hnone | hsame
  · rw [hnone] at hd
    cases hd
  · exact h.served d (hsame ▸ hd)

theorem Inv.upstream (isOpen : Bool) (n : ℕ) :
    Inv {s with upstreamOpen := isOpen, fromUpstream := n} :=
  ⟨h.nodup,h.served,h.waiting,h.opened⟩

theorem Inv.advanceOn (hr : s.conns.get c = some r) (hserved : s.stage.served = some c)
    (ht : advanceOn admits s c r = some t) : Inv t := by
  have hout := (h.served c hserved).1
  have hsent : Inv {s with conns := s.conns.set c {r with window := r.window-1}} :=
    h.setConn hr (fun hc => absurd hc hout) (h.opened c r hr)
  unfold RelayAccept.advanceOn at ht
  split at ht
  · cases ht
    exact h.setStage _ (.inl rfl)
  · split at ht
    · split at ht
      · cases ht
        exact h.setStage _ (.inr hserved.symm)
      · cases ht
    · split at ht
      · cases ht
        exact h.setStage _ (.inr hserved.symm)
      · cases ht
    · split at ht
      · cases ht
      · cases ht
        split
        · exact h.setStage _ (.inr hserved.symm)
        · exact h.setStage _ (.inl rfl)
    · split at ht
      · cases ht
      · cases ht
        exact hsent.setStage (.dialling c) (.inr hserved.symm)
    · split at ht
      · cases ht
      · cases ht
        exact hsent.setStage (.relaying c) (.inr hserved.symm)
    · split at ht
      · cases ht
      · cases ht
        exact h.setStage _ (.inl rfl)
    · cases ht

theorem Inv.advance (ht : advance admits s = some t) : Inv t := by
  unfold RelayAccept.advance at ht
  split at ht
  case h_7 => cases ht
  all_goals
    next c hstage =>
    obtain ⟨r,hr,hon⟩ := Option.bind_eq_some_iff.mp ht
    exact h.advanceOn hr (by rw [hstage]; rfl) hon

theorem Inv.accept {rest : List ℕ} (hqueue : s.incoming = c::rest) :
    Inv {s with incoming := rest, stage := .handshaking c} := by
  have hnodup := List.nodup_cons.mp (hqueue ▸ h.nodup)
  refine ⟨hnodup.2,?_,fun d hd => h.waiting d (by simp [hqueue,hd]),h.opened⟩
  intro d hd
  cases hd
  obtain ⟨r,hr,-⟩ := h.waiting c (by simp [hqueue])
  exact ⟨hnodup.1,r,hr⟩

theorem Inv.connect (keepAlive : Bool) (window : ℕ) (hnew : ¬ s.conns.contains c = true) :
    Inv {s with
      incoming := s.incoming++[c]
      conns := s.conns.set c ⟨keepAlive,window,false,false,none,0,false⟩} := by
  have hnone : s.conns.get c = none := by simpa [Table.contains] using hnew
  have hfresh : c ∉ s.incoming := by
    intro hc
    obtain ⟨r,hr,-⟩ := h.waiting c hc
    rw [hnone] at hr
    cases hr
  refine ⟨?_,?_,?_,?_⟩
  · rw [List.nodup_append]
    exact ⟨h.nodup,by simp,by rintro x hx y hy rfl; simp at hy; exact hfresh (hy ▸ hx)⟩
  · intro d hd
    obtain ⟨hout,r,hr⟩ := h.served d hd
    have hdc : d ≠ c := by
      rintro rfl
      rw [hnone] at hr
      cases hr
    exact ⟨by simp [hout,hdc],r,by simpa [Table.get_set_ne hdc] using hr⟩
  · intro d hd
    simp only [Table.get_set]
    split
    · exact ⟨_,rfl,rfl,rfl,rfl⟩
    · next hdc =>
      refine h.waiting d ?_
      simpa [hdc] using hd
  · intro d x hx
    simp only [Table.get_set] at hx
    split at hx
    · cases hx
      simp
    · exact h.opened d x hx

theorem Inv.step {e : Event ι} (ht : step admits s e = some t) : Inv t := by
  cases e with
  | connect c keepAlive window =>
    simp only [RelayAccept.step] at ht
    split at ht
    · cases ht
    · next hnew =>
      cases ht
      exact h.connect keepAlive window hnew
  | handshake c =>
    simp only [RelayAccept.step] at ht
    split at ht
    · next hstage =>
      have hout := (h.served c (by rw [hstage]; rfl)).1
      exact h.act ht (fun r _ _ hc => absurd hc hout) (fun r _ ho => ho)
    · cases ht
  | openStream c =>
    exact h.act ht (fun r hr hen _ => by simp [hr.1] at hen) (fun r _ _ _ => rfl)
  | sendLine c line =>
    refine h.act ht (fun r hr hen _ => by simp [hr.2.1] at hen) (fun r hen _ _ => ?_)
    simp only [Bool.and_eq_true] at hen
    exact hen.1
  | sendFrame c =>
    exact h.act ht (fun r hr hen _ => by simp [hr.2.1] at hen) (fun r hen _ _ => hen)
  | grant c =>
    exact h.act ht (fun r hr hen _ => by simp [hr.1] at hen) (fun r _ ho => ho)
  | close c => exact h.act ht (fun r hr _ _ => hr) (fun r _ ho => ho)
  | accept =>
    simp only [RelayAccept.step] at ht
    split at ht
    · next hqueue =>
      cases ht
      exact h.accept hqueue
    · cases ht
  | advance => exact h.advance ht
  | expire =>
    simp only [RelayAccept.step,expire] at ht
    split at ht
    · cases ht
    · exact h.act ht (fun r hr _ _ => hr) (fun r _ ho => ho)
  | dial ok =>
    simp only [RelayAccept.step] at ht
    split at ht
    · next c hstage =>
      cases ht
      cases ok with
      | true => exact (h.upstream true 0).setStage _ (.inr (by rw [hstage]; rfl))
      | false => exact h.setStage _ (.inl rfl)
    · cases ht
  | register ok | forward ok =>
    simp only [RelayAccept.step] at ht
    split at ht
    · next c hstage =>
      cases ht
      cases ok with
      | true => exact h.setStage _ (.inr (by rw [hstage]; rfl))
      | false => exact h.setStage _ (.inl rfl)
    · cases ht
  | relayFrame =>
    simp only [RelayAccept.step] at ht
    split at ht
    · next c hstage =>
      obtain ⟨u,hu,rfl⟩ := Option.map_eq_some_iff.mp ht
      have hinv := h.act hu (fun r hr _ _ => hr) (fun r _ ho => ho)
      obtain ⟨r,-,-,-,rfl⟩ := act_some hu
      exact hinv.setStage _ (.inr (by simp only [hstage]; rfl))
    · cases ht
  | relayReturn =>
    simp only [RelayAccept.step] at ht
    split at ht
    · next c hstage =>
      split at ht
      · cases ht
      · cases ht
        exact (h.upstream s.upstreamOpen (s.fromUpstream-1)).setStage _
          (.inr (by rw [hstage]; rfl))
    · cases ht
  | wake =>
    simp only [RelayAccept.step] at ht
    split at ht
    · cases ht
      exact h.setStage _ (.inl rfl)
    · cases ht
  | downstream =>
    simp only [RelayAccept.step] at ht
    split at ht
    · cases ht
      exact h.upstream s.upstreamOpen _
    · cases ht
  | closeUpstream =>
    cases ht
    exact h.upstream false s.fromUpstream

end Invariant

/-- The provider serves one peer at a time; until its turn a connection stays untouched. -/
theorem one_peer_at_a_time {ι : Type} (admits : ι → Bool) (es : List (Event ι)) :
    Along (step admits) Inv (start ι) es :=
  along_of_meets (fun _ h => h) (fun _ _ _ h _ ht => h.step ht) inv_start (meets_true _ _ es)

section Blocked

variable {ι : Type} {admits : ι → Bool} {s t : Provider ι} {c w : ℕ}

theorem StuckOn.act (h : StuckOn admits c s) (hw : w ≠ c) {enabled : PeerConn ι → Bool}
    {f : PeerConn ι → PeerConn ι} (ht : act s w enabled f = some t) : StuckOn admits c t := by
  obtain ⟨r,-,-,-,rfl⟩ := act_some ht
  obtain ⟨hserved,x,hx,hrest⟩ := h
  exact ⟨hserved,x,by simp only [Table.get_set_ne (Ne.symm hw)]; exact hx,hrest⟩

theorem StuckOn.advance (h : StuckOn admits c s) (ht : advance admits s = some t) :
    StuckOn admits c t := by
  obtain ⟨hserved,r,hr,hopen,hdone,halive,hwaits⟩ := h
  unfold RelayAccept.advance at ht
  cases hstage : s.stage with
  | handshaking d =>
    simp only [hstage,Stage.served,Option.some.injEq] at hserved ht hwaits
    subst hserved
    simp only [hr,Option.bind_some,advanceOn,hopen,hstage,hdone,Bool.false_eq_true,if_false,
      if_true,Option.some.injEq] at ht
    subst ht
    exact ⟨rfl,r,hr,hopen,hdone,halive,hwaits⟩
  | opening d =>
    simp only [hstage,Stage.served,Option.some.injEq] at hserved ht hwaits
    subst hserved
    simp only [hr,Option.bind_some,advanceOn,hopen,hstage,Bool.false_eq_true,if_false] at ht
    split at ht
    · cases ht
      exact ⟨rfl,r,hr,hopen,hdone,halive,hwaits⟩
    · cases ht
  | reading d =>
    simp only [hstage,Stage.served,Option.some.injEq] at hserved ht hwaits
    subst hserved
    simp only [hr,Option.bind_some,advanceOn,hopen,hstage,Bool.false_eq_true,if_false] at ht
    rcases hwaits with hnone | ⟨line,hline,hadmits,hwindow⟩
    · simp [hnone] at ht
    · simp only [hline,hadmits,if_true,Option.some.injEq] at ht
      subst ht
      exact ⟨rfl,r,hr,hopen,hdone,halive,hwindow⟩
  | replying d | toPeer d =>
    simp only [hstage,Stage.served,Option.some.injEq] at hserved ht hwaits
    subst hserved
    have hfull : r.window = 0 := hwaits
    simp [hr,advanceOn,hopen,hstage,hfull] at ht
  | _ =>
    rw [hstage] at hwaits
    cases hwaits

theorem StuckOn.step (h : StuckOn admits c s) (hw : w ≠ c) {e : Event ι} (he : Alone w e)
    (ht : step admits s e = some t) : StuckOn admits c t := by
  have hpeer : ∀ d, e.actor = .peer d → d ≠ c := by
    rintro d hd rfl
    rcases he with he | he | he <;> rw [hd] at he <;> cases he
    exact hw rfl
  obtain ⟨hserved,r,hr,hopen,hdone,halive,hwaits⟩ := id h
  cases e with
  | connect d keepAlive window =>
    simp only [RelayAccept.step] at ht
    split at ht
    · cases ht
    · cases ht
      have hne : c ≠ d := (hpeer d rfl).symm
      exact ⟨hserved,r,by simp only [Table.get_set_ne hne]; exact hr,hopen,hdone,halive,hwaits⟩
  | handshake d =>
    simp only [RelayAccept.step] at ht
    split at ht
    · exact h.act (hpeer d rfl) ht
    · cases ht
  | openStream d | sendLine d line | sendFrame d | grant d | close d =>
    exact h.act (hpeer d rfl) ht
  | advance => exact h.advance ht
  | expire => simp [RelayAccept.step,expire,hserved,RelayAccept.act,hr,hdone,halive] at ht
  | downstream =>
    simp only [RelayAccept.step] at ht
    split at ht
    · cases ht
      exact ⟨hserved,r,hr,hopen,hdone,halive,hwaits⟩
    · cases ht
  | closeUpstream =>
    cases ht
    exact ⟨hserved,r,hr,hopen,hdone,halive,hwaits⟩
  | accept =>
    simp only [RelayAccept.step] at ht
    split at ht
    · next hstage _ =>
      rw [hstage] at hwaits
      cases hwaits
    · cases ht
  | dial ok | register ok | relayFrame | forward ok | relayReturn | wake =>
    -- in the stages of these steps the task does not wait for its peer
    simp only [RelayAccept.step] at ht
    split at ht
    · next hstage =>
      rw [hstage] at hwaits
      cases hwaits
    · cases ht

/-- A connection that waits behind a stuck one is not registered by any steps but those of the
stuck connection. -/
theorem StuckOn.not_canRegister (h : StuckOn admits c s) (hw : w ≠ c) :
    ¬ CanRegister admits s w := by
  rintro ⟨t,hreaches,hstage⟩
  have hstuck := hreaches.invariant (I := StuckOn admits c)
    (fun _ _ _ hs he ht => hs.step hw he ht) h
  rw [StuckOn,hstage] at hstuck
  cases hstuck.1
  exact hw rfl

end Blocked

section Free

variable {ι : Type} {admits : ι → Bool} {s t u : Provider ι} {c w : ℕ} {r : PeerConn ι}

/-- The queue and its connections are as before. -/
def Aside (s t : Provider ι) : Prop :=
  t.incoming = s.incoming ∧ ∀ d ∈ s.incoming, t.conns.get d = s.conns.get d

theorem Aside.trans (h : Aside s t) (h' : Aside t u) : Aside s u :=
  ⟨h'.1.trans h.1,fun d hd => (h'.2 d (h.1 ▸ hd)).trans (h.2 d hd)⟩

theorem aside_stage (s : Provider ι) (stage : Stage) : Aside s {s with stage := stage} :=
  ⟨rfl,fun _ _ => rfl⟩

theorem aside_set (hc : c ∉ s.incoming) (x : PeerConn ι) :
    Aside s {s with conns := s.conns.set c x} := by
  refine ⟨rfl,fun d hd => Table.get_set_ne ?_⟩
  rintro rfl
  exact hc hd

variable (admits w) in
/-- The task can come back to `accept` without the other connections, leaving the queue. -/
def Clears (s : Provider ι) : Prop :=
  ∃ t, Reaches (step admits) (Alone w) s t ∧ t.stage = .accepting ∧ Aside s t

theorem Clears.head (h : Clears admits w t) (e : Event ι)
    (he : e.actor = .provider ∨ e.actor = .server) (ht : step admits s e = some t)
    (haside : Aside s t) : Clears admits w s := by
  obtain ⟨u,hreaches,hstage,hu⟩ := h
  exact ⟨u,hreaches.head e (he.elim .inl fun hs => .inr (.inl hs)) ht,hstage,haside.trans hu⟩

theorem clears_accepting (h : s.stage = .accepting) : Clears admits w s :=
  ⟨s,.refl _ _ s,h,rfl,fun _ _ => rfl⟩

theorem clears_sleeping (h : s.stage = .sleeping) : Clears admits w s :=
  (clears_accepting rfl).head .wake (.inl rfl) (by simp only [step,h,if_true])
    (aside_stage s .accepting)

theorem clears_dialling (h : s.stage = .dialling c) : Clears admits w s :=
  (clears_sleeping rfl).head (.dial false) (.inl rfl) (by simp only [step,h]; rfl)
    (aside_stage s .sleeping)

theorem clears_registering (h : s.stage = .registering c) : Clears admits w s :=
  (clears_sleeping rfl).head (.register false) (.inl rfl) (by simp only [step,h]; rfl)
    (aside_stage s .sleeping)

theorem clears_toUpstream (h : s.stage = .toUpstream c) : Clears admits w s :=
  (clears_accepting rfl).head (.forward false) (.inl rfl) (by simp only [step,h]; rfl)
    (aside_stage s .accepting)

theorem clears_relaying (h : s.stage = .relaying c) (hr : s.conns.get c = some r) :
    Clears admits w s := by
  have hdone : step admits {s with upstreamOpen := false} .advance =
      some {s with upstreamOpen := false, stage := .accepting} := by
    simp only [step,advance,h,hr,Option.bind_some,advanceOn]
    split <;> rfl
  refine Clears.head (t := {s with upstreamOpen := false}) ?_ .closeUpstream (.inr rfl) rfl
    ⟨rfl,fun _ _ => rfl⟩
  exact (clears_accepting rfl).head .advance (.inl rfl) hdone (aside_stage _ .accepting)

def Stage.awaits : Stage → Bool
  | .handshaking _ | .opening _ | .reading _ | .replying _ | .toPeer _ => true
  | _ => false

/-- The task takes up what the connection that it serves has ready. -/
theorem step_advance {stage : Stage} (h : s.stage = stage) (hserved : stage.served = some c)
    (hawaits : stage.awaits = true) (hr : s.conns.get c = some r) :
    step admits s .advance = advanceOn admits s c r := by
  subst h
  have hready : (s.conns.get c).bind (advanceOn admits s c) = advanceOn admits s c r := by
    rw [hr]
    rfl
  rw [← hready,step,advance]
  cases hstage : s.stage <;> rw [hstage] at hserved hawaits <;> cases hserved <;>
    first | rfl | cases hawaits

theorem clears_closed (hserved : s.stage.served = some c) (h : s.stage.awaits = true)
    (hr : s.conns.get c = some r) (hclosed : r.closed = true) : Clears admits w s :=
  (clears_accepting rfl).head .advance (.inl rfl)
    (by simp only [step_advance rfl hserved h hr,advanceOn,hclosed,if_true])
    (aside_stage s .accepting)

section Served

variable (hinv : Inv s) (hr : s.conns.get c = some r) (hopen : r.closed = false)
include hinv hr hopen

/-- A connection that is not kept alive is ended by the provider's timer. -/
theorem clears_expire (hserved : s.stage.served = some c) (h : s.stage.awaits = true)
    (hidle : ¬ (r.handshaken = true ∧ r.keepAlive = true)) : Clears admits w s := by
  have hexpire : step admits s .expire =
      some {s with conns := s.conns.set c {r with closed := true}} := by
    simp only [step,expire,hserved]
    exact act_of hr hopen (decide_eq_true hidle)
  refine Clears.head ?_ .expire (.inl rfl) hexpire (aside_set (hinv.served c hserved).1 _)
  exact clears_closed (r := {r with closed := true}) hserved h (Table.get_set_self _ _ _) rfl

theorem clears_replying (h : s.stage = .replying c) (hroom : r.window ≠ 0) :
    Clears admits w s := by
  have hsent : step admits s .advance = some {s with
      stage := .dialling c, conns := s.conns.set c {r with window := r.window-1}} := by
    simp [step_advance h rfl rfl hr,h,advanceOn,hopen,hroom]
  exact (clears_dialling rfl).head .advance (.inl rfl) hsent
    (aside_set (hinv.served c (by rw [h]; rfl)).1 _)

theorem clears_toPeer (h : s.stage = .toPeer c) (hroom : r.window ≠ 0) : Clears admits w s := by
  have hsent : step admits s .advance = some {s with
      stage := .relaying c, conns := s.conns.set c {r with window := r.window-1}} := by
    simp [step_advance h rfl rfl hr,h,advanceOn,hopen,hroom]
  exact (clears_relaying rfl (Table.get_set_self _ _ _)).head .advance (.inl rfl) hsent
    (aside_set (hinv.served c (by rw [h]; rfl)).1 _)

variable {line : ι} (hline : r.line = some line) (hroom : admits line = true → r.window ≠ 0)
include hline hroom

/-- A line that is there is read; a valid one is answered if the answer fits. -/
theorem clears_reading (h : s.stage = .reading c) : Clears admits w s := by
  have hread : step admits s .advance =
      some {s with stage := if admits line then .replying c else .accepting} := by
    simp [step_advance h rfl rfl hr,h,advanceOn,hopen,hline]
  refine Clears.head ?_ .advance (.inl rfl) hread (aside_stage s _)
  by_cases hadmits : admits line = true
  · simp only [hadmits,if_true]
    exact clears_replying (hinv.setStage _ (.inr (by rw [h]; rfl))) hr hopen rfl (hroom hadmits)
  · simp only [hadmits,if_false,Bool.false_eq_true]
    exact clears_accepting rfl

theorem clears_opening (h : s.stage = .opening c) : Clears admits w s := by
  have hstream : r.stream = true := hinv.opened c r hr (by simp [hline])
  have hopened : step admits s .advance = some {s with stage := .reading c} := by
    simp [step_advance h rfl rfl hr,h,advanceOn,hopen,hstream]
  refine Clears.head ?_ .advance (.inl rfl) hopened (aside_stage s _)
  exact clears_reading (hinv.setStage _ (.inr (by rw [h]; rfl))) hr hopen hline hroom rfl

theorem clears_handshaking (h : s.stage = .handshaking c) (hdone : r.handshaken = true) :
    Clears admits w s := by
  have hshaken : step admits s .advance = some {s with stage := .opening c} := by
    simp [step_advance h rfl rfl hr,h,advanceOn,hopen,hdone]
  refine Clears.head ?_ .advance (.inl rfl) hshaken (aside_stage s _)
  exact clears_opening (hinv.setStage _ (.inr (by rw [h]; rfl))) hr hopen hline hroom rfl

end Served

/-- If the peer is not waited for in vain, its line is there and can be answered. -/
theorem line_of_not_waits (h : ¬ (r.line = none ∨ ∃ line, r.line = some line ∧
    admits line = true ∧ r.window = 0)) :
    ∃ line, r.line = some line ∧ (admits line = true → r.window ≠ 0) := by
  simp only [not_or,not_exists,not_and] at h
  obtain ⟨line,hline⟩ := Option.ne_none_iff_exists'.mp h.1
  exact ⟨line,hline,h.2 line hline⟩

/-- A connection that was closed or is not kept alive clears the task by itself. -/
theorem clears_awaiting (hinv : Inv s) (hserved : s.stage.served = some c)
    (h : s.stage.awaits = true) (hr : s.conns.get c = some r)
    (hkept : r.closed = false → r.handshaken = true → r.keepAlive = true → Clears admits w s) :
    Clears admits w s := by
  by_cases hclosed : r.closed = true
  · exact clears_closed hserved h hr hclosed
  · rw [Bool.not_eq_true] at hclosed
    by_cases hidle : r.handshaken = true ∧ r.keepAlive = true
    · exact hkept hclosed hidle.1 hidle.2
    · exact clears_expire hinv hr hclosed hserved h hidle

/-- Unless it is stuck, the task can come back to `accept`. -/
theorem clears_of_not_stuck (hinv : Inv s) (hfree : ∀ c, ¬ StuckOn admits c s) :
    Clears admits w s := by
  have hawait : ∀ c stage, s.stage = stage → stage.served = some c → stage.awaits = true →
      (∀ r, s.conns.get c = some r → r.closed = false → r.handshaken = true →
        ¬ Waits admits stage r → Clears admits w s) → Clears admits w s := by
    rintro c _ rfl hserved hawaits hclears
    obtain ⟨-,r,hr⟩ := hinv.served c hserved
    refine clears_awaiting hinv hserved hawaits hr fun hopen hdone halive => ?_
    exact hclears r hr hopen hdone fun hwaits =>
      hfree c ⟨hserved,r,hr,hopen,hdone,halive,hwaits⟩
  cases hstage : s.stage with
  | accepting => exact clears_accepting hstage
  | sleeping => exact clears_sleeping hstage
  | dialling c => exact clears_dialling hstage
  | registering c => exact clears_registering hstage
  | toUpstream c => exact clears_toUpstream hstage
  | relaying c =>
    obtain ⟨-,r,hr⟩ := hinv.served c (by rw [hstage]; rfl)
    exact clears_relaying hstage hr
  | handshaking c =>
    refine hawait c _ hstage rfl rfl fun r hr hopen hdone hwaits => ?_
    obtain ⟨line,hline,hroom⟩ := line_of_not_waits hwaits
    exact clears_handshaking hinv hr hopen hline hroom hstage hdone
  | opening c =>
    refine hawait c _ hstage rfl rfl fun r hr hopen _ hwaits => ?_
    obtain ⟨line,hline,hroom⟩ := line_of_not_waits hwaits
    exact clears_opening hinv hr hopen hline hroom hstage
  | reading c =>
    refine hawait c _ hstage rfl rfl fun r hr hopen _ hwaits => ?_
    obtain ⟨line,hline,hroom⟩ := line_of_not_waits hwaits
    exact clears_reading hinv hr hopen hline hroom hstage
  | replying c =>
    refine hawait c _ hstage rfl rfl fun r hr hopen _ hwaits => ?_
    exact clears_replying hinv hr hopen hstage hwaits
  | toPeer c =>
    refine hawait c _ hstage rfl rfl fun r hr hopen _ hwaits => ?_
    exact clears_toPeer hinv hr hopen hstage hwaits

variable (admits) in
theorem reaches_front (hinv : Inv s) (hstage : s.stage = .accepting) {before rest : List ℕ}
    (hqueue : s.incoming = before++w::rest) :
    ∃ t, Reaches (step admits) (Alone w) s t ∧ t.stage = .accepting ∧ t.incoming = w::rest ∧
      t.conns.get w = s.conns.get w ∧ Inv t := by
  induction before generalizing s with
  | nil => exact ⟨s,.refl _ _ s,hstage,hqueue,rfl,hinv⟩
  | cons c before ih =>
    have haccept : step admits s .accept =
        some {s with incoming := before++w::rest, stage := .handshaking c} := by
      simp only [step,hstage,hqueue,List.cons_append]
    have hnext := hinv.step haccept
    obtain ⟨r,hr,huntouched⟩ := hinv.waiting c (by simp [hqueue])
    have hclear : Clears admits w {s with incoming := before++w::rest, stage := .handshaking c} :=
      clears_awaiting hnext rfl rfl hr fun _ hdone => by simp [huntouched.1] at hdone
    obtain ⟨t,hreaches,hback,haside⟩ := hclear
    have hinvt := hreaches.invariant (I := Inv) (fun _ _ _ hs _ hu => hs.step hu) hnext
    obtain ⟨u,hu,hustage,huqueue,hget,hinvu⟩ := ih hinvt hback haside.1
    refine ⟨u,(hreaches.trans hu).head .accept (.inl rfl) haccept,hustage,huqueue,?_,hinvu⟩
    rw [hget,haside.2 w (by simp)]

theorem CanRegister.head (h : CanRegister admits t w) (e : Event ι) (he : Alone w e)
    (ht : step admits s e = some t) : CanRegister admits s w := by
  obtain ⟨u,hreaches,hstage⟩ := h
  exact ⟨u,hreaches.head e he ht,hstage⟩

theorem canRegister_dialling (h : s.stage = .dialling w) : CanRegister admits s w := by
  have hregister : CanRegister admits
      {s with stage := .registering w, upstreamOpen := true, fromUpstream := 0} w :=
    CanRegister.head ⟨_,.refl _ _ _,rfl⟩ (.register true) (.inl rfl) rfl
  exact hregister.head (.dial true) (.inl rfl) (by simp only [step,h]; rfl)

/-- The peer acts on its connection and the task takes that up. -/
theorem CanRegister.takeUp (h : CanRegister admits t w) {stage : Stage} (hstage : s.stage = stage)
    (hserved : stage.served = some w) (hawaits : stage.awaits = true) (e : Event ι)
    (he : e.actor = .peer w) (hact : step admits s e = some {s with conns := s.conns.set w r})
    (ht : advanceOn admits {s with conns := s.conns.set w r} w r = some t) :
    CanRegister admits s w := by
  have htaken := (step_advance (s := {s with conns := s.conns.set w r}) hstage hserved hawaits
    (Table.get_set_self _ _ _)).trans ht
  exact (h.head .advance (.inl rfl) htaken).head e (.inr (.inr he)) hact

section Taken

variable (hr : s.conns.get w = some r) (hopen : r.closed = false)
include hr hopen

theorem canRegister_replying (h : s.stage = .replying w) (hdone : r.handshaken = true) :
    CanRegister admits s w :=
  (canRegister_dialling rfl).takeUp h rfl rfl (.grant w) rfl (act_of hr hopen hdone)
    (by simp [h,advanceOn,hopen]; rfl)

variable (hnone : r.line = none) {line : ι} (hline : admits line = true)
include hnone hline

theorem canRegister_reading (h : s.stage = .reading w) (hdone : r.handshaken = true)
    (hstream : r.stream = true) : CanRegister admits s w := by
  have hlined : CanRegister admits
      {s with stage := .replying w, conns := s.conns.set w {r with line := some line}} w :=
    canRegister_replying (Table.get_set_self _ _ _) hopen rfl hdone
  exact hlined.takeUp h rfl rfl (.sendLine w line) rfl (act_of hr hopen (by simp [hstream,hnone]))
    (by simp [h,advanceOn,hopen,hline])

theorem canRegister_opening (h : s.stage = .opening w) (hdone : r.handshaken = true) :
    CanRegister admits s w := by
  have hopened := canRegister_reading
    (s := {s with stage := .reading w, conns := s.conns.set w {r with stream := true}})
    (Table.get_set_self _ _ _) hopen hnone hline rfl hdone rfl
  exact hopened.takeUp h rfl rfl (.openStream w) rfl (act_of hr hopen hdone)
    (by simp [h,advanceOn,hopen])

theorem canRegister_handshaking (h : s.stage = .handshaking w) : CanRegister admits s w := by
  have hshaken := canRegister_opening
    (s := {s with stage := .opening w, conns := s.conns.set w {r with handshaken := true}})
    (Table.get_set_self _ _ _) hopen hnone hline rfl rfl
  exact hshaken.takeUp h rfl rfl (.handshake w) rfl ((if_pos h).trans (act_of hr hopen rfl))
    (by simp [h,advanceOn,hopen])

end Taken

theorem front_canRegister (hinv : Inv s) (hstage : s.stage = .accepting) {rest : List ℕ}
    (hqueue : s.incoming = w::rest) (hr : s.conns.get w = some r) (hopen : r.closed = false)
    {line : ι} (hline : admits line = true) : CanRegister admits s w := by
  obtain ⟨x,hx,-,-,hnone⟩ := hinv.waiting w (by simp [hqueue])
  obtain rfl : r = x := by simpa [hr] using hx
  have haccept : step admits s .accept =
      some {s with incoming := rest, stage := .handshaking w} := by
    simp only [step,hstage,hqueue]
  refine CanRegister.head ?_ .accept (.inl rfl) haccept
  exact canRegister_handshaking hr hopen hnone hline rfl

end Free

/-- A relay runs for connection 0, which is idle; connection 1 waits. The task selects on both
ends of the relay, and the server can end it. -/
def duringRelay : List (Event Bool) :=
  [.connect 0 true 1,.accept,.handshake 0,.advance,.openStream 0,.advance,.sendLine 0 true,.advance,
    .advance,.dial true,.register true,.connect 1 true 1]

/-- Connection 0 completes the handshake, and its stack keeps it alive, but it opens no stream;
connection 1 waits. -/
def behindSilent : List (Event Bool) :=
  [.connect 0 true 1,.accept,.handshake 0,.advance,.connect 1 true 1]

end Bonded.RelayAccept
