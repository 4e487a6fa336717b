import Bonded.Machine
import Mathlib.Data.Finset.Erase
import Mathlib.Data.Finset.Insert

/-! The browse task of peer sharing and the relay transports it hands to the packet loop. The
task dials a discovered peer unless it has a relay to it; a relay reports over a channel that
it was closed. What the model adds to the code's data is history and is named as such. -/
namespace Bonded.PeerRelays

open Machine

structure PeerShareAdvertisement where
  devicePublicKey : String
  serverPublicKey : String
  instanceNonce : String
  deriving DecidableEq, Repr

def shouldAcceptDiscoveredPeer (advertisement : PeerShareAdvertisement)
    (expectedServerPublicKey selfPublicKey : String) : Bool :=
  advertisement.serverPublicKey = expectedServerPublicKey ∧
    advertisement.devicePublicKey ≠ selfPublicKey

def peerIdOf (advertisement : PeerShareAdvertisement) : String :=
  advertisement.devicePublicKey++":"++advertisement.instanceNonce

/-- A relay transport of the packet loop. `closeNotifier` says whether it still holds its
sender. History: how often it has reported that it was closed, and whether the browse task
has processed the report. -/
structure PeerRelay where
  peerId : String
  closeNotifier : Bool
  dropped : Bool
  notices : ℕ
  processed : Bool
  deriving DecidableEq, Repr

/-- What the packet loop does with a relay, with the result of the transport underneath. -/
inductive Call
  | send (ok : Bool)
  | recv (ok : Bool)
  | close
  deriving DecidableEq, Repr

/-- The sender is taken out of its field, so only the first call sends. -/
def notifyPeerRelayClosed (r : PeerRelay) : PeerRelay × Option String :=
  if r.closeNotifier then ({r with closeNotifier := false, notices := r.notices+1},some r.peerId)
  else (r,none)

/-- The relay after a call, and the message it sends. -/
def call (r : PeerRelay) : Call → PeerRelay × Option String
  | .send ok => if ok then (r,none) else notifyPeerRelayClosed r
  | .recv ok => if ok then (r,none) else notifyPeerRelayClosed r
  | .close => notifyPeerRelayClosed r

/-- Where the browse task is: in its `select!`, before the test of `connectedPeers`, waiting
for the introduction or for the dial, before and after the hand-out, asleep after a failure,
or over. -/
inductive Browse
  | selecting
  | testing (peerId : String)
  | requesting (peerId : String)
  | dialing (peerId : String)
  | handing (peerId : String)
  | inserting (peerId : String)
  | sleeping
  | stopped
  deriving DecidableEq, Repr

/-- A message of the channel; the relay that sent it is history. -/
structure Notice where
  peerId : String
  relay : ℕ
  deriving DecidableEq, Repr

/-- `receiving` says whether the packet loop still has the receiver for new transports. -/
structure Runtime where
  task : Browse
  connectedPeers : Finset String
  closedPeers : List Notice
  relays : List PeerRelay
  receiving : Bool

def start : Runtime := ⟨.selecting,∅,[],[],true⟩

inductive Event
  | discovered (advertisement : PeerShareAdvertisement)
  | browserStopped
  | pathClosed
  | test
  | introduction (ok : Bool)
  | dial (ok : Bool)
  | handOut
  | insert
  | wake
  | abort
  | use (relay : ℕ) (c : Call)
  | drop (relay : ℕ)
  | dropReceiver
  deriving DecidableEq, Repr

def fresh (peerId : String) : PeerRelay := ⟨peerId,true,false,0,false⟩

/-- The close notification at the head of the channel. -/
def pathClosed (s : Runtime) : Option Runtime :=
  match s.closedPeers with
  | [] => none
  | notice::rest => some {s with
      connectedPeers := s.connectedPeers.erase notice.peerId
      closedPeers := rest
      relays := s.relays.modify notice.relay fun r => {r with processed := true}}

/-- The receiver of the channel belongs to the task; a message to a task that is over is
lost. -/
def deliver (s : Runtime) (relay : ℕ) : Option String → List Notice
  | some peerId => if s.task = .stopped then s.closedPeers else s.closedPeers++[⟨peerId,relay⟩]
  | none => s.closedPeers

/-- A relay that was not dropped is used by its owner. -/
def useRelay (s : Runtime) (i : ℕ) (c : Call) : Option Runtime :=
  match s.relays[i]? with
  | none => none
  | some r =>
    if r.dropped then none
    else some {s with
      relays := s.relays.set i (call r c).1
      closedPeers := deliver s i (call r c).2}

def step (serverKey selfKey : String) (s : Runtime) : Event → Option Runtime
  | .discovered advertisement =>
    if s.task = .selecting then
      if shouldAcceptDiscoveredPeer advertisement serverKey selfKey then
        some {s with task := .testing (peerIdOf advertisement)}
      else some s
    else none
  | .browserStopped => if s.task = .selecting then some {s with task := .stopped} else none
  | .pathClosed => if s.task = .selecting then pathClosed s else none
  | .test =>
    match s.task with
    | .testing p =>
      if p ∈ s.connectedPeers then some {s with task := .selecting}
      else some {s with task := .requesting p}
    | _ => none
  | .introduction ok =>
    match s.task with
    | .requesting p => some {s with task := if ok then .dialing p else .sleeping}
    | _ => none
  | .dial ok =>
    match s.task with
    | .dialing p => some {s with task := if ok then .handing p else .sleeping}
    | _ => none
  | .handOut =>
    match s.task with
    | .handing p =>
      if s.receiving then some {s with task := .inserting p, relays := s.relays++[fresh p]}
      else some {s with task := .stopped}
    | _ => none
  | .insert =>
    match s.task with
    | .inserting p =>
      some {s with task := .selecting, connectedPeers := insert p s.connectedPeers}
    | _ => none
  | .wake => if s.task = .sleeping then some {s with task := .selecting} else none
  | .abort =>
    -- a task is aborted where it waits
    match s.task with
    | .selecting | .requesting _ | .dialing _ | .sleeping => some {s with task := .stopped}
    | _ => none
  | .use i c => useRelay s i c
  | .drop i =>
    if (s.relays[i]?).any fun r => ¬ r.dropped then
      some {s with relays := s.relays.modify i fun r => {r with dropped := true}}
    else none
  | .dropReceiver => some {s with receiving := false}

/-- The task is on its way from the test to the hand-out of a relay. -/
def Browse.dials : Browse → String → Prop
  | .requesting p, q | .dialing p, q | .handing p, q => p = q
  | _, _ => False

/-- What the bookkeeping is for: of the relays of a peer at most one has not reported that it
was closed, and none reports twice; the test of `connectedPeers` finds the peers with a relay
whose report was not processed, so a peer is dialled only when there is none. -/
structure Bookkept (s : Runtime) : Prop where
  oneOpen : ∀ (i j : ℕ) r r', s.relays[i]? = some r → s.relays[j]? = some r' →
    r.peerId = r'.peerId → r.notices = 0 → r'.notices = 0 → i = j
  noticesOnce : ∀ r ∈ s.relays, r.notices ≤ 1
  tested : ∀ q, s.task = .testing q → ∀ p, p ∈ s.connectedPeers ↔
    ∃ r ∈ s.relays, r.peerId = p ∧ r.processed = false
  dialled : ∀ p, s.task.dials p → ∀ r ∈ s.relays, r.peerId = p → r.processed = true

/-- The peers that the task takes as connected, with the one it has just handed out. -/
def known (s : Runtime) : Finset String :=
  match s.task with
  | .inserting p => insert p s.connectedPeers
  | _ => s.connectedPeers

def Reported (r : PeerRelay) : Prop :=
  r.closeNotifier = true ∧ r.notices = 0 ∧ r.processed = false ∨
    r.closeNotifier = false ∧ r.notices = 1

structure Inv (s : Runtime) : Prop where
  reported : ∀ r ∈ s.relays, Reported r
  single : ∀ (i j : ℕ) r r', s.relays[i]? = some r → s.relays[j]? = some r' →
    r.peerId = r'.peerId → r.processed = false → r'.processed = false → i = j
  member : ∀ p, p ∈ known s ↔ ∃ r ∈ s.relays, r.peerId = p ∧ r.processed = false
  busy : ∀ p, s.task.dials p → p ∉ s.connectedPeers
  queued : ∀ n ∈ s.closedPeers, ∃ r, s.relays[n.relay]? = some r ∧ r.peerId = n.peerId ∧
    r.closeNotifier = false ∧ r.processed = false
  distinct : (s.closedPeers.map Notice.relay).Nodup
  pending : s.task ≠ .stopped → ∀ (i : ℕ) r, s.relays[i]? = some r → r.closeNotifier = false →
    r.processed = false → ∃ n ∈ s.closedPeers, n.relay = i

theorem inv_start : Inv start := by
  constructor <;> simp [start,known,Browse.dials]

section Moves

variable {s : Runtime}

theorem known_of_dials {p : String} (h : s.task.dials p) : known s = s.connectedPeers := by
  unfold known
  cases htask : s.task with
  | inserting q => simp [htask,Browse.dials] at h
  | _ => rfl

theorem Inv.bookkept (h : Inv s) : Bookkept s := by
  have hopen : ∀ (i : ℕ) r, s.relays[i]? = some r → r.notices = 0 → r.processed = false := by
    intro i r hi hzero
    rcases h.reported r (List.mem_of_getElem? hi) with ⟨-,-,hp⟩ | ⟨-,hone⟩
    · exact hp
    · omega
  refine ⟨?_,?_,?_,?_⟩
  · intro i j r r' hi hj hpeer hzero hzero'
    exact h.single i j r r' hi hj hpeer (hopen i r hi hzero) (hopen j r' hj hzero')
  · intro r hr
    rcases h.reported r hr with ⟨-,hzero,-⟩ | ⟨-,hone⟩ <;> omega
  · intro q htask p
    have hmember := h.member p
    simpa [known,htask] using hmember
  · intro p hdials r hr hpeer
    by_contra hopen
    refine h.busy p hdials ?_
    rw [← known_of_dials hdials]
    exact (h.member p).mpr ⟨r,hr,hpeer,by simpa using hopen⟩

theorem Inv.moves (h : Inv s) (task : Browse) (hstopped : s.task ≠ .stopped)
    (hknown : known {s with task := task} = known s)
    (hbusy : ∀ p, task.dials p → p ∉ s.connectedPeers) : Inv {s with task := task} :=
  ⟨h.reported,h.single,fun p => by rw [hknown]; exact h.member p,hbusy,h.queued,h.distinct,
    fun _ => h.pending hstopped⟩

/-- A place where the task dials nobody and has handed nothing out. -/
def Browse.resting : Browse → Bool
  | .requesting _ | .dialing _ | .handing _ | .inserting _ => false
  | _ => true

/-- A place that the task leaves with nothing handed out. -/
def Browse.emptyHanded : Browse → Bool
  | .inserting _ | .stopped => false
  | _ => true

theorem known_of_ne_inserting (hs : ∀ p, s.task ≠ .inserting p) : known s = s.connectedPeers := by
  unfold known
  cases htask : s.task with
  | inserting p => exact absurd htask (hs p)
  | _ => rfl

theorem Inv.rests (h : Inv s) {place task : Browse} (htask : s.task = place)
    (hplace : place.emptyHanded = true) (hrest : task.resting = true) :
    Inv {s with task := task} := by
  subst htask
  refine h.moves task ?_ ?_ ?_
  · intro hstopped
    rw [hstopped] at hplace
    cases hplace
  · have hfrom : ∀ p, s.task ≠ .inserting p := by
      intro p hp
      rw [hp] at hplace
      cases hplace
    have hto : ∀ p, task ≠ .inserting p := by
      rintro p rfl
      cases hrest
    rw [known_of_ne_inserting hfrom,known_of_ne_inserting hto]
  · intro p hp
    cases task with
    | requesting | dialing | handing => cases hrest
    | _ => cases hp

end Moves

section Relays

variable {s : Runtime}

variable {i : ℕ} {l : List PeerRelay} {r : PeerRelay}

theorem getElem?_set_of (h : l[i]? = some r) (r' : PeerRelay) (j : ℕ) :
    (l.set i r')[j]? = if j = i then some r' else l[j]? := by
  have hlt := (List.getElem?_eq_some_iff.mp h).1
  rw [List.getElem?_set]
  by_cases hj : j = i
  · simp [hj,hlt]
  · simp [hj,Ne.symm hj]

theorem modify_of (h : l[i]? = some r) (f : PeerRelay → PeerRelay) :
    l.modify i f = l.set i (f r) := by
  refine List.ext_getElem? fun j => ?_
  rw [List.getElem?_modify,getElem?_set_of h]
  by_cases hj : j = i
  · simp [hj,h]
  · simp [hj,Ne.symm hj]

/-- One relay changes, but neither its peer nor whether its report was processed. -/
theorem mem_set_open {r' : PeerRelay} (hi : l[i]? = some r) (hpeer : r'.peerId = r.peerId)
    (hproc : r'.processed = r.processed) (p : String) :
    (∃ x ∈ l.set i r', x.peerId = p ∧ x.processed = false) ↔
      ∃ x ∈ l, x.peerId = p ∧ x.processed = false := by
  simp only [List.mem_iff_getElem?]
  constructor
  · rintro ⟨x,⟨j,hj⟩,hx⟩
    rw [getElem?_set_of hi] at hj
    split at hj
    · cases hj
      exact ⟨r,⟨i,hi⟩,hpeer ▸ hx.1,hproc ▸ hx.2⟩
    · exact ⟨x,⟨j,hj⟩,hx⟩
  · rintro ⟨x,⟨j,hj⟩,hx⟩
    by_cases hji : j = i
    · subst hji
      rw [hi] at hj
      cases hj
      exact ⟨r',⟨j,by rw [getElem?_set_of hi,if_pos rfl]⟩,hpeer ▸ hx.1,hproc ▸ hx.2⟩
    · exact ⟨x,⟨j,by rw [getElem?_set_of hi,if_neg hji]; exact hj⟩,hx⟩

/-- A relay and the queue change; what is left to show is that they still match. -/
theorem Inv.setRelay (h : Inv s) (hi : s.relays[i]? = some r) (r' : PeerRelay)
    (hpeer : r'.peerId = r.peerId) (hproc : r'.processed = r.processed) (hreported : Reported r')
    {closed : List Notice}
    (hqueued : ∀ n ∈ closed, ∃ x, (s.relays.set i r')[n.relay]? = some x ∧ x.peerId = n.peerId ∧
      x.closeNotifier = false ∧ x.processed = false) (hdistinct : (closed.map Notice.relay).Nodup)
    (hpending : s.task ≠ .stopped → ∀ (j : ℕ) x, (s.relays.set i r')[j]? = some x →
      x.closeNotifier = false → x.processed = false → ∃ n ∈ closed, n.relay = j) :
    Inv {s with relays := s.relays.set i r', closedPeers := closed} := by
  have hview : ∀ (j : ℕ) x, (s.relays.set i r')[j]? = some x → ∃ y, s.relays[j]? = some y ∧
      x.peerId = y.peerId ∧ x.processed = y.processed := by
    intro j x hj
    rw [getElem?_set_of hi] at hj
    split at hj
    · next hji =>
      subst hji
      cases hj
      exact ⟨r,hi,hpeer,hproc⟩
    · exact ⟨x,hj,rfl,rfl⟩
  refine ⟨?_,?_,?_,h.busy,hqueued,hdistinct,hpending⟩
  · intro x hx
    rcases List.mem_or_eq_of_mem_set hx with hx | rfl
    · exact h.reported x hx
    · exact hreported
  · intro j k x y hj hk hxy hx hy
    obtain ⟨x',hx',hpx,hqx⟩ := hview j x hj
    obtain ⟨y',hy',hpy,hqy⟩ := hview k y hk
    exact h.single j k x' y' hx' hy' (by rw [← hpx,← hpy,hxy]) (hqx ▸ hx) (hqy ▸ hy)
  · intro p
    rw [mem_set_open hi hpeer hproc]
    exact h.member p

theorem Inv.notice_ne (h : Inv s) (hi : s.relays[i]? = some r) (hopen : r.closeNotifier = true)
    {n : Notice} (hn : n ∈ s.closedPeers) : n.relay ≠ i := by
  rintro rfl
  obtain ⟨x,hx,-,hclosed,-⟩ := h.queued n hn
  rw [hi] at hx
  cases hx
  simp [hopen] at hclosed

theorem Inv.dropRelay (h : Inv s) (hi : s.relays[i]? = some r) :
    Inv {s with relays := s.relays.set i {r with dropped := true}} := by
  refine h.setRelay hi {r with dropped := true} rfl rfl (h.reported r (List.mem_of_getElem? hi)) ?_
    h.distinct ?_
  · intro n hn
    obtain ⟨x,hx,hrest⟩ := h.queued n hn
    rw [getElem?_set_of hi]
    split
    · next hni =>
      rw [hni,hi] at hx
      cases hx
      exact ⟨_,rfl,hrest⟩
    · exact ⟨x,hx,hrest⟩
  · intro hrun j x hj hclosed hproc
    rw [getElem?_set_of hi] at hj
    split at hj
    · next hji =>
      cases hj
      exact h.pending hrun j r (hji ▸ hi) hclosed hproc
    · exact h.pending hrun j x hj hclosed hproc

theorem Inv.notify (h : Inv s) (hi : s.relays[i]? = some r) (hopen : r.closeNotifier = true) :
    Inv {s with
      relays := s.relays.set i {r with closeNotifier := false, notices := r.notices+1}
      closedPeers := deliver s i (some r.peerId)} := by
  have hr : r.notices = 0 ∧ r.processed = false := by
    rcases h.reported r (List.mem_of_getElem? hi) with ⟨-,hrest⟩ | ⟨hclosed,-⟩
    · exact hrest
    · simp [hopen] at hclosed
  have hself := getElem?_set_of hi {r with closeNotifier := false, notices := r.notices+1}
  have hold : ∀ n ∈ s.closedPeers, ∃ x,
      (s.relays.set i {r with closeNotifier := false, notices := r.notices+1})[n.relay]? = some x ∧
        x.peerId = n.peerId ∧ x.closeNotifier = false ∧ x.processed = false := by
    intro n hn
    rw [hself,if_neg (h.notice_ne hi hopen hn)]
    exact h.queued n hn
  refine h.setRelay hi {r with closeNotifier := false, notices := r.notices+1} rfl rfl
    (.inr ⟨rfl,by simp [hr.1]⟩) ?_ ?_ ?_
  · intro n hn
    simp only [deliver] at hn
    split at hn
    · exact hold n hn
    · rcases List.mem_append.mp hn with hn | hn
      · exact hold n hn
      · rw [List.mem_singleton.mp hn]
        exact ⟨{r with closeNotifier := false, notices := r.notices+1},by rw [hself,if_pos rfl],rfl,
          rfl,hr.2⟩
  · simp only [deliver]
    split
    · exact h.distinct
    · rw [List.map_append,List.nodup_append]
      refine ⟨h.distinct,by simp,?_⟩
      rintro _ hn _ hi' rfl
      obtain ⟨n,hmem,rfl⟩ := List.mem_map.mp hn
      exact h.notice_ne hi hopen hmem (by simpa using hi')
  · intro hrun j x hj hclosed hproc
    simp only [deliver,if_neg hrun]
    rw [hself] at hj
    split at hj
    · next hji => exact ⟨_,List.mem_append_right _ (List.mem_singleton.mpr rfl),hji.symm⟩
    · obtain ⟨n,hn,hni⟩ := h.pending hrun j x hj hclosed hproc
      exact ⟨n,List.mem_append_left _ hn,hni⟩

theorem set_self (h : l[i]? = some r) : l.set i r = l := by
  refine List.ext_getElem? fun j => ?_
  rw [getElem?_set_of h]
  split
  · next hj => rw [hj,h]
  · rfl

theorem Inv.useRelay (h : Inv s) {c : Call} {t : Runtime} (ht : useRelay s i c = some t) :
    Inv t := by
  have hnotify : ∀ r, s.relays[i]? = some r → Inv {s with
      relays := s.relays.set i (notifyPeerRelayClosed r).1
      closedPeers := deliver s i (notifyPeerRelayClosed r).2} := by
    intro r hi
    unfold notifyPeerRelayClosed
    split
    · next hopen => exact h.notify hi hopen
    · rw [set_self hi]
      exact h
  unfold PeerRelays.useRelay at ht
  split at ht
  · cases ht
  · next r hi =>
    split at ht
    · cases ht
    · cases ht
      cases c with
      | close => exact hnotify r hi
      | send ok | recv ok =>
        cases ok with
        | false => exact hnotify r hi
        | true =>
          simp only [call,if_true,set_self hi]
          exact h

end Relays

section Task

variable {s : Runtime} {p : String}

theorem Inv.handOut (h : Inv s) (htask : s.task = .handing p) :
    Inv {s with task := .inserting p, relays := s.relays++[fresh p]} := by
  have hnone : ∀ r ∈ s.relays, r.peerId = p → r.processed = true :=
    h.bookkept.dialled p (by simp [htask,Browse.dials])
  have hknown : known s = s.connectedPeers := by simp [known,htask]
  have hget : ∀ (i : ℕ) r, (s.relays++[fresh p])[i]? = some r →
      s.relays[i]? = some r ∨ i = s.relays.length ∧ r = fresh p := by
    intro i r hi
    rcases Nat.lt_or_ge i s.relays.length with hlt | hge
    · rw [List.getElem?_append_left hlt] at hi
      exact .inl hi
    · rw [List.getElem?_append_right hge] at hi
      obtain ⟨hzero,rfl⟩ := List.getElem?_eq_some_iff.mp hi
      simp only [List.length_singleton,Nat.lt_one_iff] at hzero
      exact .inr ⟨by omega,by simp⟩
  have hold : ∀ (i : ℕ) r, s.relays[i]? = some r → r.processed = false → r.peerId ≠ p := by
    intro i r hi hproc hpeer
    simp [hnone r (List.mem_of_getElem? hi) hpeer] at hproc
  refine ⟨?_,?_,?_,?_,?_,h.distinct,?_⟩
  · intro r hr
    rcases List.mem_append.mp hr with hr | hr
    · exact h.reported r hr
    · rw [List.mem_singleton.mp hr]
      exact .inl ⟨rfl,rfl,rfl⟩
  · intro i j r r' hi hj hpeer hr hr'
    rcases hget i r hi with hi | ⟨rfl,rfl⟩
    · rcases hget j r' hj with hj | ⟨rfl,rfl⟩
      · exact h.single i j r r' hi hj hpeer hr hr'
      · exact absurd hpeer (hold i r hi hr)
    · rcases hget j r' hj with hj | ⟨rfl,rfl⟩
      · exact absurd hpeer.symm (hold j r' hj hr')
      · rfl
  · intro q
    have hmember := h.member q
    rw [hknown] at hmember
    simp only [known,Finset.mem_insert,List.mem_append,List.mem_singleton,hmember]
    constructor
    · rintro (rfl | ⟨r,hr,hrest⟩)
      · exact ⟨_,.inr rfl,rfl,rfl⟩
      · exact ⟨r,.inl hr,hrest⟩
    · rintro ⟨r,hr | rfl,hpeer,hproc⟩
      · exact .inr ⟨r,hr,hpeer,hproc⟩
      · exact .inl hpeer.symm
  · intro q hq
    simp [Browse.dials] at hq
  · intro n hn
    obtain ⟨r,hr,hrest⟩ := h.queued n hn
    refine ⟨r,?_,hrest⟩
    rw [List.getElem?_append_left (List.getElem?_eq_some_iff.mp hr).1]
    exact hr
  · intro _ i r hi hclosed hproc
    rcases hget i r hi with hi | ⟨-,rfl⟩
    · exact h.pending (by simp [htask]) i r hi hclosed hproc
    · simp [fresh] at hclosed

theorem Inv.insert (h : Inv s) (htask : s.task = .inserting p) :
    Inv {s with task := .selecting, connectedPeers := insert p s.connectedPeers} := by
  refine ⟨h.reported,h.single,?_,?_,h.queued,h.distinct,fun _ => h.pending (by simp [htask])⟩
  · intro q
    have hmember := h.member q
    simpa [known,htask] using hmember
  · intro q hq
    simp [Browse.dials] at hq

/-- Processing a notice: its relay was the only one of the peer that counted. -/
theorem Inv.pathClosed (h : Inv s) (htask : s.task = .selecting) {t : Runtime}
    (ht : pathClosed s = some t) : Inv t ∧ t.task = .selecting := by
  unfold PeerRelays.pathClosed at ht
  split at ht
  · cases ht
  · next n rest hqueue =>
    cases ht
    refine ⟨?_,htask⟩
    obtain ⟨r,hr,hpeer,hclosed,hproc⟩ := h.queued n (by simp [hqueue])
    have hdistinct := h.distinct
    rw [hqueue,List.map_cons,List.nodup_cons] at hdistinct
    rw [modify_of hr]
    have hset := getElem?_set_of hr {r with processed := true}
    have hget : ∀ (j : ℕ) x, (s.relays.set n.relay {r with processed := true})[j]? = some x →
        x.processed = false → j ≠ n.relay ∧ s.relays[j]? = some x := by
      intro j x hj hx
      rw [hset] at hj
      split at hj
      · cases hj
        cases hx
      · next hne => exact ⟨hne,hj⟩
    have hkeep : ∀ (j : ℕ) x, j ≠ n.relay → s.relays[j]? = some x →
        (s.relays.set n.relay {r with processed := true})[j]? = some x := by
      intro j x hj hx
      rw [hset,if_neg hj]
      exact hx
    have hmember := h.member
    simp only [known,htask] at hmember
    refine ⟨?_,?_,?_,?_,?_,hdistinct.2,?_⟩
    · intro x hx
      rcases List.mem_or_eq_of_mem_set hx with hx | rfl
      · exact h.reported x hx
      · rcases h.reported r (List.mem_of_getElem? hr) with ⟨hopen,-⟩ | hdone
        · simp [hclosed] at hopen
        · exact .inr hdone
    · intro i j x y hi hj hxy hx hy
      exact h.single i j x y (hget i x hi hx).2 (hget j y hj hy).2 hxy hx hy
    · intro q
      simp only [known,htask,Finset.mem_erase,hmember q,List.mem_iff_getElem?]
      constructor
      · rintro ⟨hne,x,⟨j,hj⟩,hxq,hx⟩
        refine ⟨x,⟨j,hkeep j x ?_ hj⟩,hxq,hx⟩
        rintro rfl
        rw [hr] at hj
        cases hj
        exact hne (hxq.symm.trans hpeer)
      · rintro ⟨x,⟨j,hj⟩,hxq,hx⟩
        obtain ⟨hjn,hold⟩ := hget j x hj hx
        refine ⟨?_,x,⟨j,hold⟩,hxq,hx⟩
        rintro rfl
        exact hjn (h.single j n.relay x r hold hr (hxq.trans hpeer.symm) hx hproc)
    · intro q hq
      simp [htask,Browse.dials] at hq
    · intro m hm
      obtain ⟨x,hx,hrest⟩ := h.queued m (by simp [hqueue,hm])
      refine ⟨x,hkeep m.relay x ?_ hx,hrest⟩
      intro hmn
      exact hdistinct.1 (hmn ▸ List.mem_map_of_mem hm)
    · intro _ i x hi hxclosed hx
      obtain ⟨hne,hold⟩ := hget i x hi hx
      obtain ⟨m,hm,hmi⟩ := h.pending (by simp [htask]) i x hold hxclosed hx
      rw [hqueue,List.mem_cons] at hm
      rcases hm with rfl | hm
      · exact absurd hmi.symm hne
      · exact ⟨m,hm,hmi⟩

end Task

section Runs

variable {serverKey selfKey : String} {s t : Runtime}

theorem Inv.step (h : Inv s) {e : Event} (ht : step serverKey selfKey s e = some t) : Inv t := by
  cases e with
  | discovered advertisement =>
    simp only [PeerRelays.step] at ht
    split at ht
    · next htask =>
      split at ht
      · cases ht
        exact h.rests htask rfl rfl
      · cases ht
        exact h
    · cases ht
  | browserStopped | wake =>
    simp only [PeerRelays.step] at ht
    split at ht
    · next htask =>
      cases ht
      exact h.rests htask rfl rfl
    · cases ht
  | pathClosed =>
    simp only [PeerRelays.step] at ht
    split at ht
    · next htask => exact (h.pathClosed htask ht).1
    · cases ht
  | test =>
    simp only [PeerRelays.step] at ht
    split at ht
    · next p htask =>
      split at ht
      · cases ht
        exact h.rests htask rfl rfl
      · next hnew =>
        cases ht
        refine h.moves _ (by simp [htask]) (by simp [known,htask]) ?_
        rintro q rfl
        exact hnew
    · cases ht
  | introduction ok | dial ok =>
    simp only [PeerRelays.step] at ht
    split at ht
    · next p htask =>
      cases ht
      have hbusy := h.busy p (by simp [htask,Browse.dials])
      cases ok with
      | true =>
        refine h.moves _ (by simp [htask]) (by simp [known,htask]) ?_
        rintro q rfl
        exact hbusy
      | false =>
        exact h.rests htask rfl rfl
    · cases ht
  | handOut =>
    simp only [PeerRelays.step] at ht
    split at ht
    · next p htask =>
      split at ht
      · cases ht
        exact h.handOut htask
      · cases ht
        exact h.rests htask rfl rfl
    · cases ht
  | insert =>
    simp only [PeerRelays.step] at ht
    split at ht
    · next p htask =>
      cases ht
      exact h.insert htask
    · cases ht
  | abort =>
    simp only [PeerRelays.step] at ht
    split at ht
    case h_5 => cases ht
    all_goals
      next htask =>
      cases ht
      exact h.rests htask rfl rfl
  | use i c => exact h.useRelay ht
  | drop i =>
    simp only [PeerRelays.step] at ht
    split at ht
    · next hany =>
      cases ht
      obtain ⟨r,hr,-⟩ := (Option.any_eq_true _ _).mp hany
      rw [modify_of hr]
      exact h.dropRelay hr
    · cases ht
  | dropReceiver =>
    cases ht
    exact ⟨h.reported,h.single,h.member,h.busy,h.queued,h.distinct,h.pending⟩

variable (serverKey selfKey) in
/-- In its `select!` the task can process all the notices that are queued. -/
theorem inv_processAll (h : Inv s) (htask : s.task = .selecting) {n : ℕ}
    (hn : s.closedPeers.length = n) : ∃ t,
      exec (step serverKey selfKey) s (List.replicate n .pathClosed) = some t ∧ Inv t ∧
        t.task = .selecting ∧ t.closedPeers = [] ∧
        t.relays.map (fun r => (r.peerId,r.closeNotifier)) =
          s.relays.map (fun r => (r.peerId,r.closeNotifier)) := by
  induction n generalizing s with
  | zero => exact ⟨s,rfl,h,htask,List.length_eq_zero_iff.mp hn,rfl⟩
  | succ n ih =>
    obtain ⟨u,hu⟩ : ∃ u, pathClosed s = some u := by
      cases hqueue : s.closedPeers with
      | nil => simp [hqueue] at hn
      | cons m rest => exact ⟨_,by rw [pathClosed,hqueue]⟩
    obtain ⟨hinv,hselect⟩ := h.pathClosed htask hu
    have hsame : u.closedPeers.length = n ∧ u.relays.map (fun r => (r.peerId,r.closeNotifier)) =
        s.relays.map (fun r => (r.peerId,r.closeNotifier)) := by
      unfold pathClosed at hu
      split at hu
      · cases hu
      · next m rest hqueue =>
        cases hu
        refine ⟨by simpa [hqueue] using hn,?_⟩
        refine List.ext_getElem? fun j => ?_
        simp only [List.getElem?_map,List.getElem?_modify]
        cases s.relays[j]? with
        | none => rfl
        | some r =>
          simp only [Option.map_some]
          split <;> rfl
    obtain ⟨t,hrun,hrest⟩ := ih hinv hselect hsame.1
    refine ⟨t,?_,hrest.1,hrest.2.1,hrest.2.2.1,hrest.2.2.2.trans hsame.2⟩
    exact exec_cons.mpr ⟨u,by simp only [PeerRelays.step,if_pos htask]; exact hu,hrun⟩

variable (serverKey selfKey) in
/-- Once all relays of a peer have reported, the task can process the reports and then dials
the peer when it discovers it again. -/
theorem inv_dialable (h : Inv s) (htask : s.task = .selecting) {p : String}
    (hreported : ∀ r ∈ s.relays, r.peerId = p → r.notices = 1) : ∃ t,
      exec (step serverKey selfKey) s (List.replicate s.closedPeers.length .pathClosed) = some t ∧
        ∀ advertisement, peerIdOf advertisement = p →
          shouldAcceptDiscoveredPeer advertisement serverKey selfKey = true →
          exec (step serverKey selfKey) t [.discovered advertisement,.test] =
            some {t with task := .requesting p} := by
  obtain ⟨t,hrun,hinv,hselect,hempty,hsame⟩ :=
    inv_processAll serverKey selfKey h htask rfl
  refine ⟨t,hrun,?_⟩
  have hfree : p ∉ t.connectedPeers := by
    have hmember := hinv.member p
    simp only [known,hselect] at hmember
    rw [hmember]
    rintro ⟨r,hr,hpeer,hproc⟩
    obtain ⟨j,hj⟩ := List.mem_iff_getElem?.mp hr
    -- the relay held no sender before, so its notice would still be queued
    have hview := congrArg (·[j]?) hsame
    simp only [List.getElem?_map,hj,Option.map_some] at hview
    obtain ⟨r',hr',heq⟩ := Option.map_eq_some_iff.mp hview.symm
    simp only [Prod.mk.injEq] at heq
    have hone := hreported r' (List.mem_of_getElem? hr') (heq.1.trans hpeer)
    have hclosed : r.closeNotifier = false := by
      rw [← heq.2]
      rcases h.reported r' (List.mem_of_getElem? hr') with ⟨-,hzero,-⟩ | ⟨hclosed,-⟩
      · omega
      · exact hclosed
    obtain ⟨n,hn,-⟩ := hinv.pending (by simp [hselect]) j r hj hclosed hproc
    simp [hempty] at hn
  intro advertisement hid haccept
  simp [exec,PeerRelays.step,hselect,haccept,hid,hfree]

end Runs

def neighbour : PeerShareAdvertisement := ⟨"b","s","n"⟩

/-- The relay fails after it was handed out and before the task has inserted its peer. -/
def earlyFailure : List Event :=
  [.discovered neighbour,.test,.introduction true,.dial true,.handOut,.use 0 (.recv false),.insert]

end Bonded.PeerRelays
