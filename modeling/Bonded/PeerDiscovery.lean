import Bonded.PeerAdvertisement
import Bonded.PeerRelays

/-! Discovery of peers: the mDNS browser in front of the browse task. The browser returns the next
resolved service as an advertisement, or an error if it is none; the task takes every error for the
end of the browser and leaves its loop. -/
namespace Bonded.PeerDiscovery

open Machine PeerAdvertisement PeerShare
open PeerRelays (Runtime peerIdOf shouldAcceptDiscoveredPeer)

section Code

/-- A service as the mDNS library resolves it, with the properties that have a text. -/
structure ResolvedService where
  isValid : Bool
  properties : Table String String
  addresses : List String
  port : ℕ
  deriving DecidableEq

inductive ServiceEvent
  | serviceResolved (service : ResolvedService)
  | other
  deriving DecidableEq

def txtKeys : List String :=
  ["version","device_key","server_key","instance_nonce","endpoint","cert_fingerprint",
    "capabilities"]

def recordsOf (service : ResolvedService) : Table String String :=
  txtKeys.foldl (fun records key =>
    match service.properties.get key with
    | some value => records.set key value
    | none => records) ∅

def advertisementFromResolvedService (service : ResolvedService) :
    Outcome PeerShareAdvertisement :=
  let records := recordsOf service
  if records.contains "endpoint" then fromTxtRecordMap records
  else
    match service.addresses.head? with
    | none => .error (some "resolved peer-share service did not include an address")
    | some address =>
      let port := String.ofList (Nat.toDigits 10 service.port)
      fromTxtRecordMap (records.set "endpoint" (address++":"++port))

/-- What the browser makes of an event: it returns, with an advertisement or an error, or it
waits for the next event. -/
def received : ServiceEvent → Option (Outcome PeerShareAdvertisement)
  | .serviceResolved service =>
    if service.isValid then some (advertisementFromResolvedService service) else none
  | .other => none

/-- What the browse task reads of an advertisement. -/
def seen (a : PeerShareAdvertisement) : PeerRelays.PeerShareAdvertisement :=
  ⟨a.devicePublicKey,a.serverPublicKey,a.instanceNonce⟩

/-- The browse task with the channel of the mDNS library. History: the events it has taken from
the channel. -/
structure System where
  runtime : Runtime
  channel : List ServiceEvent
  taken : List ServiceEvent

def start : System := ⟨PeerRelays.start,[],[]⟩

/-- The mDNS library reports an event, the browser takes one, or the task goes on. -/
inductive Event
  | mdns (event : ServiceEvent)
  | recv
  | task (event : PeerRelays.Event)
  deriving DecidableEq

/-- The stream stays open, so that the task learns of advertisements and of the end of the
browser through the channel only. -/
def ofBrowser : PeerRelays.Event → Bool
  | .discovered _ | .browserStopped => true
  | _ => false

def step (serverKey selfKey : String) (s : System) : Event → Option System
  | .mdns event => some {s with channel := s.channel++[event]}
  | .recv =>
    match s.channel with
    | [] => none
    | event::rest =>
      let after (runtime : Runtime) : System := ⟨runtime,rest,s.taken++[event]⟩
      match received event with
      | none => if s.runtime.task = .selecting then some (after s.runtime) else none
      | some (.ok a) =>
        (PeerRelays.step serverKey selfKey s.runtime (.discovered (seen a))).map after
      | some (.error _) => (PeerRelays.step serverKey selfKey s.runtime .browserStopped).map after
  | .task event =>
    if ofBrowser event then none
    else (PeerRelays.step serverKey selfKey s.runtime event).map fun runtime =>
      {s with runtime := runtime}

/-- A service that the browser returns as an error. -/
def malformed (event : ServiceEvent) : Bool :=
  match received event with
  | some (.error _) => true
  | _ => false

end Code

section Steps

variable {serverKey selfKey : String} {s t : System}

def considered (serverKey selfKey : String) (runtime : Runtime) (a : PeerShareAdvertisement) :
    Runtime :=
  if shouldAcceptDiscoveredPeer (seen a) serverKey selfKey then
    {runtime with task := .testing (peerIdOf (seen a))}
  else runtime

inductive Moves (serverKey selfKey : String) (s : System) : Event → System → Prop
  | arrives (event : ServiceEvent) :
    Moves serverKey selfKey s (.mdns event) {s with channel := s.channel++[event]}
  | skips (event : ServiceEvent) (rest : List ServiceEvent) (htask : s.runtime.task = .selecting)
    (hchannel : s.channel = event::rest) (hevent : received event = none) :
    Moves serverKey selfKey s .recv ⟨s.runtime,rest,s.taken++[event]⟩
  | reads (event : ServiceEvent) (rest : List ServiceEvent) (a : PeerShareAdvertisement)
    (htask : s.runtime.task = .selecting) (hchannel : s.channel = event::rest)
    (hevent : received event = some (.ok a)) :
    Moves serverKey selfKey s .recv
      ⟨considered serverKey selfKey s.runtime a,rest,s.taken++[event]⟩
  | fails (event : ServiceEvent) (rest : List ServiceEvent) (cause : Option String)
    (htask : s.runtime.task = .selecting) (hchannel : s.channel = event::rest)
    (hevent : received event = some (.error cause)) :
    Moves serverKey selfKey s .recv
      ⟨{s.runtime with task := .stopped},rest,s.taken++[event]⟩
  | inner (event : PeerRelays.Event) (runtime : Runtime) (hown : ofBrowser event = false)
    (hstep : PeerRelays.step serverKey selfKey s.runtime event = some runtime) :
    Moves serverKey selfKey s (.task event) {s with runtime := runtime}

theorem step_discovered {runtime : Runtime} (h : runtime.task = .selecting)
    (a : PeerShareAdvertisement) :
    PeerRelays.step serverKey selfKey runtime (.discovered (seen a)) =
      some (considered serverKey selfKey runtime a) := by
  simp only [PeerRelays.step,if_pos h,considered]
  split <;> rfl

theorem step_browserStopped {runtime : Runtime} (h : runtime.task = .selecting) :
    PeerRelays.step serverKey selfKey runtime .browserStopped =
      some {runtime with task := .stopped} := if_pos h

theorem selecting_of_discovered {runtime runtime' : Runtime} {a : PeerRelays.PeerShareAdvertisement}
    (h : PeerRelays.step serverKey selfKey runtime (.discovered a) = some runtime') :
    runtime.task = .selecting := by
  by_contra htask
  simp only [PeerRelays.step,if_neg htask] at h
  cases h

theorem selecting_of_browserStopped {runtime runtime' : Runtime}
    (h : PeerRelays.step serverKey selfKey runtime .browserStopped = some runtime') :
    runtime.task = .selecting := by
  by_contra htask
  simp only [PeerRelays.step,if_neg htask] at h
  cases h

theorem moves_iff_step {e : Event} :
    step serverKey selfKey s e = some t ↔ Moves serverKey selfKey s e t := by
  constructor
  · intro h
    cases e with
    | mdns event =>
      cases h
      exact .arrives event
    | recv =>
      simp only [step] at h
      cases hchannel : s.channel with
      | nil => simp [hchannel] at h
      | cons event rest =>
        simp only [hchannel] at h
        cases hevent : received event with
        | none =>
          simp only [hevent] at h
          split at h
          · next htask =>
            cases h
            exact .skips event rest htask hchannel hevent
          · cases h
        | some outcome =>
          cases outcome with
          | ok a =>
            simp only [hevent] at h
            obtain ⟨runtime,hrun,rfl⟩ := Option.map_eq_some_iff.mp h
            have htask := selecting_of_discovered hrun
            rw [step_discovered htask] at hrun
            cases hrun
            exact .reads event rest a htask hchannel hevent
          | error cause =>
            simp only [hevent] at h
            obtain ⟨runtime,hrun,rfl⟩ := Option.map_eq_some_iff.mp h
            have htask := selecting_of_browserStopped hrun
            rw [step_browserStopped htask] at hrun
            cases hrun
            exact .fails event rest cause htask hchannel hevent
    | task event =>
      simp only [step] at h
      split at h
      · cases h
      · next hown =>
        obtain ⟨runtime,hrun,rfl⟩ := Option.map_eq_some_iff.mp h
        exact .inner event runtime (by simpa using hown) hrun
  · intro h
    cases h with
    | arrives event => rfl
    | skips event rest htask hchannel hevent => simp only [step,hchannel,hevent,if_pos htask]
    | reads event rest a htask hchannel hevent =>
      simp only [step,hchannel,hevent,step_discovered htask,Option.map_some]
    | fails event rest cause htask hchannel hevent =>
      simp only [step,hchannel,hevent,step_browserStopped htask,Option.map_some]
    | inner event runtime hown hstep => simp [step,hown,hstep]

end Steps

section Progress

variable {serverKey selfKey : String} {s t u : System}

/-- The next step of the task itself; `ok` says how the request or the dial it waits for
ends. -/
def ownEvent (ok : Bool) : PeerRelays.Browse → Option Event
  | .selecting => some .recv
  | .testing _ => some (.task .test)
  | .requesting _ => some (.task (.introduction ok))
  | .dialing _ => some (.task (.dial ok))
  | .handing _ => some (.task .handOut)
  | .inserting _ => some (.task .insert)
  | .sleeping => some (.task .wake)
  | .stopped => none

/-- A number of steps of the task, with the outcomes of what it waits for. -/
def drive (serverKey selfKey : String) : ℕ → (ℕ → Bool) → System → Option System
  | 0, _, s => some s
  | k+1, ok, s =>
    match ownEvent (ok 0) s.runtime.task with
    | none => none
    | some e => (step serverKey selfKey s e).bind (drive serverKey selfKey k fun n => ok (n+1))

theorem drive_succ {k : ℕ} {ok : ℕ → Bool} {e : Event}
    (he : ownEvent (ok 0) s.runtime.task = some e) (hs : step serverKey selfKey s e = some t) :
    drive serverKey selfKey (k+1) ok s = drive serverKey selfKey k (fun n => ok (n+1)) t := by
  simp only [drive,he,hs,Option.bind_some]

theorem drive_add {j k : ℕ} {ok : ℕ → Bool} (hj : drive serverKey selfKey j ok s = some t) :
    drive serverKey selfKey (j+k) ok s =
      drive serverKey selfKey k (fun n => ok (n+j)) t := by
  induction j generalizing s ok with
  | zero =>
    cases hj
    simp
  | succ j ih =>
    rw [Nat.succ_add]
    simp only [drive] at hj
    cases he : ownEvent (ok 0) s.runtime.task with
    | none => simp [he] at hj
    | some e =>
      simp only [he,Option.bind_eq_some_iff] at hj
      obtain ⟨a,ha,hrest⟩ := hj
      rw [drive_succ he ha,ih hrest]
      simp only [Nat.add_assoc]

/-- How many steps the task is away from its `select!`, at most. -/
def away : PeerRelays.Browse → ℕ
  | .selecting | .stopped => 0
  | .inserting _ | .sleeping => 1
  | .handing _ => 2
  | .dialing _ => 3
  | .requesting _ => 4
  | .testing _ => 5

/-- The task is in its loop and its transports are wanted. -/
def Serving (s : System) : Prop := s.runtime.task ≠ .stopped ∧ s.runtime.receiving = true

/-- Outside its `select!` the task comes closer to it, whatever the outcome. -/
theorem own_step (hs : Serving s) (hbusy : s.runtime.task ≠ .selecting) (ok : Bool) :
    ∃ e runtime, ownEvent ok s.runtime.task = some e ∧
      step serverKey selfKey s e = some {s with runtime := runtime} ∧
      Serving {s with runtime := runtime} ∧ away runtime.task < away s.runtime.task := by
  obtain ⟨hloop,hreceiving⟩ := hs
  have hinner : ∀ event runtime, ofBrowser event = false →
      PeerRelays.step serverKey selfKey s.runtime event = some runtime →
      step serverKey selfKey s (.task event) = some {s with runtime := runtime} :=
    fun event runtime hown hstep => moves_iff_step.mpr (.inner event runtime hown hstep)
  cases htask : s.runtime.task with
  | selecting => exact absurd htask hbusy
  | stopped => exact absurd htask hloop
  | testing p =>
    by_cases hp : p ∈ s.runtime.connectedPeers
    · refine ⟨_,{s.runtime with task := .selecting},rfl,hinner _ _ rfl ?_,⟨by simp,hreceiving⟩,
        by simp [away]⟩
      simp [PeerRelays.step,htask,hp]
    · refine ⟨_,{s.runtime with task := .requesting p},rfl,hinner _ _ rfl ?_,⟨by simp,hreceiving⟩,
        by simp [away]⟩
      simp [PeerRelays.step,htask,hp]
  | requesting p =>
    refine ⟨_,{s.runtime with task := if ok then .dialing p else .sleeping},rfl,
      hinner _ _ rfl ?_,⟨?_,hreceiving⟩,?_⟩
    · simp [PeerRelays.step,htask]
    · cases ok <;> simp
    · cases ok <;> simp [away]
  | dialing p =>
    refine ⟨_,{s.runtime with task := if ok then .handing p else .sleeping},rfl,
      hinner _ _ rfl ?_,⟨?_,hreceiving⟩,?_⟩
    · simp [PeerRelays.step,htask]
    · cases ok <;> simp
    · cases ok <;> simp [away]
  | handing p =>
    refine ⟨_,{s.runtime with
      task := .inserting p, relays := s.runtime.relays++[PeerRelays.fresh p]},rfl,
      hinner _ _ rfl ?_,⟨by simp,hreceiving⟩,by simp [away]⟩
    simp [PeerRelays.step,htask,hreceiving]
  | inserting p =>
    refine ⟨_,{s.runtime with
      task := .selecting, connectedPeers := insert p s.runtime.connectedPeers},rfl,
      hinner _ _ rfl ?_,⟨by simp,hreceiving⟩,by simp [away]⟩
    simp [PeerRelays.step,htask]
  | sleeping =>
    refine ⟨_,{s.runtime with task := .selecting},rfl,hinner _ _ rfl ?_,⟨by simp,hreceiving⟩,
      by simp [away]⟩
    simp [PeerRelays.step,htask]

/-- The task comes back to its `select!`. -/
theorem drive_to_select (hs : Serving s) (ok : ℕ → Bool) :
    ∃ k runtime, drive serverKey selfKey k ok s = some {s with runtime := runtime} ∧
      Serving {s with runtime := runtime} ∧ runtime.task = .selecting := by
  induction hd : away s.runtime.task using Nat.strong_induction_on generalizing s ok with
  | _ d ih =>
    by_cases hselect : s.runtime.task = .selecting
    · exact ⟨0,s.runtime,rfl,hs,hselect⟩
    · obtain ⟨e,runtime,he,hstep,hserving,hless⟩ := own_step hs hselect (ok 0)
      obtain ⟨k,runtime',hdrive,hserving',hselect'⟩ :=
        ih _ (hd ▸ hless) hserving (fun n => ok (n+1)) rfl
      exact ⟨k+1,runtime',(drive_succ he hstep).trans hdrive,hserving',hselect'⟩

/-- The browser takes an event that is no malformed service, and the task stays in its loop. -/
theorem recv_kept {event : ServiceEvent} {rest : List ServiceEvent} (hs : Serving s)
    (hselect : s.runtime.task = .selecting) (hchannel : s.channel = event::rest)
    (hgood : malformed event = false) :
    ∃ runtime, step serverKey selfKey s .recv = some ⟨runtime,rest,s.taken++[event]⟩ ∧
      Serving ⟨runtime,rest,s.taken++[event]⟩ := by
  cases hevent : received event with
  | none =>
    exact ⟨s.runtime,moves_iff_step.mpr (.skips event rest hselect hchannel hevent),hs⟩
  | some outcome =>
    cases outcome with
    | error cause => simp [malformed,hevent] at hgood
    | ok a =>
      refine ⟨_,moves_iff_step.mpr (.reads event rest a hselect hchannel hevent),?_⟩
      unfold Serving considered
      split
      · exact ⟨nofun,hs.2⟩
      · exact hs

/-- Whatever the requests and dials come to, every event of the channel with no malformed
service before it gets to the head of the channel while the task is in its `select!`. -/
theorem drive_to_pending {before after : List ServiceEvent} {event : ServiceEvent}
    (hs : Serving s) (hchannel : s.channel = before++event::after)
    (hgood : ∀ x ∈ before, malformed x = false) (ok : ℕ → Bool) :
    ∃ k runtime, drive serverKey selfKey k ok s =
      some ⟨runtime,event::after,s.taken++before⟩ ∧ runtime.task = .selecting := by
  induction before generalizing s ok with
  | nil =>
    obtain ⟨k,runtime,hdrive,-,hselect⟩ := drive_to_select hs ok
    refine ⟨k,runtime,?_,hselect⟩
    rw [hdrive,hchannel,List.append_nil,List.nil_append]
  | cons x before ih =>
    obtain ⟨j,runtime,hdrive,hserving,hselect⟩ := drive_to_select hs ok
    obtain ⟨runtime₂,hrecv,hserving₂⟩ := recv_kept hserving hselect hchannel
      (hgood x List.mem_cons_self)
    obtain ⟨k,runtime₃,hdrive₃,hselect₃⟩ := ih hserving₂ rfl
      (fun y hy => hgood y (List.mem_cons_of_mem x hy)) fun n => ok (n+1+j)
    have hown : ownEvent (ok (0+j)) runtime.task = some .recv := by rw [hselect]; rfl
    refine ⟨j+(k+1),runtime₃,?_,hselect₃⟩
    rw [drive_add hdrive,drive_succ hown hrecv,hdrive₃,List.append_assoc]
    rfl

end Progress

section Runs

variable {serverKey selfKey : String} {s t : System}

/-- The browser does not take a malformed service. -/
def Sound (s : System) (e : Event) : Prop :=
  e = .recv → s.runtime.task = .selecting → (s.channel.head?.any malformed) = false

instance (s : System) (e : Event) : Decidable (Sound s e) :=
  inferInstanceAs (Decidable (e = .recv → _ → _))

/-- The events of a run without the malformed services. -/
def wellFormed : Event → Bool
  | .mdns event => malformed event = false
  | _ => true

/-- The services that were reported in a run. -/
def reported : List Event → List ServiceEvent := List.filterMap fun
  | .mdns event => some event
  | _ => none

/-- A run in which no content of an advertisement has an effect of its own. -/
structure Undisturbed (serverKey selfKey : String) (es : List Event) : Prop where
  /-- No event that the browser takes ends the loop. -/
  stays : Transitions (step serverKey selfKey) (fun _ e t => e = .recv → t.runtime.task ≠ .stopped)
    start es
  /-- The task is where it is without the malformed services. -/
  same : ∀ done t, done <+: es → exec (step serverKey selfKey) start done = some t →
    exec (step serverKey selfKey) start (done.filter wellFormed) =
      some {t with channel := t.channel.filter fun event => malformed event = false}
  /-- Events are taken in the order of their report, and none is left out. -/
  inOrder : ∀ done t, done <+: es → exec (step serverKey selfKey) start done = some t →
    t.taken++t.channel = reported done
  /-- An advertisement of the paired server and another device is tested when it is taken. -/
  tested : Transitions (step serverKey selfKey) (fun s e t => ∀ event rest a, e = .recv →
      s.channel = event::rest → received event = some (.ok a) →
      shouldAcceptDiscoveredPeer (seen a) serverKey selfKey = true →
      t.runtime.task = .testing (peerIdOf (seen a))) start es
  /-- A tested peer that is not connected gets an introduction request. -/
  requested : Transitions (step serverKey selfKey) (fun s e t => ∀ p, e = .task .test →
      s.runtime.task = .testing p → p ∉ s.runtime.connectedPeers →
      t.runtime.task = .requesting p) start es
  /-- Every event with no malformed service before it is taken when the task goes on, whatever
  its requests and dials come to. -/
  reached : Along (step serverKey selfKey) (fun s => ∀ before event after ok, Serving s →
      s.channel = before++event::after → (∀ x ∈ before, malformed x = false) →
      ∃ k runtime, drive serverKey selfKey k ok s =
        some ⟨runtime,event::after,s.taken++before⟩ ∧ runtime.task = .selecting) start es

/-- Erasing the malformed services from the channel. -/
def erased (s : System) : System :=
  {s with channel := s.channel.filter fun event => malformed event = false}

theorem step_erased {e : Event} (hsound : Sound s e) (hkeep : wellFormed e = true)
    (h : step serverKey selfKey s e = some t) :
    step serverKey selfKey (erased s) e = some (erased t) := by
  have hhead : ∀ event rest, e = .recv → s.runtime.task = .selecting → s.channel = event::rest →
      (erased s).channel = event::rest.filter fun event => malformed event = false := by
    intro event rest he htask hchannel
    have hgood := hsound he htask
    simp only [hchannel,List.head?_cons,Option.any_some] at hgood
    simp [erased,hchannel,hgood]
  cases moves_iff_step.mp h with
  | arrives event =>
    simp only [wellFormed,decide_eq_true_eq] at hkeep
    simp [step,erased,hkeep]
  | skips event rest htask hchannel hevent =>
    exact moves_iff_step.mpr (.skips event _ htask (hhead event rest rfl htask hchannel) hevent)
  | reads event rest a htask hchannel hevent =>
    exact moves_iff_step.mpr (.reads event _ a htask (hhead event rest rfl htask hchannel) hevent)
  | fails event rest cause htask hchannel hevent =>
    exact moves_iff_step.mpr
      (.fails event _ cause htask (hhead event rest rfl htask hchannel) hevent)
  | inner event runtime hown hstep =>
    exact moves_iff_step.mpr (.inner event runtime hown hstep)

theorem erased_of_dropped {e : Event} (hdrop : wellFormed e = false)
    (h : step serverKey selfKey s e = some t) : erased t = erased s := by
  cases e with
  | mdns event =>
    simp only [wellFormed,decide_eq_false_iff_not] at hdrop
    cases h
    simp [erased,hdrop]
  | recv => cases hdrop
  | task event => cases hdrop

theorem exec_filter {es : List Event} (hsound : Meets (step serverKey selfKey) Sound s es)
    (h : exec (step serverKey selfKey) s es = some t) :
    exec (step serverKey selfKey) (erased s) (es.filter wellFormed) = some (erased t) := by
  have hrun : ∃ v, exec (step serverKey selfKey) (erased s) (es.filter wellFormed) = some v ∧
      v = erased t :=
    exec_erase (R := fun s u => u = erased s)
      (fun s u e t hr hg hkeep ht => ⟨erased t,hr ▸ step_erased hg hkeep ht,rfl⟩)
      (fun s u e t hr _ hdrop ht => hr.trans (erased_of_dropped hdrop ht).symm) rfl hsound h
  obtain ⟨v,hv,rfl⟩ := hrun
  exact hv

theorem reported_append (es : List Event) (e : Event) :
    reported (es++[e]) = reported es++reported [e] := List.filterMap_append

theorem taken_in_order {es : List Event} (h : exec (step serverKey selfKey) start es = some t) :
    t.taken++t.channel = reported es := by
  refine exec_history (P := fun es t => t.taken++t.channel = reported es) rfl ?_ h
  intro es t e u _ ih hu
  rw [reported_append,← ih]
  cases moves_iff_step.mp hu with
  | arrives event => simp [reported]
  | skips event rest htask hchannel hevent => simp [reported,hchannel]
  | reads event rest a htask hchannel hevent => simp [reported,hchannel]
  | fails event rest cause htask hchannel hevent => simp [reported,hchannel]
  | inner event runtime hown hstep => simp [reported]

theorem stopped_of_unsound {e : Event} (h : ¬ Sound s e) :
    ∃ t, step serverKey selfKey s e = some t ∧ ¬ (e = .recv → t.runtime.task ≠ .stopped) := by
  simp only [Sound,Classical.not_imp,Bool.not_eq_false] at h
  obtain ⟨rfl,htask,hbad⟩ := h
  cases hchannel : s.channel with
  | nil => simp [hchannel] at hbad
  | cons event rest =>
    simp only [hchannel,List.head?_cons,Option.any_some,malformed] at hbad
    split at hbad
    · next cause hevent =>
      exact ⟨_,moves_iff_step.mpr (.fails event rest cause htask hchannel hevent),by simp⟩
    · cases hbad

theorem loop_of_sound {e : Event} (hsound : Sound s e) (h : step serverKey selfKey s e = some t) :
    e = .recv → t.runtime.task ≠ .stopped := by
  intro he
  cases moves_iff_step.mp h with
  | arrives event => cases he
  | skips event rest htask hchannel hevent => simp [htask]
  | reads event rest a htask hchannel hevent =>
    unfold considered
    split <;> simp [htask]
  | fails event rest cause htask hchannel hevent =>
    have hgood := hsound rfl htask
    simp [hchannel,malformed,hevent] at hgood
  | inner event runtime hown hstep => cases he

theorem tested_of_step {e : Event} (h : step serverKey selfKey s e = some t)
    (event : ServiceEvent) (rest : List ServiceEvent) (a : PeerShareAdvertisement)
    (he : e = .recv) (hchannel : s.channel = event::rest) (hevent : received event = some (.ok a))
    (haccept : shouldAcceptDiscoveredPeer (seen a) serverKey selfKey = true) :
    t.runtime.task = .testing (peerIdOf (seen a)) := by
  subst he
  cases moves_iff_step.mp h with
  | skips event' rest' htask hchannel' hevent' =>
    rw [hchannel] at hchannel'
    cases hchannel'
    rw [hevent] at hevent'
    cases hevent'
  | reads event' rest' a' htask hchannel' hevent' =>
    rw [hchannel] at hchannel'
    cases hchannel'
    rw [hevent] at hevent'
    cases hevent'
    simp [considered,haccept]
  | fails event' rest' cause htask hchannel' hevent' =>
    rw [hchannel] at hchannel'
    cases hchannel'
    rw [hevent] at hevent'
    cases hevent'

theorem requested_of_step {e : Event} (h : step serverKey selfKey s e = some t) (p : String)
    (he : e = .task .test) (htask : s.runtime.task = .testing p)
    (hp : p ∉ s.runtime.connectedPeers) : t.runtime.task = .requesting p := by
  subst he
  cases moves_iff_step.mp h with
  | inner event runtime hown hstep =>
    simp only [PeerRelays.step,htask,if_neg hp,Option.some.injEq] at hstep
    rw [← hstep]

/-- A run of the browse task is undisturbed by the content of advertisements exactly if the
browser takes no malformed service in it. -/
theorem discovery_undisturbed_iff (serverKey selfKey : String) (es : List Event) :
    Undisturbed serverKey selfKey es ↔ Meets (step serverKey selfKey) Sound start es := by
  constructor
  · intro h
    exact meets_of_transitions (fun s e hs => stopped_of_unsound hs) h.stays
  · intro h
    have hof : ∀ P : System → Event → System → Prop,
        (∀ s e t, Sound s e → step serverKey selfKey s e = some t → P s e t) →
        Transitions (step serverKey selfKey) P start es :=
      fun P hP => transitions_of_meets (I := fun _ => True)
        (fun s e t _ hs ht => ⟨trivial,hP s e t hs ht⟩) trivial h
    refine ⟨hof _ fun s e t hs ht => loop_of_sound hs ht,?_,fun done t _ ht => taken_in_order ht,
      hof _ fun s e t _ ht => tested_of_step ht,hof _ fun s e t _ ht => requested_of_step ht,?_⟩
    · rintro done t ⟨rest,rfl⟩ ht
      exact exec_filter (meets_append ht h).1 ht
    · intro done s _ _ before event after ok hs hchannel hgood
      exact drive_to_pending hs hchannel hgood ok

/-- A provider's service with a version that is no number. -/
def badService : ServiceEvent :=
  .serviceResolved ⟨true,collect [("version","one"),("device_key","peer"),("server_key","server"),
    ("instance_nonce","n"),("cert_fingerprint","f"),("capabilities","relay")],["10.0.0.7"],4433⟩

def goodService : ServiceEvent :=
  .serviceResolved ⟨true,collect [("version","1"),("device_key","peer"),("server_key","server"),
    ("instance_nonce","n"),("cert_fingerprint","f"),("capabilities","relay")],["10.0.0.8"],4433⟩

/-- The browse task leaves its loop at the first service and never takes the second one. -/
theorem malformed_service_stops_discovery :
    ¬ Undisturbed "server" "self" [.mdns badService,.mdns goodService,.recv] ∧
      (exec (step "server" "self") start [.mdns badService,.mdns goodService,.recv]).map
        (fun t => (t.runtime.task,t.channel)) = some (.stopped,[goodService]) ∧
      (exec (step "server" "self") start
        [.mdns badService,.mdns goodService,.recv,.recv]).isNone = true ∧
      (exec (step "server" "self") start [.mdns goodService,.recv,.task .test]).map
        (fun t => t.runtime.task) = some (.requesting "peer:n") := by
  refine ⟨fun h => ?_,by decide +kernel,by decide +kernel,by decide +kernel⟩
  have hmeets := meets_of_transitions (fun s e hs => stopped_of_unsound hs) h.stays
  revert hmeets
  decide +kernel

end Runs

end Bonded.PeerDiscovery
