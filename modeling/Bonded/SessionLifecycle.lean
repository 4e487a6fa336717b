import Bonded.SessionRegistry
import Bonded.TunBridge

/-! The life of client connections on the server: each connection registers its
client, attaches a return path, runs, detaches the path and unregisters the client.
The steps of different connections interleave freely. -/
namespace Bonded.SessionLifecycle

open Machine SessionRegistry TunBridge

/-- How the server forwards packets; one choice for the whole server. -/
inductive Mode
  | tunBridge
  | forwarder
  deriving DecidableEq, Repr

/-- Where a connection's task stands between its accesses to the shared tables. -/
inductive Phase
  | registered
  | running
  | leaving
  | detached
  deriving DecidableEq, Repr

structure Connection where
  key : String
  sessionId : UInt64
  phase : Phase
  deriving DecidableEq, Repr

/-- The connection's return path is in the shared tables, as far as it knows. -/
def Connection.attached (c : Connection) : Prop := c.phase = .running ∨ c.phase = .leaving

instance (c : Connection) : Decidable c.attached :=
  inferInstanceAs (Decidable (_ ∨ _))

/-- The tables shared by the connections, and the connections that have not ended. -/
structure ServerState where
  registry : Registry
  bridge : TunBridgeState
  forwarders : Table UInt64 ℕ
  connections : Table ℕ Connection
  nextConnection : ℕ
  deriving DecidableEq

def initial : ServerState := ⟨SessionRegistry.new,TunBridge.new,∅,∅,0⟩

inductive Event
  | register (key : String)
  | attach (i : ℕ)
  | leave (i : ℕ)
  | detach (i : ℕ)
  | unregister (i : ℕ)
  deriving DecidableEq, Repr

/-- Put the connection's own forwarder, or the sender of its return channel, into the
shared table under its session id. -/
def attachPath (mode : Mode) (s : ServerState) (i : ℕ) (c : Connection) : ServerState :=
  match mode with
  | .tunBridge => {s with bridge := registerSession s.bridge c.sessionId i}
  | .forwarder => {s with forwarders := s.forwarders.set c.sessionId i}

def detachPath (mode : Mode) (s : ServerState) (c : Connection) : ServerState :=
  match mode with
  | .tunBridge => {s with bridge := unregisterSession s.bridge c.sessionId}
  | .forwarder => {s with forwarders := s.forwarders.remove c.sessionId}

def setPhase (s : ServerState) (i : ℕ) (c : Connection) (phase : Phase) : ServerState :=
  {s with connections := s.connections.set i {c with phase := phase}}

def step (mode : Mode) (s : ServerState) : Event → Option ServerState
  | .register key =>
    let r := registerClient s.registry key
    some {s with
      registry := r.2
      connections := s.connections.set s.nextConnection ⟨key,r.1,.registered⟩
      nextConnection := s.nextConnection+1}
  | .attach i =>
    match s.connections.get i with
    | some c =>
      if c.phase = .registered then some (setPhase (attachPath mode s i c) i c .running) else none
    | none => none
  | .leave i =>
    match s.connections.get i with
    | some c => if c.phase = .running then some (setPhase s i c .leaving) else none
    | none => none
  | .detach i =>
    match s.connections.get i with
    | some c =>
      if c.phase = .leaving then some (setPhase (detachPath mode s c) i c .detached) else none
    | none => none
  | .unregister i =>
    match s.connections.get i with
    | some c =>
      if c.phase = .detached then
        some {s with
          registry := unregisterClient s.registry c.key
          connections := s.connections.remove i}
      else none
    | none => none

/-- A sender of the connection's return channel is left. In forwarder mode the task's
own forwarder holds one; in TUN mode only the bridge's routes do. -/
def returnChannelOpen (mode : Mode) (s : ServerState) (i : ℕ) : Prop :=
  mode = .forwarder ∨ ∃ e ∈ s.bridge.sessions.toList, e.2.tx = i

instance (mode : Mode) (s : ServerState) (i : ℕ) : Decidable (returnChannelOpen mode s i) :=
  inferInstanceAs (Decidable (_ ∨ _))

/-- No connection is starting or tearing down. -/
def Quiescent (s : ServerState) : Prop :=
  ∀ e ∈ s.connections.toList, e.2.phase = .running

instance (s : ServerState) : Decidable (Quiescent s) :=
  inferInstanceAs (Decidable (∀ e ∈ s.connections.toList, _))

/-- Connection `i` is running as `c`. -/
def Running (s : ServerState) (i : ℕ) (c : Connection) : Prop :=
  s.connections.get i = some c ∧ c.phase = .running

/-- The shared tables agree with the running connections. -/
structure Coherent (mode : Mode) (s : ServerState) : Prop where
  registered : ∀ key, containsClient s.registry key = true ↔ ∃ i c, Running s i c ∧ c.key = key
  ids : ∀ i j c d, Running s i c → Running s j d → (c.key = d.key ↔ c.sessionId = d.sessionId)
  routes : mode = .tunBridge → ∀ id, s.bridge.sessions.contains id = true ↔
    ∃ i c, Running s i c ∧ c.sessionId = id
  forwarders : mode = .forwarder → ∀ id, s.forwarders.contains id = true ↔
    ∃ i c, Running s i c ∧ c.sessionId = id

/-- The condition under which interleaved connections keep the tables coherent. A client
registers only while none of its connections has detached and, in TUN mode, while it
has no other connection at all; a new session id is not in use; and a connection
detaches only as the last one of its client. -/
def Exclusive (mode : Mode) (s : ServerState) : Event → Prop
  | .register key =>
    (∀ e ∈ s.connections.toList, e.2.key = key → mode = .forwarder ∧ e.2.phase ≠ .detached) ∧
      (containsClient s.registry key = false →
        ∀ e ∈ s.connections.toList, e.2.sessionId ≠ s.registry.nextSessionId)
  | .detach i =>
    ∀ e ∈ s.connections.toList, ∀ f ∈ s.connections.toList, e.1 = i → e.2.key = f.2.key → f.1 = i
  | _ => True

instance (mode : Mode) (s : ServerState) (e : Event) : Decidable (Exclusive mode s e) := by
  cases e <;> unfold Exclusive <;> infer_instance

/-- Session ids identify the clients of the connections that have not ended. -/
structure Identified (s : ServerState) : Prop where
  fresh : ∀ i c, s.connections.get i = some c → i < s.nextConnection
  registered : ∀ i c, s.connections.get i = some c →
    s.registry.sessionsByClient.get c.key = some c.sessionId
  inhabited : ∀ key id, s.registry.sessionsByClient.get key = some id →
    ∃ i c, s.connections.get i = some c ∧ c.key = key
  injective : ∀ key key' id, s.registry.sessionsByClient.get key = some id →
    s.registry.sessionsByClient.get key' = some id → key = key'

/-- A client has one connection in TUN mode, and one when a connection of it has detached. -/
def Alone (mode : Mode) (s : ServerState) : Prop :=
  ∀ i j c d, s.connections.get i = some c → s.connections.get j = some d → c.key = d.key →
    mode = .tunBridge ∨ c.phase = .detached → i = j

/-- The path table of the mode holds exactly the attached connections' sessions. -/
def PathsKept (mode : Mode) (s : ServerState) : Prop :=
  match mode with
  | .tunBridge => ∀ id i, (∃ r, s.bridge.sessions.get id = some r ∧ r.tx = i) ↔
      ∃ c, s.connections.get i = some c ∧ c.sessionId = id ∧ c.attached
  | .forwarder => ∀ id, s.forwarders.contains id = true ↔
      ∃ i c, s.connections.get i = some c ∧ c.sessionId = id ∧ c.attached

structure Safe (mode : Mode) (s : ServerState) : Prop where
  identified : Identified s
  alone : Alone mode s
  paths : PathsKept mode s

theorem safe_initial (mode : Mode) : Safe mode initial := by
  refine ⟨⟨?_,?_,?_,?_⟩,?_,?_⟩
  · intro i c h; simp [initial] at h
  · intro i c h; simp [initial] at h
  · intro key id h; simp [initial,SessionRegistry.new] at h
  · intro key key' id h; simp [initial,SessionRegistry.new] at h
  · intro i j c d h; simp [initial] at h
  · cases mode <;> simp [PathsKept,initial,TunBridge.new,Table.contains]

/-- What an event other than a registration finds. -/
theorem step_found {mode : Mode} {s t : ServerState} {e : Event} (h : step mode s e = some t) :
    match e with
    | .register _ => True
    | .attach i => ∃ c, s.connections.get i = some c ∧ c.phase = .registered ∧
        t = setPhase (attachPath mode s i c) i c .running
    | .leave i => ∃ c, s.connections.get i = some c ∧ c.phase = .running ∧
        t = setPhase s i c .leaving
    | .detach i => ∃ c, s.connections.get i = some c ∧ c.phase = .leaving ∧
        t = setPhase (detachPath mode s c) i c .detached
    | .unregister i => ∃ c, s.connections.get i = some c ∧ c.phase = .detached ∧
        t = {s with
          registry := unregisterClient s.registry c.key
          connections := s.connections.remove i} := by
  cases e with
  | register key => trivial
  | attach i | leave i | detach i | unregister i =>
    simp only [step] at h
    split at h
    · next c hc =>
      split at h
      · next hp => exact ⟨c,hc,hp,(Option.some.inj h).symm⟩
      · cases h
    · cases h

section Phases

variable {mode : Mode} {s : ServerState} {i : ℕ} {c : Connection} {p : Phase}

theorem setPhase_get (j : ℕ) : (setPhase s i c p).connections.get j =
    if j = i then some {c with phase := p} else s.connections.get j :=
  Table.get_set _ _ _ _

theorem setPhase_source (hc : s.connections.get i = some c) {j : ℕ} {d : Connection}
    (h : (setPhase s i c p).connections.get j = some d) :
    ∃ d', s.connections.get j = some d' ∧ d'.key = d.key ∧ d'.sessionId = d.sessionId ∧
      (j ≠ i → d' = d) := by
  rw [setPhase_get] at h
  by_cases hj : j = i
  · rw [if_pos hj] at h
    cases h
    exact ⟨c,hj ▸ hc,rfl,rfl,fun hne => absurd hj hne⟩
  · rw [if_neg hj] at h
    exact ⟨d,h,rfl,rfl,fun _ => rfl⟩

theorem identified_setPhase (hs : Identified s) (hc : s.connections.get i = some c) :
    Identified (setPhase s i c p) := by
  refine ⟨?_,?_,?_,hs.injective⟩
  · intro j d hd
    obtain ⟨d',hd',-⟩ := setPhase_source hc hd
    exact hs.fresh j d' hd'
  · intro j d hd
    obtain ⟨d',hd',hkey,hid,-⟩ := setPhase_source hc hd
    have h := hs.registered j d' hd'
    rwa [hkey,hid] at h
  · intro key id hid
    obtain ⟨j,d,hd,hkey⟩ := hs.inhabited key id hid
    by_cases hj : j = i
    · subst hj
      rw [hc] at hd
      cases hd
      exact ⟨j,{c with phase := p},by rw [setPhase_get,if_pos rfl],hkey⟩
    · exact ⟨j,d,by rw [setPhase_get,if_neg hj]; exact hd,hkey⟩

theorem alone_setPhase (hs : Alone mode s) (hc : s.connections.get i = some c)
    (hd : p = .detached → ∀ j d, s.connections.get j = some d → c.key = d.key → i = j) :
    Alone mode (setPhase s i c p) := by
  intro j k d e hj hk hkey hor
  obtain ⟨d',hd',hdk,-,hdd⟩ := setPhase_source hc hj
  obtain ⟨e',he',hek,-,-⟩ := setPhase_source hc hk
  have hkey' : d'.key = e'.key := by rw [hdk,hek,hkey]
  by_cases hji : j = i
  · subst hji
    rw [setPhase_get,if_pos rfl] at hj
    cases hj
    rcases hor with hm | hp
    · exact hs j k d' e' hd' he' hkey' (.inl hm)
    · exact hd hp k e' he' (hkey.trans hek.symm)
  · rw [hdd hji] at hd' hkey'
    exact hs j k d e' hd' he' hkey' hor

theorem setPhase_attached (j : ℕ) (id : UInt64) :
    (∃ d, (setPhase s i c p).connections.get j = some d ∧ d.sessionId = id ∧ d.attached) ↔
      if j = i then c.sessionId = id ∧ (p = .running ∨ p = .leaving)
      else ∃ d, s.connections.get j = some d ∧ d.sessionId = id ∧ d.attached := by
  rw [setPhase_get]
  split
  · simp [Connection.attached]
  · rfl

/-- A phase change does not matter to the other sessions. -/
theorem setPhase_attached_other (hc : s.connections.get i = some c) (j : ℕ) {id : UInt64}
    (hid : id ≠ c.sessionId) :
    (∃ d, (setPhase s i c p).connections.get j = some d ∧ d.sessionId = id ∧ d.attached) ↔
      ∃ d, s.connections.get j = some d ∧ d.sessionId = id ∧ d.attached := by
  rw [setPhase_attached]
  split
  · next hj =>
    subst hj
    simp [hc,Ne.symm hid]
  · rfl

theorem key_of_sessionId (hs : Identified s) {j : ℕ} {d : Connection}
    (hc : s.connections.get i = some c) (hd : s.connections.get j = some d)
    (h : c.sessionId = d.sessionId) : c.key = d.key :=
  hs.injective _ _ _ (hs.registered i c hc) (h ▸ hs.registered j d hd)

theorem eq_of_sessionId (hs : Identified s) (hc : s.connections.get i = some c)
    (halone : ∀ j d, s.connections.get j = some d → c.key = d.key → i = j)
    {j : ℕ} {d : Connection} (hd : s.connections.get j = some d)
    (h : d.sessionId = c.sessionId) : j = i :=
  (halone j d hd (key_of_sessionId hs hc hd h.symm)).symm

theorem pathsKept_attach (hs : Safe mode s) (hc : s.connections.get i = some c) :
    PathsKept mode (setPhase (attachPath mode s i c) i c .running) := by
  have hpaths := hs.paths
  cases mode with
  | tunBridge =>
    intro id j
    by_cases hid : id = c.sessionId
    · subst hid
      rw [setPhase_attached]
      simp only [setPhase,attachPath,registerSession,Table.get_set_self,Option.some.injEq,
        exists_eq_left']
      by_cases hj : j = i
      · simp [hj]
      · simp only [if_neg hj,Ne.symm hj,false_iff]
        rintro ⟨d,hd,hsid,-⟩
        exact hj (eq_of_sessionId hs.identified hc
          (fun k e hk hkey => hs.alone i k c e hc hk hkey (.inl rfl)) hd hsid)
    · rw [setPhase_attached_other (by exact hc) j hid]
      simp only [setPhase,attachPath,registerSession,Table.get_set_ne hid]
      exact hpaths id j
  | forwarder =>
    intro id
    by_cases hid : id = c.sessionId
    · subst hid
      simp only [setPhase_attached]
      simp only [setPhase,attachPath,Table.contains,Table.get_set_self,Option.isSome_some,true_iff]
      exact ⟨i,by simp⟩
    · have hkeep := fun j => setPhase_attached_other (s := attachPath .forwarder s i c)
        (p := .running) (by exact hc) j hid
      rw [exists_congr hkeep]
      simp only [setPhase,attachPath,Table.contains,Table.get_set_ne hid]
      exact hpaths id

theorem pathsKept_detach (hs : Safe mode s) (hc : s.connections.get i = some c)
    (halone : ∀ j d, s.connections.get j = some d → c.key = d.key → i = j) :
    PathsKept mode (setPhase (detachPath mode s c) i c .detached) := by
  have hpaths := hs.paths
  -- after the detachment nothing is attached under the session id
  have hnone : ∀ s' : ServerState, s'.connections = s.connections → ∀ j,
      ¬ ∃ d, (setPhase s' i c .detached).connections.get j = some d ∧
        d.sessionId = c.sessionId ∧ d.attached := by
    intro s' hs' j
    rw [setPhase_attached,hs']
    split
    · simp
    · next hj =>
      rintro ⟨d,hd,hsid,-⟩
      exact hj (eq_of_sessionId hs.identified hc halone hd hsid)
  cases mode with
  | tunBridge =>
    intro id j
    by_cases hid : id = c.sessionId
    · subst hid
      refine iff_of_false ?_ (hnone _ rfl j)
      simp [setPhase,detachPath,unregisterSession]
    · rw [setPhase_attached_other (by exact hc) j hid]
      simp only [setPhase,detachPath,unregisterSession,Table.get_remove_ne hid]
      exact hpaths id j
  | forwarder =>
    intro id
    by_cases hid : id = c.sessionId
    · subst hid
      refine iff_of_false ?_ ?_
      · simp [setPhase,detachPath,Table.contains]
      · rintro ⟨j,hj⟩
        exact hnone _ rfl j hj
    · have hkeep := fun j => setPhase_attached_other (s := detachPath .forwarder s c)
        (p := .detached) (by exact hc) j hid
      rw [exists_congr hkeep]
      simp only [setPhase,detachPath,Table.contains,Table.get_remove_ne hid]
      exact hpaths id

/-- Only the connections' session ids and attachments matter to the paths. -/
theorem pathsKept_congr {s t : ServerState} (hs : PathsKept mode s)
    (hb : t.bridge = s.bridge) (hf : t.forwarders = s.forwarders)
    (hc : ∀ j id, (∃ d, t.connections.get j = some d ∧ d.sessionId = id ∧ d.attached) ↔
      ∃ d, s.connections.get j = some d ∧ d.sessionId = id ∧ d.attached) :
    PathsKept mode t := by
  cases mode with
  | tunBridge => intro id j; rw [hb,hc]; exact hs id j
  | forwarder =>
    intro id
    rw [hf,exists_congr fun j => hc j id]
    exact hs id

end Phases

section Steps

variable {mode : Mode} {s : ServerState}

theorem Identified.next_free (hs : Identified s) : s.connections.get s.nextConnection = none := by
  cases hn : s.connections.get s.nextConnection with
  | none => rfl
  | some c => exact absurd (hs.fresh _ c hn) (Nat.lt_irrefl _)

/-- The id a registration returns belongs to no other client. -/
theorem register_id_own (hs : Identified s) {key key' : String}
    (hnew : containsClient s.registry key = false →
      ∀ e ∈ s.connections.toList, e.2.sessionId ≠ s.registry.nextSessionId)
    (h : s.registry.sessionsByClient.get key' = some (registerClient s.registry key).1) :
    key' = key := by
  cases hk : s.registry.sessionsByClient.get key with
  | some existing =>
    rw [registerClient,hk] at h
    exact hs.injective key' key existing h hk
  | none =>
    rw [registerClient,hk] at h
    obtain ⟨j,d,hd,hkey⟩ := hs.inhabited key' _ h
    have hreg := hs.registered j d hd
    rw [hkey,h,Option.some.injEq] at hreg
    exact absurd hreg.symm (hnew (by simp [containsClient,Table.contains,hk]) (j,d)
      ((Table.mem_toList _ _ _).mpr hd))

/-- The server after a registration: a new connection with the id of its client. -/
def afterRegister (s : ServerState) (key : String) : ServerState :=
  {s with
    registry := (registerClient s.registry key).2
    connections := s.connections.set s.nextConnection
      ⟨key,(registerClient s.registry key).1,.registered⟩
    nextConnection := s.nextConnection+1}

theorem identified_register (hs : Identified s) (key : String)
    (hnew : containsClient s.registry key = false →
      ∀ e ∈ s.connections.toList, e.2.sessionId ≠ s.registry.nextSessionId) :
    Identified (afterRegister s key) := by
  refine ⟨?_,?_,?_,?_⟩
  · intro j d hd
    simp only [afterRegister,Table.get_set] at hd ⊢
    split at hd
    · next hj => simp [hj]
    · exact Nat.lt_succ_of_lt (hs.fresh j d hd)
  · intro j d hd
    simp only [afterRegister,Table.get_set] at hd
    simp only [afterRegister,registerClient_get]
    split at hd
    · cases hd; simp
    · have hreg := hs.registered j d hd
      split
      · next hk => simp only [registerClient,hk ▸ hreg]
      · exact hreg
  · intro key' id hid
    simp only [afterRegister,registerClient_get] at hid
    split at hid
    · next hk => exact ⟨s.nextConnection,_,Table.get_set_self _ _ _,hk.symm⟩
    · obtain ⟨j,d,hd,hkey⟩ := hs.inhabited key' id hid
      refine ⟨j,d,?_,hkey⟩
      simp only [afterRegister]
      rw [Table.get_set_ne fun hj => by rw [hj,hs.next_free] at hd; cases hd]
      exact hd
  · intro key₁ key₂ id h₁ h₂
    simp only [afterRegister,registerClient_get] at h₁ h₂
    split at h₁ <;> split at h₂
    · next hk₁ hk₂ => rw [hk₁,hk₂]
    · next hk₁ _ => rw [hk₁,register_id_own hs hnew (h₂.trans h₁.symm)]
    · next _ hk₂ => rw [hk₂,register_id_own hs hnew (h₁.trans h₂.symm)]
    · exact hs.injective key₁ key₂ id h₁ h₂

theorem safe_register (hs : Safe mode s) (key : String) (hg : Exclusive mode s (.register key)) :
    Safe mode (afterRegister s key) := by
  obtain ⟨hlive,hnew⟩ := hg
  have hlive' : ∀ j d, s.connections.get j = some d → d.key = key →
      mode = .forwarder ∧ d.phase ≠ .detached :=
    fun j d hd => hlive (j,d) ((Table.mem_toList _ _ _).mpr hd)
  refine ⟨identified_register hs.identified key hnew,?_,?_⟩
  · intro i j c d hi hj hkey hor
    simp only [afterRegister,Table.get_set] at hi hj
    split at hi <;> split at hj
    · next h₁ h₂ => rw [h₁,h₂]
    · cases hi
      have hm := (hlive' j d hj hkey.symm).1
      simp [hm] at hor
    · cases hj
      obtain ⟨hm,hp⟩ := hlive' i c hi hkey
      simp [hm,hp] at hor
    · exact hs.alone i j c d hi hj hkey hor
  · refine pathsKept_congr hs.paths rfl rfl fun j id => ?_
    simp only [afterRegister,Table.get_set]
    split
    · next hj => simp [hj,hs.identified.next_free,Connection.attached]
    · rfl

theorem safe_unregister (hs : Safe mode s) {i : ℕ} {c : Connection}
    (hc : s.connections.get i = some c) (hp : c.phase = .detached) :
    Safe mode {s with
      registry := unregisterClient s.registry c.key
      connections := s.connections.remove i} := by
  have hother : ∀ j d, s.connections.get j = some d → d.key = c.key → j = i :=
    fun j d hd hkey => (hs.alone i j c d hc hd hkey.symm (.inr hp)).symm
  have hget : ∀ j d, (s.connections.remove i).get j = some d ↔
      j ≠ i ∧ s.connections.get j = some d := by
    intro j d
    rw [Table.get_remove]
    split <;> simp_all
  refine ⟨⟨?_,?_,?_,?_⟩,?_,?_⟩
  · intro j d hd
    exact hs.identified.fresh j d ((hget j d).mp hd).2
  · intro j d hd
    obtain ⟨hj,hd⟩ := (hget j d).mp hd
    rw [unregisterClient_get,if_neg fun hkey => hj (hother j d hd hkey)]
    exact hs.identified.registered j d hd
  · intro key id hid
    rw [unregisterClient_get] at hid
    split at hid
    · cases hid
    · next hne =>
      obtain ⟨j,d,hd,hkey⟩ := hs.identified.inhabited key id hid
      refine ⟨j,d,(hget j d).mpr ⟨?_,hd⟩,hkey⟩
      rintro rfl
      rw [hc] at hd
      cases hd
      exact hne hkey.symm
  · intro key key' id h h'
    rw [unregisterClient_get] at h h'
    split at h <;> split at h'
    · cases h
    · cases h
    · cases h'
    · exact hs.identified.injective key key' id h h'
  · intro j k d e hj hk
    exact hs.alone j k d e ((hget j d).mp hj).2 ((hget k e).mp hk).2
  · refine pathsKept_congr hs.paths rfl rfl fun j id => ?_
    simp only [hget]
    by_cases hj : j = i
    · subst hj
      simp [hc,Connection.attached,hp]
    · simp [hj]

/-- A phase change, after a change of the paths that leaves the rest of the tables alone. -/
theorem safe_setPhase {t : ServerState} (hs : Safe mode s) (hr : t.registry = s.registry)
    (hcs : t.connections = s.connections) (hn : t.nextConnection = s.nextConnection) {i : ℕ}
    {c : Connection} {p : Phase} (hc : s.connections.get i = some c)
    (hd : p = .detached → ∀ j d, s.connections.get j = some d → c.key = d.key → i = j)
    (hpaths : PathsKept mode (setPhase t i c p)) : Safe mode (setPhase t i c p) := by
  cases s; cases t
  subst hr hcs hn
  have hid := identified_setPhase (p := p) hs.identified hc
  exact ⟨⟨hid.fresh,hid.registered,hid.inhabited,hid.injective⟩,alone_setPhase hs.alone hc hd,
    hpaths⟩

theorem safe_step (e : Event) (t : ServerState) (hs : Safe mode s) (hg : Exclusive mode s e)
    (h : step mode s e = some t) : Safe mode t := by
  have hf := step_found h
  cases e with
  | register key =>
    cases h
    exact safe_register hs key hg
  | attach i =>
    obtain ⟨c,hc,hp,rfl⟩ := hf
    have hpaths := pathsKept_attach hs hc
    cases mode <;>
      exact safe_setPhase (t := attachPath _ s i c) hs rfl rfl rfl hc (by simp) hpaths
  | leave i =>
    obtain ⟨c,hc,hp,rfl⟩ := hf
    refine safe_setPhase hs rfl rfl rfl hc (by simp) (pathsKept_congr hs.paths rfl rfl
      fun j id => ?_)
    rw [setPhase_attached]
    split
    · next hj => simp [hj,hc,Connection.attached,hp]
    · rfl
  | detach i =>
    obtain ⟨c,hc,hp,rfl⟩ := hf
    have hlast : ∀ j d, s.connections.get j = some d → c.key = d.key → i = j :=
      fun j d hd hkey => (hg (i,c) ((Table.mem_toList _ _ _).mpr hc) (j,d)
        ((Table.mem_toList _ _ _).mpr hd) rfl hkey).symm
    have hpaths := pathsKept_detach hs hc hlast
    cases mode <;>
      exact safe_setPhase (t := detachPath _ s c) hs rfl rfl rfl hc (fun _ => hlast) hpaths
  | unregister i =>
    obtain ⟨c,hc,hp,rfl⟩ := hf
    exact safe_unregister hs hc hp

end Steps

theorem Safe.returnChannelOpen {mode : Mode} {s : ServerState} (hs : Safe mode s) {i : ℕ}
    {c : Connection} (hc : Running s i c) : returnChannelOpen mode s i := by
  cases mode with
  | forwarder => exact .inl rfl
  | tunBridge =>
    obtain ⟨r,hr,htx⟩ := (hs.paths c.sessionId i).mpr ⟨c,hc.1,rfl,.inl hc.2⟩
    exact .inr ⟨(c.sessionId,r),(Table.mem_toList _ _ _).mpr hr,htx⟩

theorem Safe.coherent {mode : Mode} {s : ServerState} (hs : Safe mode s) (hq : Quiescent s) :
    Coherent mode s := by
  have hrun : ∀ i c, s.connections.get i = some c → Running s i c :=
    fun i c hc => ⟨hc,hq (i,c) ((Table.mem_toList _ _ _).mpr hc)⟩
  have hatt : ∀ i c id, (s.connections.get i = some c ∧ c.sessionId = id ∧ c.attached) ↔
      Running s i c ∧ c.sessionId = id := by
    intro i c id
    constructor
    · rintro ⟨hc,hid,-⟩
      exact ⟨hrun i c hc,hid⟩
    · rintro ⟨hc,hid⟩
      exact ⟨hc.1,hid,.inl hc.2⟩
  refine ⟨fun key => ?_,fun i j c d hc hd => ?_,?_,?_⟩
  · rw [containsClient,Table.contains_iff]
    constructor
    · rintro ⟨id,hid⟩
      obtain ⟨i,c,hc,hkey⟩ := hs.identified.inhabited key id hid
      exact ⟨i,c,hrun i c hc,hkey⟩
    · rintro ⟨i,c,hc,rfl⟩
      exact ⟨_,hs.identified.registered i c hc.1⟩
  · constructor
    · intro hkey
      have h := hs.identified.registered i c hc.1
      rw [hkey,hs.identified.registered j d hd.1] at h
      exact (Option.some.inj h).symm
    · exact key_of_sessionId hs.identified hc.1 hd.1
  · rintro rfl id
    rw [Table.contains_iff]
    constructor
    · rintro ⟨r,hr⟩
      obtain ⟨c,hc⟩ := (hs.paths id r.tx).mp ⟨r,hr,rfl⟩
      exact ⟨r.tx,c,(hatt _ _ _).mp hc⟩
    · rintro ⟨i,c,hc⟩
      obtain ⟨r,hr,-⟩ := (hs.paths id i).mpr ⟨c,(hatt _ _ _).mpr hc⟩
      exact ⟨r,hr⟩
  · rintro rfl id
    rw [hs.paths id]
    simp only [hatt]

/-- While every step meets the condition, starting and ending connections never closes the
return channel of a running one, and the tables agree with the running connections
whenever none is starting or tearing down. -/
theorem lifecycle_coherent_of_exclusive (mode : Mode) (events : List Event) (s : ServerState)
    (hmeets : Meets (step mode) (Exclusive mode) initial events)
    (hrun : exec (step mode) initial events = some s) :
    (∀ i c, Running s i c → returnChannelOpen mode s i) ∧ (Quiescent s → Coherent mode s) := by
  have hs : Safe mode s :=
    exec_invariant (fun _ e t hi hg h => safe_step e t hi hg h) (safe_initial mode) hmeets hrun
  exact ⟨fun i c hc => hs.returnChannelOpen hc,hs.coherent⟩

/-- Two paths of one client and one of another in forwarder mode; the other one ends. -/
theorem lifecycle_coherent_two_paths :
    ∃ s, exec (step .forwarder) initial [.register "pub-a",.register "pub-b",.attach 1,.attach 0,
        .register "pub-a",.attach 2,.leave 1,.detach 1,.unregister 1] = some s ∧
      Quiescent s ∧ Coherent .forwarder s :=
  ⟨_,rfl,by decide,(lifecycle_coherent_of_exclusive .forwarder [.register "pub-a",
    .register "pub-b",.attach 1,.attach 0,.register "pub-a",.attach 2,.leave 1,.detach 1,
    .unregister 1] _ (by decide) rfl).2 (by decide)⟩

/-- TUN mode: the second connection of a client replaces the route of the first, whose
return channel closes. Forwarder mode: the end of the second connection unregisters the
client while the first one still runs. -/
theorem lifecycle_second_connection_breaks_first :
    (∃ s, exec (step .tunBridge) initial [.register "pub-a",.attach 0,.register "pub-a",
        .attach 1] = some s ∧ Quiescent s ∧ Running s 0 ⟨"pub-a",0,.running⟩ ∧
        ¬ returnChannelOpen .tunBridge s 0) ∧
      ∃ s, exec (step .forwarder) initial [.register "pub-a",.attach 0,.register "pub-a",
        .attach 1,.leave 1,.detach 1,.unregister 1] = some s ∧ Quiescent s ∧
        Running s 0 ⟨"pub-a",0,.running⟩ ∧ ¬ Coherent .forwarder s := by
  refine ⟨⟨_,rfl,by decide,⟨by decide,rfl⟩,by decide⟩,_,rfl,by decide,⟨by decide,rfl⟩,?_⟩
  intro h
  have hmem := (h.registered "pub-a").mpr ⟨0,⟨"pub-a",0,.running⟩,⟨by decide,rfl⟩,rfl⟩
  exact absurd hmem (by decide)

end Bonded.SessionLifecycle
