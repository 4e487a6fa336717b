import Bonded.Bootstrap

/-! Who is admitted over WireGuard: the bootstrap API and the WireGuard listener of one
server, which share the table of provisioned peers. The authorized keys and what the holders
of device keys have signed are part of the state. -/
namespace Bonded.WireGuardAdmission

open Machine Auth WireGuardServer WireGuardRegistry Bootstrap SessionRegistry

/-- One call of `registerPeerLease`, with what was true of its keys at that moment. -/
structure Provision where
  device : String
  wgKey : String
  authorized : Bool
  signed : Bool
  deriving DecidableEq, Repr

/-- The last two fields are history: the pairs of a device key and a WireGuard key that the
device's holder has bound by a signature, and the provisioning calls so far. -/
structure System (τ : Type) where
  stores : Stores
  server : ServerState τ
  signed : List (String × String)
  provisioned : List Provision
  deriving DecidableEq

/-- A server that starts with the given authorized keys and without a file of peers. -/
def initial (τ : Type) (keys : Table String AuthorizedDevice) (peerLease : ℕ) : System τ :=
  ⟨⟨keys,some ⟨∅,1,peerLease,some .absent,false⟩⟩,start τ,[],[]⟩

/-- An HTTP request or a datagram from anyone, an edit of the authorized keys, a signature
made by the holder of a device key, what other tasks do to the sessions and the tunnels,
and a restart of the server. `order` is the order of the peer table. -/
inductive Event (τ : Type)
  | request (request : Request) (now : ℕ) (writable : Bool)
  | datagram (src : SocketAddr) (data : List UInt8) (order : List WireGuardPeer)
      (sends now : ℕ) (writable : Bool)
  | keysChange (keys : Table String AuthorizedDevice)
  | deviceSigns (device wgKey : String)
  | sessionsChange (sessions : Registry)
  | tunnelUse (key : String) (tunn : τ)
  | restart (now : ℕ) (writable : Bool)

section Step

variable {τ : Type} (api : TunnApi τ) (libs : Libs) (ctx : BootstrapContext)

/-- The provisioning call that a request makes. -/
def provisionOf (s : System τ) (request : Request) : Option Provision :=
  (provisions libs ctx s.stores request).map fun keys =>
    ⟨keys.1,keys.2,isAuthorized s.stores.authorizedKeys keys.1,keys ∈ s.signed⟩

/-- The peers are looked up only for a source that is not mapped to a runtime. -/
def receive (s : System τ) (peers : WireGuardPeerRegistry) (src : SocketAddr)
    (data : List UInt8) (order : List WireGuardPeer) (sends now : ℕ) (writable : Bool) :
    Option (System τ) :=
  match matchedPeer s.server src with
  | some _ =>
    (runWireguardServer api s.server (.datagram src data [] sends)).map fun server =>
      {s with server := server}
  | none =>
    match allPeers peers now writable with
    | (none,peers) => some {s with
        stores := {s.stores with wireguardPeers := some peers}
        server := {newRound s.server src sends with ended := true}}
    | (some live,peers) =>
      if order.Perm live then
        (runWireguardServer api s.server (.datagram src data order sends)).map fun server =>
          {s with
            stores := {s.stores with wireguardPeers := some peers}
            server := server}
      else none

def step (s : System τ) : Event τ → Option (System τ)
  | .request request now writable => some {s with
      stores := (routeBootstrapRequest libs ctx s.stores request now writable).2
      provisioned := s.provisioned++(provisionOf libs ctx s request).toList}
  | .datagram src data order sends now writable =>
    match s.stores.wireguardPeers with
    | none => none
    | some peers =>
      if s.server.ended then none else receive api s peers src data order sends now writable
  | .keysChange keys => some {s with stores := {s.stores with authorizedKeys := keys}}
  | .deviceSigns device wgKey => some {s with signed := s.signed++[(device,wgKey)]}
  | .sessionsChange sessions =>
    (runWireguardServer api s.server (.sessionsChange sessions)).map fun server =>
      {s with server := server}
  | .tunnelUse key tunn =>
    (runWireguardServer api s.server (.tunnelUse key tunn)).map fun server =>
      {s with server := server}
  | .restart now writable =>
    match s.stores.wireguardPeers with
    | none => none
    | some peers =>
      match peers.file with
      | none => none
      | some file =>
        (loadWithLease file peers.peerLease now writable).map fun peers =>
          {s with stores := {s.stores with wireguardPeers := some peers}, server := start τ}

/-- The WireGuard key was provisioned for the device when the device was authorized and its
holder had signed for that key. -/
def Authenticated (s : System τ) (device wgKey : String) : Prop :=
  ∃ p ∈ s.provisioned, p.device = device ∧ p.wgKey = wgKey ∧ p.authorized = true ∧
    p.signed = true

/-- In its last round the server registered sessions and handled frames only for devices
that were authenticated for the key of their tunnel. -/
def AdmitsAuthenticated (s : System τ) : Prop :=
  (∀ e ∈ s.server.registered, Authenticated s e.1 e.2) ∧
    ∀ e ∈ s.server.handled, ∃ r, s.server.runtimes.get e.1 = some r ∧
      Authenticated s e.1 r.wgPublicKey

/-- A request that provisions a peer names an authorized device whose holder has signed for
the WireGuard key. -/
def ProvisionsAuthenticated (s : System τ) : Event τ → Prop
  | .request request _ _ => ∀ keys, provisions libs ctx s.stores request = some keys →
      isAuthorized s.stores.authorizedKeys keys.1 = true ∧ keys ∈ s.signed
  | _ => True

instance (s : System τ) (device wgKey : String) : Decidable (Authenticated s device wgKey) :=
  inferInstanceAs (Decidable (∃ p ∈ s.provisioned, _))

instance (s : System τ) (e : Event τ) : Decidable (ProvisionsAuthenticated libs ctx s e) :=
  match e with
  | .request request _ _ => decidableNext (provisions libs ctx s.stores request) fun keys =>
      isAuthorized s.stores.authorizedKeys keys.1 = true ∧ keys ∈ s.signed
  | .datagram .. | .keysChange _ | .deviceSigns .. | .sessionsChange _ | .tunnelUse ..
  | .restart .. => isTrue trivial

/-- Every runtime and every registration of the round belongs to a device and a key that
`Q` allows. -/
structure Bound (Q : String → String → Prop) (s : ServerState τ) : Prop where
  runtimes : ∀ k r, s.runtimes.get k = some r → Q k r.wgPublicKey
  registered : ∀ e ∈ s.registered, Q e.1 e.2

/-- The frames handled in the round came out of a runtime that is still there. -/
def HandledByRuntime (s : ServerState τ) : Prop :=
  ∀ e ∈ s.handled, ∃ r, s.runtimes.get e.1 = some r

section Bound

variable {Q : String → String → Prop} {s : ServerState τ}

theorem Bound.setRuntime (h : Bound Q s) {key : String} {r : WireGuardPeerRuntime τ}
    (r' : WireGuardPeerRuntime τ) (hr : s.runtimes.get key = some r) (hkey : r'.wgPublicKey = r.wgPublicKey) :
    ∀ k x, (s.runtimes.set key r').get k = some x → Q k x.wgPublicKey := by
  intro k x hx
  rw [Table.get_set] at hx
  split at hx
  · next hk =>
    cases hx
    rw [hk,hkey]
    exact h.runtimes key r hr
  · exact h.runtimes k x hx

theorem processDatagram_wgPublicKey (r : WireGuardPeerRuntime τ) (ip : IpAddr)
    (datagram : List UInt8) :
    (processDatagram api r ip datagram).2.wgPublicKey = r.wgPublicKey := by
  simp only [processDatagram]
  split <;> rfl

/-- A tunnel call changes neither the keys of the runtimes nor the record of admissions,
and an accepted datagram was accepted by a runtime that stays. -/
theorem tryAcceptDatagram_bound (h : Bound Q s) (key : String) (src : SocketAddr)
    (datagram : List UInt8) :
    let result := tryAcceptDatagram api s key src datagram
    Bound Q result.2 ∧ result.2.handled = s.handled ∧
      (result.1.isSome = true → ∃ r, result.2.runtimes.get key = some r) := by
  simp only [tryAcceptDatagram]
  cases hr : s.runtimes.get key with
  | none => exact ⟨h,rfl,by simp⟩
  | some r =>
    have hkey := processDatagram_wgPublicKey api r src.ip datagram
    by_cases hb : boundTo r src = true
    · simp only [hb,if_true]
      generalize processDatagram api r src.ip datagram = processed at hkey
      obtain ⟨decoded,r'⟩ := processed
      cases decoded with
      | none =>
        exact ⟨⟨h.setRuntime r' hr hkey,h.registered⟩,rfl,fun _ => ⟨r',Table.get_set_self _ _ _⟩⟩
      | some decoded =>
        have hset := h.setRuntime {r' with peerAddr := some src} hr hkey
        simp only
        split
        · exact ⟨⟨hset,h.registered⟩,rfl,fun _ => ⟨_,Table.get_set_self _ _ _⟩⟩
        · exact ⟨⟨hset,h.registered⟩,rfl,by simp⟩
    · simp only [hb]
      exact ⟨h,rfl,fun _ => ⟨r,hr⟩⟩

/-- A runtime is made, and a session registered, only for the peer at hand. -/
theorem ensurePeerRuntime_bound (h : Bound Q s) {peer : WireGuardPeer}
    (hq : Q peer.devicePublicKey peer.wgPublicKey) : Bound Q (ensurePeerRuntime api s peer).2 := by
  have hregistered : ∀ e ∈ s.registered++[(peer.devicePublicKey,peer.wgPublicKey)], Q e.1 e.2 := by
    intro e he
    rcases List.mem_append.mp he with hold | hnew
    · exact h.registered e hold
    · rw [List.mem_singleton.mp hnew]
      exact hq
  have hremoved : ∀ k r, (s.runtimes.remove peer.devicePublicKey).get k = some r →
      Q k r.wgPublicKey := by
    intro k r hr
    rw [Table.get_remove] at hr
    split at hr
    · cases hr
    · exact h.runtimes k r hr
  rw [ensurePeerRuntime_eq]
  split
  · exact h
  · simp only [ensurePeerRuntime.create]
    split
    · exact ⟨hremoved,hregistered⟩
    · refine ⟨fun k r hr => ?_,hregistered⟩
      simp only [Table.get_set] at hr
      split at hr
      · next hk => cases hr; rw [hk]; exact hq
      · exact hremoved k r hr

/-- Searching offers the datagram to allowed peers only; nothing is handled yet. -/
theorem searchPeers_bound (src : SocketAddr) (datagram : List UInt8) (peers : List WireGuardPeer)
    (hpeers : ∀ p ∈ peers, Q p.devicePublicKey p.wgPublicKey) (h : Bound Q s) :
    Bound Q (searchPeers api src datagram peers s).2 ∧
      (searchPeers api src datagram peers s).2.handled = s.handled := by
  refine searchPeers_invariant api (I := fun t => Bound Q t ∧ t.handled = s.handled) peers
    ?_ ?_ (fun t _ ht => ⟨⟨ht.1.runtimes,ht.1.registered⟩,ht.2⟩) ⟨h,rfl⟩
  · rintro t p hp ⟨ht,hhandled⟩
    have hkept := (ensurePeerRuntime_keeps api t p).2.2.1
    exact ⟨ensurePeerRuntime_bound api ht (hpeers p hp),hkept.trans hhandled⟩
  · rintro t p - ⟨ht,hhandled⟩
    obtain ⟨htried,hsame,-⟩ := tryAcceptDatagram_bound api ht p.devicePublicKey src datagram
    exact ⟨htried,hsame.trans hhandled⟩

theorem acceptFrom_bound (h : Bound Q s) (hempty : s.handled = []) (key : String)
    (src : SocketAddr) (datagram : List UInt8) :
    Bound Q (acceptFrom api s key src datagram) ∧
      HandledByRuntime (acceptFrom api s key src datagram) := by
  obtain ⟨htried,hsame,hthere⟩ := tryAcceptDatagram_bound api h key src datagram
  simp only [acceptFrom]
  generalize tryAcceptDatagram api s key src datagram = tried at htried hsame hthere
  obtain ⟨result,t⟩ := tried
  simp only [hempty] at htried hsame hthere
  have hnone : HandledByRuntime t := by simp [HandledByRuntime,hsame]
  rcases result with _ | _ | frames
  · exact ⟨⟨htried.runtimes,htried.registered⟩,hnone⟩
  · exact ⟨⟨htried.runtimes,htried.registered⟩,hnone⟩
  · refine ⟨⟨htried.runtimes,htried.registered⟩,?_⟩
    intro e he
    simp only [hsame,List.nil_append,List.mem_singleton] at he
    rw [he]
    exact hthere rfl

/-- One event of the listener, for peers that are all allowed. -/
theorem runWireguardServer_bound {e : WireGuardServer.Event τ} {t : ServerState τ} (h : Bound Q s)
    (hpeers : ∀ src data peers sends, e = .datagram src data peers sends →
      ∀ p ∈ peers, Q p.devicePublicKey p.wgPublicKey)
    (ht : runWireguardServer api s e = some t) : Bound Q t ∧ HandledByRuntime t := by
  cases e with
  | sessionsChange sessions =>
    cases ht
    exact ⟨⟨h.runtimes,by simp⟩,by simp [HandledByRuntime]⟩
  | tunnelUse key tunn =>
    simp only [runWireguardServer] at ht
    split at ht
    · cases ht
    · next r hr =>
      cases ht
      exact ⟨⟨h.setRuntime _ hr rfl,by simp⟩,by simp [HandledByRuntime]⟩
  | datagram src data peers sends =>
    have hround : Bound Q (newRound s src sends) := ⟨h.runtimes,by simp [newRound]⟩
    obtain ⟨hsearch,hnothing⟩ := searchPeers_bound api src data peers
      (hpeers src data peers sends rfl) hround
    simp only [runWireguardServer] at ht
    split at ht
    · cases ht
    · split at ht
      · cases ht
        exact acceptFrom_bound api hround rfl _ src data
      · generalize searchPeers api src data peers (newRound s src sends) = searched
          at hsearch hnothing ht
        obtain ⟨found,u⟩ := searched
        simp only [newRound] at hsearch hnothing
        have hnone : HandledByRuntime u := by simp [HandledByRuntime,hnothing]
        cases found with
        | failed => cases ht; exact ⟨⟨hsearch.runtimes,hsearch.registered⟩,hnone⟩
        | noMatch => cases ht; exact ⟨hsearch,hnone⟩
        | found key => cases ht; exact acceptFrom_bound api hsearch hnothing key src data

end Bound

/-- The pairs of keys that have been provisioned. -/
def Provisioned (s : System τ) (device wgKey : String) : Prop :=
  ∃ p ∈ s.provisioned, p.device = device ∧ p.wgKey = wgKey

/-- What a run keeps: every peer of the registry and its file, every runtime and every
admission goes back to a provisioning call, and all calls so far were authenticated. -/
structure Inv (s : System τ) : Prop where
  genuine : ∀ p ∈ s.provisioned, p.authorized = true ∧ p.signed = true
  peers : ∀ r, s.stores.wireguardPeers = some r → AllBound (Provisioned s) r
  server : Bound (Provisioned s) s.server
  handled : HandledByRuntime s.server

theorem Provisioned.authenticated {s : System τ} (h : Inv s) {device wgKey : String}
    (hp : Provisioned s device wgKey) : Authenticated s device wgKey := by
  obtain ⟨p,hp,hd,hw⟩ := hp
  exact ⟨p,hp,hd,hw,(h.genuine p hp).1,(h.genuine p hp).2⟩

theorem Inv.admitsAuthenticated {s : System τ} (h : Inv s) : AdmitsAuthenticated s := by
  refine ⟨fun e he => (h.server.registered e he).authenticated h,fun e he => ?_⟩
  obtain ⟨r,hr⟩ := h.handled e he
  exact ⟨r,hr,(h.server.runtimes e.1 r hr).authenticated h⟩

theorem inv_initial (keys : Table String AuthorizedDevice) (peerLease : ℕ) :
    Inv (initial τ keys peerLease) := by
  refine ⟨by simp [initial],fun r hr => ?_,⟨by simp [initial,start],by simp [initial,start]⟩,
    by simp [HandledByRuntime,initial,start]⟩
  cases hr
  exact ⟨by simp,by simp⟩

theorem inv_request {s : System τ} (h : Inv s) {request : Request} {now : ℕ} {writable : Bool}
    (hg : ProvisionsAuthenticated libs ctx s (.request request now writable)) :
    Inv {s with
      stores := (routeBootstrapRequest libs ctx s.stores request now writable).2
      provisioned := s.provisioned++(provisionOf libs ctx s request).toList} := by
  have hgrow : ∀ d w, Provisioned s d w → Provisioned {s with
      stores := (routeBootstrapRequest libs ctx s.stores request now writable).2
      provisioned := s.provisioned++(provisionOf libs ctx s request).toList} d w := by
    rintro d w ⟨p,hp,hkeys⟩
    exact ⟨p,List.mem_append_left _ hp,hkeys⟩
  refine ⟨fun p hp => ?_,fun r hr => ?_,
    ⟨fun k r hr => hgrow _ _ (h.server.runtimes k r hr),
      fun e he => hgrow _ _ (h.server.registered e he)⟩,h.handled⟩
  · rcases List.mem_append.mp hp with hold | hnew
    · exact h.genuine p hold
    · obtain ⟨keys,hkeys,rfl⟩ := Option.map_eq_some_iff.mp (Option.mem_toList.mp hnew)
      obtain ⟨hauth,hsigned⟩ := hg keys hkeys
      exact ⟨hauth,by simpa using hsigned⟩
  · simp only [routeBootstrapRequest_stores] at hr
    cases hprov : provisions libs ctx s.stores request with
    | none =>
      simp only [hprov] at hr
      exact (h.peers r hr).mono hgrow
    | some keys =>
      cases hpeers : s.stores.wireguardPeers with
      | none => simp [hprov,hpeers] at hr
      | some peers =>
        simp only [hprov,hpeers,Option.some.injEq] at hr
        subst hr
        refine ((h.peers peers hpeers).mono hgrow).registerPeerLease ?_ now writable
        have hmade : provisionOf libs ctx s request = some ⟨keys.1,keys.2,
            isAuthorized s.stores.authorizedKeys keys.1,keys ∈ s.signed⟩ := by
          simp [provisionOf,hprov]
        exact ⟨_,List.mem_append_right _ (Option.mem_toList.mpr hmade),rfl,rfl⟩

/-- What a step other than a request can do to the listener, if all peers are allowed. -/
inductive ServerMoves (Q : String → String → Prop) (changed : Registry → Prop)
    (s : ServerState τ) : ServerState τ → Prop
  | same : ServerMoves Q changed s s
  | fails (src : SocketAddr) (sends : ℕ) :
      ServerMoves Q changed s {newRound s src sends with ended := true}
  | restarts : ServerMoves Q changed s (start τ)
  | runs {e : WireGuardServer.Event τ} {t : ServerState τ}
      (hpeers : ∀ src data peers sends, e = .datagram src data peers sends →
        ∀ p ∈ peers, Q p.devicePublicKey p.wgPublicKey)
      (hchanged : ∀ sessions, e = .sessionsChange sessions → changed sessions)
      (ht : runWireguardServer api s e = some t) : ServerMoves Q changed s t

variable {api libs ctx} in
/-- A step other than a request provisions nothing and keeps every bound on the peers. -/
theorem step_moves {Q : String → String → Prop} {s t : System τ} {e : Event τ}
    (h : ∀ r, s.stores.wireguardPeers = some r → AllBound Q r)
    (hnot : ∀ request now writable, e ≠ .request request now writable)
    (ht : step api libs ctx s e = some t) :
    (∀ r, t.stores.wireguardPeers = some r → AllBound Q r) ∧ t.provisioned = s.provisioned ∧
      ServerMoves api Q (fun sessions => e = .sessionsChange sessions) s.server t.server := by
  cases e with
  | request request now writable => exact absurd rfl (hnot request now writable)
  | keysChange keys => cases ht; exact ⟨h,rfl,.same⟩
  | deviceSigns device wgKey => cases ht; exact ⟨h,rfl,.same⟩
  | sessionsChange sessions =>
    simp only [step] at ht
    obtain ⟨server,hserver,rfl⟩ := Option.map_eq_some_iff.mp ht
    exact ⟨h,rfl,.runs (by rintro _ _ _ _ ⟨⟩) (by rintro _ ⟨⟩; rfl) hserver⟩
  | tunnelUse key tunn =>
    obtain ⟨server,hserver,rfl⟩ := Option.map_eq_some_iff.mp ht
    exact ⟨h,rfl,.runs (by rintro _ _ _ _ ⟨⟩) (by rintro _ ⟨⟩) hserver⟩
  | restart now writable =>
    simp only [step] at ht
    split at ht
    · cases ht
    · next peers hpeers =>
      split at ht
      · cases ht
      · next file hfile =>
        obtain ⟨loaded,hloaded,rfl⟩ := Option.map_eq_some_iff.mp ht
        have hread : AllBound Q loaded := loadWithLease_bound
          (fun items hitems => (h peers hpeers).file items (hfile.trans (by rw [hitems]))) hloaded
        exact ⟨fun r hr => by cases hr; exact hread,rfl,.restarts⟩
  | datagram src data order sends now writable =>
    simp only [step] at ht
    split at ht
    · cases ht
    · next peers hpeers =>
      split at ht
      · cases ht
      · obtain ⟨hpruned,hlive⟩ := (h peers hpeers).allPeers now writable
        simp only [receive] at ht
        split at ht
        · obtain ⟨server,hserver,rfl⟩ := Option.map_eq_some_iff.mp ht
          exact ⟨h,rfl,.runs (by rintro _ _ _ _ ⟨⟩ p hp; cases hp) (by rintro _ ⟨⟩) hserver⟩
        · generalize allPeers peers now writable = looked at hpruned hlive ht
          obtain ⟨live,peers'⟩ := looked
          cases live with
          | none => cases ht; exact ⟨fun r hr => by cases hr; exact hpruned,rfl,.fails src sends⟩
          | some live =>
            simp only at ht
            split at ht
            · next hperm =>
              obtain ⟨server,hserver,rfl⟩ := Option.map_eq_some_iff.mp ht
              refine ⟨fun r hr => by cases hr; exact hpruned,rfl,.runs ?_ (by rintro _ ⟨⟩) hserver⟩
              rintro _ _ _ _ ⟨⟩ p hp
              exact hlive live rfl p (hperm.mem_iff.mp hp)
            · cases ht

theorem ServerMoves.bound {Q : String → String → Prop} {changed : Registry → Prop}
    {s t : ServerState τ} (h : ServerMoves api Q changed s t)
    (hs : Bound Q s ∧ HandledByRuntime s) : Bound Q t ∧ HandledByRuntime t := by
  cases h with
  | same => exact hs
  | fails src sends =>
    exact ⟨⟨hs.1.runtimes,by simp [newRound]⟩,by simp [HandledByRuntime,newRound]⟩
  | restarts => exact ⟨⟨by simp [start],by simp [start]⟩,by simp [HandledByRuntime,start]⟩
  | runs hpeers hchanged ht => exact runWireguardServer_bound api hs.1 hpeers ht

/-- One event keeps the invariant if it provisions authenticated keys only. -/
theorem inv_step {s t : System τ} {e : Event τ} (h : Inv s)
    (hg : ProvisionsAuthenticated libs ctx s e) (ht : step api libs ctx s e = some t) : Inv t := by
  by_cases hrequest : ∃ request now writable, e = .request request now writable
  · obtain ⟨request,now,writable,rfl⟩ := hrequest
    cases ht
    exact inv_request libs ctx h hg
  · simp only [not_exists] at hrequest
    obtain ⟨hpeers,hsame,hmoves⟩ := step_moves h.peers hrequest ht
    have hkept : Provisioned t = Provisioned s := by
      funext device wgKey
      simp only [Provisioned,hsame]
    obtain ⟨hbound,hhandled⟩ := hmoves.bound api ⟨h.server,h.handled⟩
    exact ⟨hsame ▸ h.genuine,hkept ▸ hpeers,hkept ▸ hbound,hhandled⟩

/-- If every request that provisions a peer names an authorized device whose holder signed
for the WireGuard key, the server admits authenticated devices only. -/
theorem admits_authenticated_of_provisions (keys : Table String AuthorizedDevice) (peerLease : ℕ)
    (es : List (Event τ))
    (h : Meets (step api libs ctx) (ProvisionsAuthenticated libs ctx) (initial τ keys peerLease) es) :
    Along (step api libs ctx) AdmitsAuthenticated (initial τ keys peerLease) es := by
  intro done t hdone ht
  obtain ⟨rest,rfl⟩ := hdone
  have hinv : Inv t := exec_invariant (fun s e u hs hg hu => inv_step api libs ctx hs hg hu)
    (inv_initial keys peerLease) (meets_append ht h).1 ht
  exact hinv.admitsAuthenticated

end Step

/-- Libraries that read every request body as a provisioning request for one pair of keys. -/
def toyLibs : Libs where
  crypto := ⟨fun _ => none,fun _ => none,fun _ => "",fun _ => false,fun _ _ _ => false⟩
  fromStr _ := some (.obj [("device_public_key",.str "dev"),("wg_public_key",.str "wg")])
  introductionFromStr _ := none
  signedPayload _ := none
  signingPayload _ := none
  introductionToJson _ _ := none
  sha256 _ := []
  signBytes _ := none

/-- A tunnel that decodes every datagram as it is. -/
def openTunn : TunnApi Unit where
  base64 _ := some (List.replicate 32 0)
  new _ _ := ()
  decapsulate _ _ datagram := (.writeToTunnel datagram,())
  flush _ := ([],())

def toyContext : BootstrapContext := ⟨none,"",some "server",none,60⟩

def provisionRequest : Request := ⟨"POST","/v1/bootstrap/wireguard/peer","",none⟩

/-- A device that is authorized and has signed for its key is admitted, also after a
restart and after its key has been removed from the store. -/
theorem admits_authenticated_over_restart :
    let src : SocketAddr := ⟨.v4 ⟨192,0,2,1⟩,51820⟩
    let frame : Session.SessionFrame := ⟨⟨1,0,0⟩,[7]⟩
    let events : List (Event Unit) := [.deviceSigns "dev" "wg",
      .request provisionRequest 1000 true,.keysChange ∅,.restart 1010 true,
      .datagram src ([0x45]++List.replicate 19 0++Session.encode frame)
        [⟨"dev","wg",⟨100,64,1,1⟩,1060⟩] 0 1020 true]
    ∃ s, exec (step openTunn toyLibs toyContext) (initial Unit (devicesMap [newDevice "dev"]) 60)
        events = some s ∧ s.server.registered = [("dev","wg")] ∧
      s.server.handled = [("dev",[frame])] ∧ AdmitsAuthenticated s := by
  intro src frame events
  have hrun : (exec (step openTunn toyLibs toyContext)
      (initial Unit (devicesMap [newDevice "dev"]) 60) events).map
        (fun s => (s.server.registered,s.server.handled)) =
      some ([("dev","wg")],[("dev",[frame])]) := by decide +kernel
  obtain ⟨s,hs,heq⟩ := Option.map_eq_some_iff.mp hrun
  refine ⟨s,hs,congrArg Prod.fst heq,congrArg Prod.snd heq,?_⟩
  exact admits_authenticated_of_provisions openTunn toyLibs toyContext _ 60 events
    (by decide +kernel) events s (List.prefix_refl _) hs

/-- Anyone can provision a key of its own for a device that is not authorized and has signed
nothing; the next datagram registers the device's session and its frame is handled. -/
theorem unauthorized_device_admitted :
    let src : SocketAddr := ⟨.v4 ⟨192,0,2,1⟩,51820⟩
    let frame : Session.SessionFrame := ⟨⟨1,0,0⟩,[7]⟩
    let events : List (Event Unit) := [.request provisionRequest 1000 true,
      .datagram src ([0x45]++List.replicate 19 0++Session.encode frame)
        [⟨"dev","wg",⟨100,64,1,1⟩,1060⟩] 0 1000 true]
    ∃ s, exec (step openTunn toyLibs toyContext) (initial Unit ∅ 60) events = some s ∧
      s.server.registered = [("dev","wg")] ∧ s.server.handled = [("dev",[frame])] ∧
      s.provisioned = [⟨"dev","wg",false,false⟩] ∧ s.signed = [] ∧ ¬ AdmitsAuthenticated s := by
  intro src frame events
  have hrun : (exec (step openTunn toyLibs toyContext) (initial Unit ∅ 60) events).map
      (fun s => (s.server.registered,s.server.handled)) =
    some ([("dev","wg")],[("dev",[frame])]) := by decide +kernel
  have hhistory : (exec (step openTunn toyLibs toyContext) (initial Unit ∅ 60) events).map
      (fun s => (s.provisioned,s.signed)) = some ([⟨"dev","wg",false,false⟩],[]) := by
    decide +kernel
  obtain ⟨s,hs,heq⟩ := Option.map_eq_some_iff.mp hrun
  simp only [hs,Option.map_some,Option.some.injEq,Prod.mk.injEq] at heq hhistory
  obtain ⟨hregistered,hhandled⟩ := heq
  obtain ⟨hprovisioned,hsigned⟩ := hhistory
  refine ⟨s,hs,hregistered,hhandled,hprovisioned,hsigned,fun h => ?_⟩
  obtain ⟨p,hp,-,-,hauthorized,-⟩ := h.1 ("dev","wg") (by simp [hregistered])
  rw [hprovisioned,List.mem_singleton] at hp
  rw [hp] at hauthorized
  cases hauthorized

end Bonded.WireGuardAdmission
