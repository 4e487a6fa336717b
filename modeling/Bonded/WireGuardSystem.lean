import Bonded.Bootstrap
import Bonded.WireGuardDelivery

/-! The provisioning API and the WireGuard listener over the registry they share, with a clock.
The registry's file writes succeed. -/
namespace Bonded.WireGuardSystem

open Bootstrap Session SessionRegistry WireGuardRegistry
open WireGuardServer hiding Event

structure System (τ : Type) where
  registry : WireGuardPeerRegistry
  server : ServerState τ
  now : ℕ
  deriving DecidableEq

/-- A provisioning call, an HTTP request that may lead to one, the passage of time, a datagram
with the order of the peer table and the number of sends that succeed, the end of a peer's task
and a use of its tunnel by that task. -/
inductive Event (τ : Type)
  | provision (device wg : String)
  | request (body : String)
  | advance (seconds : ℕ)
  | datagram (src : SocketAddr) (data : List UInt8) (order : List WireGuardPeer) (sends : ℕ)
  | cleanup (device : String)
  | tunnelUse (device : String) (tunn : τ)

section Step

variable {τ : Type} (api : TunnApi τ) (keyOf : τ → List UInt8) (libs : Libs)
  (ctx : BootstrapContext)

/-- The handler reads and changes nothing but the registry. -/
def request (s : System τ) (body : String) : Option Reply × System τ :=
  let answered := wireguardPeerResponse libs ctx ⟨∅,some s.registry⟩ body s.now true
  (answered.1,{s with registry := answered.2.wireguardPeers.getD s.registry})

def provision (s : System τ) (device wg : String) : System τ :=
  {s with registry := (registerPeerLease s.registry device wg s.now true).2}

def requestKeys (body : String) : Option (String × String) :=
  if ctx.wireguardKeypair.isSome then
    (libs.fromStr (trim body)).bind fun req =>
      let devicePk := req.strField "device_public_key"
      let wgPk := req.strField "wg_public_key"
      if devicePk = "" ∨ wgPk = "" then none else some (devicePk,wgPk)
  else none

def provisionedBy : Event τ → Option (String × String)
  | .provision device wg => some (device,wg)
  | .request body => requestKeys libs ctx body
  | _ => none

/-- A datagram for a server that has ended is read by nobody. A poisoned registry ends the
server's task. -/
def datagram (s : System τ) (src : SocketAddr) (data : List UInt8) (order : List WireGuardPeer)
    (sends : ℕ) : Option (System τ) :=
  if s.server.ended then some {s with server := newRound s.server src sends}
  else
    match matchedPeer s.server src with
    | some _ =>
      (runWireguardServer api s.server (.datagram src data [] sends)).map fun server =>
        {s with server := server}
    | none =>
      match allPeers s.registry s.now true with
      | (none,registry) => some {s with
          registry := registry
          server := {newRound s.server src sends with ended := true}}
      | (some live,registry) =>
        if order.Perm live then
          (runWireguardServer api s.server (.datagram src data order sends)).map fun server =>
            {s with registry := registry, server := server}
        else none

def step (s : System τ) : Event τ → Option (System τ)
  | .provision device wg => some (provision s device wg)
  | .request body => some (request libs ctx s body).2
  | .advance seconds => some {s with now := s.now+seconds}
  | .datagram src data order sends => datagram api s src data order sends
  | .cleanup device =>
    (runWireguardServer api s.server
      (.sessionsChange (unregisterClient s.server.sessions device))).map fun server =>
        {s with server := server}
  | .tunnelUse device tunn =>
    match s.server.runtimes.get device with
    | none => none
    | some r =>
      if keyOf tunn = keyOf r.tunn then
        (runWireguardServer api s.server (.tunnelUse device tunn)).map fun server =>
          {s with server := server}
      else none

/-- A request provisions its keys and does nothing else. -/
theorem request_eq (s : System τ) (body : String) :
    (request libs ctx s body).2 =
      match requestKeys libs ctx body with
      | some (device,wg) => provision s device wg
      | none => s := by
  unfold request requestKeys wireguardPeerResponse
  cases hkey : ctx.wireguardKeypair with
  | none => rfl
  | some key =>
    cases hbody : libs.fromStr (trim body) with
    | none => rfl
    | some req =>
      simp only [Option.isSome_some,if_true,Option.bind_some]
      split
      · rfl
      · simp only [provision]
        split <;> next heq => rw [heq]; rfl

end Step

section Offers

/-- A tunnel's uses keep a part of it that was fixed when it was made. -/
structure KeepsKey {τ : Type} (api : TunnApi τ) (keyOf : τ → List UInt8) : Prop where
  decapsulate : ∀ t ip d, keyOf (api.decapsulate t ip d).2 = keyOf t
  flush : ∀ t, keyOf (api.flush t).2 = keyOf t

variable {τ : Type} {api : TunnApi τ} {keyOf : τ → List UInt8} (keeps : KeepsKey api keyOf)

include keeps in
theorem processDatagram_keyOf (r : WireGuardPeerRuntime τ) (ip : IpAddr) (data : List UInt8) :
    keyOf (processDatagram api r ip data).2.tunn = keyOf r.tunn := by
  unfold processDatagram
  simp only
  split
  · exact keeps.decapsulate _ _ _
  · exact (keeps.flush _).trans (keeps.decapsulate _ _ _)

theorem processDatagram_not_err {r : WireGuardPeerRuntime τ} {ip : IpAddr} {data : List UInt8}
    {d : Decoded} (h : (processDatagram api r ip data).1 = some d) :
    (api.decapsulate r.tunn ip data).1 ≠ .err := by
  intro herr
  simp [processDatagram,herr,handleTunnResult] at h

/-- What one offer to a runtime does: whether it makes a call, and what it leaves alone. -/
structure Offered (api : TunnApi τ) (keyOf : τ → List UInt8) (src : SocketAddr)
    (data : List UInt8) (key : String) (s : ServerState τ)
    (out : Option (Option (List SessionFrame)) × ServerState τ) : Prop where
  sessions : out.2.sessions = s.sessions
  others : ∀ k, k ≠ key → out.2.runtimes.get k = s.runtimes.get k
  forward : ∀ k r, s.runtimes.get k = some r →
    ∃ r', out.2.runtimes.get k = some r' ∧ keyOf r'.tunn = keyOf r.tunn
  backward : ∀ k r', out.2.runtimes.get k = some r' →
    ∃ r, s.runtimes.get k = some r ∧ keyOf r'.tunn = keyOf r.tunn
  grows : ∀ c ∈ s.calls, c ∈ out.2.calls
  calls : ∀ c ∈ out.2.calls, c ∈ s.calls ∨ c.1 = key ∧ (out.1 = some none → c.2 = none) ∧
    ∃ r, out.2.runtimes.get key = some r
  bound : ∀ r, s.runtimes.get key = some r → boundTo r src = true →
    ∃ result, (key,result) ∈ out.2.calls
  accepted : ∀ r, s.runtimes.get key = some r → out.1 ≠ some none →
    (api.decapsulate r.tunn src.ip data).1 ≠ .err ∧ ∃ result, (key,result) ∈ out.2.calls

/-- An offer that makes one call and changes the runtime of one peer. -/
theorem Offered.of_call {s : ServerState τ} {key : String} {src : SocketAddr} {data : List UInt8}
    {out : Option (Option (List SessionFrame)) × ServerState τ} {r r' : WireGuardPeerRuntime τ}
    (result : Option (List SessionFrame)) (hr : s.runtimes.get key = some r)
    (hkey : keyOf r'.tunn = keyOf r.tunn) (hsessions : out.2.sessions = s.sessions)
    (hruntimes : out.2.runtimes = s.runtimes.set key r')
    (hcalls : out.2.calls = s.calls++[(key,result)]) (hnone : out.1 = some none → result = none)
    (hsome : out.1 ≠ some none → (api.decapsulate r.tunn src.ip data).1 ≠ .err) :
    Offered api keyOf src data key s out := by
  refine ⟨hsessions,fun k hk => by rw [hruntimes,Table.get_set_ne hk],fun k x hx => ?_,
    fun k y hy => ?_,fun c hc => by simp [hcalls,hc],fun c hc => ?_,
    fun _ _ _ => ⟨result,by simp [hcalls]⟩,fun x hx hout => ?_⟩
  · rw [hruntimes]
    by_cases hk : k = key
    · subst hk
      obtain rfl := Option.some.inj (hr.symm.trans hx)
      exact ⟨r',Table.get_set_self _ _ _,hkey⟩
    · exact ⟨x,by rw [Table.get_set_ne hk,hx],rfl⟩
  · rw [hruntimes] at hy
    by_cases hk : k = key
    · subst hk
      rw [Table.get_set_self] at hy
      cases hy
      exact ⟨r,hr,hkey⟩
    · rw [Table.get_set_ne hk] at hy
      exact ⟨y,hy,rfl⟩
  · rw [hcalls] at hc
    rcases List.mem_append.mp hc with hold | hnew
    · exact Or.inl hold
    · rw [List.mem_singleton.mp hnew]
      exact Or.inr ⟨rfl,hnone,r',by rw [hruntimes,Table.get_set_self]⟩
  · obtain rfl := Option.some.inj (hr.symm.trans hx)
    exact ⟨hsome hout,result,by simp [hcalls]⟩

include keeps in
theorem tryAcceptDatagram_offered (s : ServerState τ) (key : String) (src : SocketAddr)
    (data : List UInt8) :
    Offered api keyOf src data key s (tryAcceptDatagram api s key src data) := by
  unfold tryAcceptDatagram
  cases hr : s.runtimes.get key with
  | none =>
    exact ⟨rfl,fun _ _ => rfl,fun k r h => ⟨r,h,rfl⟩,fun k r h => ⟨r,h,rfl⟩,fun c hc => hc,
      fun c hc => Or.inl hc,fun r h => by simp [hr] at h,fun r h => by simp [hr] at h⟩
  | some r =>
    have hkey := processDatagram_keyOf keeps r src.ip data
    simp only
    split
    · split
      · next r' hprocess =>
        rw [hprocess] at hkey
        exact .of_call none hr hkey rfl rfl rfl (fun _ => rfl) fun h => absurd rfl h
      · next decoded r' hprocess =>
        rw [hprocess] at hkey
        have hkey' : keyOf {r' with peerAddr := some src}.tunn = keyOf r.tunn := hkey
        have herr : (api.decapsulate r.tunn src.ip data).1 ≠ .err :=
          processDatagram_not_err (by rw [hprocess])
        split
        · exact .of_call (some decoded.frames) hr hkey' rfl rfl rfl (by simp) fun _ => herr
        · exact .of_call (some decoded.frames) hr hkey' rfl rfl rfl (by simp) fun _ => herr
    · next hbound =>
      exact ⟨rfl,fun _ _ => rfl,fun k r h => ⟨r,h,rfl⟩,fun k r h => ⟨r,h,rfl⟩,fun c hc => hc,
        fun c hc => Or.inl hc,
        fun x hx hb => absurd (Option.some.inj (hr.symm.trans hx) ▸ hb) hbound,
        fun _ _ h => absurd rfl h⟩

/-- The runtime that a search has at hand for a peer whose key decodes. -/
theorem ensurePeerRuntime_runtime {s : ServerState τ} {peer : WireGuardPeer} {key : List UInt8}
    (h : decodePeerPublicKey api peer.wgPublicKey = some key) :
    ∃ u r, ensurePeerRuntime api s peer = (true,u) ∧
      u.runtimes.get peer.devicePublicKey = some r ∧
      (s.runtimes.get peer.devicePublicKey = some r ∨
        ∃ id, r = ⟨id,peer.wgPublicKey,api.new key (UInt32.ofNat id.toNat),none,[]⟩) := by
  rw [ensurePeerRuntime_eq]
  split
  · next hkept =>
    obtain ⟨r,hr⟩ := (Table.contains_iff _ _).mp hkept.1
    exact ⟨s,r,rfl,hr,Or.inl hr⟩
  · simp only [ensurePeerRuntime.create,h]
    exact ⟨_,_,rfl,Table.get_set_self _ _ _,Or.inr ⟨_,rfl⟩⟩

variable (api) in
theorem acceptFrom_runtimes (s : ServerState τ) (key : String) (src : SocketAddr)
    (data : List UInt8) :
    (acceptFrom api s key src data).runtimes =
        (tryAcceptDatagram api s key src data).2.runtimes ∧
      (acceptFrom api s key src data).calls = (tryAcceptDatagram api s key src data).2.calls := by
  unfold acceptFrom
  generalize tryAcceptDatagram api s key src data = out
  obtain ⟨result,u⟩ := out
  rcases result with _ | _ | frames <;> exact ⟨rfl,rfl⟩

end Offers

section Listing

variable {τ : Type}

/-- The device is registered with this record, and its lease has not expired. -/
def Registered (s : System τ) (device : String) (p : WireGuardPeer) : Prop :=
  s.registry.peers.get device = some p ∧ live s.now p = true

def leases (s : System τ) : List (String × WireGuardPeer) :=
  s.registry.peers.toList.filter fun entry => live s.now entry.2

theorem mem_leases (s : System τ) (device : String) (p : WireGuardPeer) :
    (device,p) ∈ leases s ↔ Registered s device p := by
  rw [leases,List.mem_filter,Table.mem_toList]
  rfl
theorem mem_allPeers {s : System τ}
    (hkeyed : ∀ k p, s.registry.peers.get k = some p → p.devicePublicKey = k) {peers : List WireGuardPeer}
    (hpeers : (allPeers s.registry s.now true).1 = some peers) (p : WireGuardPeer) :
    p ∈ peers ↔ Registered s p.devicePublicKey p := by
  rcases allPeers_true s.registry s.now with ⟨heq,-⟩ | ⟨kept,heq,-,-,hkept⟩
  · rw [heq] at hpeers
    cases hpeers
  rw [heq] at hpeers
  cases hpeers
  have hget : ∀ k q, (k,q) ∈ kept.peers.toList ↔ Registered s k q := fun k q => by
    rw [Table.mem_toList,hkept,Table.get_retain,Option.filter_eq_some_iff]
    exact Iff.rfl
  rw [List.mem_map]
  constructor
  · rintro ⟨⟨k,q⟩,hmem,rfl⟩
    have hq := (hget k q).mp hmem
    rwa [← hkeyed k q hq.1] at hq
  · exact fun hp => ⟨(p.devicePublicKey,p),(hget _ _).mpr hp,rfl⟩

end Listing

section Rounds

variable {τ : Type} {api : TunnApi τ} {I : Table String (WireGuardPeerRuntime τ) → Registry → Prop}
  {src : SocketAddr} {data : List UInt8}

variable {s t : System τ}

theorem datagram_registry {order : List WireGuardPeer}
    {sends : ℕ} (ht : datagram api s src data order sends = some t) (k : String)
    (p : WireGuardPeer) (hp : t.registry.peers.get k = some p) :
    s.registry.peers.get k = some p := by
  unfold datagram at ht
  split at ht
  · cases ht
    exact hp
  split at ht
  · obtain ⟨server,-,rfl⟩ := Option.map_eq_some_iff.mp ht
    exact hp
  rcases allPeers_true s.registry s.now with ⟨heq,-⟩ | ⟨kept,heq,-,-,hkept⟩
  · rw [heq] at ht
    cases ht
    exact hp
  · rw [heq] at ht
    simp only at ht
    split at ht
    · obtain ⟨server,-,rfl⟩ := Option.map_eq_some_iff.mp ht
      rw [hkept,Table.get_retain,Option.filter_eq_some_iff] at hp
      exact hp.1
    · cases ht

/-- What a round does to the listener: nothing, what a mapped runtime does, or what a search does
and then the peer it found. -/
theorem datagram_cases {order : List WireGuardPeer}
    {sends : ℕ} (ht : datagram api s src data order sends = some t) :
    ((s.server.ended = true ∨ s.registry.poisoned = true) ∧ t.server.calls = [] ∧
      t.server.runtimes = s.server.runtimes ∧ t.server.sessions = s.server.sessions) ∨
    (∃ key, matchedPeer s.server src = some key ∧
      t.server = acceptFrom api (newRound s.server src sends) key src data) ∨
    matchedPeer s.server src = none ∧
      ∃ peers, (allPeers s.registry s.now true).1 = some peers ∧ order.Perm peers ∧
        (order.map (·.devicePublicKey)).Nodup ∧
        ((∃ key, (searchPeers api src data order (newRound s.server src sends)).1 = .found key ∧
          t.server = acceptFrom api
            (searchPeers api src data order (newRound s.server src sends)).2 key src data) ∨
        t.server.calls =
            (searchPeers api src data order (newRound s.server src sends)).2.calls ∧
          t.server.runtimes =
            (searchPeers api src data order (newRound s.server src sends)).2.runtimes ∧
          t.server.sessions =
            (searchPeers api src data order (newRound s.server src sends)).2.sessions) := by
  unfold datagram at ht
  split at ht
  · next hended =>
    cases ht
    exact Or.inl ⟨Or.inl hended,rfl,rfl,rfl⟩
  next hended =>
  split at ht
  · next key hmatched =>
    obtain ⟨server,hserver,rfl⟩ := Option.map_eq_some_iff.mp ht
    simp only [runWireguardServer,hmatched] at hserver
    split at hserver
    · cases hserver
    · cases hserver
      exact Or.inr (Or.inl ⟨key,hmatched,rfl⟩)
  next hmatched =>
  rcases allPeers_true s.registry s.now with ⟨heq,hpoisoned⟩ | ⟨kept,heq,-,-,-⟩
  · rw [heq] at ht
    cases ht
    exact Or.inl ⟨Or.inr hpoisoned,rfl,rfl,rfl⟩
  rw [heq] at ht
  simp only at ht
  split at ht
  · next hperm =>
    obtain ⟨server,hserver,rfl⟩ := Option.map_eq_some_iff.mp ht
    refine Or.inr (Or.inr ⟨hmatched,_,by rw [heq],hperm,?_⟩)
    simp only [runWireguardServer,hmatched] at hserver
    split at hserver
    · cases hserver
    next hnodup =>
    simp only [not_or,not_not] at hnodup
    refine ⟨hnodup.2,?_⟩
    generalize searchPeers api src data order (newRound s.server src sends) = searched
      at hserver
    obtain ⟨found,u⟩ := searched
    cases found with
    | failed => cases hserver; exact Or.inr ⟨rfl,rfl,rfl⟩
    | noMatch => cases hserver; exact Or.inr ⟨rfl,rfl,rfl⟩
    | found key => cases hserver; exact Or.inl ⟨key,rfl,rfl⟩
  · cases ht

variable (api)
  (htry : ∀ (s : ServerState τ) (key : String), I s.runtimes s.sessions →
    I (tryAcceptDatagram api s key src data).2.runtimes
      (tryAcceptDatagram api s key src data).2.sessions)
include htry

/-- What looking for a peer's runtime and passing it a datagram keep is kept by a search. -/
theorem searchPeers_keeps_runtimes (peers : List WireGuardPeer)
    (hensure : ∀ s : ServerState τ, ∀ p ∈ peers, I s.runtimes s.sessions →
      I (ensurePeerRuntime api s p).2.runtimes (ensurePeerRuntime api s p).2.sessions)
    {s : ServerState τ} (h : I s.runtimes s.sessions) :
    I (searchPeers api src data peers s).2.runtimes
      (searchPeers api src data peers s).2.sessions :=
  searchPeers_invariant api (I := fun s => I s.runtimes s.sessions) peers hensure
    (fun s p _ => htry s p.devicePublicKey) (fun _ _ h => h) h

theorem acceptFrom_keeps_runtimes {s : ServerState τ} (h : I s.runtimes s.sessions) (key : String) :
    I (acceptFrom api s key src data).runtimes (acceptFrom api s key src data).sessions := by
  have htried := htry s key h
  simp only [acceptFrom]
  generalize tryAcceptDatagram api s key src data = tried at htried
  obtain ⟨result,v⟩ := tried
  rcases result with _ | _ | frames <;> exact htried

/-- What the offers of a round keep, the round keeps. -/
theorem datagram_keeps_runtimes {order : List WireGuardPeer} {sends : ℕ}
    (hensure : ∀ live, (allPeers s.registry s.now true).1 = some live →
      ∀ u : ServerState τ, ∀ p ∈ live, I u.runtimes u.sessions →
        I (ensurePeerRuntime api u p).2.runtimes (ensurePeerRuntime api u p).2.sessions)
    (h : I s.server.runtimes s.server.sessions)
    (ht : datagram api s src data order sends = some t) :
    I t.server.runtimes t.server.sessions := by
  have hround : I (newRound s.server src sends).runtimes (newRound s.server src sends).sessions := h
  rcases datagram_cases ht with ⟨-,-,hruntimes,hsessions⟩ | ⟨key,-,hserver⟩ |
    ⟨-,live,hlive,hperm,-,hsearch⟩
  · rw [hruntimes,hsessions]
    exact h
  · rw [hserver]
    exact acceptFrom_keeps_runtimes api htry hround key
  · have hsearched := searchPeers_keeps_runtimes api htry order
      (fun u p hp => hensure live hlive u p (hperm.mem_iff.mp hp)) hround
    rcases hsearch with ⟨key,-,hserver⟩ | ⟨-,hruntimes,hsessions⟩
    · rw [hserver]
      exact acceptFrom_keeps_runtimes api htry hsearched key
    · rw [hruntimes,hsessions]
      exact hsearched

end Rounds

end Bonded.WireGuardSystem
