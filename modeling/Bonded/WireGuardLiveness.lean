import Bonded.WireGuardAdmission
import Bonded.WireGuardAllocation
import Bonded.WireGuardSystem

/-! Whether the WireGuard listener and the provisioning API keep serving: the listener ends at a
registered key that does not decode and at a reply that cannot be sent, and a registration that
finds no address panics with the registry locked. -/
namespace Bonded.WireGuardLiveness

open Bootstrap Machine SessionRegistry WireGuardRegistry WireGuardSystem
open WireGuardServer hiding Event
open WireGuardAllocation (Sound)

section Condition

variable {τ : Type} (api : TunnApi τ) (keyOf : τ → List UInt8) (libs : Libs)
  (ctx : BootstrapContext)

/-- The packets that a runtime sends back for a datagram. -/
def replies (r : WireGuardPeerRuntime τ) (src : SocketAddr) (data : List UInt8) : ℕ :=
  match (processDatagram api r src.ip data).1 with
  | some decoded => decoded.outbound.length
  | none => 0

/-- A search passes a datagram twice to the runtime that accepts it. -/
def repliesTwice (r : WireGuardPeerRuntime τ) (src : SocketAddr) (data : List UInt8) : ℕ :=
  replies api r src data+replies api (processDatagram api r src.ip data).2 src data

def freshRuntime (wgPublicKey : String) (key : List UInt8) (id : UInt64) :
    WireGuardPeerRuntime τ :=
  ⟨id,wgPublicKey,api.new key (UInt32.ofNat id.toNat),none,[]⟩

/-- The sends succeed that any of the runtimes, or a new one for a registered device, needs for
the datagram. -/
def Sendable (s : System τ) (src : SocketAddr) (data : List UInt8) (sends : ℕ) : Prop :=
  (∀ entry ∈ s.server.runtimes.toList, repliesTwice api entry.2 src data ≤ sends) ∧
    ∀ entry ∈ leases s, ∀ key, decodePeerPublicKey api entry.2.wgPublicKey = some key →
      ∀ id, repliesTwice api (freshRuntime api entry.2.wgPublicKey key id) src data ≤ sends

/-- The provisioned key decodes, and the device has a lease or there is room for one more. -/
def Provisionable (s : System τ) (keys : String × String) : Prop :=
  (decodePeerPublicKey api keys.2).isSome = true ∧
    ((∃ entry ∈ leases s, entry.1 = keys.1) ∨ (leases s).length < 254)

def Harmless (s : System τ) (e : Event τ) : Prop :=
  match e with
  | .datagram src data _ sends => Sendable api s src data sends
  | e => ∀ keys, provisionedBy libs ctx e = some keys → Provisionable api s keys

/-- The listener runs, the registry is not poisoned, and every registered session has a runtime. -/
def Serves (s : System τ) : Prop :=
  s.server.ended = false ∧ s.registry.poisoned = false ∧
    ∀ device, containsClient s.server.sessions device = true →
      s.server.runtimes.contains device = true

/-- Every request is answered, and a well-formed provisioning request with status 200. -/
def Answers (s : System τ) (e : Event τ) : Prop :=
  ∀ body, e = .request body → ∃ reply, (request libs ctx s body).1 = some reply ∧
    ((requestKeys libs ctx body).isSome = true → reply.1 = .ok)

end Condition

section Round

variable {τ : Type} {api : TunnApi τ} {src : SocketAddr} {data : List UInt8}

variable (api) in
theorem keepsNothing : KeepsKey api fun _ => [] := ⟨fun _ _ _ => rfl,fun _ => rfl⟩

/-- The replies do not depend on the address that a runtime is bound to. -/
theorem replies_peerAddr (r : WireGuardPeerRuntime τ) (peerAddr : Option SocketAddr) :
    replies api {r with peerAddr := peerAddr} src data = replies api r src data := by
  unfold replies processDatagram
  simp only
  generalize handleTunnResult (api.decapsulate r.tunn src.ip data).1 ⟨[],[]⟩ = first
  obtain ⟨accepted,acc⟩ := first
  cases accepted <;> rfl

/-- An offer whose replies can be sent: it is refused, or accepted and answered. -/
theorem tryAcceptDatagram_sends {s : ServerState τ} {key : String} {r : WireGuardPeerRuntime τ}
    (hr : s.runtimes.get key = some r) (hsends : replies api r src data ≤ s.sends) :
    (∃ t, tryAcceptDatagram api s key src data = (some none,t) ∧ t.sends = s.sends) ∨
    ∃ frames t, tryAcceptDatagram api s key src data = (some (some frames),t) ∧
      t.sends = s.sends-replies api r src data ∧
      ∃ r', t.runtimes.get key = some r' ∧
        replies api r' src data = replies api (processDatagram api r src.ip data).2 src data := by
  unfold tryAcceptDatagram
  simp only [hr]
  split
  · unfold replies at hsends
    split
    · exact Or.inl ⟨_,rfl,rfl⟩
    · next decoded r' hprocess =>
      simp only [hprocess] at hsends
      rw [if_pos hsends]
      refine Or.inr ⟨_,_,rfl,?_,_,Table.get_set_self _ _ _,?_⟩
      · simp only [replies,hprocess]
      · rw [hprocess]
        exact replies_peerAddr r' (some src)
  · exact Or.inl ⟨_,rfl,rfl⟩

variable (api src data) in
theorem tryAcceptDatagram_ended (s : ServerState τ) (key : String) :
    (tryAcceptDatagram api s key src data).2.ended = s.ended := by
  unfold tryAcceptDatagram
  split
  · rfl
  split
  · split
    · rfl
    · split <;> rfl
  · rfl

variable (api) in
theorem ensurePeerRuntime_sends (s : ServerState τ) (peer : WireGuardPeer) :
    (ensurePeerRuntime api s peer).2.sends = s.sends ∧
      (ensurePeerRuntime api s peer).2.ended = s.ended := by
  rw [ensurePeerRuntime_eq]
  split
  · exact ⟨rfl,rfl⟩
  · simp only [ensurePeerRuntime.create]
    split <;> exact ⟨rfl,rfl⟩

variable (api src data) in
/-- A search by itself does not end the server. -/
theorem searchPeers_ended (peers : List WireGuardPeer) (s : ServerState τ) :
    (searchPeers api src data peers s).2.ended = s.ended :=
  searchPeers_invariant api (I := fun t => t.ended = s.ended) peers
    (fun t p _ ht => (ensurePeerRuntime_sends api t p).2.trans ht)
    (fun t p _ ht => (tryAcceptDatagram_ended api src data t p.devicePublicKey).trans ht)
    (fun _ _ ht => ht) rfl

theorem acceptFrom_running {s : ServerState τ} {key : String} {r : WireGuardPeerRuntime τ}
    (hr : s.runtimes.get key = some r) (hsends : replies api r src data ≤ s.sends)
    (hs : s.ended = false) : (acceptFrom api s key src data).ended = false := by
  have hended := tryAcceptDatagram_ended api src data s key
  unfold acceptFrom
  rcases tryAcceptDatagram_sends hr hsends with ⟨t,ht,-⟩ | ⟨frames,t,ht,-⟩
  · rw [ht] at hended ⊢
    exact hended.trans hs
  · rw [ht] at hended ⊢
    exact hended.trans hs

variable (api src data) in
/-- A search does not fail where the keys decode and the replies can be sent; what is found can
take the datagram a second time. -/
theorem searchPeers_serves {peers : List WireGuardPeer}
    (hnodup : (peers.map (·.devicePublicKey)).Nodup) {s : ServerState τ}
    (hpeers : ∀ p ∈ peers, ∃ key, decodePeerPublicKey api p.wgPublicKey = some key ∧
      (∀ id, repliesTwice api (freshRuntime api p.wgPublicKey key id) src data ≤ s.sends) ∧
      ∀ r, s.runtimes.get p.devicePublicKey = some r → repliesTwice api r src data ≤ s.sends) :
    match searchPeers api src data peers s with
    | (.failed,_) => False
    | (.noMatch,_) => True
    | (.found key,t) => ∃ r, t.runtimes.get key = some r ∧ replies api r src data ≤ t.sends := by
  induction peers generalizing s with
  | nil => trivial
  | cons peer peers ih =>
    obtain ⟨hfresh,hnodup⟩ := List.nodup_cons.mp hnodup
    obtain ⟨key,hkey,hnew,hcached⟩ := hpeers peer (by simp)
    obtain ⟨u,r,hu,hr,hfrom⟩ := ensurePeerRuntime_runtime (s := s) hkey
    have hothers := (ensurePeerRuntime_keeps api s peer).1
    have hsends := (ensurePeerRuntime_sends api s peer).1
    rw [hu] at hothers hsends
    have htwice : repliesTwice api r src data ≤ u.sends := by
      rw [hsends]
      rcases hfrom with hold | ⟨id,rfl⟩
      · exact hcached r hold
      · exact hnew id
    have honce : replies api r src data ≤ u.sends := le_trans (Nat.le_add_right _ _) htwice
    have hoffered := tryAcceptDatagram_offered (keepsNothing api) u peer.devicePublicKey src data
    simp only [searchPeers,hu]
    rcases tryAcceptDatagram_sends hr honce with ⟨t,ht,hsame⟩ | ⟨frames,t,ht,hleft,r',hr',heq⟩
    · rw [ht] at hoffered ⊢
      refine ih hnodup fun p hp => ?_
      obtain ⟨pkey,hpkey,hpnew,hpcached⟩ := hpeers p (by simp [hp])
      have hne : p.devicePublicKey ≠ peer.devicePublicKey := fun heq =>
        hfresh (List.mem_map.mpr ⟨p,hp,heq⟩)
      refine ⟨pkey,hpkey,fun id => ?_,fun x hx => ?_⟩
      · rw [hsame,hsends]
        exact hpnew id
      · rw [hoffered.others _ hne,hothers _ hne] at hx
        rw [hsame,hsends]
        exact hpcached x hx
    · rw [ht]
      refine ⟨r',hr',?_⟩
      simp only
      rw [heq,hleft]
      unfold repliesTwice at htwice
      omega

end Round

section System

variable {τ : Type} {api : TunnApi τ} {keyOf : τ → List UInt8} {libs : Libs}
  {ctx : BootstrapContext} {s t : System τ}

/-- What a run without harm keeps. -/
structure Serving (api : TunnApi τ) (s : System τ) : Prop where
  clock : 0 < s.now
  registry : Sound s.registry
  decodes : ∀ k p, s.registry.peers.get k = some p →
    (decodePeerPublicKey api p.wgPublicKey).isSome = true
  running : s.server.ended = false
  built : ∀ device, containsClient s.server.sessions device = true →
    s.server.runtimes.contains device = true

theorem Serving.serves (h : Serving api s) : Serves s := ⟨h.running,h.registry.usable,h.built⟩

variable (api) in
theorem ensurePeerRuntime_sessions (u : ServerState τ) (peer : WireGuardPeer) :
    (ensurePeerRuntime api u peer).2.sessions = u.sessions ∨
      (ensurePeerRuntime api u peer).2.sessions =
        (registerClient u.sessions peer.devicePublicKey).2 := by
  rw [ensurePeerRuntime_eq]
  split
  · exact Or.inl rfl
  · simp only [ensurePeerRuntime.create]
    split <;> exact Or.inr rfl

/-- A session is registered together with its runtime. -/
theorem ensurePeerRuntime_built {u : ServerState τ} {peer : WireGuardPeer}
    (hkey : (decodePeerPublicKey api peer.wgPublicKey).isSome = true)
    (hu : ∀ device, containsClient u.sessions device = true →
      u.runtimes.contains device = true) (device : String)
    (hdevice : containsClient (ensurePeerRuntime api u peer).2.sessions device = true) :
    (ensurePeerRuntime api u peer).2.runtimes.contains device = true := by
  obtain ⟨key,hkey⟩ := Option.isSome_iff_exists.mp hkey
  obtain ⟨v,r,hv,hr,-⟩ := ensurePeerRuntime_runtime (s := u) hkey
  by_cases hsame : device = peer.devicePublicKey
  · rw [hsame,hv]
    exact (Table.contains_iff _ _).mpr ⟨r,hr⟩
  · have hsessions : containsClient u.sessions device = true := by
      rcases ensurePeerRuntime_sessions api u peer with hkept | hnew
      · rwa [hkept] at hdevice
      · rw [hnew,containsClient,Table.contains,registerClient_get,if_neg hsame] at hdevice
        exact hdevice
    unfold Table.contains
    rw [(ensurePeerRuntime_keeps api u peer).1 device hsame]
    exact hu device hsessions

variable {data : List UInt8} {order : List WireGuardPeer} {sends : ℕ} {src : SocketAddr}

/-- A round keeps a runtime for every session. -/
theorem Serving.datagram_built (h : Serving api s)
    (ht : datagram api s src data order sends = some t) :
    ∀ device, containsClient t.server.sessions device = true →
      t.server.runtimes.contains device = true := by
  refine datagram_keeps_runtimes api (I := fun runtimes sessions => ∀ device,
    containsClient sessions device = true → runtimes.contains device = true)
    (fun u key hu device hdevice => ?_) (fun peers hpeers u p hp hu => ?_) h.built ht
  · have hoffered := tryAcceptDatagram_offered (keepsNothing api) u key src data
    rw [hoffered.sessions] at hdevice
    obtain ⟨r,hr⟩ := (Table.contains_iff _ _).mp (hu device hdevice)
    obtain ⟨r',hr',-⟩ := hoffered.forward device r hr
    exact (Table.contains_iff _ _).mpr ⟨r',hr'⟩
  · have hregistered := (mem_allPeers h.registry.allocated.keyed hpeers p).mp hp
    exact ensurePeerRuntime_built (h.decodes _ p hregistered.1) hu

/-- A search whose replies can be sent does not end the listener. -/
theorem Serving.search (h : Serving api s) {peers : List WireGuardPeer}
    (hsend : Sendable api s src data sends)
    (hpeers : (allPeers s.registry s.now true).1 = some peers) (hperm : order.Perm peers)
    (hnodup : (order.map (·.devicePublicKey)).Nodup) :
    match searchPeers api src data order (newRound s.server src sends) with
    | (.failed,_) => False
    | (.noMatch,u) => u.ended = false
    | (.found key,u) => (acceptFrom api u key src data).ended = false := by
  have hround : (newRound s.server src sends).ended = false := h.running
  have hserves := searchPeers_serves api src data hnodup (s := newRound s.server src sends)
    fun p hp => by
      have hregistered := (mem_allPeers h.registry.allocated.keyed hpeers p).mp
        (hperm.mem_iff.mp hp)
      obtain ⟨key,hkey⟩ := Option.isSome_iff_exists.mp (h.decodes _ p hregistered.1)
      exact ⟨key,hkey,hsend.2 (p.devicePublicKey,p) ((mem_leases _ _ _).mpr hregistered) key hkey,
        fun r hr => hsend.1 (p.devicePublicKey,r) ((Table.mem_toList _ _ _).mpr hr)⟩
  have hended := searchPeers_ended api src data order (newRound s.server src sends)
  generalize searchPeers api src data order (newRound s.server src sends) = searched
    at hserves hended
  obtain ⟨found,u⟩ := searched
  cases found with
  | failed => exact hserves
  | noMatch => exact hended.trans hround
  | found key =>
    obtain ⟨r,hr,hreplies⟩ := hserves
    exact acceptFrom_running hr hreplies (hended.trans hround)

theorem Serving.datagram (h : Serving api s) (hsend : Sendable api s src data sends)
    (ht : datagram api s src data order sends = some t) : Serving api t := by
  have hbuilt := h.datagram_built ht
  unfold WireGuardSystem.datagram at ht
  rw [h.running,if_neg (by decide)] at ht
  split at ht
  · next key hmatched =>
    obtain ⟨r,hr⟩ := WireGuardDelivery.matchedPeer_runtime hmatched
    obtain ⟨server,hserver,rfl⟩ := Option.map_eq_some_iff.mp ht
    simp only [runWireguardServer,hmatched] at hserver
    split at hserver
    · cases hserver
    cases hserver
    have hreplies := hsend.1 (key,r) ((Table.mem_toList _ _ _).mpr hr)
    refine ⟨h.clock,h.registry,h.decodes,?_,hbuilt⟩
    exact acceptFrom_running hr (le_trans (Nat.le_add_right _ _) hreplies) h.running
  next hmatched =>
  obtain ⟨-,hsound,hget⟩ := h.registry.lookup "" s.now
  rcases allPeers_true s.registry s.now with ⟨-,hpoisoned⟩ | ⟨kept,heq,-,-,-⟩
  · rw [h.registry.usable] at hpoisoned
    cases hpoisoned
  rw [heq] at ht hsound hget
  simp only at ht hsound hget
  split at ht
  swap
  · cases ht
  next hperm =>
  obtain ⟨server,hserver,rfl⟩ := Option.map_eq_some_iff.mp ht
  have hdecodes : ∀ k p, kept.peers.get k = some p →
      (decodePeerPublicKey api p.wgPublicKey).isSome = true := fun k p hp => by
    rw [hget,Option.filter_eq_some_iff] at hp
    exact h.decodes k p hp.1
  refine ⟨h.clock,hsound,hdecodes,?_,hbuilt⟩
  simp only [runWireguardServer,hmatched] at hserver
  split at hserver
  · cases hserver
  next hnodup =>
  simp only [not_or,not_not] at hnodup
  have hsearch := h.search hsend (by rw [heq]) hperm hnodup.2
  generalize searchPeers api src data order (newRound s.server src sends) = searched
    at hserver hsearch
  obtain ⟨found,u⟩ := searched
  cases found with
  | failed => exact hsearch.elim
  | noMatch => cases hserver; exact hsearch
  | found key => cases hserver; exact hsearch

theorem Serving.provision (h : Serving api s) {device wg : String}
    (hp : Provisionable api s (device,wg)) :
    Serving api (provision s device wg) ∧
      ∃ peer, (registerPeerLease s.registry device wg s.now true).1 = some peer := by
  have hroom : (∃ p, s.registry.peers.get device = some p ∧ live s.now p = true) ∨
      (s.registry.peers.retain fun _ peer => live s.now peer).size < 254 := by
    rcases hp.2 with ⟨⟨k,p⟩,hmem,rfl⟩ | hroom
    · exact Or.inl ⟨p,(mem_leases _ _ _).mp hmem⟩
    · rw [Table.size_retain]
      exact Or.inr hroom
  obtain ⟨ip,after,heq,hsound,hget,-⟩ := h.registry.registerPeerLease h.clock device wg hroom
  refine ⟨?_,_,congrArg Prod.fst heq⟩
  unfold WireGuardSystem.provision
  rw [heq]
  refine ⟨h.clock,hsound,fun k p hp' => ?_,h.running,h.built⟩
  rw [hget] at hp'
  split at hp'
  · cases hp'
    exact hp.1
  · rw [Option.filter_eq_some_iff] at hp'
    exact h.decodes k p hp'.1

variable (libs ctx) in
/-- The answer to a request, once its registration has returned. -/
theorem request_answer (s : System τ) (body : String) :
    (requestKeys libs ctx body = none ∧ ∃ reply, (request libs ctx s body).1 = some reply) ∨
    ∃ device wg, requestKeys libs ctx body = some (device,wg) ∧
      ∀ peer, (registerPeerLease s.registry device wg s.now true).1 = some peer →
        ∃ reply, (request libs ctx s body).1 = some reply ∧ reply.1 = .ok := by
  unfold request requestKeys wireguardPeerResponse
  cases hkey : ctx.wireguardKeypair with
  | none => exact Or.inl ⟨rfl,_,rfl⟩
  | some key =>
    cases hbody : libs.fromStr (trim body) with
    | none => exact Or.inl ⟨rfl,_,rfl⟩
    | some req =>
      simp only [Option.isSome_some,if_true,Option.bind_some]
      split
      · exact Or.inl ⟨rfl,_,rfl⟩
      · refine Or.inr ⟨_,_,rfl,fun peer hpeer => ?_⟩
        split
        · next heq =>
          rw [heq] at hpeer
          cases hpeer
        · exact ⟨_,rfl,rfl⟩

theorem Serving.step (h : Serving api s) {e : Event τ} (hg : Harmless api libs ctx s e)
    (ht : step api keyOf libs ctx s e = some t) :
    Serving api t ∧ Answers libs ctx s e := by
  have hother : (∀ body, e ≠ .request body) → Answers libs ctx s e :=
    fun hne body hbody => absurd hbody (hne body)
  cases e with
  | provision device wg =>
    cases ht
    exact ⟨(h.provision (hg (device,wg) rfl)).1,hother (by simp)⟩
  | request body =>
    cases ht
    rw [request_eq]
    rcases request_answer libs ctx s body with
      ⟨hnone,hreply⟩ | ⟨device,wg,hkeys,hreply⟩
    · rw [hnone]
      refine ⟨h,fun body' heq => ?_⟩
      cases heq
      obtain ⟨reply,hreply⟩ := hreply
      exact ⟨reply,hreply,by simp [hnone]⟩
    · rw [hkeys]
      obtain ⟨hserving,peer,hpeer⟩ := h.provision (hg (device,wg) hkeys)
      refine ⟨hserving,fun body' heq => ?_⟩
      cases heq
      obtain ⟨reply,hreply,hok⟩ := hreply peer hpeer
      exact ⟨reply,hreply,fun _ => hok⟩
  | advance seconds =>
    cases ht
    exact ⟨⟨Nat.add_pos_left h.clock _,h.registry,h.decodes,h.running,h.built⟩,hother (by simp)⟩
  | datagram src data order sends => exact ⟨h.datagram hg ht,hother (by simp)⟩
  | cleanup device =>
    cases ht
    refine ⟨⟨h.clock,h.registry,h.decodes,h.running,fun k hk => ?_⟩,hother (by simp)⟩
    refine h.built k ?_
    simp only [containsClient,Table.contains,unregisterClient_get] at hk ⊢
    split at hk
    · cases hk
    · exact hk
  | tunnelUse device tunn =>
    simp only [WireGuardSystem.step] at ht
    split at ht
    · cases ht
    next r hr =>
    split at ht
    · simp only [runWireguardServer,hr,Option.map_some,Option.some.injEq] at ht
      subst ht
      refine ⟨⟨h.clock,h.registry,h.decodes,h.running,fun k hk => ?_⟩,hother (by simp)⟩
      have hold := h.built k hk
      simp only [Table.contains,Table.get_set] at hold ⊢
      split
      · rfl
      · exact hold
    · cases ht

def initial (τ : Type) (peerLease now : ℕ) : System τ := ⟨newWithLease peerLease,start τ,now⟩

/-- The listener and the provisioning API keep serving in every run without harm. -/
theorem serves_without_harm (peerLease : ℕ) {now : ℕ} (hnow : 0 < now) {es : List (Event τ)}
    (hes : Meets (step api keyOf libs ctx) (Harmless api libs ctx) (initial τ peerLease now) es) :
    Along (step api keyOf libs ctx) Serves (initial τ peerLease now) es ∧
      Transitions (step api keyOf libs ctx) (fun s e _ => Answers libs ctx s e)
        (initial τ peerLease now) es := by
  have hstart : Serving api (initial τ peerLease now) :=
    ⟨hnow,(WireGuardAllocation.Start.new peerLease now hnow).sound.registry,
      by simp [initial,newWithLease],rfl,
      fun device hdevice => by simp [initial,start,containsClient,Table.contains,
        SessionRegistry.new] at hdevice⟩
  constructor
  · exact along_of_meets (fun s hs => Serving.serves hs)
      (fun s e t hs hg ht => (hs.step hg ht).1) hstart hes
  · exact transitions_of_meets (fun s e t hs hg ht => hs.step hg ht) hstart hes

end System

section Demo

/-- A tunnel that answers every datagram with one packet; the text of a key that does not decode
is an exclamation mark. -/
def replyTunn : TunnApi Unit where
  base64 text := if text = "!" then none else some (List.replicate 32 0)
  new _ _ := ()
  decapsulate _ _ _ := (.writeToNetwork [2],())
  flush _ := ([],())

/-- A request body is the WireGuard key of one device. -/
def demoLibs : Libs :=
  {WireGuardAdmission.toyLibs with
    fromStr := fun body =>
      some (.obj [("device_public_key",.str "dev"),("wg_public_key",.str body)])}

abbrev demoStep : System Unit → Event Unit → Option (System Unit) :=
  step replyTunn (fun _ => []) demoLibs WireGuardAdmission.toyContext

def demoSource : SocketAddr := ⟨.v4 ⟨192,0,2,1⟩,51820⟩

def TwoSends (s : System Unit) (e : Event Unit) : Prop :=
  match e with
  | .datagram _ _ _ sends => 2 ≤ sends
  | e => ∀ keys, provisionedBy demoLibs WireGuardAdmission.toyContext e = some keys →
      Provisionable replyTunn s keys

instance (s : System Unit) (keys : String × String) : Decidable (Provisionable replyTunn s keys) :=
  inferInstanceAs (Decidable (_ ∧ _))

instance (s : System Unit) (e : Event Unit) : Decidable (TwoSends s e) := by
  cases e <;> unfold TwoSends <;> infer_instance

theorem TwoSends.harmless (s : System Unit) (e : Event Unit) (h : TwoSends s e) :
    Harmless replyTunn demoLibs WireGuardAdmission.toyContext s e := by
  cases e with
  | datagram src data order sends =>
    have htwice : ∀ r, repliesTwice replyTunn r src data ≤ sends := fun r => h
    exact ⟨fun _ _ => htwice _,fun _ _ _ _ _ => htwice _⟩
  | provision device wg => exact h
  | request body => exact h
  | advance seconds => exact h
  | cleanup device => exact h
  | tunnelUse device tunn => exact h

/-- A device that provisions, connects and provisions again. -/
def demoRun : List (Event Unit) :=
  [.request "k",.datagram demoSource [1] [⟨"dev","k",⟨100,64,1,1⟩,1060⟩] 2,.advance 30,
    .request "kk"]

theorem serves_without_harm_two_requests :
    (exec demoStep (initial Unit 60 1000) demoRun).isSome = true ∧
    Along demoStep Serves (initial Unit 60 1000) demoRun :=
  have hes : Meets demoStep TwoSends (initial Unit 60 1000) demoRun := by decide +kernel
  ⟨by decide +kernel,(serves_without_harm 60 (by decide) (hes.mono TwoSends.harmless)).1⟩

/-- A key that does not decode is registered with status 200, and the next datagram ends the
listener and leaves a session without a runtime. A reply that cannot be sent ends it too. -/
theorem bad_key_ends_listener :
    (∃ s, exec demoStep (initial Unit 60 1000) [.request "!",
        .datagram demoSource [1] [⟨"dev","!",⟨100,64,1,1⟩,1060⟩] 2] = some s ∧
      s.server.ended = true ∧ containsClient s.server.sessions "dev" = true ∧
      s.server.runtimes.contains "dev" = false ∧ ¬ Serves s) ∧
    ∃ s, exec demoStep (initial Unit 60 1000) [.request "k",
        .datagram demoSource [1] [⟨"dev","k",⟨100,64,1,1⟩,1060⟩] 0] = some s ∧
      s.server.ended = true ∧ ¬ Serves s := by
  have hbad : (exec demoStep (initial Unit 60 1000) [.request "!",
      .datagram demoSource [1] [⟨"dev","!",⟨100,64,1,1⟩,1060⟩] 2]).map (fun s =>
        (s.server.ended,containsClient s.server.sessions "dev",
          s.server.runtimes.contains "dev")) = some (true,true,false) := by decide +kernel
  have hunsent : (exec demoStep (initial Unit 60 1000) [.request "k",
      .datagram demoSource [1] [⟨"dev","k",⟨100,64,1,1⟩,1060⟩] 0]).map (fun s =>
        s.server.ended) = some true := by decide +kernel
  obtain ⟨s,hs,heq⟩ := Option.map_eq_some_iff.mp hbad
  simp only [Prod.mk.injEq] at heq
  obtain ⟨t,ht,hended⟩ := Option.map_eq_some_iff.mp hunsent
  refine ⟨⟨s,hs,heq.1,heq.2.1,heq.2.2,fun hserves => ?_⟩,t,ht,hended,fun hserves => ?_⟩
  · rw [hserves.1] at heq
    cases heq.1
  · rw [hserves.1] at hended
    cases hended

end Demo

end Bonded.WireGuardLiveness
