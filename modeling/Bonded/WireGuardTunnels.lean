import Bonded.WireGuardAdmission
import Bonded.WireGuardSystem

/-! Whether the tunnels of the WireGuard listener follow the registry: which tunnel a datagram is
passed to, and for which key that tunnel was built. -/
namespace Bonded.WireGuardTunnels

open Bootstrap Machine Session WireGuardRegistry WireGuardSystem
open WireGuardServer hiding Event

/-- A tunnel keeps the peer key it was made with. It accepts a handshake initiation exactly if the
initiation was made with that key and is not a replay. -/
structure KeyedTunnels {τ : Type} (api : TunnApi τ) (keyOf : τ → List UInt8)
    (initiator : List UInt8 → Option (List UInt8)) (replayed : τ → List UInt8 → Bool) : Prop where
  new : ∀ key index, keyOf (api.new key index) = key
  keeps : KeepsKey api keyOf
  accepts : ∀ t ip d k, initiator d = some k →
    ((api.decapsulate t ip d).1 ≠ .err ↔ keyOf t = k ∧ replayed t d = false)

section Server

variable {τ : Type} {api : TunnApi τ} {keyOf : τ → List UInt8}
  {initiator : List UInt8 → Option (List UInt8)} {replayed : τ → List UInt8 → Bool}
  (law : KeyedTunnels api keyOf initiator replayed)

include law in
/-- Calls before the search, and calls that peers of the search rejected or accepted; a peer that
accepted has its runtime. -/
theorem searchPeers_calls (peers : List WireGuardPeer) (s : ServerState τ) (src : SocketAddr)
    (data : List UInt8) (hs : ∀ c ∈ s.calls, c.2 = none) :
    ∀ c ∈ (searchPeers api src data peers s).2.calls, c.2 = none ∨
      (∃ p ∈ peers, p.devicePublicKey = c.1) ∧
      ∃ r, (searchPeers api src data peers s).2.runtimes.get c.1 = some r := by
  induction peers generalizing s with
  | nil => exact fun c hc => Or.inl (hs c hc)
  | cons peer peers ih =>
    obtain ⟨-,-,-,-,hcalls⟩ := ensurePeerRuntime_keeps api s peer
    simp only [searchPeers]
    generalize ensurePeerRuntime api s peer = made at hcalls
    obtain ⟨made,u⟩ := made
    rw [← hcalls] at hs
    cases made with
    | false => exact fun c hc => Or.inl (hs c hc)
    | true =>
      have hoffered := tryAcceptDatagram_offered law.keeps u peer.devicePublicKey src data
      simp only
      generalize tryAcceptDatagram api u peer.devicePublicKey src data = out at hoffered ⊢
      have hstop : ∀ c ∈ out.2.calls, c.2 = none ∨
          (∃ p ∈ peer::peers, p.devicePublicKey = c.1) ∧ ∃ r, out.2.runtimes.get c.1 = some r := by
        intro c hc
        rcases hoffered.calls c hc with hold | ⟨hkey,-,hr⟩
        · exact Or.inl (hs c hold)
        · rw [hkey]
          exact Or.inr ⟨⟨peer,by simp,rfl⟩,hr⟩
      obtain ⟨result,v⟩ := out
      rcases result with _ | _ | frames
      · exact hstop
      · have hnone : ∀ c ∈ v.calls, c.2 = none := fun c hc => by
          rcases hoffered.calls c hc with hold | ⟨-,hrejected,-⟩
          · exact hs c hold
          · exact hrejected rfl
        intro c hc
        rcases ih v hnone c hc with hnone | ⟨⟨p,hp,hdevice⟩,hr⟩
        · exact Or.inl hnone
        · exact Or.inr ⟨⟨p,by simp [hp],hdevice⟩,hr⟩
      · exact hstop

include law in
/-- A search leaves the runtimes of other devices alone and takes no call back. -/
theorem searchPeers_others (peers : List WireGuardPeer) (s : ServerState τ) (src : SocketAddr)
    (data : List UInt8) :
    (∀ k, k ∉ peers.map (·.devicePublicKey) →
      (searchPeers api src data peers s).2.runtimes.get k = s.runtimes.get k) ∧
    ∀ c ∈ s.calls, c ∈ (searchPeers api src data peers s).2.calls := by
  refine searchPeers_invariant api (I := fun t =>
    (∀ k, k ∉ peers.map (fun p : WireGuardPeer => p.devicePublicKey) →
      t.runtimes.get k = s.runtimes.get k) ∧ ∀ c ∈ s.calls, c ∈ t.calls) peers ?_ ?_
    (fun _ _ ht => ht) ⟨fun _ _ => rfl,fun _ hc => hc⟩
  · rintro t p hp ⟨ht,hcalls⟩
    obtain ⟨hothers,-,-,-,hsame⟩ := ensurePeerRuntime_keeps api t p
    refine ⟨fun k hk => ?_,fun c hc => hsame ▸ hcalls c hc⟩
    exact (hothers k fun heq => hk (List.mem_map.mpr ⟨p,hp,heq.symm⟩)).trans (ht k hk)
  · rintro t p hp ⟨ht,hcalls⟩
    have hoffered := tryAcceptDatagram_offered law.keeps t p.devicePublicKey src data
    refine ⟨fun k hk => ?_,fun c hc => hoffered.grows c (hcalls c hc)⟩
    exact (hoffered.others k fun heq => hk (List.mem_map.mpr ⟨p,hp,heq.symm⟩)).trans (ht k hk)

include law in
/-- A search offers an initiation to a tunnel built for its key, if a peer with that key is among
the peers and has no runtime for another key or another address. -/
theorem searchPeers_offers {peers : List WireGuardPeer} (src : SocketAddr) {data k : List UInt8}
    (hinit : initiator data = some k) (hnodup : (peers.map (·.devicePublicKey)).Nodup)
    (hdecode : ∀ p ∈ peers, ∃ key, decodePeerPublicKey api p.wgPublicKey = some key)
    {peer : WireGuardPeer} (hpeer : peer ∈ peers)
    (hkey : decodePeerPublicKey api peer.wgPublicKey = some k) {s : ServerState τ}
    (hruntime : ∀ r, s.runtimes.get peer.devicePublicKey = some r →
      keyOf r.tunn = k ∧ boundTo r src = true) :
    ∃ device r result, (device,result) ∈ (searchPeers api src data peers s).2.calls ∧
      (searchPeers api src data peers s).2.runtimes.get device = some r ∧ keyOf r.tunn = k := by
  induction peers generalizing s with
  | nil => cases hpeer
  | cons q peers ih =>
    obtain ⟨hfresh,hnodup⟩ := List.nodup_cons.mp hnodup
    obtain ⟨qkey,hqkey⟩ := hdecode q (by simp)
    obtain ⟨u,r,hu,hr,hfrom⟩ := ensurePeerRuntime_runtime (s := s) hqkey
    have hothers := (ensurePeerRuntime_keeps api s q).1
    rw [hu] at hothers
    have hoffered := tryAcceptDatagram_offered law.keeps u q.devicePublicKey src data
    simp only [searchPeers,hu]
    generalize tryAcceptDatagram api u q.devicePublicKey src data = out at hoffered ⊢
    obtain ⟨r',hr',hsame⟩ := hoffered.forward _ r hr
    -- an offer on a tunnel for the key is found again after the rest of the search
    have hdone : keyOf r.tunn = k → (∃ result, (q.devicePublicKey,result) ∈ out.2.calls) →
        ∃ device r result, (device,result) ∈ (searchPeers api src data peers out.2).2.calls ∧
          (searchPeers api src data peers out.2).2.runtimes.get device = some r ∧
          keyOf r.tunn = k := by
      rintro hk ⟨result,hcall⟩
      obtain ⟨hrest,hmore⟩ := searchPeers_others law peers out.2 src data
      exact ⟨_,r',result,hmore _ hcall,(hrest _ hfresh).trans hr',hsame.trans hk⟩
    by_cases hq : q.devicePublicKey = peer.devicePublicKey
    · have heq : q = peer := by
        rcases List.mem_cons.mp hpeer with heq | hmem
        · exact heq.symm
        · exact absurd (List.mem_map.mpr ⟨peer,hmem,hq.symm⟩) hfresh
      subst heq
      have hready : keyOf r.tunn = k ∧ boundTo r src = true := by
        rcases hfrom with hcached | ⟨id,rfl⟩
        · exact hruntime r hcached
        · obtain rfl := Option.some.inj (hqkey.symm.trans hkey)
          exact ⟨law.new _ _,by simp [boundTo]⟩
      have hcall := hoffered.bound r hr hready.2
      obtain ⟨result,v⟩ := out
      rcases result with _ | _ | frames
      · obtain ⟨result,hcall⟩ := hcall
        exact ⟨_,r',result,hcall,hr',hsame.trans hready.1⟩
      · exact hdone hready.1 hcall
      · obtain ⟨result,hcall⟩ := hcall
        exact ⟨_,r',result,hcall,hr',hsame.trans hready.1⟩
    · have hmem : peer ∈ peers := by
        rcases List.mem_cons.mp hpeer with heq | hmem
        · exact absurd (congrArg WireGuardPeer.devicePublicKey heq.symm) hq
        · exact hmem
      have hstop : out.1 ≠ some none → ∃ device r result, (device,result) ∈ out.2.calls ∧
          out.2.runtimes.get device = some r ∧ keyOf r.tunn = k := fun hout => by
        obtain ⟨herr,result,hcall⟩ := hoffered.accepted r hr hout
        have hk := ((law.accepts _ _ _ _ hinit).mp herr).1
        exact ⟨_,r',result,hcall,hr',hsame.trans hk⟩
      obtain ⟨result,v⟩ := out
      rcases result with _ | _ | frames
      · exact hstop (by simp)
      · refine ih hnodup (fun p hp => hdecode p (by simp [hp])) hmem fun x hx => ?_
        rw [hoffered.others _ (Ne.symm hq),hothers _ (Ne.symm hq)] at hx
        exact hruntime x hx
      · exact hstop (by simp)

theorem searchPeers_found {peers : List WireGuardPeer} {s : ServerState τ} {src : SocketAddr}
    {data : List UInt8} {key : String} (h : (searchPeers api src data peers s).1 = .found key) :
    ∃ p ∈ peers, p.devicePublicKey = key := by
  induction peers generalizing s with
  | nil => cases h
  | cons peer peers ih =>
    simp only [searchPeers] at h
    split at h
    · cases h
    split at h
    · cases h
    · obtain ⟨p,hp,hkey⟩ := ih h
      exact ⟨p,by simp [hp],hkey⟩
    · cases h
      exact ⟨peer,by simp,rfl⟩

/-- The runtime of a peer after a search has made sure of it. -/
theorem ensurePeerRuntime_get {s : ServerState τ} {peer : WireGuardPeer}
    {r : WireGuardPeerRuntime τ}
    (h : (ensurePeerRuntime api s peer).2.runtimes.get peer.devicePublicKey = some r) :
    s.runtimes.get peer.devicePublicKey = some r ∨
      ∃ key id, decodePeerPublicKey api peer.wgPublicKey = some key ∧
        r.tunn = api.new key (UInt32.ofNat id) := by
  rw [ensurePeerRuntime_eq] at h
  split at h
  · exact Or.inl h
  · simp only [ensurePeerRuntime.create] at h
    split at h
    · rw [Table.get_remove_self] at h
      cases h
    · next key hkey =>
      rw [Table.get_set_self] at h
      cases h
      exact Or.inr ⟨key,_,hkey,rfl⟩

end Server

section Rounds

variable {τ : Type} (api : TunnApi τ) (keyOf : τ → List UInt8)
  (initiator : List UInt8 → Option (List UInt8)) (libs : Libs) (ctx : BootstrapContext)


/-- A round that follows the registry: the tunnels that accepted the datagram were built for the
keys registered for their devices, whose leases have not expired, and an initiation made with a
registered key was passed to a tunnel built for it. -/
def FollowsRegistry (s : System τ) (e : Event τ) (t : System τ) : Prop :=
  match e with
  | .datagram _ data _ _ =>
    (∀ device frames, (device,some frames) ∈ t.server.calls →
      ∃ p r, Registered s device p ∧ t.server.runtimes.get device = some r ∧
        decodePeerPublicKey api p.wgPublicKey = some (keyOf r.tunn)) ∧
    ∀ device p k, Registered s device p → decodePeerPublicKey api p.wgPublicKey = some k →
      initiator data = some k → ∃ device' r result, (device',result) ∈ t.server.calls ∧
        t.server.runtimes.get device' = some r ∧ keyOf r.tunn = k
  | _ => True

/-- A source that is mapped to a runtime belongs to a device with a lease. -/
def MappedLive (s : System τ) (src : SocketAddr) : Prop :=
  ∀ device, matchedPeer s.server src = some device → ∃ entry ∈ leases s, entry.1 = device

/-- Nothing stands between an initiation of a registered device and its tunnel: the server runs,
the registry is not poisoned and every registered key decodes, the source is not mapped to another
device, and the device's runtime is not bound to another address. -/
def Reaches (s : System τ) (src : SocketAddr) (data : List UInt8) : Prop :=
  ∀ entry ∈ leases s, ∀ k, decodePeerPublicKey api entry.2.wgPublicKey = some k →
    initiator data = some k → s.server.ended = false ∧ s.registry.poisoned = false ∧
      (∀ other ∈ leases s, (decodePeerPublicKey api other.2.wgPublicKey).isSome = true) ∧
      (∀ device, matchedPeer s.server src = some device → device = entry.1) ∧
      ∀ r, s.server.runtimes.get entry.1 = some r → boundTo r src = true

/-- A device is provisioned only with the key that its runtime was built for. -/
def SameKey (s : System τ) (e : Event τ) : Prop :=
  ∀ keys, provisionedBy libs ctx e = some keys →
    ∀ r, s.server.runtimes.get keys.1 = some r →
      decodePeerPublicKey api keys.2 = some (keyOf r.tunn)

def Undisturbed (s : System τ) (e : Event τ) : Prop :=
  match e with
  | .datagram src data _ _ => MappedLive s src ∧ Reaches api initiator s src data
  | e => SameKey api keyOf libs ctx s e

instance (s : System τ) (src : SocketAddr) : Decidable (MappedLive s src) :=
  inferInstanceAs (Decidable (∀ device, matchedPeer s.server src = some device → _))

instance (s : System τ) (src : SocketAddr) (data : List UInt8) :
    Decidable (Reaches api initiator s src data) :=
  inferInstanceAs (Decidable (∀ entry ∈ leases s, ∀ k,
    decodePeerPublicKey api entry.2.wgPublicKey = some k → _))

instance (s : System τ) (e : Event τ) : Decidable (SameKey api keyOf libs ctx s e) :=
  inferInstanceAs (Decidable (∀ keys, provisionedBy libs ctx e = some keys → _))

instance (s : System τ) (e : Event τ) :
    Decidable (Undisturbed api keyOf initiator libs ctx s e) := by
  cases e <;> unfold Undisturbed <;> infer_instance

/-- Records stand under their device keys, and a device's runtime was built for the key that is
registered for it. -/
structure Follows (s : System τ) : Prop where
  keyed : ∀ k p, s.registry.peers.get k = some p → p.devicePublicKey = k
  matched : ∀ k p r, s.registry.peers.get k = some p → s.server.runtimes.get k = some r →
    decodePeerPublicKey api p.wgPublicKey = some (keyOf r.tunn)

variable {api keyOf initiator libs ctx} {replayed : τ → List UInt8 → Bool}
  (law : KeyedTunnels api keyOf initiator replayed) {s t : System τ}

variable {data : List UInt8} {order : List WireGuardPeer} {sends : ℕ} {src : SocketAddr}

include law in
/-- A round keeps the invariant. -/
theorem Follows.datagram (h : Follows api keyOf s)
    (ht : datagram api s src data order sends = some t) :
    Follows api keyOf t ∧ ∀ k p r, s.registry.peers.get k = some p →
      t.server.runtimes.get k = some r →
      decodePeerPublicKey api p.wgPublicKey = some (keyOf r.tunn) := by
  have hmatched : ∀ k p r, s.registry.peers.get k = some p →
      t.server.runtimes.get k = some r →
      decodePeerPublicKey api p.wgPublicKey = some (keyOf r.tunn) := by
    refine datagram_keeps_runtimes api (I := fun runtimes _ => ∀ k p r,
      s.registry.peers.get k = some p → runtimes.get k = some r →
      decodePeerPublicKey api p.wgPublicKey = some (keyOf r.tunn))
      (fun u key hu k p r hp hr => ?_) (fun peers hpeers u q hq hu k p r hp hr => ?_) h.matched ht
    · obtain ⟨x,hx,hkey⟩ := (tryAcceptDatagram_offered law.keeps u key src data).backward k r hr
      rw [hkey]
      exact hu k p x hp hx
    · by_cases hk : k = q.devicePublicKey
      · subst hk
        rcases ensurePeerRuntime_get hr with hold | ⟨key,id,hkey,hnew⟩
        · exact hu _ p r hp hold
        · have hregistered := ((mem_allPeers h.keyed hpeers q).mp hq).1
          obtain rfl := Option.some.inj (hp.symm.trans hregistered)
          rw [hkey,hnew,law.new]
      · rw [(ensurePeerRuntime_keeps api u q).1 k hk] at hr
        exact hu k p r hp hr
  refine ⟨⟨fun k p hp => h.keyed k p (datagram_registry ht k p hp),fun k p r hp hr => ?_⟩,hmatched⟩
  exact hmatched k p r (datagram_registry ht k p hp) hr

include law in
/-- A datagram is accepted for registered devices only. -/
theorem Follows.accepted (h : Follows api keyOf s)
    (ht : WireGuardSystem.datagram api s src data order sends = some t) (hmapped : MappedLive s src)
    {device : String} {frames : List SessionFrame} (hcall : (device,some frames) ∈ t.server.calls) :
    ∃ p r, Registered s device p ∧ t.server.runtimes.get device = some r ∧
      decodePeerPublicKey api p.wgPublicKey = some (keyOf r.tunn) := by
  have hbuilt := (h.datagram law ht).2
  have hfinish : (∃ p, Registered s device p) → (∃ r, t.server.runtimes.get device = some r) →
      ∃ p r, Registered s device p ∧ t.server.runtimes.get device = some r ∧
        decodePeerPublicKey api p.wgPublicKey = some (keyOf r.tunn) := by
    rintro ⟨p,hp⟩ ⟨r,hr⟩
    exact ⟨p,r,hp,hr,hbuilt device p r hp.1 hr⟩
  rcases datagram_cases ht with ⟨-,hnone,-⟩ | ⟨key,hmatched,hserver⟩ |
    ⟨-,peers,hpeers,hperm,-,hsearch⟩
  · rw [hnone] at hcall
    cases hcall
  · rw [hserver] at hcall hfinish ⊢
    obtain ⟨hruntimes,hcalls⟩ := acceptFrom_runtimes api (newRound s.server src sends) key src data
    rw [hruntimes] at hfinish ⊢
    rw [hcalls] at hcall
    rcases (tryAcceptDatagram_offered law.keeps _ key src data).calls _ hcall with hold | ⟨rfl,-,hr⟩
    · cases hold
    · obtain ⟨⟨_,p⟩,hp,rfl⟩ := hmapped _ hmatched
      exact hfinish ⟨p,(mem_leases _ _ _).mp hp⟩ hr
  · have hregistered : ∀ p ∈ order, Registered s p.devicePublicKey p := fun p hp =>
      (mem_allPeers h.keyed hpeers p).mp (hperm.mem_iff.mp hp)
    have hsearched := searchPeers_calls law order (newRound s.server src sends) src data
      (by simp [newRound])
    have hof : ∀ key, (searchPeers api src data order (newRound s.server src sends)).1 =
        .found key → ∃ p ∈ order, p.devicePublicKey = key := fun key => searchPeers_found
    have hdevice : ∀ p ∈ order, p.devicePublicKey = device → ∃ p, Registered s device p :=
      fun p hp hdevice => ⟨p,hdevice ▸ hregistered p hp⟩
    generalize searchPeers api src data order (newRound s.server src sends) = searched
      at hsearch hsearched hof
    rcases hsearch with ⟨key,hfound,hserver⟩ | ⟨hcalls,hruntimes,-⟩
    · have hoffered := tryAcceptDatagram_offered law.keeps searched.2 key src data
      obtain ⟨hruntimes,hcalls⟩ := acceptFrom_runtimes api searched.2 key src data
      rw [hserver,hcalls] at hcall
      rw [hserver,hruntimes] at hfinish
      rw [hserver,hruntimes]
      rcases hoffered.calls _ hcall with hold | ⟨rfl,-,hr⟩
      · rcases hsearched _ hold with hnone | ⟨⟨p,hp,heq⟩,r,hr⟩
        · cases hnone
        · obtain ⟨r',hr',-⟩ := hoffered.forward _ r hr
          exact hfinish (hdevice p hp heq) ⟨r',hr'⟩
      · obtain ⟨p,hp,heq⟩ := hof _ hfound
        exact hfinish (hdevice p hp heq) hr
    · rw [hcalls] at hcall
      rw [hruntimes] at hfinish ⊢
      rcases hsearched _ hcall with hnone | ⟨⟨p,hp,heq⟩,hr⟩
      · cases hnone
      · exact hfinish (hdevice p hp heq) hr

include law in
/-- An initiation reaches a tunnel built for its key. -/
theorem Follows.offered (h : Follows api keyOf s) {k : List UInt8}
    (ht : WireGuardSystem.datagram api s src data order sends = some t)
    (hreaches : Reaches api initiator s src data) {device : String} {p : WireGuardPeer}
    (hp : Registered s device p) (hkey : decodePeerPublicKey api p.wgPublicKey = some k)
    (hinit : initiator data = some k) : ∃ device' r result, (device',result) ∈ t.server.calls ∧
      t.server.runtimes.get device' = some r ∧ keyOf r.tunn = k := by
  obtain ⟨hended,hpoisoned,hdecode,hmine,hbound⟩ :=
    hreaches (device,p) ((mem_leases _ _ _).mpr hp) k hkey hinit
  have hbuilt : ∀ r, s.server.runtimes.get device = some r → keyOf r.tunn = k := fun r hr =>
    (Option.some.inj (hkey.symm.trans (h.matched device p r hp.1 hr))).symm
  rcases datagram_cases ht with ⟨hdown | hdown,-⟩ | ⟨key,hmatched,hserver⟩ |
    ⟨-,peers,hpeers,hperm,hnodup,hsearch⟩
  · rw [hended] at hdown
    cases hdown
  · rw [hpoisoned] at hdown
    cases hdown
  · obtain rfl := hmine key hmatched
    obtain ⟨r,hr⟩ := WireGuardDelivery.matchedPeer_runtime hmatched
    have hoffered := tryAcceptDatagram_offered law.keeps (newRound s.server src sends) key src data
    obtain ⟨result,hcall⟩ := hoffered.bound r hr (hbound r hr)
    obtain ⟨r',hr',hsame⟩ := hoffered.forward key r hr
    obtain ⟨hruntimes,hcalls⟩ := acceptFrom_runtimes api (newRound s.server src sends) key src data
    rw [hserver,hruntimes,hcalls]
    exact ⟨key,r',result,hcall,hr',hsame.trans (hbuilt r hr)⟩
  · have hmem : p ∈ order := by
      refine hperm.mem_iff.mpr ((mem_allPeers h.keyed hpeers p).mpr ?_)
      rw [h.keyed device p hp.1]
      exact hp
    have hdevice := h.keyed device p hp.1
    obtain ⟨device',r,result,hcall,hr,hk⟩ := searchPeers_offers law src hinit hnodup
      (fun q hq => Option.isSome_iff_exists.mp (hdecode (q.devicePublicKey,q) ((mem_leases _ _ _).mpr
        ((mem_allPeers h.keyed hpeers q).mp (hperm.mem_iff.mp hq))))) hmem hkey
      (s := newRound s.server src sends) fun r hr => by
        rw [hdevice] at hr
        exact ⟨hbuilt r hr,hbound r hr⟩
    generalize searchPeers api src data order (newRound s.server src sends) = searched
      at hsearch hcall hr
    rcases hsearch with ⟨key,-,hserver⟩ | ⟨hcalls,hruntimes,-⟩
    · have hoffered := tryAcceptDatagram_offered law.keeps searched.2 key src data
      obtain ⟨hruntimes,hcalls⟩ := acceptFrom_runtimes api searched.2 key src data
      obtain ⟨r',hr',hsame⟩ := hoffered.forward device' r hr
      rw [hserver,hruntimes,hcalls]
      exact ⟨device',r',result,hoffered.grows _ hcall,hr',hsame.trans hk⟩
    · rw [hcalls,hruntimes]
      exact ⟨device',r,result,hcall,hr,hk⟩

include law in
theorem Follows.step (h : Follows api keyOf s) {e : Event τ}
    (hg : Undisturbed api keyOf initiator libs ctx s e)
    (ht : step api keyOf libs ctx s e = some t) :
    Follows api keyOf t ∧ FollowsRegistry api keyOf initiator s e t := by
  have hprovision : ∀ device wg, (∀ r, s.server.runtimes.get device = some r →
      decodePeerPublicKey api wg = some (keyOf r.tunn)) →
      Follows api keyOf (provision s device wg) := by
    intro device wg hsame
    refine ⟨fun k p hp => ?_,fun k p r hp hr => ?_⟩
    · rcases registerPeerLease_peers _ _ _ _ k p h.keyed hp with hold | ⟨rfl,-,hdevice⟩
      · exact h.keyed k p hold
      · exact hdevice
    · rcases registerPeerLease_peers _ _ _ _ k p h.keyed hp with hold | ⟨rfl,hwg,-⟩
      · exact h.matched k p r hold hr
      · rw [hwg]
        exact hsame r hr
  cases e with
  | provision device wg =>
    cases ht
    exact ⟨hprovision device wg (hg (device,wg) rfl),trivial⟩
  | request body =>
    cases ht
    rw [request_eq]
    refine ⟨?_,trivial⟩
    split
    · next device wg hkeys => exact hprovision device wg (hg (device,wg) hkeys)
    · exact h
  | advance seconds =>
    cases ht
    exact ⟨⟨h.keyed,h.matched⟩,trivial⟩
  | datagram src data order sends =>
    exact ⟨(h.datagram law ht).1,
      fun device frames hcall => h.accepted law ht hg.1 hcall,
      fun device p k hp hkey hinit => h.offered law ht hg.2 hp hkey hinit⟩
  | cleanup device =>
    cases ht
    exact ⟨⟨h.keyed,h.matched⟩,trivial⟩
  | tunnelUse device tunn =>
    simp only [WireGuardSystem.step] at ht
    split at ht
    · cases ht
    next r hr =>
    split at ht
    · next hkey =>
      simp only [runWireguardServer,hr,Option.map_some,Option.some.injEq] at ht
      subst ht
      refine ⟨⟨h.keyed,fun k p x hp hx => ?_⟩,trivial⟩
      simp only [Table.get_set] at hx
      split at hx
      · next hk =>
        cases hx
        rw [hkey]
        exact h.matched k p r hp (hk ▸ hr)
      · exact h.matched k p x hp hx
    · cases ht

/-- A registry that is new or has been loaded from a file. -/
def StartRegistry (registry : WireGuardPeerRegistry) : Prop :=
  ∃ peerLease, registry = newWithLease peerLease ∨
    ∃ file now, loadWithLease file peerLease now true = some registry

/-- A registry and a listener that has just started. -/
def initial (τ : Type) (registry : WireGuardPeerRegistry) (now : ℕ) : System τ :=
  ⟨registry,start τ,now⟩

theorem StartRegistry.follows {registry : WireGuardPeerRegistry} (h : StartRegistry registry)
    (now : ℕ) : Follows api keyOf (initial τ registry now) := by
  refine ⟨fun k p hp => ?_,by simp [initial,start]⟩
  obtain ⟨peerLease,rfl | ⟨file,loaded,hload⟩⟩ := h
  · simp [initial,newWithLease] at hp
  · have hbound : AllBound (fun _ _ => True) registry :=
      loadWithLease_bound (fun _ _ _ _ => trivial) hload
    exact (hbound.peers k p hp).1

/-- The tunnels follow the registry in every run whose events all meet the condition. -/
theorem tunnels_follow_registry (law : KeyedTunnels api keyOf initiator replayed)
    {registry : WireGuardPeerRegistry} (hstart : StartRegistry registry) (now : ℕ)
    {es : List (Event τ)}
    (hes : Meets (step api keyOf libs ctx) (Undisturbed api keyOf initiator libs ctx)
      (initial τ registry now) es) :
    Transitions (step api keyOf libs ctx) (FollowsRegistry api keyOf initiator)
      (initial τ registry now) es := by
  refine transitions_of_meets (I := Follows api keyOf) (fun s e t hs hg ht => ?_)
    (hstart.follows now) hes
  exact hs.step law hg ht

end Rounds

section Demo

/-- A toy tunnel with its key and the datagrams it has seen. A datagram starts with its kind, 1
for an initiation, and the 32 bytes of its sender's key. -/
def keyedTunn : TunnApi (List UInt8 × List (List UInt8)) where
  base64 text := some (List.replicate 32 (UInt8.ofNat text.length))
  new key _ := (key,[])
  decapsulate tunn _ data :=
    if (data.drop 1).take 32 = tunn.1 ∧ data ∉ tunn.2 then
      (if data.head? = some 1 then .writeToNetwork [2] else .writeToTunnel (data.drop 33),
        (tunn.1,data::tunn.2))
    else (.err,tunn)
  flush tunn := ([],tunn)

def keyedInitiator (data : List UInt8) : Option (List UInt8) :=
  if data.head? = some 1 then some ((data.drop 1).take 32) else none

theorem keyedTunn_keyed :
    KeyedTunnels keyedTunn Prod.fst keyedInitiator fun tunn data => decide (data ∈ tunn.2) := by
  refine ⟨fun key index => rfl,⟨fun t ip d => ?_,fun t => rfl⟩,fun t ip d k hk => ?_⟩
  · simp only [keyedTunn]
    split <;> rfl
  · simp only [keyedInitiator] at hk
    split at hk
    · next hinit =>
      cases hk
      simp only [keyedTunn,hinit,if_true]
      split
      · next h => simpa [h.2] using h.1.symm
      · next h => simpa [eq_comm] using h
    · cases hk

/-- The initiation of a key with as many letters as `n`. -/
def initiation (n nonce : UInt8) : List UInt8 := 1::(List.replicate 32 n++[nonce])

def demoSource : SocketAddr := ⟨.v4 ⟨192,0,2,1⟩,51820⟩

/-- A device that is provisioned again with its key and connects a second time. -/
def demoReprovision : List (Event (List UInt8 × List (List UInt8))) :=
  [.provision "dev" "k",
    .datagram demoSource (initiation 1 0) [⟨"dev","k",⟨100,64,1,1⟩,1060⟩] 9,
    .advance 30,.provision "dev" "k",
    .datagram demoSource (initiation 1 1) [⟨"dev","k",⟨100,64,1,1⟩,1090⟩] 9]

theorem tunnels_follow_registry_over_reprovision :
    KeyedTunnels keyedTunn Prod.fst keyedInitiator (fun tunn data => decide (data ∈ tunn.2)) ∧
    (exec (step keyedTunn Prod.fst WireGuardAdmission.toyLibs WireGuardAdmission.toyContext)
      (initial _ (newWithLease 60) 1000) demoReprovision).isSome = true ∧
    Transitions (step keyedTunn Prod.fst WireGuardAdmission.toyLibs WireGuardAdmission.toyContext)
      (FollowsRegistry keyedTunn Prod.fst keyedInitiator) (initial _ (newWithLease 60) 1000)
      demoReprovision :=
  ⟨keyedTunn_keyed,by decide +kernel,tunnels_follow_registry keyedTunn_keyed
    ⟨60,Or.inl rfl⟩ 1000 (by decide +kernel)⟩

/-- The initiation with which the device returns under a new key, as the client does. -/
def demoReturn : Event (List UInt8 × List (List UInt8)) :=
  .datagram demoSource (initiation 2 0) [⟨"dev","kk",⟨100,64,1,1⟩,1060⟩] 9

def demoReconnect : List (Event (List UInt8 × List (List UInt8))) :=
  [.provision "dev" "k",
    .datagram demoSource (initiation 1 0) [⟨"dev","k",⟨100,64,1,1⟩,1060⟩] 9,
    .provision "dev" "kk"]

/-- The initiation with the new key is passed to the tunnel of the old one only. -/
theorem reconnect_with_new_key_not_offered :
    KeyedTunnels keyedTunn Prod.fst keyedInitiator (fun tunn data => decide (data ∈ tunn.2)) ∧
    ¬ Transitions (step keyedTunn Prod.fst WireGuardAdmission.toyLibs WireGuardAdmission.toyContext)
      (FollowsRegistry keyedTunn Prod.fst keyedInitiator) (initial _ (newWithLease 60) 1000)
      (demoReconnect++[demoReturn]) := by
  refine ⟨keyedTunn_keyed,fun h => ?_⟩
  have hbefore : (exec (step keyedTunn Prod.fst WireGuardAdmission.toyLibs
      WireGuardAdmission.toyContext) (initial _ (newWithLease 60) 1000) demoReconnect).map leases =
      some [("dev",⟨"dev","kk",⟨100,64,1,1⟩,1060⟩)] := by decide +kernel
  obtain ⟨s,hs,hleases⟩ := Option.map_eq_some_iff.mp hbefore
  have hafter : (exec (step keyedTunn Prod.fst WireGuardAdmission.toyLibs
      WireGuardAdmission.toyContext) (initial _ (newWithLease 60) 1000)
        (demoReconnect++[demoReturn])).map (fun t => (t.server.calls,(t.server.runtimes.get "dev").map fun r => r.tunn.1)) =
      some ([("dev",none)],some (List.replicate 32 1)) := by decide +kernel
  obtain ⟨t,ht,hfacts⟩ := Option.map_eq_some_iff.mp hafter
  obtain ⟨s',hs',ht⟩ := exec_append.mp ht
  obtain rfl := Option.some.inj (hs.symm.trans hs')
  obtain ⟨t',ht,hnil⟩ := exec_cons.mp ht
  cases hnil
  simp only [Prod.mk.injEq] at hfacts
  obtain ⟨hcalls,hruntime⟩ := hfacts
  obtain ⟨device,r,result,hcall,hr,hkey⟩ :=
    (h demoReconnect demoReturn s t (List.prefix_refl _) hs ht).2 "dev" _ (List.replicate 32 2)
      ((mem_leases _ _ _).mp (by rw [hleases]; exact List.mem_singleton.mpr rfl)) (by decide)
      (by decide)
  rw [hcalls,List.mem_singleton] at hcall
  cases hcall
  rw [hr] at hruntime
  exact absurd (hkey.symm.trans (Option.some.inj hruntime)) (by decide)

end Demo

end Bonded.WireGuardTunnels
