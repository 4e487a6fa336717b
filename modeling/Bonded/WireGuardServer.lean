import Bonded.Machine
import Bonded.Packet
import Bonded.Session
import Bonded.SessionRegistry

/-! The WireGuard listener: the datagram loop of `runWireguardServer` with its source
cache and its lazily created peer runtimes. The tunnel implementation is a parameter. -/
namespace Bonded.WireGuardServer

open Packet Session SessionRegistry

inductive IpAddr
  | v4 (addr : Ipv4Addr)
  | v6 (octets : List UInt8)
  deriving DecidableEq, Repr

structure SocketAddr where
  ip : IpAddr
  port : UInt16
  deriving DecidableEq, Repr

/-- What a tunnel makes of a datagram; packets of either IP version are treated alike. -/
inductive TunnResult
  | done
  | writeToNetwork (packet : List UInt8)
  | writeToTunnel (ipPacket : List UInt8)
  | err
  deriving DecidableEq, Repr

/-- The tunnel library and the base64 decoder. `flush` stands for the calls with an empty
datagram: their results up to the first `done`. -/
structure TunnApi (τ : Type) where
  base64 : String → Option (List UInt8)
  new : List UInt8 → UInt32 → τ
  decapsulate : τ → IpAddr → List UInt8 → TunnResult × τ
  flush : τ → List TunnResult × τ

structure WireGuardPeer where
  devicePublicKey : String
  wgPublicKey : String
  peerIp : Ipv4Addr
  leaseExpiresAt : ℕ
  deriving DecidableEq, Repr

/-- A peer's tunnel with the key it was made for and the address it is bound to. -/
structure WireGuardPeerRuntime (τ : Type) where
  sessionId : UInt64
  wgPublicKey : String
  tunn : τ
  peerAddr : Option SocketAddr
  pendingRecv : List SessionFrame
  deriving DecidableEq

def unwrapFromIpv4 (ipPacket : List UInt8) : Option (List UInt8) :=
  if ipPacket.length < 20 then none
  else
    let ihl := (byteAt ipPacket 0 &&& 0x0f).toNat*4
    if ipPacket.length < ihl then none else some (ipPacket.drop ihl)

/-- The packets to send and the frames decoded so far. -/
structure Decoded where
  outbound : List (List UInt8)
  frames : List SessionFrame
  deriving DecidableEq

/-- A tunnel result is accepted unless it is an error; a packet that is no frame is skipped. -/
def handleTunnResult (result : TunnResult) (acc : Decoded) : Bool × Decoded :=
  match result with
  | .done => (true,acc)
  | .writeToNetwork packet => (true,{acc with outbound := acc.outbound++[packet]})
  | .writeToTunnel ipPacket =>
    match unwrapFromIpv4 ipPacket with
    | none => (true,acc)
    | some payload =>
      match decode payload with
      | .ok frame => (true,{acc with frames := acc.frames++[frame]})
      | .error _ => (true,acc)
  | .err => (false,acc)

section Runtime

variable {τ : Type} (api : TunnApi τ)

def decodePeerPublicKey (publicKeyB64 : String) : Option (List UInt8) :=
  match api.base64 publicKeyB64 with
  | none => none
  | some decoded => if decoded.length ≠ 32 then none else some decoded

def processDatagram (r : WireGuardPeerRuntime τ) (peerIp : IpAddr) (datagram : List UInt8) :
    Option Decoded × WireGuardPeerRuntime τ :=
  let first := api.decapsulate r.tunn peerIp datagram
  match handleTunnResult first.1 ⟨[],[]⟩ with
  | (false,_) => (none,{r with tunn := first.2})
  | (true,acc) =>
    let rest := api.flush first.2
    let all := rest.1.foldl (fun acc result => (handleTunnResult result acc).2) acc
    (some {all with frames := all.frames++r.pendingRecv},
      {r with tunn := rest.2, pendingRecv := []})

/-- Whether the runtime passes a datagram of this source to its tunnel. -/
def boundTo (r : WireGuardPeerRuntime τ) (src : SocketAddr) : Bool :=
  r.peerAddr = none ∨ r.peerAddr = some src

end Runtime

/-- The loop's variables. The last five are a record of the current round: the source of
its datagram, the decapsulation calls with the frames they gave, the calls of
`handleDecodedFrames`, the peers it registered a session for, and how many more sends will
succeed. -/
structure ServerState (τ : Type) where
  peerBySource : Table SocketAddr String
  runtimes : Table String (WireGuardPeerRuntime τ)
  sessions : Registry
  ended : Bool
  source : Option SocketAddr
  calls : List (String × Option (List SessionFrame))
  handled : List (String × List SessionFrame)
  registered : List (String × String)
  sends : ℕ
  deriving DecidableEq

def start (τ : Type) : ServerState τ := ⟨∅,∅,SessionRegistry.new,false,none,[],[],[],0⟩

section Server

variable {τ : Type} (api : TunnApi τ)

/-- `none` in the first place is an error, which ends the server; otherwise the frames of
an accepted datagram, if it was accepted. -/
def tryAcceptDatagram (s : ServerState τ) (key : String) (src : SocketAddr)
    (datagram : List UInt8) : Option (Option (List SessionFrame)) × ServerState τ :=
  match s.runtimes.get key with
  | none => (none,s)
  | some r =>
    if boundTo r src then
      match processDatagram api r src.ip datagram with
      | (none,r') =>
        (some none,{s with
          runtimes := s.runtimes.set key r'
          calls := s.calls++[(key,none)]})
      | (some decoded,r') =>
        let processed := {s with
          runtimes := s.runtimes.set key {r' with peerAddr := some src}
          calls := s.calls++[(key,some decoded.frames)]}
        if decoded.outbound.length ≤ s.sends then
          (some (some decoded.frames),{processed with sends := s.sends-decoded.outbound.length})
        else (none,processed)
    else (some none,s)

/-- A runtime whose client is still registered is reused; otherwise the client is
registered and gets a new tunnel. A key that does not decode ends the server. -/
def ensurePeerRuntime (s : ServerState τ) (peer : WireGuardPeer) : Bool × ServerState τ :=
  match s.runtimes.get peer.devicePublicKey with
  | some _ =>
    if containsClient s.sessions peer.devicePublicKey then (true,s)
    else create {s with runtimes := s.runtimes.remove peer.devicePublicKey}
  | none => create s
where
  create (s : ServerState τ) : Bool × ServerState τ :=
    let handle := registerClient s.sessions peer.devicePublicKey
    let registered := s.registered++[(peer.devicePublicKey,peer.wgPublicKey)]
    match decodePeerPublicKey api peer.wgPublicKey with
    | none => (false,{s with sessions := handle.2, registered := registered})
    | some key =>
      let runtime :=
        ⟨handle.1,peer.wgPublicKey,api.new key (UInt32.ofNat handle.1.toNat),none,[]⟩
      (true,{s with
        sessions := handle.2
        registered := registered
        runtimes := s.runtimes.set peer.devicePublicKey runtime})

inductive Search
  | failed
  | noMatch
  | found (key : String)
  deriving DecidableEq

/-- Offer a datagram of an unknown source to one peer after the other. -/
def searchPeers (src : SocketAddr) (datagram : List UInt8) :
    List WireGuardPeer → ServerState τ → Search × ServerState τ
  | [], s => (.noMatch,s)
  | peer::peers, s =>
    match ensurePeerRuntime api s peer with
    | (false,s) => (.failed,s)
    | (true,s) =>
      match tryAcceptDatagram api s peer.devicePublicKey src datagram with
      | (none,s) => (.failed,s)
      | (some none,s) => searchPeers src datagram peers s
      | (some (some _),s) =>
        (.found peer.devicePublicKey,
          {s with peerBySource := s.peerBySource.set src peer.devicePublicKey})

/-- The end of a round, for the peer that the source is mapped to or that was just found. -/
def acceptFrom (s : ServerState τ) (key : String) (src : SocketAddr) (datagram : List UInt8) :
    ServerState τ :=
  match tryAcceptDatagram api s key src datagram with
  | (none,s) => {s with ended := true}
  | (some none,s) => {s with peerBySource := s.peerBySource.remove src}
  | (some (some frames),s) =>
    {s with
      peerBySource := s.peerBySource.set src key
      handled := s.handled++[(key,frames)]}

def matchedPeer (s : ServerState τ) (src : SocketAddr) : Option String :=
  (s.peerBySource.get src).filter fun key => s.runtimes.contains key

/-- A round starts with an empty record. -/
def newRound (s : ServerState τ) (src : SocketAddr) (sends : ℕ) : ServerState τ :=
  {s with source := some src, calls := [], handled := [], registered := [], sends := sends}

/-- A datagram with the peers provisioned at that moment, in the order of the peer table,
and the number of sends that succeed; another task changes the session registry; a
peer's own task uses its tunnel. -/
inductive Event (τ : Type)
  | datagram (src : SocketAddr) (data : List UInt8) (peers : List WireGuardPeer) (sends : ℕ)
  | sessionsChange (sessions : Registry)
  | tunnelUse (key : String) (tunn : τ)

def runWireguardServer (s : ServerState τ) : Event τ → Option (ServerState τ)
  | .datagram src data peers sends =>
    if s.ended = true ∨ ¬ (peers.map (·.devicePublicKey)).Nodup then none
    else
      match matchedPeer s src with
      | some key => some (acceptFrom api (newRound s src sends) key src data)
      | none =>
        match searchPeers api src data peers (newRound s src sends) with
        | (.failed,s) => some {s with ended := true}
        | (.noMatch,s) => some s
        | (.found key,s) => some (acceptFrom api s key src data)
  | .sessionsChange sessions =>
    some {s with sessions := sessions, source := none, calls := [], handled := [], registered := []}
  | .tunnelUse key tunn =>
    match s.runtimes.get key with
    | none => none
    | some r => some {s with
        runtimes := s.runtimes.set key {r with tunn := tunn}
        source := none, calls := [], handled := [], registered := []}

/-- What a runtime accepts of a datagram, before anything is sent. -/
def accepts (r : WireGuardPeerRuntime τ) (src : SocketAddr) (datagram : List UInt8) :
    Option Decoded :=
  if boundTo r src then (processDatagram api r src.ip datagram).1 else none

/-- The runtime a peer has in a search that starts with the given registry, and the
registry after it. -/
def runtimeFor (s : ServerState τ) (sessions : Registry) (peer : WireGuardPeer) :
    Option (WireGuardPeerRuntime τ × Registry) :=
  match s.runtimes.get peer.devicePublicKey with
  | some r => if containsClient sessions peer.devicePublicKey then some (r,sessions) else fresh
  | none => fresh
where
  fresh : Option (WireGuardPeerRuntime τ × Registry) :=
    let handle := registerClient sessions peer.devicePublicKey
    (decodePeerPublicKey api peer.wgPublicKey).map fun key =>
      (⟨handle.1,peer.wgPublicKey,api.new key (UInt32.ofNat handle.1.toNat),none,[]⟩,handle.2)

/-- Some peer's tunnel accepts the datagram, before a key that does not decode. -/
def someoneAccepts (s : ServerState τ) (src : SocketAddr) (datagram : List UInt8) :
    List WireGuardPeer → Registry → Bool
  | [], _ => false
  | peer::peers, sessions =>
    match runtimeFor api s sessions peer with
    | none => false
    | some (r,sessions') =>
      (accepts api r src datagram).isSome || someoneAccepts s src datagram peers sessions'

/-- Nothing but the runtime of one peer and the record of the calls has changed. -/
structure SameBut (key : String) (s t : ServerState τ) : Prop where
  runtimes : ∀ k, k ≠ key → t.runtimes.get k = s.runtimes.get k
  sessions : t.sessions = s.sessions
  peerBySource : t.peerBySource = s.peerBySource
  handled : t.handled = s.handled
  source : t.source = s.source

variable {datagram : List UInt8} {r : WireGuardPeerRuntime τ} {src : SocketAddr}

/-- A datagram the runtime does not accept adds a rejected call if its source is right. -/
theorem tryAcceptDatagram_rejects {s : ServerState τ} {key : String}
    (hr : s.runtimes.get key = some r) (h : accepts api r src datagram = none) :
    ∃ t, tryAcceptDatagram api s key src datagram = (some none,t) ∧ SameBut key s t ∧
      t.calls = s.calls++if boundTo r src then [(key,none)] else [] := by
  simp only [tryAcceptDatagram,hr]
  simp only [accepts] at h
  split
  · next hb =>
    rw [if_pos hb] at h
    split
    · refine ⟨_,rfl,⟨fun k hk => ?_,rfl,rfl,rfl,rfl⟩,rfl⟩
      exact Table.get_set_ne hk
    · next hp => rw [hp] at h; cases h
  · exact ⟨s,rfl,⟨fun _ _ => rfl,rfl,rfl,rfl,rfl⟩,by simp⟩

/-- A datagram the runtime accepts adds one accepted call and binds the runtime. -/
theorem tryAcceptDatagram_accepts {s : ServerState τ} {key : String}
    (hr : s.runtimes.get key = some r) {d : Decoded} (h : accepts api r src datagram = some d) :
    ∃ t r', tryAcceptDatagram api s key src datagram =
        (if d.outbound.length ≤ s.sends then some (some d.frames) else none,t) ∧
      SameBut key s t ∧ t.calls = s.calls++[(key,some d.frames)] ∧
      t.runtimes.get key = some r' ∧ r'.peerAddr = some src ∧
      r'.tunn = (api.flush (api.decapsulate r.tunn src.ip datagram).2).2 := by
  simp only [tryAcceptDatagram,hr]
  simp only [accepts] at h
  split at h
  · next hb =>
    rw [if_pos hb]
    have htunn : ∀ d' r', processDatagram api r src.ip datagram = (some d',r') →
        r'.tunn = (api.flush (api.decapsulate r.tunn src.ip datagram).2).2 := by
      intro d' r' hp
      simp only [processDatagram] at hp
      split at hp
      · cases hp
      · cases hp; rfl
    split
    · next hp => rw [hp] at h; cases h
    · next d' r' hp =>
      rw [hp] at h
      cases h
      have ht := htunn d r' hp
      split
      · refine ⟨_,_,rfl,⟨fun k hk => ?_,rfl,rfl,rfl,rfl⟩,rfl,Table.get_set_self _ _ _,rfl,ht⟩
        exact Table.get_set_ne hk
      · refine ⟨_,_,rfl,⟨fun k hk => ?_,rfl,rfl,rfl,rfl⟩,rfl,Table.get_set_self _ _ _,rfl,ht⟩
        exact Table.get_set_ne hk
  · cases h

theorem accepts_not_err {d : Decoded} (h : accepts api r src datagram = some d) :
    (api.decapsulate r.tunn src.ip datagram).1 ≠ .err := by
  intro herr
  simp only [accepts,processDatagram,herr,handleTunnResult] at h
  split at h <;> cases h

/-- A tunnel call changes nothing else. -/
theorem tryAcceptDatagram_sameBut (s : ServerState τ) (key : String) (src : SocketAddr)
    (datagram : List UInt8) : SameBut key s (tryAcceptDatagram api s key src datagram).2 := by
  have hset : ∀ r' k, k ≠ key → (s.runtimes.set key r').get k = s.runtimes.get k :=
    fun _ _ hk => Table.get_set_ne hk
  unfold tryAcceptDatagram
  split
  · exact ⟨fun _ _ => rfl,rfl,rfl,rfl,rfl⟩
  split
  · split
    · exact ⟨hset _,rfl,rfl,rfl,rfl⟩
    · simp only
      split <;> exact ⟨hset _,rfl,rfl,rfl,rfl⟩
  · exact ⟨fun _ _ => rfl,rfl,rfl,rfl,rfl⟩

/-- A runtime is made, in place of the one there may be, unless its client is registered. -/
theorem ensurePeerRuntime_eq (s : ServerState τ) (peer : WireGuardPeer) :
    ensurePeerRuntime api s peer =
      if s.runtimes.contains peer.devicePublicKey = true ∧
        containsClient s.sessions peer.devicePublicKey = true then (true,s)
      else ensurePeerRuntime.create api peer
        {s with runtimes := s.runtimes.remove peer.devicePublicKey} := by
  unfold ensurePeerRuntime Table.contains
  cases hget : s.runtimes.get peer.devicePublicKey with
  | none => simp [Table.remove_eq_self hget]
  | some r => simp

/-- Making sure of a runtime touches only the registry and that runtime. -/
theorem ensurePeerRuntime_keeps (s : ServerState τ) (peer : WireGuardPeer) :
    let t := (ensurePeerRuntime api s peer).2
    (∀ k, k ≠ peer.devicePublicKey → t.runtimes.get k = s.runtimes.get k) ∧
      t.peerBySource = s.peerBySource ∧ t.handled = s.handled ∧ t.source = s.source ∧
      t.calls = s.calls := by
  rw [ensurePeerRuntime_eq]
  split
  · exact ⟨fun _ _ => rfl,rfl,rfl,rfl,rfl⟩
  · simp only [ensurePeerRuntime.create]
    split
    · exact ⟨fun k hk => Table.get_remove_ne hk,rfl,rfl,rfl,rfl⟩
    · exact ⟨fun k hk => (Table.get_set_ne hk).trans (Table.get_remove_ne hk),rfl,rfl,rfl,rfl⟩

/-- The runtime that a search finds or makes for a peer, and the registry after it. -/
theorem ensurePeerRuntime_result (s s₀ : ServerState τ) (peer : WireGuardPeer)
    (hsame : s.runtimes.get peer.devicePublicKey = s₀.runtimes.get peer.devicePublicKey) :
    match runtimeFor api s₀ s.sessions peer with
    | none => (ensurePeerRuntime api s peer).1 = false
    | some (r,sessions) => (ensurePeerRuntime api s peer).1 = true ∧
        (ensurePeerRuntime api s peer).2.runtimes.get peer.devicePublicKey = some r ∧
        (ensurePeerRuntime api s peer).2.sessions = sessions := by
  rw [ensurePeerRuntime_eq]
  by_cases hkept : s.runtimes.contains peer.devicePublicKey = true ∧
      containsClient s.sessions peer.devicePublicKey = true
  · obtain ⟨r,hr⟩ := (Table.contains_iff _ _).mp hkept.1
    simp only [runtimeFor,← hsame,hr,hkept,if_true,and_self]
  · have hfresh : runtimeFor api s₀ s.sessions peer = runtimeFor.fresh api s.sessions peer := by
      rw [runtimeFor,← hsame]
      split
      · next r hr => exact if_neg fun hc => hkept ⟨(Table.contains_iff _ _).mpr ⟨r,hr⟩,hc⟩
      · rfl
    rw [hfresh,if_neg hkept]
    simp only [ensurePeerRuntime.create,runtimeFor.fresh]
    cases decodePeerPublicKey api peer.wgPublicKey with
    | none => rfl
    | some key => exact ⟨rfl,Table.get_set_self _ _ _,rfl⟩

/-- What making sure of a runtime, offering the datagram and mapping its source keep is kept by
a search. -/
theorem searchPeers_invariant {I : ServerState τ → Prop} (peers : List WireGuardPeer)
    (hensure : ∀ s, ∀ p ∈ peers, I s → I (ensurePeerRuntime api s p).2)
    (htry : ∀ s, ∀ p ∈ peers, I s → I (tryAcceptDatagram api s p.devicePublicKey src datagram).2)
    (hfound : ∀ s key, I s → I {s with peerBySource := s.peerBySource.set src key})
    {s : ServerState τ} (h : I s) : I (searchPeers api src datagram peers s).2 := by
  induction peers generalizing s with
  | nil => exact h
  | cons peer peers ih =>
    have hmade := hensure s peer (by simp) h
    simp only [searchPeers]
    generalize ensurePeerRuntime api s peer = made at hmade
    obtain ⟨made,u⟩ := made
    cases made with
    | false => exact hmade
    | true =>
      have htried := htry u peer (by simp) hmade
      simp only
      generalize tryAcceptDatagram api u peer.devicePublicKey src datagram = tried at htried
      obtain ⟨result,v⟩ := tried
      rcases result with _ | _ | frames
      · exact htried
      · exact ih (fun s p hp => hensure s p (by simp [hp])) (fun s p hp => htry s p (by simp [hp]))
          htried
      · exact hfound v _ htried

end Server

end Bonded.WireGuardServer
