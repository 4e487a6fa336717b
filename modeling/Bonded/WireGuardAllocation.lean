import Bonded.WireGuardRegistry
import Mathlib.Data.Finset.Card

/-! Address allocation of the peer registry over whole runs: registrations, lookups, the passage
of time and restarts from the registry's own file, whose writes succeed. -/
namespace Bonded.WireGuardAllocation

open Auth Machine Packet WireGuardRegistry WireGuardServer

section Scan

/-- The octets that the scan tries, in its order. -/
def candidates (nextOctet : UInt8) : List UInt8 :=
  (List.range 254).map fun offset =>
    UInt8.ofNat (((normalizeOctet nextOctet).toNat-1+offset)%254+1)

theorem normalizeOctet_range (octet : UInt8) :
    1 ≤ (normalizeOctet octet).toNat ∧ (normalizeOctet octet).toNat ≤ 254 := by
  unfold normalizeOctet
  split
  · decide
  · next h =>
    have hzero : octet.toNat ≠ 0 := fun heq => h (Or.inl (UInt8.toNat_inj.mp heq))
    have hmin : min octet 254 = if octet ≤ 254 then octet else 254 := rfl
    rw [hmin]
    split
    · next hle =>
      have hle : octet.toNat ≤ 254 := UInt8.le_iff_toNat_le.mp hle
      omega
    · decide

theorem toNat_candidate (n : ℕ) : (UInt8.ofNat (n%254+1)).toNat = n%254+1 := by
  simp only [UInt8.toNat_ofNat']
  omega

theorem candidates_range {nextOctet candidate : UInt8} (h : candidate ∈ candidates nextOctet) :
    1 ≤ candidate.toNat ∧ candidate.toNat ≤ 254 := by
  obtain ⟨offset,-,rfl⟩ := List.mem_map.mp h
  rw [toNat_candidate]
  omega

theorem candidates_nodup (nextOctet : UInt8) : (candidates nextOctet).Nodup := by
  refine List.Nodup.map_on (fun i hi j hj heq => ?_) List.nodup_range
  have heq := congrArg UInt8.toNat heq
  rw [toNat_candidate,toNat_candidate] at heq
  have hi := List.mem_range.mp hi
  have hj := List.mem_range.mp hj
  omega

theorem allocatePeerIp_eq (peers : Table String WireGuardPeer) (nextOctet : UInt8) :
    allocatePeerIp peers nextOctet =
      ((candidates nextOctet).find? fun candidate =>
        ¬ peers.toList.any fun entry => entry.2.peerIp.d = candidate).map fun candidate =>
          (⟨100,64,1,candidate⟩,normalizeOctet (saturatingSucc candidate)) := rfl

/-- The scan finds an octet wherever it starts, as long as the table has fewer than 254 peers. -/
theorem allocatePeerIp_of_size_lt {peers : Table String WireGuardPeer} (h : peers.size < 254)
    (nextOctet : UInt8) : ∃ result, allocatePeerIp peers nextOctet = some result := by
  rw [allocatePeerIp_eq]
  cases hfind : (candidates nextOctet).find? fun candidate =>
      ¬ peers.toList.any fun entry => entry.2.peerIp.d = candidate with
  | some candidate => exact ⟨_,rfl⟩
  | none =>
    have hused : (candidates nextOctet).toFinset ⊆
        (peers.toList.map fun entry => entry.2.peerIp.d).toFinset := by
      intro candidate hcandidate
      have hno := List.find?_eq_none.mp hfind candidate (List.mem_toFinset.mp hcandidate)
      simp only [List.mem_toFinset,List.mem_map]
      simpa using hno
    have hcard := Finset.card_le_card hused
    rw [List.toFinset_card_of_nodup (candidates_nodup nextOctet)] at hcard
    have hle := List.toFinset_card_le (peers.toList.map fun entry => entry.2.peerIp.d)
    rw [List.length_map,Table.length_toList] at hle
    simp only [candidates,List.length_map,List.length_range] at hcard
    omega

theorem allocatePeerIp_fresh {peers : Table String WireGuardPeer} {nextOctet octet : UInt8}
    {ip : Ipv4Addr} (h : allocatePeerIp peers nextOctet = some (ip,octet)) :
    (∃ o : UInt8, 1 ≤ o.toNat ∧ o.toNat ≤ 254 ∧ ip = ⟨100,64,1,o⟩) ∧
      ∀ k p, peers.get k = some p → p.peerIp.d ≠ ip.d := by
  rw [allocatePeerIp_eq,Option.map_eq_some_iff] at h
  obtain ⟨candidate,hfind,heq⟩ := h
  cases heq
  obtain ⟨hlow,hhigh⟩ := candidates_range (List.mem_of_find?_eq_some hfind)
  refine ⟨⟨candidate,hlow,hhigh,rfl⟩,fun k p hp hd => ?_⟩
  have hfree := List.find?_some hfind
  simp only [List.any_eq_true,decide_eq_true_eq,not_exists] at hfree
  exact hfree (k,p) ⟨(Table.mem_toList _ _ _).mpr hp,hd⟩

end Scan

section Invariant

/-- An address that the registry can hand out. -/
def HostAddress (ip : Ipv4Addr) : Prop :=
  ∃ o : UInt8, 1 ≤ o.toNat ∧ o.toNat ≤ 254 ∧ ip = ⟨100,64,1,o⟩

/-- The table keeps every peer under its device key, with a lease and an address of its own. -/
structure Allocated (peers : Table String WireGuardPeer) : Prop where
  keyed : ∀ k p, peers.get k = some p → p.devicePublicKey = k
  leased : ∀ k p, peers.get k = some p → p.leaseExpiresAt ≠ 0
  host : ∀ k p, peers.get k = some p → HostAddress p.peerIp
  apart : ∀ k k' p p', peers.get k = some p → peers.get k' = some p' →
    p.peerIp = p'.peerIp → k = k'

/-- The records of a file are those of a table. -/
def Lists (peers : Table String WireGuardPeer) (items : List WireGuardPeer) : Prop :=
  (items.map fun p => p.devicePublicKey).Nodup ∧
    ∀ p, p ∈ items ↔ peers.get p.devicePublicKey = some p

/-- A file that holds the table; a registry that has never written has no file yet. -/
def Holds (peers : Table String WireGuardPeer) : File WireGuardPeer → Prop
  | .absent => ∀ k, peers.get k = none
  | .broken => False
  | .entries items => Lists peers items

structure Sound (r : WireGuardPeerRegistry) : Prop where
  usable : r.poisoned = false
  allocated : Allocated r.peers
  synced : ∀ file, r.file = some file → Holds r.peers file

variable {peers : Table String WireGuardPeer} {r : WireGuardPeerRegistry}

theorem Allocated.mono (h : Allocated peers) {fewer : Table String WireGuardPeer}
    (hget : ∀ k p, fewer.get k = some p → peers.get k = some p) : Allocated fewer :=
  ⟨fun k p hp => h.keyed k p (hget k p hp),fun k p hp => h.leased k p (hget k p hp),
    fun k p hp => h.host k p (hget k p hp),
    fun k k' p p' hp hp' => h.apart k k' p p' (hget k p hp) (hget k' p' hp')⟩

theorem Allocated.set (h : Allocated peers) (peer : WireGuardPeer)
    (hlease : peer.leaseExpiresAt ≠ 0) (hhost : HostAddress peer.peerIp)
    (hfree : ∀ k p, peers.get k = some p → p.peerIp = peer.peerIp → k = peer.devicePublicKey) :
    Allocated (peers.set peer.devicePublicKey peer) := by
  have hget : ∀ k p, (peers.set peer.devicePublicKey peer).get k = some p →
      k = peer.devicePublicKey ∧ p = peer ∨ peers.get k = some p := fun k p hp => by
    rw [Table.get_set] at hp
    split at hp
    · next hk => exact Or.inl ⟨hk,(Option.some.inj hp).symm⟩
    · exact Or.inr hp
  refine ⟨fun k p hp => ?_,fun k p hp => ?_,fun k p hp => ?_,fun k k' p p' hp hp' heq => ?_⟩
  · rcases hget k p hp with ⟨rfl,rfl⟩ | hp
    · rfl
    · exact h.keyed k p hp
  · rcases hget k p hp with ⟨rfl,rfl⟩ | hp
    · exact hlease
    · exact h.leased k p hp
  · rcases hget k p hp with ⟨rfl,rfl⟩ | hp
    · exact hhost
    · exact h.host k p hp
  · rcases hget k p hp with ⟨rfl,rfl⟩ | hold <;> rcases hget k' p' hp' with ⟨rfl,rfl⟩ | hold'
    · rfl
    · exact (hfree k' p' hold' heq.symm).symm
    · exact hfree k p hold heq
    · exact h.apart k k' p p' hold hold' heq

theorem Allocated.holds_peersFile (h : Allocated peers) : Holds peers (peersFile peers) := by
  have hperm := List.perm_insertionSort
    (fun left right : WireGuardPeer => left.devicePublicKey ≤ right.devicePublicKey)
    (peers.toList.map Prod.snd)
  have hkeys : (peers.toList.map Prod.snd).map (fun p => p.devicePublicKey) =
      peers.toList.map Prod.fst := by
    rw [List.map_map]
    refine List.map_congr_left fun entry hentry => ?_
    exact h.keyed entry.1 entry.2 ((Table.mem_toList _ _ _).mp hentry)
  refine ⟨(hperm.map _).nodup_iff.mpr (hkeys ▸ peers.nodup_keys),fun p => ?_⟩
  rw [hperm.mem_iff,List.mem_map]
  constructor
  · rintro ⟨⟨k,q⟩,hq,rfl⟩
    have hget := (Table.mem_toList _ _ _).mp hq
    rwa [← h.keyed k q hget] at hget
  · intro hp
    exact ⟨(p.devicePublicKey,p),(Table.mem_toList _ _ _).mpr hp,rfl⟩

theorem Sound.of_persistLocked (husable : r.poisoned = false) (h : Allocated r.peers) :
    Sound (persistLocked r true).2 := by
  unfold persistLocked
  split
  · next hnone => exact ⟨husable,h,fun file hfile => by simp [hnone] at hfile⟩
  · exact ⟨husable,h,fun file hfile => by cases hfile; exact h.holds_peersFile⟩

theorem Sound.pruneExpiredLocked (h : Sound r) (now : ℕ) :
    ∃ kept, pruneExpiredLocked r now true = (true,kept) ∧ Sound kept ∧
      kept.peers = r.peers.retain (fun _ peer => live now peer) ∧
      kept.nextOctet = r.nextOctet ∧ kept.peerLease = r.peerLease := by
  unfold WireGuardRegistry.pruneExpiredLocked
  have hallocated : Allocated (r.peers.retain fun _ peer => live now peer) :=
    h.allocated.mono fun k p hp => by
      rw [Table.get_retain,Option.filter_eq_some_iff] at hp
      exact hp.1
  simp only
  split
  · next hsize =>
    have hsame := Table.retain_of_size_eq hsize
    refine ⟨_,rfl,⟨h.usable,hallocated,fun file hfile => ?_⟩,rfl,rfl,rfl⟩
    rw [hsame]
    exact h.synced file hfile
  · obtain ⟨heq,hpeers,hoctet,hlease,-⟩ := persistLocked_true
      {r with peers := r.peers.retain fun _ peer => live now peer}
    exact ⟨_,heq,Sound.of_persistLocked h.usable hallocated,hpeers,hoctet,hlease⟩

theorem Sound.putPeer (h : Sound r) {peer : WireGuardPeer}
    (hset : Allocated (r.peers.set peer.devicePublicKey peer)) :
    ∃ after, putPeer r peer.devicePublicKey peer true =
        (some ⟨cidr peer.peerIp,peer.leaseExpiresAt⟩,after) ∧ Sound after ∧
      after.peers = r.peers.set peer.devicePublicKey peer := by
  obtain ⟨heq,hpeers,-,-,-⟩ :=
    persistLocked_true {r with peers := r.peers.set peer.devicePublicKey peer}
  have hsaved : Sound (persistLocked {r with peers := r.peers.set peer.devicePublicKey peer}
    true).2 := Sound.of_persistLocked h.usable hset
  refine ⟨_,?_,hsaved,hpeers⟩
  unfold WireGuardRegistry.putPeer
  rw [heq]

theorem unixTimestampAfter_ne_zero {now : ℕ} (h : 0 < now) (peerLease : ℕ) :
    unixTimestampAfter now peerLease ≠ 0 := by
  unfold unixTimestampAfter
  omega

/-- Registration where the device has a lease, or there is room for another one: a record with
the new key and lease stands under the device's key, at the address the device had. -/
theorem Sound.registerPeerLease (h : Sound r) {now : ℕ} (hnow : 0 < now) (device wg : String)
    (hroom : (∃ p, r.peers.get device = some p ∧ live now p = true) ∨
      (r.peers.retain fun _ peer => live now peer).size < 254) :
    ∃ ip after, registerPeerLease r device wg now true =
        (some ⟨cidr ip,unixTimestampAfter now r.peerLease⟩,after) ∧ Sound after ∧
      (∀ k, after.peers.get k =
        if k = device then some ⟨device,wg,ip,unixTimestampAfter now r.peerLease⟩
        else (r.peers.get k).filter (live now)) ∧
      ∀ p, r.peers.get device = some p → live now p = true → ip = p.peerIp := by
  obtain ⟨kept,hkept,hsound,hpeers,hoctet,hlease⟩ := h.pruneExpiredLocked now
  have hget : ∀ k, kept.peers.get k = (r.peers.get k).filter (live now) := fun k => by
    rw [hpeers,Table.get_retain]
  rw [← hlease]
  unfold WireGuardRegistry.registerPeerLease
  rw [h.usable,if_neg (by decide),hkept]
  simp only
  cases hdevice : kept.peers.get device with
  | some existing =>
    obtain rfl := hsound.allocated.keyed _ _ hdevice
    have hsame : ∀ p, r.peers.get existing.devicePublicKey = some p → live now p = true →
        existing.peerIp = p.peerIp := fun p hp hlive => by
      rw [hget,hp,Option.filter_some,if_pos hlive] at hdevice
      rw [Option.some.inj hdevice]
    simp only
    split
    · have hset := hsound.allocated.set
        ⟨existing.devicePublicKey,wg,existing.peerIp,unixTimestampAfter now kept.peerLease⟩
        (unixTimestampAfter_ne_zero hnow _) (hsound.allocated.host _ existing hdevice)
        fun k p hp heq => hsound.allocated.apart _ _ _ _ hp hdevice heq
      obtain ⟨after,hput,hafter,hnew⟩ := hsound.putPeer hset
      refine ⟨existing.peerIp,after,hput,hafter,fun k => ?_,hsame⟩
      rw [hnew,Table.get_set,hget]
    · next hunchanged =>
      simp only [not_or,not_not] at hunchanged
      refine ⟨existing.peerIp,kept,rfl,hsound,fun k => ?_,hsame⟩
      split
      · next hk =>
        rw [hk,hdevice,← hunchanged.1,← hunchanged.2]
      · exact hget k
  | none =>
    have hnew : ∀ p, r.peers.get device = some p → live now p = true → False :=
      fun p hp hlive => by
        rw [hget,hp,Option.filter_some,if_pos hlive] at hdevice
        cases hdevice
    have hsize : kept.peers.size < 254 := by
      rw [hpeers]
      rcases hroom with ⟨p,hp,hlive⟩ | hroom
      · exact (hnew p hp hlive).elim
      · exact hroom
    obtain ⟨⟨ip,octet⟩,halloc⟩ := allocatePeerIp_of_size_lt hsize kept.nextOctet
    obtain ⟨hhost,hfree⟩ := allocatePeerIp_fresh halloc
    simp only [halloc]
    have hcursor : Sound {kept with nextOctet := octet} :=
      ⟨hsound.usable,hsound.allocated,hsound.synced⟩
    have hset := hsound.allocated.set ⟨device,wg,ip,unixTimestampAfter now kept.peerLease⟩
      (unixTimestampAfter_ne_zero hnow _) hhost
      fun k p hp heq => absurd (congrArg Ipv4Addr.d heq) (hfree k p hp)
    obtain ⟨after,hput,hafter,hnewpeers⟩ := hcursor.putPeer hset
    refine ⟨ip,after,hput,hafter,fun k => ?_,fun p hp hlive => (hnew p hp hlive).elim⟩
    rw [hnewpeers,Table.get_set,hget]

end Invariant

section Reload

variable {peers : Table String WireGuardPeer} {items : List WireGuardPeer}

theorem live_of_leased {p : WireGuardPeer} (h : p.leaseExpiresAt ≠ 0) (now : ℕ) :
    live now p = decide (now < p.leaseExpiresAt) := by
  simp [live,h]

/-- Reading one record that has a lease. -/
theorem loadPeer_leased {entry : WireGuardPeer} (h : entry.leaseExpiresAt ≠ 0) (now peerLease : ℕ)
    (acc : Loading) : loadPeer now peerLease acc entry =
      if live now entry then ⟨acc.peers.set entry.devicePublicKey entry,
        max acc.maxOctet entry.peerIp.d,acc.normalized⟩
      else {acc with normalized := true} := by
  unfold loadPeer withLease
  rw [if_neg h,live_of_leased h]
  by_cases hexpired : entry.leaseExpiresAt ≤ now
  · rw [if_pos hexpired,if_neg (by simpa using hexpired)]
  · rw [if_neg hexpired,if_pos (by simpa using hexpired)]
    simp [h]

theorem foldl_loadPeer_get (hnodup : (items.map fun p => p.devicePublicKey).Nodup)
    (hleased : ∀ p ∈ items, p.leaseExpiresAt ≠ 0) (now peerLease : ℕ) (acc : Loading)
    (k : String) : (items.foldl (loadPeer now peerLease) acc).peers.get k =
      ((items.find? fun p => p.devicePublicKey = k).filter (live now)).or (acc.peers.get k) := by
  induction items generalizing acc with
  | nil => simp
  | cons entry items ih =>
    obtain ⟨hentry,hrest⟩ := List.nodup_cons.mp hnodup
    rw [List.foldl_cons,ih hrest fun p hp => hleased p (by simp [hp]),
      loadPeer_leased (hleased entry (by simp))]
    by_cases hk : entry.devicePublicKey = k
    · have hnone : (items.find? fun p => p.devicePublicKey = k) = none := by
        refine List.find?_eq_none.mpr fun p hp => ?_
        have hne : p.devicePublicKey ≠ k := fun heq =>
          hentry (List.mem_map.mpr ⟨p,hp,heq.trans hk.symm⟩)
        simpa using hne
      rw [hnone,List.find?_cons_of_pos (by simpa using hk),Option.filter_some]
      by_cases hlive : live now entry = true
      · simp [hlive,hk]
      · simp [hlive]
    · rw [List.find?_cons_of_neg (by simpa using hk)]
      split
      · rw [Table.get_set_ne (Ne.symm hk)]
      · rfl

theorem foldl_loadPeer_normalized (hleased : ∀ p ∈ items, p.leaseExpiresAt ≠ 0)
    (now peerLease : ℕ) (acc : Loading)
    (h : (items.foldl (loadPeer now peerLease) acc).normalized = false) :
    acc.normalized = false ∧ ∀ p ∈ items, live now p = true := by
  induction items generalizing acc with
  | nil => exact ⟨h,by simp⟩
  | cons entry items ih =>
    obtain ⟨hacc,hitems⟩ := ih (fun p hp => hleased p (by simp [hp])) _ h
    rw [loadPeer_leased (hleased entry (by simp))] at hacc
    split at hacc
    · next hlive => exact ⟨hacc,by simpa using ⟨hlive,hitems⟩⟩
    · cases hacc

theorem Lists.find (hlist : Lists peers items) (hpeers : Allocated peers) (k : String) :
    (items.find? fun p => p.devicePublicKey = k) = peers.get k := by
  cases hfind : items.find? fun p => p.devicePublicKey = k with
  | some p =>
    have hk : p.devicePublicKey = k := by simpa using List.find?_some hfind
    rw [← hk]
    exact ((hlist.2 p).mp (List.mem_of_find?_eq_some hfind)).symm
  | none =>
    cases hget : peers.get k with
    | none => rfl
    | some p =>
      have hk := hpeers.keyed k p hget
      have hmem := (hlist.2 p).mpr (hk ▸ hget)
      exact absurd hk (by simpa using List.find?_eq_none.mp hfind p hmem)

/-- A restart from a file that holds the table keeps its live leases and nothing else. -/
theorem Allocated.loadWithLease (hpeers : Allocated peers) {file : File WireGuardPeer}
    (hfile : Holds peers file) (peerLease now : ℕ) :
    ∃ r, loadWithLease file peerLease now true = some r ∧ Sound r ∧
      ∀ k, r.peers.get k = (peers.get k).filter (live now) := by
  cases file with
  | broken => exact hfile.elim
  | absent =>
    refine ⟨_,rfl,⟨rfl,⟨by simp,by simp,by simp,by simp⟩,fun file hf => ?_⟩,fun k => ?_⟩
    · cases hf
      exact Table.get_empty
    · rw [hfile k]
      rfl
  | entries items =>
    have hleased : ∀ p ∈ items, p.leaseExpiresAt ≠ 0 := fun p hp =>
      hpeers.leased _ p ((hfile.2 p).mp hp)
    have hget : ∀ k, (loadPeersFile items now peerLease).peers.get k =
        (peers.get k).filter (live now) := fun k => by
      rw [loadPeersFile,foldl_loadPeer_get hfile.1 hleased,hfile.find hpeers]
      simp
    have hloaded : Allocated (loadPeersFile items now peerLease).peers :=
      hpeers.mono fun k p hp => by
        rw [hget,Option.filter_eq_some_iff] at hp
        exact hp.1
    simp only [WireGuardRegistry.loadWithLease]
    by_cases hnormalized : (loadPeersFile items now peerLease).normalized = true
    · obtain ⟨heq,hsame,-,-,-⟩ := persistLocked_true ⟨(loadPeersFile items now peerLease).peers,
        normalizeOctet (saturatingSucc (loadPeersFile items now peerLease).maxOctet),peerLease,
        some (.entries items),false⟩
      rw [if_pos hnormalized,heq]
      refine ⟨_,rfl,Sound.of_persistLocked rfl hloaded,fun k => ?_⟩
      rw [hsame]
      exact hget k
    · -- every record was live, so that the file as it is holds the table
      have hall := (foldl_loadPeer_normalized hleased now peerLease ⟨∅,0,false⟩
        (by simpa [loadPeersFile] using hnormalized)).2
      rw [if_neg hnormalized]
      refine ⟨_,rfl,⟨rfl,hloaded,fun file hf => ?_⟩,hget⟩
      cases hf
      refine ⟨hfile.1,fun p => ?_⟩
      rw [hget,Option.filter_eq_some_iff,hfile.2 p]
      exact ⟨fun hp => ⟨hp,hall p ((hfile.2 p).mpr hp)⟩,fun hp => hp.1⟩

end Reload

section Runs

structure System where
  registry : WireGuardPeerRegistry
  now : ℕ
  deriving DecidableEq

inductive Event
  | registerPeerLease (device wg : String)
  | findByWgKey (wg : String)
  | allPeers
  | advance (seconds : ℕ)
  | reload (peerLease : ℕ)
  deriving DecidableEq, Repr

def step (s : System) : Event → Option System
  | .registerPeerLease device wg =>
    some {s with registry := (registerPeerLease s.registry device wg s.now true).2}
  | .findByWgKey wg => some {s with registry := (findByWgKey s.registry wg s.now true).2}
  | .allPeers => some {s with registry := (allPeers s.registry s.now true).2}
  | .advance seconds => some {s with now := s.now+seconds}
  | .reload peerLease =>
    (loadWithLease (peersFile s.registry.peers) peerLease s.now true).map fun registry =>
      {s with registry := registry}

def liveLeases (s : System) : List (String × WireGuardPeer) :=
  s.registry.peers.toList.filter fun entry => s.now < entry.2.leaseExpiresAt

/-- Fewer than 254 leases are live when a device without one registers. -/
def Room (s : System) : Event → Prop
  | .registerPeerLease device _ =>
    (∃ entry ∈ liveLeases s, entry.1 = device) ∨ (liveLeases s).length < 254
  | _ => True

instance (s : System) (e : Event) : Decidable (Room s e) := by
  cases e <;> unfold Room <;> infer_instance

/-- An empty registry, or one that is loaded from a file which a registry has written. -/
inductive Start : System → Prop
  | new (peerLease now : ℕ) : 0 < now → Start ⟨newWithLease peerLease,now⟩
  | first (peerLease now : ℕ) (r : WireGuardPeerRegistry) : 0 < now →
    loadWithLease .absent peerLease now true = some r → Start ⟨r,now⟩
  | written (s t : System) (es : List Event) (file : File WireGuardPeer) (peerLease now : ℕ)
      (r : WireGuardPeerRegistry) : Start s → Meets step Room s es → exec step s es = some t →
    (t.registry.file = some file ∨ file = peersFile t.registry.peers) → 0 < now →
    loadWithLease file peerLease now true = some r → Start ⟨r,now⟩

structure SoundSystem (s : System) : Prop where
  clock : 0 < s.now
  registry : Sound s.registry

theorem SoundSystem.room {s : System} (h : SoundSystem s) {device wg : String}
    (hroom : Room s (.registerPeerLease device wg)) :
    (∃ p, s.registry.peers.get device = some p ∧ live s.now p = true) ∨
      (s.registry.peers.retain fun _ peer => live s.now peer).size < 254 := by
  have hlive : ∀ entry ∈ s.registry.peers.toList,
      live s.now entry.2 = decide (s.now < entry.2.leaseExpiresAt) := fun entry hentry =>
    live_of_leased (h.registry.allocated.leased _ _ ((Table.mem_toList _ _ _).mp hentry)) _
  rcases hroom with ⟨⟨k,p⟩,hmem,rfl⟩ | hcount
  · obtain ⟨hp,hleased⟩ := List.mem_filter.mp hmem
    exact Or.inl ⟨p,(Table.mem_toList _ _ _).mp hp,(hlive _ hp).trans hleased⟩
  · rw [Table.size_retain,List.filter_congr hlive]
    exact Or.inr hcount

theorem Sound.lookup {r : WireGuardPeerRegistry} (h : Sound r) (wg : String) (now : ℕ) :
    (findByWgKey r wg now true).2 = (allPeers r now true).2 ∧ Sound (allPeers r now true).2 ∧
      ∀ k, (allPeers r now true).2.peers.get k = (r.peers.get k).filter (live now) := by
  obtain ⟨kept,hkept,hsound,hpeers,-,-⟩ := h.pruneExpiredLocked now
  unfold findByWgKey WireGuardRegistry.allPeers
  rw [h.usable,if_neg (by decide),if_neg (by decide),hkept]
  refine ⟨rfl,hsound,fun k => ?_⟩
  simp only
  rw [hpeers,Table.get_retain]

/-- One step keeps the invariant, and drops from the table only what has expired. -/
theorem SoundSystem.next {s : System} (h : SoundSystem s) {e : Event} (hroom : Room s e) :
    ∃ t, step s e = some t ∧ SoundSystem t ∧ s.now ≤ t.now ∧
      ∀ k p, (∀ wg, e ≠ .registerPeerLease k wg) → s.registry.peers.get k = some p →
        s.now < p.leaseExpiresAt → t.registry.peers.get k = some p := by
  have hkeep : ∀ k p, s.registry.peers.get k = some p → s.now < p.leaseExpiresAt →
      (s.registry.peers.get k).filter (live s.now) = some p := fun k p hp hlive => by
    rw [hp,Option.filter_some,live_of_leased (by omega),if_pos (by simpa using hlive)]
  cases e with
  | registerPeerLease device wg =>
    obtain ⟨ip,after,heq,hafter,hget,-⟩ :=
      h.registry.registerPeerLease h.clock device wg (h.room hroom)
    refine ⟨_,rfl,⟨h.clock,?_⟩,Nat.le_refl _,fun k p hk hp hlive => ?_⟩
    · rw [heq]
      exact hafter
    · simp only [heq]
      rw [hget,if_neg fun hdevice => hk wg (by rw [hdevice])]
      exact hkeep k p hp hlive
  | findByWgKey wg =>
    obtain ⟨heq,hafter,hget⟩ := h.registry.lookup wg s.now
    refine ⟨_,rfl,⟨h.clock,?_⟩,Nat.le_refl _,fun k p _ hp hlive => ?_⟩
    · rw [heq]
      exact hafter
    · simp only [heq]
      rw [hget]
      exact hkeep k p hp hlive
  | allPeers =>
    obtain ⟨-,hafter,hget⟩ := h.registry.lookup "" s.now
    refine ⟨_,rfl,⟨h.clock,hafter⟩,Nat.le_refl _,fun k p _ hp hlive => ?_⟩
    exact (hget k).trans (hkeep k p hp hlive)
  | advance seconds =>
    exact ⟨_,rfl,⟨Nat.add_pos_left h.clock _,h.registry⟩,Nat.le_add_right _ _,
      fun k p _ hp _ => hp⟩
  | reload peerLease =>
    obtain ⟨r,heq,hafter,hget⟩ := h.registry.allocated.loadWithLease
      h.registry.allocated.holds_peersFile peerLease s.now
    refine ⟨⟨r,s.now⟩,?_,⟨h.clock,hafter⟩,Nat.le_refl _,fun k p _ hp hlive => ?_⟩
    · simp only [step,heq]
      rfl
    · exact (hget k).trans (hkeep k p hp hlive)

theorem SoundSystem.run {s : System} (h : SoundSystem s) {es : List Event}
    (hroom : Meets step Room s es) : ∃ t, exec step s es = some t ∧ SoundSystem t := by
  refine exec_of_meets (fun s e hs hg => ?_) h hroom
  obtain ⟨t,ht,hsound,-⟩ := hs.next hg
  exact ⟨t,ht,hsound⟩

theorem SoundSystem.of_exec {s t : System} (h : SoundSystem s) {es : List Event}
    (hroom : Meets step Room s es) (ht : exec step s es = some t) : SoundSystem t := by
  obtain ⟨u,hu,hsound⟩ := h.run hroom
  exact Option.some.inj (ht.symm.trans hu) ▸ hsound

theorem Start.sound {s : System} (h : Start s) : SoundSystem s := by
  induction h with
  | new peerLease now hnow =>
    exact ⟨hnow,⟨rfl,⟨by simp [newWithLease],by simp [newWithLease],by simp [newWithLease],
      by simp [newWithLease]⟩,by simp [newWithLease]⟩⟩
  | first peerLease now r hnow hload =>
    cases hload
    refine ⟨hnow,⟨rfl,⟨by simp,by simp,by simp,by simp⟩,fun file hf => ?_⟩⟩
    cases hf
    exact Table.get_empty
  | written s t es file peerLease now r hs hm ht hfile hnow hload ih =>
    have hsound := ih.of_exec hm ht
    have hholds : Holds t.registry.peers file := by
      rcases hfile with hfile | rfl
      · exact hsound.registry.synced file hfile
      · exact hsound.registry.allocated.holds_peersFile
    obtain ⟨r',hr',hsound',-⟩ := hsound.registry.allocated.loadWithLease hholds peerLease now
    obtain rfl := Option.some.inj (hload.symm.trans hr')
    exact ⟨hnow,hsound'⟩

/-- The live leases have addresses of their own, from 100.64.1.1 to 100.64.1.254. -/
def DistinctHosts (s : System) : Prop :=
  (liveLeases s).Pairwise (fun a b => a.2.peerIp ≠ b.2.peerIp) ∧
    ∀ entry ∈ liveLeases s, HostAddress entry.2.peerIp

/-- A restart from the registry's file, or from a file written now, has exactly the live leases. -/
def Reloads (s : System) : Prop :=
  ∀ file peerLease, (s.registry.file = some file ∨ file = peersFile s.registry.peers) →
    ∃ r, loadWithLease file peerLease s.now true = some r ∧
      ∀ k p, r.peers.get k = some p ↔ (k,p) ∈ liveLeases s

/-- A registration returns an address wherever the cursor stands. -/
def Registers (s : System) (device wg : String) : Prop :=
  ∀ cursor, ∃ ip leaseExpiresAt, HostAddress ip ∧
    (registerPeerLease {s.registry with nextOctet := cursor} device wg s.now true).1 =
      some ⟨cidr ip,leaseExpiresAt⟩

/-- After a registration and other events, the next registration of the device returns the same
address unless the lease has expired. -/
def KeepsAddress (s : System) (es : List Event) : Prop :=
  ∀ before mid device wg wg' t u first, before++.registerPeerLease device wg::mid <+: es →
    (∀ wg, Event.registerPeerLease device wg ∉ mid) → exec step s before = some t →
    (registerPeerLease t.registry device wg t.now true).1 = some first →
    exec step t (.registerPeerLease device wg::mid) = some u → u.now < first.leaseExpiresAt →
    ∃ next, (registerPeerLease u.registry device wg' u.now true).1 = some next ∧
      next.peerIp = first.peerIp

/-- The numbers of the scan stay in their types: no subtraction below zero, no 16-bit sum and
no octet beyond its range. -/
def ScanInRange : Prop :=
  ∀ (cursor : UInt8) (offset : ℕ), offset < 254 → 1 ≤ (normalizeOctet cursor).toNat ∧
    (normalizeOctet cursor).toNat-1+offset < 2^16 ∧
    ((normalizeOctet cursor).toNat-1+offset)%254+1 < 2^8

section Results

variable {s : System}

theorem SoundSystem.mem_liveLeases (h : SoundSystem s) (k : String) (p : WireGuardPeer) :
    (k,p) ∈ liveLeases s ↔ (s.registry.peers.get k).filter (live s.now) = some p := by
  rw [liveLeases,List.mem_filter,Table.mem_toList,Option.filter_eq_some_iff]
  refine and_congr_right fun hp => ?_
  rw [live_of_leased (h.registry.allocated.leased k p hp)]

theorem SoundSystem.distinctHosts (h : SoundSystem s) : DistinctHosts s := by
  refine ⟨?_,fun entry hentry => ?_⟩
  · have hkeys := (List.pairwise_map.mp s.registry.peers.nodup_keys).filter
      fun entry => s.now < entry.2.leaseExpiresAt
    refine hkeys.imp_of_mem fun {a b} ha hb hne heq => hne ?_
    exact h.registry.allocated.apart _ _ _ _
      ((Table.mem_toList _ _ _).mp (List.mem_filter.mp ha).1)
      ((Table.mem_toList _ _ _).mp (List.mem_filter.mp hb).1) heq
  · exact h.registry.allocated.host _ _
      ((Table.mem_toList _ _ _).mp (List.mem_filter.mp hentry).1)

theorem SoundSystem.reloads (h : SoundSystem s) : Reloads s := by
  intro file peerLease hfile
  have hholds : Holds s.registry.peers file := by
    rcases hfile with hfile | rfl
    · exact h.registry.synced file hfile
    · exact h.registry.allocated.holds_peersFile
  obtain ⟨r,hr,-,hget⟩ := h.registry.allocated.loadWithLease hholds peerLease s.now
  refine ⟨r,hr,fun k p => ?_⟩
  rw [hget,h.mem_liveLeases]

theorem SoundSystem.registers (h : SoundSystem s) {device wg : String}
    (hroom : Room s (.registerPeerLease device wg)) : Registers s device wg := by
  intro cursor
  have hcursor : Sound {s.registry with nextOctet := cursor} :=
    ⟨h.registry.usable,h.registry.allocated,h.registry.synced⟩
  obtain ⟨ip,after,heq,hafter,hget,-⟩ :=
    hcursor.registerPeerLease h.clock device wg (h.room hroom)
  exact ⟨ip,_,hafter.allocated.host device _ ((hget device).trans (if_pos rfl)),
    congrArg Prod.fst heq⟩

theorem scanInRange : ScanInRange := by
  intro cursor offset hoffset
  have hrange := normalizeOctet_range cursor
  omega

/-- A lease that has not expired stands unchanged as long as its device does not register. -/
theorem SoundSystem.lease_stands (hs : SoundSystem s) {t : System} {mid : List Event}
    {device : String} {peer : WireGuardPeer} (hroom : Meets step Room s mid)
    (hmid : ∀ e ∈ mid, ∀ wg, e ≠ .registerPeerLease device wg)
    (hpeer : s.registry.peers.get device = some peer) (ht : exec step s mid = some t)
    (hlive : t.now < peer.leaseExpiresAt) : t.registry.peers.get device = some peer := by
  have hkept : SoundSystem t ∧
      (t.now < peer.leaseExpiresAt → t.registry.peers.get device = some peer) := by
    refine exec_invariant (I := fun v => SoundSystem v ∧
      (v.now < peer.leaseExpiresAt → v.registry.peers.get device = some peer))
      (fun v e w hi hg hw => ?_) ⟨hs,fun _ => hpeer⟩ (meets_and hroom hmid) ht
    obtain ⟨w',hw',hsound,hclock,hkeep⟩ := hi.1.next hg.1
    obtain rfl := Option.some.inj (hw.symm.trans hw')
    have hbefore : w.now < peer.leaseExpiresAt → v.now < peer.leaseExpiresAt :=
      lt_of_le_of_lt hclock
    exact ⟨hsound,fun hnow => hkeep device peer hg.2 (hi.2 (hbefore hnow)) (hbefore hnow)⟩
  exact hkept.2 hlive

theorem SoundSystem.keepsAddress (hs : SoundSystem s) {es : List Event}
    (hroom : Meets step Room s es) : KeepsAddress s es := by
  intro before mid device wg wg' t u first hes hmid ht hfirst hu hlive
  obtain ⟨rest,rfl⟩ := hes
  rw [List.append_assoc] at hroom
  obtain ⟨hbefore,hafter⟩ := meets_append ht hroom
  have hsound := hs.of_exec hbefore ht
  obtain ⟨v,hv,hmidrun⟩ := exec_cons.mp hu
  have hmidroom := (meets_append hmidrun (hafter.2 v hv)).1
  obtain ⟨ip,after,heq,hsoundAfter,hget,-⟩ :=
    hsound.registry.registerPeerLease hsound.clock device wg (hsound.room hafter.1)
  rw [heq] at hfirst
  cases hfirst
  have hv : v = ⟨after,t.now⟩ := by
    simp only [step,heq,Option.some.injEq] at hv
    exact hv.symm
  subst hv
  have hsoundv : SoundSystem ⟨after,t.now⟩ := ⟨hsound.clock,hsoundAfter⟩
  have hdevice := hsoundv.lease_stands hmidroom
    (fun e he w heq => hmid w (heq ▸ he)) ((hget device).trans (if_pos rfl)) hmidrun hlive
  have hleased : live u.now ⟨device,wg,ip,unixTimestampAfter t.now t.registry.peerLease⟩ = true := by
    simpa [live] using Or.inr hlive
  have hsoundu := hsoundv.of_exec hmidroom hmidrun
  obtain ⟨ip',after',heq',-,-,hsame⟩ := hsoundu.registry.registerPeerLease hsoundu.clock device wg'
    (Or.inl ⟨_,hdevice,hleased⟩)
  refine ⟨_,congrArg Prod.fst heq',?_⟩
  rw [hsame _ hdevice hleased]

/-- A device that returns with a new key after a restart. -/
def demoRun : List Event :=
  [.registerPeerLease "a" "k",.registerPeerLease "b" "l",.advance 50,.reload 100,
    .registerPeerLease "a" "m"]

end Results

end Runs

end Bonded.WireGuardAllocation
