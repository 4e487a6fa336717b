import Bonded.Auth
import Bonded.WireGuardServer
import Mathlib.Data.List.Sort

/-! The table of provisioned WireGuard peers with its leases, its address allocation and
its file. A call that panics returns `none` and leaves the registry's locks poisoned, so
that every later call panics too. -/
namespace Bonded.WireGuardRegistry

open Auth Packet WireGuardServer

structure RegisteredWireGuardPeer where
  peerIp : String
  leaseExpiresAt : ℕ
  deriving DecidableEq, Repr

/-- The file is `none` for a registry without a path. -/
structure WireGuardPeerRegistry where
  peers : Table String WireGuardPeer
  nextOctet : UInt8
  peerLease : ℕ
  file : Option (File WireGuardPeer)
  poisoned : Bool
  deriving DecidableEq

def newWithLease (peerLease : ℕ) : WireGuardPeerRegistry := ⟨∅,1,peerLease,none,false⟩

/-- Seconds saturate at the largest timestamp. -/
def unixTimestampAfter (now peerLease : ℕ) : ℕ := min (now+peerLease) (2^64-1)

def normalizeOctet (octet : UInt8) : UInt8 :=
  if octet = 0 ∨ octet = 255 then 1 else min octet 254

def saturatingSucc (octet : UInt8) : UInt8 := if octet = 255 then 255 else octet+1

/-- Scan the 254 host octets once, from the cursor on. -/
def allocatePeerIp (peers : Table String WireGuardPeer) (nextOctet : UInt8) :
    Option (Ipv4Addr × UInt8) :=
  let start := normalizeOctet nextOctet
  let candidates := (List.range 254).map fun offset =>
    UInt8.ofNat ((start.toNat-1+offset)%254+1)
  (candidates.find? fun candidate =>
      ¬ peers.toList.any fun entry => entry.2.peerIp.d = candidate).map fun candidate =>
    (⟨100,64,1,candidate⟩,normalizeOctet (saturatingSucc candidate))

/-- The peers as they are written: sorted by device key. -/
def peersFile (peers : Table String WireGuardPeer) : File WireGuardPeer :=
  .entries ((peers.toList.map Prod.snd).insertionSort
    fun left right => left.devicePublicKey ≤ right.devicePublicKey)

/-- A write that fails leaves the file as it is; the caller panics or gives up. -/
def persistLocked (r : WireGuardPeerRegistry) (writable : Bool) : Bool × WireGuardPeerRegistry :=
  match r.file with
  | none => (true,r)
  | some _ => if writable then (true,{r with file := some (peersFile r.peers)}) else (false,r)

/-- A lease of zero never expires. -/
def live (now : ℕ) (peer : WireGuardPeer) : Bool :=
  peer.leaseExpiresAt = 0 ∨ now < peer.leaseExpiresAt

def pruneExpiredLocked (r : WireGuardPeerRegistry) (now : ℕ) (writable : Bool) :
    Bool × WireGuardPeerRegistry :=
  let kept := {r with peers := r.peers.retain fun _ peer => live now peer}
  if kept.peers.size = r.peers.size then (true,kept) else persistLocked kept writable

def poison (r : WireGuardPeerRegistry) : WireGuardPeerRegistry := {r with poisoned := true}

def cidr (ip : Ipv4Addr) : String :=
  toString ip.a.toNat++"."++toString ip.b.toNat++"."++toString ip.c.toNat++"."++
    toString ip.d.toNat++"/32"

/-- Write `peer` under its device key and save the table. -/
def putPeer (r : WireGuardPeerRegistry) (device : String) (peer : WireGuardPeer)
    (writable : Bool) : Option RegisteredWireGuardPeer × WireGuardPeerRegistry :=
  match persistLocked {r with peers := r.peers.set device peer} writable with
  | (true,r) => (some ⟨cidr peer.peerIp,peer.leaseExpiresAt⟩,r)
  | (false,r) => (none,poison r)

def registerPeerLease (r : WireGuardPeerRegistry) (devicePublicKey wgPublicKey : String)
    (now : ℕ) (writable : Bool) : Option RegisteredWireGuardPeer × WireGuardPeerRegistry :=
  if r.poisoned then (none,r)
  else
    match pruneExpiredLocked r now writable with
    | (false,r) => (none,poison r)
    | (true,r) =>
      let leaseExpiresAt := unixTimestampAfter now r.peerLease
      match r.peers.get devicePublicKey with
      | some existing =>
        let peer := {existing with wgPublicKey := wgPublicKey, leaseExpiresAt := leaseExpiresAt}
        -- an unchanged record is not written again
        if existing.wgPublicKey ≠ wgPublicKey ∨ existing.leaseExpiresAt ≠ leaseExpiresAt then
          putPeer r devicePublicKey peer writable
        else (some ⟨cidr existing.peerIp,leaseExpiresAt⟩,r)
      | none =>
        match allocatePeerIp r.peers r.nextOctet with
        | none => (none,poison r)
        | some (ip,nextOctet) =>
          putPeer {r with nextOctet := nextOctet} devicePublicKey
            ⟨devicePublicKey,wgPublicKey,ip,leaseExpiresAt⟩ writable

/-- The live peers; their order is that of the table and carries no meaning. -/
def allPeers (r : WireGuardPeerRegistry) (now : ℕ) (writable : Bool) :
    Option (List WireGuardPeer) × WireGuardPeerRegistry :=
  if r.poisoned then (none,r)
  else
    match pruneExpiredLocked r now writable with
    | (false,r) => (none,poison r)
    | (true,r) => (some (r.peers.toList.map Prod.snd),r)

/-- Look up a peer by its WireGuard public key. -/
def findByWgKey (r : WireGuardPeerRegistry) (wgPublicKey : String) (now : ℕ) (writable : Bool) :
    Option (Option WireGuardPeer) × WireGuardPeerRegistry :=
  if r.poisoned then (none,r)
  else
    match pruneExpiredLocked r now writable with
    | (false,r) => (none,poison r)
    | (true,r) =>
      (some ((r.peers.toList.map Prod.snd).find? fun p => p.wgPublicKey = wgPublicKey),r)

/-- What reading the file has gathered so far. -/
structure Loading where
  peers : Table String WireGuardPeer
  maxOctet : UInt8
  normalized : Bool
  deriving DecidableEq

/-- An entry without a lease gets a new one. -/
def withLease (now peerLease : ℕ) (entry : WireGuardPeer) : WireGuardPeer :=
  if entry.leaseExpiresAt = 0
  then {entry with leaseExpiresAt := unixTimestampAfter now peerLease} else entry

/-- An expired entry is dropped. -/
def loadPeer (now peerLease : ℕ) (acc : Loading) (entry : WireGuardPeer) : Loading :=
  let peer := withLease now peerLease entry
  if peer.leaseExpiresAt ≤ now then {acc with normalized := true}
  else ⟨acc.peers.set peer.devicePublicKey peer,max acc.maxOctet peer.peerIp.d,
    acc.normalized || (entry.leaseExpiresAt = 0)⟩

def loadPeersFile (items : List WireGuardPeer) (now peerLease : ℕ) : Loading :=
  items.foldl (loadPeer now peerLease) ⟨∅,0,false⟩

/-- A missing file gives an empty registry that starts at the first octet. -/
def loadWithLease (file : File WireGuardPeer) (peerLease now : ℕ) (writable : Bool) :
    Option WireGuardPeerRegistry :=
  match file with
  | .absent => some ⟨∅,1,peerLease,some .absent,false⟩
  | .broken => none
  | .entries items =>
    let loaded := loadPeersFile items now peerLease
    let r := ⟨loaded.peers,normalizeOctet (saturatingSucc loaded.maxOctet),peerLease,
      some file,false⟩
    if loaded.normalized then
      match persistLocked r writable with
      | (true,r) => some r
      | (false,_) => none
    else some r

section Written

variable (r : WireGuardPeerRegistry)

/-- A write that succeeds changes the file only. -/
theorem persistLocked_true :
    persistLocked r true = (true,(persistLocked r true).2) ∧
      (persistLocked r true).2.peers = r.peers ∧
      (persistLocked r true).2.nextOctet = r.nextOctet ∧
      (persistLocked r true).2.peerLease = r.peerLease ∧
      (persistLocked r true).2.poisoned = r.poisoned := by
  unfold persistLocked
  split
  · exact ⟨rfl,rfl,rfl,rfl,rfl⟩
  · exact ⟨rfl,rfl,rfl,rfl,rfl⟩

theorem pruneExpiredLocked_true (now : ℕ) :
    ∃ kept, pruneExpiredLocked r now true = (true,kept) ∧
      kept.peers = r.peers.retain (fun _ peer => live now peer) ∧
      kept.poisoned = r.poisoned := by
  unfold pruneExpiredLocked
  simp only
  split
  · exact ⟨_,rfl,rfl,rfl⟩
  · obtain ⟨heq,hpeers,-,-,hpoisoned⟩ := persistLocked_true
      {r with peers := r.peers.retain fun _ peer => live now peer}
    exact ⟨_,heq,hpeers,hpoisoned⟩

theorem putPeer_true (device : String) (peer : WireGuardPeer) :
    ∃ after, putPeer r device peer true = (some ⟨cidr peer.peerIp,peer.leaseExpiresAt⟩,after) ∧
      after.peers = r.peers.set device peer := by
  obtain ⟨heq,hpeers,-,-,-⟩ := persistLocked_true {r with peers := r.peers.set device peer}
  refine ⟨_,?_,hpeers⟩
  unfold putPeer
  rw [heq]

/-- Listing the peers prunes the table, unless the registry is poisoned. -/
theorem allPeers_true (now : ℕ) : allPeers r now true = (none,r) ∧ r.poisoned = true ∨
    ∃ kept, allPeers r now true = (some (kept.peers.toList.map Prod.snd),kept) ∧
      r.poisoned = false ∧ kept.poisoned = false ∧
      kept.peers = r.peers.retain (fun _ peer => live now peer) := by
  obtain ⟨kept,hkept,hpeers,hpoisoned⟩ := pruneExpiredLocked_true r now
  unfold allPeers
  cases hr : r.poisoned with
  | true => exact Or.inl ⟨rfl,rfl⟩
  | false =>
    rw [if_neg (by decide),hkept]
    exact Or.inr ⟨kept,rfl,rfl,hpoisoned.trans hr,hpeers⟩

/-- A registration leaves the other devices' records, and gives its device the new key. -/
theorem registerPeerLease_peers (device wg : String) (now : ℕ) (k : String) (p : WireGuardPeer)
    (hkeyed : ∀ k p, r.peers.get k = some p → p.devicePublicKey = k)
    (h : (registerPeerLease r device wg now true).2.peers.get k = some p) :
    r.peers.get k = some p ∨ k = device ∧ p.wgPublicKey = wg ∧ p.devicePublicKey = device := by
  obtain ⟨kept,hkept,hpeers,-⟩ := pruneExpiredLocked_true r now
  have hold : ∀ k p, kept.peers.get k = some p → r.peers.get k = some p := fun k p hp => by
    rw [hpeers,Table.get_retain,Option.filter_eq_some_iff] at hp
    exact hp.1
  have hput : ∀ (u : WireGuardPeerRegistry) (peer : WireGuardPeer), u.peers = kept.peers →
      peer.wgPublicKey = wg → peer.devicePublicKey = device →
      (putPeer u device peer true).2.peers.get k = some p →
      r.peers.get k = some p ∨ k = device ∧ p.wgPublicKey = wg ∧ p.devicePublicKey = device := by
    intro u peer hu hwg hdevice hp
    obtain ⟨after,hafter,hset⟩ := putPeer_true u device peer
    rw [hafter] at hp
    rw [hset,Table.get_set] at hp
    split at hp
    · next hk =>
      cases hp
      exact Or.inr ⟨hk,hwg,hdevice⟩
    · exact Or.inl (hold k p (hu ▸ hp))
  unfold registerPeerLease at h
  split at h
  · exact Or.inl h
  rw [hkept] at h
  simp only at h
  split at h
  · next existing hexisting =>
    split at h
    · have hdevice := hkeyed device existing (hold device existing hexisting)
      exact hput kept ⟨_,wg,_,_⟩ rfl rfl hdevice h
    · exact Or.inl (hold k p h)
  · split at h
    · exact Or.inl (hold k p h)
    · next nextOctet _ =>
      exact hput {kept with nextOctet := nextOctet} _ rfl rfl rfl h

end Written

/-- Every peer of the table and of the file binds its device key to a WireGuard key
as `Q` allows, and the table keeps it under its own device key. -/
structure AllBound (Q : String → String → Prop) (r : WireGuardPeerRegistry) : Prop where
  peers : ∀ k p, r.peers.get k = some p → p.devicePublicKey = k ∧ Q k p.wgPublicKey
  file : ∀ items, r.file = some (.entries items) → ∀ p ∈ items, Q p.devicePublicKey p.wgPublicKey

section Bound

variable {Q : String → String → Prop} {r : WireGuardPeerRegistry}

section

variable (h : AllBound Q r)
include h

theorem AllBound.mono {Q' : String → String → Prop} (hq : ∀ d w, Q d w → Q' d w) : AllBound Q' r :=
  ⟨fun k p hp => ⟨(h.peers k p hp).1,hq _ _ (h.peers k p hp).2⟩,
    fun items hf p hp => hq _ _ (h.file items hf p hp)⟩

theorem AllBound.poison : AllBound Q (poison r) := ⟨h.peers,h.file⟩

theorem AllBound.persistLocked (writable : Bool) :
    AllBound Q (persistLocked r writable).2 := by
  unfold WireGuardRegistry.persistLocked
  split
  · exact h
  · split
    · refine ⟨h.peers,fun items hf p hp => ?_⟩
      cases hf
      have hmem := (List.perm_insertionSort _ _).mem_iff.mp hp
      obtain ⟨⟨k,q⟩,hq,rfl⟩ := List.mem_map.mp hmem
      obtain ⟨rfl,hbound⟩ := h.peers k q ((Table.mem_toList _ _ _).mp hq)
      exact hbound
    · exact h

theorem AllBound.pruneExpiredLocked (now : ℕ) (writable : Bool) :
    AllBound Q (pruneExpiredLocked r now writable).2 := by
  have hkept : AllBound Q {r with peers := r.peers.retain fun _ peer => live now peer} := by
    refine ⟨fun k p hp => ?_,h.file⟩
    rw [Table.get_retain,Option.filter_eq_some_iff] at hp
    exact h.peers k p hp.1
  simp only [WireGuardRegistry.pruneExpiredLocked]
  split
  · exact hkept
  · exact hkept.persistLocked writable

theorem AllBound.putPeer {device : String} {peer : WireGuardPeer}
    (hdevice : peer.devicePublicKey = device) (hq : Q device peer.wgPublicKey)
    (writable : Bool) : AllBound Q (putPeer r device peer writable).2 := by
  have hset : AllBound Q {r with peers := r.peers.set device peer} := by
    refine ⟨fun k p hp => ?_,h.file⟩
    simp only [Table.get_set] at hp
    split at hp
    · next hk =>
      cases hp
      exact ⟨hdevice.trans hk.symm,hk ▸ hq⟩
    · exact h.peers k p hp
  have hsaved := hset.persistLocked writable
  simp only [WireGuardRegistry.putPeer]
  split <;> next heq => rw [heq] at hsaved; first | exact hsaved | exact hsaved.poison

/-- Provisioning adds no binding but the one it was asked for. -/
theorem AllBound.registerPeerLease {device wg : String} (hq : Q device wg)
    (now : ℕ) (writable : Bool) : AllBound Q (registerPeerLease r device wg now writable).2 := by
  have hpruned := h.pruneExpiredLocked now writable
  unfold WireGuardRegistry.registerPeerLease
  split
  · exact h
  · split
    · next heq => rw [heq] at hpruned; exact hpruned.poison
    · next r' heq =>
      rw [heq] at hpruned
      simp only at hpruned ⊢
      split
      · next existing hget =>
        split
        · refine hpruned.putPeer ?_ ?_ writable
          · exact (hpruned.peers _ _ hget).1
          · exact hq
        · exact hpruned
      · split
        · exact hpruned.poison
        · next ip octet _ =>
          have hcursor : AllBound Q {r' with nextOctet := octet} := ⟨hpruned.peers,hpruned.file⟩
          refine hcursor.putPeer ?_ ?_ writable
          · rfl
          · exact hq

theorem AllBound.allPeers (now : ℕ) (writable : Bool) :
    AllBound Q (allPeers r now writable).2 ∧
      ∀ peers, (allPeers r now writable).1 = some peers →
        ∀ p ∈ peers, Q p.devicePublicKey p.wgPublicKey := by
  have hpruned := h.pruneExpiredLocked now writable
  unfold WireGuardRegistry.allPeers
  split
  · exact ⟨h,by simp⟩
  · split
    · next heq => rw [heq] at hpruned; exact ⟨hpruned.poison,by simp⟩
    · next heq =>
      rw [heq] at hpruned
      refine ⟨hpruned,fun peers hpeers p hp => ?_⟩
      cases hpeers
      obtain ⟨⟨k,q⟩,hq,rfl⟩ := List.mem_map.mp hp
      obtain ⟨rfl,hbound⟩ := hpruned.peers k q ((Table.mem_toList _ _ _).mp hq)
      exact hbound

end

theorem withLease_keys (now peerLease : ℕ) (entry : WireGuardPeer) :
    (withLease now peerLease entry).devicePublicKey = entry.devicePublicKey ∧
      (withLease now peerLease entry).wgPublicKey = entry.wgPublicKey := by
  unfold withLease
  split <;> exact ⟨rfl,rfl⟩

theorem loadPeersFile_bound {items : List WireGuardPeer}
    (h : ∀ p ∈ items, Q p.devicePublicKey p.wgPublicKey) (now peerLease : ℕ) (k : String)
    (p : WireGuardPeer) (hp : (loadPeersFile items now peerLease).peers.get k = some p) :
    p.devicePublicKey = k ∧ Q k p.wgPublicKey := by
  have hfold : ∀ (items : List WireGuardPeer) (acc : Loading),
      (∀ p ∈ items, Q p.devicePublicKey p.wgPublicKey) →
      (∀ k p, acc.peers.get k = some p → p.devicePublicKey = k ∧ Q k p.wgPublicKey) →
      ∀ k p, (items.foldl (loadPeer now peerLease) acc).peers.get k = some p →
        p.devicePublicKey = k ∧ Q k p.wgPublicKey := by
    intro items
    induction items with
    | nil => exact fun acc _ hacc => hacc
    | cons entry items ih =>
      intro acc hitems hacc
      refine ih _ (fun p hp => hitems p (by simp [hp])) fun k p hp => ?_
      have hentry := hitems entry (by simp)
      simp only [loadPeer] at hp
      split at hp
      · exact hacc k p hp
      · simp only [Table.get_set] at hp
        split at hp
        · next hk =>
          cases hp
          obtain ⟨hdevice,hwg⟩ := withLease_keys now peerLease entry
          rw [hk,hdevice,hwg]
          exact ⟨rfl,hentry⟩
        · exact hacc k p hp
  exact hfold items _ h (by simp) k p hp

theorem loadWithLease_bound {file : File WireGuardPeer} {peerLease now : ℕ} {writable : Bool}
    (h : ∀ items, file = .entries items → ∀ p ∈ items, Q p.devicePublicKey p.wgPublicKey)
    (hload : loadWithLease file peerLease now writable = some r) : AllBound Q r := by
  cases file with
  | absent => cases hload; exact ⟨by simp,by simp⟩
  | broken => cases hload
  | entries items =>
    have hitems := h items rfl
    have hread : ∀ octet, AllBound Q ⟨(loadPeersFile items now peerLease).peers,octet,peerLease,
        some (.entries items),false⟩ := fun octet =>
      ⟨loadPeersFile_bound hitems now peerLease,fun _ hf => by cases hf; exact hitems⟩
    simp only [loadWithLease] at hload
    split at hload
    · split at hload
      · next heq =>
        cases hload
        have hsaved := (hread (normalizeOctet (saturatingSucc
          (loadPeersFile items now peerLease).maxOctet))).persistLocked writable
        rw [heq] at hsaved
        exact hsaved
      · cases hload
    · cases hload
      exact hread _

end Bound

end Bonded.WireGuardRegistry
