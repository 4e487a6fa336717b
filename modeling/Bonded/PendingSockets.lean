import Mathlib.Data.List.Dedup
import Mathlib.Data.List.FinRange
import Mathlib.Data.Multiset.AddSub
import Bonded.FlowIsolation

/-! Which sockets stay on the pending list. Every SYN asks for a listening socket, and only a
socket that is found in the Established state leaves the list. So the list is right as long as
every SYN opens a connection of its own and no handshake ends, by a FIN or a reset, in the batch
of packets that it is completed in. -/
namespace Bonded.Promotion

open FlowIsolation Ipv4 Packet SmoltcpForwarder TcpStack

section Lists

variable {α β : Type}

theorem length_le_filterMap (f : α → Option β) (l : List α) {ks : List ℕ} (hnodup : ks.Nodup)
    (h : ∀ k ∈ ks, ∃ a, l[k]? = some a ∧ (f a).isSome) : ks.length ≤ (l.filterMap f).length := by
  have hsub : ks ⊆ ((List.finRange l.length).filter fun i => (f (l.get i)).isSome).map Fin.val := by
    intro k hk
    obtain ⟨a,ha,hsome⟩ := h k hk
    obtain ⟨hlt,hget⟩ := List.getElem?_eq_some_iff.mp ha
    refine List.mem_map.mpr ⟨⟨k,hlt⟩,List.mem_filter.mpr ⟨List.mem_finRange _,?_⟩,rfl⟩
    simpa [hget] using hsome
  calc ks.length ≤ _ := (hnodup.subperm hsub).length_le
    _ = ((List.finRange l.length).map l.get).countP fun a => (f a).isSome := by
      rw [List.length_map,List.countP_map,List.countP_eq_length_filter]
      rfl
    _ = (l.filterMap f).length := by
      rw [← List.ofFn_eq_map,List.ofFn_get,List.length_filterMap_eq_countP]

end Lists

section State

variable {τ : Type} (api : TcpApi τ)

/-- The three-way handshake is over: Established or any later state. -/
def completed : TcpState → Bool
  | .listen | .synSent | .synReceived => false
  | _ => true

def synFlow (x : Injected) : Option Flow := if isSynPacket x then packetFlow x else none

def synFlows (flight : List Injected) : List Flow := flight.filterMap synFlow

/-- The flow of a socket that has answered a SYN and waits for the acknowledgement. -/
def halfOpenFlow (slot : Option (Slot τ)) : Option Flow :=
  slot.bind fun slot => if api.state slot.sock = .synReceived then slot.accepted else none

def halfOpenFlows (sockets : List (Option (Slot τ))) : List Flow :=
  sockets.filterMap (halfOpenFlow api)

/-- The flows whose handshake is in progress: the SYN is on its way to the stack, or the stack
has answered it. -/
def inProgress (s : Forwarder τ) : List Flow :=
  (halfOpenFlows api s.sockets++synFlows (inFlight s)).dedup

/-- No pending socket has completed its handshake, and there are no more pending sockets than
handshakes in progress. -/
structure Complete (s : Forwarder τ) : Prop where
  promoted : ∀ p ∈ s.pending, ∀ slot, socketAt s.sockets p.handle = some slot →
    completed (api.state slot.sock) = false
  bounded : s.pending.length ≤ (inProgress api s).length

/-- From the promotion of one iteration to the stack's run in the next one. -/
def CompleteAfterPromotion (s : Forwarder τ) : Prop := s.phase = .drain → Complete api s

/-- The client's end of a connected socket, with the local port. -/
def peer (sock : τ) : Option (Ipv4Addr × ℕ × ℕ) :=
  if api.state sock = .listen then none
  else (api.remote sock).map fun r => (r.1,r.2,api.localPort sock)

/-- A SYN opens a connection of its own: no socket is connected to the client's end, and no other
SYN from there is on its way. -/
def Fresh (s : Forwarder τ) (f : Flow) : Prop :=
  (∀ slot ∈ s.sockets, ∀ x ∈ slot, peer api x.sock ≠ some f.triple) ∧
    ∀ g ∈ synFlows (inFlight s), g.triple ≠ f.triple

def endsConnection (t : TcpTuple) : Bool := t.isRst || isFin t

def tripleOf (t : TcpTuple) : Ipv4Addr × ℕ × ℕ := (t.srcIp,t.srcPort,t.dstPort)

/-- The condition on a step: every SYN is well formed and opens a connection of its own, the queue
has room for it, and no packet of a batch resets or closes a connection whose handshake is in
progress when the stack gets the batch. -/
def Orderly (s : Forwarder τ) : Event → Prop
  | .ingest payload => ∀ x, injected payload = some x → ∀ f, synFlow x = some f →
      api.wellFormed x.bytes = true ∧ Fresh api s f
  | .inject => ∀ x, s.caller.bind injected = some x → isSynPacket x = true →
      s.queue.length < capacity
  | .poll _ _ => ∀ x ∈ s.rx, ∀ t, segment api x.bytes = some t → endsConnection t = true →
      ∀ f ∈ inProgress api s, f.triple ≠ tripleOf t
  | _ => True

instance (s : Forwarder τ) : Decidable (Complete api s) :=
  decidable_of_iff (_ ∧ _) ⟨fun h => ⟨h.1,h.2⟩,fun h => ⟨h.promoted,h.bounded⟩⟩

instance (s : Forwarder τ) : Decidable (CompleteAfterPromotion api s) :=
  inferInstanceAs (Decidable (_ → _))

instance (s : Forwarder τ) (f : Flow) : Decidable (Fresh api s f) :=
  inferInstanceAs (Decidable (_ ∧ _))

instance (s : Forwarder τ) (e : Event) : Decidable (Orderly api s e) := by
  cases e <;> unfold Orderly <;> infer_instance

/-- What the stack is assumed to do during a handshake: a listening socket answers a SYN, and only
a reset or a FIN ends a connection that is opening or open. -/
structure HandshakeLaws : Prop where
  process_syn : ∀ sock now bytes t, api.state sock = .listen → segment api bytes = some t →
    t.isSyn = true → api.state (api.process sock now bytes).1 = .synReceived ∧
      api.remote (api.process sock now bytes).1 = some (t.srcIp,t.srcPort)
  process_halfOpen : ∀ sock now bytes t, api.state sock = .synReceived →
    segment api bytes = some t → endsConnection t = false →
    (api.state (api.process sock now bytes).1 = .synReceived ∧
      api.remote (api.process sock now bytes).1 = api.remote sock) ∨
    api.state (api.process sock now bytes).1 = .established
  process_established : ∀ sock now bytes t, api.state sock = .established →
    segment api bytes = some t → endsConnection t = false →
    api.state (api.process sock now bytes).1 = .established
  dispatch_halfOpen : ∀ sock now, api.state sock = .synReceived →
    api.state (api.dispatch sock now).1 = .synReceived ∧
      api.remote (api.dispatch sock now).1 = api.remote sock
  dispatch_established : ∀ sock now, api.state sock = .established →
    api.state (api.dispatch sock now).1 = .established

end State

section Invariant

variable {τ : Type} (api : TcpApi τ)

def listenPort (slot : Option (Slot τ)) : Option ℕ :=
  slot.bind fun slot =>
    if api.state slot.sock = .listen then some (api.localPort slot.sock) else none

def listenPorts (sockets : List (Option (Slot τ))) : Multiset ℕ :=
  sockets.filterMap (listenPort api)

def synPorts (flight : List Injected) : Multiset ℕ := (synFlows flight).map Flow.dstPort

/-- A half-open socket is connected to the sender of the SYN that it accepted, and no other SYN
from the client's end of a socket is on its way. -/
structure Tracked (flight : List Injected) (slot : Slot τ) : Prop where
  opening : api.state slot.sock ≠ .synSent
  halfOpen : api.state slot.sock = .synReceived →
    ∃ f, slot.accepted = some f ∧ peer api slot.sock = some f.triple
  fresh : ∀ f ∈ synFlows flight, peer api slot.sock ≠ some f.triple

/-- For every listening socket, and every one that was asked for, a SYN is on its way to its port;
half-open sockets and SYNs belong to different connections. -/
structure Matched (flight : List Injected) (creates : List Flow)
    (sockets : List (Option (Slot τ))) : Prop where
  slots : ∀ k slot, socketAt sockets k = some slot → Tracked api flight slot
  ports : listenPorts api sockets+(creates.map Flow.dstPort : List ℕ) ≤ synPorts flight
  distinct : ((halfOpenFlows api sockets).map Flow.triple).Nodup
  syns : ((synFlows flight).map Flow.triple).Nodup
  wellFormed : ∀ x ∈ flight, isSynPacket x = true → api.wellFormed x.bytes = true

/-- Every pending or active connection has its socket. -/
structure Held (waiting : List PendingTcpConn) (sockets : List (Option (Slot τ)))
    (conns : Table ℕ ActiveTcpConn) (promoted : List ℕ) : Prop where
  pending : ∀ p ∈ waiting, ∃ slot, socketAt sockets p.handle = some slot ∧
    (completed (api.state slot.sock) = false ∨ api.state slot.sock = .established)
  active : ∀ h conn, conns.get h = some conn →
    ∃ slot, socketAt sockets h = some slot ∧ completed (api.state slot.sock) = true
  distinct : (waiting.map PendingTcpConn.handle).Nodup
  apart : ∀ p ∈ waiting, conns.get p.handle = none
  promoted : ∀ k ∈ promoted, ∃ conn, conns.get k = some conn

structure Inv (s : Forwarder τ) : Prop where
  matched : Matched api (inFlight s) (queuedFlows s.queue) s.sockets
  held : Held api s.pending s.sockets s.active s.promoted
  settled : s.phase = .drain → ∀ p ∈ s.pending, ∀ slot,
    socketAt s.sockets p.handle = some slot → completed (api.state slot.sock) = false

end Invariant

section Sockets

variable {τ : Type} {api : TcpApi τ} {flight : List Injected} {creates : List Flow}
  {sockets : List (Option (Slot τ))}

theorem completed_iff (state : TcpState) : completed state = true ↔
    state ≠ .listen ∧ state ≠ .synSent ∧ state ≠ .synReceived := by
  cases state <;> simp [completed]

variable {sock : τ} {triple : Ipv4Addr × ℕ × ℕ} {slot : Slot τ}

theorem peer_eq_some : peer api sock = some triple ↔ api.state sock ≠ .listen ∧
      ∃ ip port, api.remote sock = some (ip,port) ∧ (ip,port,api.localPort sock) = triple := by
  unfold peer
  split
  · next h => simp [h]
  · next h => simp [h]

theorem peer_quiet {a b : τ} (h : Quiet api a b) (hb : peer api b = some triple) :
    peer api a = some triple := by
  obtain ⟨hstate,ip,port,hremote,htriple⟩ := peer_eq_some.mp hb
  refine peer_eq_some.mpr ⟨fun hl => hstate (h.listen.mpr hl),ip,port,?_,h.port ▸ htriple⟩
  rcases h.remote with heq | hnone
  · exact heq.symm.trans hremote
  · rw [hremote] at hnone
    cases hnone

theorem peer_process (laws : TcpLaws api) {now : ℕ} {bytes : List UInt8}
    (hsock : api.state sock ≠ .listen) (h : peer api (api.process sock now bytes).1 = some triple) :
    peer api sock = some triple := by
  obtain ⟨-,ip,port,hremote,htriple⟩ := peer_eq_some.mp h
  refine peer_eq_some.mpr ⟨hsock,ip,port,?_,laws.process_port sock now bytes ▸ htriple⟩
  rcases laws.process_connected sock now bytes hsock with heq | hnone
  · exact heq.symm.trans hremote
  · rw [hremote] at hnone
    cases hnone

theorem completed_quiet {a b : τ} (h : Quiet api a b) (ha : completed (api.state a) = true) :
    completed (api.state b) = true := by
  obtain ⟨hlisten,hsent,hreceived⟩ := (completed_iff _).mp ha
  refine (completed_iff _).mpr ⟨fun hb => hlisten (h.listen.mp hb),fun hb => hsent (h.synSent hb),
    fun hb => ?_⟩
  rcases h.synReceived hb with hold | hold
  · exact hreceived hold
  · exact hsent hold

theorem completed_process (laws : TcpLaws api) {now : ℕ} {bytes : List UInt8} {t : TcpTuple}
    (hseg : segment api bytes = some t) (h : completed (api.state sock) = true) :
    completed (api.state (api.process sock now bytes).1) = true := by
  obtain ⟨hlisten,hsent,hreceived⟩ := (completed_iff _).mp h
  refine (completed_iff _).mpr ⟨fun hl => ?_,fun hs => ?_,fun hr => ?_⟩
  · exact hreceived (laws.process_listens sock now bytes t hlisten hseg hl).1
  · exact hsent (laws.process_synSent sock now bytes hs)
  · exact (laws.process_synReceived sock now bytes hlisten hr).elim hreceived hsent

theorem halfOpenFlow_of_completed (h : completed (api.state slot.sock) = true) :
    halfOpenFlow api (some slot) = none ∧ listenPort api (some slot) = none := by
  obtain ⟨hlisten,-,hreceived⟩ := (completed_iff _).mp h
  simp [halfOpenFlow,listenPort,hlisten,hreceived]

theorem Tracked.of_completed {slot' : Slot τ} (h : Tracked api flight slot)
    (hdone : completed (api.state slot'.sock) = true)
    (hpeer : ∀ triple, peer api slot'.sock = some triple → peer api slot.sock = some triple) :
    Tracked api flight slot' := by
  obtain ⟨-,hsent,hreceived⟩ := (completed_iff _).mp hdone
  exact ⟨hsent,fun hr => absurd hr hreceived,fun f hf heq => h.fresh f hf (hpeer _ heq)⟩

theorem Tracked.mono {flight' : List Injected} (h : Tracked api flight slot)
    (hsub : synFlows flight' ⊆ synFlows flight) : Tracked api flight' slot :=
  ⟨h.opening,h.halfOpen,fun f hf => h.fresh f (hsub hf)⟩

theorem getElem?_of_socketAt {k : ℕ} (h : socketAt sockets k = some slot) :
    sockets[k]? = some (some slot) := by
  rw [socketAt,List.getD_eq_getElem?_getD] at h
  cases hget : sockets[k]? with
  | none => simp [hget] at h
  | some o => simp only [hget,Option.getD_some] at h; rw [h]

theorem exists_socketAt (h : some slot ∈ sockets) : ∃ k, socketAt sockets k = some slot := by
  obtain ⟨k,hk⟩ := List.mem_iff_getElem?.mp h
  exact ⟨k,by simp [socketAt,List.getD_eq_getElem?_getD,hk]⟩

/-- A socket is replaced by one that listens on the same port, if at all, and is half open for the
same flow, if at all. -/
theorem Matched.turn (h : Matched api flight creates sockets) {i : ℕ}
    (hslot : socketAt sockets i = some slot) {new : Option (Slot τ)}
    (hnew : ∀ x, new = some x → Tracked api flight x)
    (hport : listenPort api new = listenPort api (some slot))
    (hflow : halfOpenFlow api new = halfOpenFlow api (some slot) ∨ halfOpenFlow api new = none) :
    Matched api flight creates (sockets.set i new) := by
  have hget := getElem?_of_socketAt hslot
  refine ⟨fun k x hx => ?_,?_,?_,h.syns,h.wellFormed⟩
  · rw [socketAt_set hslot] at hx
    split at hx
    · exact hnew x hx
    · exact h.slots k x hx
  · obtain ⟨rest,hold,hset⟩ := filterMap_set (listenPort api) hget new
    have heq : listenPorts api (sockets.set i new) = listenPorts api sockets := by
      rw [hport] at hset
      exact Multiset.coe_eq_coe.mpr (hset.trans hold.symm)
    rw [heq]
    exact h.ports
  · obtain ⟨rest,hold,hset⟩ := filterMap_set (halfOpenFlow api) hget new
    have hnodup := (hold.map Flow.triple).nodup_iff.mp h.distinct
    refine (hset.map Flow.triple).nodup_iff.mpr ?_
    rcases hflow with heq | hnone
    · rw [heq]
      exact hnodup
    · rw [List.map_append] at hnodup
      rw [hnone]
      exact hnodup.of_append_right

/-- A socket whose handshake is over changes, or is removed. -/
theorem Matched.over (h : Matched api flight creates sockets) {i : ℕ}
    (hslot : socketAt sockets i = some slot) (hdone : completed (api.state slot.sock) = true)
    {new : Option (Slot τ)} (hnew : ∀ x, new = some x → completed (api.state x.sock) = true ∧
      ∀ triple, peer api x.sock = some triple → peer api slot.sock = some triple) :
    Matched api flight creates (sockets.set i new) := by
  obtain ⟨hflow,hport⟩ := halfOpenFlow_of_completed hdone
  refine h.turn hslot (fun x hx => ?_) ?_ (.inr ?_)
  · exact (h.slots i slot hslot).of_completed (hnew x hx).1 (hnew x hx).2
  · cases new with
    | none => rw [hport]; rfl
    | some x => rw [hport]; exact (halfOpenFlow_of_completed (hnew x rfl).1).2
  · cases new with
    | none => rfl
    | some x => exact (halfOpenFlow_of_completed (hnew x rfl).1).1

end Sockets

section Poll

variable {τ : Type} {api : TcpApi τ} {flight : List Injected} {sockets : List (Option (Slot τ))}
  {x : Injected} {i : ℕ} {slot slot' : Slot τ} {t : TcpTuple}

theorem synFlows_cons (x : Injected) (xs : List Injected) :
    synFlows (x::xs) = (synFlow x).toList++synFlows xs := by
  rw [synFlows,List.filterMap_cons]
  cases synFlow x <;> rfl

theorem synFlow_segment (h : segment api x.bytes = some t) :
    synFlow x = if t.isSyn then some (flowOf t x.originalDst) else none := by
  obtain ⟨htuple,hflow⟩ := segment_tuple h
  simp [synFlow,isSynPacket,htuple,hflow]

theorem accepts_connected (h : accepts api slot.sock t = true)
    (hstate : api.state slot.sock ≠ .listen) : peer api slot.sock = some (tripleOf t) := by
  simp only [accepts,Bool.and_eq_true,decide_eq_true_eq] at h
  obtain ⟨hport,h⟩ := h
  have hremote : api.remote slot.sock = some (t.srcIp,t.srcPort) := by
    split at h
    · next heq => exact absurd heq hstate
    · cases h
    · simpa using h
  exact peer_eq_some.mpr ⟨hstate,_,_,hremote,by rw [hport]; rfl⟩

theorem mem_halfOpenFlows {g : Flow} : g ∈ halfOpenFlows api sockets ↔ ∃ k slot,
    socketAt sockets k = some slot ∧ api.state slot.sock = .synReceived ∧
      slot.accepted = some g := by
  rw [halfOpenFlows,List.mem_filterMap]
  constructor
  · rintro ⟨o,ho,hg⟩
    obtain ⟨slot,rfl,hg⟩ := Option.bind_eq_some_iff.mp hg
    obtain ⟨hstate,hg⟩ := Option.ite_none_right_eq_some.mp hg
    obtain ⟨k,hk⟩ := exists_socketAt ho
    exact ⟨k,slot,hk,hstate,hg⟩
  · rintro ⟨k,slot,hslot,hstate,hg⟩
    exact ⟨some slot,List.mem_of_getElem? (getElem?_of_socketAt hslot),
      by simp [halfOpenFlow,hstate,hg]⟩

theorem Matched.halfOpen_peer {creates : List Flow} (h : Matched api flight creates sockets)
    {g : Flow} (hg : g ∈ halfOpenFlows api sockets) :
    ∃ k slot, socketAt sockets k = some slot ∧ peer api slot.sock = some g.triple := by
  obtain ⟨k,slot,hslot,hstate,hacc⟩ := mem_halfOpenFlows.mp hg
  obtain ⟨f,hf,hpeer⟩ := (h.slots k slot hslot).halfOpen hstate
  rw [hacc,Option.some.injEq] at hf
  exact ⟨k,slot,hslot,hf ▸ hpeer⟩

theorem Matched.skip (h : Matched api (x::flight) [] sockets)
    (hx : ∀ f, synFlow x = some f → f.dstPort ∉ listenPorts api sockets) :
    Matched api flight [] sockets := by
  have hcons := synFlows_cons x flight
  have hsub : synFlows flight ⊆ synFlows (x::flight) := hcons ▸ List.subset_append_right _ _
  refine ⟨fun k slot hk => (h.slots k slot hk).mono hsub,?_,h.distinct,?_,
    fun y hy => h.wellFormed y (by simp [hy])⟩
  · have hports := h.ports
    rw [List.map_nil,Multiset.coe_nil,Multiset.add_zero,synPorts] at hports ⊢
    rw [hcons] at hports
    cases hf : synFlow x with
    | none => simpa [hf,synPorts] using hports
    | some f =>
      simp only [hf,Option.toList_some,List.cons_append,List.nil_append,List.map_cons,
        ← Multiset.cons_coe] at hports
      exact (Multiset.le_cons_of_notMem (hx f hf)).mp hports
  · have hsyns := h.syns
    rw [hcons,List.map_append] at hsyns
    exact hsyns.of_append_right

/-- A listening socket answers a SYN. -/
theorem Matched.opens {f : Flow} (h : Matched api (x::flight) [] sockets)
    (hf : synFlow x = some f) (hslot : socketAt sockets i = some slot)
    (hlisten : api.state slot.sock = .listen) (hport : api.localPort slot.sock = f.dstPort)
    (hstate : api.state slot'.sock = .synReceived) (hacc : slot'.accepted = some f)
    (hpeer : peer api slot'.sock = some f.triple) :
    Matched api flight [] (sockets.set i (some slot')) := by
  have hcons : synFlows (x::flight) = f::synFlows flight := by
    rw [synFlows_cons,hf]
    rfl
  have hget := getElem?_of_socketAt hslot
  have hsyns := h.syns
  rw [hcons,List.map_cons,List.nodup_cons] at hsyns
  refine ⟨fun k y hy => ?_,?_,?_,hsyns.2,fun y hy => h.wellFormed y (by simp [hy])⟩
  · rw [socketAt_set hslot] at hy
    split at hy
    · cases hy
      refine ⟨by simp [hstate],fun _ => ⟨f,hacc,hpeer⟩,fun g hg heq => hsyns.1 ?_⟩
      rw [hpeer,Option.some.injEq] at heq
      exact List.mem_map.mpr ⟨g,hg,heq.symm⟩
    · exact (h.slots k y hy).mono (by rw [hcons]; exact List.subset_cons_self _ _)
  · -- the socket and the SYN go out of the two counts together
    obtain ⟨rest,hold,hset⟩ := filterMap_set (listenPort api) hget (some slot')
    have hbefore : listenPorts api sockets = f.dstPort ::ₘ rest := by
      refine Multiset.coe_eq_coe.mpr (hold.trans ?_)
      simp [listenPort,hlisten,hport]
    have hafter : listenPorts api (sockets.set i (some slot')) = rest := by
      refine Multiset.coe_eq_coe.mpr (hset.trans ?_)
      simp [listenPort,hstate]
    have hports := h.ports
    rw [List.map_nil,Multiset.coe_nil,Multiset.add_zero,hbefore,synPorts,hcons,List.map_cons,
      ← Multiset.cons_coe,Multiset.cons_le_cons_iff] at hports
    rw [List.map_nil,Multiset.coe_nil,Multiset.add_zero,hafter]
    exact hports
  · obtain ⟨rest,hold,hset⟩ := filterMap_set (halfOpenFlow api) hget (some slot')
    have hnone : halfOpenFlow api (some slot) = none := by simp [halfOpenFlow,hlisten]
    have hsome : halfOpenFlow api (some slot') = some f := by simp [halfOpenFlow,hstate,hacc]
    rw [hnone] at hold
    rw [hsome] at hset
    refine (hset.map Flow.triple).nodup_iff.mpr (List.nodup_cons.mpr
      ⟨fun hmem => ?_,(hold.map Flow.triple).nodup_iff.mp h.distinct⟩)
    obtain ⟨g,hg,hgf⟩ := List.mem_map.mp hmem
    obtain ⟨k,y,hy,hypeer⟩ := h.halfOpen_peer (hold.mem_iff.mpr hg)
    exact (h.slots k y hy).fresh f (by simp [hcons]) (hgf ▸ hypeer)

/-- The stack in the middle of a batch. The connections in `guarded` had their handshake in
progress when the stack got the batch. -/
structure Polling (api : TcpApi τ) (guarded : List (Ipv4Addr × ℕ × ℕ)) (batch later : List Injected)
    (s : Forwarder τ) : Prop where
  matched : Matched api (batch++later) [] s.sockets
  held : Held api s.pending s.sockets s.active s.promoted
  peers : ∀ k slot, socketAt s.sockets k = some slot →
    (api.state slot.sock = .synReceived ∨ ∃ p ∈ s.pending, p.handle = k) →
    ∀ triple, peer api slot.sock = some triple → triple ∈ guarded
  syns : ∀ x ∈ batch, ∀ f, synFlow x = some f → f.triple ∈ guarded
  gentle : ∀ x ∈ batch, ∀ t, segment api x.bytes = some t → endsConnection t = true →
    tripleOf t ∉ guarded

variable {guarded : List (Ipv4Addr × ℕ × ℕ)} {xs later : List Injected} {s : Forwarder τ}

theorem Polling.skip (h : Polling api guarded (x::xs) later s)
    (hx : ∀ f, synFlow x = some f → f.dstPort ∉ listenPorts api s.sockets) (tx : List Tx) :
    Polling api guarded xs later {s with tx := tx} :=
  ⟨h.matched.skip hx,h.held,h.peers,fun y hy => h.syns y (by simp [hy]),
    fun y hy => h.gentle y (by simp [hy])⟩

/-- A socket is handed the packet. -/
theorem Polling.hand (h : Polling api guarded (x::xs) later s)
    (hslot : socketAt s.sockets i = some slot)
    (hmatched : Matched api (xs++later) [] (s.sockets.set i (some slot')))
    (hpending : (∃ p ∈ s.pending, p.handle = i) →
      completed (api.state slot'.sock) = false ∨ api.state slot'.sock = .established)
    (hactive : completed (api.state slot.sock) = true → completed (api.state slot'.sock) = true)
    (hpeers : (api.state slot'.sock = .synReceived ∨ ∃ p ∈ s.pending, p.handle = i) →
      ∀ triple, peer api slot'.sock = some triple → triple ∈ guarded) (tx : List Tx) :
    Polling api guarded xs later {s with sockets := s.sockets.set i (some slot'), tx := tx} := by
  have hset := socketAt_set hslot (some slot')
  refine ⟨hmatched,⟨fun p hp => ?_,fun k conn hconn => ?_,h.held.distinct,h.held.apart,
    h.held.promoted⟩,fun k y hy => ?_,fun y hy => h.syns y (by simp [hy]),
    fun y hy => h.gentle y (by simp [hy])⟩
  · obtain ⟨y,hy,hstate⟩ := h.held.pending p hp
    by_cases hi : p.handle = i
    · exact ⟨slot',by rw [hset,if_pos hi],hpending ⟨p,hp,hi⟩⟩
    · exact ⟨y,by rw [hset,if_neg hi]; exact hy,hstate⟩
  · obtain ⟨y,hy,hstate⟩ := h.held.active k conn hconn
    by_cases hi : k = i
    · rw [hi,hslot,Option.some.injEq] at hy
      exact ⟨slot',by rw [hset,if_pos hi],hactive (hy ▸ hstate)⟩
    · exact ⟨y,by rw [hset,if_neg hi]; exact hy,hstate⟩
  · simp only [hset] at hy
    split at hy
    · next hi =>
      cases hy
      rw [hi]
      exact hpeers
    · exact h.peers k y hy

theorem processSlot_sock (api : TcpApi τ) (now : ℕ) (slot : Slot τ) (x : Injected) (t : TcpTuple) :
    (processSlot api now slot x t).sock = (api.process slot.sock now x.bytes).1 :=
  noteSegment_sock slot _ _

theorem processSlot_accepted (api : TcpApi τ) (now : ℕ) (slot : Slot τ) (x : Injected) (t : TcpTuple)
    (h : api.state (api.process slot.sock now x.bytes).1 ≠ .listen) :
    (processSlot api now slot x t).accepted =
      if api.state slot.sock = .listen then some (flowOf t x.originalDst) else slot.accepted := by
  rw [processSlot,noteSegment,if_neg h]
  split <;> rfl

theorem peer_processSlot (laws : TcpLaws api) (now : ℕ) (hlisten : api.state slot.sock ≠ .listen)
    {triple : Ipv4Addr × ℕ × ℕ} (h : peer api (processSlot api now slot x t).sock = some triple) :
    peer api slot.sock = some triple := by
  rw [processSlot_sock] at h
  exact peer_process laws hlisten h

section Handed

variable (h : Polling api guarded (x::xs) later s) (hseg : segment api x.bytes = some t)
  (hslot : socketAt s.sockets i = some slot) (hacc : accepts api slot.sock t = true)
include h hseg hslot hacc

theorem Polling.matched_rest (hlisten : api.state slot.sock ≠ .listen) :
    Matched api (xs++later) [] s.sockets := by
  refine h.matched.skip fun f hf => absurd ?_ ((h.matched.slots i slot hslot).fresh f ?_)
  · rw [synFlow_segment hseg] at hf
    obtain ⟨-,hf⟩ := Option.ite_none_right_eq_some.mp hf
    rw [accepts_connected hacc hlisten,← Option.some.inj hf]
    rfl
  · simp [synFlows,hf]

/-- A packet for a socket whose handshake was in progress does not end the connection. -/
theorem Polling.spared (hlisten : api.state slot.sock ≠ .listen)
    (hopen : api.state slot.sock = .synReceived ∨ ∃ p ∈ s.pending, p.handle = i) :
    endsConnection t = false := by
  by_contra hends
  exact h.gentle x (by simp) t hseg (by simpa using hends)
    (h.peers i slot hslot hopen _ (accepts_connected hacc hlisten))

variable (laws : TcpLaws api) (hand : HandshakeLaws api) (now : ℕ) (tx : List Tx)
include laws hand

/-- A listening socket is handed a packet: it is a SYN. -/
theorem Polling.answer (hlisten : api.state slot.sock = .listen) :
    Polling api guarded xs later {s with
      sockets := s.sockets.set i (some (processSlot api now slot x t)), tx := tx} := by
  simp only [accepts,Bool.and_eq_true,decide_eq_true_eq,hlisten] at hacc
  obtain ⟨hport,hsyn⟩ := hacc
  have hf : synFlow x = some (flowOf t x.originalDst) := by rw [synFlow_segment hseg,if_pos hsyn]
  have hsock := processSlot_sock api now slot x t
  obtain ⟨hstate,hremote⟩ := hand.process_syn slot.sock now x.bytes t hlisten hseg hsyn
  have haccepted := processSlot_accepted api now slot x t (by simp [hstate])
  rw [if_pos hlisten] at haccepted
  have hpeer : peer api (processSlot api now slot x t).sock =
      some (flowOf t x.originalDst).triple := by
    refine peer_eq_some.mpr ⟨by simp [hsock,hstate],_,_,by rw [hsock,hremote],?_⟩
    rw [hsock,laws.process_port,hport]
    rfl
  refine h.hand hslot (h.matched.opens hf hslot hlisten hport (by rw [hsock,hstate]) haccepted hpeer)
    (fun _ => .inl (by rw [hsock,hstate]; rfl)) (fun hdone => ?_) (fun _ triple htriple => ?_) tx
  · rw [hlisten] at hdone
    cases hdone
  · rw [hpeer,Option.some.injEq] at htriple
    exact htriple ▸ h.syns x (by simp) _ hf

/-- A socket in the middle of its handshake is handed a packet: it stays there or is
established. -/
theorem Polling.passHalfOpen (hhalf : api.state slot.sock = .synReceived) :
    Polling api guarded xs later {s with
      sockets := s.sockets.set i (some (processSlot api now slot x t)), tx := tx} := by
  have hlisten : api.state slot.sock ≠ .listen := by simp [hhalf]
  have hskip := h.matched_rest hseg hslot hacc hlisten
  have hsock := processSlot_sock api now slot x t
  have hguard : ∀ triple, peer api (processSlot api now slot x t).sock = some triple →
      triple ∈ guarded := fun triple htriple =>
    h.peers i slot hslot (.inl hhalf) triple (peer_processSlot laws now hlisten htriple)
  have hnotdone : completed (api.state slot.sock) = true →
      completed (api.state (processSlot api now slot x t).sock) = true := by
    intro hdone
    rw [hhalf] at hdone
    cases hdone
  have hends := h.spared hseg hslot hacc hlisten (.inl hhalf)
  rcases hand.process_halfOpen slot.sock now x.bytes t hhalf hseg hends with
    ⟨hstate,hremote⟩ | hstate
  · have haccepted := processSlot_accepted api now slot x t (by simp [hstate])
    rw [if_neg hlisten] at haccepted
    obtain ⟨f,hf,hfpeer⟩ := (h.matched.slots i slot hslot).halfOpen hhalf
    have hsame : peer api (processSlot api now slot x t).sock = peer api slot.sock := by
      simp [peer,hsock,hstate,hhalf,hremote,laws.process_port]
    refine h.hand hslot (hskip.turn hslot (fun y hy => ?_) ?_ (.inl ?_))
      (fun _ => .inl (by rw [hsock,hstate]; rfl)) hnotdone (fun _ => hguard) tx
    · cases hy
      refine ⟨by simp [hsock,hstate],fun _ => ⟨f,haccepted.trans hf,hsame.trans hfpeer⟩,?_⟩
      rw [hsame]
      exact (hskip.slots i slot hslot).fresh
    · simp [listenPort,hsock,hstate,hhalf]
    · simp [halfOpenFlow,hsock,hstate,hhalf,haccepted]
  · have hdone : completed (api.state (processSlot api now slot x t).sock) = true := by
      rw [hsock,hstate]
      rfl
    obtain ⟨hflow,hport⟩ := halfOpenFlow_of_completed hdone
    refine h.hand hslot (hskip.turn hslot (fun y hy => ?_) ?_ (.inr hflow))
      (fun _ => .inr (by rw [hsock,hstate])) hnotdone (fun _ => hguard) tx
    · cases hy
      exact (hskip.slots i slot hslot).of_completed hdone fun triple =>
        peer_processSlot laws now hlisten
    · rw [hport]
      simp [listenPort,hhalf]

/-- A socket that is through with its handshake is handed a packet. If it was not promoted yet,
it is still established. -/
theorem Polling.passOver (hover : completed (api.state slot.sock) = true) :
    Polling api guarded xs later {s with
      sockets := s.sockets.set i (some (processSlot api now slot x t)), tx := tx} := by
  have hlisten := ((completed_iff _).mp hover).1
  have hsock := processSlot_sock api now slot x t
  have hdone : completed (api.state (processSlot api now slot x t).sock) = true := by
    rw [hsock]
    exact completed_process laws hseg hover
  have hskip := h.matched_rest hseg hslot hacc hlisten
  refine h.hand hslot (hskip.over hslot hover fun y hy => ?_) (fun hpending => .inr ?_)
    (fun _ => hdone) (fun hopen triple htriple => ?_) tx
  · cases hy
    exact ⟨hdone,fun triple => peer_processSlot laws now hlisten⟩
  · have hends := h.spared hseg hslot hacc hlisten (.inr hpending)
    obtain ⟨p,hp,hpi⟩ := hpending
    obtain ⟨y,hy,hstate⟩ := h.held.pending p hp
    rw [hpi,hslot,Option.some.injEq] at hy
    rw [← hy,hover] at hstate
    rw [hsock]
    exact hand.process_established slot.sock now x.bytes t (by simpa using hstate) hseg hends
  · rcases hopen with hreceived | hpending
    · rw [hreceived] at hdone
      cases hdone
    · exact h.peers i slot hslot (.inr hpending) triple (peer_processSlot laws now hlisten htriple)

/-- A connected socket is handed a packet. -/
theorem Polling.pass (hlisten : api.state slot.sock ≠ .listen) :
    Polling api guarded xs later {s with
      sockets := s.sockets.set i (some (processSlot api now slot x t)), tx := tx} := by
  by_cases hhalf : api.state slot.sock = .synReceived
  · exact h.passHalfOpen hseg hslot hacc laws hand now tx hhalf
  · have hopening := (h.matched.slots i slot hslot).opening
    exact h.passOver hseg hslot hacc laws hand now tx
      ((completed_iff _).mpr ⟨hlisten,hopening,hhalf⟩)

end Handed

variable (laws : TcpLaws api) (hand : HandshakeLaws api)
include laws hand

theorem Polling.ingress (now : ℕ) (h : Polling api guarded (x::xs) later s) :
    Polling api guarded xs later (ingress api now s x) := by
  cases hseg : segment api x.bytes with
  | none =>
    have hignored : SmoltcpForwarder.ingress api now s x = {s with tx := s.tx} := by
      simp only [SmoltcpForwarder.ingress,hseg]
    rw [hignored]
    refine h.skip (fun f hf => ?_) s.tx
    -- a SYN on its way is not ignored
    obtain ⟨hsyn,hf⟩ := Option.ite_none_right_eq_some.mp hf
    have hwell := h.matched.wellFormed x (by simp) hsyn
    have hnone : packetFlow x = none := by
      simp only [SmoltcpForwarder.segment,hwell,if_true] at hseg
      simp [packetFlow,tupleOf,hseg]
    rw [hf] at hnone
    cases hnone
  | some t =>
    cases hrec : receiver api s.sockets t with
    | none =>
      have hrefused : SmoltcpForwarder.ingress api now s x = {s with
          tx := s.tx++(api.refuse x.bytes).map fun bytes => ⟨bytes,none⟩} := by
        simp only [SmoltcpForwarder.ingress,hseg,hrec]
      rw [hrefused]
      refine h.skip (fun f hf hmem => ?_) _
      -- a socket that listens on the port would have accepted the SYN
      rw [synFlow_segment hseg] at hf
      obtain ⟨hsyn,hf⟩ := Option.ite_none_right_eq_some.mp hf
      obtain ⟨o,ho,hport⟩ := List.mem_filterMap.mp (Multiset.mem_coe.mp hmem)
      obtain ⟨slot,rfl,hport⟩ := Option.bind_eq_some_iff.mp hport
      obtain ⟨hlisten,hport⟩ := Option.ite_none_right_eq_some.mp hport
      have hnot := List.findIdx?_eq_none_iff.mp hrec (some slot) ho
      simp [accepts,hlisten,hsyn,Option.some.inj hport,← Option.some.inj hf,flowOf] at hnot
    | some i =>
      obtain ⟨slot,hslot,hacc⟩ := receiver_accepts api hrec
      have hhanded : ∃ tx, SmoltcpForwarder.ingress api now s x = {s with
          sockets := s.sockets.set i (some (processSlot api now slot x t)), tx := tx} :=
        ⟨_,by simp only [SmoltcpForwarder.ingress,hseg,hrec,hslot]; rfl⟩
      obtain ⟨tx,hhanded⟩ := hhanded
      rw [hhanded]
      by_cases hlisten : api.state slot.sock = .listen
      · exact h.answer hseg hslot hacc laws hand now tx hlisten
      · exact h.pass hseg hslot hacc laws hand now tx hlisten

theorem Polling.ingressAll (now : ℕ) (h : Polling api guarded xs later s) :
    Polling api guarded [] later (xs.foldl (SmoltcpForwarder.ingress api now) s) := by
  induction xs generalizing s with
  | nil => exact h
  | cons x xs ih => exact ih (h.ingress laws hand now)

end Poll

section Egress

variable {τ : Type} {api : TcpApi τ} {flight : List Injected} {creates : List Flow}
  {s : Forwarder τ}

variable (laws : TcpLaws api)
include laws

section

variable (hand : HandshakeLaws api)
include hand

theorem peer_dispatch {sock : τ} (now : ℕ)
    (h : api.state sock = .synReceived) : peer api (api.dispatch sock now).1 = peer api sock := by
  obtain ⟨hstate,hremote⟩ := hand.dispatch_halfOpen sock now h
  simp [peer,h,hstate,hremote,(laws.dispatch_quiet sock now).port]

/-- A socket sends: it listens, or is half open, as before. -/
theorem dispatch_views (now : ℕ) {slot : Slot τ} (h : api.state slot.sock ≠ .synSent) :
    halfOpenFlow api (some (sendingSlot api now slot)) = halfOpenFlow api (some slot) ∧
      listenPort api (some (sendingSlot api now slot)) = listenPort api (some slot) := by
  have hquiet := laws.dispatch_quiet slot.sock now
  have hhalf : api.state (api.dispatch slot.sock now).1 = .synReceived ↔
      api.state slot.sock = .synReceived := by
    refine ⟨fun hr => ?_,fun hr => (hand.dispatch_halfOpen slot.sock now hr).1⟩
    exact (hquiet.synReceived hr).resolve_right h
  simp [halfOpenFlow,listenPort,sendingSlot,hhalf,hquiet.listen,hquiet.port]

theorem Tracked.dispatch (now : ℕ) {slot : Slot τ}
    (h : Tracked api flight slot) : Tracked api flight (sendingSlot api now slot) := by
  have hquiet := laws.dispatch_quiet slot.sock now
  refine ⟨fun hs => h.opening (hquiet.synSent hs),fun hr => ?_,
    fun f hf heq => h.fresh f hf (peer_quiet hquiet heq)⟩
  have hold := (hquiet.synReceived hr).resolve_right h.opening
  obtain ⟨f,hf,hpeer⟩ := h.halfOpen hold
  exact ⟨f,hf,(peer_dispatch laws hand now hold).trans hpeer⟩

theorem Matched.egress (now : ℕ) (h : Matched api flight creates s.sockets) :
    Matched api flight creates (egress api now s).sockets := by
  have hviews : ∀ o ∈ s.sockets, halfOpenFlow api (o.map (sendingSlot api now)) =
      halfOpenFlow api o ∧ listenPort api (o.map (sendingSlot api now)) = listenPort api o := by
    intro o ho
    cases o with
    | none => exact ⟨rfl,rfl⟩
    | some slot =>
      obtain ⟨k,hk⟩ := exists_socketAt ho
      exact dispatch_views laws hand now (h.slots k slot hk).opening
  refine ⟨fun k slot hk => ?_,?_,?_,h.syns,h.wellFormed⟩
  · simp only [SmoltcpForwarder.egress,socketAt_map] at hk
    obtain ⟨old,hold,rfl⟩ := Option.map_eq_some_iff.mp hk
    exact (h.slots k old hold).dispatch laws hand now
  · have heq : listenPorts api (SmoltcpForwarder.egress api now s).sockets =
        listenPorts api s.sockets := by
      rw [listenPorts,SmoltcpForwarder.egress,List.filterMap_map]
      exact congrArg _ (List.filterMap_congr fun o ho => (hviews o ho).2)
    rw [heq]
    exact h.ports
  · have heq : halfOpenFlows api (SmoltcpForwarder.egress api now s).sockets =
        halfOpenFlows api s.sockets := by
      rw [halfOpenFlows,SmoltcpForwarder.egress,List.filterMap_map]
      exact List.filterMap_congr fun o ho => (hviews o ho).1
    rw [heq]
    exact h.distinct

theorem Held.egress (now : ℕ) (hmatched : Matched api flight creates s.sockets)
    (h : Held api s.pending s.sockets s.active s.promoted) :
    Held api s.pending (egress api now s).sockets s.active s.promoted := by
  have hat : ∀ k, socketAt (SmoltcpForwarder.egress api now s).sockets k =
      (socketAt s.sockets k).map (sendingSlot api now) := fun k => socketAt_map _ _ k
  refine ⟨fun p hp => ?_,fun k conn hconn => ?_,h.distinct,h.apart,h.promoted⟩
  · obtain ⟨slot,hslot,hstate⟩ := h.pending p hp
    refine ⟨_,by rw [hat,hslot]; rfl,?_⟩
    have hopening := (hmatched.slots _ slot hslot).opening
    rcases hstate with hnot | hest
    · left
      by_contra hdone
      -- a socket that sends does not complete its handshake by that
      obtain ⟨hlisten,-,hreceived⟩ := (completed_iff _).mp (by simpa using hdone)
      have hquiet := laws.dispatch_quiet slot.sock now
      have hstill : completed (api.state slot.sock) = true := (completed_iff _).mpr
        ⟨fun hl => hlisten (hquiet.listen.mpr hl),hopening,
          fun hr => hreceived (hand.dispatch_halfOpen slot.sock now hr).1⟩
      rw [hnot] at hstill
      cases hstill
    · exact .inr (hand.dispatch_established slot.sock now hest)
  · obtain ⟨slot,hslot,hstate⟩ := h.active k conn hconn
    exact ⟨_,by rw [hat,hslot]; rfl,completed_quiet (laws.dispatch_quiet slot.sock now) hstate⟩

theorem egressRounds_keeps (now n : ℕ) (hmatched : Matched api flight creates s.sockets)
    (hheld : Held api s.pending s.sockets s.active s.promoted) :
    let sent := egressRounds api now n s
    Matched api flight creates sent.sockets ∧
      Held api sent.pending sent.sockets sent.active sent.promoted := by
  induction n generalizing s with
  | zero => exact ⟨hmatched,hheld⟩
  | succ n ih => exact ih (hmatched.egress laws hand now) (hheld.egress laws hand now hmatched)

end

omit laws in
theorem mem_inProgress {f : Flow} : f ∈ inProgress api s ↔
    f ∈ halfOpenFlows api s.sockets ∨ f ∈ synFlows (inFlight s) := by
  rw [inProgress,List.mem_dedup,List.mem_append]

omit laws in
theorem Inv.opening (h : Inv api s) (hphase : s.phase = .drain) {p : PendingTcpConn}
    (hp : p ∈ s.pending) {slot : Slot τ} (hslot : socketAt s.sockets p.handle = some slot) :
    api.state slot.sock = .listen ∨ api.state slot.sock = .synReceived := by
  by_contra hopen
  obtain ⟨hlisten,hhalf⟩ := not_or.mp hopen
  have hdone := (completed_iff _).mpr ⟨hlisten,(h.matched.slots _ slot hslot).opening,hhalf⟩
  rw [h.settled hphase p hp slot hslot] at hdone
  cases hdone

omit laws in
theorem Inv.polling (h : Inv api s) (hphase : s.phase = .drain) (hqueue : s.queue = [])
    (now rounds : ℕ) (horderly : Orderly api s (.poll now rounds)) :
    Polling api ((inProgress api s).map Flow.triple) s.rx (s.caller.bind injected).toList
      {s with rx := []} := by
  have hflight : inFlight s = s.rx++(s.caller.bind injected).toList := by
    simp [inFlight,hqueue,queuedPackets]
  have hcreates : queuedFlows s.queue = [] := by
    rw [hqueue]
    rfl
  have hmatched := h.matched
  rw [hflight,hcreates] at hmatched
  refine ⟨hmatched,h.held,fun k slot hslot hopen triple htriple => ?_,fun x hx f hf => ?_,
    fun x hx t hseg hends hmem => ?_⟩
  · have htracked := hmatched.slots k slot hslot
    have hhalf : api.state slot.sock = .synReceived := by
      rcases hopen with hhalf | ⟨p,hp,rfl⟩
      · exact hhalf
      · obtain ⟨hlisten,-⟩ := peer_eq_some.mp htriple
        exact (h.opening hphase hp hslot).resolve_left hlisten
    obtain ⟨f,hf,hpeer⟩ := htracked.halfOpen hhalf
    rw [htriple,Option.some.injEq] at hpeer
    exact List.mem_map.mpr ⟨f,mem_inProgress.mpr (.inl (mem_halfOpenFlows.mpr
      ⟨k,slot,hslot,hhalf,hf⟩)),hpeer.symm⟩
  · refine List.mem_map.mpr ⟨f,mem_inProgress.mpr (.inr ?_),rfl⟩
    rw [hflight]
    exact List.mem_filterMap.mpr ⟨x,List.mem_append_left _ hx,hf⟩
  · obtain ⟨f,hf,heq⟩ := List.mem_map.mp hmem
    exact horderly x hx t hseg hends f hf heq

theorem Inv.poll (hand : HandshakeLaws api) (h : Inv api s)
    (hphase : s.phase = .drain) (hqueue : s.queue = []) (now rounds : ℕ)
    (horderly : Orderly api s (.poll now rounds)) :
    Inv api {pollStack api now rounds s with phase := .emit} := by
  have hdone := (h.polling hphase hqueue now rounds horderly).ingressAll laws hand now
  obtain ⟨hmatched,hheld⟩ := egressRounds_keeps laws hand now rounds hdone.matched hdone.held
  obtain ⟨-,hkeeps⟩ := pollStack_keeps api now rounds s
  simp only [besidesStack,Prod.mk.injEq] at hkeeps
  have hflight : inFlight (pollStack api now rounds s) = (s.caller.bind injected).toList := by
    simp [pollStack_inFlight,hqueue,queuedPackets]
  have hcreates : queuedFlows (pollStack api now rounds s).queue = [] := by
    rw [hkeeps.2.1,hqueue]
    rfl
  refine ⟨?_,hheld,fun hdrain => by cases hdrain⟩
  have hsame : inFlight {pollStack api now rounds s with phase := .emit} =
      inFlight (pollStack api now rounds s) := rfl
  rw [hsame,hflight]
  simp only [hcreates]
  exact hmatched

end Egress

end Bonded.Promotion
