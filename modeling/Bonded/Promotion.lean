import Bonded.PendingSockets

/-! The pending list over whole runs: what the client's packets, the commands and the end of an
iteration do to the sockets, and that the list holds the handshakes in progress and nothing else
as long as every SYN opens a connection of its own. -/
namespace Bonded.Promotion

open FlowIsolation Ipv4 Machine SmoltcpForwarder TcpStack

section Client

variable {τ : Type} {api : TcpApi τ} {flight : List Injected} {creates : List Flow}
  {sockets : List (Option (Slot τ))} {s : Forwarder τ}

/-- Asking for a socket: a command more in the queue, or nothing if it is full. -/
theorem announceSyn_spec (s : Forwarder τ) (payload : List UInt8) : ∃ queue,
    announceSyn s payload = {s with queue := queue} ∧
      queuedPackets queue = queuedPackets s.queue ∧
      (queuedFlows queue = queuedFlows s.queue ∨ ∃ t f, sentFlow payload = some (t,f) ∧
        t.isSyn = true ∧ queuedFlows queue = queuedFlows s.queue++[f]) := by
  rw [announceSyn_eq]
  split
  · next t f hsent =>
    split
    · next hsyn =>
      simp only [trySend]
      split
      · refine ⟨_,rfl,queuedPackets_append _ _,.inr ⟨t,f,hsent,hsyn,?_⟩⟩
        exact queuedFlows_append _ _
      · exact ⟨s.queue,rfl,rfl,.inl rfl⟩
    · exact ⟨s.queue,rfl,rfl,.inl rfl⟩
  · exact ⟨s.queue,rfl,rfl,.inl rfl⟩

theorem synFlow_of_sentFlow {payload : List UInt8} {t : TcpTuple} {f : Flow}
    (h : sentFlow payload = some (t,f)) (hsyn : t.isSyn = true) :
    ∃ x, injected payload = some x ∧ synFlow x = some f := by
  obtain ⟨t',ht,heq⟩ := Option.map_eq_some_iff.mp h
  have hparse : parseTcpHeader payload = some (t',t'.isSyn) := by simp [parseTcpHeader,ht]
  obtain ⟨x,hx⟩ := Option.isSome_iff_exists.mp (injected_of_parseTcpHeader hparse)
  obtain ⟨hflow,hpacket⟩ := injected_flow hx
  refine ⟨x,hx,?_⟩
  rw [synFlow,hpacket,hflow,h]
  simp [hsyn]

theorem synFlows_append (xs ys : List Injected) : synFlows (xs++ys) = synFlows xs++synFlows ys :=
  List.filterMap_append

/-- One more packet is on its way. -/
theorem Matched.arrive (h : Matched api flight creates sockets) {x : Injected}
    (hx : ∀ f, synFlow x = some f → api.wellFormed x.bytes = true ∧
      (∀ slot ∈ sockets, ∀ y ∈ slot, peer api y.sock ≠ some f.triple) ∧
      ∀ g ∈ synFlows flight, g.triple ≠ f.triple) {creates' : List Flow}
    (hcreates : creates' = creates ∨ ∃ f, synFlow x = some f ∧ creates' = creates++[f]) :
    Matched api (flight++[x]) creates' sockets := by
  have hcons : synFlows (flight++[x]) = synFlows flight++(synFlow x).toList := by
    rw [synFlows_append,synFlows_cons]
    simp [synFlows]
  refine ⟨fun k slot hk => ?_,?_,h.distinct,?_,fun y hy hsyn => ?_⟩
  · have htracked := h.slots k slot hk
    refine ⟨htracked.opening,htracked.halfOpen,fun g hg => ?_⟩
    rw [hcons] at hg
    rcases List.mem_append.mp hg with hg | hg
    · exact htracked.fresh g hg
    · exact (hx g (Option.mem_toList.mp hg)).2.1 (some slot)
        (List.mem_of_getElem? (getElem?_of_socketAt hk)) slot rfl
  · have hports := h.ports
    rw [synPorts,hcons,List.map_append,← Multiset.coe_add]
    rcases hcreates with rfl | ⟨f,hf,rfl⟩
    · exact hports.trans (Multiset.le_add_right _ _)
    · rw [hf,List.map_append,← Multiset.coe_add,← Multiset.add_assoc]
      exact Multiset.add_le_add_right hports
  · rw [hcons,List.map_append,List.nodup_append]
    refine ⟨h.syns,?_,fun a ha b hb heq => ?_⟩
    · cases synFlow x <;> simp
    · obtain ⟨g,hg,rfl⟩ := List.mem_map.mp ha
      obtain ⟨f,hf,rfl⟩ := List.mem_map.mp hb
      exact (hx f (Option.mem_toList.mp hf)).2.2 g hg heq
  · rcases List.mem_append.mp hy with hy | hy
    · exact h.wellFormed y hy hsyn
    · obtain rfl := List.mem_singleton.mp hy
      cases ht : tupleOf y with
      | none => simp [isSynPacket,ht] at hsyn
      | some t => exact (hx _ (by rw [synFlow,if_pos hsyn,packetFlow,ht]; rfl)).1

theorem Inv.beginIngest (h : Inv api s) (hcaller : s.caller = none) {payload : List UInt8}
    (horderly : Orderly api s (.ingest payload)) : Inv api (beginIngest s payload) := by
  unfold SmoltcpForwarder.beginIngest
  split
  · exact h
  · split
    · obtain ⟨queue,heq,hpackets,hflows⟩ := announceSyn_spec s payload
      rw [heq]
      have hflight : inFlight {s with queue := queue, caller := some payload} =
          inFlight s++(injected payload).toList := by
        simp [inFlight,hpackets,hcaller]
      refine ⟨?_,h.held,h.settled⟩
      simp only
      rw [hflight]
      cases hx : injected payload with
      | none =>
        rw [Option.toList_none,List.append_nil]
        rcases hflows with hsame | ⟨t,f,hsent,hsyn,-⟩
        · rw [hsame]
          exact h.matched
        · obtain ⟨x,hx',-⟩ := synFlow_of_sentFlow hsent hsyn
          rw [hx] at hx'
          cases hx'
      | some x =>
        refine h.matched.arrive (fun f hf => horderly x hx f hf) (hflows.imp_right ?_)
        rintro ⟨t,f,hsent,hsyn,hqueued⟩
        obtain ⟨x',hx',hf⟩ := synFlow_of_sentFlow hsent hsyn
        rw [hx,Option.some.injEq] at hx'
        exact ⟨f,hx' ▸ hf,hqueued⟩
    · exact h

/-- A packet that is no SYN does not arrive. -/
theorem Matched.drop {x : Injected} (h : Matched api (flight++[x]) creates sockets)
    (hx : isSynPacket x = false) : Matched api flight creates sockets := by
  have hsame : synFlows (flight++[x]) = synFlows flight := by
    rw [synFlows_append]
    simp [synFlows,synFlow,hx]
  refine ⟨fun k slot hk => (h.slots k slot hk).mono (by rw [hsame]; exact List.Subset.refl _),?_,
    h.distinct,hsame ▸ h.syns,fun y hy => h.wellFormed y (List.mem_append_left _ hy)⟩
  have hports := h.ports
  rw [synPorts,hsame] at hports
  exact hports

theorem Inv.endIngest (h : Inv api s) (horderly : Orderly api s .inject) :
    Inv api (endIngest s) := by
  have hmatched := h.matched
  unfold SmoltcpForwarder.endIngest
  split
  · next x hx =>
    unfold trySend
    split
    · have hflight : inFlight {s with queue := s.queue++[.injectPacket x], caller := none} =
          inFlight s := by simp [inFlight,hx,queuedPackets]
      have hflows : queuedFlows (s.queue++[.injectPacket x]) = queuedFlows s.queue := by
        simp [queuedFlows]
      refine ⟨?_,h.held,h.settled⟩
      simp only
      rw [hflight,hflows]
      exact hmatched
    · next hfull =>
      have hsyn : isSynPacket x = false := by
        by_contra hsyn
        exact hfull (horderly x hx (by simpa using hsyn))
      have hflight : inFlight s = inFlight {s with caller := none}++[x] := by simp [inFlight,hx]
      rw [hflight] at hmatched
      exact ⟨hmatched.drop hsyn,h.held,h.settled⟩
  · next hx =>
    have hflight : inFlight {s with caller := none} = inFlight s := by simp [inFlight,hx]
    refine ⟨?_,h.held,h.settled⟩
    rw [hflight]
    exact hmatched

theorem filterMap_addSocket {β : Type} (f : Option (Slot τ) → Option β) (hnone : f none = none)
    (slot : Slot τ) (sockets : List (Option (Slot τ))) :
    ((addSocket slot sockets).2.filterMap f).Perm
      ((f (some slot)).toList++sockets.filterMap f) := by
  induction sockets with
  | nil => simp [addSocket,List.filterMap_cons]; cases f (some slot) <;> simp
  | cons other rest ih =>
    cases other with
    | none =>
      simp only [addSocket,List.filterMap_cons,hnone]
      cases f (some slot) <;> simp
    | some other =>
      simp only [addSocket,List.filterMap_cons]
      cases f (some other) with
      | none => exact ih
      | some y => exact (ih.cons y).trans List.perm_middle.symm

theorem Matched.addSocket (laws : TcpLaws api) {f : Flow}
    (h : Matched api flight (f::creates) sockets) :
    Matched api flight creates (addSocket ⟨api.listen f.dstPort,none,[]⟩ sockets).2 := by
  obtain ⟨-,hat⟩ := socketAt_addSocket (⟨api.listen f.dstPort,none,[]⟩ : Slot τ) sockets
  have hlisten := laws.listen_state f.dstPort
  refine ⟨fun k slot hk => ?_,?_,?_,h.syns,h.wellFormed⟩
  · rw [hat] at hk
    split at hk
    · cases hk
      exact ⟨by simp [hlisten],by simp [hlisten],by simp [peer,hlisten]⟩
    · exact h.slots k slot hk
  · have hperm := filterMap_addSocket (listenPort api) rfl ⟨api.listen f.dstPort,none,[]⟩ sockets
    have heq : listenPorts api (SmoltcpForwarder.addSocket ⟨api.listen f.dstPort,none,[]⟩
        sockets).2 = f.dstPort ::ₘ listenPorts api sockets := by
      refine Multiset.coe_eq_coe.mpr (hperm.trans ?_)
      simp [listenPort,hlisten,laws.listen_port]
    have hports := h.ports
    rw [List.map_cons,← Multiset.cons_coe,Multiset.add_cons] at hports
    rw [heq,Multiset.cons_add]
    exact hports
  · have hperm := filterMap_addSocket (halfOpenFlow api) rfl ⟨api.listen f.dstPort,none,[]⟩ sockets
    refine (hperm.map Flow.triple).nodup_iff.mpr ?_
    have hnone : halfOpenFlow api (some ⟨api.listen f.dstPort,none,[]⟩) = none := by
      simp [halfOpenFlow,hlisten]
    rw [hnone]
    exact h.distinct

theorem Matched.fewer {f : Flow} (h : Matched api flight (f::creates) sockets) :
    Matched api flight creates sockets := by
  refine ⟨h.slots,?_,h.distinct,h.syns,h.wellFormed⟩
  have hports := h.ports
  rw [List.map_cons,← Multiset.cons_coe,Multiset.add_cons] at hports
  exact (Multiset.le_cons_self _ _).trans hports

theorem Held.addSocket (laws : TcpLaws api) {waiting : List PendingTcpConn}
    {conns : Table ℕ ActiveTcpConn} {promoted : List ℕ} (h : Held api waiting sockets conns promoted)
    (f : Flow) :
    let added := addSocket ⟨api.listen f.dstPort,none,[]⟩ sockets
    Held api (waiting++[⟨added.1,f⟩]) added.2 conns promoted := by
  intro added
  obtain ⟨-,hat⟩ := socketAt_addSocket (⟨api.listen f.dstPort,none,[]⟩ : Slot τ) sockets
  have hother : ∀ k slot, socketAt sockets k = some slot → socketAt added.2 k = some slot :=
    fun k slot hk => (addSocket_ne (by rw [hk]; rfl)).2.trans hk
  obtain ⟨hdistinct,hapart⟩ := addSocket_handles (⟨api.listen f.dstPort,none,[]⟩ : Slot τ) f
    (fun p hp => by obtain ⟨slot,hslot,-⟩ := h.pending p hp; rw [hslot]; rfl)
    (fun k c hc => by obtain ⟨slot,hslot,-⟩ := h.active k c hc; rw [hslot]; rfl)
    h.distinct h.apart
  refine ⟨fun p hp => ?_,fun k conn hconn => ?_,hdistinct,hapart,h.promoted⟩
  · rcases List.mem_append.mp hp with hp | hp
    · obtain ⟨slot,hslot,hstate⟩ := h.pending p hp
      exact ⟨slot,hother _ _ hslot,hstate⟩
    · rw [List.mem_singleton.mp hp]
      exact ⟨_,by rw [hat,if_pos rfl],.inl (by rw [laws.listen_state]; rfl)⟩
  · obtain ⟨slot,hslot,hstate⟩ := h.active k conn hconn
    exact ⟨slot,hother _ _ hslot,hstate⟩

theorem Inv.takeCommand (laws : TcpLaws api) {t : Forwarder τ} (h : Inv api s)
    (ht : takeCommand api s = some t) : Inv api t := by
  have hmatched := h.matched
  unfold SmoltcpForwarder.takeCommand at ht
  split at ht
  · cases ht
  · next x rest hqueue =>
    cases ht
    have hflight : inFlight {s with queue := rest, rx := s.rx++[x]} = inFlight s := by
      simp [inFlight,hqueue,queuedPackets]
    refine ⟨?_,h.held,h.settled⟩
    rw [hflight]
    rw [hqueue] at hmatched
    exact hmatched
  · next f rest hqueue =>
    cases ht
    have hflows : queuedFlows s.queue = f::queuedFlows rest := by
      rw [hqueue]
      rfl
    have hflight : inFlight {s with queue := rest} = inFlight s := by
      simp [inFlight,hqueue,queuedPackets]
    rw [hflows,← hflight] at hmatched
    unfold createTcpSocket
    split
    · exact ⟨hmatched.fewer,h.held,h.settled⟩
    · refine ⟨hmatched.addSocket laws,h.held.addSocket laws f,fun hphase p hp slot hslot => ?_⟩
      obtain ⟨hfree,hat⟩ := socketAt_addSocket (⟨api.listen f.dstPort,none,[]⟩ : Slot τ) s.sockets
      simp only [hat] at hslot
      split at hslot
      · cases hslot
        rw [laws.listen_state]
        rfl
      · next hne =>
        rcases List.mem_append.mp hp with hp | hp
        · exact h.settled hphase p hp slot hslot
        · exact absurd (by rw [List.mem_singleton.mp hp]) hne

/-- Sending a packet of the stack changes the output only, or ends the thread. -/
theorem Inv.drainTx {t : Forwarder τ} (h : Inv api s) (hphase : s.phase = .emit)
    (ht : drainTx s = some t) : Inv api t := by
  unfold SmoltcpForwarder.drainTx at ht
  split at ht
  · cases ht
  · split at ht
    · cases ht
      exact ⟨h.matched,h.held,fun hdrain => by simp [hphase] at hdrain⟩
    · split at ht <;> cases ht
      · exact ⟨h.matched,h.held,fun hdrain => by cases hdrain⟩
      · exact ⟨h.matched,h.held,fun hdrain => by simp [hphase] at hdrain⟩

end Client

section Finish

variable {τ : Type} {api : TcpApi τ} {flight : List Injected} {creates : List Flow}
  {sockets : List (Option (Slot τ))} {conns : Table ℕ ActiveTcpConn} {promoted : List ℕ}
  {waiting left : List PendingTcpConn} {p : PendingTcpConn} {k : ℕ} {s : Forwarder τ}

theorem Held.handle_ne (h : Held api waiting sockets conns promoted) {conn : ActiveTcpConn}
    (hconn : conns.get k = some conn) : ∀ p ∈ waiting, p.handle ≠ k := by
  rintro p hp rfl
  rw [h.apart p hp] at hconn
  cases hconn

theorem Held.remove (h : Held api waiting sockets conns promoted)
    (hwaiting : ∀ p ∈ waiting, p.handle ≠ k) {conns' : Table ℕ ActiveTcpConn}
    (hconns : ∀ i, conns'.get i = if i = k then none else conns.get i) :
    Held api waiting (sockets.set k none) conns' (promoted.filter (· ≠ k)) := by
  refine ⟨fun p hp => ?_,fun i conn hconn => ?_,h.distinct,fun p hp => ?_,fun i hi => ?_⟩
  · rw [socketAt_set_none,if_neg (hwaiting p hp)]
    exact h.pending p hp
  · rw [hconns] at hconn
    split at hconn
    · cases hconn
    · next hne =>
      rw [socketAt_set_none,if_neg hne]
      exact h.active i conn hconn
  · rw [hconns,if_neg (hwaiting p hp)]
    exact h.apart p hp
  · obtain ⟨hi,hne⟩ := List.mem_filter.mp hi
    rw [hconns,if_neg (by simpa using hne)]
    exact h.promoted i hi

/-- The end of an iteration with the sockets in `left` still to be promoted: they are established,
and those that stay pending have not completed their handshake. -/
structure Sorting (api : TcpApi τ) (flight : List Injected) (creates : List Flow)
    (left : List PendingTcpConn) (s : Forwarder τ) : Prop where
  matched : Matched api flight creates s.sockets
  held : Held api (left++s.pending) s.sockets s.active s.promoted
  ready : ∀ p ∈ left, ∃ slot, socketAt s.sockets p.handle = some slot ∧
    api.state slot.sock = .established
  waiting : ∀ p ∈ s.pending, ∃ slot, socketAt s.sockets p.handle = some slot ∧
    completed (api.state slot.sock) = false

theorem Sorting.promoteOne (h : Sorting api flight creates (p::left) s) :
    Sorting api flight creates left (promoteOne s p) := by
  obtain ⟨slot,hslot,hstate⟩ := h.ready p (by simp)
  have hdone : completed (api.state slot.sock) = true := by
    rw [hstate]
    rfl
  have hdistinct := h.held.distinct
  rw [List.cons_append,List.map_cons,List.nodup_cons] at hdistinct
  have hne : ∀ q ∈ left++s.pending, q.handle ≠ p.handle := by
    intro q hq heq
    exact hdistinct.1 (heq ▸ List.mem_map_of_mem hq)
  have hrest : Held api (left++s.pending) s.sockets s.active s.promoted :=
    ⟨fun q hq => h.held.pending q (List.mem_cons_of_mem _ hq),h.held.active,hdistinct.2,
      fun q hq => h.held.apart q (List.mem_cons_of_mem _ hq),h.held.promoted⟩
  have hnone := h.held.apart p (by simp)
  unfold SmoltcpForwarder.promoteOne
  split
  · -- the socket is dropped
    have hother : ∀ q ∈ left++s.pending,
        socketAt (s.sockets.set p.handle none) q.handle = socketAt s.sockets q.handle := by
      intro q hq
      rw [socketAt_set_none,if_neg (hne q hq)]
    refine ⟨h.matched.over hslot hdone (fun x hx => by cases hx),hrest.remove hne fun i => ?_,
      fun q hq => ?_,fun q hq => ?_⟩
    · split
      · next hi => rw [hi,hnone]
      · rfl
    · simp only [hother q (List.mem_append_left _ hq)]
      exact h.ready q (by simp [hq])
    · simp only [hother q (List.mem_append_right _ hq)]
      exact h.waiting q hq
  · refine ⟨h.matched,⟨hrest.pending,fun i conn hconn => ?_,hrest.distinct,fun q hq => ?_,
      fun i hi => ?_⟩,fun q hq => h.ready q (by simp [hq]),h.waiting⟩
    · simp only [Table.get_set] at hconn
      split at hconn
      · next hi => exact ⟨slot,hi ▸ hslot,hdone⟩
      · exact hrest.active i conn hconn
    · simp only [Table.get_set_ne (hne q hq)]
      exact hrest.apart q hq
    · simp only [Table.get_set]
      split
      · exact ⟨_,rfl⟩
      · next hi' => exact hrest.promoted i ((List.mem_cons.mp hi).resolve_left hi')

theorem Inv.promote (h : Inv api s) : Sorting api (inFlight s) (queuedFlows s.queue) []
    (promote api s) := by
  have hall : ∀ (left : List PendingTcpConn) (t : Forwarder τ),
      Sorting api (inFlight s) (queuedFlows s.queue) left t →
      Sorting api (inFlight s) (queuedFlows s.queue) [] (left.foldl SmoltcpForwarder.promoteOne t) := by
    intro left
    induction left with
    | nil => exact fun t ht => ht
    | cons p left ih => exact fun t ht => ih _ ht.promoteOne
  have hperm := (List.perm_append_comm.trans (promote_perm api s))
  refine hall _ _ ⟨h.matched,⟨fun p hp => h.held.pending p (hperm.mem_iff.mp hp),h.held.active,
    (hperm.map _).nodup_iff.mpr h.held.distinct,fun p hp => h.held.apart p (hperm.mem_iff.mp hp),
    h.held.promoted⟩,fun p hp => ?_,fun p hp => ?_⟩
  · have hest := (List.mem_filter.mp (List.mem_reverse.mp hp)).2
    simp only [isEstablished,decide_eq_true_eq] at hest
    cases hslot : socketAt s.sockets p.handle with
    | none => simp [hslot] at hest
    | some slot => exact ⟨slot,rfl,by simpa [hslot] using hest.2⟩
  · obtain ⟨hp,hnot⟩ := List.mem_filter.mp hp
    obtain ⟨slot,hslot,hstate⟩ := h.held.pending p hp
    have hfresh : p.handle ∉ s.promoted := by
      intro hmem
      obtain ⟨conn,hconn⟩ := h.held.promoted _ hmem
      exact h.held.handle_ne hconn p hp rfl
    refine ⟨slot,hslot,hstate.resolve_right fun hest => ?_⟩
    simp [isEstablished,hfresh,hslot,hest] at hnot

theorem quiet_served (laws : TcpLaws api) (sock : τ) (n : ℕ) (chunks : List (List UInt8))
    (pending : Option PendingBridgeBytes) :
    Quiet api sock (pumpFromBridge api n (receive api sock).2 chunks pending).1 := by
  refine Quiet.trans api ?_ (pumpFromBridge_quiet api laws n _ chunks pending)
  unfold receive
  split
  · exact laws.recv_quiet sock
  · exact Quiet.refl api sock

theorem Sorting.serviceOne (laws : TcpLaws api) (replies : ℕ → List (List UInt8)) (k : ℕ)
    (h : Sorting api flight creates [] s) :
    Sorting api flight creates [] (serviceOne api replies s k) := by
  unfold SmoltcpForwarder.serviceOne
  split
  · next conn slot hconn hslot =>
    have hquiet := quiet_served laws slot.sock (pumpFuel (conn.fromBridge++replies conn.bridge)
      conn.pendingFromBridge) (conn.fromBridge++replies conn.bridge) conn.pendingFromBridge
    obtain ⟨old,hold,hdone⟩ := h.held.active k conn hconn
    rw [hslot,Option.some.injEq] at hold
    subst hold
    have hdone' := completed_quiet hquiet hdone
    have hne := h.held.handle_ne hconn
    refine ⟨h.matched.over hslot hdone fun x hx => ?_,⟨fun p hp => ?_,fun i c hc => ?_,
      h.held.distinct,fun p hp => ?_,fun i hi => ?_⟩,fun p hp => (List.not_mem_nil hp).elim,
      fun p hp => ?_⟩
    · cases hx
      exact ⟨hdone',fun triple => peer_quiet hquiet⟩
    · simp only [socketAt_set hslot,if_neg (hne p hp)]
      exact h.held.pending p hp
    · simp only [socketAt_set hslot]
      simp only [Table.get_set] at hc
      split
      · exact ⟨_,rfl,hdone'⟩
      · next hi =>
        rw [if_neg hi] at hc
        exact h.held.active i c hc
    · simp only [Table.get_set_ne (hne p hp)]
      exact h.held.apart p hp
    · simp only [Table.get_set]
      split
      · exact ⟨_,rfl⟩
      · exact h.held.promoted i hi
    · simp only [socketAt_set hslot,if_neg (hne p hp)]
      exact h.waiting p hp
  · exact h

theorem Sorting.service (laws : TcpLaws api) (replies : ℕ → List (List UInt8))
    (h : Sorting api flight creates [] s) :
    Sorting api flight creates [] (service api replies s) :=
  List.foldlRecOn _ _ h fun _ ht k _ => ht.serviceOne laws replies k

theorem Sorting.removeOne (h : Sorting api flight creates [] s) {conn : ActiveTcpConn}
    (hconn : s.active.get k = some conn) : Sorting api flight creates [] (removeOne s k) := by
  have hne := h.held.handle_ne hconn
  obtain ⟨slot,hslot,hdone⟩ := h.held.active k conn hconn
  refine ⟨h.matched.over hslot hdone (fun x hx => by cases hx),
    h.held.remove hne fun i => Table.get_remove _ _ _,fun p hp => (List.not_mem_nil hp).elim,
    fun p hp => ?_⟩
  simp only [SmoltcpForwarder.removeOne,socketAt_set_none,if_neg (hne p hp)]
  exact h.waiting p hp

theorem Sorting.removeClosed (h : Sorting api flight creates [] s) :
    Sorting api flight creates [] (removeClosed api s) := by
  have hall : ∀ (ks : List ℕ) (t : Forwarder τ), ks.Nodup →
      (∀ k ∈ ks, ∃ conn, t.active.get k = some conn) → Sorting api flight creates [] t →
      Sorting api flight creates [] (ks.foldl SmoltcpForwarder.removeOne t) := by
    intro ks
    induction ks with
    | nil => exact fun t _ _ ht => ht
    | cons k ks ih =>
      intro t hnodup hactive ht
      obtain ⟨hk,hks⟩ := List.nodup_cons.mp hnodup
      obtain ⟨conn,hconn⟩ := hactive k (by simp)
      refine ih _ hks (fun i hi => ?_) (ht.removeOne hconn)
      have hne : i ≠ k := fun heq => hk (heq ▸ hi)
      simp only [SmoltcpForwarder.removeOne,Table.get_remove_ne hne]
      exact hactive i (by simp [hi])
  have hdone := hall ((handles s).filter (isClosed api s)) s (s.active.nodup_keys.filter _)
    (fun k hk => ?_) h
  · refine ⟨hdone.matched,⟨hdone.held.pending,hdone.held.active,hdone.held.distinct,
      hdone.held.apart,fun i hi => ?_⟩,fun p hp => (List.not_mem_nil hp).elim,hdone.waiting⟩
    exact hdone.held.promoted i (List.mem_filter.mp hi).1
  · obtain ⟨⟨i,conn⟩,hmem,rfl⟩ := List.mem_map.mp (List.mem_filter.mp hk).1
    exact ⟨conn,(Table.mem_toList _ _ _).mp hmem⟩

theorem Inv.finish (laws : TcpLaws api) (h : Inv api s) (replies : ℕ → List (List UInt8)) :
    Inv api (finish api replies s) := by
  have hdone := (h.promote.service laws replies).removeClosed
  have hkeeps := finish_keeps api replies s
  rw [SmoltcpForwarder.finish] at hkeeps ⊢
  generalize SmoltcpForwarder.removeClosed api (SmoltcpForwarder.service api replies
    (SmoltcpForwarder.promote api s)) = removed at hdone hkeeps ⊢
  simp only [besidesFinish,Prod.mk.injEq] at hkeeps
  obtain ⟨hcaller,hqueue,hrx,-⟩ := hkeeps
  have hflight : inFlight {removed with phase := .drain} = inFlight s := by
    simp only [inFlight,hcaller,hqueue,hrx]
  refine ⟨?_,hdone.held,fun _ p hp slot hslot => ?_⟩
  · rw [hflight,hqueue]
    exact hdone.matched
  · obtain ⟨slot',hslot',hstate⟩ := hdone.waiting p hp
    have heq : some slot = some slot' := hslot.symm.trans hslot'
    rw [Option.some.inj heq]
    exact hstate

theorem inv_step (laws : TcpLaws api) (hand : HandshakeLaws api) {t : Forwarder τ} {e : Event}
    (h : Inv api s) (horderly : Orderly api s e) (ht : step api s e = some t) : Inv api t := by
  cases e with
  | ingest payload =>
    obtain ⟨hcaller,ht⟩ := Option.ite_none_right_eq_some.mp ht
    cases ht
    exact h.beginIngest hcaller horderly
  | inject =>
    obtain ⟨-,ht⟩ := Option.ite_none_left_eq_some.mp ht
    cases ht
    exact h.endIngest horderly
  | command =>
    obtain ⟨-,ht⟩ := Option.ite_none_right_eq_some.mp ht
    exact h.takeCommand laws ht
  | poll now rounds =>
    obtain ⟨⟨hphase,hqueue⟩,ht⟩ := Option.ite_none_right_eq_some.mp ht
    cases ht
    exact h.poll laws hand hphase hqueue now rounds horderly
  | emit =>
    obtain ⟨hphase,ht⟩ := Option.ite_none_right_eq_some.mp ht
    exact h.drainTx hphase ht
  | finish replies =>
    obtain ⟨-,ht⟩ := Option.ite_none_right_eq_some.mp ht
    cases ht
    exact h.finish laws replies

theorem inv_new (api : TcpApi τ) : Inv api (new τ) := by
  refine ⟨⟨?_,?_,?_,?_,?_⟩,⟨?_,?_,?_,?_,?_⟩,?_⟩ <;>
    simp [new,socketAt,listenPorts,synPorts,halfOpenFlows,synFlows,inFlight,queuedPackets,
      queuedFlows]

theorem Matched.length_inProgress {creates : List Flow}
    (h : Matched api (inFlight s) creates s.sockets) :
    (s.sockets.filterMap (listenPort api)).length+(halfOpenFlows api s.sockets).length ≤
      (inProgress api s).length := by
  have hports : (s.sockets.filterMap (listenPort api)).length ≤ (synFlows (inFlight s)).length := by
    have hle := Multiset.card_le_card ((Multiset.le_add_right _ _).trans h.ports)
    simpa [listenPorts,synPorts] using hle
  have hnodup : (halfOpenFlows api s.sockets++synFlows (inFlight s)).Nodup := by
    refine List.Nodup.of_map Flow.triple ?_
    rw [List.map_append]
    refine List.nodup_append.mpr ⟨h.distinct,h.syns,fun a ha b hb heq => ?_⟩
    obtain ⟨g,hg,rfl⟩ := List.mem_map.mp ha
    obtain ⟨f,hf,rfl⟩ := List.mem_map.mp hb
    obtain ⟨k,slot,hslot,hpeer⟩ := h.halfOpen_peer hg
    exact (h.slots k slot hslot).fresh f hf (heq ▸ hpeer)
  rw [inProgress,hnodup.dedup,List.length_append]
  omega

/-- Pending sockets listen or are half open, and for each of them a handshake is in progress. -/
theorem Inv.complete (h : Inv api s) : CompleteAfterPromotion api s := by
  intro hphase
  refine ⟨h.settled hphase,le_trans ?_ h.matched.length_inProgress⟩
  have hcount : ∀ {β : Type} (f : Option (Slot τ) → Option β) (q : PendingTcpConn → Bool),
      (∀ p ∈ s.pending, q p = true → ∃ o, s.sockets[p.handle]? = some o ∧ (f o).isSome) →
      (s.pending.filter q).length ≤ (s.sockets.filterMap f).length := by
    intro β f q hq
    rw [← List.length_map PendingTcpConn.handle]
    refine length_le_filterMap f s.sockets ((List.filter_sublist.map _).nodup h.held.distinct) ?_
    intro k hk
    obtain ⟨p,hp,rfl⟩ := List.mem_map.mp hk
    exact hq p (List.mem_filter.mp hp).1 (List.mem_filter.mp hp).2
  rw [List.length_eq_length_filter_add fun p : PendingTcpConn =>
    (listenPort api (socketAt s.sockets p.handle)).isSome]
  refine Nat.add_le_add (hcount (listenPort api) _ fun p hp hlisten => ?_)
    (hcount (halfOpenFlow api) _ fun p hp hlisten => ?_)
  · obtain ⟨slot,hslot,-⟩ := h.held.pending p hp
    rw [hslot] at hlisten
    exact ⟨_,getElem?_of_socketAt hslot,hlisten⟩
  · obtain ⟨slot,hslot,-⟩ := h.held.pending p hp
    have hnot : api.state slot.sock ≠ .listen := by
      intro hl
      simp [hslot,listenPort,hl] at hlisten
    have hhalf := (h.opening hphase hp hslot).resolve_left hnot
    obtain ⟨f,hf,-⟩ := (h.matched.slots _ slot hslot).halfOpen hhalf
    exact ⟨_,getElem?_of_socketAt hslot,by simp [halfOpenFlow,hhalf,hf]⟩

end Finish

/-- In a run in which every SYN opens a connection of its own and no handshake is ended in the
batch that it is in, the pending sockets are those of handshakes in progress. -/
theorem pending_complete {τ : Type} (api : TcpApi τ) (laws : TcpLaws api)
    (hand : HandshakeLaws api) (es : List Event) (h : Meets (step api) (Orderly api) (new τ) es) :
    Along (step api) (CompleteAfterPromotion api) (new τ) es :=
  along_of_meets (fun _ hs => hs.complete) (fun _ _ _ hs hg ht => inv_step laws hand hs hg ht)
    (inv_new api) h

theorem closingTcp_handshake : HandshakeLaws closingTcp where
  process_syn sock now bytes t hstate hseg hsyn := by
    have ht : parseIpv4TcpTupleFlags bytes = some t := hseg
    have hlisten : sock.state = .listen := hstate
    simp [closingTcp,toyTcp,ht,ToySocket.process,ToySocket.close,hlisten,hsyn]
  process_halfOpen sock now bytes t hstate hseg hends := by
    have ht : parseIpv4TcpTupleFlags bytes = some t := hseg
    have hhalf : sock.state = .synReceived := hstate
    simp only [endsConnection,Bool.or_eq_false_iff] at hends
    cases hsyn : t.isSyn <;>
      simp [closingTcp,toyTcp,ht,ToySocket.process,ToySocket.close,hhalf,hends,hsyn]
  process_established sock now bytes t hstate hseg hends := by
    have ht : parseIpv4TcpTupleFlags bytes = some t := hseg
    have hest : sock.state = .established := hstate
    simp only [endsConnection,Bool.or_eq_false_iff] at hends
    simp [closingTcp,toyTcp,ht,ToySocket.process,ToySocket.close,hest,hends]
  dispatch_halfOpen _ _ h := ⟨h,rfl⟩
  dispatch_established _ _ h := h

/-- Two handshakes on one port at the same time; the first connection is closed later. -/
def handshakesRun : List Event :=
  [.ingest (syn flowA),.inject]++turn (syn flowB) 4 2++turn (acked flowA [1]) 1 1++
    turn (acked flowB []) 1 0++turn (fin flowA []) 1 0

theorem pending_complete_two_handshakes :
    ((exec (step closingTcp) (new ToySocket) handshakesRun).map fun s =>
      (s.pending,activeFlows s)) = some ([],[flowB,flowA]) ∧
    Along (step closingTcp) (CompleteAfterPromotion closingTcp) (new ToySocket) handshakesRun :=
  ⟨by decide +kernel,pending_complete closingTcp closingTcp_laws closingTcp_handshake handshakesRun
    (by decide +kernel)⟩

/-- The acknowledgement that completes the handshake comes with a FIN in the same batch. -/
def finInBatchRun : List Event :=
  turn (syn flowA) 2 1++[.ingest (acked flowA [1]),.inject]++turn (fin flowA []) 2 0

/-- The SYN is sent again before it is answered. -/
def synTwiceRun : List Event :=
  [.ingest (syn flowA),.inject]++turn (syn flowA) 4 1++turn (acked flowA [1]) 1 0

def synResetRun : List Event := turn (syn flowA) 2 1++turn (reset flowA) 1 0

/-- A socket that is closed in the batch that opens it stays pending, and so do the listening
sockets of a repeated and of a reset SYN, with no handshake in progress. -/
theorem pending_left_behind : TcpLaws closingTcp ∧ HandshakeLaws closingTcp ∧
    (∀ run ∈ [(finInBatchRun,TcpState.closeWait),(synTwiceRun,.listen),(synResetRun,.listen)],
      ((exec (step closingTcp) (new ToySocket) run.1).map fun s =>
        (s.pending.map fun p => (socketAt s.sockets p.handle).map fun slot => slot.sock.state,
          inProgress closingTcp s)) = some ([some run.2],[])) ∧
    ∀ run ∈ [finInBatchRun,synTwiceRun,synResetRun],
      ¬ Along (step closingTcp) (CompleteAfterPromotion closingTcp) (new ToySocket) run := by
  refine ⟨closingTcp_laws,closingTcp_handshake,by decide +kernel,fun run hrun halong => ?_⟩
  have hall : ∀ run ∈ [finInBatchRun,synTwiceRun,synResetRun], ∃ s ∈
      exec (step closingTcp) (new ToySocket) run, ¬ CompleteAfterPromotion closingTcp s := by
    decide +kernel
  obtain ⟨s,hs,hnot⟩ := hall run hrun
  exact hnot (halong run s List.prefix_rfl hs)

end Bonded.Promotion
