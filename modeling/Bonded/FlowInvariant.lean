import Bonded.TcpStack

/-! The invariant of the forwarder's flows: to which flow every socket, connection, command and
packet on its way belongs. Listening sockets are told apart by their port only, so this depends on
the order in which SYNs, resets and commands are handled. -/
namespace Bonded.FlowIsolation

open Ipv4 Packet SmoltcpForwarder TcpStack

/-- The segment of a packet that is on its way to the stack, and its flow. -/
def tupleOf (x : Injected) : Option TcpTuple := parseIpv4TcpTupleFlags x.bytes

def packetFlow (x : Injected) : Option Flow := (tupleOf x).map fun t => flowOf t x.originalDst

def isSynPacket (x : Injected) : Bool := (tupleOf x).any TcpTuple.isSyn

/-- A reset for the connection that a flow's socket would have. -/
def isResetOf (f : Flow) (x : Injected) : Bool :=
  (tupleOf x).any fun t => t.isRst ∧ (t.srcIp,t.srcPort,t.dstPort) = f.triple

/-- Every SYN of the list for the flow's port is a SYN of the flow. -/
def SynsOf (f : Flow) (xs : List Injected) : Prop :=
  ∀ x ∈ xs, isSynPacket x = true → ∀ g, packetFlow x = some g → g.dstPort = f.dstPort → g = f

/-- The same for the SYNs that come after a reset of the flow. -/
def SynsAfterReset (f : Flow) : List Injected → Prop
  | [] => True
  | x::xs => (isResetOf f x = true → SynsOf f xs) ∧ SynsAfterReset f xs

section State

variable {τ : Type} (api : TcpApi τ)

def queuedPackets (queue : List PollCommand) : List Injected :=
  queue.filterMap fun
    | .injectPacket x => some x
    | .createTcpSocket _ => none

def queuedFlows (queue : List PollCommand) : List Flow :=
  queue.filterMap fun
    | .injectPacket _ => none
    | .createTcpSocket f => some f

/-- The packets that the stack has not seen yet, in the order in which it will see them. -/
def inFlight (s : Forwarder τ) : List Injected :=
  s.rx++queuedPackets s.queue++(s.caller.bind injected).toList

/-- The flows of the connections, of the queued commands and of the packets on their way. -/
def knownFlows (s : Forwarder τ) : List Flow :=
  pendingFlows s++activeFlows s++queuedFlows s.queue++(inFlight s).filterMap packetFlow

/-- The socket listens, or it is half open and a reset for it is on its way. -/
def mayListen (s : Forwarder τ) (p : PendingTcpConn) : Bool :=
  (socketAt s.sockets p.handle).any fun slot =>
    api.state slot.sock = .listen ∨
      (api.state slot.sock = .synReceived ∧ (inFlight s).any (isResetOf p.flow))

end State

instance (f : Flow) (xs : List Injected) : Decidable (SynsOf f xs) :=
  inferInstanceAs (Decidable (∀ x ∈ xs, isSynPacket x = true →
    ∀ g, packetFlow x = some g → (g.dstPort = f.dstPort → g = f)))

variable {f : Flow} {x : Injected} {xs : List Injected}

theorem SynsOf.tail (h : SynsOf f (x::xs)) : SynsOf f xs := fun y hy => h y (by simp [hy])

theorem SynsOf.subset {ys : List Injected} (h : SynsOf f ys) (hs : xs ⊆ ys) :
    SynsOf f xs := fun y hy => h y (hs hy)

theorem SynsOf.afterReset (h : SynsOf f xs) : SynsAfterReset f xs := by
  induction xs with
  | nil => trivial
  | cons x xs ih => exact ⟨fun _ => h.tail,ih h.tail⟩

theorem synsOf_append_singleton (h : SynsOf f xs) (hx : SynsOf f [x]) : SynsOf f (xs++[x]) := by
  intro y hy
  rcases List.mem_append.mp hy with hy | hy
  · exact h y hy
  · exact hx y hy

theorem synsAfterReset_append_singleton (h : SynsAfterReset f xs)
    (hx : xs.any (isResetOf f) = true → SynsOf f [x]) : SynsAfterReset f (xs++[x]) := by
  induction xs with
  | nil => exact ⟨fun _ => by simp [SynsOf],trivial⟩
  | cons y ys ih =>
    refine ⟨fun hy => ?_,ih h.2 fun hys => hx (by simp only [List.any_cons,hys,Bool.or_true])⟩
    exact synsOf_append_singleton (h.1 hy) (hx (by simp only [List.any_cons,hy,Bool.true_or]))

theorem synsAfterReset_of_append {ys : List Injected} (h : SynsAfterReset f (xs++ys)) :
    SynsAfterReset f xs := by
  induction xs with
  | nil => trivial
  | cons x xs ih => exact ⟨fun hx => (h.1 hx).subset (List.subset_append_left xs ys),ih h.2⟩

section Sockets

variable {τ : Type}

theorem socketAt_set {sockets : List (Option (Slot τ))} {h : ℕ} {slot : Slot τ}
    (hs : socketAt sockets h = some slot) (slot' : Option (Slot τ)) (k : ℕ) :
    socketAt (sockets.set h slot') k = if k = h then slot' else socketAt sockets k := by
  have hlt : h < sockets.length := by
    by_contra hge
    simp [socketAt,List.getD_eq_getElem?_getD,List.getElem?_eq_none (Nat.not_lt.mp hge)] at hs
  simp only [socketAt,List.getD_eq_getElem?_getD,List.getElem?_set]
  by_cases hk : k = h
  · subst hk; simp [hlt]
  · simp [hk,Ne.symm hk]

theorem socketAt_addSocket (slot : Slot τ) (sockets : List (Option (Slot τ))) :
    socketAt sockets (addSocket slot sockets).1 = none ∧
      ∀ k, socketAt (addSocket slot sockets).2 k =
        if k = (addSocket slot sockets).1 then some slot else socketAt sockets k := by
  induction sockets with
  | nil =>
    refine ⟨rfl,fun k => ?_⟩
    cases k <;> simp [addSocket,socketAt]
  | cons other rest ih =>
    cases other with
    | none =>
      refine ⟨rfl,fun k => ?_⟩
      cases k <;> simp [addSocket,socketAt]
    | some other =>
      refine ⟨ih.1,fun k => ?_⟩
      cases k with
      | zero => simp [addSocket,socketAt]
      | succ k => simpa [addSocket,socketAt] using ih.2 k

theorem addSocket_ne {sockets : List (Option (Slot τ))} {slot' : Slot τ} {k : ℕ}
    (h : (socketAt sockets k).isSome) : k ≠ (addSocket slot' sockets).1 ∧
      socketAt (addSocket slot' sockets).2 k = socketAt sockets k := by
  obtain ⟨hfree,hadded⟩ := socketAt_addSocket slot' sockets
  have hne : k ≠ (addSocket slot' sockets).1 := by
    rintro rfl
    rw [hfree] at h
    cases h
  exact ⟨hne,by rw [hadded,if_neg hne]⟩

/-- A new socket goes to a place that no connection has. -/
theorem addSocket_handles {sockets : List (Option (Slot τ))} {waiting : List PendingTcpConn}
    {conns : Table ℕ ActiveTcpConn} (slot : Slot τ) (f : Flow)
    (hwaiting : ∀ p ∈ waiting, (socketAt sockets p.handle).isSome)
    (hactive : ∀ k c, conns.get k = some c → (socketAt sockets k).isSome)
    (hdistinct : (waiting.map PendingTcpConn.handle).Nodup)
    (hapart : ∀ p ∈ waiting, conns.get p.handle = none) :
    (List.map PendingTcpConn.handle (waiting++[⟨(addSocket slot sockets).1,f⟩])).Nodup ∧
      ∀ p ∈ waiting++[⟨(addSocket slot sockets).1,f⟩], conns.get p.handle = none := by
  constructor
  · rw [List.map_append,List.nodup_append]
    refine ⟨hdistinct,List.nodup_singleton _,fun k hk l hl => ?_⟩
    obtain ⟨p,hp,rfl⟩ := List.mem_map.mp hk
    rw [List.mem_singleton.mp hl]
    exact (addSocket_ne (hwaiting p hp)).1
  · intro p hp
    rcases List.mem_append.mp hp with hold | hnew
    · exact hapart p hold
    · rw [List.mem_singleton.mp hnew]
      cases hget : conns.get (addSocket slot sockets).1 with
      | none => rfl
      | some c => exact absurd rfl (addSocket_ne (hactive _ c hget)).1

end Sockets

section Invariant

variable {τ : Type} (api : TcpApi τ)

/-- A socket that was made for a flow: it listens and has accepted nothing, or it is the
socket of that flow and has been handed packets for its destination only. -/
structure SlotOk (slot : Slot τ) (f : Flow) : Prop where
  port : api.localPort slot.sock = f.dstPort
  opening : api.state slot.sock ≠ .synSent
  listening : api.state slot.sock = .listen → slot.accepted = none
  accepted : api.state slot.sock ≠ .listen → slot.accepted = some f
  handed : api.state slot.sock ≠ .listen → ∀ ip ∈ slot.handed, ip = f.originalDstIp
  remote : api.state slot.sock ≠ .listen →
    api.remote slot.sock = some (f.clientSrcIp,f.clientSrcPort) ∨ api.remote slot.sock = none

/-- A pending socket, and that the SYNs it may still get are its own. -/
structure PendingOk (flight : List Injected) (slot : Slot τ) (f : Flow) : Prop where
  made : SlotOk api slot f
  listening : api.state slot.sock = .listen → SynsOf f flight
  halfOpen : api.state slot.sock = .synReceived → SynsAfterReset f flight

structure ActiveOk (slot : Slot τ) (f : Flow) : Prop where
  made : SlotOk api slot f
  listening : api.state slot.sock ≠ .listen
  halfOpen : api.state slot.sock ≠ .synReceived

/-- Every socket belongs to one pending or active connection and was made for its flow. -/
structure Owned (flight : List Injected) (waiting : List PendingTcpConn)
    (sockets : List (Option (Slot τ))) (conns : Table ℕ ActiveTcpConn) : Prop where
  pending : ∀ p ∈ waiting, ∃ slot, socketAt sockets p.handle = some slot ∧
    PendingOk api flight slot p.flow
  active : ∀ h conn, conns.get h = some conn → ∃ slot, socketAt sockets h = some slot ∧
    ActiveOk api slot conn.flow
  owner : ∀ h slot, socketAt sockets h = some slot →
    (∃ p ∈ waiting, p.handle = h) ∨ ∃ conn, conns.get h = some conn
  distinct : (waiting.map PendingTcpConn.handle).Nodup
  apart : ∀ p ∈ waiting, conns.get p.handle = none

/-- The flows of the connections that there are. -/
def Connected (waiting : List PendingTcpConn) (conns : Table ℕ ActiveTcpConn) (f : Flow) : Prop :=
  (∃ p ∈ waiting, p.flow = f) ∨ ∃ h conn, conns.get h = some conn ∧ conn.flow = f

/-- The flows of connections, of queued commands and of packets on their way. -/
def Known (flight : List Injected) (waiting : List PendingTcpConn)
    (conns : Table ℕ ActiveTcpConn) (creates : List Flow) (f : Flow) : Prop :=
  Connected waiting conns f ∨ f ∈ creates ∨ ∃ x ∈ flight, packetFlow x = some f

/-- Flows are told apart by their triple, and SYNs on their way by their port. -/
structure Coherent (flight : List Injected) (waiting : List PendingTcpConn)
    (conns : Table ℕ ActiveTcpConn) (creates : List Flow) : Prop where
  flows : ∀ f g, Known flight waiting conns creates f → Known flight waiting conns creates g →
    f.triple = g.triple → f = g
  queued : ∀ f ∈ creates, SynsOf f flight
  syns : ∀ x ∈ flight, isSynPacket x = true → ∀ f, packetFlow x = some f → SynsOf f flight

/-- A packet of a connection's socket goes to the connection's client. -/
def TxOk (waiting : List PendingTcpConn) (conns : Table ℕ ActiveTcpConn) (x : Tx) : Prop :=
  ∀ f, x.producer = some f → Connected waiting conns f ∧
    Addressed x.bytes f.clientSrcIp f.clientSrcPort f.dstPort

/-- Every active connection has its bridge, and what has left the forwarder is right. -/
structure Delivered (conns : Table ℕ ActiveTcpConn) (bridges : List Bridge)
    (frames : List Emitted) : Prop where
  bridge : ∀ h conn, conns.get h = some conn →
    ∃ b, bridges[conn.bridge]? = some b ∧ b.flow = conn.flow
  sent : ∀ b ∈ bridges, ∀ chunk ∈ b.sent, ∀ ip ∈ chunk.origins, ip = b.flow.originalDstIp
  emitted : ∀ e ∈ frames, ∀ f, e.producer = some f →
    ipAt e.frame.payload 12 = f.originalDstIp

/-- The invariant, for the packets that the stack has not seen yet. -/
structure Inv (flight : List Injected) (s : Forwarder τ) : Prop where
  owned : Owned api flight s.pending s.sockets s.active
  coherent : Coherent flight s.pending s.active (queuedFlows s.queue)
  tx : ∀ x ∈ s.tx, TxOk s.pending s.active x
  delivered : Delivered s.active s.bridges s.emitted

variable {api} {flight : List Injected} {waiting : List PendingTcpConn}
  {sockets : List (Option (Slot τ))} {conns : Table ℕ ActiveTcpConn} {creates : List Flow}

variable {f : Flow} {slot : Slot τ} {sock : τ} {xs : List Injected} {x : Injected} {t : TcpTuple}
  {s : Forwarder τ}

theorem SlotOk.quiet (h : SlotOk api slot f) (hq : Quiet api slot.sock sock) :
    SlotOk api {slot with sock := sock} f := by
  have hlisten : api.state sock ≠ .listen → api.state slot.sock ≠ .listen :=
    fun hne heq => hne (hq.listen.mpr heq)
  refine ⟨hq.port.trans h.port,fun hs => h.opening (hq.synSent hs),
    fun hl => h.listening (hq.listen.mp hl),fun hne => h.accepted (hlisten hne),
    fun hne => h.handed (hlisten hne),fun hne => ?_⟩
  rcases hq.remote with heq | hnone
  · simp only [heq]; exact h.remote (hlisten hne)
  · exact .inr hnone

theorem SlotOk.producer {g : Flow} (h : SlotOk api slot f) (hg : slot.accepted = some g) :
    g = f := by
  by_cases hl : api.state slot.sock = .listen
  · rw [h.listening hl] at hg; cases hg
  · rw [h.accepted hl] at hg; exact (Option.some.inj hg).symm

theorem PendingOk.quiet (h : PendingOk api flight slot f) (hq : Quiet api slot.sock sock) :
    PendingOk api flight {slot with sock := sock} f := by
  refine ⟨h.made.quiet hq,fun hl => h.listening (hq.listen.mp hl),fun hr => ?_⟩
  rcases hq.synReceived hr with hold | hold
  · exact h.halfOpen hold
  · exact absurd hold h.made.opening

theorem ActiveOk.quiet (h : ActiveOk api slot f) (hq : Quiet api slot.sock sock) :
    ActiveOk api {slot with sock := sock} f := by
  refine ⟨h.made.quiet hq,fun hl => h.listening (hq.listen.mp hl),fun hr => ?_⟩
  rcases hq.synReceived hr with hold | hold
  · exact h.halfOpen hold
  · exact h.made.opening hold

theorem Owned.fewer {ys : List Injected} (h : Owned api (xs++ys) waiting sockets conns) :
    Owned api xs waiting sockets conns := by
  refine ⟨fun p hp => ?_,h.active,h.owner,h.distinct,h.apart⟩
  obtain ⟨slot,hslot,hok⟩ := h.pending p hp
  exact ⟨slot,hslot,hok.made,
    fun hl => (hok.listening hl).subset (List.subset_append_left xs ys),
    fun hr => synsAfterReset_of_append (hok.halfOpen hr)⟩

/-- Fewer packets and commands, and no connection but those of known flows. -/
theorem Coherent.known {flight' : List Injected} {waiting' : List PendingTcpConn}
    {conns' : Table ℕ ActiveTcpConn} {creates' : List Flow}
    (h : Coherent flight waiting conns creates) (hflight : flight' ⊆ flight)
    (hcreates : creates' ⊆ creates)
    (hconn : ∀ f, Connected waiting' conns' f → Connected waiting conns f ∨ f ∈ creates) :
    Coherent flight' waiting' conns' creates' := by
  have hknown : ∀ f, Known flight' waiting' conns' creates' f →
      Known flight waiting conns creates f := by
    rintro f (hc | hc | ⟨x,hx,hf⟩)
    · rcases hconn f hc with hc | hc
      · exact .inl hc
      · exact .inr (.inl hc)
    · exact .inr (.inl (hcreates hc))
    · exact .inr (.inr ⟨x,hflight hx,hf⟩)
  exact ⟨fun f g hf hg => h.flows f g (hknown f hf) (hknown g hg),
    fun f hf => (h.queued f (hcreates hf)).subset hflight,
    fun x hx hsyn f hf => (h.syns x (hflight hx) hsyn f hf).subset hflight⟩

theorem Coherent.subset {ys : List Injected} (h : Coherent ys waiting conns creates)
    (hs : xs ⊆ ys) : Coherent xs waiting conns creates :=
  h.known hs (fun _ hf => hf) (fun _ => .inl)

/-- A socket is replaced by one that is right for the same flows. -/
theorem Owned.setSlot {flight' : List Injected} (h : Owned api flight waiting sockets conns) {i : ℕ}
    (hslot : socketAt sockets i = some slot) (slot' : Slot τ)
    (hother : ∀ t f, PendingOk api flight t f → PendingOk api flight' t f)
    (hpending : ∀ f, Connected waiting conns f → PendingOk api flight slot f →
      PendingOk api flight' slot' f)
    (hactive : ∀ f, Connected waiting conns f → ActiveOk api slot f → ActiveOk api slot' f) :
    Owned api flight' waiting (sockets.set i (some slot')) conns := by
  have hset := socketAt_set hslot (some slot')
  refine ⟨fun p hp => ?_,fun k conn hconn => ?_,fun k t hk => ?_,h.distinct,h.apart⟩
  · obtain ⟨t,ht,hok⟩ := h.pending p hp
    rw [hset]
    by_cases hi : p.handle = i
    · rw [if_pos hi]
      rw [hi,hslot] at ht
      cases ht
      exact ⟨slot',rfl,hpending p.flow (.inl ⟨p,hp,rfl⟩) hok⟩
    · rw [if_neg hi]
      exact ⟨t,ht,hother t p.flow hok⟩
  · obtain ⟨t,ht,hok⟩ := h.active k conn hconn
    rw [hset]
    by_cases hi : k = i
    · rw [if_pos hi]
      rw [hi,hslot] at ht
      cases ht
      exact ⟨slot',rfl,hactive conn.flow (.inr ⟨k,conn,hconn,rfl⟩) hok⟩
    · rw [if_neg hi]
      exact ⟨t,ht,hok⟩
  · rw [hset] at hk
    by_cases hi : k = i
    · rw [hi]; exact h.owner i slot hslot
    · rw [if_neg hi] at hk
      exact h.owner k t hk

theorem PendingOk.tail (h : PendingOk api (x::xs) slot f) : PendingOk api xs slot f :=
  ⟨h.made,fun hl => (h.listening hl).tail,fun hr => (h.halfOpen hr).2⟩

theorem segment_tuple (h : segment api x.bytes = some t) :
    tupleOf x = some t ∧ packetFlow x = some (flowOf t x.originalDst) := by
  simp only [SmoltcpForwarder.segment] at h
  split at h
  · exact ⟨h,by simp [packetFlow,tupleOf,h]⟩
  · cases h

/-- Whoever accepts a packet was made for the packet's flow. -/
theorem accepted_flow (hcoherent : Coherent (x::xs) waiting conns creates)
    (hconn : Connected waiting conns f) (hseg : segment api x.bytes = some t)
    (hacc : accepts api slot.sock t = true) (hmade : SlotOk api slot f)
    (hlisten : api.state slot.sock = .listen → SynsOf f (x::xs)) : flowOf t x.originalDst = f := by
  obtain ⟨htuple,hflow⟩ := segment_tuple hseg
  simp only [accepts,Bool.and_eq_true,decide_eq_true_eq] at hacc
  obtain ⟨hport,hacc⟩ := hacc
  have hdst : t.dstPort = f.dstPort := hport.symm.trans hmade.port
  by_cases hl : api.state slot.sock = .listen
  · -- a SYN for a listening socket: all SYNs for the port are the socket's own
    rw [hl] at hacc
    exact hlisten hl x (by simp) (by simp [isSynPacket,htuple,hacc]) _ hflow hdst
  · -- the segment of a connection: the triple decides
    have hremote : api.remote slot.sock = some (t.srcIp,t.srcPort) := by
      split at hacc
      · next heq => exact absurd heq hl
      · cases hacc
      · simpa using hacc
    rcases hmade.remote hl with hclient | hnone
    · rw [hremote,Option.some.injEq,Prod.mk.injEq] at hclient
      refine hcoherent.flows _ f (.inr (.inr ⟨x,by simp,hflow⟩)) (.inl hconn) ?_
      simp [Flow.triple,flowOf,hdst,hclient.1,hclient.2]
    · rw [hremote] at hnone
      cases hnone

theorem SlotOk.noteSegment (laws : TcpLaws api) (h : SlotOk api slot f)
    (hseg : segment api x.bytes = some t) (hflow : flowOf t x.originalDst = f) (now : ℕ) :
    SlotOk api (noteSegment api slot (api.process slot.sock now x.bytes).1 f) f := by
  have hport : api.localPort (api.process slot.sock now x.bytes).1 = f.dstPort :=
    (laws.process_port _ _ _).trans h.port
  have hopening : api.state (api.process slot.sock now x.bytes).1 ≠ .synSent :=
    fun hs => h.opening (laws.process_synSent _ _ _ hs)
  simp only [SmoltcpForwarder.noteSegment]
  split
  · next hl =>
    exact ⟨hport,hopening,fun _ => rfl,fun hne => absurd hl hne,fun hne => absurd hl hne,
      fun hne => absurd hl hne⟩
  · next hl =>
    split
    · next hwas =>
      refine ⟨hport,hopening,fun heq => absurd heq hl,fun _ => rfl,fun _ ip hip => by simpa using hip,
        fun _ => ?_⟩
      have hclient := laws.process_listening slot.sock now x.bytes t hwas hseg hl
      rw [← hflow]
      exact hclient
    · next hwas =>
      refine ⟨hport,hopening,fun heq => absurd heq hl,fun _ => h.accepted hwas,fun _ ip hip => ?_,
        fun _ => ?_⟩
      · rcases List.mem_append.mp hip with hip | hip
        · exact h.handed hwas ip hip
        · exact List.mem_singleton.mp hip
      · rcases laws.process_connected slot.sock now x.bytes hwas with heq | hnone
        · rw [heq]; exact h.remote hwas
        · exact .inr hnone

theorem noteSegment_sock (slot : Slot τ) (sock : τ) (f : Flow) :
    (noteSegment api slot sock f).sock = sock := by
  simp only [noteSegment]
  split
  · rfl
  · split <;> rfl

/-- A half-open socket that a reset takes back to listening gets its own SYNs only. -/
theorem PendingOk.noteSegment (laws : TcpLaws api) (h : PendingOk api (x::xs) slot f)
    (hseg : segment api x.bytes = some t) (hflow : flowOf t x.originalDst = f) (now : ℕ) :
    PendingOk api xs (noteSegment api slot (api.process slot.sock now x.bytes).1 f) f := by
  refine ⟨h.made.noteSegment laws hseg hflow now,fun hl => ?_,fun hr => ?_⟩
  · rw [noteSegment_sock] at hl
    by_cases hwas : api.state slot.sock = .listen
    · exact (h.listening hwas).tail
    · obtain ⟨hhalf,hrst⟩ := laws.process_listens slot.sock now x.bytes t hwas hseg hl
      refine (h.halfOpen hhalf).1 ?_
      simp [isResetOf,(segment_tuple hseg).1,hrst,← hflow,Flow.triple,flowOf]
  · rw [noteSegment_sock] at hr
    by_cases hwas : api.state slot.sock = .listen
    · exact (h.listening hwas).tail.afterReset
    · rcases laws.process_synReceived slot.sock now x.bytes hwas hr with hhalf | hsent
      · exact (h.halfOpen hhalf).2
      · exact absurd hsent h.made.opening

theorem ActiveOk.noteSegment (laws : TcpLaws api) (h : ActiveOk api slot f)
    (hseg : segment api x.bytes = some t) (hflow : flowOf t x.originalDst = f) (now : ℕ) :
    ActiveOk api (noteSegment api slot (api.process slot.sock now x.bytes).1 f) f := by
  refine ⟨h.made.noteSegment laws hseg hflow now,fun hl => ?_,fun hr => ?_⟩
  · rw [noteSegment_sock] at hl
    exact h.halfOpen (laws.process_listens slot.sock now x.bytes t h.listening hseg hl).1
  · rw [noteSegment_sock] at hr
    rcases laws.process_synReceived slot.sock now x.bytes h.listening hr with hhalf | hsent
    · exact h.halfOpen hhalf
    · exact h.made.opening hsent

theorem Coherent.tail (h : Coherent (x::xs) waiting conns creates) :
    Coherent xs waiting conns creates :=
  h.subset (List.subset_cons_self x xs)

theorem Inv.skip (h : Inv api (x::xs) s) : Inv api xs s := by
  refine ⟨⟨fun p hp => ?_,h.owned.active,h.owned.owner,h.owned.distinct,h.owned.apart⟩,
    h.coherent.tail,h.tx,h.delivered⟩
  obtain ⟨slot,hslot,hok⟩ := h.owned.pending p hp
  exact ⟨slot,hslot,hok.tail⟩

theorem Owned.slotOk (h : Owned api flight waiting sockets conns) {i : ℕ}
    (hslot : socketAt sockets i = some slot) : ∃ f, Connected waiting conns f ∧ SlotOk api slot f ∧
      (api.state slot.sock = .listen → SynsOf f flight) := by
  rcases h.owner i slot hslot with ⟨p,hp,rfl⟩ | ⟨conn,hconn⟩
  · obtain ⟨t,ht,hok⟩ := h.pending p hp
    rw [hslot] at ht
    cases ht
    exact ⟨p.flow,.inl ⟨p,hp,rfl⟩,hok.made,hok.listening⟩
  · obtain ⟨t,ht,hok⟩ := h.active i conn hconn
    rw [hslot] at ht
    cases ht
    exact ⟨conn.flow,.inr ⟨i,conn,hconn,rfl⟩,hok.made,fun hl => absurd hl hok.listening⟩

theorem Inv.ingress (laws : TcpLaws api) (h : Inv api (x::xs) s) (now : ℕ) :
    Inv api xs (ingress api now s x) := by
  rcases ingress_cases api now s x with heq | heq | ⟨t,i,slot,hseg,-,hslot,hacc,heq⟩
  · rw [heq]
    exact h.skip
  · rw [heq]
    refine ⟨h.skip.owned,h.skip.coherent,fun y hy => ?_,h.delivered⟩
    rcases List.mem_append.mp hy with hy | hy
    · exact h.tx y hy
    · obtain ⟨bytes,-,rfl⟩ := List.mem_map.mp hy
      intro f hf
      cases hf
  · obtain ⟨f,hconn,hmade,hlisten⟩ := h.owned.slotOk hslot
    have hflow : flowOf t x.originalDst = f :=
      accepted_flow h.coherent hconn hseg hacc hmade hlisten
    have hsame : ∀ g, Connected s.pending s.active g → SlotOk api slot g →
        (api.state slot.sock = .listen → SynsOf g (x::xs)) → g = f := fun g hg hok hl =>
      (accepted_flow h.coherent hg hseg hacc hok hl).symm.trans hflow
    rw [heq]
    simp only [processSlot,hflow]
    refine ⟨?_,h.skip.coherent,fun y hy => ?_,h.delivered⟩
    · refine h.owned.setSlot hslot _ (fun t f ht => ht.tail) (fun g hg hok => ?_)
        (fun g hg hok => ?_)
      · have hgf := hsame g hg hok.made hok.listening
        subst hgf
        exact hok.noteSegment laws hseg hflow now
      · have hgf := hsame g hg hok.made fun hl => absurd hl hok.listening
        subst hgf
        exact hok.noteSegment laws hseg hflow now
    · rcases List.mem_append.mp hy with hy | hy
      · exact h.tx y hy
      · obtain ⟨bytes,hbytes,rfl⟩ := List.mem_map.mp hy
        intro g hg
        have hgf : g = f := (hmade.noteSegment laws hseg hflow now).producer hg
        have haddr := laws.process_replies slot.sock now x.bytes t hseg hacc bytes hbytes
        rw [hgf]
        rw [← hflow] at hconn ⊢
        exact ⟨hconn,haddr⟩

theorem Inv.ingressAll (laws : TcpLaws api) (now : ℕ) (xs ys : List Injected)
    (h : Inv api (xs++ys) s) : Inv api ys (xs.foldl (SmoltcpForwarder.ingress api now) s) := by
  induction xs generalizing s with
  | nil => exact h
  | cons x xs ih => exact ih (h.ingress laws now)

theorem socketAt_map (sockets : List (Option (Slot τ))) (g : Slot τ → Slot τ) (k : ℕ) :
    socketAt (sockets.map fun slot => slot.map g) k = (socketAt sockets k).map g := by
  simp only [socketAt,List.getD_eq_getElem?_getD,List.getElem?_map]
  cases sockets[k]? <;> rfl

theorem Owned.mapQuiet (h : Owned api flight waiting sockets conns) (g : τ → τ)
    (hg : ∀ sock, Quiet api sock (g sock)) :
    Owned api flight waiting
      (sockets.map fun slot => slot.map fun slot => {slot with sock := g slot.sock}) conns := by
  refine ⟨fun p hp => ?_,fun k conn hconn => ?_,fun k t hk => ?_,h.distinct,h.apart⟩
  · obtain ⟨t,ht,hok⟩ := h.pending p hp
    exact ⟨_,by rw [socketAt_map,ht]; rfl,hok.quiet (hg t.sock)⟩
  · obtain ⟨t,ht,hok⟩ := h.active k conn hconn
    exact ⟨_,by rw [socketAt_map,ht]; rfl,hok.quiet (hg t.sock)⟩
  · rw [socketAt_map] at hk
    obtain ⟨t',ht',-⟩ := Option.map_eq_some_iff.mp hk
    exact h.owner k t' ht'

theorem Inv.egress (laws : TcpLaws api) (h : Inv api flight s) (now : ℕ) :
    Inv api flight (egress api now s) := by
  refine ⟨h.owned.mapQuiet (fun sock => (api.dispatch sock now).1)
    fun sock => laws.dispatch_quiet sock now,h.coherent,fun y hy => ?_,h.delivered⟩
  rcases List.mem_append.mp hy with hy | hy
  · exact h.tx y hy
  · obtain ⟨entry,hentry,hy⟩ := List.mem_flatMap.mp hy
    cases entry with
    | none => cases hy
    | some slot =>
      obtain ⟨bytes,hbytes,rfl⟩ := List.mem_map.mp hy
      intro g hg
      obtain ⟨i,hi⟩ := List.mem_iff_getElem?.mp hentry
      have hslot : socketAt s.sockets i = some slot := by
        simp [socketAt,List.getD_eq_getElem?_getD,hi]
      obtain ⟨f,hconn,hmade,-⟩ := h.owned.slotOk hslot
      rw [hmade.producer hg]
      obtain ⟨ip,port,hremote,haddr⟩ := laws.dispatch_packets slot.sock now bytes hbytes
      have hl : api.state slot.sock ≠ .listen := fun hl => by
        have hnone := hmade.listening hl
        rw [hnone] at hg
        cases hg
      rcases hmade.remote hl with hclient | hnone
      · rw [hremote,Option.some.injEq,Prod.mk.injEq] at hclient
        rw [hclient.1,hclient.2,hmade.port] at haddr
        exact ⟨hconn,haddr⟩
      · rw [hremote] at hnone; cases hnone

theorem Inv.egressRounds (laws : TcpLaws api) (now n : ℕ) (h : Inv api flight s) :
    Inv api flight (egressRounds api now n s) := by
  induction n generalizing s with
  | zero => exact h
  | succ n ih => exact ih (h.egress laws now)

theorem pollStack_inFlight (now rounds : ℕ) (s : Forwarder τ) :
    inFlight (pollStack api now rounds s) =
      queuedPackets s.queue++(s.caller.bind injected).toList := by
  obtain ⟨hrx,hkeeps⟩ := pollStack_keeps api now rounds s
  simp only [besidesStack,Prod.mk.injEq] at hkeeps
  simp only [inFlight,hrx,hkeeps.1,hkeeps.2.1,List.nil_append]

theorem Inv.pollStack (laws : TcpLaws api) (h : Inv api (inFlight s) s) (now rounds : ℕ) :
    Inv api (inFlight (pollStack api now rounds s)) (pollStack api now rounds s) := by
  rw [pollStack_inFlight]
  have hstart : Inv api (s.rx++(queuedPackets s.queue++(s.caller.bind injected).toList))
      {s with rx := []} := by
    rw [← List.append_assoc]
    exact ⟨h.owned,h.coherent,h.tx,h.delivered⟩
  exact (hstart.ingressAll laws now).egressRounds laws now rounds

end Invariant

end Bonded.FlowIsolation
