import Bonded.PollIteration

/-! A client's connections against a single one. Every connection has a forwarder of its own, so
a packet is handled by the forwarder of the path it came over; compared with it is one forwarder
that gets all packets in the same order and whose poll thread goes round whenever one of theirs
does. The upstream side answers a connection by what that connection has been sent. -/
namespace Bonded.PathIndependence

open FlowIsolation FlowMachine Ipv4 Machine Packet PollIteration Selection SmoltcpForwarder TcpStack

/-- The forwarders of a client's connections, and the single one. -/
structure Paths (τ : Type) where
  conns : List (Forwarder τ)
  single : Forwarder τ
  deriving DecidableEq

def initial (τ : Type) (n : ℕ) : Paths τ := ⟨List.replicate n (new τ),new τ⟩

/-- A packet of the client comes over a path, or the poll threads of some paths go round once. -/
inductive Event
  | packet (path : ℕ) (payload : List UInt8)
  | tick (threads : List ℕ) (now rounds : ℕ)
  deriving DecidableEq, Repr

/-- The upstream connections of a forwarder and the bytes written to them. -/
def upstreams {τ : Type} (s : Forwarder τ) : List (Flow × List UInt8) :=
  s.bridges.map fun b => (b.flow,(b.sent.map Chunk.bytes).flatten)

/-- The rewrite of a TCP packet panics when the packet is shorter than the header it states. -/
def panics (payload : List UInt8) : Bool :=
  20 ≤ payload.length ∧ byteAt payload 9 = 6 ∧ rewriteDstIpInbound payload = .panicked

section System

variable {τ : Type} (api : TcpApi τ) (upstream : Upstream)

/-- There is no step for a packet that panics: it ends the task that serves its connection. -/
def step (s : Paths τ) : Event → Option (Paths τ)
  | .packet path payload =>
    if path < s.conns.length ∧ panics payload = false then
      some ⟨s.conns.modify path (ingestPacket · payload),ingestPacket s.single payload⟩
    else none
  | .tick threads now rounds => some
      ⟨s.conns.mapIdx fun i F => if i ∈ threads then iterate api upstream now rounds F else F,
        iterate api upstream now rounds s.single⟩

/-- The same upstream connections are opened and the same bytes written to each. -/
def SameUpstreams (s : Paths τ) : Prop :=
  (s.conns.flatMap upstreams).Perm (upstreams s.single)

/-- A flow without a connection, in the queue or in the set. -/
def isNew (s : Forwarder τ) (f : Flow) : Bool :=
  (pendingFlows s++activeFlows s++queuedFlows s.queue).all fun g => g.triple ≠ f.triple

/-- A forwarder without commands and connections. -/
def isIdle (s : Forwarder τ) : Bool :=
  s.queue.isEmpty ∧ s.pending.isEmpty ∧ s.active.toList.isEmpty

/-- The condition on a step, for paths that are chosen by `path`: a packet comes over the path of
its address, port and destination port; it finds room in the queue; it keeps apart from the other
flows of the client; and a SYN is not for a connection that there is. A poll thread that does not
go round with the others has nothing to do. -/
def Pinned (path : Triple → ℕ) (s : Paths τ) : Event → Prop
  | .packet i payload => s.single.queue.length+2 ≤ capacity ∧
      ∀ sent, sentFlow payload = some sent → path sent.2.triple = i ∧
        KeepsApart api s.single sent.1 sent.2 ∧
        (sent.1.isSyn = true → isNew s.single sent.2 = true)
  | .tick threads .. => ∀ i < s.conns.length, i ∈ threads ∨ (s.conns[i]?).all isIdle = true

instance (path : Triple → ℕ) (s : Paths τ) (e : Event) : Decidable (Pinned api path s e) :=
  match e with
  | .packet i payload =>
    have := decidableNext (sentFlow payload) fun sent => path sent.2.triple = i ∧
        KeepsApart api s.single sent.1 sent.2 ∧
        (sent.1.isSyn = true → isNew s.single sent.2 = true)
    inferInstanceAs (Decidable (_ ∧ ∀ sent, sentFlow payload = some sent → _))
  | .tick .. => inferInstanceAs (Decidable (∀ i < s.conns.length, _))

end System

section Ingest

variable {τ : Type} {api : TcpApi τ} {s : Forwarder τ}

/-- The commands that a call queues for a packet, when there is room. -/
def synCommands (payload : List UInt8) : List PollCommand :=
  match sentFlow payload with
  | some (t,f) => if t.isSyn then [.createTcpSocket f] else []
  | none => []

def packetCommands (payload : List UInt8) : List PollCommand :=
  (injected payload).toList.map .injectPacket

def newCommands (payload : List UInt8) : List PollCommand :=
  if payload.length < 20 ∨ byteAt payload 9 ≠ 6 then []
  else synCommands payload++packetCommands payload

theorem synCommands_length (payload : List UInt8) : (synCommands payload).length ≤ 1 := by
  unfold synCommands
  repeat' split
  all_goals simp

theorem announceSyn_queue (hroom : s.queue.length < capacity) (payload : List UInt8) :
    announceSyn s payload = {s with queue := s.queue++synCommands payload} := by
  rw [announceSyn_eq,synCommands]
  cases sentFlow payload with
  | none => simp
  | some sent =>
    cases hsyn : sent.1.isSyn
    · simp [hsyn]
    · simp [hsyn,trySend,hroom]

theorem endIngest_queue {payload : List UInt8} (hcaller : s.caller = some payload)
    (hroom : s.queue.length < capacity) :
    endIngest s = {s with queue := s.queue++packetCommands payload, caller := none} := by
  simp only [endIngest,hcaller,Option.bind_some,packetCommands]
  cases injected payload with
  | none => simp
  | some x => simp only [trySend,if_pos hroom,Option.toList_some,List.map_cons,List.map_nil]

theorem ingestPacket_eq (hcaller : s.caller = none) (hroom : s.queue.length+2 ≤ capacity)
    (payload : List UInt8) :
    ingestPacket s payload = {s with queue := s.queue++newCommands payload} := by
  have hidle : endIngest s = {s with queue := s.queue++[]} := by
    simp only [endIngest,hcaller,Option.bind_none,List.append_nil]
  by_cases htcp : payload.length < 20 ∨ byteAt payload 9 ≠ 6
  · have hbegin : beginIngest s payload = s := by
      rcases htcp with hlen | hproto
      · rw [beginIngest,if_pos hlen]
      · rw [beginIngest,if_neg hproto,ite_self]
    rw [ingestPacket,hbegin,newCommands,if_pos htcp]
    exact hidle
  · obtain ⟨hlen,hproto⟩ := not_or.mp htcp
    have hsyn := synCommands_length payload
    rw [ingestPacket,beginIngest,if_neg hlen,if_pos (not_not.mp hproto),newCommands,if_neg htcp,
      announceSyn_queue (by omega),endIngest_queue rfl (by simp; omega)]
    simp [hcaller]

theorem newCommands_of {payload : List UInt8} {T : Triple} {c : PollCommand}
    (hc : c ∈ newCommands payload) (hT : isCommandOf T c = true) :
    ∃ t f, sentFlow payload = some (t,f) ∧ f.triple = T := by
  unfold newCommands at hc
  split at hc
  · cases hc
  · rcases List.mem_append.mp hc with hc | hc
    · unfold synCommands at hc
      split at hc
      · next t f hsent =>
        split at hc
        · rw [List.mem_singleton.mp hc] at hT
          exact ⟨t,f,hsent,by simpa [isCommandOf] using hT⟩
        · cases hc
      · cases hc
    · obtain ⟨x,hx,rfl⟩ := List.mem_map.mp hc
      have hflow := (injected_flow (Option.mem_toList.mp hx)).1
      obtain ⟨f,hf,hfT⟩ := isPacketOf_flow.mp hT
      rw [hflow] at hf
      obtain ⟨⟨t,f'⟩,hsent,rfl⟩ := Option.map_eq_some_iff.mp hf
      exact ⟨t,f',hsent,hfT⟩

end Ingest

section Link

variable {τ : Type} {api : TcpApi τ} {path : Triple → ℕ} {T : Triple} {s : Paths τ}

/-- The flow is in one state in the single forwarder and in the one of its path, and the other
forwarders do not know it. -/
structure FlowLinked (path : Triple → ℕ) (T : Triple) (s : Paths τ) (v : FlowState τ) : Prop where
  fresh : v.Fresh
  single : ∃ place, Part T s.single.pending s.single place v
  known : v = FlowState.idle ∨ path T < s.conns.length
  conns : ∀ (i : ℕ) F, s.conns[i]? = some F →
    ∃ place, Part T F.pending F place (if i = path T then v else FlowState.idle)

structure Linked (api : TcpApi τ) (path : Triple → ℕ) (s : Paths τ) : Prop where
  single : Resting api s.single
  conns : ∀ (i : ℕ) F, s.conns[i]? = some F → Resting api F
  queues : ∀ (i : ℕ) F, s.conns[i]? = some F → F.queue.Sublist s.single.queue
  flows : ∀ T, ∃ v, FlowLinked path T s v

theorem part_new (T : Triple) : Part T (new τ).pending (new τ) none FlowState.idle := by
  refine ⟨rfl,rfl,rfl,fun _ => rfl,(fun h hh => by cases hh),?_⟩
  rintro k f (hk | ⟨conn,hconn,-⟩) -
  · cases hk
  · cases hconn

theorem linked_initial (n : ℕ) : Linked api path (initial τ n) := by
  have hnew : ∀ (i : ℕ) F, (initial τ n).conns[i]? = some F → F = new τ := by
    intro i F hF
    exact List.eq_of_mem_replicate (List.mem_of_getElem? hF)
  refine ⟨resting_new,fun i F hF => ?_,fun i F hF => ?_,fun T => ⟨FlowState.idle,?_,
    ⟨none,part_new T⟩,.inl rfl,fun i F hF => ⟨none,?_⟩⟩⟩
  · rw [hnew i F hF]; exact resting_new
  · rw [hnew i F hF]; exact List.Sublist.refl _
  · simp [FlowState.Fresh,FlowState.idle,queuedFlows]
  · rw [hnew i F hF,ite_self]; exact part_new T

variable {v : FlowState τ} {F : Forwarder τ} {f : Flow} {i now rounds : ℕ} {threads : List ℕ}
  {payload : List UInt8} {place : Option ℕ}

theorem FlowLinked.written_eq (h : FlowLinked path T s v) :
    (s.conns.flatMap fun F => F.bridges.map written).filter (fun w => w.1.triple = T) =
      (s.single.bridges.map written).filter fun w => w.1.triple = T := by
  have hpart : ∀ F : Forwarder τ, (F.bridges.map written).filter (fun w => w.1.triple = T) =
      (F.bridges.filter (isBridgeOf T)).map written := fun F => List.filter_map
  obtain ⟨place,hsingle⟩ := h.single
  rw [hpart,hsingle.bridges,List.filter_flatMap]
  have hconns : ∀ (i : ℕ) F, s.conns[i]? = some F →
      (F.bridges.map written).filter (fun w => w.1.triple = T) =
        if i = path T then v.bridges else [] := by
    intro i F hF
    obtain ⟨place,hF⟩ := h.conns i F hF
    rw [hpart,hF.bridges]
    split <;> rfl
  rw [flatMap_of_single hconns]
  rcases h.known with hidle | hlt
  · rw [hidle]; exact ite_self _
  · exact if_pos hlt

theorem Linked.sameUpstreams (h : Linked api path s) : SameUpstreams s := by
  have hwritten : (s.conns.flatMap fun F => F.bridges.map written).Perm
      (s.single.bridges.map written) := by
    refine perm_of_filter_eq (fun w : Written => w.1.triple) fun T => ?_
    obtain ⟨v,hv⟩ := h.flows T
    exact hv.written_eq
  have hup : (upstreams : Forwarder τ → _) =
      fun F => (F.bridges.map written).map fun w => (w.1,w.2.flatten) := by
    funext F
    simp [upstreams,written]
  have hbytes := hwritten.map fun w : Written => (w.1,w.2.flatten)
  rw [List.map_flatMap] at hbytes
  rw [SameUpstreams,hup]
  exact hbytes

theorem Linked.entry (h : Linked api path s) {k : ℕ} (hF : s.conns[i]? = some F)
    (hk : Placed F.pending F.active k f) :
    ∃ e k', e.flow = f ∧ EntryAt f.triple F.pending F.sockets F.active F.bridges k e ∧
      EntryAt f.triple s.single.pending s.single.sockets s.single.active s.single.bridges k' e := by
  obtain ⟨v,hv⟩ := h.flows f.triple
  obtain ⟨place,hpart⟩ := hv.conns i F hF
  obtain ⟨e,he,hat⟩ := hpart.entry_of_placed hk rfl
  have hpath : i = path f.triple := by
    by_contra hne
    rw [if_neg hne] at he
    cases he
  rw [if_pos hpath] at he
  obtain ⟨place',hsingle⟩ := hv.single
  cases hplace : place' with
  | none => rw [hsingle.empty hplace] at he; cases he
  | some k' =>
    obtain ⟨e',he',hat'⟩ := hsingle.entry k' hplace
    rw [he] at he'
    cases he'
    exact ⟨e,k',placed_unique (h.conns i F hF).inv.owned hat.placed hk,hat,hat'⟩

theorem Placed.connected {waiting : List PendingTcpConn} {conns : Table ℕ ActiveTcpConn} {k : ℕ}
    (h : Placed waiting conns k f) : Connected waiting conns f := by
  rcases h with hk | ⟨conn,hconn,hf⟩
  · exact .inl ⟨_,hk,rfl⟩
  · exact .inr ⟨k,conn,hconn,hf⟩

/-- A packet that keeps apart from all flows of the client keeps apart from those of a path. -/
theorem Linked.keepsApart (h : Linked api path s) (hF : s.conns[i]? = some F) {t : TcpTuple}
    (hk : KeepsApart api s.single t f) : KeepsApart api F t f := by
  have hqueue := h.queues i F hF
  have hflight : inFlight F ⊆ inFlight s.single := by
    rw [(h.conns i F hF).inFlight_eq,h.single.inFlight_eq]
    exact (hqueue.filterMap _).subset
  have hcreates : queuedFlows F.queue ⊆ queuedFlows s.single.queue := (hqueue.filterMap _).subset
  refine ⟨fun g hg htriple => hk.1 g ?_ htriple,fun hsyn => ⟨fun p hp hport hmay => ?_,
    fun g hg => (hk.2 hsyn).2.1 g (hcreates hg),(hk.2 hsyn).2.2.subset hflight⟩⟩
  · rw [mem_knownFlows] at hg ⊢
    rcases hg with hg | hg | ⟨x,hx,hxg⟩
    · have hplaced : ∃ k, Placed F.pending F.active k g := by
        rcases hg with ⟨p,hp,rfl⟩ | ⟨k,conn,hconn,rfl⟩
        · exact ⟨p.handle,.inl hp⟩
        · exact ⟨k,.inr ⟨conn,hconn,rfl⟩⟩
      obtain ⟨k,hk⟩ := hplaced
      obtain ⟨e,k',rfl,-,hat⟩ := h.entry hF hk
      exact .inl (Placed.connected hat.placed)
    · exact .inr (.inl (hcreates hg))
    · exact .inr (.inr ⟨x,hflight hx,hxg⟩)
  · obtain ⟨e,k',hflow,hat,hat'⟩ := h.entry hF (.inl hp : Placed F.pending F.active p.handle p.flow)
    have hconn : e.conn = none := by
      cases hc : e.conn with
      | none => rfl
      | some c =>
        obtain ⟨conn,hconn,-⟩ := hat.active c hc
        rw [(h.conns i F hF).inv.owned.apart p hp] at hconn
        cases hconn
    obtain ⟨slot,hslot,hsock⟩ := hat.socket
    obtain ⟨slot',hslot',hsock'⟩ := hat'.socket
    rw [← hflow] at hport ⊢
    refine (hk.2 hsyn).1 ⟨k',e.flow⟩ (hat'.pending hconn) hport ?_
    -- the two sockets are in the same state, and a reset on its way to one is on its way to both
    simp only [mayListen,hslot,hslot',Option.any_some,decide_eq_true_eq,hsock,hsock'] at hmay ⊢
    rcases hmay with hlisten | ⟨hhalf,hreset⟩
    · exact .inl hlisten
    · obtain ⟨x,hx,hxr⟩ := List.any_eq_true.mp hreset
      exact .inr ⟨hhalf,List.any_eq_true.mpr ⟨x,hflight hx,by rw [hflow]; exact hxr⟩⟩

theorem Linked.room (h : Linked api path s) (hF : s.conns[i]? = some F) {n : ℕ}
    (hroom : s.single.queue.length+n ≤ capacity) : F.queue.length+n ≤ capacity :=
  Nat.le_trans (Nat.add_le_add_right (h.queues i F hF).length_le n) hroom

theorem idle_of_not_mem (hg : Pinned api path s (.tick threads now rounds)) {j : ℕ}
    (hF : s.conns[j]? = some F) (hj : j ∉ threads) : isIdle F = true := by
  obtain ⟨hlt,-⟩ := List.getElem?_eq_some_iff.mp hF
  rcases hg j hlt with hmem | hall
  · exact absurd hmem hj
  · simpa [hF] using hall

theorem resting_ingest (h : Resting api F) (hroom : F.queue.length+2 ≤ capacity)
    (hg : Separate api F (.ingest payload)) : Resting api (ingestPacket F payload) := by
  have heq := ingestPacket_eq h.caller hroom payload
  refine ⟨(h.inv.beginIngest h.caller hg).endIngest,?_,?_,?_,?_,?_⟩
  · rw [heq]; exact h.caller
  · rw [heq]; exact h.rx
  · rw [heq]; exact h.tx
  · rw [heq]; exact h.phase
  · rw [heq]; exact h.promoted

/-- The commands of the flow that a packet brings. -/
def withCommands (T : Triple) (payload : List UInt8) (v : FlowState τ) : FlowState τ :=
  {v with commands := v.commands++(newCommands payload).filter (isCommandOf T)}

theorem part_ingest (h : Part T F.pending F place v) (hcaller : F.caller = none)
    (hroom : F.queue.length+2 ≤ capacity) (payload : List UInt8) :
    Part T (ingestPacket F payload).pending (ingestPacket F payload) place
      (withCommands T payload v) := by
  rw [ingestPacket_eq hcaller hroom]
  exact ⟨by simp [withCommands,← h.commands],h.packets,h.bridges,h.empty,h.entry,h.only⟩

theorem withCommands_other (h : ∀ c ∈ newCommands payload,
    isCommandOf T c = false) (v : FlowState τ) : withCommands T payload v = v := by
  have hnil : (newCommands payload).filter (isCommandOf T) = [] :=
    List.filter_eq_nil_iff.mpr fun c hc => by simp [h c hc]
  simp [withCommands,hnil]

theorem mem_queuedFlows {xs : List PollCommand} : f ∈ queuedFlows xs ↔ .createTcpSocket f ∈ xs := by
  simp only [queuedFlows,List.mem_filterMap]
  constructor
  · rintro ⟨c,hc,heq⟩
    cases c with
    | injectPacket x => cases heq
    | createTcpSocket g => cases heq; exact hc
  · exact fun hf => ⟨_,hf,rfl⟩

/-- A packet asks for at most one socket, and only if it is a SYN. -/
theorem queuedFlows_newCommands (payload : List UInt8) : queuedFlows (newCommands payload) = [] ∨
    ∃ t f, sentFlow payload = some (t,f) ∧ t.isSyn = true ∧
      queuedFlows (newCommands payload) = [f] := by
  have hpackets : queuedFlows (packetCommands payload) = [] := by
    simp only [packetCommands,queuedFlows]
    cases injected payload <;> rfl
  unfold newCommands
  split
  · exact .inl rfl
  · rw [queuedFlows_append,hpackets,List.append_nil]
    unfold synCommands
    split
    · next t f hsent =>
      split
      · next hsyn => exact .inr ⟨t,f,hsent,hsyn,rfl⟩
      · exact .inl rfl
    · exact .inl rfl

/-- A flow that the forwarder does not know has no socket and asks for none. -/
theorem part_of_isNew (h : Part T F.pending F place v) (hf : f.triple = T)
    (hnew : isNew F f = true) : v.entry = none ∧ queuedFlows v.commands = [] := by
  have hflows : ∀ g, g ∈ pendingFlows F ∨ g ∈ activeFlows F ∨ g ∈ queuedFlows F.queue →
      g.triple ≠ T := by
    intro g hg
    have hne := List.all_eq_true.mp hnew g (by simpa [or_assoc] using hg)
    simpa [hf] using hne
  constructor
  · cases hplace : place with
    | none => exact h.empty hplace
    | some k =>
      obtain ⟨e,he,hat⟩ := h.entry k hplace
      refine absurd hat.triple (hflows e.flow ?_)
      rcases hat.placed with hk | ⟨conn,hconn,hflow⟩
      · exact .inl (List.mem_map.mpr ⟨_,hk,rfl⟩)
      · exact .inr (.inl (List.mem_map.mpr ⟨(k,conn),(Table.mem_toList _ _ _).mpr hconn,hflow⟩))
  · refine List.eq_nil_iff_forall_not_mem.mpr fun g hg => ?_
    rw [← h.commands,mem_queuedFlows] at hg
    obtain ⟨hmem,hT⟩ := List.mem_filter.mp hg
    exact hflows g (.inr (.inr (mem_queuedFlows.mpr hmem))) (by simpa [isCommandOf] using hT)

theorem fresh_withCommands (h : Part T F.pending F place v) (hfresh : v.Fresh)
    (hnew : ∀ t f, sentFlow payload = some (t,f) → t.isSyn = true → isNew F f = true) :
    (withCommands T payload v).Fresh := by
  have hsub : (queuedFlows ((newCommands payload).filter (isCommandOf T))).Sublist
      (queuedFlows (newCommands payload)) := List.filter_sublist.filterMap _
  by_cases hnone : queuedFlows ((newCommands payload).filter (isCommandOf T)) = []
  · simpa [FlowState.Fresh,withCommands,queuedFlows_append,hnone] using hfresh
  · rcases queuedFlows_newCommands payload with hempty | ⟨t,f,hsent,hsyn,hone⟩
    · rw [hempty] at hsub
      exact absurd (List.sublist_nil.mp hsub) hnone
    · -- the one socket that is asked for is the flow's
      have hf : f.triple = T := by
        obtain ⟨g,hg⟩ := List.exists_mem_of_ne_nil _ hnone
        have hgf : g ∈ queuedFlows (newCommands payload) := hsub.subset hg
        rw [hone,List.mem_singleton] at hgf
        rw [mem_queuedFlows,hgf] at hg
        simpa [isCommandOf] using (List.mem_filter.mp hg).2
      obtain ⟨hentry,hcommands⟩ := part_of_isNew h hf (hnew t f hsent hsyn)
      have hlen := hsub.length_le
      rw [hone] at hlen
      simpa [FlowState.Fresh,withCommands,queuedFlows_append,hentry,hcommands] using hlen

/-- The flow's state after a packet: only a packet of its own path brings commands for it. -/
theorem FlowLinked.packet (h : FlowLinked path T s v) (hs : Linked api path s)
    (hi : i < s.conns.length) (hg : Pinned api path s (.packet i payload)) : FlowLinked path T
      ⟨s.conns.modify i (ingestPacket · payload),ingestPacket s.single payload⟩
      (withCommands T payload v) := by
  obtain ⟨hroom,hsent⟩ := hg
  obtain ⟨place,hsingle⟩ := h.single
  have hother : i ≠ path T → ∀ c ∈ newCommands payload, isCommandOf T c = false := by
    intro hne c hc
    rw [Bool.eq_false_iff]
    intro hT
    obtain ⟨t,f,hf,htriple⟩ := newCommands_of hc hT
    exact hne (htriple ▸ (hsent (t,f) hf).1).symm
  refine ⟨fresh_withCommands hsingle h.fresh fun t f hf hsyn => (hsent (t,f) hf).2.2 hsyn,
    ⟨place,part_ingest hsingle hs.single.caller hroom payload⟩,?_,fun j F' hF' => ?_⟩
  · by_cases hpath : i = path T
    · exact .inr (by simpa [← hpath] using hi)
    · rw [withCommands_other (hother hpath)]
      simpa using h.known
  · obtain ⟨F,hF,rfl⟩ := getElem?_modify_some hF'
    obtain ⟨place',hpart⟩ := h.conns j F hF
    refine ⟨place',?_⟩
    by_cases hji : j = i
    · rw [if_pos hji]
      have hdone := part_ingest hpart (hs.conns j F hF).caller (hs.room hF hroom) payload
      by_cases hpath : i = path T
      · simpa only [hji,if_pos hpath] using hdone
      · simpa only [hji,if_neg hpath,withCommands_other (hother hpath)] using hdone
    · rw [if_neg hji]
      by_cases hpath : j = path T
      · rw [if_pos hpath] at hpart ⊢
        rw [withCommands_other (hother fun heq => hji (hpath.trans heq.symm))]
        exact hpart
      · rw [if_neg hpath] at hpart ⊢
        exact hpart

theorem Linked.packet (h : Linked api path s) (hi : i < s.conns.length)
    (hg : Pinned api path s (.packet i payload)) : Linked api path
      ⟨s.conns.modify i (ingestPacket · payload),ingestPacket s.single payload⟩ := by
  have hroom := hg.1
  have hapart : ∀ sent, sentFlow payload = some sent → KeepsApart api s.single sent.1 sent.2 :=
    fun sent hs => (hg.2 sent hs).2.1
  refine ⟨resting_ingest h.single hroom hapart,fun j F' hF' => ?_,fun j F' hF' => ?_,fun T => ?_⟩
  · obtain ⟨F,hF,rfl⟩ := getElem?_modify_some hF'
    split
    · exact resting_ingest (h.conns j F hF) (h.room hF hroom)
        fun sent hs => h.keepsApart hF (hapart sent hs)
    · exact h.conns j F hF
  · obtain ⟨F,hF,rfl⟩ := getElem?_modify_some hF'
    simp only [ingestPacket_eq h.single.caller hroom]
    split
    · rw [ingestPacket_eq (h.conns j F hF).caller (h.room hF hroom)]
      exact (h.queues j F hF).append (List.Sublist.refl _)
    · exact (h.queues j F hF).trans (List.sublist_append_left _ _)
  · obtain ⟨v,hv⟩ := h.flows T
    exact ⟨withCommands T payload v,hv.packet h hi hg⟩

theorem flowIterate_quiet (api : TcpApi τ) (upstream : Upstream) (now rounds : ℕ)
    (hcommands : v.commands = []) (hrx : v.rx = []) (hentry : v.entry = none) :
    flowIterate api upstream now rounds v = v := by
  obtain ⟨commands,rx,entry,bridges⟩ := v
  subst hcommands hrx hentry
  have hrounds : ∀ n, FlowState.egressRounds api now n ⟨[],[],none,bridges⟩ =
      ⟨[],[],none,bridges⟩ := by
    intro n
    induction n with
    | zero => rfl
    | succ n ih => exact ih
  have hpoll : (FlowState.drain api ⟨[],[],none,bridges⟩).poll api now rounds =
      ⟨[],[],none,bridges⟩ := hrounds rounds
  simp only [flowIterate,hpoll]
  rfl

theorem flowIterate_idle (api : TcpApi τ) (upstream : Upstream) (now rounds : ℕ) :
    flowIterate api upstream now rounds FlowState.idle = FlowState.idle :=
  flowIterate_quiet api upstream now rounds rfl rfl rfl

theorem part_idle (hF : Resting api F) (hidle : isIdle F = true) (h : Part T F.pending F place v)
    (upstream : Upstream) (now rounds : ℕ) :
    Part T F.pending F place (flowIterate api upstream now rounds v) := by
  simp only [isIdle,List.isEmpty_iff,decide_eq_true_eq] at hidle
  obtain ⟨hqueue,hpending,hactive⟩ := hidle
  have hnew : isNew F ⟨T.1,T.2.1,T.1,T.2.2⟩ = true := by
    simp [isNew,pendingFlows,activeFlows,queuedFlows,hqueue,hpending,hactive]
  have hcommands : v.commands = [] := by rw [← h.commands,hqueue]; rfl
  have hrx : v.rx = [] := by rw [← h.packets,hF.rx]; rfl
  rw [flowIterate_quiet api upstream now rounds hcommands hrx (part_of_isNew h rfl hnew).1]
  exact h

/-- The flow's state after the threads went round, those with nothing to do left out. -/
theorem FlowLinked.tick (laws : TcpLaws api) (hrefuse : RefusesWell api) (h : FlowLinked path T s v)
    (hs : Linked api path s) (upstream : Upstream)
    (hg : Pinned api path s (.tick threads now rounds)) : FlowLinked path T
      ⟨s.conns.mapIdx fun i F => if i ∈ threads then iterate api upstream now rounds F else F,
        iterate api upstream now rounds s.single⟩ (flowIterate api upstream now rounds v) := by
  obtain ⟨place,hsingle⟩ := h.single
  obtain ⟨place',hdone⟩ := part_iterate laws hrefuse hs.single upstream now rounds hsingle h.fresh
  have hcommands : (flowIterate api upstream now rounds v).commands = [] := by
    rw [← hdone.commands,(resting_iterate laws hrefuse hs.single upstream now rounds).2]; rfl
  refine ⟨?_,⟨place',hdone⟩,?_,fun j F' hF' => ?_⟩
  · rw [FlowState.Fresh,hcommands]
    cases (flowIterate api upstream now rounds v).entry <;> simp [queuedFlows]
  · rcases h.known with hidle | hlt
    · exact .inl (by rw [hidle,flowIterate_idle])
    · exact .inr (by simpa using hlt)
  · simp only [List.getElem?_mapIdx] at hF'
    obtain ⟨F,hF,rfl⟩ := Option.map_eq_some_iff.mp hF'
    obtain ⟨placeF,hpart⟩ := h.conns j F hF
    have hpush : (if j = path T then flowIterate api upstream now rounds v else FlowState.idle) =
        flowIterate api upstream now rounds (if j = path T then v else FlowState.idle) := by
      rw [apply_ite (flowIterate api upstream now rounds),flowIterate_idle]
    rw [hpush]
    by_cases hj : j ∈ threads
    · simp only [if_pos hj]
      refine part_iterate laws hrefuse (hs.conns j F hF) upstream now rounds hpart ?_
      split
      · exact h.fresh
      · simp [FlowState.Fresh,FlowState.idle,queuedFlows]
    · simp only [if_neg hj]
      exact ⟨placeF,part_idle (hs.conns j F hF) (idle_of_not_mem hg hF hj) hpart upstream now rounds⟩

theorem Linked.tick (laws : TcpLaws api) (hrefuse : RefusesWell api) (h : Linked api path s)
    (upstream : Upstream) (hg : Pinned api path s (.tick threads now rounds)) : Linked api path
      ⟨s.conns.mapIdx fun i F => if i ∈ threads then iterate api upstream now rounds F else F,
        iterate api upstream now rounds s.single⟩ := by
  have hconn : ∀ {j : ℕ} {F}, s.conns[j]? = some F →
      Resting api (iterate api upstream now rounds F) ∧
        (iterate api upstream now rounds F).queue = [] := fun hF =>
    resting_iterate laws hrefuse (h.conns _ _ hF) upstream now rounds
  refine ⟨(resting_iterate laws hrefuse h.single upstream now rounds).1,fun j F' hF' => ?_,
    fun j F' hF' => ?_,fun T => ?_⟩
  · simp only [List.getElem?_mapIdx] at hF'
    obtain ⟨F,hF,rfl⟩ := Option.map_eq_some_iff.mp hF'
    split
    · exact (hconn hF).1
    · exact h.conns j F hF
  · simp only [List.getElem?_mapIdx] at hF'
    obtain ⟨F,hF,rfl⟩ := Option.map_eq_some_iff.mp hF'
    have hempty : (if j ∈ threads then iterate api upstream now rounds F else F).queue = [] := by
      split
      · exact (hconn hF).2
      · next hj =>
        have hidle := idle_of_not_mem hg hF hj
        simp only [isIdle,List.isEmpty_iff,decide_eq_true_eq] at hidle
        exact hidle.1
    rw [hempty]
    exact List.nil_sublist _
  · obtain ⟨v,hv⟩ := h.flows T
    exact ⟨flowIterate api upstream now rounds v,hv.tick laws hrefuse h upstream hg⟩

theorem Linked.step (laws : TcpLaws api) (hrefuse : RefusesWell api) {upstream : Upstream}
    {e : Event} {t : Paths τ} (h : Linked api path s) (hg : Pinned api path s e)
    (ht : step api upstream s e = some t) : Linked api path t := by
  cases e with
  | packet i payload =>
    simp only [PathIndependence.step] at ht
    split at ht
    · next hi => cases ht; exact h.packet hi.1 hg
    · cases ht
  | tick threads now rounds =>
    cases ht
    exact h.tick laws hrefuse upstream hg

end Link

theorem toyTcp_refusesWell : RefusesWell toyTcp := by
  intro request reply hreply
  cases hreply

/-- The first flow is on the first path and the second flow on the second. -/
def byPort (T : Triple) : ℕ := if T.2.1 = flowA.clientSrcPort then 0 else 1

def silent : Upstream := fun _ _ _ => []

def twoPathsRun : List Event :=
  [.packet 0 (syn flowA),.tick [0] 0 1,.packet 0 (acked flowA [1,2]),.tick [0] 1 1,
    .packet 1 (syn flowB),.tick [0,1] 2 1,.packet 1 (acked flowB [7]),.packet 0 (acked flowA [3]),
    .tick [0,1] 3 1]

/-- A flow is opened over the first path and the client goes on with it over the second. -/
def switchRun : List Event :=
  [.packet 0 (syn flowA),.tick [0,1] 0 1,.packet 0 (acked flowA []),.tick [0,1] 1 1,
    .packet 1 (acked flowA [1,2]),.tick [0,1] 2 1]

end Bonded.PathIndependence
