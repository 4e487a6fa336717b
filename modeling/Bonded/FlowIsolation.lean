import Bonded.FlowInvariant

/-! Isolation of TCP flows in the forwarder: which bridge, which bytes and which source address
belong to which SYN. -/
namespace Bonded.FlowIsolation

open Ipv4 Machine Packet SmoltcpForwarder TcpStack

section State

variable {τ : Type} (api : TcpApi τ)

/-- The flow of a packet as the client sent it. -/
def sentFlow (payload : List UInt8) : Option (TcpTuple × Flow) :=
  (parseIpv4TcpTupleFlags payload).map fun t => (t,flowOf t t.dstIp)

/-- A packet keeps apart: no other destination is known for its address, port and destination
port; and a SYN finds no socket, no queued command and no other SYN of another flow that may
listen, or start to listen, on its destination port. -/
def KeepsApart (s : Forwarder τ) (t : TcpTuple) (f : Flow) : Prop :=
  (∀ g ∈ knownFlows s, g.triple = f.triple → g = f) ∧
    (t.isSyn = true →
      (∀ p ∈ s.pending, p.flow.dstPort = f.dstPort → mayListen api s p = true → p.flow = f) ∧
      (∀ g ∈ queuedFlows s.queue, g.dstPort = f.dstPort → g = f) ∧ SynsOf f (inFlight s))

/-- The condition on a step: a packet that comes in keeps apart. -/
def Separate (s : Forwarder τ) : Event → Prop
  | .ingest payload => ∀ sent, sentFlow payload = some sent → KeepsApart api s sent.1 sent.2
  | _ => True

instance (s : Forwarder τ) (t : TcpTuple) (f : Flow) : Decidable (KeepsApart api s t f) :=
  inferInstanceAs (Decidable (_ ∧ (_ → _)))

instance (s : Forwarder τ) (e : Event) : Decidable (Separate api s e) :=
  match e with
  | .ingest payload => decidableNext (sentFlow payload) fun sent => KeepsApart api s sent.1 sent.2
  | .inject | .command | .poll .. | .emit | .finish _ => isTrue trivial

/-- The three parts of isolation: an active connection is the one of the SYN that its socket
accepted; the bytes sent to a bridge come from packets for its upstream; and a frame made by
a socket carries the address that its flow dialled. -/
structure Isolated (s : Forwarder τ) : Prop where
  promoted : ∀ h conn, s.active.get h = some conn →
    ∃ slot, socketAt s.sockets h = some slot ∧ slot.accepted = some conn.flow
  bridged : ∀ b ∈ s.bridges, ∀ chunk ∈ b.sent, ∀ ip ∈ chunk.origins, ip = b.flow.originalDstIp
  emitted : ∀ e ∈ s.emitted, ∀ f, e.producer = some f →
    ipAt e.frame.payload 12 = f.originalDstIp

end State

section Steps

variable {τ : Type} {api : TcpApi τ} {flight : List Injected} {waiting : List PendingTcpConn}
  {sockets : List (Option (Slot τ))} {conns : Table ℕ ActiveTcpConn} {creates : List Flow}

variable {payload : List UInt8} {s t : Forwarder τ} {f : Flow} {left : List PendingTcpConn}
  {conn conn' : ActiveTcpConn} {k : ℕ}

theorem injected_of_parseTcpHeader {x : TcpTuple × Bool} (h : parseTcpHeader payload = some x) :
    (injected payload).isSome := by
  obtain ⟨t,ht,-⟩ := Option.map_eq_some_iff.mp h
  obtain ⟨hlen,hheader,-⟩ := Option.map_eq_some_iff.mp ht
  unfold headerLength at hheader
  split at hheader
  · cases hheader
  · split at hheader
    · cases hheader
    · next hshort hbad =>
      split at hheader
      · cases hheader
      · next hroom =>
        simp only [not_or,not_not] at hbad
        rw [injected,rewriteDstIpInbound,if_neg (by simp [hbad.1]; omega),if_neg (by omega)]
        rfl

theorem injected_flow {x : Injected} (h : injected payload = some x) :
    packetFlow x = (sentFlow payload).map Prod.snd ∧
      isSynPacket x = (sentFlow payload).any fun e => e.1.isSyn := by
  simp only [injected] at h
  split at h
  · next bytes hbytes =>
    cases h
    have hparse := parse_rewriteDstIpInbound hbytes
    simp only [packetFlow,isSynPacket,tupleOf,sentFlow,hparse]
    cases ht : parseIpv4TcpTupleFlags payload with
    | none => exact ⟨rfl,rfl⟩
    | some t =>
      have hdst : t.dstIp = ipAt payload 16 := by
        obtain ⟨hlen,-,heq⟩ := Option.map_eq_some_iff.mp ht
        rw [← heq]
      simp [flowOf,hdst,TcpTuple.isSyn]
  · cases h

/-- One more packet is on its way: it belongs to no other flow that is known, and if it is a
SYN no other flow can get it. -/
theorem Inv.arrive (h : Inv api flight s) {x : Injected} (hknown : ∀ f, packetFlow x = some f →
      ∀ g, Known flight s.pending s.active (queuedFlows s.queue) g → g.triple = f.triple → g = f)
    (hpending : ∀ p ∈ s.pending, ∀ slot, socketAt s.sockets p.handle = some slot →
      (api.state slot.sock = .listen ∨
        (api.state slot.sock = .synReceived ∧ flight.any (isResetOf p.flow) = true)) →
      SynsOf p.flow [x]) (hqueued : ∀ g ∈ queuedFlows s.queue, SynsOf g [x])
    (hsyns : isSynPacket x = true → ∀ f, packetFlow x = some f → SynsOf f flight) :
    Inv api (flight++[x]) s := by
  refine ⟨⟨fun p hp => ?_,h.owned.active,h.owned.owner,h.owned.distinct,h.owned.apart⟩,
    ⟨fun f g hf hg heq => ?_,fun f hf => ?_,fun y hy hsyn f hf => ?_⟩,h.tx,h.delivered⟩
  · obtain ⟨slot,hslot,hok⟩ := h.owned.pending p hp
    refine ⟨slot,hslot,hok.made,fun hl => ?_,fun hr => ?_⟩
    · exact synsOf_append_singleton (hok.listening hl) (hpending p hp slot hslot (.inl hl))
    · exact synsAfterReset_append_singleton (hok.halfOpen hr)
        fun hreset => hpending p hp slot hslot (.inr ⟨hr,hreset⟩)
  · have hsplit : ∀ f, Known (flight++[x]) s.pending s.active (queuedFlows s.queue) f →
        Known flight s.pending s.active (queuedFlows s.queue) f ∨ packetFlow x = some f := by
      rintro f (hc | hc | ⟨y,hy,hf⟩)
      · exact .inl (.inl hc)
      · exact .inl (.inr (.inl hc))
      · rcases List.mem_append.mp hy with hy | hy
        · exact .inl (.inr (.inr ⟨y,hy,hf⟩))
        · rw [List.mem_singleton.mp hy] at hf
          exact .inr hf
    rcases hsplit f hf with hf | hf <;> rcases hsplit g hg with hg | hg
    · exact h.coherent.flows f g hf hg heq
    · exact hknown g hg f hf heq
    · exact (hknown f hf g hg heq.symm).symm
    · rw [hf] at hg
      exact Option.some.inj hg
  · exact synsOf_append_singleton (h.coherent.queued f hf) (hqueued f hf)
  · -- two SYNs for one port: both new, both old, or one of each
    rcases List.mem_append.mp hy with hy | hy
    · refine synsOf_append_singleton (h.coherent.syns y hy hsyn f hf) fun z hz hz' g hg hport => ?_
      rw [List.mem_singleton.mp hz] at hz' hg
      exact (hsyns hz' g hg y hy hsyn f hf hport.symm).symm
    · rw [List.mem_singleton.mp hy] at hsyn hf
      refine synsOf_append_singleton (hsyns hsyn f hf) fun z hz hz' g hg hport => ?_
      rw [List.mem_singleton.mp hz,hf] at hg
      exact (Option.some.inj hg).symm

theorem mem_knownFlows :
    f ∈ knownFlows s ↔ Known (inFlight s) s.pending s.active (queuedFlows s.queue) f := by
  have hactive : f ∈ activeFlows s ↔ ∃ h conn, s.active.get h = some conn ∧ conn.flow = f := by
    simp only [activeFlows,List.mem_map,Prod.exists,Table.mem_toList]
  have hpending : f ∈ pendingFlows s ↔ ∃ p ∈ s.pending, p.flow = f := List.mem_map
  simp only [knownFlows,Known,Connected,List.mem_append,List.mem_filterMap,hactive,hpending,
    or_assoc]

theorem queuedFlows_append (queue commands : List PollCommand) :
    queuedFlows (queue++commands) = queuedFlows queue++queuedFlows commands :=
  List.filterMap_append

theorem queuedPackets_append (queue : List PollCommand) (f : Flow) :
    queuedPackets (queue++[.createTcpSocket f]) = queuedPackets queue := by
  simp [queuedPackets]

theorem Inv.announce (h : Inv api flight s)
    (hknown : ∀ g, Known flight s.pending s.active (queuedFlows s.queue) g →
      g.triple = f.triple → g = f) (hsyns : SynsOf f flight) :
    Inv api flight (trySend s (.createTcpSocket f)) := by
  simp only [trySend]
  split
  · refine ⟨h.owned,⟨fun g g' hg hg' heq => ?_,fun g hg => ?_,h.coherent.syns⟩,h.tx,h.delivered⟩
    · have hsplit : ∀ g, Known flight s.pending s.active
          (queuedFlows (s.queue++[.createTcpSocket f])) g →
          Known flight s.pending s.active (queuedFlows s.queue) g ∨ g = f := by
        rintro g (hc | hc | hc)
        · exact .inl (.inl hc)
        · rw [queuedFlows_append] at hc
          rcases List.mem_append.mp hc with hc | hc
          · exact .inl (.inr (.inl hc))
          · exact .inr (List.mem_singleton.mp hc)
        · exact .inl (.inr (.inr hc))
      rcases hsplit g hg with hold | hnew <;> rcases hsplit g' hg' with hold' | hnew'
      · exact h.coherent.flows g g' hold hold' heq
      · rw [hnew'] at heq ⊢
        exact hknown g hold heq
      · rw [hnew] at heq ⊢
        exact (hknown g' hold' heq.symm).symm
      · rw [hnew,hnew']
    · rw [queuedFlows_append] at hg
      rcases List.mem_append.mp hg with hg | hg
      · exact h.coherent.queued g hg
      · rw [List.mem_singleton.mp hg]
        exact hsyns
  · exact h

theorem announceSyn_eq (s : Forwarder τ) (payload : List UInt8) :
    announceSyn s payload = match sentFlow payload with
      | some (t,f) => if t.isSyn then trySend s (.createTcpSocket f) else s
      | none => s := by
  simp only [announceSyn,parseTcpHeader,sentFlow]
  cases parseIpv4TcpTupleFlags payload with
  | none => rfl
  | some t => cases hsyn : t.isSyn <;> simp [hsyn]

/-- Asking for a socket changes nothing but the commands in the queue. -/
theorem announceSyn_keeps (s : Forwarder τ) (payload : List UInt8) :
    (announceSyn s payload).rx = s.rx ∧ (announceSyn s payload).pending = s.pending ∧
      (announceSyn s payload).active = s.active ∧ (announceSyn s payload).sockets = s.sockets ∧
      queuedPackets (announceSyn s payload).queue = queuedPackets s.queue ∧
      ∀ g ∈ queuedFlows (announceSyn s payload).queue, g ∈ queuedFlows s.queue ∨
        ∃ t, sentFlow payload = some (t,g) := by
  rw [announceSyn_eq]
  split
  · next t f hsent =>
    split
    · simp only [trySend]
      split
      · refine ⟨rfl,rfl,rfl,rfl,queuedPackets_append _ _,fun g hg => ?_⟩
        rw [queuedFlows_append] at hg
        rcases List.mem_append.mp hg with hold | hnew
        · exact .inl hold
        · rw [List.mem_singleton.mp hnew]
          exact .inr ⟨t,hsent⟩
      · exact ⟨rfl,rfl,rfl,rfl,rfl,fun g hg => .inl hg⟩
    · exact ⟨rfl,rfl,rfl,rfl,rfl,fun g hg => .inl hg⟩
  · exact ⟨rfl,rfl,rfl,rfl,rfl,fun g hg => .inl hg⟩

theorem Inv.announceSyn (h : Inv api (inFlight s) s) (hg : Separate api s (.ingest payload)) :
    Inv api (inFlight s) (announceSyn s payload) := by
  rw [announceSyn_eq]
  split
  · next t f hsent =>
    obtain ⟨hknown,hsyn⟩ := hg (t,f) hsent
    split
    · next ht => exact h.announce (fun g hg => hknown g (mem_knownFlows.mpr hg)) (hsyn ht).2.2
    · exact h
  · exact h

/-- The first part of a call keeps the invariant if its packet keeps apart from the others. -/
theorem Inv.beginIngest (h : Inv api (inFlight s) s) (hcaller : s.caller = none)
    (hg : Separate api s (.ingest payload)) :
    Inv api (inFlight (beginIngest s payload)) (beginIngest s payload) := by
  simp only [SmoltcpForwarder.beginIngest]
  split
  · exact h
  · split
    · have hannounced := h.announceSyn hg
      obtain ⟨hrx,hpend,hact,hsock,hqueue,hnew⟩ := announceSyn_keeps s payload
      have hflight : inFlight {SmoltcpForwarder.announceSyn s payload with caller := some payload} =
          inFlight s++(injected payload).toList := by
        simp only [inFlight,hrx,hqueue,hcaller]
        simp
      have harrived : Inv api (inFlight s++(injected payload).toList)
          (SmoltcpForwarder.announceSyn s payload) := by
        cases hx : injected payload with
        | none => simpa using hannounced
        | some x =>
          obtain ⟨hflow,hsyn⟩ := injected_flow hx
          -- what the condition says, for the flow of the packet on its way
          have hsent : ∀ f, packetFlow x = some f → ∃ t, sentFlow payload = some (t,f) ∧
              isSynPacket x = t.isSyn := by
            intro f hf
            rw [hflow] at hf
            obtain ⟨⟨t,f'⟩,hs,rfl⟩ := Option.map_eq_some_iff.mp hf
            exact ⟨t,hs,by rw [hsyn,hs]; rfl⟩
          refine hannounced.arrive (fun f hf g hknown htriple => ?_)
            (fun p hp slot hslot hmay => ?_) (fun g hqueued => ?_) fun hs f hf => ?_
          · obtain ⟨t,ht,-⟩ := hsent f hf
            rw [hpend,hact] at hknown
            rcases hknown with hc | hc | hc
            · exact (hg (t,f) ht).1 g (mem_knownFlows.mpr (.inl hc)) htriple
            · rcases hnew g hc with hold | ⟨t',ht'⟩
              · exact (hg (t,f) ht).1 g (mem_knownFlows.mpr (.inr (.inl hold))) htriple
              · rw [ht] at ht'
                cases ht'
                rfl
            · exact (hg (t,f) ht).1 g (mem_knownFlows.mpr (.inr (.inr hc))) htriple
          · intro y hy hysyn f hf hport
            rw [List.mem_singleton.mp hy] at hysyn hf
            obtain ⟨t,ht,hts⟩ := hsent f hf
            rw [hpend] at hp
            rw [hsock] at hslot
            refine (((hg (t,f) ht).2 (hts ▸ hysyn)).1 p hp hport.symm ?_).symm
            simpa [mayListen,hslot] using hmay
          · intro y hy hysyn f hf hport
            rw [List.mem_singleton.mp hy] at hysyn hf
            obtain ⟨t,ht,hts⟩ := hsent f hf
            rcases hnew g hqueued with hold | ⟨t',ht'⟩
            · exact (((hg (t,f) ht).2 (hts ▸ hysyn)).2.1 g hold hport.symm).symm
            · rw [ht] at ht'
              cases ht'
              rfl
          · obtain ⟨t,ht,hts⟩ := hsent f hf
            exact ((hg (t,f) ht).2 (hts ▸ hs)).2.2
      rw [hflight]
      exact ⟨harrived.owned,harrived.coherent,harrived.tx,harrived.delivered⟩
    · exact h

/-- The second part: the packet goes into the queue, or it is dropped. -/
theorem Inv.endIngest (h : Inv api (inFlight s) s) :
    Inv api (inFlight (endIngest s)) (endIngest s) := by
  have hdropped : Inv api (s.rx++queuedPackets s.queue) s :=
    ⟨h.owned.fewer,h.coherent.subset (List.subset_append_left _ _),h.tx,h.delivered⟩
  simp only [SmoltcpForwarder.endIngest]
  split
  · next x hx =>
    simp only [trySend]
    split
    · have hflight : inFlight {s with queue := s.queue++[.injectPacket x], caller := none} =
          inFlight s := by simp [inFlight,hx,queuedPackets]
      have hflows : queuedFlows (s.queue++[.injectPacket x]) = queuedFlows s.queue := by
        simp [queuedFlows]
      rw [hflight]
      refine ⟨h.owned,?_,h.tx,h.delivered⟩
      simp only [hflows]
      exact h.coherent
    · have hflight : inFlight {s with caller := none} = s.rx++queuedPackets s.queue := by
        simp [inFlight]
      rw [hflight]
      exact ⟨hdropped.owned,hdropped.coherent,hdropped.tx,hdropped.delivered⟩
  · have hflight : inFlight {s with caller := none} = s.rx++queuedPackets s.queue := by
      simp [inFlight]
    rw [hflight]
    exact ⟨hdropped.owned,hdropped.coherent,hdropped.tx,hdropped.delivered⟩

theorem Owned.addSocket (laws : TcpLaws api) (h : Owned api flight waiting sockets conns)
    (hsyns : SynsOf f flight) : let added := addSocket ⟨api.listen f.dstPort,none,[]⟩ sockets
    Owned api flight (waiting++[⟨added.1,f⟩]) added.2 conns := by
  intro added
  obtain ⟨-,hadded⟩ := socketAt_addSocket (⟨api.listen f.dstPort,none,[]⟩ : Slot τ) sockets
  have hother : ∀ k slot, socketAt sockets k = some slot → socketAt added.2 k = some slot :=
    fun k slot hk => (addSocket_ne (by rw [hk]; rfl)).2.trans hk
  obtain ⟨hdistinct,hapart⟩ := addSocket_handles (⟨api.listen f.dstPort,none,[]⟩ : Slot τ) f
    (fun p hp => by obtain ⟨slot,hslot,-⟩ := h.pending p hp; rw [hslot]; rfl)
    (fun k c hc => by obtain ⟨slot,hslot,-⟩ := h.active k c hc; rw [hslot]; rfl)
    h.distinct h.apart
  have hlisten : api.state (api.listen f.dstPort) = .listen := laws.listen_state _
  refine ⟨fun p hp => ?_,fun k conn hconn => ?_,fun k slot hk => ?_,hdistinct,hapart⟩
  · rcases List.mem_append.mp hp with hp | hp
    · obtain ⟨slot,hslot,hok⟩ := h.pending p hp
      exact ⟨slot,hother _ _ hslot,hok⟩
    · rw [List.mem_singleton.mp hp]
      refine ⟨_,by rw [hadded,if_pos rfl],⟨?_,fun _ => hsyns,fun hr => ?_⟩⟩
      · exact ⟨laws.listen_port _,by simp [hlisten],fun _ => rfl,fun hne => absurd hlisten hne,
          fun hne => absurd hlisten hne,fun hne => absurd hlisten hne⟩
      · rw [hlisten] at hr; cases hr
  · obtain ⟨slot,hslot,hok⟩ := h.active k conn hconn
    exact ⟨slot,hother _ _ hslot,hok⟩
  · rw [hadded] at hk
    split at hk
    · next heq => exact .inl ⟨_,List.mem_append_right _ (List.mem_singleton_self _),heq.symm⟩
    · rcases h.owner k slot hk with ⟨p,hp,hpk⟩ | hconn
      · exact .inl ⟨p,List.mem_append_left _ hp,hpk⟩
      · exact .inr hconn

theorem Inv.takeCommand (laws : TcpLaws api) (h : Inv api (inFlight s) s)
    (ht : takeCommand api s = some t) : Inv api (inFlight t) t := by
  simp only [SmoltcpForwarder.takeCommand] at ht
  split at ht
  · cases ht
  · next x rest hqueue =>
    cases ht
    have hflight : inFlight {s with queue := rest, rx := s.rx++[x]} = inFlight s := by
      simp [inFlight,hqueue,queuedPackets]
    have hcoherent := h.coherent
    rw [hqueue] at hcoherent
    rw [hflight]
    exact ⟨h.owned,hcoherent,h.tx,h.delivered⟩
  · next f rest hqueue =>
    have hflows : queuedFlows s.queue = f::queuedFlows rest := by rw [hqueue]; rfl
    have hflight : queuedPackets s.queue = queuedPackets rest := by rw [hqueue]; rfl
    have hcoherent := h.coherent
    rw [hflows] at hcoherent
    have hsyns : SynsOf f (inFlight s) := hcoherent.queued f (by simp)
    cases ht
    simp only [createTcpSocket]
    split
    · have heq : inFlight {s with queue := rest} = inFlight s := by simp [inFlight,hflight]
      rw [heq]
      exact ⟨h.owned,hcoherent.known (fun _ hx => hx) (List.subset_cons_self _ _) (fun g => .inl),
        h.tx,h.delivered⟩
    · have hgrow : ∀ p : PendingTcpConn, ∀ g, Connected s.pending s.active g →
          Connected (s.pending++[p]) s.active g := by
        rintro p g (⟨q,hq,hqg⟩ | hc)
        · exact .inl ⟨q,List.mem_append_left _ hq,hqg⟩
        · exact .inr hc
      have heq : ∀ (sockets : List (Option (Slot τ))) (pending : List PendingTcpConn),
          inFlight {s with queue := rest, sockets := sockets, pending := pending} = inFlight s :=
        fun _ _ => by simp [inFlight,hflight]
      rw [heq]
      refine ⟨h.owned.addSocket laws hsyns,
        hcoherent.known (fun _ hx => hx) (List.subset_cons_self _ _) ?_,
        fun x hx g hg => ⟨hgrow _ g (h.tx x hx g hg).1,(h.tx x hx g hg).2⟩,h.delivered⟩
      rintro g (⟨q,hq,rfl⟩ | hc)
      · rcases List.mem_append.mp hq with hq | hq
        · exact .inl (.inl ⟨q,hq,rfl⟩)
        · rw [List.mem_singleton.mp hq]
          exact .inr (by simp)
      · exact .inl (.inr hc)

theorem originalSrc_unique {flows : List Flow} {triple : Ipv4Addr × ℕ × ℕ} {ip : Ipv4Addr}
    (h : originalSrc flows triple = .unique ip) :
    ∃ f ∈ flows, f.triple = triple ∧ f.originalDstIp = ip := by
  simp only [originalSrc] at h
  split at h
  · cases h
  · next f rest hfilter =>
    split at h
    · cases h
      obtain ⟨hf,htriple⟩ := List.mem_filter.mp (by rw [hfilter]; exact List.mem_cons_self)
      exact ⟨f,hf,by simpa using htriple,rfl⟩
    · cases h

theorem flowSource_connected {triple : Ipv4Addr × ℕ × ℕ} {ip : Ipv4Addr}
    (h : flowSource s triple = some ip) :
    ∃ f, Connected s.pending s.active f ∧ f.triple = triple ∧ f.originalDstIp = ip := by
  simp only [flowSource] at h
  split at h
  · next ip' hunique =>
    cases h
    obtain ⟨f,hf,hrest⟩ := originalSrc_unique hunique
    obtain ⟨⟨k,conn⟩,hconn,rfl⟩ := List.mem_map.mp hf
    exact ⟨conn.flow,.inr ⟨k,conn,(Table.mem_toList _ _ _).mp hconn,rfl⟩,hrest⟩
  · cases h
  · split at h
    · next ip' hunique =>
      cases h
      obtain ⟨f,hf,hrest⟩ := originalSrc_unique hunique
      obtain ⟨p,hp,rfl⟩ := List.mem_map.mp hf
      exact ⟨p.flow,.inl ⟨p,hp,rfl⟩,hrest⟩
    · cases h

theorem drainTx_inFlight (h : drainTx s = some t) : inFlight t = inFlight s := by
  simp only [SmoltcpForwarder.drainTx] at h
  split at h
  · cases h
  · split at h
    · cases h; rfl
    · split at h <;> (cases h; rfl)

theorem Inv.drainTx (h : Inv api flight s) (ht : drainTx s = some t) : Inv api flight t := by
  simp only [SmoltcpForwarder.drainTx] at ht
  split at ht
  · cases ht
  · next x rest htx =>
    have hrest : ∀ y ∈ rest, TxOk s.pending s.active y := fun y hy =>
      h.tx y (by rw [htx]; exact List.mem_cons_of_mem _ hy)
    split at ht
    · cases ht
      exact ⟨h.owned,h.coherent,hrest,h.delivered⟩
    · next ip hip =>
      split at ht
      · cases ht
        exact ⟨h.owned,h.coherent,hrest,h.delivered⟩
      · next payload hpayload =>
        cases ht
        refine ⟨h.owned,h.coherent,hrest,⟨h.delivered.bridge,h.delivered.sent,fun e he f hf => ?_⟩⟩
        rcases List.mem_append.mp he with he | he
        · exact h.delivered.emitted e he f hf
        · rw [List.mem_singleton.mp he] at hf ⊢
          obtain ⟨hconn,hlen,hversion,hihl,hdst,hport,hlocal⟩ :=
            h.tx x (by rw [htx]; exact List.mem_cons_self) f hf
          obtain ⟨triple,htriple,hsource⟩ := Option.bind_eq_some_iff.mp hip
          have hsame : triple = f.triple := by
            simp only [txTriple] at htriple
            rw [if_neg (by omega),hdst,hport,hlocal] at htriple
            exact (Option.some.inj htriple).symm
          obtain ⟨g,hg,hgtriple,rfl⟩ := flowSource_connected hsource
          have hgf : g = f := h.coherent.flows g f (.inl hg) (.inl hconn) (hgtriple.trans hsame)
          rw [hgf] at hpayload
          exact rewriteSrcIpOutbound_src (by omega) (by omega) hpayload

theorem Connected.perm {waiting' : List PendingTcpConn} (hperm : waiting'.Perm waiting)
    (h : Connected waiting' conns f) : Connected waiting conns f := by
  rcases h with ⟨p,hp,hf⟩ | hc
  · exact .inl ⟨p,hperm.mem_iff.mp hp,hf⟩
  · exact .inr hc

theorem Owned.perm {waiting' : List PendingTcpConn} (h : Owned api flight waiting sockets conns)
    (hperm : waiting'.Perm waiting) : Owned api flight waiting' sockets conns := by
  refine ⟨fun p hp => h.pending p (hperm.mem_iff.mp hp),h.active,fun k slot hk => ?_,
    (hperm.map _).nodup_iff.mpr h.distinct,fun p hp => h.apart p (hperm.mem_iff.mp hp)⟩
  rcases h.owner k slot hk with ⟨p,hp,hpk⟩ | hconn
  · exact .inl ⟨p,hperm.mem_iff.mpr hp,hpk⟩
  · exact .inr hconn

/-- What holds while the established connections `left` are being promoted. -/
structure Promoting (api : TcpApi τ) (flight : List Injected) (left : List PendingTcpConn) (s : Forwarder τ) :
    Prop where
  owned : Owned api flight (s.pending++left) s.sockets s.active
  coherent : Coherent flight (s.pending++left) s.active (queuedFlows s.queue)
  established : ∀ p ∈ left, ∀ slot, socketAt s.sockets p.handle = some slot →
    api.state slot.sock = .established
  delivered : Delivered s.active s.bridges s.emitted

theorem Promoting.promoteOne_eq {p : PendingTcpConn} (h : Promoting api flight (p::left) s) :
    SmoltcpForwarder.promoteOne s p = {s with
      promoted := p.handle::s.promoted
      nextConnId := succConnId s.nextConnId
      bridges := s.bridges++[⟨s.nextConnId,p.flow,[]⟩]
      active := s.active.set p.handle ⟨p.flow,s.bridges.length,[],none⟩} := by
  have hconflict : tupleConflict s p.flow = false := by
    rw [Bool.eq_false_iff]
    intro hc
    obtain ⟨f,hf,hne⟩ := List.any_eq_true.mp hc
    obtain ⟨⟨k,conn⟩,hconn,rfl⟩ := List.mem_map.mp hf
    simp only [decide_eq_true_eq] at hne
    have heq := h.coherent.flows conn.flow p.flow
      (.inl (.inr ⟨k,conn,(Table.mem_toList _ _ _).mp hconn,rfl⟩))
      (.inl (.inl ⟨p,by simp,rfl⟩)) hne.1
    exact hne.2 (by rw [heq])
  simp only [SmoltcpForwarder.promoteOne,hconflict,Bool.false_eq_true,if_false]

theorem Promoting.promoteOne {p : PendingTcpConn} (h : Promoting api flight (p::left) s) :
    Promoting api flight left (promoteOne s p) := by
  have hp : p ∈ s.pending++p::left := by simp
  have hleft : ∀ q ∈ s.pending++left, q ∈ s.pending++p::left := fun q hq => by
    rcases List.mem_append.mp hq with hq | hq <;> simp [hq]
  obtain ⟨slot,hslot,hok⟩ := h.owned.pending p hp
  have hstate := h.established p (by simp) slot hslot
  have hnodup : p.handle ∉ (s.pending++left).map PendingTcpConn.handle := by
    have hd := h.owned.distinct
    rw [List.map_append,List.map_cons,List.nodup_middle,List.nodup_cons] at hd
    rw [List.map_append]
    exact hd.1
  rw [h.promoteOne_eq]
  refine ⟨⟨fun q hq => h.owned.pending q (hleft q hq),fun k conn hconn => ?_,fun k t hk => ?_,?_,
    fun q hq => ?_⟩,?_,fun q hq => h.established q (by simp [hq]),⟨fun k conn hconn => ?_,?_,
      h.delivered.emitted⟩⟩
  · rw [Table.get_set] at hconn
    split at hconn
    · next hk =>
      cases hconn
      exact ⟨slot,hk ▸ hslot,hok.made,by simp [hstate],by simp [hstate]⟩
    · exact h.owned.active k conn hconn
  · rw [Table.get_set]
    by_cases hkp : k = p.handle
    · exact .inr ⟨_,by rw [if_pos hkp]⟩
    · rw [if_neg hkp]
      rcases h.owned.owner k t hk with ⟨q,hq,rfl⟩ | hconn
      · refine .inl ⟨q,?_,rfl⟩
        rcases List.mem_append.mp hq with hq | hq
        · exact List.mem_append_left _ hq
        · rcases List.mem_cons.mp hq with rfl | hq
          · exact absurd rfl hkp
          · exact List.mem_append_right _ hq
      · exact .inr hconn
  · exact h.owned.distinct.sublist
      (List.Sublist.map _ ((List.Sublist.refl _).append (List.sublist_cons_self _ _)))
  · rw [Table.get_set_ne fun heq => hnodup (List.mem_map.mpr ⟨q,hq,heq⟩)]
    exact h.owned.apart q (hleft q hq)
  · refine h.coherent.known (fun _ hx => hx) (fun _ hx => hx) ?_
    rintro f (⟨q,hq,rfl⟩ | ⟨k,conn,hconn,rfl⟩)
    · exact .inl (.inl ⟨q,hleft q hq,rfl⟩)
    · rw [Table.get_set] at hconn
      split at hconn
      · cases hconn
        exact .inl (.inl ⟨p,hp,rfl⟩)
      · exact .inl (.inr ⟨k,conn,hconn,rfl⟩)
  · rw [Table.get_set] at hconn
    split at hconn
    · cases hconn
      exact ⟨_,List.getElem?_concat_length,rfl⟩
    · obtain ⟨b,hb,hflow⟩ := h.delivered.bridge k conn hconn
      exact ⟨b,by rw [List.getElem?_append_left (List.getElem?_eq_some_iff.mp hb).1]; exact hb,hflow⟩
  · intro b hb chunk hchunk
    rcases List.mem_append.mp hb with hb | hb
    · exact h.delivered.sent b hb chunk hchunk
    · rw [List.mem_singleton.mp hb] at hchunk
      cases hchunk

theorem Promoting.all (h : Promoting api flight left s) :
    Promoting api flight [] (left.foldl SmoltcpForwarder.promoteOne s) := by
  induction left generalizing s with
  | nil => exact h
  | cons p left ih => exact ih h.promoteOne

theorem promoteOne_keeps (left : List PendingTcpConn) (s : Forwarder τ) :
    (left.foldl promoteOne s).tx = s.tx ∧ inFlight (left.foldl promoteOne s) = inFlight s := by
  induction left generalizing s with
  | nil => exact ⟨rfl,rfl⟩
  | cons p left ih =>
    have hone : (promoteOne s p).tx = s.tx ∧ inFlight (promoteOne s p) = inFlight s := by
      simp only [promoteOne]
      split <;> exact ⟨rfl,rfl⟩
    simp only [List.foldl_cons]
    rw [(ih _).1,(ih _).2]
    exact hone

theorem promote_perm (api : TcpApi τ) (s : Forwarder τ) :
    ((s.pending.filter fun p => ¬ isEstablished api s p)++
      (s.pending.filter (isEstablished api s)).reverse).Perm s.pending := by
  refine (List.Perm.append_left _ (List.reverse_perm _)).trans ?_
  refine List.perm_append_comm.trans ?_
  simpa using List.filter_append_perm (isEstablished api s) s.pending

theorem Inv.promoting (h : Inv api flight s) :
    Promoting api flight (s.pending.filter (isEstablished api s)).reverse
      {s with pending := s.pending.filter fun p => ¬ isEstablished api s p} := by
  refine ⟨h.owned.perm (promote_perm api s),?_,fun p hp slot hslot => ?_,h.delivered⟩
  · exact h.coherent.known (fun _ hx => hx) (fun _ hx => hx)
      fun f hf => .inl (hf.perm (promote_perm api s))
  · have hest := (List.mem_filter.mp (List.mem_reverse.mp hp)).2
    simp only [isEstablished,hslot,Option.any_some,decide_eq_true_eq] at hest
    exact hest.2

theorem Inv.promote (h : Inv api flight s) (htx : s.tx = []) : Inv api flight (promote api s) := by
  have hdone := h.promoting.all
  have hpending : (SmoltcpForwarder.promote api s).pending++[] =
      (SmoltcpForwarder.promote api s).pending := List.append_nil _
  refine ⟨hpending ▸ hdone.owned,hpending ▸ hdone.coherent,fun x hx => ?_,hdone.delivered⟩
  rw [SmoltcpForwarder.promote,(promoteOne_keeps _ _).1] at hx
  rw [show ({s with pending := _} : Forwarder τ).tx = s.tx from rfl,htx] at hx
  cases hx

/-- The record of a connection changes, but not its flow. -/
theorem Owned.setConn (h : Owned api flight waiting sockets conns) (hconn : conns.get k = some conn)
    (hflow : conn'.flow = conn.flow) : Owned api flight waiting sockets (conns.set k conn') := by
  refine ⟨h.pending,fun i c hc => ?_,fun i slot hi => ?_,h.distinct,fun p hp => ?_⟩
  · rw [Table.get_set] at hc
    split at hc
    · next hik =>
      cases hc
      rw [hik,hflow]
      exact h.active k conn hconn
    · exact h.active i c hc
  · rcases h.owner i slot hi with hp | ⟨c,hc⟩
    · exact .inl hp
    · rw [Table.get_set]
      split
      · exact .inr ⟨_,rfl⟩
      · exact .inr ⟨c,hc⟩
  · rw [Table.get_set_ne fun heq => by rw [← heq,h.apart p hp] at hconn; cases hconn]
    exact h.apart p hp

theorem Connected.setConn (hconn : conns.get k = some conn) (hflow : conn'.flow = conn.flow)
    (h : Connected waiting (conns.set k conn') f) : Connected waiting conns f := by
  rcases h with hp | ⟨i,c,hc,rfl⟩
  · exact .inl hp
  · rw [Table.get_set] at hc
    split at hc
    · cases hc
      exact .inr ⟨k,conn,hconn,hflow.symm⟩
    · exact .inr ⟨i,c,hc,rfl⟩

theorem Delivered.send {bridges : List Bridge} {frames : List Emitted}
    (h : Delivered conns bridges frames) {chunk : Chunk} (hconn : conns.get k = some conn)
    (hchunk : ∀ ip ∈ chunk.origins, ip = conn.flow.originalDstIp) :
    Delivered conns (sendToBridge bridges conn.bridge chunk) frames := by
  by_cases hempty : chunk.bytes = []
  · rw [sendToBridge,if_pos hempty]
    exact h
  have hget : ∀ i, (sendToBridge bridges conn.bridge chunk)[i]? =
      (bridges[i]?).map fun b => if conn.bridge = i then {b with sent := b.sent++[chunk]} else b := by
    intro i
    rw [sendToBridge,if_neg hempty,List.getElem?_modify]
    by_cases hi : conn.bridge = i <;> simp [hi]
  refine ⟨fun i c hc => ?_,fun b hb piece hpiece => ?_,h.emitted⟩
  · obtain ⟨b,hb,hflow⟩ := h.bridge i c hc
    rw [hget,hb]
    refine ⟨_,rfl,?_⟩
    split <;> exact hflow
  · obtain ⟨i,hi⟩ := List.mem_iff_getElem?.mp hb
    rw [hget] at hi
    obtain ⟨b',hb',heq⟩ := Option.map_eq_some_iff.mp hi
    have hold := h.sent b' (List.mem_of_getElem? hb')
    split at heq
    · next hbridge =>
      subst heq
      rcases List.mem_append.mp hpiece with hpiece | hpiece
      · exact hold piece hpiece
      · rw [List.mem_singleton.mp hpiece]
        obtain ⟨b,hbget,hflow⟩ := h.bridge k conn hconn
        rw [hbridge,hb'] at hbget
        cases hbget
        rw [hflow]
        exact hchunk
    · subst heq
      exact hold piece hpiece

theorem Delivered.setConn {bridges : List Bridge} {frames : List Emitted}
    (h : Delivered conns bridges frames) (hconn : conns.get k = some conn)
    (hflow : conn'.flow = conn.flow) (hbridge : conn'.bridge = conn.bridge) :
    Delivered (conns.set k conn') bridges frames := by
  refine ⟨fun i c hc => ?_,h.sent,h.emitted⟩
  rw [Table.get_set] at hc
  split at hc
  · cases hc
    rw [hflow,hbridge]
    exact h.bridge k conn hconn
  · exact h.bridge i c hc

/-- Serving a connection moves bytes of its own flow only. -/
theorem Inv.serviceOne (laws : TcpLaws api) (h : Inv api flight s) (htx : s.tx = [])
    (replies : ℕ → List (List UInt8)) (k : ℕ) : Inv api flight (serviceOne api replies s k) := by
  simp only [SmoltcpForwarder.serviceOne]
  split
  · next conn slot hconn hslot =>
    obtain ⟨slot',hslot',hok⟩ := h.owned.active k conn hconn
    rw [hslot] at hslot'
    cases hslot'
    have hreceived : Quiet api slot.sock (receive api slot.sock).2 := by
      simp only [receive]
      split
      · exact laws.recv_quiet slot.sock
      · exact Quiet.refl api slot.sock
    have hquiet := hreceived.trans api (pumpFromBridge_quiet api laws
      (pumpFuel (conn.fromBridge++replies conn.bridge) conn.pendingFromBridge) _
      (conn.fromBridge++replies conn.bridge) conn.pendingFromBridge)
    have hnone : ∀ x ∈ s.tx, ∀ w c, TxOk w c x := fun x hx => by rw [htx] at hx; cases hx
    refine ⟨?_,?_,fun x hx => hnone x hx _ _,?_⟩
    · refine (h.owned.setSlot hslot _ (fun _ _ ht => ht) (fun f _ hp => hp.quiet hquiet)
        fun f _ ha => ha.quiet hquiet).setConn hconn rfl
    · refine h.coherent.known (fun _ hx => hx) (fun _ hx => hx) fun f hf => .inl ?_
      refine Connected.setConn hconn ?_ hf
      rfl
    · refine Delivered.setConn ?_ hconn ?_ ?_
      · exact h.delivered.send hconn (hok.made.handed hok.listening)
      · rfl
      · rfl
  · exact h

variable (api) in
theorem serviceOne_keeps (replies : ℕ → List (List UInt8)) (s : Forwarder τ) (k : ℕ) :
    (serviceOne api replies s k).tx = s.tx ∧ inFlight (serviceOne api replies s k) = inFlight s := by
  simp only [serviceOne]
  split <;> exact ⟨rfl,rfl⟩

theorem Inv.serviceAll (laws : TcpLaws api) (replies : ℕ → List (List UInt8)) (ks : List ℕ)
    (h : Inv api flight s) (htx : s.tx = []) :
    let t := ks.foldl (SmoltcpForwarder.serviceOne api replies) s
    Inv api flight t ∧ t.tx = [] ∧ inFlight t = inFlight s := by
  induction ks generalizing s with
  | nil => exact ⟨h,htx,rfl⟩
  | cons k ks ih =>
    obtain ⟨htx',hflight⟩ := serviceOne_keeps api replies s k
    obtain ⟨hdone,hnone,hsame⟩ := ih (h.serviceOne laws htx replies k) (htx'.trans htx)
    exact ⟨hdone,hnone,hsame.trans hflight⟩

theorem socketAt_set_none (sockets : List (Option (Slot τ))) (h k : ℕ) :
    socketAt (sockets.set h none) k = if k = h then none else socketAt sockets k := by
  simp only [socketAt,List.getD_eq_getElem?_getD,List.getElem?_set]
  by_cases hk : k = h
  · subst hk
    by_cases hlt : k < sockets.length <;> simp [hlt]
  · simp [hk,Ne.symm hk]

theorem Inv.removeOne (h : Inv api flight s) (htx : s.tx = [])
    (hpending : ∀ p ∈ s.pending, p.handle ≠ k) : Inv api flight (removeOne s k) := by
  have hconn : ∀ i conn, (s.active.remove k).get i = some conn →
      i ≠ k ∧ s.active.get i = some conn := by
    intro i conn hi
    rw [Table.get_remove] at hi
    split at hi
    · cases hi
    · next hne => exact ⟨hne,hi⟩
  refine ⟨⟨fun p hp => ?_,fun i conn hi => ?_,fun i slot hi => ?_,h.owned.distinct,fun p hp => ?_⟩,
    ?_,fun x hx => ?_,⟨fun i conn hi => h.delivered.bridge i conn (hconn i conn hi).2,
      h.delivered.sent,h.delivered.emitted⟩⟩
  · obtain ⟨slot,hslot,hok⟩ := h.owned.pending p hp
    exact ⟨slot,by simp only [SmoltcpForwarder.removeOne]; rw [socketAt_set_none,if_neg (hpending p hp),hslot],hok⟩
  · obtain ⟨hne,hold⟩ := hconn i conn hi
    obtain ⟨slot,hslot,hok⟩ := h.owned.active i conn hold
    exact ⟨slot,by simp only [SmoltcpForwarder.removeOne]; rw [socketAt_set_none,if_neg hne,hslot],hok⟩
  · simp only [SmoltcpForwarder.removeOne] at hi ⊢
    rw [socketAt_set_none] at hi
    split at hi
    · cases hi
    · next hne =>
      rw [Table.get_remove_ne hne]
      exact h.owned.owner i slot hi
  · simp only [SmoltcpForwarder.removeOne]
    rw [Table.get_remove]
    split
    · rfl
    · exact h.owned.apart p hp
  · refine h.coherent.known (fun _ hx => hx) (fun _ hx => hx) fun f hf => .inl ?_
    rcases hf with hp | ⟨i,conn,hi,rfl⟩
    · exact .inl hp
    · exact .inr ⟨i,conn,(hconn i conn hi).2,rfl⟩
  · rw [show (SmoltcpForwarder.removeOne s k).tx = s.tx from rfl,htx] at hx
    cases hx

theorem Inv.removeAll (ks : List ℕ) (h : Inv api flight s) (htx : s.tx = [])
    (hpending : ∀ k ∈ ks, ∀ p ∈ s.pending, p.handle ≠ k) :
    let t := ks.foldl SmoltcpForwarder.removeOne s
    Inv api flight t ∧ t.tx = [] ∧ inFlight t = inFlight s := by
  induction ks generalizing s with
  | nil => exact ⟨h,htx,rfl⟩
  | cons k ks ih =>
    exact ih (h.removeOne htx (hpending k (by simp))) htx
      fun k' hk' => hpending k' (by simp [hk'])

theorem Inv.removeClosed (h : Inv api flight s) (htx : s.tx = []) :
    Inv api flight (removeClosed api s) ∧ inFlight (removeClosed api s) = inFlight s := by
  obtain ⟨hdone,-,hflight⟩ := h.removeAll ((handles s).filter (isClosed api s)) htx (by
    intro k hk p hp heq
    obtain ⟨⟨i,conn⟩,hconn,rfl⟩ := List.mem_map.mp (List.mem_filter.mp hk).1
    have hnone := h.owned.apart p hp
    rw [heq,(Table.mem_toList _ _ _).mp hconn] at hnone
    cases hnone)
  exact ⟨⟨hdone.owned,hdone.coherent,hdone.tx,hdone.delivered⟩,hflight⟩

variable (api) in
theorem promote_keeps (s : Forwarder τ) :
    (promote api s).tx = s.tx ∧ inFlight (promote api s) = inFlight s :=
  promoteOne_keeps (s.pending.filter (isEstablished api s)).reverse
    {s with pending := s.pending.filter fun p => ¬ isEstablished api s p}

theorem Inv.service (laws : TcpLaws api) (h : Inv api flight s) (htx : s.tx = [])
    (replies : ℕ → List (List UInt8)) :
    Inv api flight (service api replies s) ∧ (service api replies s).tx = [] ∧
      inFlight (service api replies s) = inFlight s :=
  h.serviceAll laws replies (handles s) htx

theorem Inv.finish (laws : TcpLaws api) (h : Inv api (inFlight s) s) (htx : s.tx = [])
    (replies : ℕ → List (List UInt8)) :
    Inv api (inFlight (finish api replies s)) (finish api replies s) := by
  obtain ⟨htx',hflight⟩ := promote_keeps api s
  have hpromoted := h.promote htx
  simp only [SmoltcpForwarder.finish]
  generalize SmoltcpForwarder.promote api s = promoted at htx' hflight hpromoted
  obtain ⟨hserved,hnone,hflight'⟩ := hpromoted.service laws (htx'.trans htx) replies
  generalize SmoltcpForwarder.service api replies promoted = served at hserved hnone hflight'
  obtain ⟨hremoved,hflight''⟩ := hserved.removeClosed hnone
  generalize SmoltcpForwarder.removeClosed api served = removed at hremoved hflight''
  have hsame : inFlight {removed with phase := .drain} = inFlight s :=
    hflight''.trans (hflight'.trans hflight)
  rw [hsame]
  exact ⟨hremoved.owned,hremoved.coherent,hremoved.tx,hremoved.delivered⟩

theorem Inv.step (laws : TcpLaws api) {e : Event} (h : Inv api (inFlight s) s)
    (hg : Separate api s e) (ht : step api s e = some t) : Inv api (inFlight t) t := by
  cases e with
  | ingest payload =>
    simp only [SmoltcpForwarder.step] at ht
    split at ht
    · next hcaller => cases ht; exact h.beginIngest hcaller hg
    · cases ht
  | inject =>
    simp only [SmoltcpForwarder.step] at ht
    split at ht
    · cases ht
    · cases ht; exact h.endIngest
  | command =>
    simp only [SmoltcpForwarder.step] at ht
    split at ht
    · exact h.takeCommand laws ht
    · cases ht
  | poll now rounds =>
    simp only [SmoltcpForwarder.step] at ht
    split at ht
    · cases ht
      have hpolled := h.pollStack laws now rounds
      exact ⟨hpolled.owned,hpolled.coherent,hpolled.tx,hpolled.delivered⟩
    · cases ht
  | emit =>
    simp only [SmoltcpForwarder.step] at ht
    split at ht
    · rw [drainTx_inFlight ht]
      exact h.drainTx ht
    · cases ht
  | finish replies =>
    simp only [SmoltcpForwarder.step] at ht
    split at ht
    · next hphase => cases ht; exact h.finish laws hphase.2 replies
    · cases ht

theorem inv_new : Inv api (inFlight (new τ)) (new τ) := by
  refine ⟨⟨by simp [new],by simp [new],fun h slot hs => ?_,by simp [new],by simp [new]⟩,
    ⟨fun f g hf => ?_,by simp [new,queuedFlows],by simp [new,inFlight,queuedPackets]⟩,by simp [new],
    ⟨by simp [new],by simp [new],by simp [new]⟩⟩
  · simp [new,socketAt] at hs
  · simp [new,Known,Connected,inFlight,queuedPackets,queuedFlows] at hf

theorem Inv.isolated (h : Inv api flight s) : Isolated s := by
  refine ⟨fun k conn hconn => ?_,h.delivered.sent,h.delivered.emitted⟩
  obtain ⟨slot,hslot,hok⟩ := h.owned.active k conn hconn
  exact ⟨slot,hslot,hok.made.accepted hok.listening⟩

end Steps

/-- Flows stay apart in every run in which every packet keeps apart from the flows that are
known when it comes in. -/
theorem isolated_of_separate {τ : Type} (api : TcpApi τ) (laws : TcpLaws api) (es : List Event)
    (h : Meets (step api) (Separate api) (new τ) es) :
    Along (step api) Isolated (new τ) es := by
  intro done t hdone ht
  obtain ⟨rest,rfl⟩ := hdone
  have hinv : Inv api (inFlight t) t := exec_invariant (I := fun s => Inv api (inFlight s) s)
    (fun s e u hs hg hu => hs.step laws hg hu) inv_new (meets_append ht h).1 ht
  exact hinv.isolated

/-- A packet is taken in and the loop goes round once: commands, stack, frames, bridges. -/
def turn (payload : List UInt8) (commands frames : ℕ) : List Event :=
  [.ingest payload,.inject]++List.replicate commands .command++[.poll 0 1]++
    List.replicate frames .emit++[.finish fun _ => []]

/-- Two connections to one port of two hosts, the second opened once the first is accepted. -/
def separateRun : List Event :=
  turn (syn flowA) 2 1++turn (acked flowA [1,2]) 1 0++turn (syn flowB) 2 1++
    turn (acked flowB [7]) 1 0

theorem isolated_two_hosts_one_port :
    ((exec (step toyTcp) (new ToySocket) separateRun).map Forwarder.bridges =
      some [⟨1,flowA,[⟨[1,2],[⟨1,1,1,1⟩,⟨1,1,1,1⟩]⟩]⟩,⟨2,flowB,[⟨[7],[⟨2,2,2,2⟩,⟨2,2,2,2⟩]⟩]⟩]) ∧
    Along (step toyTcp) Isolated (new ToySocket) separateRun :=
  ⟨by decide +kernel,isolated_of_separate toyTcp toyTcp_laws separateRun (by decide +kernel)⟩

/-- The SYN of the first flow is sent twice and leaves a second socket listening for it. -/
def repeatedSynRun : List Event :=
  turn (syn flowA) 2 1++turn (syn flowA) 2 1++turn (syn flowB) 2 2++turn (acked flowB [7,8]) 1 1

/-- The spare socket of the first flow accepts the SYN of the second, whose bytes are then
written to the destination of the first. -/
theorem repeated_syn_bridges_to_wrong_host :
    ∃ s, TcpLaws toyTcp ∧ exec (step toyTcp) (new ToySocket) repeatedSynRun = some s ∧
      s.bridges = [⟨1,flowA,[⟨[7,8],[⟨2,2,2,2⟩,⟨2,2,2,2⟩]⟩]⟩] ∧ ¬ Isolated s := by
  have hrun : (exec (step toyTcp) (new ToySocket) repeatedSynRun).map Forwarder.bridges =
      some [⟨1,flowA,[⟨[7,8],[⟨2,2,2,2⟩,⟨2,2,2,2⟩]⟩]⟩] := by decide +kernel
  obtain ⟨s,hs,hbridges⟩ := Option.map_eq_some_iff.mp hrun
  refine ⟨s,toyTcp_laws,hs,hbridges,fun hisolated => ?_⟩
  have hsent := hisolated.bridged
  simp [hbridges,flowA] at hsent

end Bonded.FlowIsolation
