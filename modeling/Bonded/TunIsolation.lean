import Bonded.TunBridge

/-! Return traffic of one session of the TUN bridge, with and without the packets of
another session. -/
namespace Bonded.TunIsolation

open Machine Session Packet TunBridge

/-- The source addresses session `a` submits packets from. -/
def sourceIps (a : UInt64) (events : List Event) : List Ipv4Addr :=
  events.filterMap fun
    | .submit c frame => if c = a then (parseIpv4SrcDst frame.payload).map Prod.fst else none
    | _ => none

/-- The events that remain when session `b` submits nothing and only the packets addressed
to `ips` are read from the device. -/
def observes (b : UInt64) (ips : List Ipv4Addr) : Event → Bool
  | .submit c _ => c ≠ b
  | .write pkt _ => pkt.sessionId ≠ b
  | .read packet =>
    match parseIpv4SrcDst packet with
    | some (_,dst) => dst ∈ ips
    | none => false
  | _ => true

/-- The return frames delivered to a session. -/
def framesTo (a : UInt64) (s : BridgeSystem) : List Delivery :=
  s.delivered.filter fun d => d.sessionId = a

/-- The condition on the packets of `b`: when one is written to the device, the write
succeeds and its source is not an address that is routed to `a`. -/
def LeavesAlone (a b : UInt64) (s : BridgeSystem) : Event → Prop
  | .write pkt writeOk => pkt.sessionId = b → ∀ r, parseIpv4SrcDst pkt.payload = some r →
      writeOk = true ∧ (s.state.sessions.contains b = true → s.state.ipToSession.get r.1 ≠ some a)
  | _ => True

instance (a b : UInt64) (s : BridgeSystem) (e : Event) : Decidable (LeavesAlone a b s e) := by
  cases e <;> unfold LeavesAlone <;> infer_instance

/-- Session `a` submits packets only from the addresses `ips`. -/
def OwnSources (a : UInt64) (ips : List Ipv4Addr) (e : Event) : Prop :=
  ∀ frame r, e = .submit a frame → parseIpv4SrcDst frame.payload = some r → r.1 ∈ ips

/-- What session `a` can tell about the bridge is the same in `s` and in `u`, where `u` has
none of the packets of `b`. -/
structure SameFor (a b : UInt64) (ips : List Ipv4Addr) (s u : BridgeSystem) : Prop where
  txs : ∀ c, (s.state.sessions.get c).map (·.tx) = (u.state.sessions.get c).map (·.tx)
  own : s.state.sessions.get a = u.state.sessions.get a
  routed : ∀ ip, s.state.ipToSession.get ip = some a ↔ u.state.ipToSession.get ip = some a
  queue : u.queue = s.queue.filter fun p => p.sessionId ≠ b
  writer : s.writerAlive = u.writerAlive
  reader : s.readerAlive = u.readerAlive
  closed : s.closed = u.closed
  frames : framesTo a s = framesTo a u
  sources : ∀ ip, s.state.ipToSession.get ip = some a → ip ∈ ips
  pending : ∀ p ∈ s.queue, p.sessionId = a → ∀ r, parseIpv4SrcDst p.payload = some r → r.1 ∈ ips
  receivers : ∀ c r, s.state.sessions.get c = some r → r.tx ∉ s.closed

section Steps

variable {a b : UInt64} {ips : List Ipv4Addr} {s u : BridgeSystem}

section

variable (h : SameFor a b ips s u)
include h

/-- Popping a packet of another session than `b` from both queues. -/
theorem SameFor.pop {pkt : OutboundPacket}
    (hhead : s.queue.head? = some pkt) (hb : pkt.sessionId ≠ b) :
    u.queue.head? = some pkt ∧
      SameFor a b ips {s with queue := s.queue.tail} {u with queue := u.queue.tail} := by
  obtain ⟨rest,hrest⟩ := List.head?_eq_some_iff.mp hhead
  have hu : u.queue = pkt::rest.filter fun p => p.sessionId ≠ b := by
    rw [h.queue,hrest,List.filter_cons_of_pos (by simpa using hb)]
  refine ⟨by rw [hu]; rfl,h.txs,h.own,h.routed,?_,h.writer,h.reader,h.closed,h.frames,
    h.sources,?_,h.receivers⟩
  · simp only [hu,hrest,List.tail_cons]
  · intro p hp
    exact h.pending p (List.mem_of_mem_tail hp)

/-- Popping a packet of `b`. -/
theorem SameFor.popOther {pkt : OutboundPacket}
    (hhead : s.queue.head? = some pkt) (hb : pkt.sessionId = b) :
    SameFor a b ips {s with queue := s.queue.tail} u := by
  obtain ⟨rest,hrest⟩ := List.head?_eq_some_iff.mp hhead
  refine ⟨h.txs,h.own,h.routed,?_,h.writer,h.reader,h.closed,h.frames,h.sources,?_,h.receivers⟩
  · rw [h.queue,hrest,List.filter_cons_of_neg (by simpa using hb)]
    rfl
  · intro p hp
    exact h.pending p (List.mem_of_mem_tail hp)

/-- Changing the routes on one or both sides. -/
theorem SameFor.routes {p q : TunBridgeState}
    (htx : ∀ c, (p.sessions.get c).map (·.tx) = (q.sessions.get c).map (·.tx))
    (hown : p.sessions.get a = q.sessions.get a)
    (hrouted : ∀ ip, p.ipToSession.get ip = some a ↔ q.ipToSession.get ip = some a)
    (hsources : ∀ ip, p.ipToSession.get ip = some a → ip ∈ ips)
    (hreceivers : ∀ c r, p.sessions.get c = some r → r.tx ∉ s.closed) :
    SameFor a b ips {s with state := p} {u with state := q} :=
  ⟨htx,hown,hrouted,h.queue,h.writer,h.reader,h.closed,h.frames,hsources,h.pending,hreceivers⟩

theorem SameFor.setWriter (alive : Bool) :
    SameFor a b ips {s with writerAlive := alive} {u with writerAlive := alive} :=
  ⟨h.txs,h.own,h.routed,h.queue,rfl,h.reader,h.closed,h.frames,h.sources,h.pending,h.receivers⟩

omit h in
theorem rememberSource_tx (t : TunBridgeState) (pkt : OutboundPacket) (src : Ipv4Addr)
    (c : UInt64) : ((rememberSource t pkt src).sessions.get c).map (·.tx) =
      (t.sessions.get c).map (·.tx) := by
  rw [rememberSource_sessions]
  split
  · cases t.sessions.get c <;> rfl
  · rfl

theorem rememberSource_receivers (pkt : OutboundPacket)
    (src : Ipv4Addr) (c : UInt64) (r : SessionRoute)
    (hr : (rememberSource s.state pkt src).sessions.get c = some r) : r.tx ∉ s.closed := by
  have htx := rememberSource_tx s.state pkt src c
  rw [hr] at htx
  obtain ⟨r',hr',hrr⟩ := Option.map_eq_some_iff.mp htx.symm
  have hopen := h.receivers c r' hr'
  rwa [hrr] at hopen

theorem SameFor.write (pkt : OutboundPacket) (writeOk : Bool)
    (hsrc : pkt.sessionId = a → ∀ r, parseIpv4SrcDst pkt.payload = some r → r.1 ∈ ips) :
    SameFor a b ips (writePacket s pkt writeOk) (writePacket u pkt writeOk) := by
  have hreg : s.state.sessions.contains pkt.sessionId = u.state.sessions.contains pkt.sessionId := by
    have hc := congrArg Option.isSome (h.txs pkt.sessionId)
    simpa [Table.contains] using hc
  unfold writePacket
  split
  · exact h
  · next src dst hp =>
    have hstate := h.routes (p := rememberSource s.state pkt src)
      (q := rememberSource u.state pkt src)
      (fun c => by rw [rememberSource_tx,rememberSource_tx,h.txs c])
      (by rw [rememberSource_sessions,rememberSource_sessions,h.own])
      (fun ip => by
        rw [rememberSource_ips,rememberSource_ips,hreg]
        split
        · rfl
        · exact h.routed ip)
      (fun ip hip => by
        rw [rememberSource_ips] at hip
        split at hip
        · next hc => exact hc.2 ▸ hsrc (Option.some.inj hip) _ hp
        · exact h.sources ip hip)
      (rememberSource_receivers h pkt src)
    split
    · exact hstate
    · exact hstate.setWriter false

/-- Only the first bridge writes a packet, one of `b` that leaves the routes to `a` alone. -/
theorem SameFor.writeOther (hab : a ≠ b) (pkt : OutboundPacket)
    (writeOk : Bool) (hb : pkt.sessionId = b) (hg : ∀ r, parseIpv4SrcDst pkt.payload = some r →
      writeOk = true ∧ (s.state.sessions.contains b = true → s.state.ipToSession.get r.1 ≠ some a)) :
    SameFor a b ips (writePacket s pkt writeOk) u := by
  unfold writePacket
  split
  · exact h
  · next src dst hp =>
    obtain ⟨rfl,hroute⟩ := hg _ hp
    have hroutes : ∀ ip, (rememberSource s.state pkt src).ipToSession.get ip = some a ↔
        s.state.ipToSession.get ip = some a := by
      intro ip
      rw [rememberSource_ips,hb]
      split
      · next hc =>
        have hne := hroute hc.1
        simp only [← hc.2] at hne
        simp [Ne.symm hab,hne]
      · rfl
    simp only [if_true]
    refine h.routes (q := u.state) (fun c => by rw [rememberSource_tx,h.txs c]) ?_
      (fun ip => (hroutes ip).trans (h.routed ip)) (fun ip hip => h.sources ip ((hroutes ip).mp hip))
      (rememberSource_receivers h pkt src)
    rw [rememberSource_sessions,if_neg (by rw [hb]; exact hab),h.own]

end

/-- A step that session `a` cannot see. -/
structure Unseen (a : UInt64) (s t : BridgeSystem) : Prop where
  txs : ∀ c, (t.state.sessions.get c).map (·.tx) = (s.state.sessions.get c).map (·.tx)
  own : t.state.sessions.get a = s.state.sessions.get a
  routed : ∀ ip, t.state.ipToSession.get ip = some a ↔ s.state.ipToSession.get ip = some a
  queue : t.queue = s.queue
  writer : t.writerAlive = s.writerAlive
  reader : t.readerAlive = s.readerAlive
  closed : t.closed = s.closed
  frames : framesTo a t = framesTo a s

theorem Unseen.refl (a : UInt64) (s : BridgeSystem) : Unseen a s s :=
  ⟨fun _ => rfl,rfl,fun _ => Iff.rfl,rfl,rfl,rfl,rfl,rfl⟩

variable (h : SameFor a b ips s u)
include h

theorem SameFor.unseenLeft {t : BridgeSystem} (ht : Unseen a s t) :
    SameFor a b ips t u := by
  refine ⟨fun c => (ht.txs c).trans (h.txs c),ht.own.trans h.own,
    fun ip => (ht.routed ip).trans (h.routed ip),by rw [ht.queue,h.queue],ht.writer.trans h.writer,
    ht.reader.trans h.reader,ht.closed.trans h.closed,ht.frames.trans h.frames,
    fun ip hip => h.sources ip ((ht.routed ip).mp hip),by rw [ht.queue]; exact h.pending,?_⟩
  intro c r hr
  have htx := ht.txs c
  rw [hr] at htx
  obtain ⟨r',hr',hrr⟩ := Option.map_eq_some_iff.mp htx.symm
  have hopen := h.receivers c r' hr'
  rwa [hrr,← ht.closed] at hopen

theorem SameFor.unseenRight {v : BridgeSystem} (hv : Unseen a u v) :
    SameFor a b ips s v :=
  ⟨fun c => (h.txs c).trans (hv.txs c).symm,h.own.trans hv.own.symm,
    fun ip => (h.routed ip).trans (hv.routed ip).symm,hv.queue.trans h.queue,
    h.writer.trans hv.writer.symm,h.reader.trans hv.reader.symm,h.closed.trans hv.closed.symm,
    h.frames.trans hv.frames.symm,h.sources,h.pending,h.receivers⟩

omit h in
/-- Reading a packet that is not addressed to `a` goes unseen. -/
theorem readPacket_unseen {packet : List UInt8}
    (hdst : ∀ r, parseIpv4SrcDst packet = some r → s.state.ipToSession.get r.2 ≠ some a)
    (hopen : ∀ c r, s.state.sessions.get c = some r → r.tx ∉ s.closed) :
    Unseen a s (readPacket s packet) := by
  unfold readPacket
  split
  · exact .refl a s
  · next src dst hp =>
    have hne := hdst _ hp
    split
    · exact .refl a s
    · next c hc =>
      have hca : c ≠ a := fun h => hne (h ▸ hc)
      split
      · refine ⟨fun _ => rfl,rfl,fun ip => ?_,rfl,rfl,rfl,rfl,rfl⟩
        simp only [Table.get_remove]
        split
        · next hip => simp [hip,hne]
        · rfl
      · next route hroute =>
        simp only [if_neg (hopen c route hroute)]
        refine ⟨fun k => ?_,?_,fun _ => Iff.rfl,rfl,rfl,rfl,rfl,?_⟩
        · simp only [Table.get_set]
          split
          · next hk => simp [hk,hroute]
          · rfl
        · simp only [Table.get_set_ne (Ne.symm hca)]
        · simp [framesTo,hca]

theorem SameFor.receiversRight (c : UInt64) (r : SessionRoute)
    (hr : u.state.sessions.get c = some r) : r.tx ∉ u.closed := by
  have htx := h.txs c
  rw [hr] at htx
  obtain ⟨r',hr',hrr⟩ := Option.map_eq_some_iff.mp htx
  have hopen := h.receivers c r' hr'
  rwa [hrr,h.closed] at hopen

theorem SameFor.read (packet : List UInt8) :
    SameFor a b ips (readPacket s packet) (readPacket u packet) := by
  by_cases hdst : ∃ r, parseIpv4SrcDst packet = some r ∧ s.state.ipToSession.get r.2 = some a
  · obtain ⟨⟨src,dst⟩,hp,hs⟩ := hdst
    have hu := (h.routed dst).mp hs
    unfold readPacket
    simp only [hp,hs,hu,← h.own]
    split
    · next hnone =>
      refine h.routes h.txs h.own (fun ip => ?_) (fun ip hip => ?_) h.receivers
      · simp only [Table.get_remove]
        split
        · rfl
        · exact h.routed ip
      · simp only [Table.get_remove] at hip
        split at hip
        · cases hip
        · exact h.sources ip hip
    · next route hroute =>
      have hs' := h.receivers a route hroute
      simp only [if_neg hs',if_neg (h.closed ▸ hs')]
      refine ⟨fun c => ?_,?_,h.routed,h.queue,h.writer,h.reader,h.closed,?_,h.sources,h.pending,?_⟩
      · simp only [Table.get_set]
        split
        · rfl
        · exact h.txs c
      · simp only [Table.get_set_self]
      · have hf := h.frames
        simp only [framesTo] at hf
        simp [framesTo,hf]
      · intro c r hr
        simp only [Table.get_set] at hr
        split at hr
        · cases hr; exact hs'
        · exact h.receivers c r hr
  · have hs : ∀ r, parseIpv4SrcDst packet = some r → s.state.ipToSession.get r.2 ≠ some a :=
      fun r hr hc => hdst ⟨r,hr,hc⟩
    exact (h.unseenLeft (readPacket_unseen hs h.receivers)).unseenRight
      (readPacket_unseen (fun r hr hc => hs r hr ((h.routed r.2).mpr hc)) h.receiversRight)

theorem SameFor.register {c : UInt64} {tx : ℕ} (htx : tx ∉ s.closed) :
    SameFor a b ips {s with state := registerSession s.state c tx}
      {u with state := registerSession u.state c tx} := by
  refine h.routes (fun k => ?_) ?_ h.routed h.sources fun k r hr => ?_
  · simp only [registerSession,Table.get_set]
    split
    · rfl
    · exact h.txs k
  · simp only [registerSession,Table.get_set]
    split
    · rfl
    · exact h.own
  · simp only [registerSession,Table.get_set] at hr
    split at hr
    · cases hr; exact htx
    · exact h.receivers k r hr

theorem SameFor.unregister (c : UInt64) :
    SameFor a b ips {s with state := unregisterSession s.state c}
      {u with state := unregisterSession u.state c} := by
  refine h.routes (fun k => ?_) ?_ (fun ip => ?_) (fun ip hip => ?_) fun k r hr => ?_
  · simp only [unregisterSession,Table.get_remove]
    split
    · rfl
    · exact h.txs k
  · simp only [unregisterSession,Table.get_remove,h.own]
  · rw [unregisterSession_ips,unregisterSession_ips,h.routed ip]
  · exact h.sources ip ((unregisterSession_ips _ _ _ _).mp hip).2
  · simp only [unregisterSession,Table.get_remove] at hr
    split at hr
    · cases hr
    · exact h.receivers k r hr

theorem SameFor.submit {c : UInt64} (hc : c ≠ b) {frame : SessionFrame}
    (hsrc : c = a → ∀ r, parseIpv4SrcDst frame.payload = some r → r.1 ∈ ips) :
    SameFor a b ips (submitClientFrame s c frame) (submitClientFrame u c frame) := by
  unfold submitClientFrame
  by_cases hw : s.writerAlive = true
  · rw [if_pos hw,if_pos (h.writer ▸ hw)]
    refine ⟨h.txs,h.own,h.routed,?_,h.writer,h.reader,h.closed,h.frames,h.sources,?_,h.receivers⟩
    · simp [h.queue,hc]
    · intro p hp hpa
      rcases List.mem_append.mp hp with hp | hp
      · exact h.pending p hp hpa
      · obtain rfl := List.mem_singleton.mp hp
        exact hsrc hpa
  · rw [if_neg hw,if_neg (h.writer ▸ hw)]
    exact h

theorem SameFor.submitOther (hab : a ≠ b) (frame : SessionFrame) :
    SameFor a b ips (submitClientFrame s b frame) u := by
  unfold submitClientFrame
  split
  · refine ⟨h.txs,h.own,h.routed,?_,h.writer,h.reader,h.closed,h.frames,h.sources,?_,h.receivers⟩
    · simp [h.queue]
    · intro p hp hpa
      rcases List.mem_append.mp hp with hp | hp
      · exact h.pending p hp hpa
      · obtain rfl := List.mem_singleton.mp hp
        exact absurd hpa (Ne.symm hab)
  · exact h

theorem SameFor.dropReceiver {tx : ℕ} (hs : ¬ ∃ e ∈ s.state.sessions.toList, e.2.tx = tx) :
    (¬ ∃ e ∈ u.state.sessions.toList, e.2.tx = tx) ∧
      SameFor a b ips {s with closed := tx::s.closed} {u with closed := tx::u.closed} := by
  have hnone : ∀ c r, s.state.sessions.get c = some r → r.tx ≠ tx :=
    fun c r hr htx => hs ⟨(c,r),(Table.mem_toList _ _ _).mpr hr,htx⟩
  constructor
  · rintro ⟨⟨c,r⟩,hmem,htx⟩
    have hh := h.txs c
    rw [(Table.mem_toList _ _ _).mp hmem] at hh
    obtain ⟨r',hr',hrr⟩ := Option.map_eq_some_iff.mp hh
    exact hnone c r' hr' (hrr.trans htx)
  · refine ⟨h.txs,h.own,h.routed,h.queue,h.writer,h.reader,by simp only [h.closed],h.frames,
      h.sources,h.pending,fun c r hr => ?_⟩
    simp only [List.mem_cons,not_or]
    exact ⟨hnone c r hr,h.receivers c r hr⟩

end Steps

/-- An event that both runs share keeps the two bridges the same for `a`. -/
theorem sameFor_follow {a b : UInt64} {ips : List Ipv4Addr} (s u : BridgeSystem) (e : Event)
    (t : BridgeSystem) (h : SameFor a b ips s u) (hown : OwnSources a ips e)
    (hkeep : observes b ips e = true) (ht : step s e = some t) :
    ∃ v, step u e = some v ∧ SameFor a b ips t v := by
  cases e with
  | register c tx =>
    simp only [step] at ht ⊢
    split at ht
    · cases ht
    · next htx => cases ht; exact ⟨_,if_neg (h.closed ▸ htx),h.register htx⟩
  | unregister c => cases ht; exact ⟨_,rfl,h.unregister c⟩
  | submit c frame =>
    cases ht
    exact ⟨_,rfl,h.submit (by simpa [observes] using hkeep)
      fun hc r hr => hown frame r (by rw [hc]) hr⟩
  | write pkt writeOk =>
    simp only [step] at ht ⊢
    split at ht
    · next hen =>
      cases ht
      obtain ⟨hhead,hpop⟩ := h.pop hen.2 (by simpa [observes] using hkeep)
      refine ⟨_,if_pos ⟨h.writer ▸ hen.1,hhead⟩,hpop.write pkt writeOk ?_⟩
      exact h.pending pkt (List.mem_of_mem_head? hen.2)
    · cases ht
  | read packet =>
    simp only [step] at ht ⊢
    split at ht
    · next hen => cases ht; exact ⟨_,if_pos (h.reader ▸ hen),h.read packet⟩
    · cases ht
  | readFailed =>
    simp only [step] at ht ⊢
    split at ht
    · next hen =>
      cases ht
      exact ⟨_,if_pos (h.reader ▸ hen),h.txs,h.own,h.routed,h.queue,h.writer,rfl,h.closed,h.frames,h.sources,
        h.pending,h.receivers⟩
    · cases ht
  | dropReceiver tx =>
    simp only [step] at ht ⊢
    split at ht
    · cases ht
    · next hen =>
      cases ht
      exact ⟨_,if_neg (h.dropReceiver hen).1,(h.dropReceiver hen).2⟩

/-- An event that only the first run has goes unseen by `a`. -/
theorem sameFor_erase {a b : UInt64} (hab : a ≠ b) {ips : List Ipv4Addr} (s u : BridgeSystem)
    (e : Event) (t : BridgeSystem) (h : SameFor a b ips s u) (hg : LeavesAlone a b s e)
    (hkeep : observes b ips e = false) (ht : step s e = some t) : SameFor a b ips t u := by
  cases e with
  | submit c frame =>
    cases ht
    have hc : c = b := by simpa [observes] using hkeep
    exact hc ▸ h.submitOther hab frame
  | write pkt writeOk =>
    have hb : pkt.sessionId = b := by simpa [observes] using hkeep
    simp only [step] at ht
    split at ht
    · next hen =>
      cases ht
      exact (h.popOther hen.2 hb).writeOther hab pkt writeOk hb (hg hb)
    · cases ht
  | read packet =>
    simp only [step] at ht
    split at ht
    · cases ht
      refine h.unseenLeft (readPacket_unseen (fun r hr hc => ?_) h.receivers)
      have hin := h.sources r.2 hc
      simp [observes,hr,hin] at hkeep
    · cases ht
  | register c tx | unregister c | readFailed | dropReceiver tx => cases hkeep

theorem sameFor_start (a b : UInt64) (ips : List Ipv4Addr) : SameFor a b ips start start := by
  refine ⟨fun _ => rfl,rfl,fun _ => Iff.rfl,rfl,rfl,rfl,rfl,rfl,?_,?_,?_⟩
  · intro ip h; simp [start,TunBridge.new] at h
  · intro p hp; simp [start] at hp
  · intro c r h; simp [start,TunBridge.new] at h

/-- Without packets of `b` there is none to be written. -/
theorem leavesAlone_of_no_submit {a b : UInt64} {events : List Event} {s : BridgeSystem}
    (hnone : ∀ e ∈ events, ∀ frame, e ≠ .submit b frame) (hrun : exec step start events = some s) :
    Meets step (LeavesAlone a b) start events := by
  refine meets_of_invariant (I := fun s => ∀ p ∈ s.queue, p.sessionId ≠ b) ?_ (by simp [start])
    hnone hrun
  intro s e t hq hne ht
  cases e with
  | register c tx | dropReceiver tx =>
    simp only [step] at ht
    split at ht <;> cases ht
    exact ⟨hq,trivial⟩
  | unregister c => cases ht; exact ⟨hq,trivial⟩
  | submit c frame =>
    cases ht
    refine ⟨?_,trivial⟩
    have hc : c ≠ b := fun h => hne frame (h ▸ rfl)
    unfold submitClientFrame
    split
    · intro p hp
      rcases List.mem_append.mp hp with hp | hp
      · exact hq p hp
      · obtain rfl := List.mem_singleton.mp hp
        exact hc
    · exact hq
  | write pkt writeOk =>
    simp only [step] at ht
    split at ht
    · next hen =>
      cases ht
      refine ⟨?_,fun hb => absurd hb (hq pkt (List.mem_of_mem_head? hen.2))⟩
      rw [writePacket_queue]
      exact fun p hp => hq p (List.mem_of_mem_tail hp)
    · cases ht
  | read packet =>
    simp only [step] at ht
    split at ht <;> cases ht
    exact ⟨by rw [readPacket_queue]; exact hq,trivial⟩
  | readFailed =>
    simp only [step] at ht
    split at ht <;> cases ht
    exact ⟨hq,trivial⟩

/-- Two runs that agree except for the packets of `b`, which the second run does not have,
and for what is read from the device for other addresses than those of `a`: if in the
first run the packets of `b` leave the routes of `a` and the writer alone, session `a`
gets the same return frames in both. -/
theorem return_frames_same_without_other (a b : UInt64) (hab : a ≠ b)
    (events events' : List Event) (s s' : BridgeSystem)
    (hsame : events.filter (observes b (sourceIps a events)) =
      events'.filter (observes b (sourceIps a events)))
    (hnone : ∀ e ∈ events', ∀ frame, e ≠ .submit b frame)
    (hmeets : Meets step (LeavesAlone a b) start events)
    (hrun : exec step start events = some s) (hrun' : exec step start events' = some s') :
    framesTo a s = framesTo a s' := by
  have hown : ∀ e ∈ events, OwnSources a (sourceIps a events) e := by
    rintro e he frame r rfl hr
    exact List.mem_filterMap.mpr ⟨_,he,by simp [hr]⟩
  have hown' : ∀ e ∈ events', OwnSources a (sourceIps a events) e := by
    rintro e he frame r rfl hr
    have hkept : Event.submit a frame ∈ events'.filter (observes b (sourceIps a events)) :=
      List.mem_filter.mpr ⟨he,by simpa [observes] using hab⟩
    rw [← hsame] at hkept
    exact hown _ (List.mem_of_mem_filter hkept) frame r rfl hr
  have herase : ∀ {es : List Event} {t : BridgeSystem},
      (∀ e ∈ es, OwnSources a (sourceIps a events) e) → Meets step (LeavesAlone a b) start es →
      exec step start es = some t → ∃ v,
        exec step start (es.filter (observes b (sourceIps a events))) = some v ∧
          SameFor a b (sourceIps a events) t v :=
    fun ho hm hr => exec_erase (fun s u e t h hg => sameFor_follow s u e t h hg.2)
      (fun s u e t h hg => sameFor_erase hab s u e t h hg.1) (sameFor_start a b _)
      (meets_and hm ho) hr
  obtain ⟨v,hv,hsv⟩ := herase hown hmeets hrun
  obtain ⟨v',hv',hsv'⟩ := herase hown' (leavesAlone_of_no_submit hnone hrun') hrun'
  rw [hsame,hv',Option.some.injEq] at hv
  subst hv
  rw [hsv.frames,hsv'.frames]

def emptyPacket (src dst : Ipv4Addr) : List UInt8 :=
  [0x45,0,0,20,0,0,0x40,0,64,17,0,0,src.a,src.b,src.c,src.d,dst.a,dst.b,dst.c,dst.d]

/-- Two registered sessions; the first one sends a packet from the tunnel address, then the
given events happen, then an answer to the tunnel address is read from the device. -/
def answeredAfter (between : List Event) : List Event :=
  let request := emptyPacket ⟨10,8,0,2⟩ ⟨1,1,1,1⟩
  [.register 0 0,.register 1 1,.submit 0 ⟨⟨1,0,0⟩,request⟩,.write ⟨0,1,request⟩ true]++
    between++[.read (emptyPacket ⟨1,1,1,1⟩ ⟨10,8,0,2⟩)]

/-- The second session sends a packet from the given address. -/
def otherSends (src : Ipv4Addr) : List Event :=
  let request := emptyPacket src ⟨1,1,1,1⟩
  [.submit 1 ⟨⟨1,0,0⟩,request⟩,.write ⟨1,1,request⟩ true]

theorem return_frames_same_for_distinct_addresses :
    ∃ s s', exec step start (answeredAfter (otherSends ⟨10,8,0,3⟩)) = some s ∧
      exec step start (answeredAfter []) = some s' ∧ (framesTo 0 s').length = 1 ∧
      framesTo 0 s = framesTo 0 s' :=
  ⟨_,_,rfl,rfl,by decide,return_frames_same_without_other 0 1 (by decide)
    (answeredAfter (otherSends ⟨10,8,0,3⟩)) (answeredAfter []) _ _ (by decide) (by simp [answeredAfter])
    (by decide) rfl rfl⟩

/-- Both clients use the tunnel address 10.8.0.2: the packet of the second session takes the
route over, and the answer to the first one goes to the second. -/
theorem shared_address_takes_route :
    ∃ s s', exec step start (answeredAfter (otherSends ⟨10,8,0,2⟩)) = some s ∧
      exec step start (answeredAfter []) = some s' ∧
      (answeredAfter (otherSends ⟨10,8,0,2⟩)).filter
          (observes 1 (sourceIps 0 (answeredAfter (otherSends ⟨10,8,0,2⟩)))) =
        (answeredAfter []).filter
          (observes 1 (sourceIps 0 (answeredAfter (otherSends ⟨10,8,0,2⟩)))) ∧
      framesTo 0 s = [] ∧
      framesTo 0 s' = [⟨0,0,⟨⟨1,0,0⟩,emptyPacket ⟨1,1,1,1⟩ ⟨10,8,0,2⟩⟩⟩] :=
  ⟨_,_,rfl,rfl,by decide,by decide,by decide⟩

end Bonded.TunIsolation
