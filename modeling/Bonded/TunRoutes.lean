import Bonded.TunBridge

/-! The two routing tables of the TUN bridge under every interleaving of its callers and its
two tasks. A receiver may go away at any time, and a session may register again, with the
same channel or with another one. -/
namespace Bonded.TunRoutes

open Machine Packet Session TunBridge

/-- A call of `registerSession`. -/
structure Registration where
  sessionId : UInt64
  tx : ℕ
  deriving DecidableEq, Repr

/-- The bridge. History: the calls of `registerSession`, the call each route comes from, and
for each delivered frame the call whose channel it went to. -/
structure Routes where
  bridge : BridgeSystem
  registrations : List Registration
  current : Table UInt64 ℕ
  log : List (ℕ × Delivery)

def start : Routes := ⟨TunBridge.start,[],∅,[]⟩

def register (r : Routes) (sessionId : UInt64) (tx : ℕ) : Routes :=
  {r with
    bridge := {r.bridge with state := registerSession r.bridge.state sessionId tx}
    registrations := r.registrations++[⟨sessionId,tx⟩]
    current := r.current.set sessionId r.registrations.length}

/-- The frames a step of the reader has delivered, each with its registration. -/
def newly (r : Routes) (b : BridgeSystem) : List (ℕ × Delivery) :=
  (b.delivered.drop r.bridge.delivered.length).map fun d =>
    ((r.current.get d.sessionId).getD 0,d)

def read (r : Routes) (packet : List UInt8) : Routes :=
  {r with
    bridge := readPacket r.bridge packet
    log := r.log++newly r (readPacket r.bridge packet)}

def step (r : Routes) : Event → Option Routes
  | .register sessionId tx => some (register r sessionId tx)
  | .unregister sessionId =>
    some {r with bridge := {r.bridge with state := unregisterSession r.bridge.state sessionId}}
  | .submit sessionId frame => some {r with bridge := submitClientFrame r.bridge sessionId frame}
  | .write pkt writeOk =>
    if r.bridge.writerAlive = true ∧ r.bridge.queue.head? = some pkt then
      some {r with
        bridge := writePacket {r.bridge with queue := r.bridge.queue.tail} pkt writeOk}
    else none
  | .read packet => if r.bridge.readerAlive then some (read r packet) else none
  | .readFailed =>
    if r.bridge.readerAlive then some {r with bridge := {r.bridge with readerAlive := false}}
    else none
  | .dropReceiver tx => some {r with bridge := {r.bridge with closed := tx::r.bridge.closed}}

def Registered (c : UInt64) (r : Routes) : Prop := r.bridge.state.sessions.contains c = true

/-- The writer processes a valid packet with source `d` of the session `c`, which is
registered. -/
def Uses (d : Ipv4Addr) (c : UInt64) (r : Routes) (e : Event) : Prop :=
  ∃ pkt writeOk dst, e = .write pkt writeOk ∧ pkt.sessionId = c ∧
    parseIpv4SrcDst pkt.payload = some (d,dst) ∧ Registered c r

/-- The session `c` used the address `d`; since then it has been registered all the time, and
no session has used `d`. -/
def LastUser (d : Ipv4Addr) (c : UInt64) (events : List Event) : Prop :=
  Since step (Uses d c) (Registered c) (fun r e => ∀ c', ¬ Uses d c' r e) start events

section Steps

/-- The bridge after the reader has handed a frame to the channel of a route. -/
def deliver (s : BridgeSystem) (c : UInt64) (route : SessionRoute) (packet : List UInt8) :
    BridgeSystem :=
  let used : SessionRoute := ⟨route.tx,route.connectionId,route.nextServerSequence+1⟩
  let frame : SessionFrame := ⟨⟨route.connectionId,route.nextServerSequence,0⟩,packet⟩
  {s with
    state := ⟨s.state.sessions.set c used,s.state.ipToSession⟩
    delivered := s.delivered++[⟨c,route.tx,frame⟩]}

/-- All that the reader can do with a packet: nothing, forget a stale route, drop a session
whose receiver is gone, or deliver. -/
inductive Reads (s : BridgeSystem) (packet : List UInt8) : BridgeSystem → Prop
  | ignores : Reads s packet s
  | forgets (dst : Ipv4Addr) (c : UInt64) (hip : s.state.ipToSession.get dst = some c)
      (hgone : s.state.sessions.get c = none) : Reads s packet
        {s with state := ⟨s.state.sessions,s.state.ipToSession.remove dst⟩}
  | drops (c : UInt64) : Reads s packet {s with state := unregisterSession s.state c}
  | delivers (src dst : Ipv4Addr) (c : UInt64) (route : SessionRoute)
      (hparse : parseIpv4SrcDst packet = some (src,dst))
      (hip : s.state.ipToSession.get dst = some c)
      (hroute : s.state.sessions.get c = some route) : Reads s packet (deliver s c route packet)

theorem readPacket_reads (s : BridgeSystem) (packet : List UInt8) :
    Reads s packet (readPacket s packet) := by
  unfold readPacket
  split
  · exact .ignores
  · next src dst hparse =>
    split
    · exact .ignores
    · next c hip =>
      split
      · next hgone => exact .forgets dst c hip hgone
      · next route hroute =>
        simp only
        split
        · exact .drops c
        · exact .delivers src dst c route hparse hip hroute

structure Unlogged (r t : Routes) : Prop where
  registrations : t.registrations = r.registrations
  current : t.current = r.current
  log : t.log = r.log
  delivered : t.bridge.delivered = r.bridge.delivered

inductive Changes (r t : Routes) (e : Event) : Prop
  | registers (c : UInt64) (tx : ℕ) (ht : t = register r c tx) (hnot : ∀ d c', ¬ Uses d c' r e)
  | keeps (hstate : t.bridge.state = r.bridge.state) (hrest : Unlogged r t)
      (hnot : ∀ d c', ¬ Uses d c' r e)
  | ends (c : UInt64) (hstate : t.bridge.state = unregisterSession r.bridge.state c)
      (hrest : Unlogged r t) (hnot : ∀ d c', ¬ Uses d c' r e)
  | remembers (pkt : OutboundPacket) (writeOk : Bool) (src dst : Ipv4Addr)
      (he : e = .write pkt writeOk) (hparse : parseIpv4SrcDst pkt.payload = some (src,dst))
      (hstate : t.bridge.state = rememberSource r.bridge.state pkt src) (hrest : Unlogged r t)
  | forgets (dst : Ipv4Addr) (c : UInt64) (hip : r.bridge.state.ipToSession.get dst = some c)
      (hgone : r.bridge.state.sessions.get c = none)
  | delivers (packet : List UInt8) (src dst : Ipv4Addr) (c : UInt64) (route : SessionRoute)
      (he : e = .read packet) (hparse : parseIpv4SrcDst packet = some (src,dst))
      (hip : r.bridge.state.ipToSession.get dst = some c)
      (hroute : r.bridge.state.sessions.get c = some route)
      (ht : t = {r with
        bridge := deliver r.bridge c route packet
        log := r.log++[((r.current.get c).getD 0,
          ⟨c,route.tx,⟨⟨route.connectionId,route.nextServerSequence,0⟩,packet⟩⟩)]})

theorem not_uses {e : Event} (he : ∀ pkt writeOk, e ≠ .write pkt writeOk) (r : Routes)
    (d : Ipv4Addr) (c : UInt64) : ¬ Uses d c r e := by
  rintro ⟨pkt,writeOk,-,hwrite,-⟩
  exact he pkt writeOk hwrite

theorem read_changes (r : Routes) (packet : List UInt8) :
    Changes r (read r packet) (.read packet) := by
  have hnot := not_uses (e := .read packet) (by simp) r
  have hreads := readPacket_reads r.bridge packet
  unfold read
  generalize readPacket r.bridge packet = b at hreads
  cases hreads with
  | ignores => exact .keeps rfl ⟨rfl,rfl,by simp [newly],rfl⟩ hnot
  | forgets dst c hip hgone => exact .forgets dst c hip hgone
  | drops c => exact .ends c rfl ⟨rfl,rfl,by simp [newly],rfl⟩ hnot
  | delivers src dst c route hparse hip hroute =>
    exact .delivers packet src dst c route rfl hparse hip hroute (by simp [newly,deliver])

theorem write_changes (r : Routes) (pkt : OutboundPacket) (writeOk : Bool) :
    Changes r {r with
      bridge := writePacket {r.bridge with queue := r.bridge.queue.tail} pkt writeOk}
      (.write pkt writeOk) := by
  unfold writePacket
  split
  · next hparse =>
    refine .keeps rfl ⟨rfl,rfl,rfl,rfl⟩ ?_
    rintro d c ⟨pkt',ok,dst,he,-,hparse',-⟩
    cases he
    rw [hparse] at hparse'
    cases hparse'
  · next src dst hparse =>
    simp only
    split
    · exact .remembers pkt writeOk src dst rfl hparse rfl ⟨rfl,rfl,rfl,rfl⟩
    · exact .remembers pkt writeOk src dst rfl hparse rfl ⟨rfl,rfl,rfl,rfl⟩

theorem step_changes {r t : Routes} {e : Event} (h : step r e = some t) : Changes r t e := by
  cases e with
  | register c tx =>
    cases h
    exact .registers c tx rfl (not_uses (by simp) r)
  | unregister c =>
    cases h
    exact .ends c rfl ⟨rfl,rfl,rfl,rfl⟩ (not_uses (by simp) r)
  | submit c frame =>
    cases h
    have hsame : (submitClientFrame r.bridge c frame).state = r.bridge.state ∧
        (submitClientFrame r.bridge c frame).delivered = r.bridge.delivered := by
      unfold submitClientFrame
      split
      · exact ⟨rfl,rfl⟩
      · exact ⟨rfl,rfl⟩
    exact .keeps hsame.1 ⟨rfl,rfl,rfl,hsame.2⟩ (not_uses (by simp) r)
  | write pkt writeOk =>
    simp only [step] at h
    split at h
    · cases h
      exact write_changes r pkt writeOk
    · cases h
  | read packet =>
    simp only [step] at h
    split at h
    · cases h
      exact read_changes r packet
    · cases h
  | readFailed =>
    simp only [step] at h
    split at h
    · cases h
      exact .keeps rfl ⟨rfl,rfl,rfl,rfl⟩ (not_uses (by simp) r)
    · cases h
  | dropReceiver tx =>
    cases h
    exact .keeps rfl ⟨rfl,rfl,rfl,rfl⟩ (not_uses (by simp) r)

end Steps

section Tables

/-- The values of one table are keys of the other. -/
def Routed (r : Routes) : Prop :=
  ∀ ip c, r.bridge.state.ipToSession.get ip = some c → Registered c r

variable {r t : Routes} {e : Event}

theorem contains_set (table : Table UInt64 SessionRoute) (k c : UInt64) (v : SessionRoute) :
    (table.set k v).contains c = (decide (c = k) || table.contains c) := by
  by_cases h : c = k
  · simp [Table.contains,h]
  · simp [Table.contains,h,Table.get_set_ne h]

theorem rememberSource_contains (s : TunBridgeState) (pkt : OutboundPacket) (src : Ipv4Addr)
    (c : UInt64) : (rememberSource s pkt src).sessions.contains c = s.sessions.contains c := by
  simp only [Table.contains,rememberSource_sessions]
  split
  · simp
  · rfl

/-- In a consistent state the stale route of the reader does not occur. -/
theorem Routed.not_stale (h : Routed r) {ip : Ipv4Addr} {c : UInt64}
    (hip : r.bridge.state.ipToSession.get ip = some c) : r.bridge.state.sessions.get c ≠ none := by
  intro hnone
  have hreg := h ip c hip
  simp [Registered,Table.contains,hnone] at hreg

/-- Where an address of the new table comes from: its session has just used it, or it was
there before and nobody has used it now. Either way the session is registered. -/
theorem Routed.route (h : Routed r) (hchanges : Changes r t e) {d : Ipv4Addr} {c : UInt64}
    (hip : t.bridge.state.ipToSession.get d = some c) : Registered c t ∧
      (Uses d c r e ∨ r.bridge.state.ipToSession.get d = some c ∧ ∀ c', ¬ Uses d c' r e) := by
  unfold Registered
  cases hchanges with
  | registers k tx ht hnot =>
    subst ht
    have hold : r.bridge.state.sessions.contains c = true := h d c hip
    exact ⟨by simp [register,registerSession,contains_set,hold],.inr ⟨hip,hnot d⟩⟩
  | keeps hstate hrest hnot =>
    rw [hstate] at hip ⊢
    exact ⟨h d c hip,.inr ⟨hip,hnot d⟩⟩
  | ends k hstate hrest hnot =>
    rw [hstate] at hip ⊢
    obtain ⟨hne,hip⟩ := (unregisterSession_ips _ _ _ _).mp hip
    have hold := h d c hip
    refine ⟨?_,.inr ⟨hip,hnot d⟩⟩
    simpa [Registered,unregisterSession,Table.contains,Table.get_remove_ne hne] using hold
  | remembers pkt writeOk src dst he hparse hstate hrest =>
    rw [hstate] at hip ⊢
    rw [rememberSource_contains]
    rw [rememberSource_ips] at hip
    split at hip
    · next huse =>
      obtain ⟨hreg,rfl⟩ := huse
      cases hip
      exact ⟨hreg,.inl ⟨pkt,writeOk,dst,he,rfl,hparse,hreg⟩⟩
    · next hother =>
      refine ⟨h d c hip,.inr ⟨hip,?_⟩⟩
      rintro c' ⟨pkt',ok,dst',hwrite,rfl,hparse',hreg⟩
      rw [he] at hwrite
      cases hwrite
      rw [hparse,Option.some.injEq,Prod.mk.injEq] at hparse'
      exact hother ⟨hreg,hparse'.1.symm⟩
  | forgets dst k hip' hgone => exact absurd hgone (h.not_stale hip')
  | delivers packet src dst k route he hparse hip' hroute ht =>
    subst ht he
    have hold : r.bridge.state.sessions.contains c = true := h d c hip
    refine ⟨by simp [deliver,contains_set,hold],.inr ⟨hip,?_⟩⟩
    exact not_uses (by simp) r d

theorem Routed.step (h : Routed r) (hstep : step r e = some t) : Routed t :=
  fun _ _ hip => (h.route (step_changes hstep) hip).1

theorem routed_start : Routed start := by
  intro ip c hip
  simp [start,TunBridge.start,new] at hip

theorem lastUser_of_route {events : List Event} (hrun : exec step start events = some r)
    {d : Ipv4Addr} {c : UInt64} (hip : r.bridge.state.ipToSession.get d = some c) :
    LastUser d c events := by
  have hhistory : Routed r ∧ ∀ d c, r.bridge.state.ipToSession.get d = some c →
      LastUser d c events := by
    refine exec_history (P := fun events r => Routed r ∧ ∀ d c,
      r.bridge.state.ipToSession.get d = some c → LastUser d c events) ⟨routed_start,?_⟩ ?_ hrun
    · intro d c hip
      simp [start,TunBridge.start,new] at hip
    · intro es s e u hes hs hu
      refine ⟨hs.1.step hu,fun d c hip => ?_⟩
      obtain ⟨hreg,huses | ⟨hold,hnot⟩⟩ := hs.1.route (step_changes hu) hip
      · exact since_now hes huses hu hreg
      · exact since_later (hs.2 d c hold) hes hnot hu hreg
  exact hhistory.2 d c hip

end Tables

section Sequences

/-- The frames that went to the channel of a registration. -/
def framesOf (k : ℕ) (r : Routes) : List SessionFrame :=
  (r.log.filter fun x => x.1 = k).map fun x => x.2.frame

/-- Sequence numbers 0, 1, 2 and so on; 2^64 of them before the counter wraps. -/
def Consecutive (frames : List SessionFrame) : Prop :=
  frames.map (fun f => f.header.sequence) = (List.range frames.length).map UInt64.ofNat

theorem Consecutive.snoc {frames : List SessionFrame} (h : Consecutive frames) {f : SessionFrame}
    (hf : f.header.sequence = UInt64.ofNat frames.length) : Consecutive (frames++[f]) := by
  unfold Consecutive at h ⊢
  simp [h,hf,List.range_succ]

/-- Every route knows its registration and the number of frames that went there. -/
structure Numbered (r : Routes) : Prop where
  origin : ∀ c route, r.bridge.state.sessions.get c = some route → ∃ k,
    r.current.get c = some k ∧ r.registrations[k]? = some ⟨c,route.tx⟩ ∧
      route.nextServerSequence = UInt64.ofNat (framesOf k r).length
  logged : ∀ x ∈ r.log, r.registrations[x.1]? = some ⟨x.2.sessionId,x.2.tx⟩
  consecutive : ∀ k, Consecutive (framesOf k r)
  delivered : r.log.map Prod.snd = r.bridge.delivered

variable {r t : Routes} {e : Event}

theorem numbered_start : Numbered start := by
  refine ⟨?_,?_,fun k => rfl,rfl⟩
  · intro c route h
    simp [start,TunBridge.start,new] at h
  · intro x hx
    simp [start] at hx

theorem Numbered.unlogged (h : Numbered r) (hrest : Unlogged r t)
    (hroutes : ∀ c route, t.bridge.state.sessions.get c = some route → ∃ old,
      r.bridge.state.sessions.get c = some old ∧ old.tx = route.tx ∧
        old.nextServerSequence = route.nextServerSequence) : Numbered t := by
  obtain ⟨hreg,hcur,hlog,hdel⟩ := hrest
  have hframes : ∀ k, framesOf k t = framesOf k r := fun k => by simp only [framesOf,hlog]
  refine ⟨?_,?_,fun k => hframes k ▸ h.consecutive k,by rw [hlog,hdel,h.delivered]⟩
  · intro c route hget
    obtain ⟨old,hold,htx,hseq⟩ := hroutes c route hget
    obtain ⟨k,hk,hregk,hnext⟩ := h.origin c old hold
    refine ⟨k,hcur ▸ hk,?_,?_⟩
    · rw [hreg,hregk,htx]
    · rw [hframes,← hseq,hnext]
  · rw [hlog,hreg]
    exact h.logged

theorem Numbered.register (h : Numbered r) (c : UInt64) (tx : ℕ) : Numbered (register r c tx) := by
  have hold : ∀ (k : ℕ) x, r.registrations[k]? = some x →
      (r.registrations++[⟨c,tx⟩])[k]? = some x := by
    intro k x hk
    rw [List.getElem?_append_left (List.getElem?_eq_some_iff.mp hk).1]
    exact hk
  refine ⟨?_,fun x hx => hold _ _ (h.logged x hx),h.consecutive,h.delivered⟩
  intro c' route hget
  simp only [TunRoutes.register,registerSession,Table.get_set] at hget ⊢
  by_cases hc : c' = c
  · -- the new registration has no frames yet, since those logged belong to earlier ones
    subst hc
    simp only [if_true,Option.some.injEq] at hget
    subst hget
    have hnone : framesOf r.registrations.length r = [] := by
      simp only [framesOf,List.map_eq_nil_iff,List.filter_eq_nil_iff,decide_eq_true_eq]
      intro x hx hlen
      have hlt := (List.getElem?_eq_some_iff.mp (h.logged x hx)).1
      omega
    refine ⟨r.registrations.length,by simp,by simp,?_⟩
    change (0 : UInt64) = UInt64.ofNat (framesOf r.registrations.length r).length
    rw [hnone]
    rfl
  · simp only [hc,if_false] at hget ⊢
    obtain ⟨k,hk,hregk,hnext⟩ := h.origin c' route hget
    exact ⟨k,hk,hold _ _ hregk,hnext⟩

theorem Numbered.deliver (h : Numbered r) {c : UInt64} {route : SessionRoute}
    (hroute : r.bridge.state.sessions.get c = some route) (packet : List UInt8) :
    Numbered {r with
      bridge := TunRoutes.deliver r.bridge c route packet
      log := r.log++[((r.current.get c).getD 0,
        ⟨c,route.tx,⟨⟨route.connectionId,route.nextServerSequence,0⟩,packet⟩⟩)]} := by
  obtain ⟨k,hk,hreg,hnext⟩ := h.origin c route hroute
  simp only [hk,Option.getD_some]
  generalize hframe : (⟨⟨route.connectionId,route.nextServerSequence,0⟩,packet⟩ : SessionFrame) = f
  have hframes : ∀ j, ((r.log++[(k,(⟨c,route.tx,f⟩ : Delivery))]).filter fun x => x.1 = j).map
      (fun x => x.2.frame) = framesOf j r++if j = k then [f] else [] := by
    intro j
    by_cases hj : j = k
    · simp [framesOf,hj]
    · simp [framesOf,hj,Ne.symm hj]
  refine ⟨?_,?_,?_,?_⟩
  · intro c' route' hget
    simp only [TunRoutes.deliver,Table.get_set] at hget
    by_cases hc : c' = c
    · subst hc
      simp only [if_true,Option.some.injEq] at hget
      subst hget
      refine ⟨k,hk,hreg,?_⟩
      simp only [framesOf] at hnext ⊢
      rw [hframes,if_pos rfl,List.length_append,UInt64.ofNat_add,framesOf,← hnext]
      rfl
    · simp only [hc,if_false] at hget
      obtain ⟨j,hj,hregj,hnextj⟩ := h.origin c' route' hget
      have hne : j ≠ k := by
        rintro rfl
        rw [hreg,Option.some.injEq,Registration.mk.injEq] at hregj
        exact hc hregj.1.symm
      refine ⟨j,hj,hregj,?_⟩
      simp only [framesOf,hframes,if_neg hne,List.append_nil]
      exact hnextj
  · intro x hx
    rcases List.mem_append.mp hx with hx | hx
    · exact h.logged x hx
    · rw [List.mem_singleton.mp hx]
      exact hreg
  · intro j
    simp only [framesOf,hframes]
    split
    · next hj =>
      subst hj
      exact (h.consecutive j).snoc (by rw [← hframe]; exact hnext)
    · rw [List.append_nil]
      exact h.consecutive j
  · rw [List.map_append,h.delivered,← hframe]
    rfl

theorem Numbered.step (h : Numbered r) (hrouted : Routed r) (hstep : step r e = some t) :
    Numbered t := by
  cases step_changes hstep with
  | registers c tx ht => exact ht ▸ h.register c tx
  | keeps hstate hrest =>
    refine h.unlogged hrest fun c route hget => ⟨route,?_,rfl,rfl⟩
    rwa [hstate] at hget
  | ends c hstate hrest =>
    refine h.unlogged hrest fun c' route hget => ⟨route,?_,rfl,rfl⟩
    rw [hstate] at hget
    simp only [unregisterSession,Table.get_remove] at hget
    split at hget
    · cases hget
    · exact hget
  | remembers pkt writeOk src dst he hparse hstate hrest =>
    refine h.unlogged hrest fun c route hget => ?_
    rw [hstate,rememberSource_sessions] at hget
    split at hget
    · obtain ⟨old,hold,rfl⟩ := Option.map_eq_some_iff.mp hget
      exact ⟨old,hold,rfl,rfl⟩
    · exact ⟨route,hget,rfl,rfl⟩
  | forgets dst c hip hgone => exact absurd hgone (hrouted.not_stale hip)
  | delivers packet src dst c route he hparse hip hroute ht => exact ht ▸ h.deliver hroute packet

/-- A channel that was handed to at most one call of `registerSession`. -/
def RegisteredOnce (tx : ℕ) (r : Routes) : Prop :=
  ∀ (i j : ℕ) (a b : Registration), r.registrations[i]? = some a → r.registrations[j]? = some b →
    a.tx = tx → b.tx = tx → i = j

/-- The frames that were sent to a channel. -/
def channelFrames (tx : ℕ) (r : Routes) : List SessionFrame :=
  (r.bridge.delivered.filter fun d => d.tx = tx).map fun d => d.frame

theorem Numbered.channel (h : Numbered r) {tx : ℕ} (honce : RegisteredOnce tx r) :
    Consecutive (channelFrames tx r) := by
  have hlog : channelFrames tx r = (r.log.filter fun x => x.2.tx = tx).map fun x => x.2.frame := by
    rw [channelFrames,← h.delivered,List.filter_map,List.map_map]
    rfl
  rw [hlog]
  cases hsome : r.log.find? fun x => x.2.tx = tx with
  | none =>
    have hnil : (r.log.filter fun x => x.2.tx = tx) = [] := by
      simpa [List.filter_eq_nil_iff] using List.find?_eq_none.mp hsome
    rw [hnil]
    rfl
  | some y =>
    have hy := List.mem_of_find?_eq_some hsome
    have htx : y.2.tx = tx := by simpa using List.find?_some hsome
    have hsame : (r.log.filter fun x => x.2.tx = tx) = r.log.filter fun x => x.1 = y.1 := by
      refine List.filter_congr fun x hx => ?_
      rw [decide_eq_decide]
      constructor
      · exact fun hx' => honce _ _ _ _ (h.logged x hx) (h.logged y hy) hx' htx
      · intro hxy
        have hx' := h.logged x hx
        rw [hxy,h.logged y hy,Option.some.injEq,Registration.mk.injEq] at hx'
        exact hx'.2.symm.trans htx
    rw [hsame]
    exact h.consecutive y.1

end Sequences

/-- What holds in every state: a routed address belongs to a registered session, and the
frames of each registration, hence of each channel that was registered once, are numbered
from zero without a gap. -/
structure Consistent (r : Routes) : Prop where
  routed : ∀ ip c, r.bridge.state.ipToSession.get ip = some c → Registered c r
  registrations : ∀ k, Consecutive (framesOf k r)
  channels : ∀ tx, RegisteredOnce tx r → Consecutive (channelFrames tx r)

def bare (src dst : Ipv4Addr) : List UInt8 :=
  [0x45,0,0,20,0,0,0x40,0,64,17,0,0,src.a,src.b,src.c,src.d,dst.a,dst.b,dst.c,dst.d]

/-- The session `c` sends a packet from 10.8.0.2. -/
def sends (c : UInt64) : List Event :=
  [.submit c ⟨⟨1,0,0⟩,bare ⟨10,8,0,2⟩ ⟨1,1,1,1⟩⟩,
    .write ⟨c,1,bare ⟨10,8,0,2⟩ ⟨1,1,1,1⟩⟩ true]

/-- An answer to 10.8.0.2 is read from the device. -/
def answer : Event := .read (bare ⟨1,1,1,1⟩ ⟨10,8,0,2⟩)

/-- Session 0 uses the address, then session 1; the receiver of session 1 goes away and it
registers again. -/
def handover : List Event :=
  [.register 0 0,.register 1 1]++sends 0++[answer]++sends 1++
    [answer,answer,.dropReceiver 1,answer,.register 1 2]++sends 1

end Bonded.TunRoutes
