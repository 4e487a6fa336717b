import Bonded.FlowMachine

/-! A whole iteration of the poll thread, and what it does to one flow. -/
namespace Bonded.PollIteration

open FlowIsolation FlowMachine Ipv4 Packet SmoltcpForwarder TcpStack

section Iteration

variable {τ : Type} (api : TcpApi τ)

/-- A step that cannot be taken is passed over: a thread that has stopped stays as it is. -/
def attempt (s : Forwarder τ) (e : Event) : Forwarder τ := (step api s e).getD s

def attemptAll (s : Forwarder τ) (es : List Event) : Forwarder τ := es.foldl (attempt api) s

/-- All commands are taken and the stack runs; then all its packets are sent, and the
connections are promoted, served with what the upstream side has sent, and removed. -/
def iterate (upstream : Upstream) (now rounds : ℕ) (s : Forwarder τ) : Forwarder τ :=
  let taken := attemptAll api s (List.replicate s.queue.length .command)
  let polled := attempt api taken (.poll now rounds)
  let sent := attemptAll api polled (List.replicate polled.tx.length .emit)
  attempt api sent (.finish (answers upstream now (sent.bridges.map written)))

def flowIterate (upstream : Upstream) (now rounds : ℕ) (v : FlowState τ) : FlowState τ :=
  let polled := (v.drain api).poll api now rounds
  polled.finish api (answers upstream now polled.bridges)

/-- Answers to segments that no socket accepts have their header within the packet. -/
def RefusesWell : Prop := ∀ bytes, ∀ packet ∈ api.refuse bytes, ihl packet*4 ≤ packet.length

structure Resting (s : Forwarder τ) : Prop where
  inv : Inv api (inFlight s) s
  caller : s.caller = none
  rx : s.rx = []
  tx : s.tx = []
  phase : s.phase = .drain
  promoted : PromotedActive s

variable {api}

theorem resting_new : Resting api (new τ) := by
  refine ⟨inv_new,rfl,rfl,rfl,rfl,?_⟩
  simp [PromotedActive,new]

theorem Resting.inFlight_eq {s : Forwarder τ} (h : Resting api s) :
    inFlight s = queuedPackets s.queue := by
  simp [inFlight,h.rx,h.caller]

/-- Packets whose header lies within them, so that sending them does not panic. -/
def WellHeadered (packets : List Tx) : Prop :=
  ∀ x ∈ packets, ihl x.bytes*4 ≤ x.bytes.length

theorem addressed_header {bytes : List UInt8} {ip : Ipv4Addr} {port localPort : ℕ}
    (h : Addressed bytes ip port localPort) : ihl bytes*4 ≤ bytes.length := by
  obtain ⟨hlen,-,hihl,-⟩ := h
  omega

theorem WellHeadered.ingress (laws : TcpLaws api) (hrefuse : RefusesWell api) {s : Forwarder τ}
    (h : WellHeadered s.tx) (now : ℕ) (x : Injected) : WellHeadered (ingress api now s x).tx := by
  rcases ingress_cases api now s x with heq | heq | ⟨t,i,slot,hseg,-,-,hacc,heq⟩
  · rw [heq]; exact h
  · rw [heq]
    intro y hy
    rcases List.mem_append.mp hy with hy | hy
    · exact h y hy
    · obtain ⟨bytes,hbytes,rfl⟩ := List.mem_map.mp hy
      exact hrefuse _ bytes hbytes
  · rw [heq]
    intro y hy
    rcases List.mem_append.mp hy with hy | hy
    · exact h y hy
    · obtain ⟨bytes,hbytes,rfl⟩ := List.mem_map.mp hy
      exact addressed_header (laws.process_replies slot.sock now x.bytes t hseg hacc bytes hbytes)

theorem WellHeadered.egress (laws : TcpLaws api) {s : Forwarder τ} (h : WellHeadered s.tx)
    (now : ℕ) : WellHeadered (egress api now s).tx := by
  intro y hy
  rcases List.mem_append.mp hy with hy | hy
  · exact h y hy
  · obtain ⟨slot,-,hy⟩ := List.mem_flatMap.mp hy
    cases slot with
    | none => cases hy
    | some slot =>
      obtain ⟨bytes,hbytes,rfl⟩ := List.mem_map.mp hy
      obtain ⟨ip,port,-,haddr⟩ := laws.dispatch_packets slot.sock now bytes hbytes
      exact addressed_header haddr

theorem WellHeadered.pollStack (laws : TcpLaws api) (hrefuse : RefusesWell api) {s : Forwarder τ}
    (h : WellHeadered s.tx) (now rounds : ℕ) : WellHeadered (pollStack api now rounds s).tx := by
  have hingress : ∀ (xs : List Injected) (t : Forwarder τ), WellHeadered t.tx →
      WellHeadered (xs.foldl (SmoltcpForwarder.ingress api now) t).tx := by
    intro xs
    induction xs with
    | nil => exact fun t ht => ht
    | cons x xs ih => exact fun t ht => ih _ (ht.ingress laws hrefuse now x)
  have hegress : ∀ n (t : Forwarder τ), WellHeadered t.tx →
      WellHeadered (egressRounds api now n t).tx := by
    intro n
    induction n with
    | zero => exact fun t ht => ht
    | succ n ih => exact fun t ht => ih _ (ht.egress laws now)
  exact hegress rounds _ (hingress s.rx _ h)

section Stages

variable {s t : Forwarder τ}

theorem takeCommand_keeps (h : takeCommand api s = some t) : s.queue.length = t.queue.length+1 ∧
    t.caller = s.caller ∧ t.tx = s.tx ∧ t.phase = s.phase ∧ t.active = s.active ∧
    t.promoted = s.promoted := by
  unfold takeCommand at h
  split at h
  · cases h
  · next hqueue => cases h; exact ⟨by rw [hqueue]; rfl,rfl,rfl,rfl,rfl,rfl⟩
  · next f rest hqueue =>
    cases h
    unfold createTcpSocket
    split <;> exact ⟨by rw [hqueue]; rfl,rfl,rfl,rfl,rfl,rfl⟩

theorem attempt_command (api : TcpApi τ) (hphase : s.phase = .drain) (hqueue : s.queue ≠ []) :
    takeCommand api s = some (attempt api s .command) := by
  obtain ⟨t,ht⟩ : ∃ t, takeCommand api s = some t := by
    cases hq : s.queue with
    | nil => exact absurd hq hqueue
    | cons c rest =>
      cases c with
      | injectPacket x => exact ⟨_,by simp only [takeCommand,hq]; rfl⟩
      | createTcpSocket f => exact ⟨_,by simp only [takeCommand,hq]; rfl⟩
  simp [attempt,step,hphase,ht]

/-- A forwarder that has taken all its commands. -/
structure Taken (api : TcpApi τ) (s t : Forwarder τ) : Prop where
  inv : Inv api (inFlight t) t
  queue : t.queue = []
  caller : t.caller = s.caller
  tx : t.tx = s.tx
  phase : t.phase = .drain
  active : t.active = s.active
  promoted : t.promoted = s.promoted

theorem taken_all (laws : TcpLaws api) {n : ℕ} (hn : s.queue.length = n) (hphase : s.phase = .drain)
    (hinv : Inv api (inFlight s) s) : Taken api s (attemptAll api s (List.replicate n .command)) := by
  induction n generalizing s with
  | zero => exact ⟨hinv,List.length_eq_zero_iff.mp hn,rfl,rfl,hphase,rfl,rfl⟩
  | succ n ih =>
    have hone := attempt_command api hphase (by intro hnil; simp [hnil] at hn)
    obtain ⟨hlen,hcaller,htx,hph,hactive,hpromoted⟩ := takeCommand_keeps hone
    have hrest := ih (by omega) (hph.trans hphase) (hinv.takeCommand laws hone)
    exact ⟨hrest.inv,hrest.queue,hrest.caller.trans hcaller,hrest.tx.trans htx,hrest.phase,
      hrest.active.trans hactive,hrest.promoted.trans hpromoted⟩

theorem part_taken_all (api : TcpApi τ) {T : Triple} {place : Option ℕ} {v : FlowState τ} {n : ℕ}
    (hn : s.queue.length = n) (hphase : s.phase = .drain) (h : Part T s.pending s place v)
    (hfresh : v.Fresh) : ∃ place',
      Part T (attemptAll api s (List.replicate n .command)).pending
        (attemptAll api s (List.replicate n .command)) place' (v.drain api) := by
  induction n generalizing s place v with
  | zero =>
    have hnil : v.commands = [] := by
      rw [← h.commands,List.length_eq_zero_iff.mp hn]; rfl
    exact ⟨place,by rw [FlowState.drain_of_nil api hnil]; exact h⟩
  | succ n ih =>
    have hone := attempt_command api hphase (by intro hnil; simp [hnil] at hn)
    obtain ⟨hlen,-,-,hph,-⟩ := takeCommand_keeps hone
    obtain ⟨place',v',hpart,hfresh',hdrain⟩ := h.takeCommand hfresh hone
    obtain ⟨place'',hdone⟩ := ih (by omega) (hph.trans hphase) hpart hfresh'
    exact ⟨place'',hdrain ▸ hdone⟩

theorem attempt_poll (api : TcpApi τ) (hphase : s.phase = .drain) (hqueue : s.queue = []) (now rounds : ℕ) :
    attempt api s (.poll now rounds) = {pollStack api now rounds s with phase := .emit} := by
  simp [attempt,step,hphase,hqueue]

/-- Sending a packet of the stack changes the output only. -/
theorem attempt_emit (api : TcpApi τ) {x : Tx} {rest : List Tx} (htx : s.tx = x::rest) (hphase : s.phase = .emit)
    (hwell : WellHeadered s.tx) : ∃ seq frames,
      attempt api s .emit = {s with tx := rest, globalSeq := seq, emitted := frames} := by
  have hx := hwell x (by simp [htx])
  simp only [attempt,step,if_pos hphase,drainTx,htx]
  cases hsource : (txTriple x.bytes).bind (flowSource s) with
  | none => exact ⟨s.globalSeq,s.emitted,rfl⟩
  | some ip =>
    obtain ⟨triple,htriple,-⟩ := Option.bind_eq_some_iff.mp hsource
    obtain ⟨payload,hpayload⟩ :=
      Option.isSome_iff_exists.mp ((rewriteSrcIpOutbound_isSome ip htriple).mpr hx)
    simp only [hpayload]
    exact ⟨_,_,rfl⟩

theorem sent_all (api : TcpApi τ) {n : ℕ} (hn : s.tx.length = n) (hphase : s.phase = .emit)
    (hwell : WellHeadered s.tx) : ∃ seq frames,
      attemptAll api s (List.replicate n .emit) =
        {s with tx := [], globalSeq := seq, emitted := frames} := by
  induction n generalizing s with
  | zero =>
    refine ⟨s.globalSeq,s.emitted,?_⟩
    rw [← List.length_eq_zero_iff.mp hn]
    rfl
  | succ n ih =>
    cases htx : s.tx with
    | nil => simp [htx] at hn
    | cons x rest =>
      obtain ⟨seq,frames,hone⟩ := attempt_emit api htx hphase hwell
      have hrest := ih (s := {s with tx := rest, globalSeq := seq, emitted := frames})
        (by simpa [htx] using hn) hphase fun y hy => hwell y (by simp [htx,hy])
      obtain ⟨seq',frames',hdone⟩ := hrest
      refine ⟨seq',frames',?_⟩
      rw [attemptAll,List.replicate_succ,List.foldl_cons,hone]
      exact hdone

theorem attempt_finish (hphase : s.phase = .emit) (htx : s.tx = [])
    (replies : ℕ → List (List UInt8)) : attempt api s (.finish replies) = finish api replies s := by
  simp [attempt,step,hphase,htx]

theorem inv_attempt (laws : TcpLaws api) (hinv : Inv api (inFlight s) s) {e : Event}
    (he : Separate api s e) : Inv api (inFlight (attempt api s e)) (attempt api s e) := by
  unfold attempt
  cases hstep : step api s e with
  | none => exact hinv
  | some t => exact hinv.step laws he hstep

theorem inv_emitAll (laws : TcpLaws api) (n : ℕ) (hinv : Inv api (inFlight s) s) :
    Inv api (inFlight (attemptAll api s (List.replicate n .emit)))
      (attemptAll api s (List.replicate n .emit)) := by
  induction n generalizing s with
  | zero => exact hinv
  | succ n ih => exact ih (inv_attempt laws hinv trivial)

/-- The state in which an iteration ends, before its connections are served. -/
structure Sent (api : TcpApi τ) (now rounds : ℕ) (s t : Forwarder τ) : Prop where
  inv : Inv api (inFlight t) t
  made : ∃ seq frames, t = {pollStack api now rounds
    (attemptAll api s (List.replicate s.queue.length .command)) with
      phase := .emit, tx := [], globalSeq := seq, emitted := frames}

theorem iterate_sent (laws : TcpLaws api) (hrefuse : RefusesWell api) (h : Resting api s)
    (upstream : Upstream) (now rounds : ℕ) : ∃ t, Sent api now rounds s t ∧
      iterate api upstream now rounds s =
        finish api (answers upstream now (t.bridges.map written)) t := by
  have htaken := taken_all laws rfl h.phase h.inv
  have hpoll := attempt_poll api htaken.phase htaken.queue now rounds
  have hwell : WellHeadered (pollStack api now rounds
      (attemptAll api s (List.replicate s.queue.length .command))).tx := by
    refine WellHeadered.pollStack laws hrefuse ?_ now rounds
    rw [htaken.tx,h.tx]
    intro x hx
    cases hx
  have hinv := inv_emitAll laws (attempt api (attemptAll api s (List.replicate s.queue.length
    .command)) (.poll now rounds)).tx.length (inv_attempt laws htaken.inv (e := .poll now rounds)
      trivial)
  obtain ⟨seq,frames,hsent⟩ := sent_all api (s := attempt api (attemptAll api s
    (List.replicate s.queue.length .command)) (.poll now rounds)) rfl (by rw [hpoll])
    (by rw [hpoll]; exact hwell)
  refine ⟨_,⟨hinv,seq,frames,?_⟩,attempt_finish ?_ ?_ _⟩
  · rw [hsent,hpoll]
  · rw [hsent,hpoll]
  · rw [hsent]

end Stages

section Iterate

variable {s : Forwarder τ}

theorem resting_iterate (laws : TcpLaws api) (hrefuse : RefusesWell api) (h : Resting api s)
    (upstream : Upstream) (now rounds : ℕ) :
    Resting api (iterate api upstream now rounds s) ∧
      (iterate api upstream now rounds s).queue = [] := by
  obtain ⟨t,hsent,heq⟩ := iterate_sent laws hrefuse h upstream now rounds
  have htaken := taken_all laws rfl h.phase h.inv
  obtain ⟨seq,frames,ht⟩ := hsent.made
  obtain ⟨hrx,hkeeps⟩ := pollStack_keeps api now rounds
    (attemptAll api s (List.replicate s.queue.length .command))
  simp only [besidesStack,Prod.mk.injEq] at hkeeps
  have htx : t.tx = [] := by rw [ht]
  have hfinish := finish_keeps api (answers upstream now (t.bridges.map written)) t
  simp only [besidesFinish,Prod.mk.injEq] at hfinish
  obtain ⟨hcaller,hqueue,hrx',htx',-⟩ := hfinish
  rw [heq]
  refine ⟨⟨hsent.inv.finish laws htx _,?_,?_,htx'.trans htx,rfl,finish_promotedActive _⟩,?_⟩
  · rw [hcaller,ht]
    exact hkeeps.1.trans (htaken.caller.trans h.caller)
  · rw [hrx',ht]
    exact hrx
  · rw [hqueue,ht]
    exact hkeeps.2.1.trans htaken.queue

/-- An iteration of the forwarder is an iteration of each of its flows. -/
theorem part_iterate (laws : TcpLaws api) (hrefuse : RefusesWell api) (h : Resting api s)
    (upstream : Upstream) (now rounds : ℕ) {T : Triple} {place : Option ℕ} {v : FlowState τ}
    (hpart : Part T s.pending s place v) (hfresh : v.Fresh) : ∃ place',
      Part T (iterate api upstream now rounds s).pending (iterate api upstream now rounds s) place'
        (flowIterate api upstream now rounds v) := by
  obtain ⟨t,hsent,heq⟩ := iterate_sent laws hrefuse h upstream now rounds
  have htaken := taken_all laws rfl h.phase h.inv
  obtain ⟨place₁,hdrained⟩ := part_taken_all api rfl h.phase hpart hfresh
  have hpolled := hdrained.pollStack laws htaken.inv now rounds
  obtain ⟨-,hkeeps⟩ := pollStack_keeps api now rounds
    (attemptAll api s (List.replicate s.queue.length .command))
  simp only [besidesStack,Prod.mk.injEq] at hkeeps
  obtain ⟨seq,frames,ht⟩ := hsent.made
  have htx : t.tx = [] := by rw [ht]
  have hpart' : Part T t.pending t place₁ ((v.drain api).poll api now rounds) := by
    rw [ht]
    exact ⟨hpolled.commands,hpolled.packets,hpolled.bridges,hpolled.empty,hpolled.entry,
      hpolled.only⟩
  have hpromoted : PromotedActive t := by
    have hactive : t.active = s.active := by
      rw [ht]; exact hkeeps.2.2.2.1.trans htaken.active
    have hprom : t.promoted = s.promoted := by
      rw [ht]; exact hkeeps.2.2.2.2.1.trans htaken.promoted
    intro k hk
    rw [hactive]
    exact h.promoted k (hprom ▸ hk)
  rw [heq]
  exact hpart'.finish laws hsent.inv htx hpromoted (hpart'.answers hsent.inv htx upstream now)

end Iterate

end Iteration

end Bonded.PollIteration
