import Bonded.FlowInvariant

/-! The poll thread's tables under any commands and any behaviour of the TCP stack: nothing is
assumed about `TcpApi`, and between any two steps the sockets may change arbitrarily. The end of
an iteration is taken apart into promotion, service and removal. -/
namespace Bonded.ActiveTuples

open FlowIsolation Machine Packet SmoltcpForwarder

section Code

/-- The lookup over the active connections for a packet of the stack, in the order of the table;
it stops at the second destination. -/
def scan (triple : Ipv4Addr × ℕ × ℕ) : List Flow → Option Ipv4Addr → Lookup
  | [], none => .missing
  | [], some ip => .unique ip
  | c::rest, found =>
    if c.triple = triple then
      match found with
      | none => scan triple rest (some c.originalDstIp)
      | some existing =>
        if existing = c.originalDstIp then scan triple rest (some existing) else .ambiguous
    else scan triple rest found

/-- Where in an iteration the thread is: anywhere before the promotion, or after it, or after
the service. -/
inductive Part
  | begun
  | promoted
  | served
  deriving DecidableEq, Repr

structure Thread (τ : Type) where
  forwarder : Forwarder τ
  part : Part
  deriving DecidableEq

def start (τ : Type) : Thread τ := ⟨new τ,.begun⟩

/-- `send` is any command of another thread and `disturb` anything that may happen to the
sockets. -/
inductive Event (τ : Type)
  | send (command : PollCommand)
  | command
  | poll (now rounds : ℕ)
  | emit
  | promote
  | service (replies : ℕ → List (List UInt8))
  | remove
  | disturb (change : ℕ → Slot τ → Slot τ)

variable {τ : Type}

def disturb (change : ℕ → Slot τ → Slot τ) (sockets : List (Option (Slot τ))) :
    List (Option (Slot τ)) := sockets.mapIdx fun i slot => slot.map (change i)

/-- A step of the thread's loop before the promotion. -/
def code (api : TcpApi τ) (s : Thread τ) (e : SmoltcpForwarder.Event) : Option (Thread τ) :=
  if s.part = .begun then (SmoltcpForwarder.step api s.forwarder e).map fun t => ⟨t,.begun⟩
  else none

def step (api : TcpApi τ) (s : Thread τ) : Event τ → Option (Thread τ)
  | .send command => some ⟨trySend s.forwarder command,s.part⟩
  | .command => code api s .command
  | .poll now rounds => code api s (.poll now rounds)
  | .emit => code api s .emit
  | .promote =>
    if s.part = .begun ∧ s.forwarder.phase = .emit ∧ s.forwarder.tx = [] then
      some ⟨promote api s.forwarder,.promoted⟩
    else none
  | .service replies =>
    if s.part = .promoted then some ⟨service api replies s.forwarder,.served⟩ else none
  | .remove =>
    if s.part = .served then some ⟨{removeClosed api s.forwarder with phase := .drain},.begun⟩
    else none
  | .disturb change =>
    some ⟨{s.forwarder with sockets := disturb change s.forwarder.sockets},s.part⟩

theorem exec_finish (api : TcpApi τ) (f : Forwarder τ) (replies : ℕ → List (List UInt8)) :
    exec (step api) ⟨f,.begun⟩ [.promote,.service replies,.remove] =
      (SmoltcpForwarder.step api f (.finish replies)).map (⟨·,.begun⟩) := by
  simp only [exec,step,SmoltcpForwarder.step,true_and]
  by_cases hready : f.phase = .emit ∧ f.tx = []
  · rw [if_pos hready,if_pos hready]
    rfl
  · rw [if_neg hready,if_neg hready]
    rfl

end Code

section Scan

variable {triple : Ipv4Addr × ℕ × ℕ}

theorem scan_some (flows : List Flow) (ip : Ipv4Addr) :
    scan triple flows (some ip) =
      if ∀ f ∈ flows, f.triple = triple → f.originalDstIp = ip then .unique ip
      else .ambiguous := by
  induction flows with
  | nil => simp [scan]
  | cons f rest ih =>
    simp only [scan,List.forall_mem_cons]
    by_cases htriple : f.triple = triple
    · by_cases hip : ip = f.originalDstIp
      · subst hip
        simp [htriple,ih]
      · simp [htriple,hip,Ne.symm hip]
    · simp [htriple,ih]

theorem scan_eq_originalSrc (flows : List Flow) :
    scan triple flows none = originalSrc flows triple := by
  induction flows with
  | nil => rfl
  | cons f rest ih =>
    by_cases htriple : f.triple = triple
    · rw [scan,if_pos htriple,scan_some]
      have hall : ((rest.filter fun g => g.triple = triple).all fun g =>
          g.originalDstIp = f.originalDstIp) = true ↔
          ∀ g ∈ rest, g.triple = triple → g.originalDstIp = f.originalDstIp := by
        simp only [List.all_eq_true,List.mem_filter,decide_eq_true_eq,and_imp]
      rw [originalSrc,List.filter_cons_of_pos (by simpa using htriple)]
      exact (if_congr hall rfl rfl).symm
    · rw [scan,if_neg htriple,ih]
      simp [originalSrc,htriple]

/-- If all flows of a triple agree, the order in which they are looked at does not matter. -/
theorem scan_of_agree {flows : List Flow} {f : Flow} (hf : f ∈ flows)
    (h : ∀ g ∈ flows, g.triple = f.triple → g.originalDstIp = f.originalDstIp) :
    scan f.triple flows none = .unique f.originalDstIp := by
  induction flows with
  | nil => cases hf
  | cons g rest ih =>
    obtain ⟨hg,hrest⟩ := List.forall_mem_cons.mp h
    by_cases htriple : g.triple = f.triple
    · rw [scan,if_pos htriple,scan_some,hg htriple,if_pos hrest]
    · rw [scan,if_neg htriple]
      refine ih ?_ hrest
      rcases List.mem_cons.mp hf with rfl | hmem
      · exact absurd rfl htriple
      · exact hmem

theorem scan_of_missing {flows : List Flow} (h : ∀ f ∈ flows, f.triple ≠ triple) :
    scan triple flows none = .missing := by
  induction flows with
  | nil => rfl
  | cons f rest ih =>
    obtain ⟨hf,hrest⟩ := List.forall_mem_cons.mp h
    rw [scan,if_neg hf,ih hrest]

end Scan

section Tables

variable {τ : Type} {sockets sockets' : List (Option (Slot τ))}

def Live (sockets : List (Option (Slot τ))) (k : ℕ) : Prop := (socketAt sockets k).isSome

theorem Live.set {k : ℕ} (h : Live sockets k) (i : ℕ) (slot : Option (Slot τ))
    (hslot : k = i → slot.isSome) : Live (sockets.set i slot) k := by
  unfold Live at h ⊢
  simp only [socketAt,List.getD_eq_getElem?_getD,List.getElem?_set] at h ⊢
  by_cases hk : i = k
  · subst hk
    by_cases hlt : i < sockets.length
    · simpa [hlt] using hslot rfl
    · simp [List.getElem?_eq_none (Nat.not_lt.mp hlt)] at h
  · rwa [if_neg hk]

theorem Live.disturb {k : ℕ} (h : Live sockets k) (change : ℕ → Slot τ → Slot τ) :
    Live (disturb change sockets) k := by
  unfold Live at h ⊢
  simp only [socketAt,ActiveTuples.disturb,List.getD_eq_getElem?_getD,List.getElem?_mapIdx] at h ⊢
  cases hk : sockets[k]? with
  | none => simp [hk] at h
  | some slot => simpa [hk] using h

theorem Live.pollStack {s : Forwarder τ} {k : ℕ} (h : Live s.sockets k) (api : TcpApi τ)
    (now rounds : ℕ) : Live (pollStack api now rounds s).sockets k := by
  have hingress : ∀ (xs : List Injected) (t : Forwarder τ), Live t.sockets k →
      Live (xs.foldl (ingress api now) t).sockets k := by
    intro xs
    induction xs with
    | nil => exact fun t ht => ht
    | cons x xs ih =>
      intro t ht
      refine ih _ ?_
      rcases ingress_cases api now t x with heq | heq | ⟨_,i,_,_,_,_,_,heq⟩
      · rwa [heq]
      · rwa [heq]
      · rw [heq]
        exact ht.set i _ fun _ => rfl
  have hegress : ∀ (n : ℕ) (t : Forwarder τ), Live t.sockets k →
      Live (egressRounds api now n t).sockets k := by
    intro n
    induction n with
    | zero => exact fun t ht => ht
    | succ n ih =>
      intro t ht
      refine ih _ ?_
      unfold Live at ht ⊢
      rw [egress,socketAt_map,Option.isSome_map]
      exact ht
  exact hegress rounds _ (hingress s.rx {s with rx := []} h)

/-- The waiting connections and the active ones have live sockets of their own, and the flows
of the active ones are told apart by their triples. -/
structure Distinct (waiting : List PendingTcpConn) (sockets : List (Option (Slot τ)))
    (conns : Table ℕ ActiveTcpConn) : Prop where
  nodup : (waiting.map PendingTcpConn.handle).Nodup
  waitingLive : ∀ p ∈ waiting, Live sockets p.handle
  activeLive : ∀ k c, conns.get k = some c → Live sockets k
  apart : ∀ p ∈ waiting, conns.get p.handle = none
  agree : ∀ k l c d, conns.get k = some c → conns.get l = some d → c.flow.triple = d.flow.triple →
    c.flow.originalDstIp = d.flow.originalDstIp

variable {waiting waiting' : List PendingTcpConn} {conns conns' : Table ℕ ActiveTcpConn}

variable (h : Distinct waiting sockets conns)
include h

theorem Distinct.changeSockets
    (hlive : ∀ k, Live sockets k → Live sockets' k) : Distinct waiting sockets' conns :=
  ⟨h.nodup,fun p hp => hlive _ (h.waitingLive p hp),fun k c hc => hlive _ (h.activeLive k c hc),h.apart,
    h.agree⟩

theorem Distinct.perm (hperm : waiting'.Perm waiting) :
    Distinct waiting' sockets conns where
  nodup := ((hperm.map _).nodup_iff).mpr h.nodup
  waitingLive p hp := h.waitingLive p (hperm.mem_iff.mp hp)
  activeLive := h.activeLive
  apart p hp := h.apart p (hperm.mem_iff.mp hp)
  agree := h.agree

theorem Distinct.keepFlows
    (hflow : ∀ k c', conns'.get k = some c' → ∃ c, conns.get k = some c ∧ c'.flow = c.flow) :
    Distinct waiting sockets conns' where
  nodup := h.nodup
  waitingLive := h.waitingLive
  activeLive k c' hc' := by
    obtain ⟨c,hc,-⟩ := hflow k c' hc'
    exact h.activeLive k c hc
  apart p hp := by
    cases hget : conns'.get p.handle with
    | none => rfl
    | some c' =>
      obtain ⟨c,hc,-⟩ := hflow _ c' hget
      rw [h.apart p hp] at hc
      cases hc
  agree k l c' d' hc' hd' htriple := by
    obtain ⟨c,hc,hflowc⟩ := hflow k c' hc'
    obtain ⟨d,hd,hflowd⟩ := hflow l d' hd'
    rw [hflowc,hflowd] at htriple ⊢
    exact h.agree k l c d hc hd htriple

theorem Distinct.drop {i : ℕ}
    (hwaiting : ∀ p ∈ waiting, p.handle ≠ i) (hactive : conns.get i = none) :
    Distinct waiting (sockets.set i none) conns where
  nodup := h.nodup
  waitingLive p hp := (h.waitingLive p hp).set i none fun hi => absurd hi (hwaiting p hp)
  activeLive k c hc := (h.activeLive k c hc).set i none fun hi => by
    subst hi
    rw [hactive] at hc
    cases hc
  apart := h.apart
  agree := h.agree

end Tables

section Steps

variable {τ : Type} {api : TcpApi τ} {s t : Forwarder τ}

theorem distinct_new : Distinct (new τ).pending (new τ).sockets (new τ).active := by
  refine ⟨List.nodup_nil,?_,?_,?_,?_⟩
  · intro p hp
    cases hp
  · intro k c hc
    cases hc
  · intro p hp
    cases hp
  · intro k l c d hc
    cases hc

theorem Distinct.createTcpSocket (h : Distinct s.pending s.sockets s.active) (flow : Flow) :
    Distinct (createTcpSocket api s flow).pending (createTcpSocket api s flow).sockets
      (createTcpSocket api s flow).active := by
  unfold SmoltcpForwarder.createTcpSocket
  split
  · exact h
  have hlive : ∀ k, Live s.sockets k →
      Live (addSocket (⟨api.listen flow.dstPort,none,[]⟩ : Slot τ) s.sockets).2 k := by
    intro k hk
    rw [Live,(addSocket_ne hk).2]
    exact hk
  obtain ⟨hnodup,hapart⟩ := addSocket_handles (⟨api.listen flow.dstPort,none,[]⟩ : Slot τ) flow
    h.waitingLive h.activeLive h.nodup h.apart
  refine ⟨hnodup,fun p hp => ?_,fun k c hc => hlive k (h.activeLive k c hc),hapart,h.agree⟩
  rcases List.mem_append.mp hp with hold | hnew
  · exact hlive _ (h.waitingLive p hold)
  · rw [List.mem_singleton.mp hnew,Live,(socketAt_addSocket _ _).2,if_pos rfl]
    rfl

theorem Distinct.takeCommand (h : Distinct s.pending s.sockets s.active)
    (ht : takeCommand api s = some t) : Distinct t.pending t.sockets t.active := by
  unfold SmoltcpForwarder.takeCommand at ht
  split at ht
  · cases ht
  · cases ht
    exact h
  · next flow rest _ =>
    cases ht
    exact Distinct.createTcpSocket (s:={s with queue := rest}) h flow

/-- An established socket becomes active or is removed; the ones before it still wait. -/
theorem Distinct.promoteOne {p : PendingTcpConn} {left : List PendingTcpConn}
    (h : Distinct (s.pending++(p::left)) s.sockets s.active) :
    Distinct ((promoteOne s p).pending++left) (promoteOne s p).sockets (promoteOne s p).active := by
  have hperm : (s.pending++(p::left)).Perm (p::(s.pending++left)) := List.perm_middle
  have h' := h.perm hperm.symm
  obtain ⟨hp,hnodup⟩ := List.nodup_cons.mp (show (p.handle::(s.pending++left).map _).Nodup from h'.nodup)
  have hother : ∀ q ∈ s.pending++left, q.handle ≠ p.handle := by
    intro q hq heq
    exact hp (List.mem_map.mpr ⟨q,hq,heq⟩)
  have hfree : s.active.get p.handle = none := h'.apart p List.mem_cons_self
  have hrest : Distinct (s.pending++left) s.sockets s.active :=
    ⟨hnodup,fun q hq => h'.waitingLive q (List.mem_cons_of_mem _ hq),h'.activeLive,
      fun q hq => h'.apart q (List.mem_cons_of_mem _ hq),h'.agree⟩
  unfold SmoltcpForwarder.promoteOne
  split
  · exact hrest.drop hother hfree
  next hconflict =>
  have hagree : ∀ k c, s.active.get k = some c → c.flow.triple = p.flow.triple →
      c.flow.originalDstIp = p.flow.originalDstIp := by
    intro k c hc htriple
    by_contra hne
    refine hconflict (List.any_eq_true.mpr ⟨c.flow,?_,by simp [htriple,hne]⟩)
    exact List.mem_map.mpr ⟨(k,c),(s.active.mem_toList k c).mpr hc,rfl⟩
  refine ⟨hrest.nodup,hrest.waitingLive,?_,?_,?_⟩
  · intro k c hc
    rw [Table.get_set] at hc
    split at hc
    · next hk => exact hk ▸ h'.waitingLive p List.mem_cons_self
    · exact hrest.activeLive k c hc
  · intro q hq
    rw [Table.get_set_ne (hother q hq)]
    exact hrest.apart q hq
  · intro k l c d hc hd htriple
    rw [Table.get_set] at hc hd
    split at hc
    · cases hc
      split at hd
      · cases hd
        rfl
      · exact (hagree l d hd htriple.symm).symm
    · split at hd
      · cases hd
        exact hagree k c hc htriple
      · exact hrest.agree k l c d hc hd htriple

variable (h : Distinct s.pending s.sockets s.active)
include h

theorem Distinct.promote :
    Distinct (promote api s).pending (promote api s).sockets (promote api s).active := by
  have hfold : ∀ (left : List PendingTcpConn) (t : Forwarder τ),
      Distinct (t.pending++left) t.sockets t.active →
      Distinct (left.foldl SmoltcpForwarder.promoteOne t).pending
        (left.foldl SmoltcpForwarder.promoteOne t).sockets
        (left.foldl SmoltcpForwarder.promoteOne t).active := by
    intro left
    induction left with
    | nil =>
      intro t ht
      rwa [List.append_nil] at ht
    | cons p left ih => exact fun t ht => ih _ ht.promoteOne
  refine hfold _ _ (h.perm ?_)
  -- the established connections, last one first, and the others are all that were pending
  have hsplit := List.filter_append_perm (fun p => ¬ isEstablished api s p) s.pending
  refine List.Perm.trans (List.Perm.append_left _ (List.reverse_perm _)) ?_
  simpa using hsplit

theorem Distinct.serviceOne (replies : ℕ → List (List UInt8)) (handle : ℕ) :
    Distinct (serviceOne api replies s handle).pending (serviceOne api replies s handle).sockets
      (serviceOne api replies s handle).active := by
  unfold SmoltcpForwarder.serviceOne
  split
  · next conn slot hconn hslot =>
    refine (h.keepFlows ?_).changeSockets fun k hk => hk.set handle _ fun _ => rfl
    intro k c' hc'
    rw [Table.get_set] at hc'
    split at hc'
    · next hk =>
      cases hc'
      exact ⟨conn,hk ▸ hconn,rfl⟩
    · exact ⟨c',hc',rfl⟩
  · exact h

theorem Distinct.service (replies : ℕ → List (List UInt8)) :
    Distinct (service api replies s).pending (service api replies s).sockets
      (service api replies s).active := by
  unfold SmoltcpForwarder.service
  generalize handles s = ks
  induction ks generalizing s with
  | nil => exact h
  | cons k ks ih => exact ih (h.serviceOne replies k)

theorem Distinct.removeOne {k : ℕ} (hk : ∀ p ∈ s.pending, p.handle ≠ k) :
    Distinct (removeOne s k).pending (removeOne s k).sockets (removeOne s k).active := by
  refine (h.keepFlows ?_).drop hk (Table.get_remove_self _ _)
  intro l c hc
  rw [SmoltcpForwarder.removeOne,Table.get_remove] at hc
  split at hc
  · cases hc
  · exact ⟨c,hc,rfl⟩

theorem Distinct.removeClosed :
    Distinct (removeClosed api s).pending (removeClosed api s).sockets
      (removeClosed api s).active := by
  have hfold : ∀ (ks : List ℕ) (t : Forwarder τ), Distinct t.pending t.sockets t.active →
      (∀ k ∈ ks, ∀ p ∈ t.pending, p.handle ≠ k) →
      Distinct (ks.foldl SmoltcpForwarder.removeOne t).pending
        (ks.foldl SmoltcpForwarder.removeOne t).sockets
        (ks.foldl SmoltcpForwarder.removeOne t).active := by
    intro ks
    induction ks with
    | nil => exact fun t ht _ => ht
    | cons k ks ih =>
      intro t ht hks
      obtain ⟨hk,hks⟩ := List.forall_mem_cons.mp hks
      exact ih _ (ht.removeOne hk) hks
  refine hfold _ s h ?_
  rintro k hk p hp rfl
  -- an active handle has no pending connection
  obtain ⟨⟨_,c⟩,hmem,rfl⟩ := List.mem_map.mp (List.mem_of_mem_filter hk)
  have hget := (s.active.mem_toList _ c).mp hmem
  rw [h.apart p hp] at hget
  cases hget

end Steps

section Main

variable {τ : Type} {api : TcpApi τ}

/-- The lookup for a packet of the stack finds one destination or none, in whatever order it
goes through the active connections; active sockets exist, and none is pending as well. -/
structure Unambiguous (s : Forwarder τ) : Prop where
  agree : ∀ f ∈ activeFlows s, ∀ g ∈ activeFlows s, f.triple = g.triple →
    f.originalDstIp = g.originalDstIp
  decided : ∀ order, order.Perm (activeFlows s) → ∀ triple, scan triple order none ≠ .ambiguous
  source : ∀ order, order.Perm (activeFlows s) → ∀ f ∈ activeFlows s,
    scan f.triple order none = .unique f.originalDstIp
  rewritten : ∀ f ∈ activeFlows s, flowSource s f.triple = some f.originalDstIp
  live : ∀ k ∈ handles s, (socketAt s.sockets k).isSome
  apart : ∀ p ∈ s.pending, p.handle ∉ handles s

theorem mem_activeFlows {s : Forwarder τ} {f : Flow} :
    f ∈ activeFlows s ↔ ∃ k c, s.active.get k = some c ∧ c.flow = f := by
  constructor
  · intro h
    obtain ⟨⟨k,c⟩,hmem,hflow⟩ := List.mem_map.mp h
    exact ⟨k,c,(s.active.mem_toList k c).mp hmem,hflow⟩
  · rintro ⟨k,c,hc,hflow⟩
    exact List.mem_map.mpr ⟨(k,c),(s.active.mem_toList k c).mpr hc,hflow⟩

theorem mem_handles {s : Forwarder τ} {k : ℕ} (h : k ∈ handles s) :
    ∃ c, s.active.get k = some c := by
  obtain ⟨⟨_,c⟩,hmem,rfl⟩ := List.mem_map.mp h
  exact ⟨c,(s.active.mem_toList _ c).mp hmem⟩

theorem Distinct.unambiguous {s : Forwarder τ} (h : Distinct s.pending s.sockets s.active) :
    Unambiguous s := by
  have hagree : ∀ f ∈ activeFlows s, ∀ g ∈ activeFlows s, f.triple = g.triple →
      f.originalDstIp = g.originalDstIp := by
    intro f hf g hg htriple
    obtain ⟨k,c,hc,rfl⟩ := mem_activeFlows.mp hf
    obtain ⟨l,d,hd,rfl⟩ := mem_activeFlows.mp hg
    exact h.agree k l c d hc hd htriple
  have hsource : ∀ order, order.Perm (activeFlows s) → ∀ f ∈ activeFlows s,
      scan f.triple order none = .unique f.originalDstIp := by
    intro order hperm f hf
    refine scan_of_agree (hperm.mem_iff.mpr hf) ?_
    intro g hg htriple
    exact hagree g (hperm.mem_iff.mp hg) f hf htriple
  refine ⟨hagree,?_,hsource,?_,?_,?_⟩
  · intro order hperm triple
    by_cases hmatch : ∃ f ∈ activeFlows s, f.triple = triple
    · obtain ⟨f,hf,rfl⟩ := hmatch
      rw [hsource order hperm f hf]
      exact fun heq => by cases heq
    · rw [scan_of_missing]
      · exact fun heq => by cases heq
      · exact fun f hf htriple => hmatch ⟨f,hperm.mem_iff.mp hf,htriple⟩
  · intro f hf
    have hscan := hsource _ (List.Perm.refl _) f hf
    rw [scan_eq_originalSrc] at hscan
    rw [flowSource,hscan]
  · intro k hk
    obtain ⟨c,hc⟩ := mem_handles hk
    exact h.activeLive k c hc
  · intro p hp hk
    obtain ⟨c,hc⟩ := mem_handles hk
    rw [h.apart p hp] at hc
    cases hc

theorem drainTx_tables {s t : Forwarder τ} (h : drainTx s = some t) :
    t.pending = s.pending ∧ t.sockets = s.sockets ∧ t.active = s.active := by
  unfold drainTx at h
  split at h
  · cases h
  split at h
  · cases h
    exact ⟨rfl,rfl,rfl⟩
  split at h
  · cases h
    exact ⟨rfl,rfl,rfl⟩
  · cases h
    exact ⟨rfl,rfl,rfl⟩

/-- The thread's own steps, up to the promotion. -/
theorem Distinct.code {s t : Thread τ} {e : SmoltcpForwarder.Event}
    (h : Distinct s.forwarder.pending s.forwarder.sockets s.forwarder.active)
    (hkind : e = .command ∨ e = .emit ∨ ∃ now rounds, e = .poll now rounds)
    (ht : code api s e = some t) :
    Distinct t.forwarder.pending t.forwarder.sockets t.forwarder.active := by
  unfold ActiveTuples.code at ht
  split at ht
  swap
  · cases ht
  obtain ⟨u,hu,rfl⟩ := Option.map_eq_some_iff.mp ht
  rcases hkind with rfl | rfl | ⟨now,rounds,rfl⟩
  · simp only [SmoltcpForwarder.step] at hu
    split at hu
    · exact h.takeCommand hu
    · cases hu
  · simp only [SmoltcpForwarder.step] at hu
    split at hu
    · obtain ⟨hpending,hsockets,hactive⟩ := drainTx_tables hu
      rwa [hpending,hsockets,hactive]
    · cases hu
  · simp only [SmoltcpForwarder.step] at hu
    split at hu
    · cases hu
      obtain ⟨-,hkeeps⟩ := pollStack_keeps api now rounds s.forwarder
      simp only [besidesStack,Prod.mk.injEq] at hkeeps
      obtain ⟨-,-,hpending,hactive,-⟩ := hkeeps
      have hpolled := h.changeSockets fun k hk => hk.pollStack api now rounds
      simp only [hpending,hactive]
      exact hpolled
    · cases hu

theorem distinct_step {s t : Thread τ} {e : Event τ}
    (h : Distinct s.forwarder.pending s.forwarder.sockets s.forwarder.active)
    (ht : step api s e = some t) :
    Distinct t.forwarder.pending t.forwarder.sockets t.forwarder.active := by
  cases e with
  | send command =>
    cases ht
    simp only [trySend]
    split
    · exact h
    · exact h
  | command => exact h.code (.inl rfl) ht
  | poll now rounds => exact h.code (.inr (.inr ⟨now,rounds,rfl⟩)) ht
  | emit => exact h.code (.inr (.inl rfl)) ht
  | promote =>
    simp only [step] at ht
    split at ht
    · cases ht
      exact h.promote
    · cases ht
  | service replies =>
    simp only [step] at ht
    split at ht
    · cases ht
      exact h.service replies
    · cases ht
  | remove =>
    simp only [step] at ht
    split at ht
    · cases ht
      exact h.removeClosed
    · cases ht
  | disturb change =>
    cases ht
    exact h.changeSockets fun k hk => hk.disturb change

/-- In every reachable state, whatever the commands and the sockets do. -/
theorem active_tuples_unambiguous {τ : Type} (api : TcpApi τ) (es : List (Event τ)) :
    Along (step api) (fun s => Unambiguous s.forwarder) (start τ) es :=
  along_of_meets (fun _ h => Distinct.unambiguous h) (fun _ _ _ h _ ht => distinct_step h ht)
    distinct_new (meets_true _ _ es)

/-- Sockets that are nothing but a state, which only the environment changes. -/
def stateOnly : TcpApi TcpState where
  listen _ := .listen
  state := id
  localPort _ := 443
  remote _ := none
  wellFormed _ := false
  process sock _ _ := (sock,[])
  dispatch sock _ := (sock,[])
  refuse _ := []
  canRecv _ := false
  recv sock := ([],sock)
  canSend _ := false
  sendSlice sock _ := (none,sock)

def dialled (ip : Ipv4Addr) : Flow := ⟨⟨10,8,0,2⟩,50000,ip,443⟩

/-- Two connections from one client port to one port of two hosts are established in one
iteration; the later one is promoted first and the other one is refused. -/
def twoHosts : List (Event TcpState) :=
  [.send (.createTcpSocket (dialled ⟨1,1,1,1⟩)),.send (.createTcpSocket (dialled ⟨8,8,8,8⟩)),
    .command,.command,.poll 0 0,.disturb fun _ slot => {slot with sock := .established},.promote]

theorem active_tuples_unambiguous_twoHosts :
    ∃ t, exec (step stateOnly) (start TcpState) twoHosts = some t ∧
      activeFlows t.forwarder = [dialled ⟨8,8,8,8⟩] ∧ Unambiguous t.forwarder :=
  ⟨_,rfl,rfl,active_tuples_unambiguous stateOnly twoHosts _ _ (List.prefix_refl _) rfl⟩

end Main

end Bonded.ActiveTuples
