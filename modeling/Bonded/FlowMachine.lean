import Bonded.FlowIsolation
import Bonded.Selection

/-! One flow of a forwarder as a machine of its own. Flows are told apart by the client's address
and port and the destination port, which is all that the stack sees of a packet; as long as they
are kept apart, every flow goes through the same steps whatever the other flows do. -/
namespace Bonded.FlowMachine

open FlowIsolation Ipv4 Packet Selection SmoltcpForwarder TcpStack

abbrev Triple : Type := Ipv4Addr × ℕ × ℕ

/-- The state of an active connection. `bridge` is its place among the bridges of the flow. -/
structure Conn where
  bridge : ℕ
  fromBridge : List (List UInt8)
  pendingFromBridge : Option PendingBridgeBytes
  deriving DecidableEq, Repr

/-- The socket of the flow; without a `conn` the connection is pending. -/
structure Entry (τ : Type) where
  flow : Flow
  sock : τ
  conn : Option Conn
  deriving DecidableEq

abbrev Written : Type := Flow × List (List UInt8)

/-- The commands and packets of the flow on their way, its socket, and its bridges. -/
structure FlowState (τ : Type) where
  commands : List PollCommand
  rx : List Injected
  entry : Option (Entry τ)
  bridges : List Written
  deriving DecidableEq

namespace FlowState

variable {τ : Type} (api : TcpApi τ)

def idle : FlowState τ := ⟨[],[],none,[]⟩

def take (v : FlowState τ) : PollCommand → FlowState τ
  | .injectPacket x => {v with rx := v.rx++[x]}
  | .createTcpSocket f =>
    if f.dstPort = 0 then v else {v with entry := some ⟨f,api.listen f.dstPort,none⟩}

def drain (v : FlowState τ) : FlowState τ := v.commands.foldl (take api) {v with commands := []}

def ingress (now : ℕ) (v : FlowState τ) (x : Injected) : FlowState τ :=
  match segment api x.bytes, v.entry with
  | some t, some e =>
    if accepts api e.sock t then
      {v with entry := some {e with sock := (api.process e.sock now x.bytes).1}}
    else v
  | _, _ => v

def egress (now : ℕ) (v : FlowState τ) : FlowState τ :=
  {v with entry := v.entry.map fun e => {e with sock := (api.dispatch e.sock now).1}}

def egressRounds (now : ℕ) : ℕ → FlowState τ → FlowState τ
  | 0, v => v
  | n+1, v => egressRounds now n (egress api now v)

def poll (now rounds : ℕ) (v : FlowState τ) : FlowState τ :=
  egressRounds api now rounds (v.rx.foldl (ingress api now) {v with rx := []})

def connect (v : FlowState τ) (e : Entry τ) : FlowState τ :=
  {v with
    entry := some {e with conn := some ⟨v.bridges.length,[],none⟩}
    bridges := v.bridges++[(e.flow,[])]}

def promote (v : FlowState τ) : FlowState τ :=
  match v.entry with
  | some e => if e.conn = none ∧ api.state e.sock = .established then v.connect e else v
  | none => v

def sendTo (bridges : List Written) (bridge : ℕ) (bytes : List UInt8) : List Written :=
  if bytes = [] then bridges else bridges.modify bridge fun w => (w.1,w.2++[bytes])

def service (replies : ℕ → List (List UInt8)) (v : FlowState τ) : FlowState τ :=
  match v.entry with
  | some ⟨f,sock,some c⟩ =>
    let received := receive api sock
    let chunks := c.fromBridge++replies c.bridge
    let pumped := pumpFromBridge api (pumpFuel chunks c.pendingFromBridge) received.2 chunks
      c.pendingFromBridge
    {v with
      entry := some ⟨f,pumped.1,some ⟨c.bridge,pumped.2.1,pumped.2.2⟩⟩
      bridges := sendTo v.bridges c.bridge received.1}
  | _ => v

def removeClosed (v : FlowState τ) : FlowState τ :=
  match v.entry with
  | some ⟨_,sock,some _⟩ =>
    if ¬ isActive (api.state sock) ∧ api.state sock ≠ .listen then {v with entry := none} else v
  | _ => v

def finish (replies : ℕ → List (List UInt8)) (v : FlowState τ) : FlowState τ :=
  removeClosed api (service api replies (promote api v))

/-- The flow has a socket, or asks for one, at most once. -/
def Fresh (v : FlowState τ) : Prop := (queuedFlows v.commands).length+v.entry.toList.length ≤ 1

variable {v : FlowState τ} {rest : List PollCommand}

theorem drain_of_nil (h : v.commands = []) : v.drain api = v := by
  obtain ⟨commands,rx,entry,bridges⟩ := v
  subst h
  rfl

theorem drain_of_cons {c : PollCommand} (h : v.commands = c::rest) :
    v.drain api = (take api {v with commands := rest} c).drain api := by
  have htake : ∀ w : FlowState τ, (take api w c).commands = w.commands ∧
      {take api w c with commands := []} = take api {w with commands := []} c := by
    intro w
    cases c with
    | injectPacket x => exact ⟨rfl,rfl⟩
    | createTcpSocket f =>
      simp only [take]
      split <;> exact ⟨rfl,rfl⟩
  simp only [drain,h,List.foldl_cons,(htake _).1,(htake _).2]

theorem Fresh.take {c : PollCommand} (h : v.Fresh) (hc : v.commands = c::rest) :
    (take api {v with commands := rest} c).Fresh := by
  simp only [Fresh,hc] at h
  cases c with
  | injectPacket x => simpa [Fresh,FlowState.take,queuedFlows] using h
  | createTcpSocket f =>
    simp only [queuedFlows,List.filterMap_cons,List.length_cons] at h
    simp only [FlowState.take]
    split
    · simp only [Fresh,queuedFlows]; omega
    · simp only [Fresh,queuedFlows,Option.toList_some,List.length_singleton]; omega

theorem Fresh.entry {f : Flow} (h : v.Fresh) (hc : v.commands = .createTcpSocket f::rest) :
    v.entry = none := by
  cases he : v.entry with
  | none => rfl
  | some e => simp [Fresh,hc,he,queuedFlows] at h

end FlowState

section Part

variable {τ : Type}

def isPacketOf (T : Triple) (x : Injected) : Bool :=
  (tupleOf x).any fun t => (t.srcIp,t.srcPort,t.dstPort) = T

def isCommandOf (T : Triple) : PollCommand → Bool
  | .injectPacket x => isPacketOf T x
  | .createTcpSocket f => f.triple = T

def isBridgeOf (T : Triple) (b : Bridge) : Bool := b.flow.triple = T

def written (b : Bridge) : Written := (b.flow,b.sent.map Chunk.bytes)

/-- The place `h` of the socket set is a connection's of flow `f`. -/
def Placed (waiting : List PendingTcpConn) (conns : Table ℕ ActiveTcpConn) (h : ℕ) (f : Flow) :
    Prop :=
  ⟨h,f⟩ ∈ waiting ∨ ∃ conn, conns.get h = some conn ∧ conn.flow = f

def connOf (T : Triple) (bridges : List Bridge) (conn : ActiveTcpConn) : Conn :=
  ⟨rank (isBridgeOf T) bridges conn.bridge,conn.fromBridge,conn.pendingFromBridge⟩

/-- The connection at place `h` is the flow's. -/
structure EntryAt (T : Triple) (waiting : List PendingTcpConn) (sockets : List (Option (Slot τ)))
    (conns : Table ℕ ActiveTcpConn) (bridges : List Bridge) (h : ℕ) (e : Entry τ) : Prop where
  triple : e.flow.triple = T
  socket : ∃ slot, socketAt sockets h = some slot ∧ slot.sock = e.sock
  pending : e.conn = none → ⟨h,e.flow⟩ ∈ waiting
  active : ∀ c, e.conn = some c →
    ∃ conn, conns.get h = some conn ∧ conn.flow = e.flow ∧ connOf T bridges conn = c

/-- The part of a forwarder that belongs to the triple `T`: the flow's machine is in state `v`,
and its socket, if it has one, at `place`. No other place is the flow's. -/
structure Part (T : Triple) (waiting : List PendingTcpConn) (s : Forwarder τ) (place : Option ℕ)
    (v : FlowState τ) : Prop where
  commands : s.queue.filter (isCommandOf T) = v.commands
  packets : s.rx.filter (isPacketOf T) = v.rx
  bridges : (s.bridges.filter (isBridgeOf T)).map written = v.bridges
  empty : place = none → v.entry = none
  entry : ∀ h, place = some h →
    ∃ e, v.entry = some e ∧ EntryAt T waiting s.sockets s.active s.bridges h e
  only : ∀ k f, Placed waiting s.active k f → f.triple = T → place = some k

variable {api : TcpApi τ} {flight : List Injected} {waiting waiting' : List PendingTcpConn}
  {sockets : List (Option (Slot τ))} {conns : Table ℕ ActiveTcpConn} {bridges : List Bridge}
  {T : Triple} {s t : Forwarder τ} {place : Option ℕ} {v : FlowState τ}

theorem isPacketOf_flow {x : Injected} :
    isPacketOf T x = true ↔ ∃ f, packetFlow x = some f ∧ f.triple = T := by
  simp only [isPacketOf,packetFlow]
  cases tupleOf x with
  | none => simp
  | some t => simp [flowOf,Flow.triple]

theorem placed_unique (h : Owned api flight waiting sockets conns) {k : ℕ} {f g : Flow}
    (hf : Placed waiting conns k f) (hg : Placed waiting conns k g) : f = g := by
  rcases hf with hf | ⟨conn,hconn,rfl⟩ <;> rcases hg with hg | ⟨conn',hconn',rfl⟩
  · have hsame := List.inj_on_of_nodup_map h.distinct hf hg rfl
    exact congrArg PendingTcpConn.flow hsame
  · rw [h.apart _ hf] at hconn'; cases hconn'
  · rw [h.apart _ hg] at hconn; cases hconn
  · rw [hconn] at hconn'; cases hconn'; rfl

theorem EntryAt.placed {k : ℕ} {e : Entry τ} (h : EntryAt T waiting sockets conns bridges k e) :
    Placed waiting conns k e.flow := by
  cases hc : e.conn with
  | none => exact .inl (h.pending hc)
  | some c =>
    obtain ⟨conn,hconn,hflow,-⟩ := h.active c hc
    exact .inr ⟨conn,hconn,hflow⟩

/-- A change elsewhere leaves the flow's connection as it is. -/
theorem EntryAt.frame {sockets' : List (Option (Slot τ))} {conns' : Table ℕ ActiveTcpConn}
    {bridges' : List Bridge} {k : ℕ} {e : Entry τ} (h : EntryAt T waiting sockets conns bridges k e)
    (hsock : socketAt sockets' k = socketAt sockets k)
    (hwait : ∀ f, ⟨k,f⟩ ∈ waiting → ⟨k,f⟩ ∈ waiting') (hconn : conns'.get k = conns.get k)
    (hrank : ∀ conn, conns.get k = some conn →
      rank (isBridgeOf T) bridges' conn.bridge = rank (isBridgeOf T) bridges conn.bridge) :
    EntryAt T waiting' sockets' conns' bridges' k e := by
  refine ⟨h.triple,?_,fun hc => hwait _ (h.pending hc),fun c hc => ?_⟩
  · rw [hsock]; exact h.socket
  · obtain ⟨conn,hget,hflow,rfl⟩ := h.active c hc
    exact ⟨conn,hconn.trans hget,hflow,by simp only [connOf,hrank conn hget]⟩

theorem Part.place_none (h : Part T waiting s place v) (hv : v.entry = none) : place = none := by
  cases hp : place with
  | none => rfl
  | some k =>
    obtain ⟨e,he,-⟩ := h.entry k hp
    rw [hv] at he
    cases he

theorem Part.entry_of_placed (h : Part T waiting s place v) {k : ℕ} {f : Flow}
    (hk : Placed waiting s.active k f) (hf : f.triple = T) :
    ∃ e, v.entry = some e ∧ EntryAt T waiting s.sockets s.active s.bridges k e :=
  h.entry k (h.only k f hk hf)

/-- A place of another flow is not the flow's. -/
theorem Part.place_ne (h : Part T waiting s place v) (ho : Owned api flight waiting sockets s.active)
    {k i : ℕ} {f : Flow} (hk : Placed waiting s.active k f) (hf : f.triple ≠ T)
    (hi : place = some i) : i ≠ k := by
  rintro rfl
  obtain ⟨e,-,he⟩ := h.entry i hi
  exact hf (placed_unique ho hk he.placed ▸ he.triple)

section Commands

theorem Part.create (api : TcpApi τ) (h : Part T s.pending s place v) (f : Flow)
    (hfresh : f.triple = T → v.entry = none) : ∃ place',
      Part T (createTcpSocket api s f).pending (createTcpSocket api s f) place'
        (if f.triple = T then v.take api (.createTcpSocket f) else v) := by
  by_cases hport : f.dstPort = 0
  · refine ⟨place,?_⟩
    simpa only [createTcpSocket,FlowState.take,if_pos hport,ite_self] using h
  · simp only [createTcpSocket,FlowState.take,if_neg hport]
    have hplaced : ∀ k g, Placed (s.pending++[⟨(addSocket ⟨api.listen f.dstPort,none,[]⟩
        s.sockets).1,f⟩]) s.active k g → Placed s.pending s.active k g ∨
        k = (addSocket ⟨api.listen f.dstPort,none,[]⟩ s.sockets).1 ∧ g = f := by
      rintro k g (hk | hk)
      · rcases List.mem_append.mp hk with hk | hk
        · exact .inl (.inl hk)
        · rw [List.mem_singleton,PendingTcpConn.mk.injEq] at hk
          exact .inr hk
      · exact .inl (.inr hk)
    by_cases hT : f.triple = T
    · have hnone := h.place_none (hfresh hT)
      rw [if_pos hT]
      refine ⟨some (addSocket ⟨api.listen f.dstPort,none,[]⟩ s.sockets).1,h.commands,h.packets,
        h.bridges,by simp,fun k hk => ?_,fun k g hk hg => ?_⟩
      · cases hk
        refine ⟨_,rfl,hT,⟨⟨api.listen f.dstPort,none,[]⟩,?_,rfl⟩,fun _ => by simp,fun c hc => by cases hc⟩
        rw [(socketAt_addSocket _ _).2,if_pos rfl]
      · rcases hplaced k g hk with hk | ⟨rfl,-⟩
        · have hplace := h.only k g hk hg
          rw [hnone] at hplace
          cases hplace
        · rfl
    · rw [if_neg hT]
      refine ⟨place,h.commands,h.packets,h.bridges,h.empty,fun k hk => ?_,fun k g hk hg => ?_⟩
      · obtain ⟨e,he,hat⟩ := h.entry k hk
        obtain ⟨slot,hslot,-⟩ := hat.socket
        exact ⟨e,he,hat.frame (addSocket_ne (by rw [hslot]; rfl)).2 (fun g hg => by simp [hg]) rfl
          fun _ _ => rfl⟩
      · rcases hplaced k g hk with hk | ⟨-,rfl⟩
        · exact h.only k g hk hg
        · exact absurd hg hT

theorem Part.takeCommand (h : Part T s.pending s place v) (hfresh : v.Fresh)
    (ht : takeCommand api s = some t) : ∃ place' v', Part T t.pending t place' v' ∧ v'.Fresh ∧
      v'.drain api = v.drain api := by
  unfold SmoltcpForwarder.takeCommand at ht
  have hcommands := h.commands
  split at ht
  · cases ht
  · next x rest hqueue =>
    cases ht
    rw [hqueue] at hcommands
    by_cases hx : isPacketOf T x = true
    · rw [List.filter_cons_of_pos (by simpa [isCommandOf] using hx)] at hcommands
      refine ⟨place,_,?_,hfresh.take api hcommands.symm,
        (FlowState.drain_of_cons api hcommands.symm).symm⟩
      exact ⟨rfl,by simp [FlowState.take,h.packets,hx],h.bridges,h.empty,h.entry,h.only⟩
    · rw [List.filter_cons_of_neg (by simpa [isCommandOf] using hx)] at hcommands
      exact ⟨place,v,⟨hcommands,by simp [h.packets,hx],h.bridges,h.empty,h.entry,h.only⟩,hfresh,rfl⟩
  · next f rest hqueue =>
    cases ht
    rw [hqueue] at hcommands
    by_cases hf : f.triple = T
    · rw [List.filter_cons_of_pos (by simpa [isCommandOf] using hf)] at hcommands
      let w : FlowState τ := {v with commands := rest.filter (isCommandOf T)}
      have hnone : w.entry = none := hfresh.entry hcommands.symm
      have hrest : Part T ({s with queue := rest} : Forwarder τ).pending {s with queue := rest}
          place w := ⟨rfl,h.packets,h.bridges,h.empty,h.entry,h.only⟩
      obtain ⟨place',hpart⟩ := hrest.create api f fun _ => hnone
      rw [if_pos hf] at hpart
      exact ⟨place',_,hpart,hfresh.take api hcommands.symm,
        (FlowState.drain_of_cons api hcommands.symm).symm⟩
    · rw [List.filter_cons_of_neg (by simpa [isCommandOf] using hf)] at hcommands
      have hrest : Part T ({s with queue := rest} : Forwarder τ).pending {s with queue := rest}
          place v := ⟨hcommands,h.packets,h.bridges,h.empty,h.entry,h.only⟩
      obtain ⟨place',hpart⟩ := hrest.create api f fun hT => absurd hT hf
      rw [if_neg hf] at hpart
      exact ⟨place',v,hpart,hfresh,rfl⟩

end Commands

section Poll

theorem receiver_none {t : TcpTuple} (h : receiver api sockets t = none) {k : ℕ} {slot : Slot τ}
    (hk : socketAt sockets k = some slot) : accepts api slot.sock t = false := by
  simp only [socketAt,List.getD_eq_getElem?_getD] at hk
  have hmem : some slot ∈ sockets := by
    cases hget : sockets[k]? with
    | none => simp [hget] at hk
    | some o => exact List.mem_iff_getElem?.mpr ⟨k,by simpa [hget] using hk⟩
  simpa using List.findIdx?_eq_none_iff.mp h (some slot) hmem

theorem accepts_placed {x : Injected} {xs : List Injected} (hinv : Inv api (x::xs) s) {t : TcpTuple}
    {i : ℕ} {slot : Slot τ} (hseg : segment api x.bytes = some t)
    (hslot : socketAt s.sockets i = some slot) (hacc : accepts api slot.sock t = true) :
    ∃ f, Placed s.pending s.active i f ∧ f.triple = (t.srcIp,t.srcPort,t.dstPort) := by
  rcases hinv.owned.owner i slot hslot with ⟨p,hp,rfl⟩ | ⟨conn,hconn⟩
  · obtain ⟨slot',hslot',hok⟩ := hinv.owned.pending p hp
    rw [hslot] at hslot'
    cases hslot'
    refine ⟨p.flow,.inl hp,?_⟩
    rw [← accepted_flow hinv.coherent (.inl ⟨p,hp,rfl⟩) hseg hacc hok.made hok.listening]
    rfl
  · obtain ⟨slot',hslot',hok⟩ := hinv.owned.active i conn hconn
    rw [hslot] at hslot'
    cases hslot'
    refine ⟨conn.flow,.inr ⟨conn,hconn,rfl⟩,?_⟩
    rw [← accepted_flow hinv.coherent (.inr ⟨i,conn,hconn,rfl⟩) hseg hacc hok.made
      fun hl => absurd hl hok.listening]
    rfl

theorem isPacketOf_iff {x : Injected} {t : TcpTuple} (h : segment api x.bytes = some t) :
    isPacketOf T x = true ↔ (t.srcIp,t.srcPort,t.dstPort) = T := by
  simp [isPacketOf,(segment_tuple h).1]

/-- A packet of the flow goes to the flow's socket, any other does not. -/
theorem Part.ingress {x : Injected} {xs : List Injected} (hinv : Inv api (x::xs) s)
    (h : Part T s.pending s place v) (now : ℕ) :
    Part T (ingress api now s x).pending (ingress api now s x) place
      (if isPacketOf T x then v.ingress api now x else v) := by
  cases hseg : segment api x.bytes with
  | none =>
    have hsame : v.ingress api now x = v := by simp only [FlowState.ingress,hseg]
    simpa only [SmoltcpForwarder.ingress,hseg,hsame,ite_self] using h
  | some t =>
    cases hrec : receiver api s.sockets t with
    | none =>
      have hsame : v.ingress api now x = v := by
        cases hv : v.entry with
        | none => simp only [FlowState.ingress,hseg,hv]
        | some e =>
          cases hplace : place with
          | none => rw [h.empty hplace] at hv; cases hv
          | some k =>
            obtain ⟨e',he',hat⟩ := h.entry k hplace
            obtain ⟨slot,hslot,hsock⟩ := hat.socket
            rw [hv] at he'
            cases he'
            have hacc := receiver_none hrec hslot
            rw [hsock] at hacc
            simp [FlowState.ingress,hseg,hv,hacc]
      simp only [SmoltcpForwarder.ingress,hseg,hrec,hsame,ite_self]
      exact ⟨h.commands,h.packets,h.bridges,h.empty,h.entry,h.only⟩
    | some i =>
      obtain ⟨slot,hslot,hacc⟩ := receiver_accepts api hrec
      obtain ⟨f,hplaced,hf⟩ := accepts_placed hinv hseg hslot hacc
      have hset := socketAt_set hslot (some (processSlot api now slot x t))
      simp only [SmoltcpForwarder.ingress,hseg,hrec,hslot]
      by_cases hT : isPacketOf T x = true
      · obtain ⟨e,he,hat⟩ := h.entry_of_placed hplaced (hf.trans ((isPacketOf_iff hseg).mp hT))
        obtain ⟨slot',hslot',hsock⟩ := hat.socket
        rw [hslot] at hslot'
        cases hslot'
        have hplace := h.only i f hplaced (hf.trans ((isPacketOf_iff hseg).mp hT))
        have hv : v.ingress api now x =
            {v with entry := some {e with sock := (api.process e.sock now x.bytes).1}} := by
          simp [FlowState.ingress,hseg,he,← hsock,hacc]
        rw [if_pos hT,hv]
        refine ⟨h.commands,h.packets,h.bridges,fun hn => ?_,fun k hk => ?_,h.only⟩
        · rw [hplace] at hn; cases hn
        · rw [hplace] at hk
          cases hk
          refine ⟨_,rfl,hat.triple,⟨_,(hset i).trans (if_pos rfl),?_⟩,hat.pending,hat.active⟩
          rw [processSlot,noteSegment_sock,hsock]
      · rw [if_neg hT]
        refine ⟨h.commands,h.packets,h.bridges,h.empty,fun k hk => ?_,h.only⟩
        obtain ⟨e,he,hat⟩ := h.entry k hk
        have hne := h.place_ne hinv.owned hplaced
          (fun heq => hT ((isPacketOf_iff hseg).mpr (hf.symm.trans heq))) hk
        exact ⟨e,he,hat.frame ((hset k).trans (if_neg hne)) (fun _ => id) rfl fun _ _ => rfl⟩

theorem Part.ingressAll (laws : TcpLaws api) (now : ℕ) (xs ys : List Injected)
    (hinv : Inv api (xs++ys) s) (h : Part T s.pending s place v) :
    Part T (xs.foldl (SmoltcpForwarder.ingress api now) s).pending
      (xs.foldl (SmoltcpForwarder.ingress api now) s) place
      ((xs.filter (isPacketOf T)).foldl (FlowState.ingress api now) v) := by
  induction xs generalizing s v with
  | nil => exact h
  | cons x xs ih =>
    have hrest := ih (Inv.ingress laws hinv now) (h.ingress hinv now)
    by_cases hx : isPacketOf T x = true
    · simpa only [List.foldl_cons,List.filter_cons_of_pos hx,if_pos hx] using hrest
    · simpa only [List.foldl_cons,List.filter_cons_of_neg hx,if_neg hx] using hrest

theorem Part.egress (api : TcpApi τ) (h : Part T s.pending s place v) (now : ℕ) :
    Part T (egress api now s).pending (egress api now s) place (v.egress api now) := by
  refine ⟨h.commands,h.packets,h.bridges,fun hn => ?_,fun k hk => ?_,h.only⟩
  · simp [FlowState.egress,h.empty hn]
  · obtain ⟨e,he,hat⟩ := h.entry k hk
    obtain ⟨slot,hslot,hsock⟩ := hat.socket
    refine ⟨{e with sock := (api.dispatch e.sock now).1},by simp [FlowState.egress,he],hat.triple,
      ⟨sendingSlot api now slot,?_,?_⟩,hat.pending,hat.active⟩
    · simp only [SmoltcpForwarder.egress]
      rw [socketAt_map,hslot]
      rfl
    · simp only [sendingSlot,hsock]

theorem Part.egressRounds (api : TcpApi τ) (now n : ℕ) (h : Part T s.pending s place v) :
    Part T (egressRounds api now n s).pending (egressRounds api now n s) place
      (v.egressRounds api now n) := by
  induction n generalizing s v with
  | zero => exact h
  | succ n ih => exact ih (h.egress api now)

theorem Part.pollStack (laws : TcpLaws api) (hinv : Inv api (inFlight s) s)
    (h : Part T s.pending s place v) (now rounds : ℕ) :
    Part T (pollStack api now rounds s).pending (pollStack api now rounds s) place
      (v.poll api now rounds) := by
  have hstart : Inv api (s.rx++(queuedPackets s.queue++(s.caller.bind injected).toList))
      {s with rx := []} := by
    rw [← List.append_assoc]
    exact ⟨hinv.owned,hinv.coherent,hinv.tx,hinv.delivered⟩
  have hempty : Part T ({s with rx := []} : Forwarder τ).pending {s with rx := []} place
      {v with rx := []} := ⟨h.commands,rfl,h.bridges,h.empty,h.entry,h.only⟩
  have hdone := (hempty.ingressAll laws now s.rx _ hstart).egressRounds api now rounds
  rw [h.packets] at hdone
  exact hdone

end Poll

section Promote

theorem Part.perm (h : Part T waiting s place v) (hperm : waiting'.Perm waiting) :
    Part T waiting' s place v := by
  refine ⟨h.commands,h.packets,h.bridges,h.empty,fun k hk => ?_,fun k f hk hf => ?_⟩
  · obtain ⟨e,he,hat⟩ := h.entry k hk
    exact ⟨e,he,hat.frame rfl (fun f hf => hperm.mem_iff.mpr hf) rfl fun _ _ => rfl⟩
  · exact h.only k f (hk.imp_left hperm.mem_iff.mp) hf

theorem Part.promoteOne_self {p : PendingTcpConn} {left : List PendingTcpConn}
    (hinv : Promoting api flight (p::left) s) (h : Part T (s.pending++p::left) s place v)
    (hT : p.flow.triple = T) : place = some p.handle ∧ ∃ e, v.entry = some e ∧
      Part T ((promoteOne s p).pending++left) (promoteOne s p) place (v.connect e) := by
  have hp : Placed (s.pending++p::left) s.active p.handle p.flow := .inl (by simp)
  have hplace := h.only _ _ hp hT
  obtain ⟨e,he,hat⟩ := h.entry_of_placed hp hT
  have hflow : e.flow = p.flow := placed_unique hinv.owned hat.placed hp
  have hlen : v.bridges.length = (s.bridges.filter (isBridgeOf T)).length := by
    rw [← h.bridges,List.length_map]
  refine ⟨hplace,e,he,?_⟩
  rw [hinv.promoteOne_eq]
  refine ⟨h.commands,h.packets,?_,fun hn => ?_,fun k hk => ?_,fun k f hk hf => ?_⟩
  · simp [FlowState.connect,← h.bridges,isBridgeOf,hT,written,hflow]
  · rw [hplace] at hn; cases hn
  · rw [hplace] at hk
    cases hk
    refine ⟨_,rfl,hat.triple,hat.socket,(fun hc => by cases hc),fun c hc => ?_⟩
    cases hc
    refine ⟨_,Table.get_set_self _ _ _,hflow.symm,?_⟩
    simp only [connOf,hlen]
    rw [rank_append (Nat.le_refl _),rank_length]
  · rcases hk with hk | ⟨conn,hconn,rfl⟩
    · refine h.only k f (.inl ?_) hf
      rcases List.mem_append.mp hk with hk | hk <;> simp [hk]
    · rw [Table.get_set] at hconn
      split at hconn
      · next heq => rw [heq]; exact hplace
      · exact h.only k _ (.inr ⟨conn,hconn,rfl⟩) hf

theorem Part.promoteOne_other {p : PendingTcpConn} {left : List PendingTcpConn}
    (hinv : Promoting api flight (p::left) s) (h : Part T (s.pending++p::left) s place v)
    (hT : p.flow.triple ≠ T) :
    Part T ((promoteOne s p).pending++left) (promoteOne s p) place v := by
  have hp : Placed (s.pending++p::left) s.active p.handle p.flow := .inl (by simp)
  rw [hinv.promoteOne_eq]
  refine ⟨h.commands,h.packets,?_,h.empty,fun k hk => ?_,fun k f hk hf => ?_⟩
  · simp [← h.bridges,isBridgeOf,hT]
  · obtain ⟨e,he,hat⟩ := h.entry k hk
    have hne := h.place_ne hinv.owned hp hT hk
    refine ⟨e,he,hat.frame rfl (fun f hf => ?_) (Table.get_set_ne hne) fun conn hconn => ?_⟩
    · rcases List.mem_append.mp hf with hf | hf
      · exact List.mem_append_left _ hf
      · rcases List.mem_cons.mp hf with heq | hf
        · exact absurd (congrArg PendingTcpConn.handle heq) hne
        · exact List.mem_append_right _ hf
    · obtain ⟨b,hb,-⟩ := hinv.delivered.bridge k conn hconn
      exact rank_append (Nat.le_of_lt (List.getElem?_eq_some_iff.mp hb).1) _
  · rcases hk with hk | ⟨conn,hconn,rfl⟩
    · refine h.only k f (.inl ?_) hf
      rcases List.mem_append.mp hk with hk | hk <;> simp [hk]
    · rw [Table.get_set] at hconn
      split at hconn
      · cases hconn; exact absurd hf hT
      · exact h.only k _ (.inr ⟨conn,hconn,rfl⟩) hf

theorem Part.promoteAll_other {left : List PendingTcpConn} (hinv : Promoting api flight left s)
    (h : Part T (s.pending++left) s place v) (hT : ∀ p ∈ left, p.flow.triple ≠ T) :
    Part T (left.foldl promoteOne s).pending (left.foldl promoteOne s) place v := by
  induction left generalizing s with
  | nil => simpa using h
  | cons p left ih =>
    exact ih hinv.promoteOne (h.promoteOne_other hinv (hT p (by simp)))
      fun q hq => hT q (by simp [hq])

theorem Part.promoteAll_self {left : List PendingTcpConn} (hinv : Promoting api flight left s)
    (h : Part T (s.pending++left) s place v) {e : Entry τ} (he : v.entry = some e)
    (hT : ∃ p ∈ left, p.flow.triple = T) :
    Part T (left.foldl promoteOne s).pending (left.foldl promoteOne s) place (v.connect e) := by
  induction left generalizing s with
  | nil => obtain ⟨p,hp,-⟩ := hT; cases hp
  | cons p left ih =>
    by_cases hp : p.flow.triple = T
    · obtain ⟨hplace,e',he',hpart⟩ := h.promoteOne_self hinv hp
      rw [he] at he'
      cases he'
      have hrest : ∀ q ∈ left, q.flow.triple ≠ T := by
        -- two places of the flow would be the same, but handles are distinct
        intro q hq hqT
        have hsame := h.only q.handle q.flow (.inl (by simp [hq])) hqT
        rw [hplace,Option.some.injEq] at hsame
        have hd := hinv.owned.distinct
        rw [List.map_append,List.map_cons,List.nodup_middle,List.nodup_cons] at hd
        exact hd.1 (by rw [hsame]; exact List.mem_append_right _ (List.mem_map_of_mem hq))
      have hdone := Part.promoteAll_other hinv.promoteOne hpart hrest
      exact hdone
    · refine ih hinv.promoteOne (h.promoteOne_other hinv hp) ?_
      obtain ⟨q,hq,hqT⟩ := hT
      rcases List.mem_cons.mp hq with rfl | hq
      · exact absurd hqT hp
      · exact ⟨q,hq,hqT⟩

/-- Promoted places are places of active connections. -/
def PromotedActive (s : Forwarder τ) : Prop := ∀ k ∈ s.promoted, s.active.get k ≠ none

theorem Part.promote (hinv : Inv api flight s) (hpromoted : PromotedActive s)
    (h : Part T s.pending s place v) :
    Part T (promote api s).pending (promote api s) place (v.promote api) := by
  have hperm := h.perm (promote_perm api s)
  have hstart : Part T (({s with pending := s.pending.filter fun p => ¬ isEstablished api s p} :
      Forwarder τ).pending++(s.pending.filter (isEstablished api s)).reverse)
      {s with pending := s.pending.filter fun p => ¬ isEstablished api s p} place v :=
    ⟨hperm.commands,hperm.packets,hperm.bridges,hperm.empty,hperm.entry,hperm.only⟩
  have hleft : ∀ p, p ∈ (s.pending.filter (isEstablished api s)).reverse ↔
      p ∈ s.pending ∧ isEstablished api s p = true := by simp
  cases hv : v.entry with
  | none =>
    have hplace := h.place_none hv
    have hsame : v.promote api = v := by simp only [FlowState.promote,hv]
    rw [hsame]
    refine Part.promoteAll_other hinv.promoting hstart fun p hp hT => ?_
    have hp' := h.only p.handle p.flow (.inl ((hleft p).mp hp).1) hT
    rw [hplace] at hp'
    cases hp'
  | some e =>
    cases hplace : place with
    | none => rw [h.empty hplace] at hv; cases hv
    | some k =>
      obtain ⟨e',he',hat⟩ := h.entry k hplace
      rw [hv] at he'
      cases he'
      obtain ⟨slot,hslot,hsock⟩ := hat.socket
      rw [← hplace]
      by_cases hest : e.conn = none ∧ api.state e.sock = .established
      · have hsame : v.promote api = v.connect e := by
          simp only [FlowState.promote,hv,if_pos hest]
        rw [hsame]
        have hmem := hat.pending hest.1
        refine Part.promoteAll_self hinv.promoting hstart hv ⟨⟨k,e.flow⟩,(hleft _).mpr ⟨hmem,?_⟩,
          hat.triple⟩
        have hk : k ∉ s.promoted := fun hk => hpromoted k hk (hinv.owned.apart _ hmem)
        simp [isEstablished,hk,hslot,hsock,hest.2]
      · have hsame : v.promote api = v := by simp only [FlowState.promote,hv,if_neg hest]
        rw [hsame]
        refine Part.promoteAll_other hinv.promoting hstart fun p hp hT => hest ?_
        obtain ⟨hmem,hp⟩ := (hleft p).mp hp
        have hk := h.only p.handle p.flow (.inl hmem) hT
        rw [hplace,Option.some.injEq] at hk
        subst hk
        refine ⟨?_,?_⟩
        · cases hc : e.conn with
          | none => rfl
          | some c =>
            obtain ⟨conn,hconn,-⟩ := hat.active c hc
            rw [hinv.owned.apart p hmem] at hconn
            cases hconn
        · exact (by simpa [isEstablished,hslot,hsock] using hp : _ ∧ _).2

end Promote

section Service

theorem isBridgeOf_send (T : Triple) (chunk : Chunk) (b : Bridge) :
    isBridgeOf T {b with sent := b.sent++[chunk]} = isBridgeOf T b := rfl

theorem rank_sendToBridge (bridges : List Bridge) (i j : ℕ) (chunk : Chunk) :
    rank (isBridgeOf T) (sendToBridge bridges i chunk) j = rank (isBridgeOf T) bridges j := by
  unfold sendToBridge
  split
  · rfl
  · exact rank_modify (isBridgeOf_send T chunk) _ _ _

theorem written_sendToBridge_self {i : ℕ} {b : Bridge} (hb : bridges[i]? = some b)
    (hT : b.flow.triple = T) (chunk : Chunk) :
    ((sendToBridge bridges i chunk).filter (isBridgeOf T)).map written =
      FlowState.sendTo ((bridges.filter (isBridgeOf T)).map written)
        (rank (isBridgeOf T) bridges i) chunk.bytes := by
  unfold sendToBridge FlowState.sendTo
  split
  · rfl
  · rw [filter_modify_of_pos (isBridgeOf_send T chunk) hb (by simpa [isBridgeOf] using hT)]
    exact map_modify (fun x => by simp [written]) _ _

theorem written_sendToBridge_other {i : ℕ} {b : Bridge} (hb : bridges[i]? = some b)
    (hT : b.flow.triple ≠ T) (chunk : Chunk) :
    (sendToBridge bridges i chunk).filter (isBridgeOf T) = bridges.filter (isBridgeOf T) := by
  unfold sendToBridge
  split
  · rfl
  · refine filter_modify_of_neg (isBridgeOf_send T chunk) fun x hx => ?_
    rw [hb] at hx
    cases hx
    simpa [isBridgeOf] using hT

/-- The upstream side answers the forwarder's bridge as it answers the flow's. -/
def Answers (T : Triple) (replies flowReplies : ℕ → List (List UInt8)) (s : Forwarder τ) : Prop :=
  ∀ k conn, s.active.get k = some conn → conn.flow.triple = T →
    replies conn.bridge = flowReplies (rank (isBridgeOf T) s.bridges conn.bridge)

variable {replies flowReplies : ℕ → List (List UInt8)}

theorem Answers.serviceOne (h : Answers T replies flowReplies s) (k : ℕ) :
    Answers T replies flowReplies (serviceOne api replies s k) := by
  unfold SmoltcpForwarder.serviceOne
  split
  · next conn slot hconn hslot =>
    intro i c hc hT
    simp only [rank_sendToBridge]
    rw [Table.get_set] at hc
    split at hc
    · cases hc
      exact h k conn hconn hT
    · exact h i c hc hT
  · exact h

theorem Part.serviceOne_self (hinv : Inv api flight s) (hreplies : Answers T replies flowReplies s)
    (h : Part T s.pending s place v) {k : ℕ} (hk : place = some k) :
    Part T (serviceOne api replies s k).pending (serviceOne api replies s k) place
      (v.service api flowReplies) := by
  obtain ⟨⟨f,sock,conn?⟩,he,hat⟩ := h.entry k hk
  obtain ⟨slot,hslot,hsock⟩ := hat.socket
  subst hsock
  cases conn? with
  | none =>
    have hnone : s.active.get k = none := hinv.owned.apart _ (hat.pending rfl)
    simp only [FlowState.service,he,SmoltcpForwarder.serviceOne,hnone]
    exact h
  | some c =>
    obtain ⟨conn,hconn,hflow,rfl⟩ := hat.active c rfl
    have hT : conn.flow.triple = T := hflow ▸ hat.triple
    obtain ⟨b,hb,hbflow⟩ := hinv.delivered.bridge k conn hconn
    have hbT : b.flow.triple = T := hbflow ▸ hT
    simp only [FlowState.service,he,SmoltcpForwarder.serviceOne,hconn,hslot,connOf]
    rw [hreplies k conn hconn hT]
    refine ⟨h.commands,h.packets,?_,fun hn => ?_,fun i hi => ?_,fun i g hi hg => ?_⟩
    · simp only [written_sendToBridge_self hb hbT,h.bridges]
    · rw [hk] at hn; cases hn
    · rw [hk] at hi
      cases hi
      refine ⟨_,rfl,hat.triple,⟨_,(socketAt_set hslot _ k).trans (if_pos rfl),rfl⟩,
        (fun hc => by cases hc),fun c hc => ?_⟩
      cases hc
      refine ⟨_,Table.get_set_self _ _ _,hflow,?_⟩
      simp only [connOf,rank_sendToBridge]
    · rcases hi with hi | ⟨c,hc,rfl⟩
      · exact h.only i g (.inl hi) hg
      · rw [Table.get_set] at hc
        split at hc
        · next hik => rw [hik]; exact hk
        · exact h.only i _ (.inr ⟨c,hc,rfl⟩) hg

theorem Part.serviceOne_other (hinv : Inv api flight s) (h : Part T s.pending s place v) {k : ℕ}
    (hk : place ≠ some k) :
    Part T (serviceOne api replies s k).pending (serviceOne api replies s k) place v := by
  unfold SmoltcpForwarder.serviceOne
  split
  · next conn slot hconn hslot =>
    have hT : conn.flow.triple ≠ T := fun hT => hk (h.only k conn.flow (.inr ⟨conn,hconn,rfl⟩) hT)
    obtain ⟨b,hb,hbflow⟩ := hinv.delivered.bridge k conn hconn
    have hbT : b.flow.triple ≠ T := hbflow ▸ hT
    refine ⟨h.commands,h.packets,?_,h.empty,fun i hi => ?_,fun i g hi hg => ?_⟩
    · simp only [written_sendToBridge_other hb hbT,h.bridges]
    · obtain ⟨e,he,hat⟩ := h.entry i hi
      have hne : i ≠ k := fun heq => hk (heq ▸ hi)
      exact ⟨e,he,hat.frame ((socketAt_set hslot _ i).trans (if_neg hne)) (fun _ => id)
        (Table.get_set_ne hne) fun _ _ => rank_sendToBridge _ _ _ _⟩
    · rcases hi with hi | ⟨c,hc,rfl⟩
      · exact h.only i g (.inl hi) hg
      · rw [Table.get_set] at hc
        split at hc
        · cases hc; exact absurd hg hT
        · exact h.only i _ (.inr ⟨c,hc,rfl⟩) hg
  · exact h

theorem Part.serviceAll_other (laws : TcpLaws api) (replies : ℕ → List (List UInt8))
    {ks : List ℕ} (hinv : Inv api flight s) (htx : s.tx = []) (h : Part T s.pending s place v) (hks : ∀ k ∈ ks, place ≠ some k) :
    Part T (ks.foldl (serviceOne api replies) s).pending (ks.foldl (serviceOne api replies) s)
      place v := by
  induction ks generalizing s with
  | nil => exact h
  | cons k ks ih =>
    exact ih (hinv.serviceOne laws htx replies k) ((serviceOne_keeps api replies s k).1.trans htx)
      (h.serviceOne_other hinv (hks k (by simp))) fun i hi => hks i (by simp [hi])

theorem Part.serviceAll_self (laws : TcpLaws api) {ks : List ℕ} (hinv : Inv api flight s)
    (htx : s.tx = []) (hreplies : Answers T replies flowReplies s) (h : Part T s.pending s place v)
    (hnodup : ks.Nodup) {k : ℕ} (hk : place = some k) (hmem : k ∈ ks) :
    Part T (ks.foldl (serviceOne api replies) s).pending (ks.foldl (serviceOne api replies) s)
      place (v.service api flowReplies) := by
  induction ks generalizing s with
  | nil => cases hmem
  | cons i ks ih =>
    have hinv' := hinv.serviceOne laws htx replies i
    have htx' := (serviceOne_keeps api replies s i).1.trans htx
    obtain ⟨hi,hks⟩ := List.nodup_cons.mp hnodup
    by_cases hik : i = k
    · subst hik
      have hserved := h.serviceOne_self hinv hreplies hk
      have hrest : ∀ j ∈ ks, place ≠ some j := fun j hj heq =>
        hi (by rw [hk,Option.some.injEq] at heq; exact heq ▸ hj)
      have hdone := Part.serviceAll_other laws replies hinv' htx' hserved hrest
      exact hdone
    · refine ih hinv' htx' (hreplies.serviceOne i) (h.serviceOne_other hinv ?_) hks ?_
      · rw [hk]; simpa using Ne.symm hik
      · exact (List.mem_cons.mp hmem).resolve_left (Ne.symm hik)

theorem Part.service (laws : TcpLaws api) (hinv : Inv api flight s) (htx : s.tx = [])
    (hreplies : Answers T replies flowReplies s) (h : Part T s.pending s place v) :
    Part T (service api replies s).pending (service api replies s) place
      (v.service api flowReplies) := by
  cases hplace : place with
  | none =>
    have hsame : v.service api flowReplies = v := by
      simp only [FlowState.service,h.empty hplace]
    rw [hsame]
    exact Part.serviceAll_other laws replies hinv htx (hplace ▸ h) fun k _ => by simp
  | some k =>
    by_cases hk : k ∈ handles s
    · exact Part.serviceAll_self laws hinv htx hreplies (hplace ▸ h) (Table.nodup_keys s.active) rfl hk
    · obtain ⟨⟨f,sock,conn?⟩,he,hat⟩ := h.entry k hplace
      cases conn? with
      | none =>
        have hsame : v.service api flowReplies = v := by simp only [FlowState.service,he]
        rw [hsame]
        refine Part.serviceAll_other laws replies hinv htx (hplace ▸ h) fun i hi heq => hk ?_
        rw [Option.some.injEq] at heq
        exact heq ▸ hi
      | some c =>
        obtain ⟨conn,hconn,-⟩ := hat.active c rfl
        exact absurd (List.mem_map.mpr ⟨(k,conn),(Table.mem_toList _ _ _).mpr hconn,rfl⟩) hk

end Service

section Remove

section

variable (h : Part T s.pending s place v)
include h

theorem Part.removeOne_self {k : ℕ} (hk : place = some k)
    (hpending : ∀ p ∈ s.pending, p.handle ≠ k) :
    Part T (removeOne s k).pending (removeOne s k) none {v with entry := none} := by
  refine ⟨h.commands,h.packets,h.bridges,fun _ => rfl,(fun i hi => by cases hi),
    fun i f hi hf => ?_⟩
  have hold : Placed s.pending s.active i f ∧ i ≠ k := by
    rcases hi with hi | ⟨conn,hconn,rfl⟩
    · exact ⟨.inl hi,hpending _ hi⟩
    · simp only [removeOne,Table.get_remove] at hconn
      split at hconn
      · cases hconn
      · next hne => exact ⟨.inr ⟨conn,hconn,rfl⟩,hne⟩
  have hplace := h.only i f hold.1 hf
  rw [hk,Option.some.injEq] at hplace
  exact absurd hplace.symm hold.2

theorem Part.removeOne_other {k : ℕ} (hk : place ≠ some k) :
    Part T (removeOne s k).pending (removeOne s k) place v := by
  refine ⟨h.commands,h.packets,h.bridges,h.empty,fun i hi => ?_,fun i f hi hf => ?_⟩
  · obtain ⟨e,he,hat⟩ := h.entry i hi
    have hne : i ≠ k := fun heq => hk (heq ▸ hi)
    exact ⟨e,he,hat.frame ((socketAt_set_none _ _ i).trans (if_neg hne)) (fun _ => id)
      (Table.get_remove_ne hne) fun _ _ => rfl⟩
  · rcases hi with hi | ⟨conn,hconn,rfl⟩
    · exact h.only i f (.inl hi) hf
    · simp only [removeOne,Table.get_remove] at hconn
      split at hconn
      · cases hconn
      · exact h.only i _ (.inr ⟨conn,hconn,rfl⟩) hf

theorem Part.removeAll_other {ks : List ℕ} (hks : ∀ k ∈ ks, place ≠ some k) :
    Part T (ks.foldl removeOne s).pending (ks.foldl removeOne s) place v := by
  induction ks generalizing s with
  | nil => exact h
  | cons k ks ih => exact ih (h.removeOne_other (hks k (by simp))) fun i hi => hks i (by simp [hi])

theorem Part.removeAll_self {ks : List ℕ} {k : ℕ}
    (hk : place = some k) (hmem : k ∈ ks) (hpending : ∀ p ∈ s.pending, p.handle ≠ k) :
    Part T (ks.foldl removeOne s).pending (ks.foldl removeOne s) none {v with entry := none} := by
  induction ks generalizing s with
  | nil => cases hmem
  | cons i ks ih =>
    by_cases hik : i = k
    · subst hik
      have hrest : ∀ j ∈ ks, (none : Option ℕ) ≠ some j := fun j _ => by simp
      have hdone := (h.removeOne_self hk hpending).removeAll_other hrest
      exact hdone
    · refine ih (h.removeOne_other ?_) ((List.mem_cons.mp hmem).resolve_left (Ne.symm hik)) hpending
      rw [hk]; simpa using Ne.symm hik

end

theorem Part.removeClosed (hinv : Inv api flight s) (h : Part T s.pending s place v) :
    ∃ place', Part T (removeClosed api s).pending (removeClosed api s) place'
      (v.removeClosed api) := by
  have hpromoted : ∀ {place' : Option ℕ} {w : FlowState τ},
      Part T (((handles s).filter (isClosed api s)).foldl removeOne s).pending
        (((handles s).filter (isClosed api s)).foldl removeOne s) place' w →
      Part T (SmoltcpForwarder.removeClosed api s).pending (SmoltcpForwarder.removeClosed api s)
        place' w := fun hp => ⟨hp.commands,hp.packets,hp.bridges,hp.empty,hp.entry,hp.only⟩
  have hhandles : ∀ k, k ∈ handles s ↔ ∃ conn, s.active.get k = some conn := by
    intro k
    simp [handles,Table.mem_toList]
  cases hplace : place with
  | none =>
    have hsame : v.removeClosed api = v := by simp only [FlowState.removeClosed,h.empty hplace]
    rw [hsame]
    exact ⟨none,hpromoted ((hplace ▸ h : Part T s.pending s none v).removeAll_other
      fun k _ => by simp)⟩
  | some k =>
    obtain ⟨⟨f,sock,conn?⟩,he,hat⟩ := h.entry k hplace
    obtain ⟨slot,hslot,hsock⟩ := hat.socket
    subst hsock
    have hkept : k ∉ (handles s).filter (isClosed api s) → ∃ place',
        Part T (SmoltcpForwarder.removeClosed api s).pending
          (SmoltcpForwarder.removeClosed api s) place' v := fun hk =>
      ⟨place,hpromoted (h.removeAll_other fun i hi heq => hk (by
        rw [hplace,Option.some.injEq] at heq; exact heq ▸ hi))⟩
    cases conn? with
    | none =>
      simp only [FlowState.removeClosed,he]
      refine hkept fun hk => ?_
      obtain ⟨conn,hconn⟩ := (hhandles k).mp (List.mem_filter.mp hk).1
      rw [hinv.owned.apart _ (hat.pending rfl)] at hconn
      cases hconn
    | some c =>
      obtain ⟨conn,hconn,-⟩ := hat.active c rfl
      have hclosed : isClosed api s k = true ↔
          ¬ isActive (api.state slot.sock) ∧ api.state slot.sock ≠ .listen := by
        simp [isClosed,hslot]
      simp only [FlowState.removeClosed,he]
      split
      · next hgone =>
        refine ⟨none,hpromoted (h.removeAll_self hplace (List.mem_filter.mpr
          ⟨(hhandles k).mpr ⟨conn,hconn⟩,hclosed.mpr hgone⟩) fun p hp heq => ?_)⟩
        have hnone := hinv.owned.apart p hp
        rw [heq,hconn] at hnone
        cases hnone
      · next hopen => exact hkept fun hk => hopen (hclosed.mp (List.mem_filter.mp hk).2)

end Remove

section Upstream

/-- What the upstream side sends back, given what its connection has been sent. -/
abbrev Upstream : Type := ℕ → Flow → List (List UInt8) → List (List UInt8)

def answers (upstream : Upstream) (now : ℕ) (bridges : List Written) (i : ℕ) : List (List UInt8) :=
  bridges[i]?.elim [] fun w => upstream now w.1 w.2

theorem promoteAll_bridges (left : List PendingTcpConn) (s : Forwarder τ) :
    ∃ opened, (left.foldl promoteOne s).bridges = s.bridges++opened := by
  induction left generalizing s with
  | nil => exact ⟨[],by simp⟩
  | cons p left ih =>
    obtain ⟨opened,hopened⟩ := ih (promoteOne s p)
    have hone : ∃ first, (promoteOne s p).bridges = s.bridges++first := by
      unfold promoteOne
      split
      · exact ⟨[],by simp⟩
      · exact ⟨_,rfl⟩
    obtain ⟨first,hfirst⟩ := hone
    exact ⟨first++opened,by rw [List.foldl_cons,hopened,hfirst,List.append_assoc]⟩

/-- A bridge is answered by its place among all bridges or among the flow's; a new one has
nothing to answer yet. -/
theorem Part.answers (hinv : Inv api flight s) (htx : s.tx = []) (h : Part T s.pending s place v)
    (upstream : Upstream) (now : ℕ) :
    Answers T (answers upstream now (s.bridges.map written)) (answers upstream now v.bridges)
      (SmoltcpForwarder.promote api s) := by
  intro k conn hconn hT
  obtain ⟨b,hb,hflow⟩ := (hinv.promote htx).delivered.bridge k conn hconn
  have hbT : isBridgeOf T b = true := by simpa [isBridgeOf,hflow] using hT
  obtain ⟨opened,hopened⟩ := promoteAll_bridges (s.pending.filter (isEstablished api s)).reverse
    {s with pending := s.pending.filter fun p => ¬ isEstablished api s p}
  have hbridges : (SmoltcpForwarder.promote api s).bridges = s.bridges++opened := hopened
  rw [hbridges] at hb ⊢
  rcases Nat.lt_or_ge conn.bridge s.bridges.length with hlt | hge
  · rw [List.getElem?_append_left hlt] at hb
    have hrank := getElem?_filter_rank hb hbT
    rw [rank_append (Nat.le_of_lt hlt)]
    simp [FlowMachine.answers,← h.bridges,List.getElem?_map,hb,hrank]
  · have hlong := length_filter_le_rank (p := isBridgeOf T) hge opened
    have hnone : v.bridges[rank (isBridgeOf T) (s.bridges++opened) conn.bridge]? = none := by
      rw [List.getElem?_eq_none_iff,← h.bridges,List.length_map]
      exact hlong
    simp [FlowMachine.answers,hnone,List.getElem?_eq_none hge]

end Upstream

theorem Part.phase (h : Part T waiting s place v) (phase : Phase) :
    Part T waiting {s with phase := phase} place v :=
  ⟨h.commands,h.packets,h.bridges,h.empty,h.entry,h.only⟩

/-- The end of an iteration. -/
theorem Part.finish (laws : TcpLaws api) {replies flowReplies : ℕ → List (List UInt8)}
    (hinv : Inv api flight s) (htx : s.tx = []) (hpromoted : PromotedActive s)
    (h : Part T s.pending s place v)
    (hreplies : Answers T replies flowReplies (SmoltcpForwarder.promote api s)) :
    ∃ place', Part T (finish api replies s).pending (finish api replies s) place'
      (v.finish api flowReplies) := by
  have htx' := (promote_keeps api s).1.trans htx
  have hserved := (h.promote hinv hpromoted).service laws (hinv.promote htx) htx' hreplies
  obtain ⟨place',hdone⟩ := hserved.removeClosed ((hinv.promote htx).service laws htx' replies).1
  rw [SmoltcpForwarder.finish,FlowState.finish]
  exact ⟨place',hdone.phase .drain⟩

theorem removeClosed_promotedActive (s : Forwarder τ) : PromotedActive (removeClosed api s) := by
  unfold removeClosed
  generalize List.foldl removeOne s _ = removed
  intro k hk
  obtain ⟨conn,hconn⟩ := (Table.contains_iff _ _).mp (List.mem_filter.mp hk).2
  simp [hconn]

theorem finish_promotedActive (replies : ℕ → List (List UInt8)) :
    PromotedActive (finish api replies s) := by
  rw [SmoltcpForwarder.finish]
  generalize service api replies (SmoltcpForwarder.promote api s) = served
  exact removeClosed_promotedActive served

end Part

end Bonded.FlowMachine
