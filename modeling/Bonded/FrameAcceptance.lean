import Bonded.ServerSession
import Bonded.SessionDelivery
import Bonded.TcpStack

/-! Whether the client's session layer takes the frames of a server session. Responses get their
headers from three places: the counter of the TCP poll thread, the counters of the UDP flows and
the echoed headers of ICMP requests. -/
namespace Bonded.FrameAcceptance

open Ipv4 Machine Packet ServerSession Session SessionDelivery SmoltcpForwarder

/-- The connection id of the client's packet loop. -/
def clientId : UInt32 := 1

def data (frames : List SessionFrame) : List SessionFrame :=
  frames.filter fun f => f.payload ≠ []

/-- The client's calls for the frames, in order. -/
def received (frames : List SessionFrame) :
    List (Except SessionStateError (List SessionFrame)) × SessionState :=
  ingestAll (SessionState.new clientId) frames

/-- No call fails, and every packet is delivered; in particular the packets are the client's
and the numbers distinct, as long as they do not wrap. -/
structure Acceptable (frames : List SessionFrame) : Prop where
  accepted : ∀ r ∈ (received frames).1, ∃ ready, r = .ok ready
  delivered : (data ((received frames).1.flatMap released)).Perm (data frames)
  connection : ∀ f ∈ data frames, f.header.connectionId = clientId
  distinct : frames.length ≤ 2^64 → (frames.map fun f => f.header.sequence).Nodup

/-- The header that the client expects after some frames. -/
def Next (frames : List SessionFrame) (header : SessionHeader) : Prop :=
  header.connectionId = clientId ∧ header.sequence = UInt64.ofNat frames.length

instance (frames : List SessionFrame) (header : SessionHeader) : Decidable (Next frames header) :=
  inferInstanceAs (Decidable (_ ∧ _))

def InOrder (frames : List SessionFrame) : Prop :=
  ∀ i f, frames[i]? = some f →
    f.header.connectionId = clientId ∧ f.header.sequence = UInt64.ofNat i

theorem inOrder_nil : InOrder [] := by simp [InOrder]

variable {f : SessionFrame} {frames : List SessionFrame} {s : SessionState}

theorem inOrder_append_iff : InOrder (frames++[f]) ↔ InOrder frames ∧ Next frames f.header := by
  constructor
  · intro h
    refine ⟨fun i g hg => h i g ?_,h frames.length f (by simp)⟩
    rw [List.getElem?_append_left (List.getElem?_eq_some_iff.mp hg).1,hg]
  · rintro ⟨h,hnext⟩ i g hg
    rcases Nat.lt_or_ge i frames.length with hi | hi
    · rw [List.getElem?_append_left hi] at hg
      exact h i g hg
    · rw [List.getElem?_append_right hi] at hg
      have hlast : i-frames.length = 0 := by
        by_contra hne
        rw [List.getElem?_eq_none (by simp; omega)] at hg
        cases hg
      rw [hlast] at hg
      simp only [List.getElem?_cons_zero,Option.some.injEq] at hg
      subst hg
      rw [show i = frames.length by omega]
      exact hnext

/-- A receiver that has handed on everything it was given. -/
structure Clear (n : ℕ) (s : SessionState) : Prop where
  connection : s.connectionId = clientId
  sequence : s.nextRxSequence = UInt64.ofNat n
  buffer : ∀ q, s.reorderBuffer.get q = none

theorem drainReady_missing (n : ℕ) (h : s.reorderBuffer.get s.nextRxSequence = none) :
    drainReady n s = ([],s) := by
  cases n with
  | zero => rfl
  | succ n => simp only [drainReady,h]

theorem Clear.ingest_next {n : ℕ} (h : Clear n s) (hc : f.header.connectionId = clientId)
    (hq : f.header.sequence = UInt64.ofNat n) :
    (ingestInbound s f).1 = .ok [f] ∧ Clear (n+1) (ingestInbound s f).2 := by
  have hstale : ¬ f.header.sequence < s.nextRxSequence := by
    rw [hq,h.sequence]; exact UInt64.lt_irrefl _
  rw [ingestInbound_accept (hc.trans h.connection.symm) hstale]
  have hget : (s.reorderBuffer.orInsert f.header.sequence f).get s.nextRxSequence = some f := by
    rw [Table.get_orInsert,if_pos (h.sequence.trans hq.symm),h.buffer]; rfl
  obtain ⟨m,hm⟩ : ∃ m, (s.reorderBuffer.orInsert f.header.sequence f).size = m+1 := by
    refine Nat.exists_eq_succ_of_ne_zero fun hzero => ?_
    rw [Table.get_of_size_zero hzero] at hget
    cases hget
  have hempty : ∀ q, ((s.reorderBuffer.orInsert f.header.sequence f).remove
      s.nextRxSequence).get q = none := by
    intro q
    rw [Table.get_remove]
    split
    · rfl
    · next hne =>
      rw [Table.get_orInsert,if_neg (by rwa [hq,← h.sequence]),h.buffer]
  simp only [hm,drainReady,hget]
  rw [drainReady_missing m (hempty _)]
  refine ⟨rfl,h.connection,?_,hempty⟩
  simp only [h.sequence,UInt64.ofNat_add]
  rfl

theorem Clear.ingest_gap {n : ℕ} (h : Clear n s) (hc : f.header.connectionId = clientId)
    (hq : f.header.sequence ≠ UInt64.ofNat n) (hstale : ¬ f.header.sequence < s.nextRxSequence) :
    (ingestInbound s f).1 = .ok [] := by
  rw [ingestInbound_accept (hc.trans h.connection.symm) hstale]
  have hget : (s.reorderBuffer.orInsert f.header.sequence f).get s.nextRxSequence = none := by
    rw [Table.get_orInsert,h.sequence,if_neg hq.symm,h.buffer]
  simp only
  rw [drainReady_missing _ hget]

theorem received_append (frames : List SessionFrame) (f : SessionFrame) :
    received (frames++[f]) = ((received frames).1++[(ingestInbound (received frames).2 f).1],
      (ingestInbound (received frames).2 f).2) := by
  simp only [received,ingestAll_append,ingestAll]

theorem inOrder_received (h : InOrder frames) :
    (received frames).1 = frames.map (fun f => .ok [f]) ∧
      Clear frames.length (received frames).2 := by
  induction frames using List.reverseRecOn with
  | nil => exact ⟨rfl,rfl,rfl,fun q => rfl⟩
  | append_singleton frames f ih =>
    obtain ⟨hframes,hc,hq⟩ := inOrder_append_iff.mp h
    obtain ⟨hresults,hclear⟩ := ih hframes
    obtain ⟨hok,hnext⟩ := hclear.ingest_next hc hq
    rw [received_append]
    exact ⟨by simp [hresults,hok],by simpa using hnext⟩

theorem InOrder.acceptable (h : InOrder frames) : Acceptable frames := by
  have hresults := (inOrder_received h).1
  refine ⟨?_,?_,?_,fun hlen => ?_⟩
  · simp [hresults]
  · simp [hresults,List.flatMap_map,released]
  · intro f hf
    obtain ⟨i,hi⟩ := List.mem_iff_getElem?.mp (List.mem_filter.mp hf).1
    exact (h i f hi).1
  · refine List.nodup_iff_injective_getElem.mpr fun i j hij => Fin.ext ?_
    have hget : ∀ k : Fin (frames.map fun f : SessionFrame => f.header.sequence).length,
        (frames.map fun f : SessionFrame => f.header.sequence)[k].toNat = k := by
      intro k
      have hk : k.1 < frames.length := by simpa using k.2
      simp only [Fin.getElem_fin,List.getElem_map]
      rw [(h k _ (List.getElem?_eq_getElem hk)).2]
      exact UInt64.toNat_ofNat_of_lt' (Nat.lt_of_lt_of_le hk hlen)
    rw [← hget i,← hget j]
    exact congrArg UInt64.toNat hij

theorem InOrder.not_acceptable (h : InOrder frames) (hnext : ¬ Next frames f.header)
    (hdata : f.payload ≠ [] ∨ f.header.connectionId ≠ clientId) : ¬ Acceptable (frames++[f]) := by
  intro hacc
  obtain ⟨hresults,hclear⟩ := inOrder_received h
  have hlast : ∃ ready, (ingestInbound (received frames).2 f).1 = .ok ready :=
    hacc.accepted _ (by simp [received_append])
  by_cases hc : f.header.connectionId = clientId
  · have hpayload := hdata.resolve_right (by simp [hc])
    by_cases hstale : f.header.sequence < (received frames).2.nextRxSequence
    · rw [ingestInbound_stale (hc.trans hclear.connection.symm) hstale] at hlast
      obtain ⟨_,hlast⟩ := hlast
      cases hlast
    · have hgap := hclear.ingest_gap hc (fun hq => hnext ⟨hc,hq⟩) hstale
      have hlen := hacc.delivered.length_eq
      simp [received_append,hresults,hgap,List.flatMap_map,released,data,hpayload] at hlen
  · rw [ingestInbound_foreign (by rwa [hclear.connection])] at hlast
    obtain ⟨_,hlast⟩ := hlast
    cases hlast

section Session

variable {τ : Type}

/-- What a probe's socket has received is an echo reply, and its packet not too long. -/
def isEchoReply (buf : List UInt8) : Prop := 8 ≤ buf.length ∧ byteAt buf 0 = 0 ∧ buf.length ≤ 65515

/-- A packet of the stack is for a known flow, and its header within the packet. -/
def isSendable (s : Forwarder τ) (packet : Tx) : Bool :=
  ((txTriple packet.bytes).bind (flowSource s)).isSome && ihl packet.bytes*4 ≤ packet.bytes.length

/-- The condition on a step: the poll thread has no packet for a known flow to send; a UDP
response that is sent, and an ICMP request that is answered, carries the header that the client
expects next. -/
def Numbered (s : State τ) : ServerSession.Event → Prop
  | .tcp .emit => s.tcp.phase = .emit → ∀ packet, s.tcp.tx.head? = some packet →
      isSendable s.tcp packet = false
  | .udpSend handle => ∀ sending, respondingFlow s handle = some sending →
      sending.2.datagram.length ≤ 65507 → Next s.outbound sending.2.header
  | .icmpReply i (some datagram) => ∀ task, s.icmpTasks[i]? = some task →
      isEchoReply (datagram.take bufferLen) → Next s.outbound task.header
  | _ => True

theorem buildIpv4UdpPacket_some {srcIp dstIp : Ipv4Addr} {srcPort dstPort identification : ℕ}
    {udpPayload : List UInt8} (h : udpPayload.length ≤ 65507) :
    ∃ packet, buildIpv4UdpPacket srcIp dstIp srcPort dstPort identification udpPayload =
      some packet ∧ packet ≠ [] := by
  simp only [buildIpv4UdpPacket]
  rw [if_neg (by omega)]
  refine ⟨_,rfl,?_⟩
  simp [ipv4Header,putAt]

theorem buildIpv4UdpPacket_long {srcIp dstIp : Ipv4Addr} {srcPort dstPort identification : ℕ}
    {udpPayload : List UInt8} (h : 65507 < udpPayload.length) :
    buildIpv4UdpPacket srcIp dstIp srcPort dstPort identification udpPayload = none := by
  simp only [buildIpv4UdpPacket]
  rw [if_pos (by omega)]

theorem length_restoreEcho {pkt : Ipv4IcmpEchoPacket} {buf : List UInt8} (h : 8 ≤ buf.length) :
    (restoreEcho pkt buf).length = buf.length := by
  have h₁ : 4+(be16Bytes pkt.echoIdentifier).length ≤ buf.length := by
    rw [length_be16Bytes]; omega
  have h₂ : 2+[(0 : UInt8),0].length ≤ (putAt buf 4 (be16Bytes pkt.echoIdentifier)).length := by
    rw [length_putAt h₁]; simp; omega
  simp only [restoreEcho]
  rw [length_putAt (by rw [length_putAt h₂,length_putAt h₁,length_be16Bytes]; omega),
    length_putAt h₂,length_putAt h₁]

/-- A probe is answered for an echo reply that fits, and for nothing else. -/
theorem forwardIcmp_reply (task : IcmpTask) {datagram : List UInt8}
    (h : isEchoReply (datagram.take bufferLen)) :
    ∃ payload, forwardIcmp task (some datagram) = some ⟨task.header,payload⟩ ∧ payload ≠ [] := by
  obtain ⟨hlen,hbyte,hfit⟩ := h
  simp only [forwardIcmp,buildIpv4IcmpPacket]
  rw [if_neg (by simp [hbyte] at hlen ⊢; omega),length_restoreEcho hlen,if_neg (by omega)]
  exact ⟨_,rfl,by simp [ipv4Header,putAt]⟩

theorem forwardIcmp_other {task : IcmpTask} {datagram : List UInt8}
    (h : ¬ isEchoReply (datagram.take bufferLen)) : forwardIcmp task (some datagram) = none := by
  simp only [forwardIcmp]
  split
  · rfl
  · next hok =>
    obtain ⟨hlen,hbyte⟩ := not_or.mp hok
    have hlong : ¬ (datagram.take bufferLen).length ≤ 65515 :=
      fun hfit => h ⟨Nat.not_lt.mp hlen,not_not.mp hbyte,hfit⟩
    simp only [buildIpv4IcmpPacket]
    rw [length_restoreEcho (Nat.not_lt.mp hlen),if_pos (by omega)]
    rfl

theorem trySend_emitted (s : Forwarder τ) (command : PollCommand) :
    (trySend s command).emitted = s.emitted := by
  unfold trySend
  split <;> rfl

theorem beginIngest_emitted (s : Forwarder τ) (payload : List UInt8) :
    (beginIngest s payload).emitted = s.emitted := by
  have hannounce : (announceSyn s payload).emitted = s.emitted := by
    unfold announceSyn
    split
    · exact trySend_emitted _ _
    · rfl
  unfold beginIngest
  repeat' split
  · rfl
  · exact hannounce
  · rfl

variable {s t : Forwarder τ} {e : SmoltcpForwarder.Event}

theorem takeCommand_emitted {api : TcpApi τ} (h : takeCommand api s = some t) :
    t.emitted = s.emitted := by
  unfold takeCommand at h
  split at h
  · cases h
  · cases h; rfl
  · cases h
    unfold createTcpSocket
    split <;> rfl

theorem step_emitted {api : TcpApi τ} (h : SmoltcpForwarder.step api s e = some t)
    (he : e ≠ .emit) : t.emitted = s.emitted := by
  cases e <;> simp only [SmoltcpForwarder.step] at h <;> try split at h
  all_goals try cases h
  case ingest.isTrue payload _ => exact beginIngest_emitted s payload
  case inject.isFalse =>
    unfold endIngest
    split
    · exact trySend_emitted _ _
    · rfl
  case command.isTrue => exact takeCommand_emitted h
  case poll.isTrue now rounds _ =>
    have hkeeps := (pollStack_keeps api now rounds s).2
    simp only [besidesStack,Prod.mk.injEq] at hkeeps
    exact hkeeps.2.2.2.2.2.2.2
  case emit => exact absurd rfl he
  case finish.isTrue replies _ =>
    have hkeeps := finish_keeps api replies s
    simp only [besidesFinish,Prod.mk.injEq] at hkeeps
    exact hkeeps.2.2.2.2

theorem drainTx_sendable {packet : Tx} {rest : List Tx} (htx : s.tx = packet::rest)
    (h : isSendable s packet = true) :
    ∃ t f, drainTx s = some t ∧ t.emitted = s.emitted++[⟨f,packet.producer⟩] ∧
      f.header.connectionId = 0 := by
  simp only [isSendable,Bool.and_eq_true,decide_eq_true_eq] at h
  obtain ⟨ip,hip⟩ := Option.isSome_iff_exists.mp h.1
  obtain ⟨triple,htriple,_⟩ := Option.bind_eq_some_iff.mp hip
  obtain ⟨payload,hpayload⟩ :=
    Option.isSome_iff_exists.mp ((rewriteSrcIpOutbound_isSome ip htriple).mpr h.2)
  exact ⟨_,_,by simp only [drainTx,htx,hip,hpayload]; rfl,rfl,rfl⟩

theorem drainTx_unsendable {packet : Tx} {rest : List Tx} (htx : s.tx = packet::rest)
    (h : isSendable s packet = false) (ht : drainTx s = some t) : t.emitted = s.emitted := by
  simp only [drainTx,htx] at ht
  split at ht
  · cases ht; rfl
  · next ip hip =>
    obtain ⟨triple,htriple,_⟩ := Option.bind_eq_some_iff.mp hip
    split at ht
    · cases ht; rfl
    · next payload hpayload =>
      have hlen := (rewriteSrcIpOutbound_isSome ip htriple).mp (by simp [hpayload])
      simp [isSendable,hip,hlen] at h

theorem ingestPacket_outbound (s : State τ) (frame : SessionFrame) :
    (ServerSession.ingestPacket s frame).outbound = s.outbound := by
  unfold ServerSession.ingestPacket dispatchUdp dispatchIcmp
  repeat' split
  all_goals rfl

theorem forwardUdpPacket_outbound (s : State τ) (i : ℕ) (task : UdpTask) (opened : Bool) :
    (forwardUdpPacket s i task opened).outbound = s.outbound := by
  unfold forwardUdpPacket
  repeat' split
  all_goals rfl

variable {api : TcpApi τ}

theorem stepTcp_outbound {s t : State τ} (h : stepTcp api s e = some t) :
    ∃ tcp, SmoltcpForwarder.step api s.tcp e = some tcp ∧
      t.outbound = s.outbound++(tcp.emitted.drop s.tcp.emitted.length).map Emitted.frame := by
  unfold stepTcp at h
  split at h
  · cases h
  · obtain ⟨tcp,htcp,rfl⟩ := Option.map_eq_some_iff.mp h
    exact ⟨tcp,htcp,rfl⟩

theorem numbered_stepTcp {s t : State τ} (hg : Numbered s (.tcp e)) (h : stepTcp api s e = some t) :
    t.outbound = s.outbound := by
  obtain ⟨tcp,htcp,hout⟩ := stepTcp_outbound h
  have hsame : tcp.emitted = s.tcp.emitted := by
    by_cases he : e = .emit
    · subst he
      simp only [SmoltcpForwarder.step] at htcp
      split at htcp
      · next hphase =>
        cases htx : s.tcp.tx with
        | nil => simp [drainTx,htx] at htcp
        | cons packet rest =>
          exact drainTx_unsendable htx (hg hphase packet (by simp [htx])) htcp
      · cases htcp
    · exact step_emitted htcp he
  rw [hout,hsame]
  simp

theorem InOrder.step {s t : State τ} {e : ServerSession.Event} (h : InOrder s.outbound)
    (hg : Numbered s e) (ht : ServerSession.step api s e = some t) : InOrder t.outbound := by
  cases e with
  | ingest frame =>
    simp only [ServerSession.step] at ht
    split at ht
    · cases ht
      rwa [ingestPacket_outbound]
    · cases ht
  | tcp e => rwa [numbered_stepTcp hg ht]
  | udpTask i opened =>
    obtain ⟨task,_,rfl⟩ := Option.map_eq_some_iff.mp ht
    rwa [forwardUdpPacket_outbound]
  | udpReceive handle datagram =>
    obtain ⟨flow,_,rfl⟩ := Option.map_eq_some_iff.mp ht
    exact h
  | udpSend handle =>
    obtain ⟨⟨flow,r⟩,hflow,rfl⟩ := Option.map_eq_some_iff.mp ht
    by_cases hlen : r.datagram.length ≤ 65507
    · obtain ⟨packet,hpacket,_⟩ := buildIpv4UdpPacket_some hlen
      simp only [UdpFlow.frame]
      rw [hpacket]
      exact inOrder_append_iff.mpr ⟨h,hg _ hflow hlen⟩
    · simp only [UdpFlow.frame]
      rw [buildIpv4UdpPacket_long (by omega)]
      simpa using h
  | udpStop handle =>
    obtain ⟨flow,_,rfl⟩ := Option.map_eq_some_iff.mp ht
    exact h
  | icmpReply i received =>
    obtain ⟨task,htask,rfl⟩ := Option.map_eq_some_iff.mp ht
    cases received with
    | none => simpa [forwardIcmp] using h
    | some datagram =>
      by_cases hreply : isEchoReply (datagram.take bufferLen)
      · obtain ⟨payload,hframe,_⟩ := forwardIcmp_reply task hreply
        simp only [hframe]
        exact inOrder_append_iff.mpr ⟨h,hg task htask hreply⟩
      · simp only [forwardIcmp_other hreply]
        simpa using h

/-- A step that does not meet the condition sends a frame that does not come next. -/
theorem unnumbered_step (api : TcpApi τ) {s : State τ} {e : ServerSession.Event}
    (hg : ¬ Numbered s e) : ∃ f, ¬ Next s.outbound f.header ∧
      (f.payload ≠ [] ∨ f.header.connectionId ≠ clientId) ∧
      ∃ t, ServerSession.step api s e = some t ∧ t.outbound = s.outbound++[f] := by
  cases e with
  | tcp e =>
    cases e with
    | emit =>
      simp only [Numbered,not_forall,Bool.not_eq_false] at hg
      obtain ⟨hphase,packet,hhead,hsend⟩ := hg
      obtain ⟨rest,htx⟩ := List.head?_eq_some_iff.mp hhead
      obtain ⟨tcp,f,htcp,hemit,hzero⟩ := drainTx_sendable htx hsend
      have hforeign : f.header.connectionId ≠ clientId := by rw [hzero]; decide
      refine ⟨f,fun hnext => hforeign hnext.1,.inr hforeign,?_⟩
      simp [ServerSession.step,stepTcp,SmoltcpForwarder.step,hphase,htcp,hemit]
    | ingest | inject | command | poll | finish => exact absurd trivial hg
  | udpSend handle =>
    simp only [Numbered,not_forall] at hg
    obtain ⟨⟨flow,r⟩,hflow,hlen,hnext⟩ := hg
    obtain ⟨packet,hpacket,hne⟩ := buildIpv4UdpPacket_some hlen
    refine ⟨⟨r.header,packet⟩,hnext,.inl hne,?_⟩
    simp only [ServerSession.step,hflow,UdpFlow.frame,Option.map_some]
    rw [hpacket]
    exact ⟨_,rfl,rfl⟩
  | icmpReply i received =>
    cases received with
    | none => exact absurd trivial hg
    | some datagram =>
      simp only [Numbered,not_forall] at hg
      obtain ⟨task,htask,hreply,hnext⟩ := hg
      obtain ⟨payload,hframe,hne⟩ := forwardIcmp_reply task hreply
      refine ⟨⟨task.header,payload⟩,hnext,.inl hne,?_⟩
      simp only [ServerSession.step,htask,hframe,Option.map_some]
      exact ⟨_,rfl,rfl⟩
  | ingest | udpTask | udpReceive | udpStop => exact absurd trivial hg

end Session

open TcpStack in
/-- The client opens a TCP connection, and the stack answers its SYN. -/
def synRun : List ServerSession.Event :=
  [.ingest ⟨⟨clientId,0,0⟩,syn flowA⟩,.tcp .inject,.tcp .command,.tcp .command,.tcp (.poll 0 1),
    .tcp .emit]

def query (srcPort : ℕ) : List UInt8 :=
  (buildIpv4UdpPacket TcpStack.clientIp ⟨8,8,8,8⟩ srcPort 53 7 [1]).getD []

def response (handle : ℕ) : List ServerSession.Event := [.udpReceive handle [9],.udpSend handle]

/-- Two UDP flows, the first of which gets two datagrams and the second one. -/
def twoFlowsRun : List ServerSession.Event :=
  .ingest ⟨⟨clientId,0,0⟩,query 5000⟩::List.replicate 3 (.udpTask 0 true)++
    .ingest ⟨⟨clientId,1,0⟩,query 5001⟩::List.replicate 3 (.udpTask 0 true)++
    response 0++response 0++response 1

end Bonded.FrameAcceptance
