import Bonded.Session
import Bonded.Arrival

/-! Exactly-once, in-order delivery of the session layer under loss,
duplication and reordering. -/
namespace Bonded.SessionDelivery

open Session Arrival

/-- The frames of successive `createOutboundFrame` calls. -/
def sendAll : SessionState → List (List UInt8 × UInt32) → List SessionFrame
  | _, [] => []
  | s, m::ms => (createOutboundFrame s m.1 m.2).1::sendAll (createOutboundFrame s m.1 m.2).2 ms

def sentFrames (c : UInt32) (msgs : List (List UInt8 × UInt32)) : List SessionFrame :=
  sendAll (SessionState.new c) msgs

/-- The results of successive `ingestInbound` calls, and the state they leave. -/
def ingestAll : SessionState → List SessionFrame →
    List (Except SessionStateError (List SessionFrame)) × SessionState
  | s, [] => ([],s)
  | s, f::fs =>
    let r := ingestInbound s f
    let rest := ingestAll r.2 fs
    (r.1::rest.1,rest.2)

def released : Except SessionStateError (List SessionFrame) → List SessionFrame
  | .ok frames => frames
  | .error _ => []

/-- The first arrived frame of connection `c` with sequence number `q`. -/
def firstCopy (c : UInt32) (arrived : List SessionFrame) (q : UInt64) : Option SessionFrame :=
  arrived.find? fun f => f.header.connectionId = c ∧ f.header.sequence = q

theorem ingestAll_append (s : SessionState) (xs ys : List SessionFrame) :
    ingestAll s (xs++ys) =
      ((ingestAll s xs).1++(ingestAll (ingestAll s xs).2 ys).1,
        (ingestAll (ingestAll s xs).2 ys).2) := by
  induction xs generalizing s with
  | nil => rfl
  | cons x xs ih => simp only [List.cons_append,ingestAll,ih]

theorem sendAll_get (s : SessionState) (msgs : List (List UInt8 × UInt32)) (i : ℕ) :
    (sendAll s msgs)[i]? = msgs[i]?.map fun m =>
      ⟨⟨s.connectionId,s.nextTxSequence+UInt64.ofNat i,m.2⟩,m.1⟩ := by
  induction msgs generalizing s i with
  | nil => rfl
  | cons m ms ih =>
    cases i with
    | zero => simp [sendAll,createOutboundFrame]
    | succ i =>
      simp only [sendAll,createOutboundFrame,List.getElem?_cons_succ,ih]
      rw [UInt64.add_assoc,UInt64.add_comm 1,← UInt64.ofNat_one,← UInt64.ofNat_add]

theorem sendAll_length (s : SessionState) (msgs : List (List UInt8 × UInt32)) :
    (sendAll s msgs).length = msgs.length := by
  induction msgs generalizing s with
  | nil => rfl
  | cons m ms ih => simp [sendAll,ih]

/-- What the receiver's proofs use of a list of sent frames: the frames of one
connection, numbered from zero without wrapping. -/
structure Numbered (c : UInt32) (sent : List SessionFrame) : Prop where
  bound : sent.length < 2^64
  connection : ∀ f ∈ sent, f.header.connectionId = c
  position : ∀ f ∈ sent, sent[f.header.sequence.toNat]? = some f
  sequence : ∀ (i : ℕ) (f : SessionFrame), sent[i]? = some f → f.header.sequence.toNat = i

theorem Numbered.nodup {c : UInt32} {sent : List SessionFrame} (hs : Numbered c sent) :
    sent.Nodup := by
  refine List.nodup_iff_injective_getElem.mpr fun i j hij => Fin.ext ?_
  have hi := hs.sequence i _ (List.getElem?_eq_getElem i.2)
  have hj := hs.sequence j _ (List.getElem?_eq_getElem j.2)
  simp only at hij
  rw [← hi,← hj,hij]

theorem sentFrames_numbered (c : UInt32) (msgs : List (List UInt8 × UInt32))
    (h : msgs.length < 2^64) : Numbered c (sentFrames c msgs) := by
  have hget : ∀ (i : ℕ) (f : SessionFrame), (sentFrames c msgs)[i]? = some f →
      f.header.connectionId = c ∧ f.header.sequence.toNat = i := by
    intro i f hf
    have hi : i < msgs.length := by
      have := (List.getElem?_eq_some_iff.mp hf).1
      rwa [sentFrames,sendAll_length] at this
    rw [sentFrames,sendAll_get,List.getElem?_eq_getElem hi] at hf
    simp only [Option.map_some,Option.some.injEq] at hf
    subst hf
    refine ⟨rfl,?_⟩
    simp only [SessionState.new,UInt64.zero_add]
    exact UInt64.toNat_ofNat_of_lt' (Nat.lt_trans hi h)
  refine ⟨by rwa [sentFrames,sendAll_length],?_,?_,fun i f hf => (hget i f hf).2⟩
  · intro f hf
    obtain ⟨i,hi⟩ := List.mem_iff_getElem?.mp hf
    exact (hget i f hi).1
  · intro f hf
    obtain ⟨i,hi⟩ := List.mem_iff_getElem?.mp hf
    rw [(hget i f hi).2,hi]

/-- Every call is a sent frame or a frame of another connection. -/
def Traffic (c : UInt32) (sent calls : List SessionFrame) : Prop :=
  ∀ f ∈ calls, f ∈ sent ∨ f.header.connectionId ≠ c

/-- The receiver has moved past the first `k` frames and buffers the first copy of
everything later that arrived. -/
structure Window (c : UInt32) (arrived : List SessionFrame) (k : ℕ) (s : SessionState) :
    Prop where
  connection : s.connectionId = c
  next : s.nextRxSequence = UInt64.ofNat k
  buffer : ∀ q, s.reorderBuffer.get q = if k ≤ q.toNat then firstCopy c arrived q else none

theorem firstCopy_append (c : UInt32) (arrived : List SessionFrame) (f : SessionFrame)
    (q : UInt64) :
    firstCopy c (arrived++[f]) q = (firstCopy c arrived q).or
      (if f.header.connectionId = c ∧ f.header.sequence = q then some f else none) := by
  by_cases h : f.header.connectionId = c ∧ f.header.sequence = q
  · simp [firstCopy,List.find?_append,h]
  · simp [firstCopy,List.find?_append,h]

section Receiver

variable {c : UInt32} {sent arrived : List SessionFrame}

theorem firstCopy_eq_some (hs : Numbered c sent) (ht : Traffic c sent arrived)
    {q : UInt64} {f : SessionFrame} (h : firstCopy c arrived q = some f) :
    sent[q.toNat]? = some f ∧ f ∈ arrived := by
  have hmem := List.mem_of_find?_eq_some h
  have hf := List.find?_some h
  simp only [decide_eq_true_eq] at hf
  have hsent := (ht f hmem).resolve_right (not_not.mpr hf.1)
  exact ⟨hf.2 ▸ hs.position f hsent,hmem⟩

theorem firstCopy_of_mem (hs : Numbered c sent) (ht : Traffic c sent arrived)
    {i : ℕ} {f : SessionFrame} (hi : sent[i]? = some f) (hf : f ∈ arrived) :
    firstCopy c arrived (UInt64.ofNat i) = some f := by
  have hlt := (List.getElem?_eq_some_iff.mp hi).1
  have hnat : (UInt64.ofNat i).toNat = i :=
    UInt64.toNat_ofNat_of_lt' (Nat.lt_trans hlt hs.bound)
  have hq : f.header.sequence = UInt64.ofNat i := by
    apply UInt64.toNat_inj.mp
    rw [hs.sequence i f hi,hnat]
  cases hc : firstCopy c arrived (UInt64.ofNat i) with
  | none =>
    have := List.find?_eq_none.mp hc f hf
    simp [hs.connection f (List.mem_of_getElem? hi),hq] at this
  | some g =>
    have hg := (firstCopy_eq_some hs ht hc).1
    rw [hnat,hi] at hg
    exact hg.symm

theorem firstCopy_at_prefixLength (hs : Numbered c sent) (ht : Traffic c sent arrived) :
    firstCopy c arrived (UInt64.ofNat (prefixLength sent arrived)) = none := by
  cases hc : firstCopy c arrived (UInt64.ofNat (prefixLength sent arrived)) with
  | none => rfl
  | some g =>
    have hg := firstCopy_eq_some hs ht hc
    have hle := prefixLength_le sent arrived
    rw [UInt64.toNat_ofNat_of_lt' (Nat.lt_of_le_of_lt hle hs.bound)] at hg
    exact absurd hg.2 (not_mem_at_prefixLength sent arrived g hg.1)

/-- The drain loop releases exactly the frames up to the first missing one. -/
theorem drainReady_window (hs : Numbered c sent) (ht : Traffic c sent arrived)
    (n k : ℕ) (s : SessionState) (hn : s.reorderBuffer.size ≤ n)
    (hk : k ≤ prefixLength sent arrived) (hw : Window c arrived k s) :
    (drainReady n s).1 = (sent.take (prefixLength sent arrived)).drop k ∧
      Window c arrived (prefixLength sent arrived) (drainReady n s).2 := by
  have hle := prefixLength_le sent arrived
  have hnat : (UInt64.ofNat k).toNat = k :=
    UInt64.toNat_ofNat_of_lt' (Nat.lt_of_le_of_lt (Nat.le_trans hk hle) hs.bound)
  have hnext := hw.buffer (UInt64.ofNat k)
  rw [hnat,if_pos (Nat.le_refl k)] at hnext
  rcases Nat.lt_or_eq_of_le hk with hlt | rfl
  · obtain ⟨f,hf,harr⟩ := mem_of_lt_prefixLength sent arrived k hlt
    rw [firstCopy_of_mem hs ht hf harr] at hnext
    have hsize := Table.size_remove hnext
    cases n with
    | zero => omega
    | succ n =>
      have ih := drainReady_window hs ht n (k+1) {s with
        reorderBuffer := s.reorderBuffer.remove s.nextRxSequence
        nextRxSequence := s.nextRxSequence+1} (by simp only [hw.next]; omega) hlt
        ⟨hw.connection,by simp only [hw.next,UInt64.ofNat_add]; rfl,fun q => by
          simp only [hw.next,Table.get_remove,hw.buffer]
          by_cases hq : q = UInt64.ofNat k
          · simp only [hq,if_true,hnat,if_neg (Nat.not_succ_le_self k)]
          · have : q.toNat ≠ k := fun h => hq (UInt64.toNat_inj.mp (h.trans hnat.symm))
            simp only [if_neg hq]
            exact if_congr (by omega) rfl rfl⟩
      have hdrop : (sent.take (prefixLength sent arrived)).drop k =
          f::(sent.take (prefixLength sent arrived)).drop (k+1) := by
        rw [List.drop_eq_getElem_cons (by simp; omega)]
        have := (List.getElem?_eq_some_iff.mp hf).2
        simp [this]
      simp only [drainReady,hw.next,hnext,hdrop]
      rw [← hw.next]
      exact ⟨by rw [ih.1],ih.2⟩
  · rw [firstCopy_at_prefixLength hs ht] at hnext
    have hdrain : drainReady n s = ([],s) := by
      cases n with
      | zero => rfl
      | succ n => simp only [drainReady,hw.next,hnext]
    rw [hdrain]
    exact ⟨by simp,hw⟩

/-- One call keeps the window at the end of the complete initial segment. -/
theorem ingestInbound_window (hs : Numbered c sent) (f : SessionFrame)
    (ht : Traffic c sent (arrived++[f])) (s : SessionState)
    (hw : Window c arrived (prefixLength sent arrived) s) :
    sent.take (prefixLength sent arrived)++released (ingestInbound s f).1 =
        sent.take (prefixLength sent (arrived++[f])) ∧
      Window c (arrived++[f]) (prefixLength sent (arrived++[f])) (ingestInbound s f).2 := by
  have hle := prefixLength_le sent arrived
  have hnat : (UInt64.ofNat (prefixLength sent arrived)).toNat = prefixLength sent arrived :=
    UInt64.toNat_ofNat_of_lt' (Nat.lt_of_le_of_lt hle hs.bound)
  by_cases hc : f.header.connectionId = c
  swap
  · have hsame : prefixLength sent (arrived++[f]) = prefixLength sent arrived := by
      refine prefixLength_congr fun x hx => ?_
      have : x ≠ f := fun h => hc (h ▸ hs.connection x hx)
      simp [this]
    rw [ingestInbound_foreign (by rwa [hw.connection]),hsame]
    refine ⟨by simp [released],hw.connection,hw.next,fun q => ?_⟩
    simp [hw.buffer,firstCopy_append,hc]
  have hsent : f ∈ sent := (ht f (by simp)).resolve_right (not_not.mpr hc)
  have hpos := hs.position f hsent
  by_cases hstale : f.header.sequence < s.nextRxSequence
  · have hlt : f.header.sequence.toNat < prefixLength sent arrived := by
      rwa [hw.next,UInt64.lt_iff_toNat_lt,hnat] at hstale
    have hmem : f ∈ arrived := by
      obtain ⟨g,hg,hga⟩ := mem_of_lt_prefixLength sent arrived _ hlt
      rw [hpos] at hg
      exact Option.some.inj hg ▸ hga
    have hsame : prefixLength sent (arrived++[f]) = prefixLength sent arrived := by
      refine prefixLength_congr fun x _ => ?_
      simp only [List.mem_append,List.mem_singleton,or_iff_left_iff_imp]
      exact fun h => h ▸ hmem
    rw [ingestInbound_stale (by rw [hc,hw.connection]) hstale,hsame]
    refine ⟨by simp [released],hw.connection,hw.next,fun q => ?_⟩
    rw [hw.buffer]
    refine ite_congr rfl (fun hq => ?_) (fun _ => rfl)
    have : f.header.sequence ≠ q := fun h => by rw [h] at hlt; omega
    simp [firstCopy_append,this]
  · have hge : prefixLength sent arrived ≤ f.header.sequence.toNat := by
      rw [hw.next,UInt64.lt_iff_toNat_lt,hnat] at hstale
      omega
    rw [ingestInbound_accept (by rw [hc,hw.connection]) hstale]
    have hdrain := drainReady_window hs ht _ (prefixLength sent arrived)
      {s with reorderBuffer := s.reorderBuffer.orInsert f.header.sequence f} (Nat.le_refl _)
      (prefixLength_append_le sent arrived [f]) ⟨hw.connection,hw.next,fun q => by
        simp only [Table.get_orInsert,hw.buffer,firstCopy_append,hc,true_and]
        by_cases hq : q = f.header.sequence
        · subst hq
          cases firstCopy c arrived f.header.sequence <;> simp [hge]
        · simp [hq,Ne.symm hq]⟩
    refine ⟨?_,hdrain.2⟩
    simp only [released,hdrain.1]
    have hsplit := List.take_append_drop (prefixLength sent arrived)
      (sent.take (prefixLength sent (arrived++[f])))
    rwa [List.take_take,Nat.min_eq_left (prefixLength_append_le sent arrived [f])] at hsplit

/-- Any number of calls keeps the window at the end of the complete initial segment. -/
theorem ingestAll_window (hs : Numbered c sent) (calls : List SessionFrame)
    (ht : Traffic c sent calls) :
    (ingestAll (SessionState.new c) calls).1.flatMap released =
        sent.take (prefixLength sent calls) ∧
      Window c calls (prefixLength sent calls) (ingestAll (SessionState.new c) calls).2 := by
  induction calls using List.reverseRecOn with
  | nil =>
    refine ⟨by simp [ingestAll],rfl,by simp [ingestAll,SessionState.new],fun q => ?_⟩
    simp [ingestAll,SessionState.new,firstCopy]
  | append_singleton calls f ih =>
    obtain ⟨hout,hw⟩ := ih fun g hg => ht g (by simp [hg])
    have hstep := ingestInbound_window hs f ht _ hw
    rw [ingestAll_append]
    simp only [ingestAll,List.flatMap_append,List.flatMap_singleton,hout]
    exact hstep

end Receiver

/-- Whatever subset of the sent frames arrives, in whatever order, with whatever
copies and foreign frames in between: the receiver has released the longest
complete initial segment in order, waits for the frame after it, and buffers the
first copy of each later frame. Foreign frames are refused without effect. -/
theorem ingest_delivers_prefix_once_in_order (c : UInt32) (msgs : List (List UInt8 × UInt32))
    (hn : msgs.length < 2^64) (calls : List SessionFrame)
    (hcalls : ∀ f ∈ calls, f ∈ sentFrames c msgs ∨ f.header.connectionId ≠ c)
    (pre : List SessionFrame) (hpre : pre <+: calls) :
    let sent := sentFrames c msgs
    let k := prefixLength sent pre
    let run := ingestAll (SessionState.new c) pre
    run.1.flatMap released = sent.take k ∧ (run.1.flatMap released).Nodup ∧
      run.2.nextRxSequence.toNat = k ∧
      (∀ q, run.2.reorderBuffer.get q = if k < q.toNat then firstCopy c pre q else none) ∧
      (∀ f ∈ pre, f.header.connectionId = c → f.header.sequence.toNat ≠ k) ∧
      ∀ f, f.header.connectionId ≠ c →
        ingestInbound run.2 f = (.error (.connectionMismatch c f.header.connectionId),run.2) := by
  intro sent k run
  have hs : Numbered c sent := sentFrames_numbered c msgs hn
  have ht : Traffic c sent pre := fun f hf => hcalls f (hpre.subset hf)
  obtain ⟨hout,hw⟩ := ingestAll_window hs pre ht
  have hk : (UInt64.ofNat k).toNat = k :=
    UInt64.toNat_ofNat_of_lt' (Nat.lt_of_le_of_lt (prefixLength_le sent pre) hs.bound)
  have hnone := firstCopy_at_prefixLength hs ht
  refine ⟨hout,?_,by rw [hw.next,hk],fun q => ?_,fun f hf hc hq => ?_,fun f hf => ?_⟩
  · rw [hout]
    exact (hs.nodup.sublist (List.take_sublist _ _))
  · rw [hw.buffer]
    by_cases hq : q.toNat = k
    · have : q = UInt64.ofNat k := UInt64.toNat_inj.mp (hq.trans hk.symm)
      rw [if_pos (Nat.le_of_eq hq.symm),if_neg (by omega),this]
      exact hnone
    · exact if_congr (by omega) rfl rfl
  · have hf' := List.find?_eq_none.mp hnone f hf
    have : f.header.sequence = UInt64.ofNat k := UInt64.toNat_inj.mp (hq.trans hk.symm)
    simp [hc,this,k,sent] at hf'
  · rw [ingestInbound_foreign (by rwa [hw.connection]),hw.connection]

/-- Three frames sent, the last one first and twice, a foreign frame, then the first. -/
theorem ingest_delivers_prefix_reordered :
    let sent := sentFrames 7 [([1],0),([2],0),([3],0)]
    let late : SessionFrame := ⟨⟨7,2,0⟩,[3]⟩
    let calls := [late,⟨⟨9,0,0⟩,[8]⟩,late,⟨⟨7,0,0⟩,[1]⟩]
    sent.take 1 = [⟨⟨7,0,0⟩,[1]⟩] ∧
      (ingestAll (SessionState.new 7) calls).1.flatMap released = sent.take 1 := by
  intro sent late calls
  have h := (ingest_delivers_prefix_once_in_order 7 [([1],0),([2],0),([3],0)] (by decide) calls
    (by decide) calls (List.prefix_refl _)).1
  exact ⟨by decide,h.trans (by decide)⟩

end Bonded.SessionDelivery
