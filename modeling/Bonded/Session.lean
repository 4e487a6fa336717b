import Bonded.Bytes
import Bonded.Table

/-! The session layer: framed packets with a sequence number per connection,
and the receiver that puts them back into order. -/
namespace Bonded.Session

open Bytes

/-- Sent by a client to probe connection liveness. -/
def flagPing : UInt32 := 0x0001
/-- Sent by the server in reply to a ping. -/
def flagPong : UInt32 := 0x0002
/-- The payload is a signed peer-relay registration. -/
def flagPeerRelayRegistration : UInt32 := 0x0004

structure SessionHeader where
  connectionId : UInt32
  sequence : UInt64
  flags : UInt32
  deriving DecidableEq, Repr

structure SessionFrame where
  header : SessionHeader
  payload : List UInt8
  deriving DecidableEq, Repr

def headerLen : ℕ := 16

inductive FrameError
  | bufferTooSmall (found minimum : ℕ)
  deriving DecidableEq, Repr

/-- The header's three numbers in network order, then the payload. -/
def encode (frame : SessionFrame) : List UInt8 :=
  beBytes 4 frame.header.connectionId.toNat++(beBytes 8 frame.header.sequence.toNat++
    (beBytes 4 frame.header.flags.toNat++frame.payload))

def decode (raw : List UInt8) : Except FrameError SessionFrame :=
  if raw.length < headerLen then .error (.bufferTooSmall raw.length headerLen)
  else
    let connectionId := UInt32.ofNat (beNat (raw.take 4))
    let sequence := UInt64.ofNat (beNat ((raw.drop 4).take 8))
    let flags := UInt32.ofNat (beNat ((raw.drop 12).take 4))
    .ok ⟨⟨connectionId,sequence,flags⟩,raw.drop 16⟩

inductive SessionStateError
  | connectionMismatch (expected found : UInt32)
  | staleSequence (expected found : UInt64)
  deriving DecidableEq, Repr

structure SessionState where
  connectionId : UInt32
  nextTxSequence : UInt64
  nextRxSequence : UInt64
  reorderBuffer : Table UInt64 SessionFrame
  deriving DecidableEq

def SessionState.new (connectionId : UInt32) : SessionState :=
  ⟨connectionId,0,0,∅⟩

/-- Number the payload with the next transmit sequence, which wraps at `2^64`. -/
def createOutboundFrame (s : SessionState) (payload : List UInt8) (flags : UInt32) :
    SessionFrame × SessionState :=
  (⟨⟨s.connectionId,s.nextTxSequence,flags⟩,payload⟩,
    {s with nextTxSequence := s.nextTxSequence+1})

/-- The loop that moves frames out of the reorder buffer while the next expected
one is there. Each round removes an entry, so the buffer's size bounds the rounds. -/
def drainReady : ℕ → SessionState → List SessionFrame × SessionState
  | 0, s => ([],s)
  | n+1, s =>
    match s.reorderBuffer.get s.nextRxSequence with
    | none => ([],s)
    | some next =>
      let r := drainReady n {s with
        reorderBuffer := s.reorderBuffer.remove s.nextRxSequence
        nextRxSequence := s.nextRxSequence+1}
      (next::r.1,r.2)

def ingestInbound (s : SessionState) (frame : SessionFrame) :
    Except SessionStateError (List SessionFrame) × SessionState :=
  if frame.header.connectionId ≠ s.connectionId then
    (.error (.connectionMismatch s.connectionId frame.header.connectionId),s)
  else if frame.header.sequence < s.nextRxSequence then
    (.error (.staleSequence s.nextRxSequence frame.header.sequence),s)
  else
    let buffered := {s with
      reorderBuffer := s.reorderBuffer.orInsert frame.header.sequence frame}
    let r := drainReady buffered.reorderBuffer.size buffered
    (.ok r.1,r.2)

theorem decode_encode (frame : SessionFrame) : decode (encode frame) = .ok frame := by
  have hc := beNat_beBytes 4 frame.header.connectionId.toNat frame.header.connectionId.toNat_lt
  have hq := beNat_beBytes 8 frame.header.sequence.toNat frame.header.sequence.toNat_lt
  have hf := beNat_beBytes 4 frame.header.flags.toNat frame.header.flags.toNat_lt
  have hlen : ¬ (encode frame).length < headerLen := by simp [encode,headerLen]; omega
  have h₁ : (encode frame).drop 4 = beBytes 8 frame.header.sequence.toNat++
      (beBytes 4 frame.header.flags.toNat++frame.payload) :=
    List.drop_left' (beBytes_length _ _)
  have h₂ : (encode frame).drop 12 = beBytes 4 frame.header.flags.toNat++frame.payload := by
    rw [← List.drop_drop (i := 8) (j := 4),h₁]
    exact List.drop_left' (beBytes_length _ _)
  have h₃ : (encode frame).drop 16 = frame.payload := by
    rw [← List.drop_drop (i := 4) (j := 12),h₂]
    exact List.drop_left' (beBytes_length _ _)
  simp only [decode,if_neg hlen,h₁,h₂,h₃]
  rw [encode,List.take_left' (beBytes_length _ _),List.take_left' (beBytes_length _ _),
    List.take_left' (beBytes_length _ _),hc,hq,hf]
  simp

theorem encode_decode {raw : List UInt8} (h : headerLen ≤ raw.length) :
    ∃ frame, decode raw = .ok frame ∧ encode frame = raw := by
  simp only [headerLen] at h
  have hfield : ∀ i n, i+n ≤ raw.length →
      beBytes n (beNat ((raw.drop i).take n)) = (raw.drop i).take n := by
    intro i n hin
    have hlen : ((raw.drop i).take n).length = n := by simp; omega
    have hback := beBytes_beNat ((raw.drop i).take n)
    rwa [hlen] at hback
  have hbound : ∀ i n, beNat ((raw.drop i).take n) < 256^n := by
    intro i n
    exact Nat.lt_of_lt_of_le (beNat_lt _) (Nat.pow_le_pow_right (by omega) (List.length_take_le _ _))
  have h₁ := hfield 0 4 (by omega)
  have h₂ := hfield 4 8 (by omega)
  have h₃ := hfield 12 4 (by omega)
  have hb₁ : beNat (raw.take 4) < 2^32 := hbound 0 4
  have hb₂ : beNat ((raw.drop 4).take 8) < 2^64 := hbound 4 8
  have hb₃ : beNat ((raw.drop 12).take 4) < 2^32 := hbound 12 4
  simp only [List.drop_zero] at h₁
  refine ⟨_,by rw [decode,if_neg (by simp only [headerLen]; omega)],?_⟩
  simp only [encode,UInt32.toNat_ofNat',UInt64.toNat_ofNat']
  rw [Nat.mod_eq_of_lt hb₁,Nat.mod_eq_of_lt hb₂,Nat.mod_eq_of_lt hb₃,h₁,h₂,h₃]
  have hcut : ∀ i n, (raw.drop i).take n++raw.drop (i+n) = raw.drop i := by
    intro i n
    rw [← List.drop_drop]
    exact List.take_append_drop n (raw.drop i)
  rw [hcut 12 4,hcut 4 8]
  exact List.take_append_drop 4 raw

theorem ingestInbound_foreign {s : SessionState} {frame : SessionFrame}
    (h : frame.header.connectionId ≠ s.connectionId) :
    ingestInbound s frame =
      (.error (.connectionMismatch s.connectionId frame.header.connectionId),s) := by
  simp only [ingestInbound,if_pos h]

/-- A sequence number that was delivered before is refused and changes nothing. -/
theorem ingestInbound_stale {s : SessionState} {frame : SessionFrame}
    (hc : frame.header.connectionId = s.connectionId)
    (h : frame.header.sequence < s.nextRxSequence) :
    ingestInbound s frame =
      (.error (.staleSequence s.nextRxSequence frame.header.sequence),s) := by
  simp only [ingestInbound,hc,ne_eq,not_true_eq_false,if_false,if_pos h]

theorem ingestInbound_accept {s : SessionState} {frame : SessionFrame}
    (hc : frame.header.connectionId = s.connectionId)
    (h : ¬ frame.header.sequence < s.nextRxSequence) :
    ingestInbound s frame =
      let buffered := {s with
        reorderBuffer := s.reorderBuffer.orInsert frame.header.sequence frame}
      (.ok (drainReady buffered.reorderBuffer.size buffered).1,
        (drainReady buffered.reorderBuffer.size buffered).2) := by
  simp only [ingestInbound,hc,ne_eq,not_true_eq_false,if_false,if_neg h]

end Bonded.Session
