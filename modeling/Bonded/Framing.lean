import Bonded.Reader
import Bonded.Session

/-! The two length-prefixed transports. `NaiveTcpTransport` and `QuicTransport` write a frame as
four bytes of length and its encoding, and read frames back from whatever chunks the stream
returns; they differ in the texts of their errors only. -/
namespace Bonded.Framing

open Bytes Reader Session

def minSessionFrameLen : ℕ := 16

structure Texts where
  tooLarge : ℕ → String
  closedInLength : String
  invalidLength : ℕ → String
  closedInPayload : String

def naiveTcp : Texts where
  tooLarge _ := "out of range integral type conversion attempted"
  closedInLength := "connection closed while reading frame length prefix"
  invalidLength len :=
    "invalid session frame length prefix: "++toString len++" bytes (minimum 16)"
  closedInPayload := "connection closed while reading frame payload"

def quic : Texts where
  tooLarge len := "QUIC: frame too large ("++toString len++" bytes)"
  closedInLength := "QUIC: connection closed while reading frame length prefix"
  invalidLength len := "QUIC: invalid frame length prefix: "++toString len++" bytes (minimum 16)"
  closedInPayload := "QUIC: connection closed while reading frame payload"

def frameErrorText : FrameError → String
  | .bufferTooSmall found minimum => "buffer too small for frame header: got "++toString found++
      " bytes, need at least "++toString minimum

/-- The bytes that `send` writes for a frame, unless its length does not fit four bytes. -/
def send (texts : Texts) (frame : SessionFrame) : Except String (List UInt8) :=
  let encoded := encode frame
  if encoded.length < 2^32 then .ok (beBytes 4 encoded.length++encoded)
  else .error (texts.tooLarge encoded.length)

inductive Filled
  | filled
  | closed
  | waiting
  deriving DecidableEq, Repr

/-- The loop that reads until the buffer holds `need` bytes: filled, closed by the other side, or
cancelled while it waits after `limit` reads. -/
def fill (need : ℕ) (ended : Bool) :
    List (List UInt8) → ℕ → List UInt8 → Filled × ℕ × Source UInt8
  | [], limit, buf =>
    if need ≤ buf.length then (.filled,limit,⟨buf,[],ended⟩)
    else if ended = true ∧ 0 < limit then (.closed,limit,⟨buf,[],ended⟩)
    else (.waiting,limit,⟨buf,[],ended⟩)
  | c::cs, limit, buf =>
    if need ≤ buf.length then (.filled,limit,⟨buf,c::cs,ended⟩)
    else
      match limit with
      | 0 => (.waiting,0,⟨buf,c::cs,ended⟩)
      | limit+1 => fill need ended cs limit (buf++c)

def decodeFrame (bytes : List UInt8) : Except String SessionFrame :=
  match decode bytes with
  | .ok frame => .ok frame
  | .error e => .error (frameErrorText e)

/-- One call of `recv`; `none` if it is cancelled. The length of a bad prefix stays in the
buffer. -/
def recv (texts : Texts) (limit : ℕ) (s : Source UInt8) :
    Option (Except String SessionFrame) × Source UInt8 :=
  match fill 4 s.ended s.chunks limit s.buf with
  | (.waiting,_,s) => (none,s)
  | (.closed,_,s) => (some (.error texts.closedInLength),s)
  | (.filled,limit,s) =>
    let len := beNat (s.buf.take 4)
    if len < minSessionFrameLen then (some (.error (texts.invalidLength len)),s)
    else
      match fill (4+len) s.ended s.chunks limit s.buf with
      | (.waiting,_,s) => (none,s)
      | (.closed,_,s) => (some (.error texts.closedInPayload),s)
      | (.filled,_,s) =>
        (some (decodeFrame ((s.buf.drop 4).take len)),{s with buf := s.buf.drop (4+len)})

/-- One call of `recv` after the other, with the results of those that are not cancelled. -/
def recvs (texts : Texts) : List ℕ → Source UInt8 →
    List (Except String SessionFrame) × Source UInt8
  | [], s => ([],s)
  | limit::limits, s =>
    let now := recv texts limit s
    let later := recvs texts limits now.2
    (now.1.toList++later.1,later.2)

/-- What a buffer decides about the next call, and what is then left of it. -/
def nextFrame (texts : Texts) (buf : List UInt8) :
    Option (Except String SessionFrame × List UInt8) :=
  if buf.length < 4 then none
  else
    let len := beNat (buf.take 4)
    if len < minSessionFrameLen then some (.error (texts.invalidLength len),buf)
    else if buf.length < 4+len then none
    else some (decodeFrame ((buf.drop 4).take len),buf.drop (4+len))

def closedAt (texts : Texts) (buf : List UInt8) : Except String SessionFrame :=
  .error (if buf.length < 4 then texts.closedInLength else texts.closedInPayload)

theorem nextFrame_stable (texts : Texts) : Stable (nextFrame texts) := by
  intro buf answer left more h
  simp only [nextFrame] at h ⊢
  split at h
  · cases h
  · next hlen =>
    have htake : (buf++more).take 4 = buf.take 4 := List.take_append_of_le_length (by omega)
    rw [if_neg (by simp; omega),htake]
    split at h
    · next hbad => cases h; rw [if_pos hbad]
    · next hok =>
      split at h
      · cases h
      · next hfull =>
        cases h
        rw [if_neg hok,if_neg (by simp; omega),List.drop_append_of_le_length (by omega),
          List.take_append_of_le_length (by simp; omega),List.drop_append_of_le_length (by omega)]

section Loop

variable {ρ : Type} {next : List UInt8 → Option (ρ × List UInt8)}

/-- Where too short a buffer decides nothing, the loop does the first part of a call. -/
theorem fill_call (closed : List UInt8 → ρ) (need : ℕ) (ended : Bool)
    (chunks : List (List UInt8)) (limit : ℕ) (buf : List UInt8) (h : ∀ more, (buf++more).length < need → next (buf++more) = none) :
    match fill need ended chunks limit buf with
    | (.waiting,_,s) => call next closed ended chunks limit buf = (none,s)
    | (.closed,_,s) => call next closed ended chunks limit buf = (some (closed s.buf),s) ∧
        s.buf.length < need ∧ buf <+: s.buf
    | (.filled,limit',s) => call next closed ended chunks limit buf =
        call next closed s.ended s.chunks limit' s.buf ∧ need ≤ s.buf.length ∧ buf <+: s.buf := by
  have hnow : ¬ need ≤ buf.length → next buf = none := by
    intro hshort
    simpa using h [] (by simpa using hshort)
  induction chunks generalizing limit buf with
  | nil =>
    by_cases hfull : need ≤ buf.length
    · simp [fill,hfull]
    · by_cases hend : ended = true ∧ 0 < limit
      · simp [fill,call,hfull,hend,hnow hfull]
        omega
      · simp [fill,call,hfull,hend,hnow hfull]
  | cons c cs ih =>
    by_cases hfull : need ≤ buf.length
    · simp [fill,hfull]
    · cases limit with
      | zero => simp [fill,call,hfull,hnow hfull]
      | succ limit =>
        have hmore : ∀ more, ((buf++c)++more).length < need → next ((buf++c)++more) = none := by
          intro more hlen
          rw [List.append_assoc] at hlen ⊢
          exact h _ hlen
        have hrest := ih limit (buf++c) hmore fun hshort => by
          simpa using hmore [] (by simpa using hshort)
        simp only [fill,call,if_neg hfull,hnow hfull]
        generalize fill need ended cs limit (buf++c) = result at hrest
        obtain ⟨outcome,limit',s⟩ := result
        cases outcome with
        | waiting => exact hrest
        | closed => exact ⟨hrest.1,hrest.2.1,(List.prefix_append buf c).trans hrest.2.2⟩
        | filled => exact ⟨hrest.1,hrest.2.1,(List.prefix_append buf c).trans hrest.2.2⟩

end Loop

/-- `recv` reads until `nextFrame` is decided. -/
theorem recv_eq_callOn (texts : Texts) (limit : ℕ) (s : Source UInt8) :
    recv texts limit s = callOn (nextFrame texts) (closedAt texts) limit s := by
  have hshort : ∀ buf : List UInt8, buf.length < 4 → nextFrame texts buf = none := by
    intro buf hlen
    simp only [nextFrame,if_pos hlen]
  have hfirst := fill_call (closedAt texts) 4 s.ended s.chunks limit s.buf
    fun more => hshort (s.buf++more)
  have hpart : ∀ buf : List UInt8, 4 ≤ buf.length →
      ¬ beNat (buf.take 4) < minSessionFrameLen → ∀ more,
      (buf++more).length < 4+beNat (buf.take 4) → nextFrame texts (buf++more) = none := by
    intro buf hlen hok more hmore
    have htake : (buf++more).take 4 = buf.take 4 := List.take_append_of_le_length hlen
    simp only [nextFrame,htake,if_neg hok,if_pos hmore,ite_self]
  simp only [recv,callOn]
  generalize fill 4 s.ended s.chunks limit s.buf = first at hfirst
  obtain ⟨outcome,limit₁,s₁⟩ := first
  cases outcome with
  | waiting => exact hfirst.symm
  | closed =>
    obtain ⟨heq,hlen,-⟩ := hfirst
    simp only [heq,closedAt,if_pos hlen]
  | filled =>
    obtain ⟨heq,hlen,-⟩ := hfirst
    simp only [heq]
    by_cases hbad : beNat (s₁.buf.take 4) < minSessionFrameLen
    · have hnext : nextFrame texts s₁.buf =
          some (.error (texts.invalidLength (beNat (s₁.buf.take 4))),s₁.buf) := by
        simp only [nextFrame,if_neg (Nat.not_lt.mpr hlen),if_pos hbad]
      rw [if_pos hbad,call_of_some (closedAt texts) hnext]
    · rw [if_neg hbad]
      have hsecond := fill_call (closedAt texts) (4+beNat (s₁.buf.take 4)) s₁.ended s₁.chunks
        limit₁ s₁.buf (hpart s₁.buf hlen hbad)
      generalize fill (4+beNat (s₁.buf.take 4)) s₁.ended s₁.chunks limit₁ s₁.buf = second
        at hsecond
      obtain ⟨outcome,limit₂,s₂⟩ := second
      cases outcome with
      | waiting => exact hsecond.symm
      | closed =>
        obtain ⟨heq₂,-,hpre⟩ := hsecond
        have hlen₂ : ¬ s₂.buf.length < 4 := by have := hpre.length_le; omega
        simp only [heq₂,closedAt,if_neg hlen₂]
      | filled =>
        obtain ⟨heq₂,hfull,more,hmore⟩ := hsecond
        have htake : s₂.buf.take 4 = s₁.buf.take 4 := by
          rw [← hmore]
          exact List.take_append_of_le_length hlen
        have hnext : nextFrame texts s₂.buf =
            some (decodeFrame ((s₂.buf.drop 4).take (beNat (s₁.buf.take 4))),
              s₂.buf.drop (4+beNat (s₁.buf.take 4))) := by
          simp only [nextFrame,htake,if_neg hbad,if_neg (show ¬ s₂.buf.length < 4 by omega),
            if_neg (Nat.not_lt.mpr hfull)]
        rw [heq₂,call_of_some (closedAt texts) hnext]

theorem recvs_eq_calls (texts : Texts) (limits : List ℕ) (s : Source UInt8) :
    recvs texts limits s = calls (nextFrame texts) (closedAt texts) limits s := by
  induction limits generalizing s with
  | nil => rfl
  | cons limit limits ih => simp only [recvs,calls,recv_eq_callOn,ih]

def framed (frame : SessionFrame) : List UInt8 := beBytes 4 (encode frame).length++encode frame

/-- The bytes of one `send` after the other. -/
def sends (texts : Texts) : List SessionFrame → Except String (List UInt8)
  | [] => .ok []
  | frame::frames => do
    let first ← send texts frame
    let rest ← sends texts frames
    return first++rest

/-- How a stream can go on after whole frames: not at all, with the beginning of a frame, or with
a length that no frame has. -/
inductive Ending
  | boundary
  | inside (frame : SessionFrame) (cut : ℕ)
  | badLength (len : ℕ) (more : List UInt8)

def Ending.bytes : Ending → List UInt8
  | .boundary => []
  | .inside frame cut => (framed frame).take cut
  | .badLength len more => beBytes 4 len++more

def Ending.WellFormed : Ending → Prop
  | .boundary => True
  | .inside frame cut => (encode frame).length < 2^32 ∧ 0 < cut ∧ cut < (framed frame).length
  | .badLength len _ => len < minSessionFrameLen

/-- The error at the end, if there is one: a stream that has not ended is waited for. -/
def Ending.error (texts : Texts) (ended : Bool) : Ending → Option String
  | .boundary => if ended then some texts.closedInLength else none
  | .inside _ cut =>
    if ended then some (if cut < 4 then texts.closedInLength else texts.closedInPayload) else none
  | .badLength len _ => some (texts.invalidLength len)

theorem encode_length (frame : SessionFrame) : minSessionFrameLen ≤ (encode frame).length := by
  simp only [encode,List.length_append,beBytes_length,minSessionFrameLen]
  omega

theorem sends_ok (texts : Texts) {frames : List SessionFrame}
    (h : ∀ f ∈ frames, (encode f).length < 2^32) :
    sends texts frames = .ok (frames.flatMap framed) := by
  induction frames with
  | nil => rfl
  | cons frame frames ih =>
    have hfirst : send texts frame = .ok (framed frame) := by
      simp only [send,if_pos (h frame (by simp)),framed]
    have hrest := ih fun f hf => h f (by simp [hf])
    simp only [sends,hfirst,hrest]
    rfl

theorem beNat_framed {frame : SessionFrame} (h : (encode frame).length < 2^32)
    (more : List UInt8) : beNat ((framed frame++more).take 4) = (encode frame).length := by
  rw [framed,List.append_assoc,List.take_left' (beBytes_length _ _),beNat_beBytes _ _ h]

theorem nextFrame_framed (texts : Texts) {frame : SessionFrame}
    (h : (encode frame).length < 2^32) (more : List UInt8) :
    nextFrame texts (framed frame++more) = some (.ok frame,more) := by
  have hlen : (framed frame).length = 4+(encode frame).length := by simp [framed]
  have hdrop : (framed frame++more).drop 4 = encode frame++more := by
    rw [framed,List.append_assoc]
    exact List.drop_left' (beBytes_length _ _)
  have hleft : (framed frame++more).drop (4+(encode frame).length) = more :=
    List.drop_left' hlen
  simp only [nextFrame,beNat_framed h]
  rw [if_neg (by simp [hlen]; omega),if_neg (Nat.not_lt.mpr (encode_length frame)),
    if_neg (by simp [hlen]),hdrop,hleft,List.take_left' rfl,decodeFrame,decode_encode]

theorem nextFrame_inside (texts : Texts) {frame : SessionFrame} {cut : ℕ}
    (h : (encode frame).length < 2^32) (hcut : cut < (framed frame).length) :
    nextFrame texts ((framed frame).take cut) = none := by
  have hlen : (framed frame).length = 4+(encode frame).length := by simp [framed]
  have hcutLen : ((framed frame).take cut).length = cut := by simp; omega
  simp only [nextFrame,hcutLen]
  by_cases hshort : cut < 4
  · rw [if_pos hshort]
  · have htake : ((framed frame).take cut).take 4 = (framed frame).take 4 := by
      rw [List.take_take,Nat.min_eq_left (by omega)]
    have hstated : beNat (((framed frame).take cut).take 4) = (encode frame).length := by
      rw [htake]
      simpa using beNat_framed h []
    rw [if_neg hshort,hstated,if_neg (Nat.not_lt.mpr (encode_length frame)),
      if_pos (by omega)]

theorem nextFrame_badLength (texts : Texts) {len : ℕ} (h : len < minSessionFrameLen)
    (more : List UInt8) : nextFrame texts (beBytes 4 len++more) =
      some (.error (texts.invalidLength len),beBytes 4 len++more) := by
  have hstated : beNat ((beBytes 4 len++more).take 4) = len := by
    rw [List.take_left' (beBytes_length _ _)]
    exact beNat_beBytes 4 len (Nat.lt_of_lt_of_le h (by decide))
  simp only [nextFrame,hstated,if_pos h]
  rw [if_neg (by simp)]

theorem answers_ending (texts : Texts) {ending : Ending} (h : ending.WellFormed) (ended : Bool)
    (n : ℕ) : answers (nextFrame texts) (closedAt texts) ended n ending.bytes =
      ((ending.error texts ended).elim [] fun e => List.replicate n (.error e),ending.bytes) := by
  have hwaits : ∀ {bytes : List UInt8}, nextFrame texts bytes = none →
      answers (nextFrame texts) (closedAt texts) ended n bytes =
        (if ended then List.replicate n (closedAt texts bytes) else [],bytes) := by
    intro bytes hnone
    cases ended with
    | true => exact answers_stuck _ (.inr ⟨hnone,rfl,rfl⟩) n
    | false => cases n <;> simp [answers,hnone]
  cases ending with
  | boundary =>
    refine (hwaits rfl).trans ?_
    cases ended <;> rfl
  | inside frame cut =>
    obtain ⟨hframe,-,hcut⟩ := h
    have hlen : ((framed frame).take cut).length = cut := by simp; omega
    refine (hwaits (nextFrame_inside texts hframe hcut)).trans ?_
    cases ended <;> simp [Ending.error,Ending.bytes,closedAt,hlen]
  | badLength len more =>
    exact answers_stuck _ (.inl (nextFrame_badLength texts h more)) n

/-- The answers of a stream of frames: the frames, then what follows from its ending. -/
theorem answers_frames (texts : Texts) {frames : List SessionFrame}
    (h : ∀ f ∈ frames, (encode f).length < 2^32) (tail : List UInt8) (ended : Bool) (n : ℕ) :
    answers (nextFrame texts) (closedAt texts) ended n (frames.flatMap framed++tail) =
      ((frames.take n).map .ok++
          (answers (nextFrame texts) (closedAt texts) ended (n-frames.length) tail).1,
        (frames.drop n).flatMap framed++
          (answers (nextFrame texts) (closedAt texts) ended (n-frames.length) tail).2) := by
  induction frames generalizing n with
  | nil => simp
  | cons frame frames ih =>
    cases n with
    | zero => simp [answers]
    | succ n =>
      have hrest := ih (fun f hf => h f (by simp [hf])) n
      simp only [List.flatMap_cons,List.append_assoc,answers,
        nextFrame_framed texts (h frame (by simp)),hrest]
      simp

/-- `send` writes every frame whose length fits its four bytes, and the calls of `recv` that
complete give the frames back in order, whatever the chunks and whichever calls are cancelled. A
call that is not cancelled gives the next frame, after the last frame the error of the ending, and
waits where there is none. A bad length is never used up. -/
theorem recv_lossless_cancel_safe (texts : Texts) (frames : List SessionFrame)
    (hframes : ∀ f ∈ frames, (encode f).length < 2^32) :
    (∃ written, sends texts frames = .ok written ∧
      ∀ ending : Ending, ending.WellFormed → ∀ (chunks : List (List UInt8)) (ended : Bool)
        (limits : List ℕ), chunks.flatten = written++ending.bytes →
        let results := (recvs texts limits ⟨[],chunks,ended⟩).1
        let after := (recvs texts limits ⟨[],chunks,ended⟩).2
        results = (frames.take results.length).map .ok++
          ((ending.error texts ended).elim [] fun e =>
            List.replicate (results.length-frames.length) (.error e)) ∧
        (∀ limit, after.chunks.length < limit → (recv texts limit after).1 =
          ((frames[results.length]?).map .ok).or ((ending.error texts ended).map .error)) ∧
        ∀ len more, ending = .badLength len more → frames.length < results.length →
          ∀ limit, recv texts limit after = (some (.error (texts.invalidLength len)),after)) ∧
    (∀ frame, decode (encode frame) = .ok frame) ∧
    (∀ raw : List UInt8, headerLen ≤ raw.length →
      ∃ frame, decode raw = .ok frame ∧ encode frame = raw) := by
  refine ⟨⟨_,sends_ok texts hframes,fun ending hending chunks ended limits hstream => ?_⟩,
    decode_encode,fun raw hraw => encode_decode hraw⟩
  have hstable := nextFrame_stable texts
  have hrest : (⟨[],chunks,ended⟩ : Source UInt8).rest = frames.flatMap framed++ending.bytes := by
    simpa [Source.rest] using hstream
  have hend := fun n => answers_ending texts hending ended n
  simp only [recvs_eq_calls,recv_eq_callOn]
  have hcalls := calls_answers (closedAt texts) hstable limits ⟨[],chunks,ended⟩
  have hstuck := fun answer =>
    calls_stuck (closedAt texts) hstable answer limits frames.length ⟨[],chunks,ended⟩
  generalize calls (nextFrame texts) (closedAt texts) limits ⟨[],chunks,ended⟩ = ran
    at hcalls hstuck
  obtain ⟨results,after⟩ := ran
  obtain ⟨hended,hcalls⟩ := hcalls
  simp only [hrest,answers_frames texts hframes,hend,Prod.mk.injEq] at hended hcalls hstuck ⊢
  obtain ⟨hresults,hleft⟩ := hcalls
  refine ⟨hresults.symm,fun limit hlimit => ?_,fun len more hbad hlong limit => ?_⟩
  · rw [callOn_answer (closedAt texts) hstable hlimit,hended,← hleft,
      answers_frames texts (fun f hf => hframes f (List.mem_of_mem_drop hf)),hend]
    cases hget : frames[results.length]? with
    | none =>
      have hle := List.getElem?_eq_none_iff.mp hget
      cases ending.error texts ended <;> simp [List.drop_eq_nil_of_le hle]
    | some f =>
      obtain ⟨hlt,hf⟩ := List.getElem?_eq_some_iff.mp hget
      rw [List.drop_eq_getElem_cons hlt,hf]
      rfl
  · subst hbad
    refine callOn_of_stuck (closedAt texts) (hstuck _ ?_ hlong) limit
    simpa [Ending.bytes] using nextFrame_badLength texts hending more

def demoFrame : SessionFrame := ⟨⟨7,1,0⟩,[1,2]⟩

def demoChunks : List (List UInt8) := (framed demoFrame).map fun b => [b]

/-- Two calls are cancelled on the way, and the third returns the frame. -/
theorem recv_after_cancelled_calls :
    (recv naiveTcp 20 (recvs naiveTcp [3,2] ⟨[],demoChunks,true⟩).2).1 = some (.ok demoFrame) := by
  have hfits : (encode demoFrame).length < 2^32 := by decide
  obtain ⟨⟨written,hwritten,hread⟩,-⟩ :=
    recv_lossless_cancel_safe naiveTcp [demoFrame] (by simpa using hfits)
  have hbytes : written = framed demoFrame++[] := by
    exact (Except.ok.inj hwritten).symm
  have hleft : (recvs naiveTcp [3,2] ⟨[],demoChunks,true⟩).2.chunks.length < 20 := by decide
  obtain ⟨-,hnext,-⟩ := hread .boundary trivial demoChunks true [3,2] (by rw [hbytes]; rfl)
  have hframe := hnext 20 hleft
  exact hframe

end Bonded.Framing
