import Bonded.Framing

/-! The length of a frame on targets with words of 32 and of 64 bits. `recv` computes the end of a
frame as `4 + len` in a `usize`, which wraps in a release build, and splits the frame off the
buffer, which panics if the buffer is shorter. -/
namespace Bonded.FrameLength

open Bytes Framing Reader Session

section Code

inductive Target
  | armv7
  | bits64
  deriving DecidableEq, Repr

def Target.bits : Target → ℕ
  | .armv7 => 32
  | .bits64 => 64

/-- The number of bytes that the second loop waits for. -/
def needed (target : Target) (len : ℕ) : ℕ := (4+len)%2^target.bits

/-- The front of a buffer and the rest; `none` is the panic of a split behind the end. -/
def splitTo (buf : List UInt8) (n : ℕ) : Option (List UInt8 × List UInt8) :=
  if buf.length < n then none else some (buf.take n,buf.drop n)

inductive Received
  | panicked
  | done (answer : Option (Except String SessionFrame)) (s : Source UInt8)

/-- One call of `recv` of either transport; it is cancelled if the answer is `none`. -/
def recv (target : Target) (texts : Texts) (limit : ℕ) (s : Source UInt8) : Received :=
  match fill 4 s.ended s.chunks limit s.buf with
  | (.waiting,_,s) => .done none s
  | (.closed,_,s) => .done (some (.error texts.closedInLength)) s
  | (.filled,limit,s) =>
    let len := beNat (s.buf.take 4)
    if len < minSessionFrameLen then .done (some (.error (texts.invalidLength len))) s
    else
      match fill (needed target len) s.ended s.chunks limit s.buf with
      | (.waiting,_,s) => .done none s
      | (.closed,_,s) => .done (some (.error texts.closedInPayload)) s
      | (.filled,_,s) =>
        match (splitTo s.buf 4).bind fun halves => splitTo halves.2 len with
        | none => .panicked
        | some (frameBytes,buf) => .done (some (decodeFrame frameBytes)) {s with buf := buf}

end Code

section Loop

/-- The loop moves bytes from the chunks into the buffer, and ends with enough of them. -/
theorem fill_spec (need : ℕ) (ended : Bool) (chunks : List (List UInt8)) (limit : ℕ)
    (buf : List UInt8) :
    (fill need ended chunks limit buf).2.2.rest = buf++chunks.flatten ∧
      ((fill need ended chunks limit buf).1 = .filled →
        need ≤ (fill need ended chunks limit buf).2.2.buf.length) := by
  induction chunks generalizing limit buf with
  | nil =>
    unfold fill
    split
    · next hfull => exact ⟨rfl,fun _ => hfull⟩
    · split
      · exact ⟨rfl,fun h => by cases h⟩
      · exact ⟨rfl,fun h => by cases h⟩
  | cons c cs ih =>
    unfold fill
    split
    · next hfull => exact ⟨rfl,fun _ => hfull⟩
    · cases limit with
      | zero => exact ⟨rfl,fun h => by cases h⟩
      | succ limit => simpa using ih limit (buf++c)

theorem take_four {len : ℕ} {bytes : List UInt8} (h : beBytes 4 len <+: bytes) :
    bytes.take 4 = beBytes 4 len := by
  have heq := List.prefix_iff_eq_take.mp h
  exact heq.symm

end Loop

section Safe

/-- The length stands for no frame, or the end of the frame can be computed. -/
def Fits (target : Target) (len : ℕ) : Prop :=
  len < minSessionFrameLen ∨ 4+len < 2^target.bits

instance (target : Target) (len : ℕ) : Decidable (Fits target len) :=
  inferInstanceAs (Decidable (_ ∨ _))

variable {target : Target} {texts : Texts} {len : ℕ}

/-- Where the end can be computed, `recv` is what it is with numbers of any size. -/
theorem recv_of_fits (hlen : len < 2^32) (hfits : Fits target len) (limit : ℕ) {s : Source UInt8}
    (hs : beBytes 4 len <+: s.rest) :
    recv target texts limit s =
      .done (Framing.recv texts limit s).1 (Framing.recv texts limit s).2 := by
  unfold recv Framing.recv
  obtain ⟨hrest,hroom⟩ := fill_spec 4 s.ended s.chunks limit s.buf
  generalize fill 4 s.ended s.chunks limit s.buf = first at hrest hroom
  obtain ⟨outcome,limit₁,s₁⟩ := first
  cases outcome with
  | waiting => rfl
  | closed => rfl
  | filled =>
    have hfour : 4 ≤ s₁.buf.length := hroom rfl
    have htake : s₁.buf.take 4 = beBytes 4 len := by
      rw [← take_four hs,show s.rest = s₁.rest from hrest.symm,Source.rest,
        List.take_append_of_le_length hfour]
    have hnat : beNat (beBytes 4 len) = len := beNat_beBytes 4 len (by omega)
    simp only [htake,hnat]
    split
    · rfl
    · next hok =>
      have hneeded : needed target len = 4+len := by
        rcases hfits with hshort | hfits
        · exact absurd hshort hok
        · exact Nat.mod_eq_of_lt hfits
      rw [hneeded]
      obtain ⟨-,hfull⟩ := fill_spec (4+len) s₁.ended s₁.chunks limit₁ s₁.buf
      generalize fill (4+len) s₁.ended s₁.chunks limit₁ s₁.buf = second at hfull
      obtain ⟨outcome,limit₂,s₂⟩ := second
      cases outcome with
      | waiting => rfl
      | closed => rfl
      | filled =>
        have henough : 4+len ≤ s₂.buf.length := hfull rfl
        have hdrop : (s₂.buf.drop 4).length = s₂.buf.length-4 := List.length_drop
        simp only [splitTo]
        rw [if_neg (by omega),Option.bind_some,
          if_neg (show ¬ (s₂.buf.drop 4).length < len by omega)]
        simp only [List.drop_drop]

/-- A prefix that the stream does not satisfy is waited for or refused. -/
theorem recv_unsatisfied (hlen : len < 2^32) (limit : ℕ) {s : Source UInt8}
    (hs : beBytes 4 len <+: s.rest) (hshort : s.rest.length < 4+len) :
    (Framing.recv texts limit s).1 = none ∨ ∃ e, (Framing.recv texts limit s).1 = some (.error e) := by
  rw [recv_eq_callOn]
  obtain ⟨-,hcases⟩ := callOn_cases (closedAt texts) (nextFrame_stable texts) limit s
  rcases hcases with ⟨answer,hanswer,hnext⟩ | ⟨hnone,-⟩ | ⟨-,-,heq⟩
  · have hnat : beNat (beBytes 4 len) = len := beNat_beBytes 4 len (by omega)
    simp only [nextFrame,take_four hs,hnat,if_pos hshort] at hnext
    split at hnext
    · cases hnext
    · split at hnext
      · simp only [Option.some.injEq,Prod.mk.injEq] at hnext
        exact .inr ⟨_,hanswer.trans (congrArg some hnext.1.symm)⟩
      · cases hnext
  · exact .inl hnone
  · rw [heq]
    exact .inr ⟨_,rfl⟩

end Safe

section Main

/-- No stream that starts with the length makes `recv` panic, and one that ends too early is
waited for or refused. -/
def NeverPanics (target : Target) (texts : Texts) (len : ℕ) : Prop :=
  ∀ limit s, beBytes 4 len <+: s.rest →
    ∃ answer t, recv target texts limit s = .done answer t ∧
      (s.rest.length < 4+len → answer = none ∨ ∃ e, answer = some (.error e))

theorem recv_wrapped (texts : Texts) {len : ℕ} (hlen : len < 2^32) (hbad : ¬ Fits .armv7 len) :
    recv .armv7 texts 0 ⟨beBytes 4 len,[],false⟩ = .panicked := by
  have hnat : beNat (beBytes 4 len) = len := beNat_beBytes 4 len (by omega)
  have htake : (beBytes 4 len).take 4 = beBytes 4 len :=
    List.take_of_length_le (by rw [beBytes_length])
  simp only [Fits,minSessionFrameLen,Target.bits,not_or,Nat.not_lt] at hbad
  have hneeded : needed .armv7 len ≤ 4 := by
    simp only [needed,Target.bits]
    omega
  have hok : ¬ len < minSessionFrameLen := Nat.not_lt.mpr hbad.1
  simp only [recv,fill,beBytes_length,Nat.le_refl,if_true,htake,hnat,if_neg hok,hneeded]
  simp only [splitTo,beBytes_length,Nat.lt_irrefl,if_false,Option.bind_some]
  rw [if_pos]
  rw [List.length_drop,beBytes_length]
  omega

/-- Both transports are safe for a length exactly if it is refused or its end does not wrap; with
words of 64 bits that is every length. -/
theorem frame_length_safe_iff (target : Target) (texts : Texts) (len : ℕ) (hlen : len < 2^32) :
    NeverPanics target texts len ↔ Fits target len := by
  constructor
  · intro hsafe
    by_contra hbad
    cases target with
    | armv7 =>
      obtain ⟨answer,t,hdone,-⟩ := hsafe 0 ⟨beBytes 4 len,[],false⟩
        (by simp only [Source.rest]; exact List.prefix_append _ _)
      rw [recv_wrapped texts hlen hbad] at hdone
      cases hdone
    | bits64 =>
      refine hbad (.inr ?_)
      simp only [Target.bits]
      omega
  · intro hfits limit s hs
    exact ⟨_,_,recv_of_fits hlen hfits limit hs,fun hshort => recv_unsatisfied hlen limit hs hshort⟩

theorem frame_length_safe_iff_armv7 :
    NeverPanics .armv7 naiveTcp 16 ∧ ¬ NeverPanics .armv7 quic 0xffffffff :=
  ⟨(frame_length_safe_iff .armv7 naiveTcp 16 (by omega)).mpr (by decide),
    fun h => absurd ((frame_length_safe_iff .armv7 quic 0xffffffff (by omega)).mp h) (by decide)⟩

/-- Four bytes of a peer end the task of a 32-bit client. -/
theorem recv_panics_on_armv7 :
    recv .armv7 naiveTcp 0 ⟨[255,255,255,255],[],false⟩ = .panicked ∧
      recv .armv7 quic 0 ⟨[255,255,255,255],[],false⟩ = .panicked := by
  have hbytes : beBytes 4 0xffffffff = [255,255,255,255] := by decide
  have hbad : ¬ Fits .armv7 0xffffffff := by decide
  rw [← hbytes]
  exact ⟨recv_wrapped naiveTcp (by omega) hbad,recv_wrapped quic (by omega) hbad⟩

end Main

end Bonded.FrameLength
