import Bonded.ByteStream
import Bonded.Http

/-! The stream that replays the bytes the router has read before it hands the connection to the
WebSocket acceptor, and the router's reads on any stream. -/
namespace Bonded.PrependedStream

open ByteStream Http

section Code

structure Prepended (σ : Type) where
  replayed : List UInt8
  pos : ℕ
  inner : σ
  deriving DecidableEq, Repr

def new {σ : Type} (replayed : List UInt8) (inner : σ) : Prepended σ := ⟨replayed,0,inner⟩

variable {σ : Type} (S : ReadStream UInt8 σ)

def pollRead (s : Prepended σ) (size : ℕ) : Polled UInt8 × Prepended σ :=
  if s.pos < s.replayed.length then
    let remaining := s.replayed.drop s.pos
    let toCopy := min remaining.length size
    (.ready (remaining.take toCopy),{s with pos := s.pos+toCopy})
  else
    let polled := S.pollRead s.inner size
    (polled.1,{s with inner := polled.2})

def prepended : ReadStream UInt8 (Prepended σ) := ⟨pollRead S⟩

/-- The read of the router, with its buffer of 256 bytes; a read that waits is polled again. -/
def readBody (contentLength targetLen : ℕ) :
    ℕ → σ → List UInt8 → Outcome (List UInt8 × Bool) × σ
  | 0, s, buf =>
    if buf.length < targetLen then (.waiting,s) else (.returned (buf,isWebsocketUpgrade buf),s)
  | polls+1, s, buf =>
    if buf.length < targetLen then
      match S.pollRead s 256 with
      | (.pending,t) => readBody contentLength targetLen polls t buf
      | (.failed,t) => (.failed (.io "error reading HTTP request body"),t)
      | (.ready [],t) =>
        (.failed (.text ("connection closed before HTTP request body was complete (expected "++
          toString contentLength++" bytes)")),t)
      | (.ready (b::bytes),t) => readBody contentLength targetLen polls t (buf++b::bytes)
    else (.returned (buf,isWebsocketUpgrade buf),s)

def readHeaders : ℕ → σ → List UInt8 → Outcome (List UInt8 × Bool) × σ
  | polls, s, buf =>
    if maxHeaderBytes ≤ buf.length then
      (.failed (.text ("HTTP request headers exceeded "++toString maxHeaderBytes++" bytes")),s)
    else
      match polls with
      | 0 => (.waiting,s)
      | polls+1 =>
        match S.pollRead s 256 with
        | (.pending,t) => readHeaders polls t buf
        | (.failed,t) => (.failed (.io "error reading HTTP request headers"),t)
        | (.ready [],t) => (.failed
            (.text "connection closed before HTTP request headers were complete"),t)
        | (.ready (b::bytes),t) =>
          let buf := buf++b::bytes
          match findHeaderTerminator buf with
          | none => readHeaders polls t buf
          | some headerEnd =>
            let contentLength := parseContentLength (buf.take headerEnd)
            let targetLen := headerEnd+4+contentLength
            if targetLen < 2^64 then readBody S contentLength targetLen polls t buf
            else (.overflow,t)

/-- The reader with a number of polls; it is waiting when they are used up. -/
def readUntilEndOfHeaders (polls : ℕ) (s : σ) : Outcome (List UInt8 × Bool) × σ :=
  readHeaders S polls s []

end Code

section Replay

variable {σ : Type} {S : ReadStream UInt8 σ} {C : Contents UInt8 σ}

def contents (C : Contents UInt8 σ) : Contents UInt8 (Prepended σ) where
  left s := s.replayed.drop s.pos++C.left s.inner
  ended s := s.replayed.length ≤ s.pos ∧ C.ended s.inner

theorem prepended_delivers (h : Delivers S C) : Delivers (prepended S) (contents C) := by
  refine ⟨?_,?_,?_⟩
  · intro s n
    simp only [prepended,pollRead,contents]
    split
    · simp only [Polled.data]
      rw [← List.append_assoc,← List.drop_drop,List.take_append_drop]
    · next hdone =>
      have hnil : s.replayed.drop s.pos = [] := List.drop_eq_nil_of_le (Nat.le_of_not_lt hdone)
      simp only [hnil,List.nil_append]
      exact h.front s.inner n
  · intro s n
    simp only [prepended,pollRead]
    split
    · simp only [Polled.data,List.length_take]
      omega
    · exact h.fits s.inner n
  · intro s n hn hend
    simp only [prepended,pollRead] at hend
    split at hend
    · next hpos =>
      -- a read within the replayed bytes is never empty
      simp only [Polled.ready.injEq,List.take_eq_nil_iff,List.drop_eq_nil_iff] at hend
      rw [List.length_drop] at hend
      omega
    · next hdone =>
      obtain ⟨hleft,hended⟩ := h.ends s.inner n hn hend
      refine ⟨?_,Nat.le_of_not_lt hdone,hended⟩
      simp only [contents]
      rw [List.drop_eq_nil_of_le (Nat.le_of_not_lt hdone),hleft]
      rfl

/-- Every read with room advances within the replayed bytes, so they come without waiting. -/
theorem reads_replayed (S : ReadStream UInt8 σ) (ns : List ℕ) (hns : ∀ n ∈ ns, 0 < n) (s : Prepended σ) :
    (s.replayed.drop s.pos).take ns.length <+: (reads (prepended S) ns s).1 := by
  induction ns generalizing s with
  | nil => simp
  | cons n ns ih =>
    obtain ⟨hn,hns⟩ := List.forall_mem_cons.mp hns
    simp only [reads]
    have hlater := ih hns ((prepended S).pollRead s n).2
    by_cases hpos : s.pos < s.replayed.length
    · have hread : (prepended S).pollRead s n =
          (.ready ((s.replayed.drop s.pos).take (min (s.replayed.drop s.pos).length n)),
            {s with pos := s.pos+min (s.replayed.drop s.pos).length n}) := if_pos hpos
      have hlength : (s.replayed.drop s.pos).length = s.replayed.length-s.pos := List.length_drop
      rw [hread] at hlater ⊢
      generalize hcopy : min (s.replayed.drop s.pos).length n = toCopy at hlater ⊢
      rw [← List.drop_drop] at hlater
      have hboth := (List.prefix_append_right_inj ((s.replayed.drop s.pos).take toCopy)).mpr hlater
      rw [← List.take_add] at hboth
      refine List.IsPrefix.trans (List.take_prefix_take_left ?_) hboth
      rw [List.length_cons]
      omega
    · rw [List.drop_eq_nil_of_le (Nat.le_of_not_lt hpos),List.take_nil]
      exact List.nil_prefix

end Replay

section Router

variable {σ : Type} {S : ReadStream UInt8 σ} {C : Contents UInt8 σ} {s t : σ}
  {buf out : List UInt8} {isWs : Bool}

/-- What the router returns and what it has left on the connection is the whole stream. -/
theorem readBody_returned (h : Delivers S C) {contentLength targetLen polls : ℕ}
    (hread : readBody S contentLength targetLen polls s buf = (.returned (out,isWs),t)) :
    buf++C.left s = out++C.left t := by
  induction polls generalizing s buf with
  | zero =>
    rw [readBody] at hread
    split at hread
    · cases hread
    · cases hread
      rfl
  | succ polls ih =>
    have hfront := h.front s 256
    rw [readBody] at hread
    split at hread
    · split at hread
      · next u hu =>
        rw [hu] at hfront
        rw [← ih hread,hfront]
        rfl
      · cases hread
      · cases hread
      · next b bytes u hu =>
        rw [hu] at hfront
        rw [← ih hread,hfront,List.append_assoc]
        rfl
    · cases hread
      rfl

theorem readHeaders_returned (h : Delivers S C) {polls : ℕ}
    (hread : readHeaders S polls s buf = (.returned (out,isWs),t)) :
    buf++C.left s = out++C.left t := by
  induction polls generalizing s buf with
  | zero =>
    rw [readHeaders] at hread
    split at hread
    · cases hread
    · cases hread
  | succ polls ih =>
    have hfront := h.front s 256
    rw [readHeaders] at hread
    split at hread
    · cases hread
    split at hread
    · next u hu =>
      rw [hu] at hfront
      rw [← ih hread,hfront]
      rfl
    · cases hread
    · cases hread
    · next b bytes u hu =>
      rw [hu] at hfront
      have hall : buf++C.left s = (buf++b::bytes)++C.left u := by
        rw [hfront,List.append_assoc]
        rfl
      simp only at hread
      split at hread
      · rw [hall,← ih hread]
      · split at hread
        · rw [hall,← readBody_returned h hread]
        · cases hread

/-- The stream whose reads return given chunks. -/
def chunked (tail : Tail) : ReadStream UInt8 (List (List UInt8)) where
  pollRead
    | [], _ => (match tail with
      | .silent => .pending
      | .closed => .ready []
      | .failed => .failed,[])
    | c::cs, n => (.ready (c.take n),if n < c.length then c.drop n::cs else cs)

variable (tail : Tail) {chunks : List (List UInt8)} {buf : List UInt8}

theorem chunked_cons {c : List UInt8} (cs : List (List UInt8))
    (hc : 1 ≤ c.length ∧ c.length ≤ 256) :
    ∃ b bytes, c = b::bytes ∧ (chunked tail).pollRead (c::cs) 256 = (.ready (b::bytes),cs) := by
  obtain ⟨b,bytes,rfl⟩ := List.exists_cons_of_length_pos hc.1
  refine ⟨b,bytes,rfl,?_⟩
  simp only [chunked,List.take_of_length_le hc.2,if_neg (Nat.not_lt.mpr hc.2)]

theorem readBody_chunked (contentLength targetLen : ℕ)
    (hsizes : ∀ c ∈ chunks, 1 ≤ c.length ∧ c.length ≤ 256) :
    (readBody (chunked tail) contentLength targetLen (chunks.length+1) chunks buf).1 =
      Http.readBody tail contentLength targetLen chunks buf := by
  induction chunks generalizing buf with
  | nil =>
    rw [List.length_nil,readBody,Http.readBody]
    split
    · next hshort => cases tail <;> simp [chunked,readBody,hshort,Tail.outcome]
    · rfl
  | cons c cs ih =>
    obtain ⟨hc,hcs⟩ := List.forall_mem_cons.mp hsizes
    obtain ⟨b,bytes,rfl,hread⟩ := chunked_cons tail cs hc
    rw [List.length_cons,readBody,Http.readBody,hread]
    split
    · exact ih hcs
    · rfl

theorem readHeaders_chunked (hsizes : ∀ c ∈ chunks, 1 ≤ c.length ∧ c.length ≤ 256) :
    (readHeaders (chunked tail) (chunks.length+1) chunks buf).1 =
      Http.readHeaders tail chunks buf := by
  induction chunks generalizing buf with
  | nil =>
    rw [List.length_nil,readHeaders,Http.readHeaders]
    split
    · rfl
    · next hroom => cases tail <;> simp [chunked,readHeaders,hroom,Tail.outcome]
  | cons c cs ih =>
    obtain ⟨hc,hcs⟩ := List.forall_mem_cons.mp hsizes
    obtain ⟨b,bytes,rfl,hread⟩ := chunked_cons tail cs hc
    rw [List.length_cons,readHeaders,Http.readHeaders]
    split
    · rfl
    · simp only [hread]
      cases findHeaderTerminator (buf++b::bytes) with
      | none => exact ih hcs
      | some headerEnd =>
        dsimp only
        split
        · exact readBody_chunked tail _ _ hcs
        · rfl

/-- With a poll for every read and one for the end, this is the reader of the routing model. -/
theorem readUntilEndOfHeaders_chunked (reads : Reads) :
    (readUntilEndOfHeaders (chunked tail) (reads.chunks.length+1) reads.chunks).1 =
      Http.readUntilEndOfHeaders reads tail := readHeaders_chunked tail reads.sizes

end Router

section Main

/-- What a reader gets from a stream with replayed bytes: nothing but those bytes and then the
stream's own, the replayed ones without waiting, and an end only where both are done. -/
structure Replays {σ : Type} (S : ReadStream UInt8 σ) (C : Contents UInt8 σ)
    (s : Prepended σ) (whole : List UInt8) (ns : List ℕ) : Prop where
  all : whole = (reads (prepended S) ns s).1++(contents C).left (reads (prepended S) ns s).2
  prompt : (∀ n ∈ ns, 0 < n) → s.replayed.take ns.length <+: (reads (prepended S) ns s).1
  ended : ∀ n, 0 < n → (pollRead S (reads (prepended S) ns s).2 n).1 = .ready [] →
    (reads (prepended S) ns s).1 = whole ∧ (contents C).ended (reads (prepended S) ns s).2

theorem replays {σ : Type} {S : ReadStream UInt8 σ} {C : Contents UInt8 σ} (h : Delivers S C)
    (replayed : List UInt8) (inner : σ) (ns : List ℕ) :
    Replays S C (new replayed inner) (replayed++C.left inner) ns where
  all := reads_left (prepended_delivers h) ns (new replayed inner)
  prompt hns := reads_replayed S ns hns (new replayed inner)
  ended _ hn hend := reads_all (prepended_delivers h) hn hend

/-- Bytes in memory, at most three of which are returned by a read. -/
def slow : ReadStream UInt8 (List UInt8) where
  pollRead s n := (.ready (s.take (min n 3)),s.drop (min n 3))

def bytesLeft : Contents UInt8 (List UInt8) where
  left s := s
  ended s := s = []

theorem slow_delivers : Delivers slow bytesLeft where
  front s n := (List.take_append_drop _ _).symm
  fits s n := by
    simp only [slow,Polled.data,List.length_take]
    omega
  ends s n hn hend := by
    simp only [slow,Polled.ready.injEq,List.take_eq_nil_iff] at hend
    have hnil : s = [] := by
      rcases hend with hzero | hnil
      · omega
      · exact hnil
    exact ⟨hnil,hnil⟩

/-- A request without headers and two bytes that follow it. -/
def upgrade : List UInt8 := [71,13,10,13,10,1,2]

end Main

end Bonded.PrependedStream
