import Bonded.CertProof
import Bonded.Framing

/-! From the text lines of a handshake to the frames behind them. The line readers read ahead into
a buffer: `recvText` makes a buffer for each call and the TCP handshake one for both of its lines,
and what is left in it when it is dropped is lost to the frames. -/
namespace Bonded.TextHandoff

open CertProof Framing JsonText Reader Session

section Code

/-- What `send_text` writes. -/
def lineBytes (text : String) : List UInt8 := utf8 text++[10]

/-- The first line, with its newline, and what follows. -/
def splitLine : List UInt8 → Option (List UInt8 × List UInt8)
  | [] => none
  | b::rest =>
    if b = 10 then some ([10],rest) else (splitLine rest).map fun halves => (b::halves.1,halves.2)

def textOf (line : List UInt8) : Except String String :=
  match fromUtf8 line with
  | some text => .ok text
  | none => .error "stream did not contain valid UTF-8"

def nextLine (buf : List UInt8) : Option (Except String String × List UInt8) :=
  (splitLine buf).map fun halves => (textOf halves.1,halves.2)

/-- The end of the stream ends a line that has begun. -/
def closedLine (message : String) (buf : List UInt8) : Except String String :=
  if buf = [] then .error message else textOf buf

/-- `read_line` on a `BufReader`, which keeps what it has read ahead. -/
def readLine (message : String) (s : Source UInt8) :
    Option (Except String String) × Source UInt8 :=
  callOn nextLine (closedLine message) (s.chunks.length+1) s

def textClosed : String := "QUIC: connection closed while reading text line"

def authClosed : String := "connection closed while reading auth message"

/-- `QuicTransport::recv_text`: the buffer of frames is not touched, and the reader with its own
buffer is dropped at the end. -/
def recvText (s : Source UInt8) : Option (Except String String) × Source UInt8 :=
  let read := readLine textClosed ⟨[],s.chunks,s.ended⟩
  (read.1,{s with chunks := read.2.chunks})

def recvTexts : ℕ → Source UInt8 → List (Option (Except String String)) × Source UInt8
  | 0, s => ([],s)
  | n+1, s =>
    let now := recvText s
    let later := recvTexts n now.2
    (now.1::later.1,later.2)

/-- The reads of the TCP handshake. Whether hello and proof are good is up to the server; the
stream is returned without the reader's buffer. -/
def performAuthHandshake (admits : String → String → Bool) (s : Source UInt8) :
    Option (Source UInt8) :=
  let hello := readLine authClosed s
  match hello.1 with
  | some (.ok helloLine) =>
    let proof := readLine authClosed hello.2
    match proof.1 with
    | some (.ok proofLine) =>
      if admits helloLine proofLine then some ⟨[],proof.2.chunks,proof.2.ended⟩ else none
    | _ => none
  | _ => none

end Code

section Lines

theorem utf8_append (s t : String) : utf8 (s++t) = utf8 s++utf8 t := by
  simp only [utf8,toList_eq_data,String.toUTF8,String.toByteArray_append]
  simp

/-- The byte of a newline stands for nothing else. -/
theorem newline_utf8 {s : String} (h : '\n' ∉ s.toList) : 10 ∉ utf8 s := by
  have hbytes : utf8 s = s.toList.flatMap String.utf8EncodeChar := by
    rw [utf8,toList_eq_data,String.toUTF8,← String.ofList_toList (s:=s),String.toByteArray_ofList]
    simp [List.utf8Encode]
  rw [hbytes]
  intro hmem
  obtain ⟨c,hc,hb⟩ := List.mem_flatMap.mp hmem
  have hhigh : ∀ n, 128 ≤ n%256 → (10 : UInt8) ≠ UInt8.ofNat n := by
    intro n hn heq
    have hnat := congrArg UInt8.toNat heq
    rw [UInt8.toNat_ofNat'] at hnat
    have hten : (10 : UInt8).toNat = 10 := rfl
    omega
  simp only [String.utf8EncodeChar] at hb
  split at hb
  · next hlow =>
    have hnat := congrArg UInt8.toNat (List.mem_singleton.mp hb)
    rw [UInt8.toNat_ofNat',Nat.mod_eq_of_lt (by omega)] at hnat
    have heq : c = '\n' := Char.ext (UInt32.toNat_inj.mp hnat.symm)
    exact h (heq ▸ hc)
  split at hb
  · simp only [List.mem_cons,List.not_mem_nil,or_false] at hb
    rcases hb with hb | hb <;> exact hhigh _ (by omega) hb
  split at hb
  · simp only [List.mem_cons,List.not_mem_nil,or_false] at hb
    rcases hb with hb | hb | hb <;> exact hhigh _ (by omega) hb
  · simp only [List.mem_cons,List.not_mem_nil,or_false] at hb
    rcases hb with hb | hb | hb | hb <;> exact hhigh _ (by omega) hb

theorem utf8_of_fromUtf8 {bytes : List UInt8} {s : String} (h : fromUtf8 bytes = some s) :
    utf8 s = bytes := by
  unfold fromUtf8 String.fromUTF8? at h
  split at h
  · cases h
    simp [utf8,toList_eq_data,String.toUTF8,String.fromUTF8]
  · cases h

theorem splitLine_append {line : List UInt8} (h : 10 ∉ line) (more : List UInt8) :
    splitLine (line++[10]++more) = some (line++[10],more) := by
  induction line with
  | nil => rfl
  | cons b line ih =>
    obtain ⟨hb,hline⟩ := List.ne_and_not_mem_of_not_mem_cons h
    simp only [List.cons_append,splitLine,if_neg (Ne.symm hb),ih hline,Option.map_some]

theorem splitLine_eq_none {bytes : List UInt8} : splitLine bytes = none ↔ 10 ∉ bytes := by
  induction bytes with
  | nil => simp [splitLine]
  | cons b rest ih =>
    by_cases hb : b = 10
    · simp [splitLine,hb]
    · simp [splitLine,hb,Ne.symm hb,ih]

theorem splitLine_parts {bytes line rest : List UInt8} (h : splitLine bytes = some (line,rest)) :
    bytes = line++rest ∧ ∀ more, splitLine (bytes++more) = some (line,rest++more) := by
  induction bytes generalizing line with
  | nil => cases h
  | cons b bytes ih =>
    simp only [splitLine] at h
    split at h
    · next hb =>
      cases h
      exact ⟨by rw [hb]; rfl,fun more => by simp [splitLine,hb]⟩
    · next hb =>
      obtain ⟨⟨l,r⟩,hlr,heq⟩ := Option.map_eq_some_iff.mp h
      cases heq
      obtain ⟨hparts,hmore⟩ := ih hlr
      exact ⟨by rw [hparts]; rfl,fun more => by simp [splitLine,hb,hmore more]⟩

theorem nextLine_stable : Stable nextLine := by
  intro buf answer left more h
  obtain ⟨⟨line,rest⟩,hsplit,heq⟩ := Option.map_eq_some_iff.mp h
  cases heq
  rw [nextLine,(splitLine_parts hsplit).2 more]
  rfl

theorem utf8_newline (text : String) : utf8 (text++"\n") = lineBytes text := by
  have hnewline : utf8 "\n" = [10] := by
    rw [utf8,toList_eq_data]
    rfl
  rw [utf8_append,hnewline,lineBytes]

theorem nextLine_lineBytes {text : String} (h : '\n' ∉ text.toList) (more : List UInt8) :
    nextLine (lineBytes text++more) = some (.ok (text++"\n"),more) := by
  rw [nextLine,lineBytes,splitLine_append (newline_utf8 h),Option.map_some,← lineBytes,
    ← utf8_newline,textOf,fromUtf8_utf8]

theorem textOf_ok {line : List UInt8} {text : String} (h : textOf line = .ok text) :
    utf8 text = line := by
  unfold textOf at h
  split at h
  · next hvalid =>
    cases h
    exact utf8_of_fromUtf8 hvalid
  · cases h

end Lines

section Texts

def Cut (chunks : List (List UInt8)) (bytes : List UInt8) : Prop :=
  ∃ n, (chunks.take n).flatten = bytes

theorem length_take_flatten_mono (chunks : List (List UInt8)) {m n : ℕ} (h : n ≤ m) :
    (chunks.take n).flatten.length ≤ (chunks.take m).flatten.length := by
  have hsplit : chunks.take m = chunks.take n++(chunks.drop n).take (m-n) := by
    rw [← List.take_add,Nat.add_sub_cancel' h]
  rw [hsplit,List.flatten_append,List.length_append]
  omega

/-- Reading a line: it takes the chunks up to the one with the newline; what this chunk has
behind the newline stays in the reader's buffer. -/
theorem readLine_line (message : String) {text : String} {s : Source UInt8} {more : List UInt8}
    (htext : '\n' ∉ text.toList) (hs : s.rest = lineBytes text++more) :
    ∃ n, (readLine message s).1 = some (.ok (text++"\n")) ∧
      (readLine message s).2.chunks = s.chunks.drop n ∧
      s.buf++(s.chunks.take n).flatten = lineBytes text++(readLine message s).2.buf ∧
      (readLine message s).2.rest = more ∧
      ∀ k, 10 ∈ s.buf++(s.chunks.take k).flatten → n ≤ k := by
  have hnext := nextLine_lineBytes htext more
  rw [← hs] at hnext
  obtain ⟨n,answer,hanswer,hchunks,hdecided,hfirst⟩ := callOn_reads (closedLine message)
    (Nat.lt_succ_self s.chunks.length) (show (nextLine s.rest).isSome = true by rw [hnext]; rfl)
  have hwhole : s.rest = s.buf++(s.chunks.take n).flatten++(s.chunks.drop n).flatten := by
    rw [Source.rest,List.append_assoc,← List.flatten_append,List.take_append_drop]
  have hstable := nextLine_stable _ _ _ (s.chunks.drop n).flatten hdecided
  rw [← hwhole,hnext,Option.some.injEq,Prod.mk.injEq] at hstable
  obtain ⟨hok,hmore⟩ := hstable
  refine ⟨n,?_,hchunks,?_,?_,?_⟩
  · rw [hok]
    exact hanswer
  · have hboth : s.buf++(s.chunks.take n).flatten++(s.chunks.drop n).flatten =
        lineBytes text++(readLine message s).2.buf++(s.chunks.drop n).flatten := by
      rw [← hwhole,hs,hmore,List.append_assoc]
      rfl
    exact List.append_cancel_right hboth
  · rw [Source.rest,hmore]
    exact congrArg (_++·.flatten) hchunks
  · intro k hk
    by_contra hlt
    have hnone := hfirst k (by omega)
    rw [nextLine,Option.map_eq_none_iff,splitLine_eq_none] at hnone
    exact hnone hk

variable {s : Source UInt8} {text : String} {more : List UInt8}

/-- Nothing is lost exactly if a read ends with the line. -/
theorem recvText_line (htext : '\n' ∉ text.toList) (hs : s.chunks.flatten = lineBytes text++more) :
    ∃ n lost, recvText s = (some (.ok (text++"\n")),{s with chunks := s.chunks.drop n}) ∧
      (s.chunks.take n).flatten = lineBytes text++lost ∧
      lost++(s.chunks.drop n).flatten = more ∧
      ∀ k, 10 ∈ (s.chunks.take k).flatten → n ≤ k := by
  obtain ⟨n,hanswer,hchunks,htaken,hrest,hfirst⟩ :=
    readLine_line textClosed
      (s:=⟨[],s.chunks,s.ended⟩) htext (by simpa [Source.rest] using hs)
  refine ⟨n,_,?_,by simpa using htaken,?_,by simpa using hfirst⟩
  · rw [recvText,hanswer,hchunks]
  · rw [Source.rest,hchunks] at hrest
    exact hrest

theorem lost_eq_nil_iff {chunks : List (List UInt8)} {line lost : List UInt8} {n : ℕ}
    (hline : 10 ∈ line) (htaken : (chunks.take n).flatten = line++lost)
    (hfirst : ∀ k, 10 ∈ (chunks.take k).flatten → n ≤ k) : lost = [] ↔ Cut chunks line := by
  constructor
  · rintro rfl
    exact ⟨n,by rw [htaken,List.append_nil]⟩
  · rintro ⟨m,hm⟩
    have hle := length_take_flatten_mono chunks (hfirst m (by rw [hm]; exact hline))
    rw [htaken,hm,List.length_append] at hle
    exact List.length_eq_zero_iff.mp (by omega)

end Texts

section Frames

variable {texts : Texts} {frames : List SessionFrame}

theorem nextFrame_ok {buf left : List UInt8} {frame : SessionFrame}
    (h : nextFrame texts buf = some (.ok frame,left)) :
    buf.length = (framed frame).length+left.length := by
  simp only [nextFrame] at h
  split at h
  · cases h
  split at h
  · cases h
  next hok =>
  split at h
  · cases h
  next hfull =>
  simp only [Option.some.injEq,Prod.mk.injEq] at h
  obtain ⟨hframe,rfl⟩ := h
  generalize Bytes.beNat (buf.take 4) = len at hok hfull hframe
  have hlength : ((buf.drop 4).take len).length = len := by
    rw [List.length_take,List.length_drop]
    omega
  obtain ⟨frame',hdecode,hencode⟩ :=
    encode_decode (show headerLen ≤ ((buf.drop 4).take len).length by
      rw [hlength]
      exact Nat.not_lt.mp hok)
  rw [decodeFrame,hdecode] at hframe
  cases hframe
  rw [framed,hencode,List.length_append,Bytes.beBytes_length,hlength,List.length_drop]
  omega

theorem answers_length {ended : Bool} {n : ℕ} {bytes left : List UInt8}
    (h : answers (nextFrame texts) (closedAt texts) ended n bytes = (frames.map .ok,left)) :
    (frames.flatMap framed).length ≤ bytes.length := by
  induction frames generalizing n bytes with
  | nil => exact Nat.zero_le _
  | cons frame frames ih =>
    cases n with
    | zero => cases h
    | succ n =>
      simp only [answers] at h
      split at h
      · next answer rest hnext =>
        simp only [List.map_cons,Prod.mk.injEq,List.cons.injEq] at h
        obtain ⟨⟨rfl,hlater⟩,hleft⟩ := h
        have hfirst := nextFrame_ok hnext
        have hrest := ih (Prod.ext hlater hleft)
        rw [List.flatMap_cons,List.length_append]
        omega
      · split at h
        · simp only [List.map_cons,Prod.mk.injEq,List.cons.injEq] at h
          cases h.1.1
        · cases h

theorem recvs_length {limits : List ℕ} {s : Source UInt8}
    (h : (recvs texts limits s).1 = frames.map .ok) :
    (frames.flatMap framed).length ≤ s.rest.length := by
  obtain ⟨-,hanswers⟩ := calls_answers (closedAt texts) (nextFrame_stable texts) limits s
  rw [← recvs_eq_calls,h] at hanswers
  exact answers_length hanswers

/-- Frames that are there are received, if no call is cancelled. -/
theorem recvs_frames {limit : ℕ} (hframes : ∀ f ∈ frames, (encode f).length < 2^32)
    {s : Source UInt8} (hlimit : s.chunks.length < limit) {tail : List UInt8}
    (hs : s.rest = frames.flatMap framed++tail) :
    (recvs texts (List.replicate frames.length limit) s).1 = frames.map .ok := by
  induction frames generalizing s with
  | nil => rfl
  | cons frame frames ih =>
    obtain ⟨hframe,hframes⟩ := List.forall_mem_cons.mp hframes
    have hnext : nextFrame texts s.rest = some (.ok frame,frames.flatMap framed++tail) := by
      rw [hs,List.flatMap_cons,List.append_assoc]
      exact nextFrame_framed texts hframe _
    obtain ⟨n,answer,hanswer,hchunks,hdecided,-⟩ := callOn_reads (closedAt texts) hlimit
      (show (nextFrame texts s.rest).isSome = true by rw [hnext]; rfl)
    have hstable := nextFrame_stable texts _ _ _ (s.chunks.drop n).flatten hdecided
    rw [List.append_assoc,← List.flatten_append,List.take_append_drop,← Source.rest,hnext,
      Option.some.injEq,Prod.mk.injEq] at hstable
    obtain ⟨rfl,hrest⟩ := hstable
    rw [← hchunks] at hrest
    have hlater := ih hframes (s:=(callOn (nextFrame texts) (closedAt texts) limit s).2)
      (by rw [hchunks,List.length_drop]; omega) hrest.symm
    simp only [List.length_cons,List.replicate_succ,recvs,recv_eq_callOn,hanswer,hlater]
    rfl

end Frames

section Quic

def Aligned (lines : List String) (chunks : List (List UInt8)) : Prop :=
  ∀ i ≤ lines.length, Cut chunks ((lines.take i).flatMap lineBytes)

/-- One `recv_text` for each line gives the lines, and then one `recv` for each frame the frames. -/
def HandedOver (lines : List String) (frames : List SessionFrame) (s : Source UInt8) : Prop :=
  (recvTexts lines.length s).1 = lines.map (fun line => some (.ok (line++"\n"))) ∧
    (recvs quic (List.replicate frames.length (s.chunks.length+1)) (recvTexts lines.length s).2).1 =
      frames.map .ok

theorem newline_mem_lineBytes (text : String) : 10 ∈ lineBytes text :=
  List.mem_append_right _ (List.mem_singleton.mpr rfl)

theorem recvTexts_buf (n : ℕ) (s : Source UInt8) : (recvTexts n s).2.buf = s.buf := by
  induction n generalizing s with
  | zero => rfl
  | succ n ih => exact ih (recvText s).2

theorem recvText_length {line : String} {s : Source UInt8}
    (h : (recvText s).1 = some (.ok (line++"\n"))) :
    (lineBytes line).length+(recvText s).2.chunks.flatten.length ≤ s.chunks.flatten.length := by
  simp only [recvText,readLine] at h ⊢
  obtain ⟨-,⟨answer,hanswer,hnext⟩ | ⟨hnone,-⟩ | ⟨-,-,heq⟩⟩ :=
    callOn_cases (closedLine textClosed) nextLine_stable
      (s.chunks.length+1) ⟨[],s.chunks,s.ended⟩
  · rw [hanswer,Option.some.injEq] at h
    obtain ⟨⟨taken,rest⟩,hsplit,hparts⟩ := Option.map_eq_some_iff.mp hnext
    simp only [h,Prod.mk.injEq] at hparts
    obtain ⟨htext,rfl⟩ := hparts
    have hlength := congrArg List.length (splitLine_parts hsplit).1
    rw [← textOf_ok htext,utf8_newline] at hlength
    simp only [Source.rest,List.nil_append,List.length_append] at hlength
    omega
  · rw [hnone] at h
    cases h
  · rw [heq,Option.some.injEq,closedLine] at h
    split at h
    · cases h
    · have hbytes := textOf_ok h
      rw [utf8_newline] at hbytes
      rw [heq,hbytes]
      simp [Source.rest]

theorem recvTexts_length {lines : List String} {s : Source UInt8}
    (h : (recvTexts lines.length s).1 = lines.map fun line => some (.ok (line++"\n"))) :
    (lines.flatMap lineBytes).length+(recvTexts lines.length s).2.chunks.flatten.length ≤
      s.chunks.flatten.length := by
  induction lines generalizing s with
  | nil => simp [recvTexts]
  | cons line lines ih =>
    simp only [List.length_cons,recvTexts,List.map_cons,List.cons.injEq] at h ⊢
    have hfirst := recvText_length h.1
    have hlater := ih h.2
    rw [List.flatMap_cons,List.length_append]
    omega

theorem aligned_cons {line : String} {lines : List String} {chunks : List (List UInt8)} {n : ℕ}
    (hcut : (chunks.take n).flatten = lineBytes line)
    (hfirst : ∀ k, 10 ∈ (chunks.take k).flatten → n ≤ k) :
    Aligned (line::lines) chunks ↔ Aligned lines (chunks.drop n) := by
  have hsplit : ∀ k, (chunks.take (n+k)).flatten =
      lineBytes line++((chunks.drop n).take k).flatten := by
    intro k
    rw [List.take_add,List.flatten_append,hcut]
  constructor
  · intro h i hi
    obtain ⟨m,hm⟩ := h (i+1) (by rw [List.length_cons]; omega)
    rw [List.take_succ_cons,List.flatMap_cons] at hm
    have hle := hfirst m (by rw [hm]; exact List.mem_append_left _ (newline_mem_lineBytes line))
    have hboth : lineBytes line++((chunks.drop n).take (m-n)).flatten =
        lineBytes line++(lines.take i).flatMap lineBytes := by
      rw [← hsplit,Nat.add_sub_cancel' hle,hm]
    exact ⟨m-n,List.append_cancel_left hboth⟩
  · intro h i hi
    cases i with
    | zero => exact ⟨0,rfl⟩
    | succ i =>
      obtain ⟨m,hm⟩ := h i (by rw [List.length_cons] at hi; omega)
      exact ⟨n+m,by rw [hsplit,hm,List.take_succ_cons,List.flatMap_cons]⟩

theorem handedOver_iff {lines : List String} {frames : List SessionFrame}
    (hlines : ∀ line ∈ lines, '\n' ∉ line.toList)
    (hframes : ∀ f ∈ frames, (encode f).length < 2^32) {s : Source UInt8} (hbuf : s.buf = [])
    (hs : s.chunks.flatten = lines.flatMap lineBytes++frames.flatMap framed) {limit : ℕ}
    (hlimit : s.chunks.length < limit) :
    ((recvTexts lines.length s).1 = lines.map (fun line => some (.ok (line++"\n"))) ∧
      (recvs quic (List.replicate frames.length limit) (recvTexts lines.length s).2).1 =
        frames.map .ok) ↔ Aligned lines s.chunks := by
  induction lines generalizing s with
  | nil =>
    have hrest : s.rest = frames.flatMap framed++[] := by
      rw [Source.rest,hbuf,List.append_nil]
      exact hs
    refine ⟨fun _ i hi => ⟨0,by simp⟩,fun _ => ⟨rfl,recvs_frames hframes hlimit hrest⟩⟩
  | cons line lines ih =>
    obtain ⟨hline,hlines⟩ := List.forall_mem_cons.mp hlines
    rw [List.flatMap_cons,List.append_assoc] at hs
    obtain ⟨n,lost,hrecv,htaken,hmore,hfirst⟩ := recvText_line hline hs
    have hlost := lost_eq_nil_iff (newline_mem_lineBytes line) htaken hfirst
    simp only [List.length_cons,recvTexts,hrecv,List.map_cons,List.cons.injEq,true_and]
    by_cases hnil : lost = []
    · rw [hnil,List.append_nil] at htaken
      rw [hnil,List.nil_append] at hmore
      rw [aligned_cons htaken hfirst]
      exact ih hlines hbuf hmore (by
        show (s.chunks.drop n).length < limit
        rw [List.length_drop]
        omega)
    · -- too few bytes are left for the other lines and the frames
      constructor
      · rintro ⟨htexts,hrecvs⟩
        exfalso
        have hcount := recvTexts_length htexts
        have hframed := recvs_length hrecvs
        have hempty : (recvTexts lines.length {s with chunks := s.chunks.drop n}).2.buf = [] :=
          (recvTexts_buf _ _).trans hbuf
        rw [Source.rest,hempty,List.nil_append] at hframed
        have hlength := congrArg List.length hmore
        simp only [List.length_append] at hlength
        have hpos := List.length_pos_iff.mpr hnil
        simp only at hcount
        omega
      · intro haligned
        obtain ⟨m,hm⟩ := haligned 1 (by simp)
        refine absurd (hlost.mpr ⟨m,?_⟩) hnil
        simpa using hm

end Quic

section Tcp

/-- The reader is kept between the two lines; it loses what it has read behind the second. -/
theorem handshake_iff {admits : String → String → Bool} {hello proof : String}
    (hhello : '\n' ∉ hello.toList) (hproof : '\n' ∉ proof.toList)
    (hadmits : admits (hello++"\n") (proof++"\n") = true) {s : Source UInt8} (hbuf : s.buf = [])
    {more : List UInt8} (hs : s.chunks.flatten = lineBytes hello++lineBytes proof++more) :
    (∃ stream, performAuthHandshake admits s = some stream ∧ stream.rest = more) ↔
      Cut s.chunks (lineBytes hello++lineBytes proof) := by
  obtain ⟨n,hanswer,hchunks,htaken,hrest,hfirst⟩ :=
    readLine_line authClosed hhello
      (show s.rest = lineBytes hello++(lineBytes proof++more) by
        rw [Source.rest,hbuf,List.nil_append,hs,List.append_assoc])
  obtain ⟨m,hanswer',hchunks',htaken',hrest',hfirst'⟩ :=
    readLine_line authClosed hproof hrest
  simp only [hbuf,List.nil_append] at htaken hfirst
  simp only [performAuthHandshake,hanswer,hanswer',hadmits,if_true,Option.some.injEq,exists_eq_left']
  generalize readLine authClosed s = first at *
  generalize readLine authClosed first.2 = second at *
  -- the reads up to the proof, and what they have brought behind it
  have hboth : (s.chunks.take (n+m)).flatten = lineBytes hello++lineBytes proof++second.2.buf := by
    rw [List.take_add,List.flatten_append,htaken,List.append_assoc,← hchunks,htaken',
      List.append_assoc]
  have hlost : (⟨[],second.2.chunks,second.2.ended⟩ : Source UInt8).rest = more ↔
      second.2.buf = [] := by
    rw [← hrest',Source.rest,Source.rest]
    constructor
    · intro heq
      have hlength := congrArg List.length heq
      simp only [List.nil_append,List.length_append] at hlength
      exact List.length_eq_zero_iff.mp (by omega)
    · intro heq
      rw [heq]
  rw [hlost]
  constructor
  · intro hnil
    rw [hnil,List.append_nil] at hboth
    exact ⟨n+m,hboth⟩
  · rintro ⟨k,hk⟩
    have hn : n ≤ k :=
      hfirst k (by rw [hk]; exact List.mem_append_left _ (newline_mem_lineBytes hello))
    have hj : first.2.buf++(first.2.chunks.take (k-n)).flatten = lineBytes proof := by
      rw [← Nat.add_sub_cancel' hn,List.take_add,List.flatten_append,htaken,List.append_assoc,
        ← hchunks] at hk
      exact List.append_cancel_left hk
    have hm : m ≤ k-n := hfirst' (k-n) (by rw [hj]; exact newline_mem_lineBytes proof)
    have hle := length_take_flatten_mono s.chunks (show n+m ≤ k by omega)
    rw [hboth,hk,List.length_append] at hle
    exact List.length_eq_zero_iff.mp (by omega)

end Tcp

section Main

theorem sends_eq_ok {texts : Texts} {frames : List SessionFrame} {written : List UInt8}
    (h : sends texts frames = .ok written) :
    (∀ f ∈ frames, (encode f).length < 2^32) ∧ written = frames.flatMap framed := by
  have hfits : ∀ f ∈ frames, (encode f).length < 2^32 := by
    induction frames generalizing written with
    | nil => exact fun f hf => absurd hf List.not_mem_nil
    | cons frame frames ih =>
      simp only [sends,send] at h
      split at h
      · next hfit =>
        refine List.forall_mem_cons.mpr ⟨hfit,?_⟩
        cases hrest : sends texts frames with
        | error e =>
          rw [hrest] at h
          cases h
        | ok rest => exact ih hrest
      · cases h
  rw [sends_ok texts hfits,Except.ok.injEq] at h
  exact ⟨hfits,h.symm⟩

/-- Lines and frames come over exactly if every line ends with a read; the TCP handshake hands the
stream over exactly if the proof does. -/
theorem text_handoff_iff (chunks : List (List UInt8)) (ended : Bool) :
    (∀ lines frames written, (∀ line ∈ lines, '\n' ∉ line.toList) →
      sends quic frames = .ok written → chunks.flatten = lines.flatMap lineBytes++written →
      (HandedOver lines frames ⟨[],chunks,ended⟩ ↔ Aligned lines chunks)) ∧
    ∀ admits hello proof more, '\n' ∉ hello.toList → '\n' ∉ proof.toList →
      admits (hello++"\n") (proof++"\n") = true →
      chunks.flatten = lineBytes hello++lineBytes proof++more →
      ((∃ stream, performAuthHandshake admits ⟨[],chunks,ended⟩ = some stream ∧
        stream.rest = more) ↔ Cut chunks (lineBytes hello++lineBytes proof)) := by
  constructor
  · intro lines frames written hlines hsends hchunks
    obtain ⟨hframes,rfl⟩ := sends_eq_ok hsends
    exact handedOver_iff hlines hframes rfl hchunks (Nat.lt_succ_self _)
  · intro admits hello proof more hhello hproof hadmits hchunks
    exact handshake_iff hhello hproof hadmits rfl hchunks

def emptyFrame : SessionFrame := ⟨⟨0,0,0⟩,[]⟩

theorem text_handoff_iff_twoReads :
    HandedOver ["ok"] [emptyFrame] ⟨[],[lineBytes "ok",framed emptyFrame],false⟩ := by
  refine ((text_handoff_iff _ false).1 ["ok"] [emptyFrame] (framed emptyFrame) (by decide) rfl
    (by simp)).mpr ?_
  intro i hi
  cases i with
  | zero => exact ⟨0,rfl⟩
  | succ i =>
    refine ⟨1,?_⟩
    simp

/-- All bytes in one read: the frame behind the line is lost. The byte behind a proof is lost as
well. -/
theorem text_handoff_loses :
    ¬ HandedOver ["ok"] [emptyFrame] ⟨[],[lineBytes "ok"++framed emptyFrame],false⟩ ∧
      ¬ ∃ stream, performAuthHandshake (fun _ _ => true)
        ⟨[],[lineBytes "hello",lineBytes "proof"++[1]],false⟩ = some stream ∧
          stream.rest = [1] := by
  have hfits : ∀ f ∈ [emptyFrame], (encode f).length < 2^32 := by decide
  constructor
  · intro h
    have haligned := (handedOver_iff (by decide) hfits rfl (by simp) (Nat.lt_succ_self _)).mp h
    obtain ⟨n,hn⟩ := haligned 1 (by simp)
    cases n with
    | zero => simp [lineBytes] at hn
    | succ n =>
      have hlength := congrArg List.length hn
      simp [framed] at hlength
  · intro h
    have hhello : '\n' ∉ "hello".toList := by decide
    have hproof : '\n' ∉ "proof".toList := by decide
    obtain ⟨n,hn⟩ := (handshake_iff hhello hproof rfl rfl (by simp)).mp h
    rcases n with _ | _ | n
    · simp [lineBytes] at hn
    · simp [lineBytes] at hn
    · simp at hn

end Main

end Bonded.TextHandoff
