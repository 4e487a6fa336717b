import Bonded.ClientBootstrap

/-! The HTTP requests of the bootstrap server: the incremental reader and the parsers that scan
what it has read. A read returns between 1 and 256 bytes; a request is complete when its header
section and the declared number of bytes after it have been read. -/
namespace Bonded.Http

open Auth Bootstrap CertProof ClientBootstrap JsonText Text

section Parsers

/-- The text of some bytes; bytes that are no text have an empty one. -/
def textOf (raw : List UInt8) : List Char := ((fromUtf8 raw).getD "").toList

def terminator : List UInt8 := [13,10,13,10]

def findHeaderTerminator : List UInt8 → Option ℕ
  | [] => none
  | b::bs =>
    if terminator.isPrefixOf (b::bs) then some 0 else (findHeaderTerminator bs).map (·+1)

/-- A number below a bound as it is read: digits, perhaps after a plus sign. -/
def parseUnsigned (bound : ℕ) (text : List Char) : Option ℕ :=
  let digits := match text with
    | '+'::rest => rest
    | text => text
  if digits = [] ∨ digits.any fun d => d.isDigit = false then none
  else
    let n := Nat.ofDigitChars 10 digits 0
    if n < bound then some n else none

def parseUsize (text : List Char) : Option ℕ := parseUnsigned (2^64) text

/-- The length that a header line declares. -/
def lengthOf (line : List Char) : Option ℕ :=
  match splitOnce [':'] line with
  | none => none
  | some (name,value) =>
    if eqIgnoreAsciiCase (trim (String.ofList name)) "content-length" then
      parseUsize (trim (String.ofList value)).toList
    else none

def parseContentLength (headers : List UInt8) : ℕ :=
  ((lines (textOf headers)).findSome? lengthOf).getD 0

def upgradeLine (line : List Char) : Bool :=
  let lower := line.map Char.toLower
  "upgrade:".toList.isPrefixOf lower && contains "websocket".toList lower

def isWebsocketUpgrade (headers : List UInt8) : Bool := (lines (textOf headers)).any upgradeLine

/-- The method and the path of a request line. -/
def requestLine (line : List Char) : String × String :=
  match splitOnce [' '] line with
  | none => (String.ofList line,"/")
  | some (method,rest) =>
    match splitOnce [' '] rest with
    | none => (String.ofList method,String.ofList rest)
    | some (path,_) => (String.ofList method,String.ofList path)

def parseRequestParts (headers : List UInt8) : String × String × String :=
  let text := textOf headers
  let line := requestLine ((lines text).head?.getD [])
  let body := match splitOnce headEnd text with
    | none => []
    | some (_,body) => body
  (line.1,line.2,String.ofList body)

end Parsers

section Reader

def maxHeaderBytes : ℕ := 16*1024

/-- The chunks that the reads of a connection return. -/
structure Reads where
  chunks : List (List UInt8)
  sizes : ∀ c ∈ chunks, 1 ≤ c.length ∧ c.length ≤ 256

def Reads.stream (reads : Reads) : List UInt8 := reads.chunks.flatten

/-- The read after the last chunk: it waits, finds the connection closed, or fails. -/
inductive Tail
  | silent
  | closed
  | failed
  deriving DecidableEq, Repr

/-- An error of the reader: a text, or the context of an error of the socket. -/
inductive ReadError
  | text (message : String)
  | io (context : String)
  deriving DecidableEq, Repr

inductive Outcome (α : Type)
  | returned (a : α)
  | failed (e : ReadError)
  | overflow
  | waiting
  deriving DecidableEq, Repr

def Tail.outcome {α : Type} (tail : Tail) (closed context : String) : Outcome α :=
  match tail with
  | .silent => .waiting
  | .closed => .failed (.text closed)
  | .failed => .failed (.io context)

def readBody (tail : Tail) (contentLength targetLen : ℕ) :
    List (List UInt8) → List UInt8 → Outcome (List UInt8 × Bool)
  | [], buf =>
    if buf.length < targetLen then tail.outcome
      ("connection closed before HTTP request body was complete (expected "++
        toString contentLength++" bytes)") "error reading HTTP request body"
    else .returned (buf,isWebsocketUpgrade buf)
  | c::cs, buf =>
    if buf.length < targetLen then readBody tail contentLength targetLen cs (buf++c)
    else .returned (buf,isWebsocketUpgrade buf)

/-- The target length is computed in 64 bits. -/
def readHeaders (tail : Tail) :
    List (List UInt8) → List UInt8 → Outcome (List UInt8 × Bool)
  | chunks, buf =>
    if maxHeaderBytes ≤ buf.length then
      .failed (.text ("HTTP request headers exceeded "++toString maxHeaderBytes++" bytes"))
    else
      match chunks with
      | [] => tail.outcome "connection closed before HTTP request headers were complete"
          "error reading HTTP request headers"
      | c::cs =>
        let buf := buf++c
        match findHeaderTerminator buf with
        | none => readHeaders tail cs buf
        | some headerEnd =>
          let contentLength := parseContentLength (buf.take headerEnd)
          let targetLen := headerEnd+4+contentLength
          if targetLen < 2^64 then readBody tail contentLength targetLen cs buf else .overflow

def readUntilEndOfHeaders (reads : Reads) (tail : Tail) : Outcome (List UInt8 × Bool) :=
  readHeaders tail reads.chunks []

end Reader

section Numbers

theorem isDigit_digits (n : ℕ) : ∀ c ∈ Nat.toDigits 10 n, c.isDigit = true :=
  fun _ hc => Nat.isDigit_of_mem_toDigits (by decide) (by decide) hc

theorem parseUnsigned_digits {bound n : ℕ} (h : n < bound) :
    parseUnsigned bound (Nat.toDigits 10 n) = some n := by
  have hall : (Nat.toDigits 10 n).any (fun d => d.isDigit = false) = false := by
    simpa [List.any_eq_false] using isDigit_digits n
  have hvalue : Nat.ofDigitChars 10 (Nat.toDigits 10 n) 0 = n := by
    simp [Nat.ofDigitChars_toDigits]
  cases hdigits : Nat.toDigits 10 n with
  | nil => exact absurd hdigits Nat.toDigits_ne_nil
  | cons d ds =>
    have hplus : d ≠ '+' := by
      rintro rfl
      have hd := isDigit_digits n '+' (by simp [hdigits])
      cases hd
    rw [hdigits] at hall hvalue
    unfold parseUnsigned
    split
    · next hrest =>
      simp only [List.cons.injEq] at hrest
      exact absurd hrest.1 hplus
    · simp only [hall,hvalue,h,List.cons_ne_nil,false_or,Bool.false_eq_true,if_false,if_true]

theorem parsePort_eq (text : List Char) : parsePort text = parseUnsigned (2^16) text := rfl

end Numbers

theorem trim_head {c : Char} (h : isWhitespace c = false) (cs : List Char) :
    ∃ ds, (trim (String.ofList (c::cs))).toList = c::ds := by
  have hrest : (cs.reverse++[c]).dropWhile isWhitespace =
      cs.reverse.dropWhile isWhitespace++[c] := by
    rw [List.dropWhile_append]
    split
    · next hempty =>
      rw [List.isEmpty_iff.mp hempty]
      simp [h]
    · rfl
  refine ⟨(cs.reverse.dropWhile isWhitespace).reverse,?_⟩
  simp [trim,h,hrest]

section Terminator

theorem findHeaderTerminator_eq_some {a : List UInt8} {h : ℕ} :
    findHeaderTerminator a = some h ↔
      terminator <+: a.drop h ∧ ∀ i < h, ¬ terminator <+: a.drop i := by
  induction a generalizing h with
  | nil => simp [findHeaderTerminator,terminator]
  | cons x a ih =>
    simp only [findHeaderTerminator,List.isPrefixOf_iff_prefix]
    split
    · next hfirst =>
      constructor
      · rintro ⟨⟩
        exact ⟨hfirst,by simp⟩
      · rintro ⟨-,hnone⟩
        by_cases hzero : h = 0
        · rw [hzero]
        · exact absurd hfirst (hnone 0 (Nat.pos_of_ne_zero hzero))
    · next hfirst =>
      cases h with
      | zero => simp [hfirst]
      | succ h =>
        simp only [Option.map_eq_some_iff,Nat.add_right_cancel_iff,exists_eq_right,ih,
          List.drop_succ_cons]
        refine and_congr_right fun _ => ⟨fun hnone i hi => ?_,fun hnone i hi => ?_⟩
        · cases i with
          | zero => exact hfirst
          | succ i => exact hnone i (by omega)
        · exact hnone (i+1) (by omega)

theorem findHeaderTerminator_length {a : List UInt8} {h : ℕ}
    (hfind : findHeaderTerminator a = some h) : h+4 ≤ a.length := by
  have hlength := (findHeaderTerminator_eq_some.mp hfind).1.length_le
  simp only [terminator,List.length_cons,List.length_nil,List.length_drop] at hlength
  omega

/-- Bytes after a terminator do not move it. -/
theorem findHeaderTerminator_append {a : List UInt8} {h : ℕ} (hlength : h+4 ≤ a.length)
    (b : List UInt8) :
    findHeaderTerminator (a++b) = some h ↔ findHeaderTerminator a = some h := by
  have hdrop : ∀ i ≤ h, (terminator <+: (a++b).drop i ↔ terminator <+: a.drop i) := by
    intro i hi
    rw [List.drop_append_of_le_length (by omega)]
    refine ⟨fun hlong => ?_,fun hshort => hshort.trans (List.prefix_append _ _)⟩
    refine List.prefix_of_prefix_length_le hlong (List.prefix_append _ _) ?_
    simp only [terminator,List.length_cons,List.length_nil,List.length_drop]
    omega
  simp only [findHeaderTerminator_eq_some,hdrop h (Nat.le_refl h)]
  refine and_congr_right fun _ => forall_congr' fun i => forall_congr' fun hi => ?_
  rw [hdrop i (Nat.le_of_lt hi)]

theorem splitOnce_some {sep text a b : List Char} (h : splitOnce sep text = some (a,b)) :
    text = a++sep++b := by
  induction text generalizing a with
  | nil =>
    simp only [splitOnce] at h
    split at h
    · next hsep =>
      cases h
      rw [hsep]
      rfl
    · cases h
  | cons c text ih =>
    simp only [splitOnce] at h
    split at h
    · next hprefix =>
      cases h
      obtain ⟨rest,hrest⟩ := List.isPrefixOf_iff_prefix.mp hprefix
      rw [← hrest]
      simp
    · obtain ⟨p,hp,heq⟩ := Option.map_eq_some_iff.mp h
      cases heq
      rw [ih hp]
      rfl

theorem splitOnce_char {c : Char} {l : List Char} (h : c ∉ l) (r : List Char) :
    splitOnce [c] (l++c::r) = some (l,r) := by
  induction l with
  | nil => simp [splitOnce]
  | cons d l ih =>
    simp only [List.mem_cons,not_or] at h
    have hno : [c].isPrefixOf (d::(l++c::r)) = false := by simp [List.isPrefixOf,h.1]
    rw [List.cons_append,splitOnce,hno,ih h.2]
    rfl

theorem findHeaderTerminator_encode (text : List Char) :
    findHeaderTerminator (encode text) =
      (splitOnce headEnd text).map fun p => (encode p.1).length := by
  have hascii : ∀ c ∈ headEnd, c.toNat < 128 := by simp [headEnd]
  have hhead : ∀ cs, terminator.isPrefixOf (encode cs) = headEnd.isPrefixOf cs := by
    intro cs
    rw [Bool.eq_iff_iff,List.isPrefixOf_iff_prefix,List.isPrefixOf_iff_prefix,
      ← encode_isPrefix hascii]
    rfl
  have hskip : ∀ (bytes rest : List UInt8), (∀ b ∈ bytes, b ≠ 13) →
      findHeaderTerminator (bytes++rest) = (findHeaderTerminator rest).map (·+bytes.length) := by
    intro bytes rest hbytes
    induction bytes with
    | nil => simp
    | cons b bytes ih =>
      obtain ⟨hb,hbytes⟩ := List.forall_mem_cons.mp hbytes
      have hno : terminator.isPrefixOf (b::(bytes++rest)) = false := by
        simp [terminator,List.isPrefixOf,Ne.symm hb]
      rw [List.cons_append,findHeaderTerminator,hno,ih hbytes]
      cases findHeaderTerminator rest <;> simp [Nat.add_assoc]
  induction text with
  | nil => rfl
  | cons c text ih =>
    by_cases hfirst : headEnd.isPrefixOf (c::text) = true
    · have hbytes := hhead (c::text)
      simp only [splitOnce,hfirst,if_true,Option.map_some,encode_nil,List.length_nil]
      cases henc : encode (c::text) with
      | nil => simp [henc,hfirst,terminator] at hbytes
      | cons b bs => rw [findHeaderTerminator,← henc,hbytes,hfirst,if_pos rfl]
    · have hsplit : (splitOnce headEnd (c::text)).map (fun p => (encode p.1).length) =
          ((splitOnce headEnd text).map fun p => (encode p.1).length).map
            (·+(String.utf8EncodeChar c).length) := by
        rw [splitOnce,if_neg hfirst]
        cases splitOnce headEnd text <;> simp [encode_cons,Nat.add_comm]
      have hbytes := hhead (c::text)
      rw [hsplit,← ih]
      rw [encode_cons] at hbytes ⊢
      by_cases hascii : c.toNat < 128
      · rw [encodeChar_ascii hascii,List.singleton_append] at hbytes ⊢
        rw [findHeaderTerminator,hbytes,if_neg hfirst]
        rfl
      · refine hskip _ _ fun b hb hcr => ?_
        have hhigh := encodeChar_high hascii b hb
        simp [hcr] at hhigh

end Terminator

section Texts

theorem fromUtf8_some {raw : List UInt8} {text : String} (h : fromUtf8 raw = some text) :
    raw = encode text.toList := by
  simp only [fromUtf8,String.fromUTF8?] at h
  split at h
  · next hvalid =>
    cases h
    rw [← utf8_eq_encode,utf8,toList_eq_data,String.toUTF8_eq_toByteArray]
    rfl
  · cases h

theorem fromUtf8_encode (text : List Char) :
    fromUtf8 (encode text) = some (String.ofList text) := by
  rw [← fromUtf8_utf8,utf8_eq_encode,String.toList_ofList]

@[simp] theorem textOf_encode (text : List Char) : textOf (encode text) = text := by
  simp [textOf,fromUtf8_encode]

theorem textOf_none {raw : List UInt8} (h : fromUtf8 raw = none) : textOf raw = [] := by
  simp [textOf,h]

theorem cut_of_text {raw : List UInt8} {text : String} {h : ℕ} (htext : fromUtf8 raw = some text)
    (hfind : findHeaderTerminator raw = some h) : ∃ head body,
      splitOnce headEnd text.toList = some (head,body) ∧ text.toList = head++headEnd++body ∧
      raw.take h = encode head ∧ raw.drop (h+4) = encode body := by
  have hraw := fromUtf8_some htext
  rw [hraw,findHeaderTerminator_encode] at hfind
  obtain ⟨⟨head,body⟩,hsplit,rfl⟩ := Option.map_eq_some_iff.mp hfind
  have hcut := splitOnce_some hsplit
  have hbytes : raw = encode head++(terminator++encode body) := by
    rw [hraw,hcut,encode_append,encode_append,List.append_assoc]
    rfl
  refine ⟨head,body,hsplit,hcut,?_,?_⟩
  · rw [hbytes]
    simp
  · rw [hbytes,← List.drop_drop,List.drop_left]
    rfl

theorem upgradeLine_nil : upgradeLine [] = false := rfl

theorem isWebsocketUpgrade_cut (head body : List Char) :
    isWebsocketUpgrade (encode (head++headEnd++body)) =
      (isWebsocketUpgrade (encode head) || isWebsocketUpgrade (encode body)) := by
  obtain ⟨k,hk⟩ := lines_blank_line head body
  have hcut : head++headEnd++body = head++ '\r':: '\n':: '\r':: '\n'::body := by simp [headEnd]
  simp only [isWebsocketUpgrade,textOf_encode,hcut,hk,List.any_append]
  cases k <;> simp [upgradeLine_nil]

/-- The request line is the one of the header section. -/
theorem parseRequestParts_cut {head body : List Char}
    (hsplit : splitOnce headEnd (head++headEnd++body) = some (head,body)) :
    parseRequestParts (encode (head++headEnd++body)) =
      ((parseRequestParts (encode head)).1,(parseRequestParts (encode head)).2.1,
        String.ofList body) := by
  have hfirst := linesFrom_head [] head ('\r':: '\n'::body)
  have hcut : head++headEnd++body = head++ '\r':: '\n':: '\r':: '\n'::body := by simp [headEnd]
  simp only [parseRequestParts,textOf_encode,hsplit,lines]
  rw [hcut,hfirst]

end Texts

section Reading

/-- The bytes of `buf` and of the first reads with which there are at least `n`. -/
def arrived (n : ℕ) : List (List UInt8) → List UInt8 → Option (List UInt8)
  | [], buf => if buf.length < n then none else some buf
  | c::cs, buf => if buf.length < n then arrived n cs (buf++c) else some buf

variable {buf : List UInt8} {chunks : List (List UInt8)}

theorem readBody_returned {tail : Tail} {contentLength n : ℕ} {r : List UInt8 × Bool} :
    readBody tail contentLength n chunks buf = .returned r ↔
      ∃ b, arrived n chunks buf = some b ∧ r = (b,isWebsocketUpgrade b) := by
  induction chunks generalizing buf with
  | nil =>
    simp only [readBody,arrived]
    split
    · cases tail <;> simp [Tail.outcome]
    · simp [eq_comm]
  | cons c cs ih =>
    simp only [readBody,arrived]
    split
    · exact ih
    · simp [eq_comm]

theorem readBody_ne_overflow (tail : Tail) (contentLength n : ℕ) (chunks : List (List UInt8))
    (buf : List UInt8) : readBody tail contentLength n chunks buf ≠ .overflow := by
  induction chunks generalizing buf with
  | nil =>
    simp only [readBody]
    split
    · cases tail <;> simp [Tail.outcome]
    · simp
  | cons c cs ih =>
    simp only [readBody]
    split
    · exact ih _
    · simp

theorem arrived_append {n : ℕ} {b : List UInt8} (h : arrived n chunks buf = some b) :
    n ≤ b.length ∧ buf <+: b ∧ b <+: buf++chunks.flatten := by
  induction chunks generalizing buf with
  | nil =>
    simp only [arrived] at h
    split at h
    · cases h
    · next hn =>
      cases h
      exact ⟨Nat.le_of_not_lt hn,by simp,by simp⟩
  | cons c cs ih =>
    simp only [arrived] at h
    split at h
    · obtain ⟨hn,hbuf,hb⟩ := ih h
      exact ⟨hn,(List.prefix_append _ _).trans hbuf,by simpa using hb⟩
    · next hn =>
      cases h
      exact ⟨Nat.le_of_not_lt hn,List.prefix_refl _,List.prefix_append _ _⟩

/-- The blank line stands at `h`, and it is there before the reader gives up. -/
def Reached (h : ℕ) (chunks : List (List UInt8)) (buf : List UInt8) : Prop :=
  findHeaderTerminator (buf++chunks.flatten) = some h ∧
    ∀ b, arrived maxHeaderBytes chunks buf = some b → h+4 ≤ b.length

/-- The length that the header section in front of `h` asks for. -/
def targetLen (stream : List UInt8) (h : ℕ) : ℕ := h+4+parseContentLength (stream.take h)

/-- The header loop adds nothing to what the body loop reads. -/
theorem readHeaders_of_reached (tail : Tail) {h : ℕ} (hnone : findHeaderTerminator buf = none)
    (hreached : Reached h chunks buf) : readHeaders tail chunks buf =
      if targetLen (buf++chunks.flatten) h < 2^64 then
        readBody tail (parseContentLength ((buf++chunks.flatten).take h))
          (targetLen (buf++chunks.flatten) h) chunks buf
      else .overflow := by
  induction chunks generalizing buf with
  | nil =>
    have hfind := hreached.1
    simp [hnone] at hfind
  | cons c cs ih =>
    obtain ⟨hfind,hfits⟩ := hreached
    have hshort : buf.length < h+4 := by
      by_contra hlong
      rw [findHeaderTerminator_append (Nat.le_of_not_lt hlong),hnone] at hfind
      cases hfind
    have hroom : buf.length < maxHeaderBytes := by
      by_contra hfull
      exact Nat.not_le.mpr hshort (hfits buf (by simp [arrived,hfull]))
    have hbody : ∀ cl, readBody tail cl (targetLen (buf++(c::cs).flatten) h) (c::cs) buf =
        readBody tail cl (targetLen (buf++(c::cs).flatten) h) cs (buf++c) := by
      intro cl
      rw [readBody,if_pos]
      simp only [targetLen]
      omega
    have hassoc : buf++(c::cs).flatten = (buf++c)++cs.flatten := by simp
    rw [hbody,hassoc]
    rw [readHeaders,if_neg (by omega)]
    cases hnext : findHeaderTerminator (buf++c) with
    | none =>
      simp only [hnext]
      refine ih hnext ⟨hassoc ▸ hfind,fun b hb => hfits b ?_⟩
      rw [arrived,if_pos hroom]
      exact hb
    | some h' =>
      have hlength := findHeaderTerminator_length hnext
      have hsame : h' = h := by
        rw [hassoc,(findHeaderTerminator_append hlength _).mpr hnext] at hfind
        exact Option.some.inj hfind
      subst hsame
      have htake : (buf++c++cs.flatten).take h' = (buf++c).take h' :=
        List.take_append_of_le_length (by omega)
      simp only [hnext,targetLen,htake]

theorem readHeaders_of_not_reached (tail : Tail) (hnone : findHeaderTerminator buf = none)
    (hnot : ∀ h, ¬ Reached h chunks buf) :
    readHeaders tail chunks buf ≠ .overflow ∧ ∀ r, readHeaders tail chunks buf ≠ .returned r := by
  induction chunks generalizing buf with
  | nil =>
    rw [readHeaders]
    split
    · simp
    · cases tail <;> simp [Tail.outcome]
  | cons c cs ih =>
    have hassoc : buf++(c::cs).flatten = (buf++c)++cs.flatten := by simp
    rw [readHeaders]
    split
    · simp
    · next hroom =>
      have harrived : ∀ b, arrived maxHeaderBytes (c::cs) buf = some b →
          arrived maxHeaderBytes cs (buf++c) = some b := by
        intro b hb
        rwa [arrived,if_pos (Nat.lt_of_not_le hroom)] at hb
      cases hnext : findHeaderTerminator (buf++c) with
      | none =>
        simp only [hnext]
        refine ih hnext fun h hreached => hnot h ⟨hassoc ▸ hreached.1,fun b hb => ?_⟩
        exact hreached.2 b (harrived b hb)
      | some h =>
        have hlength := findHeaderTerminator_length hnext
        refine absurd ⟨?_,?_⟩ (hnot h)
        · rw [hassoc]
          exact (findHeaderTerminator_append hlength _).mpr hnext
        · intro b hb
          have hlong := (arrived_append (harrived b hb)).2.1.length_le
          omega

theorem readUntilEndOfHeaders_of_reached {reads : Reads} (tail : Tail) {h : ℕ}
    (hreached : Reached h reads.chunks []) : readUntilEndOfHeaders reads tail =
      if targetLen reads.stream h < 2^64 then
        readBody tail (parseContentLength (reads.stream.take h)) (targetLen reads.stream h)
          reads.chunks []
      else .overflow := readHeaders_of_reached tail rfl hreached

end Reading

end Bonded.Http
