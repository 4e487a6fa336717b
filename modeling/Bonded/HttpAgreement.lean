import Bonded.Http

/-! The client's HTTP requests and the server's answers on the wire. A message is a list of
header lines, a blank line and a body; each side reads what the other writes. -/
namespace Bonded.HttpAgreement

open Auth Bootstrap CertProof ClientBootstrap Http JsonText Text

section Json

mutual

/-- The text of a value as `serde_json` writes it. -/
def print : Json → List Char
  | .null => "null".toList
  | .bool true => "true".toList
  | .bool false => "false".toList
  | .num text => text.toList
  | .str s => quoted s
  | .arr [] => ['[',']']
  | .arr (v::vs) => '['::(print v++printItems vs)
  | .obj [] => ['{','}']
  | .obj ((key,v)::fields) => '{'::(quoted key++ ':'::(print v++printFields fields))

def printItems : List Json → List Char
  | [] => [']']
  | v::vs => ','::(print v++printItems vs)

def printFields : List (String × Json) → List Char
  | [] => ['}']
  | (key,v)::fields => ','::(quoted key++ ':'::(print v++printFields fields))

end

def numeric (c : Char) : Bool :=
  c.isDigit || c = '-' || c = '+' || c = '.' || c = 'e' || c = 'E'

mutual

/-- Every number of the value is written with characters of numbers. -/
def serialisable : Json → Bool
  | .null | .bool _ | .str _ => true
  | .num text => text.toList.all numeric
  | .arr items => serialisableItems items
  | .obj fields => serialisableFields fields

def serialisableItems : List Json → Bool
  | [] => true
  | v::vs => serialisable v && serialisableItems vs

def serialisableFields : List (String × Json) → Bool
  | [] => true
  | (_,v)::fields => serialisable v && serialisableFields fields

end

def jsonText (v : Json) : String := String.ofList (print v)

/-- Control characters, as the source's `is_control`. -/
def isControl (c : Char) : Bool := c.toNat < 32 ∨ (127 ≤ c.toNat ∧ c.toNat < 160)

/-- No character is a line ending, and none is below a space. -/
def Unbroken (text : List Char) : Prop := ∀ c ∈ text, 32 ≤ c.toNat

instance (text : List Char) : Decidable (Unbroken text) :=
  List.decidableBAll _ text

theorem unbroken_nil : Unbroken [] := by simp [Unbroken]

@[simp] theorem unbroken_cons {c : Char} {text : List Char} :
    Unbroken (c::text) ↔ 32 ≤ c.toNat ∧ Unbroken text := by
  simp [Unbroken]

@[simp] theorem unbroken_append {a b : List Char} :
    Unbroken (a++b) ↔ Unbroken a ∧ Unbroken b := by
  simp only [Unbroken,List.mem_append,or_imp,forall_and]

theorem unbroken_escape (c : Char) : Unbroken (escape c) := by
  have hescaped : ∀ n : Fin 32, Unbroken (escape (Char.ofNat n)) := by decide
  by_cases hcontrol : c.toNat < 32
  · obtain ⟨n,rfl⟩ := control_cases hcontrol
    exact hescaped n
  · -- the tests of `escape` that are left are for a quote and a backslash
    have hplain : escape c = ['\\','"'] ∨ escape c = ['\\','\\'] ∨ escape c = [c] := by
      unfold escape
      by_cases hquote : c = '"'
      · exact .inl (if_pos hquote)
      · by_cases hslash : c = '\\'
        · exact .inr (.inl (by rw [if_neg hquote,if_pos hslash]))
        · exact .inr (.inr (by
            rw [if_neg hquote,if_neg hslash,if_neg (by omega),if_neg (by omega),if_neg (by omega),
              if_neg (by omega),if_neg (by omega),if_neg hcontrol]))
    rcases hplain with heq | heq | heq
    · rw [heq]; decide
    · rw [heq]; decide
    · rw [heq]
      exact unbroken_cons.mpr ⟨by omega,unbroken_nil⟩

theorem unbroken_quoted (s : String) : Unbroken (quoted s) := by
  have hchars : Unbroken (s.toList.flatMap escape) := by
    intro c hc
    obtain ⟨d,-,hd⟩ := List.mem_flatMap.mp hc
    exact unbroken_escape d c hd
  simp [quoted,hchars,unbroken_nil]

theorem unbroken_numeric {text : List Char} (h : text.all numeric = true) : Unbroken text := by
  intro c hc
  have hnum := List.all_eq_true.mp h c hc
  simp only [numeric,Bool.or_eq_true,decide_eq_true_eq] at hnum
  rcases hnum with ((((hdigit | rfl) | rfl) | rfl) | rfl) | rfl
  · simp only [Char.isDigit,Bool.and_eq_true,decide_eq_true_eq] at hdigit
    have hlow : (48 : UInt32).toNat ≤ c.val.toNat := UInt32.le_iff_toNat_le.mp hdigit.1
    exact Nat.le_trans (by decide) hlow
  all_goals decide

theorem print_arr (v : Json) (vs : List Json) :
    print (.arr (v::vs)) = '['::(print v++printItems vs) := rfl

theorem print_fields (key : String) (v : Json) (fields : List (String × Json)) :
    print (.obj ((key,v)::fields)) = '{'::(quoted key++ ':'::(print v++printFields fields)) := rfl

mutual

theorem unbroken_print : (v : Json) → serialisable v = true → Unbroken (print v)
  | .null, _ | .bool true, _ | .bool false, _ => by decide
  | .num text, h => unbroken_numeric h
  | .str s, _ => unbroken_quoted s
  | .arr [], _ | .obj [], _ => by decide
  | .arr (v::vs), h => by
    simp only [serialisable,serialisableItems,Bool.and_eq_true] at h
    simp only [print_arr,unbroken_cons,unbroken_append]
    exact ⟨by decide,unbroken_print v h.1,unbroken_printItems vs h.2⟩
  | .obj ((key,v)::fields), h => by
    simp only [serialisable,serialisableFields,Bool.and_eq_true] at h
    simp only [print_fields,unbroken_cons,unbroken_append]
    exact ⟨by decide,unbroken_quoted key,by decide,unbroken_print v h.1,
      unbroken_printFields fields h.2⟩

theorem unbroken_printItems :
    (vs : List Json) → serialisableItems vs = true → Unbroken (printItems vs)
  | [], _ => by decide
  | v::vs, h => by
    simp only [serialisableItems,Bool.and_eq_true] at h
    simp only [printItems,unbroken_cons,unbroken_append]
    exact ⟨by decide,unbroken_print v h.1,unbroken_printItems vs h.2⟩

theorem unbroken_printFields :
    (fields : List (String × Json)) → serialisableFields fields = true →
      Unbroken (printFields fields)
  | [], _ => by decide
  | (key,v)::fields, h => by
    simp only [serialisableFields,Bool.and_eq_true] at h
    simp only [printFields,unbroken_cons,unbroken_append]
    exact ⟨by decide,unbroken_quoted key,by decide,unbroken_print v h.1,
      unbroken_printFields fields h.2⟩

end

theorem printFields_last (fields : List (String × Json)) :
    ∃ text, printFields fields = text++['}'] := by
  induction fields with
  | nil => exact ⟨[],rfl⟩
  | cons field fields ih =>
    obtain ⟨key,v⟩ := field
    obtain ⟨text,htext⟩ := ih
    exact ⟨','::(quoted key++ ':'::(print v++text)),by simp [printFields,htext]⟩

theorem print_obj (fields : List (String × Json)) :
    ∃ text, print (.obj fields) = '{'::(text++['}']) := by
  cases fields with
  | nil => exact ⟨[],rfl⟩
  | cons field fields =>
    obtain ⟨key,v⟩ := field
    obtain ⟨text,htext⟩ := printFields_last fields
    exact ⟨quoted key++ ':'::(print v++text),by simp [print_fields,htext]⟩

end Json

section Message

def joined : List (List Char) → List Char
  | [] => []
  | [l] => l
  | l::m::ls => l++ '\r':: '\n'::joined (m::ls)

/-- Some header lines, a blank line and a body. -/
def message (ls : List (List Char)) (body : List Char) : List Char := joined ls++headEnd++body

def HeaderLines (ls : List (List Char)) : Prop := ∀ l ∈ ls, l ≠ [] ∧ Unbroken l

theorem Unbroken.not_mem {text : List Char} (h : Unbroken text) {c : Char} (hc : c.toNat < 32) :
    c ∉ text := fun hmem => absurd (h c hmem) (Nat.not_le.mpr hc)

theorem lines_joined {ls : List (List Char)} (h : HeaderLines ls) : lines (joined ls) = ls := by
  induction ls with
  | nil => rfl
  | cons l ls ih =>
    obtain ⟨⟨hl,hplain⟩,hls⟩ := List.forall_mem_cons.mp h
    have hnewline : '\n' ∉ l := hplain.not_mem (by decide)
    cases ls with
    | nil =>
      have hlast := linesFrom_last hnewline []
      rwa [List.nil_append,if_neg hl] at hlast
    | cons m ls => rw [joined,lines_line hnewline,ih hls]

theorem splitOnce_skip {l : List Char} (h : '\r' ∉ l) (t : List Char) :
    splitOnce headEnd (l++t) = (splitOnce headEnd t).map fun p => (l++p.1,p.2) := by
  induction l with
  | nil => simp
  | cons c l ih =>
    simp only [List.mem_cons,not_or] at h
    have hno : headEnd.isPrefixOf (c::(l++t)) = false := by
      simp [headEnd,List.isPrefixOf,h.1]
    rw [List.cons_append,splitOnce,hno,ih h.2]
    simp [Function.comp_def]

theorem splitOnce_crlf {c : Char} (h : c ≠ '\r') (t : List Char) :
    splitOnce headEnd ('\r':: '\n'::c::t) =
      (splitOnce headEnd (c::t)).map fun p => ('\r':: '\n'::p.1,p.2) := by
  have hfirst : headEnd.isPrefixOf ('\r':: '\n'::c::t) = false := by
    simp [headEnd,List.isPrefixOf,Ne.symm h]
  have hsecond : headEnd.isPrefixOf ('\n'::c::t) = false := by
    simp [headEnd,List.isPrefixOf]
  rw [splitOnce,hfirst,splitOnce,hsecond]
  simp [Function.comp_def]

theorem splitOnce_message {ls : List (List Char)} (h : HeaderLines ls) (hne : ls ≠ [])
    (body : List Char) : splitOnce headEnd (message ls body) = some (joined ls,body) := by
  rw [message,List.append_assoc]
  induction ls with
  | nil => exact absurd rfl hne
  | cons l ls ih =>
    obtain ⟨⟨-,hplain⟩,hls⟩ := List.forall_mem_cons.mp h
    have hreturn : '\r' ∉ l := hplain.not_mem (by decide)
    cases ls with
    | nil =>
      rw [joined,splitOnce_skip hreturn]
      simp [headEnd,splitOnce]
    | cons m ls =>
      obtain ⟨⟨hm,hmplain⟩,-⟩ := List.forall_mem_cons.mp hls
      obtain ⟨c,t,hct⟩ : ∃ c t, joined (m::ls) = c::t ∧ c ≠ '\r' := by
        cases m with
        | nil => exact absurd rfl hm
        | cons c m =>
          have hc : c ≠ '\r' := fun h => hmplain.not_mem (c := '\r') (by decide) (by simp [h])
          cases ls with
          | nil => exact ⟨c,m,rfl,hc⟩
          | cons n ls => exact ⟨c,_,rfl,hc⟩
      rw [joined,List.append_assoc,splitOnce_skip hreturn,List.cons_append,List.cons_append,hct.1,
        List.cons_append,splitOnce_crlf hct.2,← List.cons_append,← hct.1,ih hls (by simp)]
      rfl

end Message

section Request

def buildHttpRequest (method host path : String) (body : Option String) : String :=
  match body with
  | some body => method++" "++path++" HTTP/1.1\r\nHost: "++host++
      "\r\nContent-Type: application/json\r\nContent-Length: "++toString (utf8 body).length++
      "\r\nConnection: close\r\n\r\n"++body
  | none => method++" "++path++" HTTP/1.1\r\nHost: "++host++"\r\nConnection: close\r\n\r\n"

/-- The header lines of a request with a body of some length. -/
def requestLines (method host path : String) (length : Option ℕ) : List (List Char) :=
  [method.toList++ ' '::(path.toList++" HTTP/1.1".toList),"Host: ".toList++host.toList]++
    (match length with
    | none => []
    | some n => ["Content-Type: application/json".toList,"Content-Length: ".toList++Nat.toDigits 10 n])++
    ["Connection: close".toList]

theorem buildHttpRequest_message (method host path : String) (body : Option String) :
    (buildHttpRequest method host path body).toList =
      message (requestLines method host path (body.map fun b => (utf8 b).length))
        (body.getD "").toList := by
  cases body with
  | none => simp [buildHttpRequest,message,requestLines,joined,headEnd]
  | some body =>
    simp [buildHttpRequest,message,requestLines,joined,headEnd,Nat.toString_eq_repr,
      Nat.toList_repr]

/-- A line that does not begin with a `c` declares no length. -/
theorem lengthOf_none {c : Char} (hspace : isWhitespace c = false) (hc : c.toLower ≠ 'c')
    (cs : List Char) : lengthOf (c::cs) = none := by
  unfold lengthOf
  split
  · rfl
  · next name value hsplit =>
    refine if_neg ?_
    cases name with
    | nil => decide
    | cons d name =>
      have hd : d = c := by
        have hline := splitOnce_some hsplit
        simp only [List.cons_append,List.cons.injEq] at hline
        exact hline.1.symm
      obtain ⟨ds,hds⟩ := trim_head (hd ▸ hspace) name
      simp only [eqIgnoreAsciiCase,hds,List.map_cons,decide_eq_true_eq]
      intro heq
      have hfirst := congrArg List.head? heq
      simp only [List.head?_cons,hd] at hfirst
      exact hc (Option.some.inj hfirst)

theorem upgradeLine_false {c : Char} (hc : c.toLower ≠ 'u') (cs : List Char) :
    upgradeLine (c::cs) = false := by
  have hno : "upgrade:".toList.isPrefixOf ((c::cs).map Char.toLower) = false := by
    simp [List.isPrefixOf,Ne.symm hc]
  simp only [upgradeLine,hno,Bool.false_and]

theorem unbroken_digits (n : ℕ) : Unbroken (Nat.toDigits 10 n) := by
  refine unbroken_numeric (List.all_eq_true.mpr fun c hc => ?_)
  simp [numeric,isDigit_digits n c hc]

theorem isWhitespace_digit {c : Char} (h : c.isDigit = true) : isWhitespace c = false := by
  simp only [Char.isDigit,Bool.and_eq_true,decide_eq_true_eq] at h
  have hlow : 48 ≤ c.toNat := UInt32.le_iff_toNat_le.mp h.1
  have hhigh : c.toNat ≤ 57 := UInt32.le_iff_toNat_le.mp h.2
  simp only [isWhitespace,decide_eq_false_iff_not]
  omega

theorem lengthOf_contentLength {n : ℕ} (h : n < 2^64) :
    lengthOf ("Content-Length: ".toList++Nat.toDigits 10 n) = some n := by
  have hsplit : splitOnce [':'] ("Content-Length: ".toList++Nat.toDigits 10 n) =
      some ("Content-Length".toList,' '::Nat.toDigits 10 n) := rfl
  have hname : eqIgnoreAsciiCase (trim (String.ofList "Content-Length".toList)) "content-length" =
      true := by decide
  have htrim : (trim (String.ofList (' '::Nat.toDigits 10 n))).toList = Nat.toDigits 10 n := by
    have hspace : trim (String.ofList (' '::Nat.toDigits 10 n)) =
        trim (String.ofList (Nat.toDigits 10 n)) := by
      simp [trim,isWhitespace]
    rw [hspace,trim_self,String.toList_ofList]
    · intro c hc
      rw [String.toList_ofList] at hc
      exact isWhitespace_digit (isDigit_digits n c (List.mem_of_mem_head? hc))
    · intro c hc
      rw [String.toList_ofList] at hc
      exact isWhitespace_digit (isDigit_digits n c (List.mem_of_mem_getLast? hc))
  simp only [lengthOf,hsplit,hname,htrim,if_true,parseUsize,parseUnsigned_digits h]

/-- The bodies of requests are texts in one line that do not begin like an upgrade. -/
def PlainBody (body : List Char) : Prop :=
  Unbroken body ∧ ∀ c, body.head? = some c → c.toLower ≠ 'u'

theorem isWebsocketUpgrade_plainBody {body : List Char} (h : PlainBody body) :
    isWebsocketUpgrade (encode body) = false := by
  have hlines := linesFrom_last (h.1.not_mem (c := '\n') (by decide)) []
  simp only [isWebsocketUpgrade,textOf_encode,lines,hlines,List.nil_append]
  cases body with
  | nil => rfl
  | cons c body => simp [upgradeLine_false (h.2 c rfl)]

theorem arrived_all {chunks : List (List UInt8)} (h : ∀ c ∈ chunks, 1 ≤ c.length)
    (buf : List UInt8) :
    arrived (buf++chunks.flatten).length chunks buf = some (buf++chunks.flatten) := by
  induction chunks generalizing buf with
  | nil => simp [arrived]
  | cons c cs ih =>
    obtain ⟨hc,hcs⟩ := List.forall_mem_cons.mp h
    have hshort : buf.length < (buf++(c::cs).flatten).length := by
      simp only [List.flatten_cons,List.length_append]
      omega
    have hnext := ih hcs (buf++c)
    rw [arrived,if_pos hshort]
    simpa using hnext

theorem take_message (ls : List (List Char)) (body : List Char) :
    (encode (message ls body)).take (encode (joined ls)).length = encode (joined ls) := by
  rw [message,List.append_assoc,encode_append,List.take_left]

section Reading

variable {ls : List (List Char)} (hls : HeaderLines ls) (hne : ls ≠ []) (body : List Char)

include hls hne

theorem findHeaderTerminator_message :
    findHeaderTerminator (encode (message ls body)) = some (encode (joined ls)).length := by
  rw [findHeaderTerminator_encode,splitOnce_message hls hne]
  rfl

omit hne in
theorem targetLen_message
    (hlength : (ls.findSome? lengthOf).getD 0 = (encode body).length) :
    targetLen (encode (message ls body)) (encode (joined ls)).length =
      (encode (message ls body)).length := by
  have hcl : parseContentLength (encode (joined ls)) = (encode body).length := by
    rw [parseContentLength,textOf_encode,lines_joined hls,hlength]
  rw [targetLen,take_message,hcl,message,encode_append,encode_append,List.length_append,
    List.length_append]
  rfl

/-- A message with a header section below the limit and the right length is read to its end,
and nothing more is waited for. -/
theorem read_message (hlength : (ls.findSome? lengthOf).getD 0 = (encode body).length)
    {reads : Reads} (hstream : reads.stream = encode (message ls body))
    (hheader : (encode (joined ls)).length+4 < maxHeaderBytes)
    (hsize : (encode (message ls body)).length < 2^64) (tail : Tail) :
    readUntilEndOfHeaders reads tail = .returned (encode (message ls body),
      isWebsocketUpgrade (encode (message ls body))) := by
  have htarget := targetLen_message hls body hlength
  have hreached : Reached (encode (joined ls)).length reads.chunks [] := by
    refine ⟨?_,fun b hb => ?_⟩
    · have hfind := findHeaderTerminator_message hls hne body
      rwa [← hstream] at hfind
    · have hfull := (arrived_append hb).1
      omega
  have hall := arrived_all (fun c hc => (reads.sizes c hc).1) []
  rw [readUntilEndOfHeaders_of_reached tail hreached,hstream,htarget,if_pos hsize,
    readBody_returned]
  have hflat : [] ++ reads.chunks.flatten = encode (message ls body) := hstream
  rw [hflat] at hall
  exact ⟨_,hall,rfl⟩

end Reading

section Lines

variable {method host path : String}

variable (hmethod : method = "GET" ∨ method = "POST")
include hmethod

theorem requestLines_header
    (hhost : Unbroken host.toList) (hpath : Unbroken path.toList) (length : Option ℕ) :
    HeaderLines (requestLines method host path length) := by
  have hline : Unbroken (method.toList++ ' '::(path.toList++" HTTP/1.1".toList)) := by
    rw [unbroken_append,unbroken_cons,unbroken_append]
    refine ⟨?_,by decide,hpath,by decide⟩
    rcases hmethod with rfl | rfl <;> decide
  have hhostLine : Unbroken ("Host: ".toList++host.toList) :=
    unbroken_append.mpr ⟨by decide,hhost⟩
  cases length with
  | none =>
    simp only [requestLines,HeaderLines,List.append_nil,List.cons_append,List.nil_append,
      List.forall_mem_cons]
    exact ⟨⟨by simp,hline⟩,⟨by simp,hhostLine⟩,⟨by decide,by decide⟩,by simp⟩
  | some n =>
    have hlength : Unbroken ("Content-Length: ".toList++Nat.toDigits 10 n) :=
      unbroken_append.mpr ⟨by decide,unbroken_digits n⟩
    simp only [requestLines,HeaderLines,List.cons_append,List.nil_append,List.forall_mem_cons]
    exact ⟨⟨by simp,hline⟩,⟨by simp,hhostLine⟩,⟨by decide,by decide⟩,⟨by simp,hlength⟩,
      ⟨by decide,by decide⟩,by simp⟩

theorem requestLines_length {length : Option ℕ} (hlength : length.getD 0 < 2^64) :
    ((requestLines method host path length).findSome? lengthOf).getD 0 = length.getD 0 := by
  have hline : lengthOf (method.toList++ ' '::(path.toList++" HTTP/1.1".toList)) = none := by
    rcases hmethod with rfl | rfl <;> exact lengthOf_none (by decide) (by decide) _
  have hhostLine : lengthOf ("Host: ".toList++host.toList) = none :=
    lengthOf_none (by decide) (by decide) _
  cases length with
  | none =>
    have hconnection : lengthOf "Connection: close".toList = none := by decide
    simp only [requestLines,List.append_nil,List.cons_append,List.nil_append,
      List.findSome?_cons,hline,hhostLine,hconnection,List.findSome?_nil]
  | some n =>
    have hn : n < 2^64 := hlength
    have htype : lengthOf "Content-Type: application/json".toList = none := by decide
    simp only [requestLines,List.cons_append,List.nil_append,List.findSome?_cons,hline,hhostLine,
      htype,lengthOf_contentLength hn]

theorem requestLines_upgrade (length : Option ℕ) :
    (requestLines method host path length).any upgradeLine = false := by
  have hline : upgradeLine (method.toList++ ' '::(path.toList++" HTTP/1.1".toList)) = false := by
    rcases hmethod with rfl | rfl <;> exact upgradeLine_false (by decide) _
  have hhostLine : upgradeLine ("Host: ".toList++host.toList) = false :=
    upgradeLine_false (by decide) _
  have hconnection : upgradeLine "Connection: close".toList = false := by decide
  cases length with
  | none =>
    simp only [requestLines,List.append_nil,List.cons_append,List.nil_append,List.any_cons,hline,
      hhostLine,hconnection,List.any_nil,Bool.or_self]
  | some n =>
    have htype : upgradeLine "Content-Type: application/json".toList = false := by decide
    have hlength : upgradeLine ("Content-Length: ".toList++Nat.toDigits 10 n) = false :=
      upgradeLine_false (by decide) _
    simp only [requestLines,List.cons_append,List.nil_append,List.any_cons,hline,hhostLine,htype,
      hlength,hconnection,List.any_nil,Bool.or_self]

theorem requestLine_request (hpath : ' ' ∉ path.toList) :
    requestLine (method.toList++ ' '::(path.toList++" HTTP/1.1".toList)) = (method,path) := by
  have hspace : ' ' ∉ method.toList := by
    rcases hmethod with rfl | rfl <;> decide
  have hrest : splitOnce [' '] (path.toList++" HTTP/1.1".toList) =
      some (path.toList,"HTTP/1.1".toList) := splitOnce_char hpath _
  simp only [requestLine,splitOnce_char hspace,hrest,String.ofList_toList]

end Lines

/-- A request of the client: the path has no blanks and no control characters, the host no
control characters, and the body is an object. -/
structure ClientRequest where
  method : String
  host : String
  path : String
  body : Option (List (String × Json))
  method_known : method = "GET" ∨ method = "POST"
  path_rooted : path.toList.head? = some '/'
  path_plain : ∀ c ∈ path.toList, c ≠ ' ' ∧ isControl c = false
  host_plain : ∀ c ∈ host.toList, isControl c = false
  body_serialisable : ∀ fields, body = some fields → serialisable (.obj fields) = true

def ClientRequest.bodyText (r : ClientRequest) : Option String :=
  r.body.map fun fields => jsonText (.obj fields)

def ClientRequest.bytes (r : ClientRequest) : List UInt8 :=
  utf8 (buildHttpRequest r.method r.host r.path r.bodyText)

theorem unbroken_of_not_control {text : List Char} (h : ∀ c ∈ text, isControl c = false) :
    Unbroken text := by
  intro c hc
  have hplain := h c hc
  simp only [isControl,decide_eq_false_iff_not] at hplain
  omega

namespace ClientRequest

variable (r : ClientRequest)

def headerLines : List (List Char) :=
  requestLines r.method r.host r.path (r.bodyText.map fun b => (utf8 b).length)

def content : List Char := (r.bodyText.getD "").toList

theorem bytes_eq : r.bytes = encode (message r.headerLines r.content) := by
  rw [bytes,utf8_eq_encode,buildHttpRequest_message]
  rfl

theorem headerLines_ne_nil : r.headerLines ≠ [] := by
  simp [headerLines,requestLines]

theorem headerLines_plain : HeaderLines r.headerLines := by
  refine requestLines_header r.method_known (unbroken_of_not_control r.host_plain) ?_ _
  exact unbroken_of_not_control fun c hc => (r.path_plain c hc).2

theorem content_plain : PlainBody r.content := by
  rw [content,bodyText]
  cases hbody : r.body with
  | none => exact ⟨by decide,by simp⟩
  | some fields =>
    have hplain := unbroken_print _ (r.body_serialisable fields hbody)
    obtain ⟨text,htext⟩ := print_obj fields
    simp only [Option.map_some,Option.getD_some,jsonText,String.toList_ofList]
    refine ⟨hplain,fun c hc => ?_⟩
    rw [htext] at hc
    cases hc
    decide

theorem headerLines_length (hsize : r.bytes.length < 2^63) :
    (r.headerLines.findSome? lengthOf).getD 0 = (encode r.content).length := by
  have hlength : (r.bodyText.map fun b => (utf8 b).length).getD 0 = (encode r.content).length := by
    rw [content]
    cases r.bodyText with
    | none => rfl
    | some b => simp [utf8_eq_encode]
  rw [bytes_eq,message,encode_append,List.length_append] at hsize
  rw [headerLines,requestLines_length r.method_known (by omega),hlength]

theorem not_upgrade : isWebsocketUpgrade r.bytes = false := by
  have hheader : isWebsocketUpgrade (encode (joined r.headerLines)) = false := by
    rw [isWebsocketUpgrade,textOf_encode,lines_joined r.headerLines_plain]
    exact requestLines_upgrade r.method_known _
  rw [bytes_eq,message,isWebsocketUpgrade_cut,hheader,
    isWebsocketUpgrade_plainBody r.content_plain]
  rfl

theorem parts : parseRequestParts r.bytes = (r.method,r.path,r.bodyText.getD "") := by
  have hspace : ' ' ∉ r.path.toList := fun hmem => (r.path_plain ' ' hmem).1 rfl
  have hsplit := splitOnce_message r.headerLines_plain r.headerLines_ne_nil r.content
  have hline : requestLine ((lines (joined r.headerLines)).head?.getD []) = (r.method,r.path) := by
    rw [lines_joined r.headerLines_plain]
    exact requestLine_request r.method_known hspace
  rw [bytes_eq,message,parseRequestParts_cut hsplit]
  simp only [parseRequestParts,textOf_encode,hline,content,String.ofList_toList]

/-- The request that the client writes is the one that the server reads, however it is split,
and the server does not wait for more. -/
theorem read {reads : Reads} (hstream : reads.stream = r.bytes)
    (hheader : ∀ h, findHeaderTerminator r.bytes = some h → h+4 < maxHeaderBytes)
    (hsize : r.bytes.length < 2^63) (tail : Tail) :
    readUntilEndOfHeaders reads tail = .returned (r.bytes,false) := by
  have hfind := findHeaderTerminator_message r.headerLines_plain r.headerLines_ne_nil r.content
  have hread := read_message r.headerLines_plain r.headerLines_ne_nil r.content
    (r.headerLines_length hsize) (r.bytes_eq ▸ hstream)
    (hheader _ (r.bytes_eq ▸ hfind)) (r.bytes_eq ▸ Nat.lt_trans hsize (by decide)) tail
  rw [← bytes_eq,not_upgrade] at hread
  exact hread

end ClientRequest

end Request

section Reply

def asU16 : StatusCode → ℕ
  | .ok => 200
  | .badRequest => 400
  | .unauthorized => 401
  | .forbidden => 403
  | .notFound => 404
  | .internalServerError => 500
  | .notImplemented => 501

def canonicalReason : StatusCode → String
  | .ok => "OK"
  | .badRequest => "Bad Request"
  | .unauthorized => "Unauthorized"
  | .forbidden => "Forbidden"
  | .notFound => "Not Found"
  | .internalServerError => "Internal Server Error"
  | .notImplemented => "Not Implemented"

/-- What is written for a reply of the router. -/
def handleRestRequest (reply : Reply) : List UInt8 :=
  let body := jsonText reply.2
  utf8 ("HTTP/1.1 "++toString (asU16 reply.1)++" "++canonicalReason reply.1++
    "\r\ncontent-type: application/json\r\ncontent-length: "++toString (utf8 body).length++
    "\r\nconnection: close\r\n\r\n"++body)

def statusLine (status : StatusCode) : List Char :=
  ("HTTP/1.1 "++toString (asU16 status)++" "++canonicalReason status).toList

def replyLines (status : StatusCode) (length : ℕ) : List (List Char) :=
  [statusLine status,"content-type: application/json".toList,
    "content-length: ".toList++Nat.toDigits 10 length,"connection: close".toList]

theorem handleRestRequest_message (reply : Reply) : handleRestRequest reply =
    encode (message (replyLines reply.1 (utf8 (jsonText reply.2)).length) (print reply.2)) := by
  rw [handleRestRequest,utf8_eq_encode]
  simp [message,replyLines,joined,headEnd,statusLine,jsonText,Nat.toString_eq_repr,
    Nat.toList_repr]

theorem replyLines_header (status : StatusCode) (length : ℕ) :
    HeaderLines (replyLines status length) := by
  have hstatus : statusLine status ≠ [] ∧ Unbroken (statusLine status) := by
    cases status <;> decide
  have hlength : Unbroken ("content-length: ".toList++Nat.toDigits 10 length) :=
    unbroken_append.mpr ⟨by decide,unbroken_digits length⟩
  simp only [replyLines,HeaderLines,List.forall_mem_cons]
  exact ⟨hstatus,⟨by decide,by decide⟩,⟨by simp,hlength⟩,⟨by decide,by decide⟩,by simp⟩

theorem firstLine_joined {l m : List Char} (ls : List (List Char)) (h : Unbroken l) :
    firstLine (joined (l::m::ls)) = some l := by
  have hnewline : '\n' ∉ l++['\r'] := by
    simp [h.not_mem (c := '\n') (by decide)]
  have hsplit : splitOnce ['\n'] (joined (l::m::ls)) = some (l++['\r'],joined (m::ls)) := by
    rw [← splitOnce_char hnewline,joined]
    simp
  cases hjoined : joined (l::m::ls) with
  | nil => simp [joined] at hjoined
  | cons c cs =>
    rw [hjoined] at hsplit
    simp [firstLine,hsplit]

/-- Of the statuses in use only one has a line with 200 in it. -/
theorem contains_statusLine (status : StatusCode) :
    contains " 200 ".toList (statusLine status) = true ↔ status = .ok := by
  cases status <;> decide

/-- An object is not changed by `trim`. -/
theorem trim_jsonText (fields : List (String × Json)) :
    trim (jsonText (.obj fields)) = jsonText (.obj fields) := by
  obtain ⟨text,htext⟩ := print_obj fields
  refine trim_self ?_ ?_
  · intro c hc
    rw [jsonText,String.toList_ofList,htext] at hc
    cases hc
    rfl
  · intro c hc
    rw [jsonText,String.toList_ofList,htext,← List.cons_append,List.getLast?_concat] at hc
    cases hc
    rfl

theorem extract_reply (status : StatusCode) (fields : List (String × Json)) :
    extractHttpJsonBody (handleRestRequest (status,.obj fields)) =
      .ok (jsonText (.obj fields)) ↔ status = .ok := by
  have hls := replyLines_header status (utf8 (jsonText (.obj fields))).length
  have hsplit := splitOnce_message hls (by simp [replyLines]) (print (.obj fields))
  have hline : firstLine (joined (replyLines status (utf8 (jsonText (.obj fields))).length)) =
      some (statusLine status) := firstLine_joined _ (hls _ (by simp [replyLines])).2
  rw [← contains_statusLine,handleRestRequest_message]
  simp only [extractHttpJsonBody,fromUtf8_encode,String.toList_ofList,hsplit,hline]
  split
  · next h => exact iff_of_true (congrArg _ (trim_jsonText fields)) h
  · next h => exact iff_of_false (by simp) h

def StructsAreObjects (libs : Libs) : Prop :=
  ∀ claims signature v, libs.introductionToJson claims signature = some v → ∃ fields, v = .obj fields

theorem wireguardPeerResponse_object {libs : Libs} {ctx : BootstrapContext}
    {stores stores' : Stores} {body : String} {now : ℕ} {writable : Bool} {reply : Reply}
    (h : wireguardPeerResponse libs ctx stores body now writable = (some reply,stores')) :
    ∃ fields, reply.2 = .obj fields := by
  unfold wireguardPeerResponse at h
  split at h
  · split at h
    · cases h
      exact ⟨_,rfl⟩
    · simp only at h
      split at h
      · cases h
        exact ⟨_,rfl⟩
      · split at h
        · cases h
        · cases h
          exact ⟨_,rfl⟩
  · cases h
    exact ⟨_,rfl⟩

theorem peerShareIntroductionResponse_object {libs : Libs} (hlibs : StructsAreObjects libs)
    (authorizedKeys : Table String AuthorizedDevice) (body : String) (now : ℕ) :
    ∃ fields, (peerShareIntroductionResponse libs authorizedKeys body now).2 = .obj fields := by
  unfold peerShareIntroductionResponse
  split
  · exact ⟨_,rfl⟩
  · split
    · exact ⟨_,rfl⟩
    · split
      · exact ⟨_,rfl⟩
      · split
        · exact ⟨_,rfl⟩
        · split
          · exact ⟨_,rfl⟩
          · simp only
            split
            · exact ⟨_,rfl⟩
            · split
              · exact ⟨_,rfl⟩
              · split
                · exact ⟨_,rfl⟩
                · next hjson => exact hlibs _ _ _ hjson

theorem reply_object {libs : Libs} (hlibs : StructsAreObjects libs) {ctx : BootstrapContext}
    {stores stores' : Stores} {request : Request} {now : ℕ} {writable : Bool} {reply : Reply}
    (h : routeBootstrapRequest libs ctx stores request now writable = (some reply,stores')) :
    ∃ fields, reply.2 = .obj fields := by
  unfold routeBootstrapRequest at h
  cases hroute : routeOf request.method request.path <;> simp only [hroute] at h
  case certProof =>
    cases h
    unfold certProofResponse
    split <;> exact ⟨_,rfl⟩
  case capabilities =>
    cases h
    exact ⟨_,rfl⟩
  case wireguardPeer => exact wireguardPeerResponse_object h
  case peerShareIntroduction =>
    cases h
    exact peerShareIntroductionResponse_object hlibs _ _ _
  case notFound =>
    cases h
    exact ⟨_,rfl⟩

end Reply

/-- Every request of the client is read as it was written, whatever the reads are, without
waiting for more; and the client takes the body of a reply of the server exactly if the status
is 200. A text has fewer than 2^63 bytes. -/
theorem client_server_agree :
    (∀ (r : ClientRequest) (reads : Reads) (tail : Tail), reads.stream = r.bytes →
      (∀ h, findHeaderTerminator r.bytes = some h → h+4 < maxHeaderBytes) →
      r.bytes.length < 2^63 →
      readUntilEndOfHeaders reads tail = .returned (r.bytes,false) ∧
        parseRequestParts r.bytes = (r.method,r.path,r.bodyText.getD "")) ∧
    (∀ (libs : Libs) (ctx : BootstrapContext) (stores stores' : Stores) (request : Request)
      (now : ℕ) (writable : Bool) (reply : Reply), StructsAreObjects libs →
      routeBootstrapRequest libs ctx stores request now writable = (some reply,stores') →
      (extractHttpJsonBody (handleRestRequest reply) = .ok (jsonText reply.2) ↔
        reply.1 = .ok)) := by
  refine ⟨fun r reads tail hstream hheader hsize => ?_,?_⟩
  · exact ⟨r.read hstream hheader hsize tail,r.parts⟩
  · intro libs ctx stores stores' request now writable reply hlibs hreply
    obtain ⟨status,v⟩ := reply
    obtain ⟨fields,rfl⟩ := reply_object hlibs hreply
    exact extract_reply status fields

def provisionRequest : ClientRequest where
  method := "POST"
  host := "vpn.example"
  path := "/v1/bootstrap/wireguard/peer"
  body := some []
  method_known := by decide
  path_rooted := by decide
  path_plain := by simp [isControl]
  host_plain := by simp [isControl]
  body_serialisable := by
    rintro fields ⟨⟩
    decide

theorem length_encode_le (text : List Char) : (encode text).length ≤ 4*text.length := by
  induction text with
  | nil => simp
  | cons c text ih =>
    have hc := Char.utf8Size_le_four c
    rw [encode_cons,List.length_append,String.length_utf8EncodeChar,List.length_cons]
    omega

theorem provisionRequest_length : provisionRequest.bytes.length < maxHeaderBytes := by
  have hlength := length_encode_le (message provisionRequest.headerLines provisionRequest.content)
  have hdigits : (Nat.toDigits 10 (encode ['\x7b','\x7d']).length).length = 1 := by decide
  have hempty : print (.obj []) = ['\x7b','\x7d'] := rfl
  have htext : (message provisionRequest.headerLines provisionRequest.content).length = 137 := by
    simp [message,ClientRequest.headerLines,ClientRequest.content,ClientRequest.bodyText,
      provisionRequest,utf8_eq_encode,jsonText,hempty,requestLines,joined,headEnd,hdigits]
  rw [ClientRequest.bytes_eq]
  simp only [maxHeaderBytes]
  omega

/-- Every byte comes with a read of its own. -/
def oneByOne (bytes : List UInt8) : Reads := ⟨bytes.map fun b => [b],by simp⟩

theorem oneByOne_stream (bytes : List UInt8) : (oneByOne bytes).stream = bytes := by
  simp [oneByOne,Reads.stream,← List.flatMap_def]

def objectLibs : Libs :=
  {serverLibs with introductionToJson := fun _ signature => some (.obj [("signature",.str signature)])}

def plainContext : BootstrapContext := ⟨none,"vpn.example:443",none,none,0⟩

theorem provision_and_capabilities :
    (readUntilEndOfHeaders (oneByOne provisionRequest.bytes) .silent =
        .returned (provisionRequest.bytes,false) ∧
      parseRequestParts provisionRequest.bytes =
        ("POST","/v1/bootstrap/wireguard/peer","\x7b\x7d")) ∧
    extractHttpJsonBody (handleRestRequest (capabilitiesResponse plainContext none)) =
      .ok (jsonText (capabilitiesResponse plainContext none).2) := by
  obtain ⟨hrequest,hreply⟩ := client_server_agree
  have hlength := provisionRequest_length
  refine ⟨?_,?_⟩
  · refine hrequest provisionRequest (oneByOne provisionRequest.bytes) .silent
      (oneByOne_stream _) (fun h hfind => ?_) (Nat.lt_trans hlength (by decide))
    have hend := findHeaderTerminator_length hfind
    omega
  · refine (hreply objectLibs plainContext ⟨∅,none⟩ ⟨∅,none⟩
      ⟨"GET","/v1/bootstrap/capabilities","",none⟩ 0 true _ ?_ ?_).mpr rfl
    · rintro claims signature v ⟨⟩
      exact ⟨_,rfl⟩
    · have hroute : routeOf "GET" "/v1/bootstrap/capabilities" = .capabilities := by decide
      simp only [routeBootstrapRequest,hroute]

end Bonded.HttpAgreement
