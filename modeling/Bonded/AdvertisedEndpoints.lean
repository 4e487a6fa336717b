import Bonded.Http

/-! The endpoints that the server advertises for a request: the configured ones, with the host
and the port of the request's `Host` header put in. -/
namespace Bonded.AdvertisedEndpoints

open Auth Bootstrap CertProof ClientBootstrap Http Text

section Authority

/-- A host: a name or an IPv4 address, or an IPv6 address, which stands in brackets. -/
inductive Host
  | name (text : List Char)
  | v6 (text : List Char)
  deriving DecidableEq, Repr

def nameChar (c : Char) : Bool := c.isAlphanum || "-._~%!$&'()*+,;=".toList.contains c

def v6Char (c : Char) : Bool := c.isDigit || "abcdefABCDEF:.".toList.contains c

def Host.valid : Host → Bool
  | .name text => !text.isEmpty && text.all nameChar
  | .v6 text => !text.isEmpty && text.all v6Char

def Host.text : Host → List Char
  | .name text => text
  | .v6 text => '['::(text++[']'])

/-- The host without brackets. -/
def Host.bare : Host → List Char
  | .name text | .v6 text => text

/-- `http::uri::Authority`: a host and perhaps a port. -/
structure Authority where
  host : Host
  port : Option (List Char)
  deriving DecidableEq, Repr

def Authority.portU16 (a : Authority) : Option ℕ := a.port.bind parsePort

def parsePortPart (host : Host) : List Char → Option Authority
  | [] => some ⟨host,none⟩
  | ':'::port => if port.all Char.isDigit then some ⟨host,some port⟩ else none
  | _ => none

/-- A host with at most one colon and a port of digits after it. -/
def parseAuthority (text : List Char) : Option Authority :=
  match text with
  | '['::rest =>
    match splitOnce [']'] rest with
    | none => none
    | some (address,after) =>
      if Host.valid (.v6 address) then parsePortPart (.v6 address) after else none
  | text =>
    match splitOnce [':'] text with
    | none => if Host.valid (.name text) then some ⟨.name text,none⟩ else none
    | some (name,port) =>
      if Host.valid (.name name) then parsePortPart (.name name) (':'::port) else none

end Authority

section Endpoints

def parseHostHeader (request : List UInt8) : Option String :=
  match findHeaderTerminator request with
  | none => none
  | some headerEnd =>
    match fromUtf8 (request.take headerEnd) with
    | none => none
    | some text => (lines text.toList).findSome? fun line =>
        match splitOnce [':'] line with
        | none => none
        | some (name,value) =>
          if eqIgnoreAsciiCase (trim (String.ofList name)) "host" then
            let authority := trim (String.ofList value)
            if authority = "" then none else some authority
          else none

def rewriteEndpointAuthority (configuredEndpoint requestedAuthority : String) : String :=
  let requested := parseAuthority requestedAuthority.toList
  let configured := parseAuthority configuredEndpoint.toList
  let host := ((requested.map (·.host.text)).filter (· ≠ [])).getD configuredEndpoint.toList
  let port := (requested.bind Authority.portU16).or (configured.bind Authority.portU16)
  let host := if host.contains ':' ∧ host.head? ≠ some '[' then '['::(host++[']']) else host
  match port with
  | some port => String.ofList (host++ ':'::Nat.toDigits 10 port)
  | none => String.ofList host

def advertisedEndpointsForRequest (ctx : BootstrapContext) (requestedAuthority : Option String) :
    AdvertisedBootstrapEndpoints :=
  match requestedAuthority.filter fun authority => trim authority ≠ "" with
  | some authority => ⟨rewriteEndpointAuthority ctx.serverPublicAddress authority,
      ctx.wireguardPublicAddr.map fun endpoint => rewriteEndpointAuthority endpoint authority⟩
  | none => ⟨ctx.serverPublicAddress,ctx.wireguardPublicAddr⟩

end Endpoints

/-- A configured `host:port`. -/
structure Endpoint where
  host : Host
  port : ℕ
  valid : host.valid = true
  port_lt : port < 2^16

def Endpoint.text (e : Endpoint) : String :=
  String.ofList (e.host.text++ ':'::Nat.toDigits 10 e.port)

/-- The authority that a `Host` header names, if it is one. -/
def requestedAuthority (header : Option String) : Option Authority :=
  header.bind fun text => parseAuthority text.toList

/-- The host that is to be advertised: that of a valid header, or the configured one. -/
def advertisedHost (header : Option String) (e : Endpoint) : String :=
  String.ofList (((requestedAuthority header).map Authority.host).getD e.host).bare

/-- The client can split both endpoints, they have the right hosts, WireGuard keeps its port,
and without a valid header they are the configured ones. -/
structure WellAdvertised (https : Endpoint) (wireguard : Option Endpoint) (header : Option String)
    (endpoints : AdvertisedBootstrapEndpoints) : Prop where
  https_split : ∃ port, splitHostPort endpoints.serverPublicAddress =
    some (advertisedHost header https,port)
  wireguard_split : endpoints.wireguardPublicAddr.map splitHostPort =
    wireguard.map fun e => some (advertisedHost header e,e.port)
  configured : requestedAuthority header = none →
    endpoints = ⟨https.text,wireguard.map Endpoint.text⟩

/-- There is no header text, or it is an authority without a port of its own other than that of
WireGuard. -/
def Compatible (wireguard : Option Endpoint) (header : Option String) : Prop :=
  (∀ text, header = some text → trim text = "") ∨
    ∃ a, requestedAuthority header = some a ∧
      ∀ e, wireguard = some e → a.portU16 = none ∨ a.portU16 = some e.port

section Hosts

theorem toNat_of_isAlphanum {c : Char} (h : c.isAlphanum = true) :
    48 ≤ c.toNat ∧ c.toNat < 128 := by
  have hranges : ('A'.toNat ≤ c.toNat ∧ c.toNat ≤ 'Z'.toNat) ∨
      ('a'.toNat ≤ c.toNat ∧ c.toNat ≤ 'z'.toNat) ∨
      ('0'.toNat ≤ c.toNat ∧ c.toNat ≤ '9'.toNat) := by
    rcases Bool.or_eq_true_iff.mp h with halpha | hdigit
    · rcases Bool.or_eq_true_iff.mp halpha with hupper | hlower
      · exact .inl (of_decide_eq_true hupper)
      · obtain ⟨hge,hle⟩ := Bool.and_eq_true_iff.mp hlower
        exact .inr (.inl ⟨of_decide_eq_true hge,of_decide_eq_true hle⟩)
    · obtain ⟨hge,hle⟩ := Bool.and_eq_true_iff.mp hdigit
      exact .inr (.inr ⟨of_decide_eq_true hge,of_decide_eq_true hle⟩)
  simp only [Char.reduceToNat] at hranges
  omega

theorem nameChar_ne {c : Char} (h : nameChar c = true) :
    c ≠ ':' ∧ c ≠ '[' ∧ isWhitespace c = false := by
  refine ⟨by rintro rfl; revert h; decide,by rintro rfl; revert h; decide,?_⟩
  simp only [nameChar,Bool.or_eq_true,List.contains_iff_mem] at h
  rcases h with halnum | hmem
  · have hcode := toNat_of_isAlphanum halnum
    simp only [isWhitespace,decide_eq_false_iff_not]
    omega
  · have hall : "-._~%!$&'()*+,;=".toList.all (fun d => !isWhitespace d) = true := by decide
    simpa using List.all_eq_true.mp hall c hmem

theorem valid_name {text : List Char} (h : Host.valid (.name text) = true) :
    ∃ c cs, text = c::cs ∧ ':' ∉ text ∧ c ≠ '[' ∧ isWhitespace c = false := by
  simp only [Host.valid,Bool.and_eq_true,Bool.not_eq_true',List.isEmpty_eq_false_iff,
    List.all_eq_true] at h
  cases text with
  | nil => exact absurd rfl h.1
  | cons c cs =>
    obtain ⟨-,hbracket,hspace⟩ := nameChar_ne (h.2 c (by simp))
    exact ⟨c,cs,rfl,fun hmem => (nameChar_ne (h.2 ':' hmem)).1 rfl,hbracket,hspace⟩

theorem valid_v6 {text : List Char} (h : Host.valid (.v6 text) = true) : ']' ∉ text := by
  simp only [Host.valid,Bool.and_eq_true,List.all_eq_true] at h
  intro hmem
  have hchar := h.2 ']' hmem
  revert hchar
  decide

theorem text_bracketed {host : Host} (h : host.valid = true) :
    ¬ (host.text.contains ':' ∧ host.text.head? ≠ some '[') ∧ host.text ≠ [] := by
  cases host with
  | v6 text => simp [Host.text]
  | name text =>
    obtain ⟨c,cs,rfl,hcolon,-,-⟩ := valid_name h
    simp only [Host.text,List.contains_iff_mem]
    exact ⟨fun hmem => hcolon hmem.1,by simp⟩

theorem parseAuthority_host {host : Host} (h : host.valid = true) {port : List Char}
    (hport : port.all Char.isDigit = true) :
    parseAuthority (host.text++ ':'::port) = some ⟨host,some port⟩ := by
  cases host with
  | name text =>
    obtain ⟨c,cs,rfl,hcolon,hbracket,-⟩ := valid_name h
    have hsplit := splitOnce_char hcolon port
    simp only [Host.text,parseAuthority]
    split
    · next heq =>
      simp only [List.cons_append,List.cons.injEq] at heq
      exact absurd heq.1 hbracket
    · simp only [hsplit,h,if_true,parsePortPart,hport]
  | v6 text =>
    have hsplit := splitOnce_char (valid_v6 h) (':'::port)
    simp only [Host.text,List.cons_append,List.append_assoc,List.nil_append,parseAuthority,hsplit,
      h,if_true,parsePortPart,hport]

theorem splitHostPort_host {host : Host} (h : host.valid = true) {port : ℕ} (hport : port < 2^16) :
    splitHostPort (String.ofList (host.text++ ':'::Nat.toDigits 10 port)) =
      some (String.ofList host.bare,port) := by
  have hparse : parsePort (Nat.toDigits 10 port) = some port := by
    rw [parsePort_eq,parseUnsigned_digits hport]
  cases host with
  | name text =>
    obtain ⟨c,cs,rfl,-,hbracket,-⟩ := valid_name h
    have hcolon : ':' ∉ (Nat.toDigits 10 port).reverse := by
      intro hmem
      have hdigit := isDigit_digits port ':' (List.mem_reverse.mp hmem)
      cases hdigit
    have hsplit := splitOnce_char hcolon (c::cs).reverse
    simp only [splitHostPort,String.toList_ofList,Host.text]
    split
    · next heq =>
      simp only [List.cons_append,List.cons.injEq] at heq
      exact absurd heq.1 hbracket
    · simp only [List.reverse_append,List.reverse_cons,List.append_assoc,List.nil_append,
        List.cons_append] at hsplit ⊢
      simp only [hsplit]
      simp [hparse,Host.bare]
  | v6 text =>
    have hsplit := splitOnce_char (valid_v6 h) (':'::Nat.toDigits 10 port)
    simp only [splitHostPort,String.toList_ofList,Host.text,List.cons_append,List.append_assoc,
      List.nil_append,hsplit,hparse,Option.map_some,Host.bare]

theorem parseAuthority_valid {text : List Char} {a : Authority} (h : parseAuthority text = some a) :
    a.host.valid = true := by
  have hpart : ∀ {host : Host} {rest : List Char}, host.valid = true →
      parsePortPart host rest = some a → a.host.valid = true := by
    intro host rest hvalid hrest
    unfold parsePortPart at hrest
    split at hrest
    · cases hrest
      exact hvalid
    · split at hrest
      · cases hrest
        exact hvalid
      · cases hrest
    · cases hrest
  unfold parseAuthority at h
  split at h
  · split at h
    · cases h
    · split at h
      · next hvalid => exact hpart hvalid h
      · cases h
  · split at h
    · split at h
      · next hvalid =>
        cases h
        exact hvalid
      · cases h
    · split at h
      · next hvalid => exact hpart hvalid h
      · cases h

theorem parsePort_lt {text : List Char} {port : ℕ} (h : parsePort text = some port) :
    port < 2^16 := by
  simp only [parsePort] at h
  split at h
  all_goals
    split at h
    · cases h
    · split at h
      · next hlt =>
        cases h
        exact hlt
      · cases h

theorem parseAuthority_head {text : List Char} {a : Authority} (h : parseAuthority text = some a) :
    ∃ c cs, text = c::cs ∧ isWhitespace c = false := by
  unfold parseAuthority at h
  split at h
  · exact ⟨_,_,rfl,rfl⟩
  · split at h
    · split at h
      · next hvalid =>
        obtain ⟨c,cs,htext,-,-,hspace⟩ := valid_name hvalid
        exact ⟨c,cs,htext,hspace⟩
      · cases h
    · next name port hsplit =>
      split at h
      · next hvalid =>
        obtain ⟨c,cs,rfl,-,-,hspace⟩ := valid_name hvalid
        exact ⟨c,_,splitOnce_some hsplit,hspace⟩
      · cases h

theorem trim_ne_of_authority {text : String} {a : Authority}
    (h : parseAuthority text.toList = some a) : trim text ≠ "" := by
  obtain ⟨c,cs,htext,hspace⟩ := parseAuthority_head h
  obtain ⟨ds,hds⟩ := trim_head hspace cs
  rw [← htext,String.ofList_toList] at hds
  intro hempty
  rw [hempty] at hds
  cases hds

end Hosts

section Rewriting

theorem portU16_lt {a : Authority} {port : ℕ} (h : a.portU16 = some port) : port < 2^16 := by
  obtain ⟨text,-,hparse⟩ := Option.bind_eq_some_iff.mp h
  exact parsePort_lt hparse

theorem parseAuthority_endpoint (e : Endpoint) : (parseAuthority e.text.toList).bind
    Authority.portU16 = some e.port := by
  have hdigits : (Nat.toDigits 10 e.port).all Char.isDigit = true :=
    List.all_eq_true.mpr (isDigit_digits e.port)
  rw [Endpoint.text,String.toList_ofList,parseAuthority_host e.valid hdigits]
  exact (parsePort_eq _).trans (parseUnsigned_digits e.port_lt)

theorem rewrite_valid (e : Endpoint) {requested : String} {a : Authority}
    (h : parseAuthority requested.toList = some a) :
    rewriteEndpointAuthority e.text requested =
      String.ofList (a.host.text++ ':'::Nat.toDigits 10 (a.portU16.getD e.port)) := by
  obtain ⟨hplain,hne⟩ := text_bracketed (parseAuthority_valid h)
  have hport : (a.portU16.or ((parseAuthority e.text.toList).bind Authority.portU16)) =
      some (a.portU16.getD e.port) := by
    rw [parseAuthority_endpoint]
    cases a.portU16 <;> rfl
  have hhost : ((some a.host.text).filter (· ≠ [])).getD e.text.toList = a.host.text := by
    simp [Option.filter,hne]
  simp only [rewriteEndpointAuthority,h,Option.bind_some,hport,Option.map_some,hhost,if_neg hplain]

theorem rewrite_invalid (e : Endpoint) {requested : String}
    (h : parseAuthority requested.toList = none) :
    rewriteEndpointAuthority e.text requested ≠ e.text := by
  intro heq
  have hlength := congrArg (fun s => s.toList.length) heq
  simp only [rewriteEndpointAuthority,h,Option.map_none,Option.bind_none,Option.none_or,
    parseAuthority_endpoint,Option.filter_none,Option.getD_none,String.toList_ofList,
    List.length_append,List.length_cons] at hlength
  split at hlength
  · simp only [List.length_cons,List.length_append] at hlength
    omega
  · omega

end Rewriting

section Advertising

variable (ctx : BootstrapContext) (https : Endpoint) (wireguard : Option Endpoint)

/-- The context of a server that is configured with these endpoints. -/
def configure : BootstrapContext :=
  {ctx with serverPublicAddress := https.text, wireguardPublicAddr := wireguard.map Endpoint.text}

variable {ctx https wireguard} {text : String}

theorem advertised_of_blank {header : Option String}
    (h : ∀ text, header = some text → trim text = "") :
    advertisedEndpointsForRequest (configure ctx https wireguard) header =
      ⟨https.text,wireguard.map Endpoint.text⟩ := by
  cases header with
  | none => rfl
  | some text => simp [advertisedEndpointsForRequest,Option.filter,h text rfl,configure]

theorem advertised_of_text (h : trim text ≠ "") :
    advertisedEndpointsForRequest (configure ctx https wireguard) (some text) =
      ⟨rewriteEndpointAuthority https.text text,
        wireguard.map fun e => rewriteEndpointAuthority e.text text⟩ := by
  simp [advertisedEndpointsForRequest,Option.filter,h,configure,Function.comp_def]

theorem wellAdvertised_of_blank {header : Option String}
    (h : ∀ text, header = some text → trim text = "") :
    WellAdvertised https wireguard header
      (advertisedEndpointsForRequest (configure ctx https wireguard) header) := by
  have hnone : requestedAuthority header = none := by
    cases header with
    | none => rfl
    | some text =>
      cases hparse : parseAuthority text.toList with
      | none => exact hparse
      | some a => exact absurd (h text rfl) (trim_ne_of_authority hparse)
  have hsplit : ∀ e : Endpoint, splitHostPort e.text = some (advertisedHost header e,e.port) := by
    intro e
    rw [Endpoint.text,splitHostPort_host e.valid e.port_lt,advertisedHost,hnone]
    rfl
  rw [advertised_of_blank h]
  refine ⟨⟨_,hsplit https⟩,?_,fun _ => rfl⟩
  cases wireguard <;> simp [hsplit]

theorem wellAdvertised_of_authority {a : Authority} (h : parseAuthority text.toList = some a) :
    WellAdvertised https wireguard (some text)
        (advertisedEndpointsForRequest (configure ctx https wireguard) (some text)) ↔
      ∀ e, wireguard = some e → a.portU16 = none ∨ a.portU16 = some e.port := by
  have hrequested : requestedAuthority (some text) = some a := h
  have hsplit : ∀ e : Endpoint, splitHostPort (rewriteEndpointAuthority e.text text) =
      some (advertisedHost (some text) e,a.portU16.getD e.port) := by
    intro e
    have hport : a.portU16.getD e.port < 2^16 := by
      cases hcase : a.portU16 with
      | none => exact e.port_lt
      | some port => exact portU16_lt hcase
    rw [rewrite_valid e h,splitHostPort_host (parseAuthority_valid h) hport,advertisedHost,
      hrequested]
    rfl
  rw [advertised_of_text (trim_ne_of_authority h)]
  constructor
  · rintro hwell e rfl
    have heq := hwell.wireguard_split
    simp only [Option.map_some,hsplit,Option.some.injEq,Prod.mk.injEq,true_and] at heq
    cases hcase : a.portU16 with
    | none => exact .inl rfl
    | some port =>
      rw [hcase] at heq
      exact .inr (congrArg some heq)
  · intro hport
    refine ⟨⟨_,hsplit https⟩,?_,fun hnone => by rw [hrequested] at hnone; cases hnone⟩
    cases wireguard with
    | none => rfl
    | some e =>
      have hsame : a.portU16.getD e.port = e.port := by
        rcases hport e rfl with hnone | hsome
        · rw [hnone]; rfl
        · rw [hsome]; rfl
      simp only [Option.map_some,hsplit,hsame]

theorem trim_blank_after (s : String) {blank : Char} (h : isWhitespace blank = true) :
    trim (trim s++String.ofList [blank]) = trim s := by
  apply String.toList_inj.mp
  rw [toList_trim,String.toList_append,String.toList_ofList,toList_trim,strip_blank_after h]

end Advertising

def publicHttps : Endpoint := ⟨.name "vpn.example".toList,8443,by decide,by decide⟩

def publicWireguard : Endpoint := ⟨.name "vpn.example".toList,51820,by decide,by decide⟩

def publicContext : BootstrapContext :=
  configure ⟨none,"",some "key",none,3600⟩ publicHttps (some publicWireguard)

end Bonded.AdvertisedEndpoints
