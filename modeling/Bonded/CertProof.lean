import Bonded.ClientHandshake
import Bonded.PeerShare

/-! The client's trust in the server's certificate: the pin on a fingerprint, and the
cert-proof by which a fingerprint is learnt. rustls completes a handshake when the two
callbacks of its verifier do, so the callbacks are the whole of the check. -/
namespace Bonded.CertProof

open Auth Bootstrap ClientHandshake JsonText PeerShare

section Text

/-- A text at the first occurrence of a separator. -/
def splitOnce (sep : List Char) : List Char → Option (List Char × List Char)
  | [] => if sep = [] then some ([],[]) else none
  | c::cs =>
    if sep.isPrefixOf (c::cs) then some ([],(c::cs).drop sep.length)
    else (splitOnce sep cs).map fun p => (c::p.1,p.2)

def contains (sub text : List Char) : Bool := (splitOnce sub text).isSome

/-- The first line, without its end; there is none in an empty text. -/
def firstLine (text : List Char) : Option (List Char) :=
  match text, splitOnce ['\n'] text with
  | [], _ => none
  | text, none => some text
  | _, some (line,_) => some (if line.getLast? = some '\r' then line.dropLast else line)

/-- The blank line after the head of a response. -/
def headEnd : List Char := ['\r','\n','\r','\n']

def fromUtf8 (raw : List UInt8) : Option String := String.fromUTF8? ⟨raw.toArray⟩

theorem fromUtf8_utf8 (s : String) : fromUtf8 (utf8 s) = some s := by
  have hbytes : (⟨(utf8 s).toArray⟩ : ByteArray) = s.toUTF8 := by rw [utf8,toList_eq_data]
  rw [fromUtf8,hbytes]
  exact dif_pos s.isValidUTF8

end Text

section Tls

inductive TlsVersion
  | tls12
  | tls13
  deriving DecidableEq, Repr

/-- The server's part of a handshake: its leaf certificate, the transcript and the signature
over it. QUIC runs the handshake of TLS 1.3. -/
structure Flight where
  version : TlsVersion
  endEntity : List UInt8
  message : List UInt8
  dss : List UInt8
  deriving DecidableEq, Repr

/-- The cell in which a certificate is captured. -/
abbrev Captured := Option (List UInt8)

/-- The callbacks of a verifier. The signature callbacks get the transcript, the certificate and
the signature. -/
structure ServerCertVerifier where
  verifyServerCert : Captured → List UInt8 → Except String Unit × Captured
  verifyTls12Signature : List UInt8 → List UInt8 → List UInt8 → Except String Unit
  verifyTls13Signature : List UInt8 → List UInt8 → List UInt8 → Except String Unit

/-- A handshake as rustls runs it: the certificate first, then the signature of its version. -/
def handshake (v : ServerCertVerifier) (captured : Captured) (f : Flight) :
    Except String Unit × Captured :=
  match v.verifyServerCert captured f.endEntity with
  | (.error e,captured) => (.error e,captured)
  | (.ok (),captured) =>
    match f.version with
    | .tls12 => (v.verifyTls12Signature f.message f.endEntity f.dss,captured)
    | .tls13 => (v.verifyTls13Signature f.message f.endEntity f.dss,captured)

def computeFingerprint (libs : Libs) (der : List UInt8) : String :=
  "sha256:"++hex (libs.sha256 der)

/-- Any certificate is accepted and kept, with any signature. -/
def capturingVerifier : ServerCertVerifier where
  verifyServerCert _ endEntity := (.ok (),some endEntity)
  verifyTls12Signature _ _ _ := .ok ()
  verifyTls13Signature _ _ _ := .ok ()

/-- The certificate with the expected fingerprint is accepted, with any signature. -/
def pinnedCertVerifier (libs : Libs) (expected : String) : ServerCertVerifier where
  verifyServerCert captured endEntity :=
    let actual := computeFingerprint libs endEntity
    if actual = expected then (.ok (),captured)
    else (.error ("TLS certificate fingerprint mismatch: got "++actual++", expected "++expected),
      captured)
  verifyTls12Signature _ _ _ := .ok ()
  verifyTls13Signature _ _ _ := .ok ()

def makeInsecureCaptureTlsConfig : ServerCertVerifier := capturingVerifier

def makePinnedTlsConfig (libs : Libs) (expectedFingerprint : String) : ServerCertVerifier :=
  pinnedCertVerifier libs expectedFingerprint

theorem handshake_capture (captured : Captured) (f : Flight) :
    handshake makeInsecureCaptureTlsConfig captured f = (.ok (),some f.endEntity) := by
  cases hversion : f.version <;>
    simp [handshake,makeInsecureCaptureTlsConfig,capturingVerifier,hversion]

theorem handshake_pinned {libs : Libs} {expected : String} {captured : Captured} {f : Flight} :
    (handshake (makePinnedTlsConfig libs expected) captured f).1 = .ok () ↔
      computeFingerprint libs f.endEntity = expected := by
  simp only [handshake,makePinnedTlsConfig,pinnedCertVerifier]
  by_cases hpin : computeFingerprint libs f.endEntity = expected
  · cases f.version <;> simp [hpin]
  · simp [hpin]

end Tls

/-- An error of the cert-proof: a text, or a cause of the resolver, the socket, the TLS or the
JSON library. -/
inductive CertProofError
  | dial
  | tls (message : String)
  | stream
  | invalidJson
  | text (message : String)
  deriving DecidableEq, Repr

def authErrorText : AuthError → String
  | .invalidBase64 => "invalid base64 key material"
  | .invalidPublicKeyLength found =>
    "invalid ed25519 public key length: expected 32 bytes, got "++toString found
  | .invalidSignatureLength found =>
    "invalid ed25519 signature length: expected 64 bytes, got "++toString found
  | .signatureVerificationFailed => "challenge signature verification failed"

/-- One connection of the client as the network lets it go: whether it is made, what the other
side presents in the handshake, whether the request is written, and what is read to the end. -/
structure Connection where
  dialed : Bool
  flight : Option Flight
  written : Bool
  raw : Option (List UInt8)
  deriving DecidableEq, Repr

section Fetch

variable (libs : Libs)

/-- The two texts in the body of a cert-proof. -/
def proofFields (responseBody : String) : Except CertProofError (String × String) :=
  match libs.fromStr responseBody with
  | none => .error .invalidJson
  | some parsed =>
    match textAt parsed "cert_fingerprint" with
    | none => .error (.text "cert-proof response missing 'cert_fingerprint'")
    | some fingerprint =>
      match textAt parsed "ed25519_signature" with
      | none => .error (.text "cert-proof response missing 'ed25519_signature'")
      | some signature => .ok (fingerprint,signature)

def verifyCertProofResponse (presentedCertDer : List UInt8)
    (serverPublicKeyB64 responseBody : String) : Except CertProofError String :=
  match proofFields libs responseBody with
  | .error e => .error e
  | .ok (fingerprint,signature) =>
    match verifySignature libs.crypto serverPublicKeyB64 (utf8 fingerprint) signature with
    | .error e => .error (.text ("cert-proof signature verification failed: "++authErrorText e))
    | .ok () =>
      let computed := computeFingerprint libs presentedCertDer
      if computed ≠ fingerprint then .error (.text
        ("cert-proof fingerprint mismatch: server presented cert with fingerprint "++computed++
          " but cert-proof response claimed "++fingerprint++". This may indicate an active MITM."))
      else .ok fingerprint

/-- The body of a response: what stands between its first two blank lines. -/
def proofBody (raw : List UInt8) : Except CertProofError String :=
  match fromUtf8 raw with
  | none => .error (.text "non-UTF8 in cert-proof response")
  | some response =>
    match splitOnce headEnd response.toList with
    | none => .error (.text "no HTTP body in cert-proof response")
    | some (_,rest) =>
      let body := match splitOnce headEnd rest with
        | none => rest
        | some (body,_) => body
      let statusLine := (firstLine response.toList).getD []
      if contains ['2','0','0'] statusLine then .ok (String.ofList body)
      else .error (.text ("cert-proof endpoint returned non-200 status: "++
        String.ofList statusLine++" (body: "++String.ofList body++")"))

variable (validName : String → Bool)

/-- Fetch the fingerprint over a connection that takes any certificate, and check it. -/
def fetchAndVerifyCertProof (host serverPublicKeyB64 : String) (c : Connection) :
    Except CertProofError String :=
  if c.dialed = false then .error .dial
  else if validName host = false then .error (.text ("invalid TLS server name: "++host))
  else
    match c.flight with
    | none => .error .stream
    | some f =>
      match handshake makeInsecureCaptureTlsConfig none f with
      | (.error e,_) => .error (.tls e)
      | (.ok (),captured) =>
        match c.written, c.raw with
        | true, some raw =>
          match proofBody raw with
          | .error e => .error e
          | .ok body =>
            match captured with
            | none => .error (.text "no server certificate was captured during TLS handshake")
            | some captured =>
              verifyCertProofResponse libs captured serverPublicKeyB64 (trim body)
        | _, _ => .error .stream

variable {libs validName}

/-- A response of two parts and with status 200 has the second part as its body. -/
theorem proofBody_utf8 {response : String} {head body : List Char}
    (hhead : splitOnce headEnd response.toList = some (head,body))
    (hbody : splitOnce headEnd body = none)
    (hstatus : contains ['2','0','0'] ((firstLine response.toList).getD []) = true) :
    proofBody (utf8 response) = .ok (String.ofList body) := by
  simp only [proofBody,fromUtf8_utf8,hhead,hbody,hstatus,if_true]

/-- A verified response is a signed text that is the fingerprint of the certificate. -/
theorem verifyCertProofResponse_ok {presented : List UInt8} {serverPublicKey body fingerprint : String} :
    verifyCertProofResponse libs presented serverPublicKey body = .ok fingerprint ↔
      ∃ signature, proofFields libs body = .ok (fingerprint,signature) ∧
        verifySignature libs.crypto serverPublicKey (utf8 fingerprint) signature = .ok () ∧
        computeFingerprint libs presented = fingerprint := by
  unfold verifyCertProofResponse
  cases hfields : proofFields libs body with
  | error e => simp
  | ok fields =>
    obtain ⟨claimed,signature⟩ := fields
    simp only [Except.ok.injEq,Prod.mk.injEq]
    constructor
    · intro h
      split at h
      · cases h
      · next hverified =>
        split at h
        · cases h
        · next hcomputed =>
          cases h
          exact ⟨signature,⟨rfl,rfl⟩,hverified,not_not.mp hcomputed⟩
    · rintro ⟨_,⟨rfl,rfl⟩,hverified,hcomputed⟩
      simp [hverified,hcomputed]

/-- The fetch succeeds over a connection that runs to its end, with a verified response for the
certificate that was presented there. -/
theorem fetchAndVerifyCertProof_ok {host serverPublicKey fingerprint : String} {c : Connection} :
    fetchAndVerifyCertProof libs validName host serverPublicKey c = .ok fingerprint ↔
      c.dialed = true ∧ validName host = true ∧ c.written = true ∧
      ∃ f raw body, c.flight = some f ∧ c.raw = some raw ∧ proofBody raw = .ok body ∧
        verifyCertProofResponse libs f.endEntity serverPublicKey (trim body) = .ok fingerprint := by
  unfold fetchAndVerifyCertProof
  obtain ⟨dialed,flight,written,raw⟩ := c
  cases dialed with
  | false => simp
  | true =>
    cases hname : validName host with
    | false => simp
    | true =>
      cases flight with
      | none => simp
      | some f =>
        cases written with
        | false => simp [handshake_capture]
        | true =>
          cases raw with
          | none => simp [handshake_capture]
          | some raw =>
            cases hbody : proofBody raw with
            | error e => simp [handshake_capture,hbody]
            | ok body => simp [handshake_capture,hbody]

end Fetch

section Attack

/-- What the server's identity key signs: the fingerprints of its certificates, and
introductions of peers. -/
def ServerSigns (libs : Libs) (certificates : List (List UInt8)) (message : List UInt8) : Prop :=
  (∃ der ∈ certificates, message = utf8 (computeFingerprint libs der)) ∨
    ∃ claims, message = signingPayload claims

/-- An attacker in the network, with the connections that it may terminate. It has seen the
server's certificates and all that the server has signed, and it chooses every byte, except
that it has no handshake signatures under the certificates' keys (`valid` is the signature
check of the certificate), no second certificate with the same fingerprint and no signature of
the server over anything else. -/
structure Attacker (libs : Libs) (valid : List UInt8 → List UInt8 → List UInt8 → Bool)
    (serverPublicKey : String) (certificates : List (List UInt8)) where
  terminates : Connection → Prop
  noKey : ∀ c f, terminates c → c.flight = some f → f.endEntity ∈ certificates →
    valid f.endEntity f.message f.dss = false
  noCollision : ∀ c f, terminates c → c.flight = some f → ∀ der ∈ certificates,
    computeFingerprint libs f.endEntity = computeFingerprint libs der → f.endEntity = der
  noForgery : ∀ c raw body fingerprint signature, terminates c → c.raw = some raw →
    proofBody raw = .ok body → proofFields libs (trim body) = .ok (fingerprint,signature) →
    verifySignature libs.crypto serverPublicKey (utf8 fingerprint) signature = .ok () →
    ServerSigns libs certificates (utf8 fingerprint)

variable {libs : Libs} {valid : List UInt8 → List UInt8 → List UInt8 → Bool}
  {serverPublicKey : String} {certificates : List (List UInt8)}

theorem computeFingerprint_head (der : List UInt8) :
    (computeFingerprint libs der).toList.head? = some 's' := by
  simp [computeFingerprint]

/-- A fetch over a connection of the attacker succeeds only with a certificate of the server. -/
theorem Attacker.fetch_presents (a : Attacker libs valid serverPublicKey certificates)
    {validName : String → Bool} {host fingerprint : String} {c : Connection} (hc : a.terminates c)
    (h : fetchAndVerifyCertProof libs validName host serverPublicKey c = .ok fingerprint) :
    ∃ f, c.flight = some f ∧ f.endEntity ∈ certificates := by
  obtain ⟨-,-,-,f,raw,body,hflight,hraw,hbody,hproof⟩ := fetchAndVerifyCertProof_ok.mp h
  obtain ⟨signature,hfields,hverified,hcomputed⟩ := verifyCertProofResponse_ok.mp hproof
  refine ⟨f,hflight,?_⟩
  rcases a.noForgery c raw body fingerprint signature hc hraw hbody hfields hverified with
    ⟨der,hder,hsigned⟩ | ⟨claims,hsigned⟩
  · have hsame : f.endEntity = der :=
      a.noCollision c f hc hflight der hder (hcomputed.trans (utf8_injective hsigned))
    exact hsame ▸ hder
  · -- an introduction begins with a brace, a fingerprint does not
    refine absurd hsigned.symm (toVec_ne_utf8 ?_)
    rw [← hcomputed,computeFingerprint_head]
    simp

end Attack

/-- No handshake with a pin on a certificate of the server completes with the attacker, and no
fetch of a fingerprint succeeds with it, exactly if it presents none of the certificates of the
server: what keeps it out is the certificate alone and not the key, which no callback asks for. -/
theorem pinning_excludes_attacker_iff (libs : Libs)
    (valid : List UInt8 → List UInt8 → List UInt8 → Bool) (serverPublicKey : String)
    (certificates : List (List UInt8)) (a : Attacker libs valid serverPublicKey certificates)
    (validName : String → Bool) (host : String) :
    (∀ c, a.terminates c →
      (∀ der ∈ certificates, ∀ captured f, c.flight = some f →
        (handshake (makePinnedTlsConfig libs (computeFingerprint libs der)) captured f).1 ≠ .ok ()) ∧
      ∀ fingerprint,
        fetchAndVerifyCertProof libs validName host serverPublicKey c ≠ .ok fingerprint) ↔
    ∀ c f, a.terminates c → c.flight = some f → f.endEntity ∉ certificates := by
  constructor
  · intro h c f hc hflight hmem
    exact (h c hc).1 f.endEntity hmem none f hflight (handshake_pinned.mpr rfl)
  · intro h c hc
    constructor
    · intro der hder captured f hflight hok
      have hsame := a.noCollision c f hc hflight der hder (handshake_pinned.mp hok)
      exact h c f hc hflight (hsame ▸ hder)
    · intro fingerprint hok
      obtain ⟨f,hflight,hmem⟩ := a.fetch_presents hc hok
      exact h c f hc hflight hmem

section Replay

def identityKey : List UInt8 := List.replicate 32 115

def certificate : List UInt8 := [48,130]

/-- The server's own libraries; it reads no JSON here. -/
def serverLibs : Libs where
  crypto := demoSigning.toCrypto
  fromStr _ := none
  introductionFromStr _ := none
  signedPayload _ := none
  signingPayload _ := none
  introductionToJson _ _ := none
  sha256 bytes := bytes
  signBytes message := some (demoSigning.encodeStandard (demoSigning.sign identityKey message))

/-- The server's answer to a request for its cert-proof. -/
def genuineProof : Reply := certProofResponse serverLibs ⟨some certificate,"",none,none,0⟩

/-- The bytes of the certificate's fingerprint. -/
def fingerprintBytes : List UInt8 := [115,104,97,50,53,54,58,51,48,56,50]

theorem utf8_fingerprint : utf8 "sha256:3082" = fingerprintBytes := by
  rw [utf8,toList_eq_data]
  rfl

def genuineChars : List Char := object [
  ("cert_fingerprint",.text "sha256:3082"),
  ("ed25519_signature",.text
    (demoSigning.encodeStandard (demoSigning.sign identityKey fingerprintBytes)))]

def genuineText : String := String.ofList genuineChars

theorem toList_genuineText : genuineText.toList = genuineChars := String.toList_ofList

def clientLibs : Libs :=
  {serverLibs with fromStr := fun text => if text = genuineText then some genuineProof.2 else none}

/-- The certificate and the proof are sent again, with a signature of no bytes. -/
def replayed : Connection :=
  ⟨true,some ⟨.tls13,certificate,[1,2,3],[]⟩,true,
    some (utf8 ("HTTP/1.1 200 OK\r\n\r\n"++genuineText))⟩

theorem proofBody_replayed :
    proofBody (utf8 ("HTTP/1.1 200 OK\r\n\r\n"++genuineText)) = .ok genuineText := by
  have hchars : ("HTTP/1.1 200 OK\r\n\r\n"++genuineText).toList =
      "HTTP/1.1 200 OK\r\n\r\n".toList++genuineChars := by
    rw [String.toList_append,toList_genuineText]
  have hrest : splitOnce headEnd genuineChars = none := by decide +kernel
  have hhead : splitOnce headEnd ("HTTP/1.1 200 OK\r\n\r\n"++genuineText).toList =
      some ("HTTP/1.1 200 OK".toList,genuineChars) := by
    rw [hchars]
    rfl
  apply proofBody_utf8 hhead hrest
  rw [hchars]
  rfl

theorem trim_genuineText : trim genuineText = genuineText := by
  have hlast : genuineChars.getLast? = some '\x7d' := rfl
  apply trim_self
  · intro c hc
    rw [toList_genuineText] at hc
    cases hc
    rfl
  · intro c hc
    rw [toList_genuineText,hlast] at hc
    cases hc
    rfl

theorem proofFields_genuine : proofFields clientLibs (trim genuineText) =
    .ok ("sha256:3082",
      demoSigning.encodeStandard (demoSigning.sign identityKey fingerprintBytes)) := by
  have hread : clientLibs.fromStr genuineText = some genuineProof.2 := by
    simp only [clientLibs,if_true]
  rw [trim_genuineText,proofFields,hread,← utf8_fingerprint]
  rfl

def serverPublicKey : String := (fromSigningKey demoSigning identityKey).publicKeyB64

/-- The attacker that only replays. -/
def replayer : Attacker clientLibs (fun der message dss => dss = demoSign der message)
    serverPublicKey [certificate] where
  terminates c := c = replayed
  noKey := by
    rintro c f rfl hflight -
    cases hflight
    decide
  noCollision := by
    rintro c f rfl hflight der hder -
    cases hflight
    exact (List.mem_singleton.mp hder).symm
  noForgery := by
    rintro c raw body fingerprint signature rfl hraw hbody hfields -
    cases hraw
    rw [proofBody_replayed,Except.ok.injEq] at hbody
    rw [← hbody,proofFields_genuine,Except.ok.injEq,Prod.mk.injEq] at hfields
    refine .inl ⟨certificate,List.mem_singleton_self _,?_⟩
    rw [← hfields.1]
    rfl

/-- It completes a handshake with the pin on the server's certificate, and the fetch takes its
answer. -/
theorem replayed_certificate_is_accepted :
    replayer.terminates replayed ∧
    (handshake (makePinnedTlsConfig clientLibs (computeFingerprint clientLibs certificate)) none
      ⟨.tls13,certificate,[1,2,3],[]⟩).1 = .ok () ∧
    fetchAndVerifyCertProof clientLibs (fun _ => true) "server" serverPublicKey replayed =
      .ok (computeFingerprint clientLibs certificate) := by
  have hverified : verifySignature clientLibs.crypto serverPublicKey (utf8 "sha256:3082")
      (demoSigning.encodeStandard (demoSigning.sign identityKey fingerprintBytes)) = .ok () := by
    rw [utf8_fingerprint]
    exact verifySignature_sign demoSigning_lawful (by decide) _
  have hproof : verifyCertProofResponse clientLibs certificate serverPublicKey (trim genuineText) =
      .ok (computeFingerprint clientLibs certificate) :=
    verifyCertProofResponse_ok.mpr ⟨_,proofFields_genuine,hverified,rfl⟩
  refine ⟨rfl,handshake_pinned.mpr rfl,?_⟩
  exact fetchAndVerifyCertProof_ok.mpr
    ⟨rfl,rfl,rfl,_,_,genuineText,rfl,rfl,proofBody_replayed,hproof⟩

end Replay

end Bonded.CertProof
