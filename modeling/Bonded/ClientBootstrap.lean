import Bonded.CertProof

/-! The client's bootstrap of a WireGuard peer: the schemes that it tries in order, the three
ways of making a request, and the connector of its WebSocket. Every answer of the network is
an argument, so that a statement for all of them is one against any attacker. -/
namespace Bonded.ClientBootstrap

open Bootstrap CertProof ClientHandshake JsonText

inductive BootstrapScheme
  | http
  | https
  | h3
  deriving DecidableEq, Repr

/-- The part of the client's configuration that is read here. -/
structure ClientConfig where
  serverPublicAddress : String
  serverWebsocketAddress : String
  serverPublicKey : String
  tlsCertFingerprint : String
  wireguardServerPublicKey : String
  deriving DecidableEq, Repr

/-- The websocket address asks for a connection without TLS. -/
def ClientConfig.isPlain (config : ClientConfig) : Bool :=
  "ws://".toList.isPrefixOf ((trim config.serverWebsocketAddress).toList.map Char.toLower)

/-- An address with `wss://` and one without a scheme have the same candidates. -/
def bootstrapSchemeCandidates (config : ClientConfig) : List BootstrapScheme :=
  if config.isPlain then [.http,.https] else [.h3,.https,.http]

section Address

/-- A port as it is read: digits, perhaps after a plus sign. -/
def parsePort (text : List Char) : Option ℕ :=
  let digits := match text with
    | '+'::rest => rest
    | text => text
  if digits = [] ∨ digits.any fun d => d.isDigit = false then none
  else
    let port := Nat.ofDigitChars 10 digits 0
    if port < 2^16 then some port else none

/-- The host and the port of an address; the host may stand in brackets. -/
def splitHostPort (address : String) : Option (String × ℕ) :=
  match address.toList with
  | '['::stripped =>
    match splitOnce [']'] stripped with
    | some (host,':'::port) => (parsePort port).map fun port => (String.ofList host,port)
    | _ => none
  | text =>
    match splitOnce [':'] text.reverse with
    | none => none
    | some (port,host) => (parsePort port.reverse).map fun port => (String.ofList host.reverse,port)

end Address

/-- An error of a request: a text, or a cause of one of its libraries. -/
inductive RequestError
  | address
  | dial
  | tls (message : String)
  | proof (error : CertProofError)
  | stream
  | status (code : ℕ) (body : String)
  | text (message : String)
  deriving DecidableEq, Repr

/-- The answer of an HTTP/3 stream: its status and its body. -/
abbrev H3Reply := Option (ℕ × List UInt8)

/-- One QUIC connection for HTTP/3, with its answers to the cert-proof and to the request. -/
structure H3Connection where
  dialed : Bool
  flight : Option Flight
  opened : Bool
  proofReply : H3Reply
  reply : H3Reply
  deriving DecidableEq, Repr

/-- What the network does to the connections that one request may make. -/
structure Answers where
  h3 : H3Connection
  h3Retry : H3Connection
  proof : Connection
  stream : Connection
  refresh : Connection
  streamRetry : Connection
  deriving DecidableEq, Repr

/-- Where a body came from: no TLS, or TLS with this certificate. The code keeps the body only. -/
inductive Channel
  | plain
  | tls (certificate : List UInt8)
  deriving DecidableEq, Repr

structure Received where
  channel : Channel
  body : String
  deriving DecidableEq, Repr

section Requests

variable (libs : Libs) (validName : String → Bool) (config : ClientConfig)

/-- The certificate of a completed handshake. -/
def connectTls (v : ServerCertVerifier) : Option Flight → Except RequestError (List UInt8)
  | none => .error .stream
  | some f =>
    match (handshake v none f).1 with
    | .error e => .error (.tls e)
    | .ok () => .ok f.endEntity

def connectQuicClient (v : ServerCertVerifier) (c : H3Connection) :
    Except RequestError (List UInt8) :=
  if c.dialed then connectTls v c.flight else .error .dial

def connectBootstrapTcp (c : Connection) : Except RequestError Unit :=
  if c.dialed then .ok () else .error .dial

def shouldRetryTlsRotation : Bool :=
  config.tlsCertFingerprint ≠ "" ∧ config.serverPublicKey ≠ ""

def refreshTlsFingerprintAfterRotation (host : String) (c : Connection) :
    Except CertProofError (Option String) :=
  if shouldRetryTlsRotation config = false then .ok none
  else (fetchAndVerifyCertProof libs validName host config.serverPublicKey c).map some

/-- Connect once more with a fresh fingerprint if the first connection fails. -/
def retryAfterRotation {α : Type} (host missing : String) (refresh : Connection)
    (first : Except RequestError α) (retry : String → Except RequestError α) :
    Except RequestError α :=
  match first with
  | .ok x => .ok x
  | .error e =>
    if shouldRetryTlsRotation config then
      match refreshTlsFingerprintAfterRotation libs validName config host refresh with
      | .error e => .error (.proof e)
      | .ok none => .error (.text missing)
      | .ok (some refreshed) => retry refreshed
    else .error e

def sendH3JsonRequest (reply : H3Reply) : Except RequestError String :=
  match reply with
  | none => .error .stream
  | some (status,raw) =>
    match fromUtf8 raw with
    | none => .error (.text "HTTP/3 bootstrap response contained non-UTF8 bytes")
    | some body =>
      if status ≠ 200 then .error (.status status body)
      else .ok (trim body)

/-- The body of a response with status 200. -/
def extractHttpJsonBody (raw : List UInt8) : Except RequestError String :=
  match fromUtf8 raw with
  | none => .error (.text "bootstrap response contained non-UTF8 bytes")
  | some response =>
    match splitOnce headEnd response.toList with
    | none => .error (.text "bootstrap response missing header terminator")
    | some (headers,body) =>
      match firstLine headers with
      | none => .error (.text "bootstrap response missing status line")
      | some statusLine =>
        if contains " 200 ".toList statusLine then .ok (trim (String.ofList body))
        else .error (.text ("bootstrap request failed: "++String.ofList statusLine++"; body="++
          String.ofList body))

/-- The request on an open stream and its answer. -/
def exchange (c : Connection) : Except RequestError String :=
  match c.written, c.raw with
  | true, some raw => extractHttpJsonBody raw
  | _, _ => .error .stream

/-- The request on an open QUIC connection; without a pin the connection has to bring the proof
for its own certificate first. -/
def exchangeH3 (requireCertProof : Bool) (c : H3Connection) (certificate : List UInt8) :
    Except RequestError Received :=
  if c.opened = false then .error .stream
  else if requireCertProof then
    match sendH3JsonRequest c.proofReply with
    | .error e => .error e
    | .ok proof =>
      match verifyCertProofResponse libs certificate config.serverPublicKey proof with
      | .error e => .error (.proof e)
      | .ok _ => (sendH3JsonRequest c.reply).map fun body => ⟨.tls certificate,body⟩
  else (sendH3JsonRequest c.reply).map fun body => ⟨.tls certificate,body⟩

def requestBootstrapJsonH3 (host : String) (a : Answers) : Except RequestError Received :=
  let run := fun (v : ServerCertVerifier) (requireCertProof : Bool) =>
    match retryAfterRotation libs validName config host
      "missing refreshed fingerprint for rotated HTTP/3 cert" a.refresh
      ((connectQuicClient v a.h3).map fun certificate => (a.h3,certificate))
      (fun refreshed => (connectQuicClient (makePinnedTlsConfig libs refreshed) a.h3Retry).map
        fun certificate => (a.h3Retry,certificate)) with
    | .error e => .error e
    | .ok (c,certificate) => exchangeH3 libs config requireCertProof c certificate
  if config.tlsCertFingerprint ≠ "" then
    run (makePinnedTlsConfig libs config.tlsCertFingerprint) false
  else if config.serverPublicKey ≠ "" then run makeInsecureCaptureTlsConfig true
  else .error (.text "HTTP/3 bootstrap requires tls_cert_fingerprint or server_public_key")

def requestBootstrapJsonHttp (a : Answers) : Except RequestError Received :=
  match connectBootstrapTcp a.stream with
  | .error e => .error e
  | .ok () => (exchange a.stream).map fun body => ⟨.plain,body⟩

/-- The fingerprint that an HTTPS request is made with. -/
def httpsFingerprint (host : String) (a : Answers) : Except RequestError String :=
  if config.tlsCertFingerprint ≠ "" then .ok config.tlsCertFingerprint
  else if config.serverPublicKey ≠ "" then
    (fetchAndVerifyCertProof libs validName host config.serverPublicKey a.proof).mapError .proof
  else .error (.text
    "HTTPS WireGuard bootstrap requires tls_cert_fingerprint or server_public_key")

/-- The second connection of an HTTPS request. -/
def reconnectHttps (refreshed : String) (c : Connection) : Except RequestError (List UInt8) :=
  match connectBootstrapTcp c with
  | .error e => .error e
  | .ok () => connectTls (makePinnedTlsConfig libs refreshed) c.flight

def requestBootstrapJsonHttps (host : String) (a : Answers) : Except RequestError Received :=
  match httpsFingerprint libs validName config host a with
  | .error e => .error e
  | .ok fingerprint =>
    match connectBootstrapTcp a.stream with
    | .error e => .error e
    | .ok () =>
      if validName host = false then .error (.text ("invalid TLS server name: "++host))
      else
        match retryAfterRotation libs validName config host
          "missing refreshed fingerprint for rotated HTTPS cert" a.refresh
          ((connectTls (makePinnedTlsConfig libs fingerprint) a.stream.flight).map
            fun certificate => (a.stream,certificate))
          (fun refreshed => (reconnectHttps libs refreshed a.streamRetry).map
            fun certificate => (a.streamRetry,certificate)) with
        | .error e => .error e
        | .ok (c,certificate) => (exchange c).map fun body => ⟨.tls certificate,body⟩

def requestBootstrapJson (scheme : BootstrapScheme) (address : String) (a : Answers) :
    Except RequestError Received :=
  match splitHostPort address with
  | none => .error .address
  | some (host,_) =>
    match scheme with
    | .h3 => requestBootstrapJsonH3 libs validName config host a
    | .http => requestBootstrapJsonHttp a
    | .https => requestBootstrapJsonHttps libs validName config host a

/-- A certificate that matches the stored pin, or whose fingerprint the paired server has
proved. -/
def Trusted (certificate : List UInt8) : Prop :=
  (config.tlsCertFingerprint ≠ "" ∧
    computeFingerprint libs certificate = config.tlsCertFingerprint) ∨
  (config.serverPublicKey ≠ "" ∧ ∃ presented body,
    verifyCertProofResponse libs presented config.serverPublicKey body =
      .ok (computeFingerprint libs certificate))

def Authenticated : Channel → Prop
  | .plain => False
  | .tls certificate => Trusted libs config certificate

variable {libs validName config}

variable {certificate : List UInt8} {fingerprint host : String} {a : Answers} {r : Received}

theorem connectTls_pinned {flight : Option Flight}
    (h : connectTls (makePinnedTlsConfig libs fingerprint) flight = .ok certificate) :
    computeFingerprint libs certificate = fingerprint := by
  cases flight with
  | none => cases h
  | some f =>
    simp only [connectTls] at h
    split at h
    · cases h
    · next hok =>
      cases h
      exact handshake_pinned.mp hok

theorem connectQuicClient_pinned {c : H3Connection}
    (h : connectQuicClient (makePinnedTlsConfig libs fingerprint) c = .ok certificate) :
    computeFingerprint libs certificate = fingerprint := by
  unfold connectQuicClient at h
  split at h
  · exact connectTls_pinned h
  · cases h

/-- A fetched fingerprint is one that the paired server has proved. -/
theorem trusted_of_fetch {c : Connection} (hkey : config.serverPublicKey ≠ "")
    (h : fetchAndVerifyCertProof libs validName host config.serverPublicKey c = .ok fingerprint)
    (hcert : computeFingerprint libs certificate = fingerprint) :
    Trusted libs config certificate := by
  obtain ⟨-,-,-,f,raw,body,-,-,-,hproof⟩ := fetchAndVerifyCertProof_ok.mp h
  exact .inr ⟨hkey,f.endEntity,trim body,hcert ▸ hproof⟩

/-- The connection that is used is the first one, or one made with a fetched fingerprint. -/
theorem retryAfterRotation_ok {α : Type} {missing : String} {refresh : Connection}
    {first : Except RequestError α} {retry : String → Except RequestError α} {x : α}
    (h : retryAfterRotation libs validName config host missing refresh first retry = .ok x) :
    first = .ok x ∨ config.serverPublicKey ≠ "" ∧ ∃ refreshed,
      fetchAndVerifyCertProof libs validName host config.serverPublicKey refresh = .ok refreshed ∧
      retry refreshed = .ok x := by
  unfold retryAfterRotation at h
  split at h
  · cases h
    exact .inl rfl
  · split at h
    · next hretry =>
      have hkey : config.serverPublicKey ≠ "" := (of_decide_eq_true hretry).2
      rw [refreshTlsFingerprintAfterRotation,if_neg (by simp [hretry])] at h
      cases hfetch : fetchAndVerifyCertProof libs validName host config.serverPublicKey refresh with
      | error e => simp [hfetch,Except.map] at h
      | ok refreshed => exact .inr ⟨hkey,refreshed,rfl,by simpa [hfetch,Except.map] using h⟩
    · cases h

theorem map_ok {ε α β : Type} {f : α → β} {r : Except ε α} {b : β} :
    r.map f = .ok b ↔ ∃ a, r = .ok a ∧ f a = b := by
  cases r <;> simp [Except.map]

theorem requestBootstrapJsonHttp_channel (h : requestBootstrapJsonHttp a = .ok r) :
    r.channel = .plain := by
  unfold requestBootstrapJsonHttp at h
  split at h
  · cases h
  · obtain ⟨body,-,rfl⟩ := map_ok.mp h
    rfl

/-- Whoever answers over plain TCP with status 200 is heard. -/
theorem requestBootstrapJsonHttp_ok {response : String} {headers body line : List Char}
    (hdialed : a.stream.dialed = true) (hwritten : a.stream.written = true)
    (hraw : a.stream.raw = some (utf8 response))
    (hsplit : splitOnce headEnd response.toList = some (headers,body))
    (hline : firstLine headers = some line) (hstatus : contains " 200 ".toList line = true) :
    requestBootstrapJsonHttp a = .ok ⟨.plain,trim (String.ofList body)⟩ := by
  simp only [requestBootstrapJsonHttp,connectBootstrapTcp,exchange,hdialed,hwritten,hraw,
    extractHttpJsonBody,fromUtf8_utf8,hsplit,hline,hstatus,if_true,Except.map]

theorem httpsFingerprint_trusted
    (h : httpsFingerprint libs validName config host a = .ok fingerprint)
    (hcert : computeFingerprint libs certificate = fingerprint) :
    Trusted libs config certificate := by
  unfold httpsFingerprint at h
  split at h
  · next hpin =>
    cases h
    exact .inl ⟨hpin,hcert⟩
  · split at h
    · next hkey =>
      cases hfetch : fetchAndVerifyCertProof libs validName host config.serverPublicKey a.proof with
      | error e => simp [hfetch,Except.mapError] at h
      | ok proved =>
        simp only [hfetch,Except.mapError,Except.ok.injEq] at h
        exact trusted_of_fetch hkey hfetch (hcert.trans h.symm)
    · cases h

theorem reconnectHttps_pinned {refreshed : String} {c : Connection}
    (h : reconnectHttps libs refreshed c = .ok certificate) :
    computeFingerprint libs certificate = refreshed := by
  unfold reconnectHttps at h
  split at h
  · cases h
  · exact connectTls_pinned h

theorem requestBootstrapJsonHttps_channel
    (h : requestBootstrapJsonHttps libs validName config host a = .ok r) :
    Authenticated libs config r.channel := by
  unfold requestBootstrapJsonHttps at h
  split at h
  · cases h
  · next fingerprint hfingerprint =>
    split at h
    · cases h
    · split at h
      · cases h
      · split at h
        · cases h
        · next c certificate hconnected =>
          obtain ⟨body,-,rfl⟩ := map_ok.mp h
          rcases retryAfterRotation_ok hconnected with hfirst | ⟨hkey,refreshed,hfetch,hretry⟩
          · obtain ⟨_,hconnect,heq⟩ := map_ok.mp hfirst
            cases heq
            exact httpsFingerprint_trusted hfingerprint (connectTls_pinned hconnect)
          · obtain ⟨_,hconnect,heq⟩ := map_ok.mp hretry
            cases heq
            exact trusted_of_fetch hkey hfetch (reconnectHttps_pinned hconnect)

/-- An exchange over HTTP/3 names the certificate of its connection; without a pin it has
verified the proof for it. -/
theorem exchangeH3_ok {requireCertProof : Bool} {c : H3Connection}
    (h : exchangeH3 libs config requireCertProof c certificate = .ok r) :
    r.channel = .tls certificate ∧ (requireCertProof = true → ∃ proof fingerprint,
      verifyCertProofResponse libs certificate config.serverPublicKey proof = .ok fingerprint) := by
  unfold exchangeH3 at h
  split at h
  · cases h
  · split at h
    · split at h
      · cases h
      · next proof hproof =>
        split at h
        · cases h
        · next fingerprint hverified =>
          obtain ⟨body,-,rfl⟩ := map_ok.mp h
          exact ⟨rfl,fun _ => ⟨proof,fingerprint,hverified⟩⟩
    · next hnot =>
      obtain ⟨body,-,rfl⟩ := map_ok.mp h
      exact ⟨rfl,fun hrequire => absurd hrequire hnot⟩

theorem requestBootstrapJsonH3_channel
    (h : requestBootstrapJsonH3 libs validName config host a = .ok r) :
    Authenticated libs config r.channel := by
  -- a connection after a rotation is trusted in the same way with and without a pin
  have hrotated : ∀ {c : H3Connection} {certificate : List UInt8}, config.serverPublicKey ≠ "" →
      (∃ refreshed, fetchAndVerifyCertProof libs validName host config.serverPublicKey a.refresh =
        .ok refreshed ∧ (connectQuicClient (makePinnedTlsConfig libs refreshed) a.h3Retry).map
          (fun certificate => (a.h3Retry,certificate)) = .ok (c,certificate)) →
      Trusted libs config certificate := by
    rintro c certificate hkey ⟨refreshed,hfetch,hretry⟩
    obtain ⟨_,hconnect,heq⟩ := map_ok.mp hretry
    cases heq
    exact trusted_of_fetch hkey hfetch (connectQuicClient_pinned hconnect)
  unfold requestBootstrapJsonH3 at h
  simp only at h
  split at h
  · next hpin =>
    split at h
    · cases h
    · next c certificate hconnected =>
      rw [(exchangeH3_ok h).1]
      rcases retryAfterRotation_ok hconnected with hfirst | ⟨hkey,hretry⟩
      · obtain ⟨_,hconnect,heq⟩ := map_ok.mp hfirst
        cases heq
        exact .inl ⟨hpin,connectQuicClient_pinned hconnect⟩
      · exact hrotated hkey hretry
  · split at h
    · next hkey =>
      split at h
      · cases h
      · next c certificate hconnected =>
        obtain ⟨hchannel,hproved⟩ := exchangeH3_ok h
        obtain ⟨proof,fingerprint,hverified⟩ := hproved rfl
        rw [hchannel]
        refine .inr ⟨hkey,certificate,proof,?_⟩
        obtain ⟨-,-,-,hcomputed⟩ := verifyCertProofResponse_ok.mp hverified
        rw [hcomputed]
        exact hverified
    · cases h

/-- Every answer but one of plain HTTP came over an authenticated channel. -/
theorem requestBootstrapJson_channel {scheme : BootstrapScheme} {address : String}
    (h : requestBootstrapJson libs validName config scheme address a = .ok r) :
    if scheme = .http then r.channel = .plain else Authenticated libs config r.channel := by
  unfold requestBootstrapJson at h
  split at h
  · cases h
  · cases scheme with
    | http => exact requestBootstrapJsonHttp_channel h
    | https => exact requestBootstrapJsonHttps_channel h
    | h3 => exact requestBootstrapJsonH3_channel h

end Requests

structure WireGuardCapability where
  endpoint : String
  serverPublicKey : String
  peerLeaseSeconds : ℕ
  deriving DecidableEq, Repr

structure WireGuardProvisionResponse where
  serverWgPublicKey : String
  peerIp : String
  leaseExpiresAt : ℕ
  deriving DecidableEq, Repr

structure WireGuardBootstrapInfo where
  endpoint : String
  serverPublicKey : String
  peerLeaseSeconds : ℕ
  leaseExpiresAt : ℕ
  deriving DecidableEq, Repr

section Parse

def textOrEmpty (v : Json) (key : String) : Option String :=
  match v.get key with
  | none => some ""
  | some field => field.asStr

/-- An unsigned number of 64 bits that is zero by default. -/
def numberOrZero (v : Json) (key : String) : Option ℕ :=
  match v.get key with
  | none => some 0
  | some (.num text) => text.toNat?.filter (· < 2^64)
  | _ => none

def capabilityFromJson (v : Json) : Option WireGuardCapability :=
  match textAt v "endpoint", textOrEmpty v "server_public_key", numberOrZero v "peer_lease_seconds" with
  | some endpoint, some serverPublicKey, some peerLeaseSeconds =>
    some ⟨endpoint,serverPublicKey,peerLeaseSeconds⟩
  | _, _, _ => none

/-- The capabilities; a server without WireGuard leaves it out. -/
def capabilitiesFromJson : Json → Option (Option WireGuardCapability)
  | .obj fields =>
    match (Json.obj fields).get "wireguard" with
    | none | some .null => some none
    | some v => (capabilityFromJson v).map some
  | _ => none

def provisionFromJson : Json → Option WireGuardProvisionResponse
  | .obj fields =>
    match textOrEmpty (.obj fields) "server_wg_public_key", textOrEmpty (.obj fields) "peer_ip",
        numberOrZero (.obj fields) "lease_expires_at" with
    | some serverWgPublicKey, some peerIp, some leaseExpiresAt =>
      some ⟨serverWgPublicKey,peerIp,leaseExpiresAt⟩
    | _, _, _ => none
  | _ => none

end Parse

inductive Purpose
  | capabilities
  | provision
  deriving DecidableEq, Repr

abbrev Network := BootstrapScheme → Purpose → Answers

inductive SkipReason
  | capabilities (error : RequestError)
  | noWireguard
  | provision (error : RequestError)
  | noKey
  deriving DecidableEq, Repr

inductive BootstrapError
  | noAddress
  | invalidCapabilities
  | invalidProvision
  | exhausted (address : String) (errors : List (BootstrapScheme × SkipReason))
  deriving DecidableEq, Repr

inductive Attempt
  | stop (error : BootstrapError)
  | skip (reason : SkipReason)
  | done (info : WireGuardBootstrapInfo)
  deriving DecidableEq, Repr

section Bootstrap

variable (libs : Libs) (validName : String → Bool) (config : ClientConfig) (net : Network)

/-- The key of the provision, else that of the capabilities, else the configured one. -/
def wireguardKey (provision : WireGuardProvisionResponse) (wireguard : WireGuardCapability) :
    String :=
  if provision.serverWgPublicKey ≠ "" then provision.serverWgPublicKey
  else if wireguard.serverPublicKey ≠ "" then wireguard.serverPublicKey
  else config.wireguardServerPublicKey

def request (scheme : BootstrapScheme) (purpose : Purpose) : Except RequestError Received :=
  requestBootstrapJson libs validName config scheme (trim config.serverPublicAddress)
    (net scheme purpose)

def attempt (scheme : BootstrapScheme) : Attempt :=
  match request libs validName config net scheme .capabilities with
  | .error e => .skip (.capabilities e)
  | .ok capabilities =>
    match (libs.fromStr capabilities.body).bind capabilitiesFromJson with
    | none => .stop .invalidCapabilities
    | some none => .skip .noWireguard
    | some (some wireguard) =>
      match request libs validName config net scheme .provision with
      | .error e => .skip (.provision e)
      | .ok provision =>
        match (libs.fromStr provision.body).bind provisionFromJson with
        | none => .stop .invalidProvision
        | some provision =>
          let serverPublicKey := wireguardKey config provision wireguard
          if serverPublicKey = "" then .skip .noKey
          else .done ⟨wireguard.endpoint,serverPublicKey,wireguard.peerLeaseSeconds,
            provision.leaseExpiresAt⟩

/-- The loop over the schemes, with the errors so far. -/
def attempts (errors : List (BootstrapScheme × SkipReason)) :
    List BootstrapScheme → Except BootstrapError WireGuardBootstrapInfo
  | [] => .error (.exhausted (trim config.serverPublicAddress) errors)
  | scheme::schemes =>
    match attempt libs validName config net scheme with
    | .stop e => .error e
    | .skip reason => attempts (errors++[(scheme,reason)]) schemes
    | .done info => .ok info

def bootstrapWireguardPeer : Except BootstrapError WireGuardBootstrapInfo :=
  if trim config.serverPublicAddress = "" then .error .noAddress
  else attempts libs validName config net [] (bootstrapSchemeCandidates config)

def eqIgnoreAsciiCase (a b : String) : Bool :=
  a.toList.map Char.toLower = b.toList.map Char.toLower

/-- The verifier for a WebSocket; without one the library checks against the system's roots. -/
def resolveWssTlsConnector (scheme host : String) (c : Connection) : Option ServerCertVerifier :=
  if eqIgnoreAsciiCase scheme "wss" = false then none
  else if config.tlsCertFingerprint ≠ "" then
    some (makePinnedTlsConfig libs config.tlsCertFingerprint)
  else if config.serverPublicKey ≠ "" then
    match fetchAndVerifyCertProof libs validName host config.serverPublicKey c with
    | .ok fingerprint => some (makePinnedTlsConfig libs fingerprint)
    | .error _ => none
  else none

/-- The two answers over one scheme that the result of a bootstrap is made of. -/
structure FromAnswers (scheme : BootstrapScheme) (info : WireGuardBootstrapInfo)
    (capabilities provision : Received) : Prop where
  capabilitiesAnswer : request libs validName config net scheme .capabilities = .ok capabilities
  provisionAnswer : request libs validName config net scheme .provision = .ok provision
  contents : ∃ wireguard provisioned,
    (libs.fromStr capabilities.body).bind capabilitiesFromJson = some (some wireguard) ∧
    (libs.fromStr provision.body).bind provisionFromJson = some provisioned ∧
    info = ⟨wireguard.endpoint,wireguardKey config provisioned wireguard,
      wireguard.peerLeaseSeconds,provisioned.leaseExpiresAt⟩

variable {libs validName config net}

variable {errors : List (BootstrapScheme × SkipReason)} {scheme : BootstrapScheme}
  {schemes : List BootstrapScheme} {info : WireGuardBootstrapInfo} {c : Connection} {host : String}

theorem attempts_skip {reason : SkipReason}
    (h : attempt libs validName config net scheme = .skip reason) :
    attempts libs validName config net errors (scheme::schemes) =
      attempts libs validName config net (errors++[(scheme,reason)]) schemes := by
  simp only [attempts,h]

theorem attempts_done (h : attempt libs validName config net scheme = .done info) :
    attempts libs validName config net errors (scheme::schemes) = .ok info := by
  simp only [attempts,h]

/-- A loop that ends well has skipped the schemes before the one it ends with. -/
theorem attempts_ok (h : attempts libs validName config net errors schemes = .ok info) :
    ∃ skipped scheme rest, schemes = skipped++scheme::rest ∧
      (∀ s ∈ skipped, ∃ reason, attempt libs validName config net s = .skip reason) ∧
      attempt libs validName config net scheme = .done info := by
  induction schemes generalizing errors with
  | nil => cases h
  | cons scheme schemes ih =>
    cases hturn : attempt libs validName config net scheme with
    | stop e => simp only [attempts,hturn,reduceCtorEq] at h
    | skip reason =>
      rw [attempts_skip hturn] at h
      obtain ⟨skipped,last,rest,rfl,hskipped,hdone⟩ := ih h
      refine ⟨scheme::skipped,last,rest,rfl,?_,hdone⟩
      intro s hs
      rcases List.mem_cons.mp hs with rfl | hs
      · exact ⟨reason,hturn⟩
      · exact hskipped s hs
    | done last =>
      rw [attempts_done hturn] at h
      cases h
      exact ⟨[],scheme,schemes,rfl,List.forall_mem_nil _,hturn⟩

/-- A turn of the loop ends the bootstrap exactly with two answers and a key. -/
theorem attempt_done_iff :
    attempt libs validName config net scheme = .done info ↔ info.serverPublicKey ≠ "" ∧
      ∃ capabilities provision,
        FromAnswers libs validName config net scheme info capabilities provision := by
  constructor
  · intro h
    unfold attempt at h
    split at h
    · cases h
    · next capabilities hcapabilities =>
      split at h
      · cases h
      · cases h
      · next wireguard hwireguard =>
        split at h
        · cases h
        · next provision hprovision =>
          split at h
          · cases h
          · next provisioned hprovisioned =>
            simp only at h
            split at h
            · cases h
            · next hkey =>
              cases h
              exact ⟨hkey,capabilities,provision,hcapabilities,hprovision,wireguard,provisioned,
                hwireguard,hprovisioned,rfl⟩
  · rintro ⟨hkey,capabilities,provision,hcapabilities,hprovision,wireguard,provisioned,
      hwireguard,hprovisioned,rfl⟩
    simp only [attempt,hcapabilities,hprovision,hwireguard,hprovisioned,if_neg hkey]

theorem attempt_unreachable {e : RequestError}
    (h : request libs validName config net scheme .capabilities = .error e) :
    attempt libs validName config net scheme = .skip (.capabilities e) := by
  simp only [attempt,h]

/-- Plain HTTP comes last unless the websocket address asks for it. -/
theorem before_http (hplain : config.isPlain = false) {skipped rest : List BootstrapScheme}
    (h : bootstrapSchemeCandidates config = skipped++.http::rest) : skipped = [.h3,.https] := by
  rw [bootstrapSchemeCandidates,if_neg (by simp [hplain])] at h
  rcases skipped with _ | ⟨a,_ | ⟨b,_ | ⟨c,skipped⟩⟩⟩
  · cases h
  · cases h
  · cases h
    rfl
  · simp at h

/-- A connector takes trusted certificates only. -/
theorem resolveWssTlsConnector_some {scheme : String} {v : ServerCertVerifier} {captured : Captured}
    {f : Flight} (h : resolveWssTlsConnector libs validName config scheme host c = some v)
    (hok : (handshake v captured f).1 = .ok ()) : Trusted libs config f.endEntity := by
  unfold resolveWssTlsConnector at h
  split at h
  · cases h
  · split at h
    · next hpin =>
      cases h
      exact .inl ⟨hpin,handshake_pinned.mp hok⟩
    · split at h
      · next hkey =>
        split at h
        · next fingerprint hfetch =>
          cases h
          exact trusted_of_fetch hkey hfetch (handshake_pinned.mp hok)
        · cases h
      · cases h

/-- There is no connector without TLS, and none if there is no pin and no proof. -/
theorem resolveWssTlsConnector_none {scheme : String} :
    resolveWssTlsConnector libs validName config scheme host c = none ↔
      eqIgnoreAsciiCase scheme "wss" = false ∨ config.tlsCertFingerprint = "" ∧
        (config.serverPublicKey = "" ∨ ∃ e,
          fetchAndVerifyCertProof libs validName host config.serverPublicKey c = .error e) := by
  unfold resolveWssTlsConnector
  cases hscheme : eqIgnoreAsciiCase scheme "wss" with
  | false => simp
  | true =>
    by_cases hpin : config.tlsCertFingerprint = ""
    · by_cases hkey : config.serverPublicKey = ""
      · simp [hpin,hkey]
      · cases hfetch : fetchAndVerifyCertProof libs validName host config.serverPublicKey c <;>
          simp [hpin,hkey]
    · simp [hpin]

/-- What a bootstrap returns comes from two answers of one scheme; over plain HTTP only when
the two schemes before it were skipped. -/
theorem bootstrapWireguardPeer_ok (hplain : config.isPlain = false)
    (h : bootstrapWireguardPeer libs validName config net = .ok info) :
    ∃ scheme capabilities provision,
      FromAnswers libs validName config net scheme info capabilities provision ∧
      (Authenticated libs config capabilities.channel ∧
          Authenticated libs config provision.channel ∨
        scheme = .http ∧ ∀ s, s = .h3 ∨ s = .https →
          ∃ reason, attempt libs validName config net s = .skip reason) := by
  unfold bootstrapWireguardPeer at h
  split at h
  · cases h
  · obtain ⟨skipped,scheme,rest,hschemes,hskipped,hdone⟩ := attempts_ok h
    obtain ⟨-,capabilities,provision,hanswers⟩ := attempt_done_iff.mp hdone
    refine ⟨scheme,capabilities,provision,hanswers,?_⟩
    by_cases hhttp : scheme = .http
    · subst hhttp
      have hbefore := before_http hplain hschemes
      refine .inr ⟨rfl,fun s hs => hskipped s ?_⟩
      simpa [hbefore] using hs
    · have hcapabilities := requestBootstrapJson_channel hanswers.capabilitiesAnswer
      have hprovision := requestBootstrapJson_channel hanswers.provisionAnswer
      rw [if_neg hhttp] at hcapabilities hprovision
      exact .inl ⟨hcapabilities,hprovision⟩

/-- What a WebSocket of `wss` accepts: trusted certificates, and those of the system's roots
if there is no pin and no proof. -/
theorem connector_accepts {systemRoots : ServerCertVerifier} {scheme : String} {captured : Captured}
    {f : Flight} (hwss : eqIgnoreAsciiCase scheme "wss" = true)
    (h : (handshake ((resolveWssTlsConnector libs validName config scheme host c).getD systemRoots)
      captured f).1 = .ok ()) : Trusted libs config f.endEntity ∨
      config.tlsCertFingerprint = "" ∧ (config.serverPublicKey = "" ∨ ∃ e,
        fetchAndVerifyCertProof libs validName host config.serverPublicKey c = .error e) ∧
      (handshake systemRoots captured f).1 = .ok () := by
  cases hconnector : resolveWssTlsConnector libs validName config scheme host c with
  | some v =>
    rw [hconnector,Option.getD_some] at h
    exact .inl (resolveWssTlsConnector_some hconnector h)
  | none =>
    rw [hconnector,Option.getD_none] at h
    rcases resolveWssTlsConnector_none.mp hconnector with hnot | ⟨hpin,hfailed⟩
    · rw [hwss] at hnot
      cases hnot
    · exact .inr ⟨hpin,hfailed,h⟩

end Bootstrap

section Demo

def offer : String := "\x7b\"wireguard\":\x7b\"endpoint\":\"192.0.2.1:51820\",\"server_public_key\":\"key\"\x7d\x7d"

/-- An offer without a key. -/
def bareOffer : String := "\x7b\"wireguard\":\x7b\"endpoint\":\"192.0.2.1:51820\"\x7d\x7d"

def lure : String := "\x7b\"wireguard\":\x7b\"endpoint\":\"203.0.113.66:51820\",\"server_public_key\":\"lure\"\x7d\x7d"

def emptyObject : String := "\x7b\x7d"

def readOffer (text : String) : Option Json :=
  let wireguard := fun fields => some (.obj [("wireguard",.obj fields)])
  if text = offer then
    wireguard [("endpoint",.str "192.0.2.1:51820"),("server_public_key",.str "key")]
  else if text = bareOffer then wireguard [("endpoint",.str "192.0.2.1:51820")]
  else if text = lure then
    wireguard [("endpoint",.str "203.0.113.66:51820"),("server_public_key",.str "lure")]
  else if text = emptyObject then some (.obj [])
  else none

def offerLibs : Libs := {serverLibs with fromStr := readOffer}

/-- A client with a pin, a paired key and a configured WireGuard key. -/
def pairedConfig : ClientConfig :=
  ⟨"vpn.example:443","wss://vpn.example",serverPublicKey,"sha256:3082","configured"⟩

def deadConnection : Connection := ⟨false,none,false,none⟩

def deadAnswers : Answers :=
  let deadH3 : H3Connection := ⟨false,none,false,none,none⟩
  ⟨deadH3,deadH3,deadConnection,deadConnection,deadConnection,deadConnection⟩

def answerText (offered : String) : Purpose → String
  | .capabilities => offered
  | .provision => emptyObject

/-- Only plain HTTP gets an answer. -/
def blockedNetwork : Network := fun scheme purpose =>
  if scheme = .http then
    {deadAnswers with stream := ⟨true,none,true,
      some (utf8 ("HTTP/1.1 200 OK\r\n\r\n"++answerText lure purpose))⟩}
  else deadAnswers

/-- The server answers over HTTP/3. -/
def servedNetwork (offered : String) : Network := fun _ purpose =>
  {deadAnswers with h3 := ⟨true,some ⟨.tls13,CertProof.certificate,[],[]⟩,true,none,
    some (200,utf8 (answerText offered purpose))⟩}

theorem trim_address : trim pairedConfig.serverPublicAddress = "vpn.example:443" := rfl

theorem request_paired (net : Network) (scheme : BootstrapScheme) (purpose : Purpose) :
    request offerLibs (fun _ => true) pairedConfig net scheme purpose =
      match scheme with
      | .h3 => requestBootstrapJsonH3 offerLibs (fun _ => true) pairedConfig "vpn.example"
          (net scheme purpose)
      | .http => requestBootstrapJsonHttp (net scheme purpose)
      | .https => requestBootstrapJsonHttps offerLibs (fun _ => true) pairedConfig "vpn.example"
          (net scheme purpose) := by
  have hsplit : splitHostPort "vpn.example:443" = some ("vpn.example",443) := rfl
  rw [request,trim_address,requestBootstrapJson,hsplit]

theorem bootstrap_paired (net : Network) :
    bootstrapWireguardPeer offerLibs (fun _ => true) pairedConfig net =
      attempts offerLibs (fun _ => true) pairedConfig net [] [.h3,.https,.http] := by
  have hcandidates : bootstrapSchemeCandidates pairedConfig = [.h3,.https,.http] := rfl
  rw [bootstrapWireguardPeer,trim_address,if_neg (by decide),hcandidates]

theorem blocked_http (purpose : Purpose) :
    request offerLibs (fun _ => true) pairedConfig blockedNetwork .http purpose =
      .ok ⟨.plain,answerText lure purpose⟩ := by
  have hsplit : splitOnce headEnd ("HTTP/1.1 200 OK\r\n\r\n"++answerText lure purpose).toList =
      some ("HTTP/1.1 200 OK".toList,(answerText lure purpose).toList) := by
    rw [String.toList_append]
    rfl
  have htrim : trim (answerText lure purpose) = answerText lure purpose := by
    cases purpose <;> rfl
  have hanswer : requestBootstrapJsonHttp (blockedNetwork .http purpose) = _ :=
    requestBootstrapJsonHttp_ok rfl rfl rfl hsplit rfl rfl
  rw [String.ofList_toList,htrim] at hanswer
  rw [request_paired]
  exact hanswer

theorem served_h3 {offered : String} (htrim : trim offered = offered) (purpose : Purpose) :
    request offerLibs (fun _ => true) pairedConfig (servedNetwork offered) .h3 purpose =
      .ok ⟨.tls CertProof.certificate,answerText offered purpose⟩ := by
  have hbody : sendH3JsonRequest (some (200,utf8 (answerText offered purpose))) =
      .ok (answerText offered purpose) := by
    cases purpose with
    | capabilities => simp [sendH3JsonRequest,fromUtf8_utf8,answerText,htrim]
    | provision =>
      have hempty : trim emptyObject = emptyObject := rfl
      simp [sendH3JsonRequest,fromUtf8_utf8,answerText,hempty]
  have hpin : (handshake (makePinnedTlsConfig offerLibs pairedConfig.tlsCertFingerprint) none
      ⟨.tls13,CertProof.certificate,[],[]⟩).1 = .ok () := handshake_pinned.mpr rfl
  have hset : pairedConfig.tlsCertFingerprint ≠ "" := by decide
  rw [request_paired]
  simp only [requestBootstrapJsonH3,hset,ne_eq,not_false_eq_true,if_true,servedNetwork,
    connectQuicClient,connectTls,hpin,Except.map,retryAfterRotation,exchangeH3,hbody]
  rfl

theorem bootstrap_blocked :
    bootstrapWireguardPeer offerLibs (fun _ => true) pairedConfig blockedNetwork =
      .ok ⟨"203.0.113.66:51820","lure",0,0⟩ := by
  have hh3 : attempt offerLibs (fun _ => true) pairedConfig blockedNetwork .h3 =
      .skip (.capabilities (.proof .dial)) := attempt_unreachable (by rw [request_paired]; rfl)
  have hhttps : attempt offerLibs (fun _ => true) pairedConfig blockedNetwork .https =
      .skip (.capabilities .dial) := attempt_unreachable (by rw [request_paired]; rfl)
  have hhttp : attempt offerLibs (fun _ => true) pairedConfig blockedNetwork .http =
      .done ⟨"203.0.113.66:51820","lure",0,0⟩ :=
    attempt_done_iff.mpr ⟨by decide,_,_,blocked_http _,blocked_http _,
      ⟨"203.0.113.66:51820","lure",0⟩,⟨"","",0⟩,rfl,rfl,rfl⟩
  rw [bootstrap_paired,attempts_skip hh3,attempts_skip hhttps,attempts_done hhttp]

/-- The answer of the server over HTTP/3 is what its offer says. -/
theorem bootstrap_served {offered : String} {info : WireGuardBootstrapInfo}
    {wireguard : WireGuardCapability} (htrim : trim offered = offered)
    (hoffer : (readOffer offered).bind capabilitiesFromJson = some (some wireguard))
    (hinfo : info = ⟨wireguard.endpoint,wireguardKey pairedConfig ⟨"","",0⟩ wireguard,
      wireguard.peerLeaseSeconds,0⟩) (hkey : info.serverPublicKey ≠ "") :
    bootstrapWireguardPeer offerLibs (fun _ => true) pairedConfig (servedNetwork offered) =
      .ok info := by
  have hdone : attempt offerLibs (fun _ => true) pairedConfig (servedNetwork offered) .h3 =
      .done info :=
    attempt_done_iff.mpr ⟨hkey,_,_,served_h3 htrim _,served_h3 htrim _,wireguard,⟨"","",0⟩,hoffer,
      rfl,hinfo⟩
  rw [bootstrap_paired,attempts_done hdone]

end Demo

end Bonded.ClientBootstrap
