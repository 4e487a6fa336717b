import Bonded.Text
import Bonded.WireGuardRegistry

/-! The bootstrap REST API: the router and its four handlers. JSON texts, hashes and
signatures come from libraries and are parameters. -/
namespace Bonded.Bootstrap

open Auth Text WireGuardRegistry

/-- A JSON value; a number is kept as its text. -/
inductive Json
  | null
  | bool (b : Bool)
  | num (text : String)
  | str (s : String)
  | arr (items : List Json)
  | obj (fields : List (String × Json))

namespace Json

def get (v : Json) (key : String) : Option Json :=
  match v with
  | obj fields => (fields.find? fun f => f.1 = key).map Prod.snd
  | _ => none

def asStr : Json → Option String
  | str s => some s
  | _ => none

/-- A text field, empty if it is missing or no text. -/
def strField (v : Json) (key : String) : String := ((v.get key).bind asStr).getD ""

def error (message : String) : Json := obj [("error",str message)]

end Json

inductive StatusCode
  | ok
  | badRequest
  | unauthorized
  | forbidden
  | notFound
  | internalServerError
  | notImplemented
  deriving DecidableEq, Repr

abbrev Reply := StatusCode × Json

structure PeerShareIntroductionRequest where
  consumerDevicePublicKey : String
  providerDevicePublicKey : String
  providerInstanceNonce : String
  providerEndpoint : String
  listenerTransport : String
  listenerCertFingerprint : String
  consumerSignature : String
  deriving DecidableEq, Repr

structure PeerShareIntroductionClaims where
  consumerDevicePublicKey : String
  providerDevicePublicKey : String
  providerInstanceNonce : String
  providerEndpoint : String
  listenerTransport : String
  listenerCertFingerprint : String
  expiresAt : ℕ
  deriving DecidableEq, Repr

/-- The libraries behind the handlers. Serialising and signing may fail. -/
structure Libs where
  crypto : Crypto
  fromStr : String → Option Json
  introductionFromStr : String → Option PeerShareIntroductionRequest
  signedPayload : PeerShareIntroductionRequest → Option (List UInt8)
  signingPayload : PeerShareIntroductionClaims → Option (List UInt8)
  introductionToJson : PeerShareIntroductionClaims → String → Option Json
  sha256 : List UInt8 → List UInt8
  signBytes : List UInt8 → Option String

structure AdvertisedBootstrapEndpoints where
  serverPublicAddress : String
  wireguardPublicAddr : Option String
  deriving DecidableEq, Repr

/-- The part of the context that does not change; the WireGuard keypair is given by the
text of its public key. -/
structure BootstrapContext where
  tlsCertDer : Option (List UInt8)
  serverPublicAddress : String
  wireguardKeypair : Option String
  wireguardPublicAddr : Option String
  wireguardPeerLeaseSecs : ℕ
  deriving DecidableEq, Repr

/-- What the handlers share with the rest of the server. -/
structure Stores where
  authorizedKeys : Table String AuthorizedDevice
  wireguardPeers : Option WireGuardPeerRegistry
  deriving DecidableEq

def trim (s : String) : String :=
  String.ofList ((s.toList.dropWhile isWhitespace).reverse.dropWhile isWhitespace).reverse

theorem toList_trim (s : String) : (trim s).toList = strip isWhitespace s.toList :=
  String.toList_ofList

theorem trim_self {s : String} (hhead : ∀ c, s.toList.head? = some c → isWhitespace c = false)
    (hlast : ∀ c, s.toList.getLast? = some c → isWhitespace c = false) : trim s = s :=
  String.toList_inj.mp ((toList_trim s).trans (strip_self hhead hlast))

def hexDigit (n : ℕ) : Char := if n < 10 then Char.ofNat (48+n) else Char.ofNat (87+n)

def hex (bytes : List UInt8) : String :=
  String.ofList (bytes.flatMap fun b => [hexDigit (b.toNat/16),hexDigit (b.toNat%16)])

section Handlers

variable (libs : Libs) (ctx : BootstrapContext)

def certProof : Option (Option (String × String)) :=
  ctx.tlsCertDer.map fun der =>
    let fingerprint := "sha256:"++hex (libs.sha256 der)
    (libs.signBytes fingerprint.toUTF8.toList).map fun signature => (fingerprint,signature)

def certProofResponse : Reply :=
  match certProof libs ctx with
  | none => (.notImplemented,
      .error "TLS not configured on this server; cert-proof requires TLS")
  | some none => (.internalServerError,.error "failed to generate cert proof")
  | some (some (fingerprint,signature)) => (.ok,
      .obj [("cert_fingerprint",.str fingerprint),("ed25519_signature",.str signature)])

def quicEnabled : Bool := ctx.tlsCertDer.isSome

/-- Without endpoints for this request the configured ones are advertised. -/
def capabilitiesResponse (endpoints : Option AdvertisedBootstrapEndpoints) : Reply :=
  let endpoints := endpoints.getD ⟨ctx.serverPublicAddress,ctx.wireguardPublicAddr⟩
  let wss := ("wss",Json.obj [("endpoint",.str endpoints.serverPublicAddress)])
  let h3 := if quicEnabled ctx
    then [("h3",Json.obj [("endpoint",.str endpoints.serverPublicAddress)])] else []
  let wireguard := match ctx.wireguardKeypair with
    | none => []
    | some key => [("wireguard",Json.obj [
        ("endpoint",.str (endpoints.wireguardPublicAddr.getD endpoints.serverPublicAddress)),
        ("provision_endpoint",.str
          ("https://"++endpoints.serverPublicAddress++"/v1/bootstrap/wireguard/peer")),
        ("server_public_key",.str key),
        ("peer_lease_seconds",.num (toString ctx.wireguardPeerLeaseSecs))])]
  let offers := wss::(h3++wireguard)
  (.ok,.obj (offers++[("transports",.arr (offers.map fun f => .str f.1))]))

/-- Provision a peer for the two keys in the body. A panic gives no reply. -/
def wireguardPeerResponse (stores : Stores) (body : String) (now : ℕ) (writable : Bool) :
    Option Reply × Stores :=
  match ctx.wireguardKeypair, stores.wireguardPeers with
  | some key, some peers =>
    match libs.fromStr (trim body) with
    | none => (some (.badRequest,.error "invalid JSON body"),stores)
    | some req =>
      let devicePk := req.strField "device_public_key"
      let wgPk := req.strField "wg_public_key"
      if devicePk = "" ∨ wgPk = "" then
        (some (.badRequest,.error "device_public_key and wg_public_key are required"),stores)
      else
        match registerPeerLease peers devicePk wgPk now writable with
        | (none,peers) => (none,{stores with wireguardPeers := some peers})
        | (some peer,peers) =>
          (some (.ok,.obj [("server_wg_public_key",.str key),("peer_ip",.str peer.peerIp),
            ("lease_expires_at",.num (toString peer.leaseExpiresAt))]),
            {stores with wireguardPeers := some peers})
  | _, _ => (some (.notImplemented,.error "WireGuard is not enabled on this server"),stores)

/-- Vouch for a provider towards a consumer that signed the request. -/
def peerShareIntroductionResponse (authorizedKeys : Table String AuthorizedDevice)
    (body : String) (now : ℕ) : Reply :=
  match libs.introductionFromStr (trim body) with
  | none => (.badRequest,.error "invalid JSON body")
  | some request =>
    if request.consumerDevicePublicKey = "" ∨ request.providerDevicePublicKey = "" ∨
        request.providerInstanceNonce = "" ∨ request.providerEndpoint = "" ∨
        request.listenerTransport = "" ∨ request.listenerCertFingerprint = "" ∨
        request.consumerSignature = "" then
      (.badRequest,.error ("consumer_device_public_key, provider_device_public_key, "++
        "provider_instance_nonce, provider_endpoint, listener_transport, "++
        "listener_cert_fingerprint, and consumer_signature are required"))
    else if ¬ (isAuthorized authorizedKeys request.consumerDevicePublicKey ∧
        isAuthorized authorizedKeys request.providerDevicePublicKey) then
      (.forbidden,.error "peer introduction requires both devices to be authorized")
    else
      match libs.signedPayload request with
      | none => (.internalServerError,.error "failed to serialize peer introduction request")
      | some payload =>
        match verifySignature libs.crypto request.consumerDevicePublicKey payload
            request.consumerSignature with
        | .error _ => (.unauthorized,.error "invalid consumer signature")
        | .ok () =>
          let claims := ⟨request.consumerDevicePublicKey,request.providerDevicePublicKey,
            request.providerInstanceNonce,request.providerEndpoint,request.listenerTransport,
            request.listenerCertFingerprint,unixTimestampAfter now 300⟩
          match libs.signingPayload claims with
          | none => (.internalServerError,.error "failed to serialize peer introduction claims")
          | some payload =>
            match libs.signBytes payload with
            | none => (.internalServerError,.error "failed to sign peer introduction")
            | some signature =>
              match libs.introductionToJson claims signature with
              | none =>
                (.internalServerError,.error "failed to serialize peer introduction response")
              | some body => (.ok,body)

def pathNoQuery (path : String) : String := String.ofList (path.toList.takeWhile (· ≠ '?'))

inductive Route
  | certProof
  | capabilities
  | wireguardPeer
  | peerShareIntroduction
  | notFound
  deriving DecidableEq, Repr

/-- The two read-only routes answer any method. -/
def routeOf (method path : String) : Route :=
  let path := pathNoQuery path
  if path = "/v1/bootstrap/cert-proof" then .certProof
  else if path = "/v1/bootstrap/capabilities" then .capabilities
  else if method = "POST" ∧ path = "/v1/bootstrap/wireguard/peer" then .wireguardPeer
  else if method = "POST" ∧ path = "/v1/bootstrap/peer-share/introduction" then
    .peerShareIntroduction
  else .notFound

/-- One HTTP request, as its head and body were parsed. -/
structure Request where
  method : String
  path : String
  body : String
  endpoints : Option AdvertisedBootstrapEndpoints
  deriving DecidableEq, Repr

def routeBootstrapRequest (stores : Stores) (request : Request) (now : ℕ) (writable : Bool) :
    Option Reply × Stores :=
  match routeOf request.method request.path with
  | .certProof => (some (certProofResponse libs ctx),stores)
  | .capabilities => (some (capabilitiesResponse ctx request.endpoints),stores)
  | .wireguardPeer => wireguardPeerResponse libs ctx stores request.body now writable
  | .peerShareIntroduction =>
    (some (peerShareIntroductionResponse libs stores.authorizedKeys request.body now),stores)
  | .notFound => (some (.notFound,.error "not found"),stores)

/-- The device key and the WireGuard key that a request provisions, if it gets that far. -/
def provisions (stores : Stores) (request : Request) : Option (String × String) :=
  if routeOf request.method request.path = .wireguardPeer ∧ ctx.wireguardKeypair.isSome ∧
      stores.wireguardPeers.isSome then
    (libs.fromStr (trim request.body)).bind fun req =>
      let devicePk := req.strField "device_public_key"
      let wgPk := req.strField "wg_public_key"
      if devicePk = "" ∨ wgPk = "" then none else some (devicePk,wgPk)
  else none

/-- The only change a request can make is to provision a peer. -/
theorem routeBootstrapRequest_stores (stores : Stores) (request : Request) (now : ℕ)
    (writable : Bool) :
    (routeBootstrapRequest libs ctx stores request now writable).2 =
      match provisions libs ctx stores request, stores.wireguardPeers with
      | some (device,wg), some peers =>
        {stores with wireguardPeers := some (registerPeerLease peers device wg now writable).2}
      | _, _ => stores := by
  unfold routeBootstrapRequest provisions
  cases hroute : routeOf request.method request.path
  case wireguardPeer =>
    cases hkey : ctx.wireguardKeypair with
    | none => simp [wireguardPeerResponse,hkey]
    | some key =>
      cases hpeers : stores.wireguardPeers with
      | none => simp [wireguardPeerResponse,hkey,hpeers]
      | some peers =>
        cases hbody : libs.fromStr (trim request.body) with
        | none => simp [wireguardPeerResponse,hkey,hpeers,hbody]
        | some req =>
          simp only [wireguardPeerResponse,hkey,hpeers,hbody,Option.isSome_some,and_self,
            if_true,Option.bind_some]
          by_cases hempty : req.strField "device_public_key" = "" ∨
              req.strField "wg_public_key" = ""
          · simp [hempty]
          · simp only [hempty,if_false]
            cases registerPeerLease peers (req.strField "device_public_key")
              (req.strField "wg_public_key") now writable with
            | mk reply peers => cases reply <;> rfl
  all_goals simp

end Handlers

end Bonded.Bootstrap
