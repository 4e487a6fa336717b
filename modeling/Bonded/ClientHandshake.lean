import Bonded.AuthHandshake
import Bonded.Bootstrap

/-! The client's side of the handshake, over its three transports. A message is a JSON
object; printing and reading it is the library's part, so the channel carries the values.
The TCP and the WebSocket client are one procedure with different error texts; the QUIC
client names its fields in its own way. -/
namespace Bonded.ClientHandshake

open Auth AuthHandshake Bootstrap

/-- The signing half of the crypto library. -/
structure Signing extends Crypto where
  encodeStandard : List UInt8 → String
  publicKeyOf : List UInt8 → List UInt8
  sign : List UInt8 → List UInt8 → List UInt8

structure DeviceKeypair where
  privateKeyB64 : String
  publicKeyB64 : String
  deriving DecidableEq, Repr

inductive SigningError
  | invalidBase64
  | invalidPrivateKeyLength (found : ℕ)
  deriving DecidableEq, Repr

section Keys

variable (c : Signing)

def fromSigningKey (signingKey : List UInt8) : DeviceKeypair :=
  ⟨c.encodeStandard signingKey,c.encodeStandard (c.publicKeyOf signingKey)⟩

def signingKey (keypair : DeviceKeypair) : Except SigningError (List UInt8) :=
  match c.decodeStandard keypair.privateKeyB64 with
  | none => .error .invalidBase64
  | some key => if key.length = 32 then .ok key else .error (.invalidPrivateKeyLength key.length)

/-- Sign the bytes behind a challenge, whatever they are. -/
def signAuthChallenge (keypair : DeviceKeypair) (challengeB64 : String) :
    Except SigningError String :=
  match signingKey c keypair with
  | .error e => .error e
  | .ok key =>
    match c.decodeUrlSafe challengeB64 with
    | none => .error .invalidBase64
    | some challenge => .ok (c.encodeStandard (c.sign key challenge))

def signBytes (keypair : DeviceKeypair) (message : List UInt8) : Except SigningError String :=
  match signingKey c keypair with
  | .error e => .error e
  | .ok key => .ok (c.encodeStandard (c.sign key message))

/-- What the base64 and ed25519 libraries promise for keys of 32 bytes. -/
structure Lawful : Prop where
  base64 : Base64RoundTrip c.toCrypto
  standard : ∀ raw, c.decodeStandard (c.encodeStandard raw) = some raw
  publicKey : ∀ key, key.length = 32 → (c.publicKeyOf key).length = 32 ∧
    c.validKey (c.publicKeyOf key) = true
  signature : ∀ key message, (c.sign key message).length = 64
  verify_sign : ∀ key message, key.length = 32 →
    c.verify (c.publicKeyOf key) message (c.sign key message) = true

variable {c}

theorem signingKey_fromSigningKey (h : Lawful c) {key : List UInt8} (hkey : key.length = 32) :
    signingKey c (fromSigningKey c key) = .ok key := by
  simp [signingKey,fromSigningKey,h.standard,hkey]

theorem signAuthChallenge_fromSigningKey (h : Lawful c) {key : List UInt8}
    (hkey : key.length = 32) {challengeB64 : String} {challenge : List UInt8}
    (hdecode : c.decodeUrlSafe challengeB64 = some challenge) :
    signAuthChallenge c (fromSigningKey c key) challengeB64 =
      .ok (c.encodeStandard (c.sign key challenge)) := by
  simp [signAuthChallenge,signingKey_fromSigningKey h hkey,hdecode]

theorem verifyingKey_fromSigningKey (h : Lawful c) {key : List UInt8} (hkey : key.length = 32) :
    verifyingKey c.toCrypto (fromSigningKey c key).publicKeyB64 = .ok (c.publicKeyOf key) := by
  simp [verifyingKey,fromSigningKey,h.standard,h.publicKey key hkey]

theorem signatureBytes_sign (h : Lawful c) (key message : List UInt8) :
    signatureBytes c.toCrypto (c.encodeStandard (c.sign key message)) =
      .ok (c.sign key message) := by
  simp [signatureBytes,h.standard,h.signature]

theorem verifyAuthChallenge_sign (h : Lawful c) {key : List UInt8} (hkey : key.length = 32)
    (raw : List UInt8) :
    verifyAuthChallenge c.toCrypto (fromSigningKey c key).publicKeyB64 (challengeText c.toCrypto raw)
      (c.encodeStandard (c.sign key raw)) = .ok () := by
  simp [verifyAuthChallenge,verifyingKey_fromSigningKey h hkey,challengeText,h.base64 raw,
    signatureBytes_sign h,h.verify_sign key raw hkey]

theorem verifySignature_sign (h : Lawful c) {key : List UInt8} (hkey : key.length = 32)
    (message : List UInt8) :
    verifySignature c.toCrypto (fromSigningKey c key).publicKeyB64 message
      (c.encodeStandard (c.sign key message)) = .ok () := by
  simp [verifySignature,verifyingKey_fromSigningKey h hkey,signatureBytes_sign h,
    h.verify_sign key message hkey]

/-- A signature of 64 bytes: whether the message has 32 bytes, the beginning of the key and the
beginning of the message. -/
def demoSign (key message : List UInt8) : List UInt8 :=
  (if message.length = 32 then 1 else 0)::((key++List.replicate 31 0).take 31++
    (message++List.replicate 32 0).take 32)

def demoSigning : Signing :=
  { toyCrypto with
    verify := fun key message signature => signature = demoSign key message
    encodeStandard := toyCrypto.encodeUrlSafe
    publicKeyOf := id
    sign := demoSign }

theorem demoSigning_lawful : Lawful demoSigning where
  base64 := toyCrypto_base64
  standard := toyCrypto_base64
  publicKey := fun _ hkey => ⟨hkey,rfl⟩
  signature := fun key message => by simp [demoSigning,demoSign]
  verify_sign := fun key message _ => by simp [demoSigning]

end Keys

inductive ClientError
  | closed
  | invalidJson
  | rejected (status : String)
  | unexpectedJson
  | signing (error : SigningError)
  | refused (status : String)
  deriving DecidableEq, Repr

/-- The text of an error; `none` where it carries the cause of a library. -/
def errorText : TransportKind → ClientError → Option String
  | .tcp, .closed => some "server closed connection during auth handshake"
  | .websocket, .closed => some "websocket closed while awaiting text"
  | .quic, .closed => some "QUIC: connection closed while reading text line"
  | .tcp, .rejected status => some ("server rejected authentication: status="++status)
  | .websocket, .rejected status =>
    some ("server rejected websocket authentication: status="++status)
  | .quic, .rejected message => some ("server rejected hello: "++message)
  | .tcp, .refused status => some ("server rejected authentication with status "++status)
  | .websocket, .refused status =>
    some ("server rejected websocket authentication with status "++status)
  | .quic, .refused message => some ("QUIC auth failed: "++message)
  | _, .invalidJson | _, .unexpectedJson | _, .signing _ => none

inductive ClientPhase
  | awaitChallenge
  | awaitResult
  | done
  | failed (text : Option String)
  deriving DecidableEq, Repr

section Client

variable (c : Signing) (keypair : DeviceKeypair)

def textAt (v : Json) (key : String) : Option String := (v.get key).bind Json.asStr

/-- The hello of the TCP and the WebSocket client. -/
def hello (inviteToken : String) : Json :=
  .obj [("public_key_b64",.str keypair.publicKeyB64),("invite_token",.str inviteToken)]

def quicHello (inviteToken : String) : Json :=
  .obj [("type",.str "hello"),("public_key",.str keypair.publicKeyB64),
    ("invite_token",.str inviteToken)]

/-- Answer a challenge with the object that carries the signature. -/
def answer (kind : TransportKind) (proof : String → Json) (challengeB64 : String) :
    ClientPhase × List Json :=
  match signAuthChallenge c keypair challengeB64 with
  | .error e => (.failed (errorText kind (.signing e)),[])
  | .ok signature => (.awaitResult,[proof signature])

/-- The TCP and the WebSocket client on the server's first message. -/
def onChallenge (kind : TransportKind) : Incoming Json → ClientPhase × List Json
  | .closed => (.failed (errorText kind .closed),[])
  | .invalid => (.failed (errorText kind .invalidJson),[])
  | .message v =>
    match textAt v "status" with
    | some status => (.failed (errorText kind (.rejected status)),[])
    | none =>
      match textAt v "challenge_b64" with
      | none => (.failed (errorText kind .unexpectedJson),[])
      | some challenge =>
        answer c keypair kind (fun signature => .obj [("signature_b64",.str signature)]) challenge

def onResult (kind : TransportKind) : Incoming Json → ClientPhase
  | .closed => .failed (errorText kind .closed)
  | .invalid => .failed (errorText kind .invalidJson)
  | .message v =>
    match textAt v "status" with
    | none => .failed (errorText kind .unexpectedJson)
    | some status => if status = "ok" then .done else .failed (errorText kind (.refused status))

def quicOnChallenge : Incoming Json → ClientPhase × List Json
  | .closed => (.failed (errorText .quic .closed),[])
  | .invalid => (.failed (errorText .quic .invalidJson),[])
  | .message v =>
    if textAt v "type" = some "error" then
      (.failed (errorText .quic (.rejected ((textAt v "message").getD "unknown error"))),[])
    else
      match textAt v "challenge_b64" with
      | none => (.failed (errorText .quic .unexpectedJson),[])
      | some challenge => answer c keypair .quic (fun signature =>
          .obj [("type",.str "auth_response"),("signature_b64",.str signature)]) challenge

def quicOnResult : Incoming Json → ClientPhase
  | .closed => .failed (errorText .quic .closed)
  | .invalid => .failed (errorText .quic .invalidJson)
  | .message v =>
    if textAt v "status" = some "ok" then .done
    else .failed (errorText .quic (.refused ((textAt v "message").getD "unknown error")))

/-- A client handshake: its first message, and what it does with the two answers. -/
structure Procedure where
  first : String → Json
  onChallenge : Incoming Json → ClientPhase × List Json
  onResult : Incoming Json → ClientPhase

def performAuthHandshake : Procedure :=
  ⟨hello keypair,onChallenge c keypair .tcp,onResult .tcp⟩

def performWebsocketAuthHandshake : Procedure :=
  ⟨hello keypair,onChallenge c keypair .websocket,onResult .websocket⟩

def performQuicAuthHandshake : Procedure :=
  ⟨quicHello keypair,quicOnChallenge c keypair,quicOnResult⟩

def perform : TransportKind → Procedure
  | .tcp => performAuthHandshake c keypair
  | .websocket => performWebsocketAuthHandshake c keypair
  | .quic => performQuicAuthHandshake c keypair

end Client

/-- The server's reading of a hello: the key is required, the token is empty by default. -/
def helloFromJson (v : Json) : Option ClientHello :=
  match textAt v "public_key_b64", v.get "invite_token" with
  | some key, none => some ⟨key,""⟩
  | some key, some (.str token) => some ⟨key,token⟩
  | _, _ => none

def proofFromJson (v : Json) : Option String := textAt v "signature_b64"

def incoming {α : Type} (parse : Json → Option α) : Incoming Json → Incoming α
  | .closed => .closed
  | .invalid => .invalid
  | .message v =>
    match parse v with
    | none => .invalid
    | some value => .message value

def serverMessageToJson : ServerMessage → Json
  | .challenge challengeB64 => .obj [("challenge_b64",.str challengeB64)]
  | .authResult status => .obj [("status",.str status)]

end Bonded.ClientHandshake
