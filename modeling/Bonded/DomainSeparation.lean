import Bonded.RelayBinding

/-! The two uses of a device's signature: the answer to a challenge of the handshake, and the
consumer's signature under a request for an introduction. The client signs the bytes of any
challenge as they are, so the two uses meet exactly when a challenge is the payload of a
request. -/
namespace Bonded.DomainSeparation

open Auth AuthHandshake Bootstrap ClientHandshake JsonText PeerShare RelayBinding

theorem signedPayload_length (r : PeerShareIntroductionRequest) :
    32 < (signedPayload r).length := by
  have hbytes := length_le_utf8 (object [
    ("consumer_device_public_key",.text r.consumerDevicePublicKey),
    ("listener_cert_fingerprint",.text r.listenerCertFingerprint),
    ("listener_transport",.text r.listenerTransport),
    ("provider_device_public_key",.text r.providerDevicePublicKey),
    ("provider_endpoint",.text r.providerEndpoint),
    ("provider_instance_nonce",.text r.providerInstanceNonce)])
  have hfirst : (quoted "consumer_device_public_key").length = 28 := by decide
  have hsecond : (quoted "listener_cert_fingerprint").length = 27 := by decide
  refine lt_of_lt_of_le ?_ hbytes
  simp only [object,further,member,List.length_cons,List.length_append,hfirst,hsecond]
  omega

section Client

variable {c : Signing} {keypair : DeviceKeypair}

variable {kind : TransportKind} {p : Json} {signature : String} {key : List UInt8}

theorem answer_signature {proof : String → Json} {challengeB64 : String}
    (hproof : ∀ x, proofFromJson (proof x) = some x)
    (hp : p ∈ (answer c keypair kind proof challengeB64).2)
    (hsig : proofFromJson p = some signature) :
    signAuthChallenge c keypair challengeB64 = .ok signature := by
  unfold answer at hp
  split at hp
  · cases hp
  · next x hx =>
    rw [List.mem_singleton] at hp
    subst hp
    rw [hproof,Option.some.injEq] at hsig
    rw [← hsig]
    exact hx

/-- Whatever the server sends, the client's proof is its signature of the challenge there. -/
theorem onChallenge_signature {m : Incoming Json}
    (hp : p ∈ ((ClientHandshake.perform c keypair kind).onChallenge m).2)
    (hsig : proofFromJson p = some signature) :
    ∃ v challengeB64, m = .message v ∧ textAt v "challenge_b64" = some challengeB64 ∧
      signAuthChallenge c keypair challengeB64 = .ok signature := by
  cases m with
  | closed | invalid => cases kind <;> cases hp
  | message v =>
    cases kind with
    | tcp | websocket =>
      simp only [ClientHandshake.perform,ClientHandshake.performAuthHandshake,
        ClientHandshake.performWebsocketAuthHandshake,onChallenge] at hp
      split at hp
      · cases hp
      · split at hp
        · cases hp
        · next challengeB64 hchallenge =>
          exact ⟨v,challengeB64,rfl,hchallenge,answer_signature (fun _ => rfl) hp hsig⟩
    | quic =>
      simp only [ClientHandshake.perform,ClientHandshake.performQuicAuthHandshake,
        quicOnChallenge] at hp
      split at hp
      · cases hp
      · split at hp
        · cases hp
        · next challengeB64 hchallenge =>
          exact ⟨v,challengeB64,rfl,hchallenge,answer_signature (fun _ => rfl) hp hsig⟩

/-- What a signature is made of. -/
theorem signAuthChallenge_ok (h : Lawful c) (hkey : key.length = 32) {challengeB64 : String}
    (hs : signAuthChallenge c (fromSigningKey c key) challengeB64 = .ok signature) :
    ∃ challenge, c.decodeUrlSafe challengeB64 = some challenge ∧
      signature = c.encodeStandard (c.sign key challenge) := by
  simp only [signAuthChallenge,signingKey_fromSigningKey h hkey] at hs
  split at hs
  · cases hs
  · next challenge hdecode => exact ⟨challenge,hdecode,(Except.ok.inj hs).symm⟩

variable (c) in
/-- The bytes of the challenge in a message of the server. -/
def challengeIn : Incoming Json → Option (List UInt8)
  | .message v => (textAt v "challenge_b64").bind c.decodeUrlSafe
  | _ => none

/-- A proof of the client is its signature of the challenge's bytes. -/
theorem onChallenge_signs (h : Lawful c) (hkey : key.length = 32) {m : Incoming Json}
    (hp : p ∈ ((ClientHandshake.perform c (fromSigningKey c key) kind).onChallenge m).2)
    (hsig : proofFromJson p = some signature) : ∃ challenge, challengeIn c m = some challenge ∧
      signature = c.encodeStandard (c.sign key challenge) := by
  obtain ⟨v,challengeB64,rfl,htext,hsign⟩ := onChallenge_signature hp hsig
  obtain ⟨challenge,hdecode,rfl⟩ := signAuthChallenge_ok h hkey hsign
  exact ⟨challenge,by rw [challengeIn,htext,Option.bind_some,hdecode],rfl⟩

/-- Checking a device's signature is checking its bytes. -/
theorem verifySignature_encoded (h : Lawful c) (hkey : key.length = 32)
    (challenge message : List UInt8) :
    verifySignature c.toCrypto (fromSigningKey c key).publicKeyB64 message
      (c.encodeStandard (c.sign key challenge)) = .ok () ↔
    c.verify (c.publicKeyOf key) message (c.sign key challenge) = true := by
  simp only [verifySignature,verifyingKey_fromSigningKey h hkey,signatureBytes_sign h]
  split
  · next hv => simp [hv]
  · next hv => simp [hv]

end Client

/-- The signature that a client returns in a handshake verifies under a request of its device
exactly when the challenge was, byte for byte, the payload of that request; the server issues
no introduction for any other, and so none for a challenge of the 32 bytes that it draws
itself. The hypothesis `hbinding` says that the signature is no forgery for the request at
hand. -/
theorem handshake_signature_accepted_only_for_payload (c : Signing) (h : Lawful c) (libs : Libs)
    (hcrypto : libs.crypto = c.toCrypto) (hserde : SerdeText libs) (key : List UInt8)
    (hkey : key.length = 32) (kind : TransportKind) (m : Incoming Json) (p : Json)
    (signature : String)
    (hp : p ∈ ((ClientHandshake.perform c (fromSigningKey c key) kind).onChallenge m).2)
    (hsig : proofFromJson p = some signature) (r : PeerShareIntroductionRequest)
    (hconsumer : r.consumerDevicePublicKey = (fromSigningKey c key).publicKeyB64)
    (hsame : r.consumerSignature = signature)
    (hbinding : ∀ challenge, challengeIn c m = some challenge →
      c.verify (c.publicKeyOf key) (signedPayload r) (c.sign key challenge) = true →
        signedPayload r = challenge) :
    (verifySignature libs.crypto r.consumerDevicePublicKey (signedPayload r)
      r.consumerSignature = .ok () ↔ challengeIn c m = some (signedPayload r)) ∧
    ∀ keys body now, libs.introductionFromStr (trim body) = some r →
      (peerShareIntroductionResponse libs keys body now).1 = .ok →
        challengeIn c m = some (signedPayload r) ∧
        ∀ challenge, challengeIn c m = some challenge → challenge.length ≠ 32 := by
  obtain ⟨challenge,hchallenge,rfl⟩ := onChallenge_signs h hkey hp hsig
  have hcheck : verifySignature libs.crypto r.consumerDevicePublicKey (signedPayload r)
      r.consumerSignature = .ok () ↔ challengeIn c m = some (signedPayload r) := by
    rw [hcrypto,hconsumer,hsame,verifySignature_encoded h hkey,hchallenge,Option.some.injEq]
    constructor
    · intro hv
      exact (hbinding challenge hchallenge hv).symm
    · rintro rfl
      exact h.verify_sign key _ hkey
  refine ⟨hcheck,fun keys body now hr hok => ?_⟩
  obtain ⟨r',-,-,hr',-,-,-,-,-,hverify⟩ := introduction_reply hserde hok
  rw [hr,Option.some.injEq] at hr'
  subst hr'
  have hpayload := hcheck.mp hverify
  refine ⟨hpayload,fun challenge' hchallenge' => ?_⟩
  rw [hpayload,Option.some.injEq] at hchallenge'
  exact hchallenge' ▸ (signedPayload_length r).ne'

section Demo

def challengeMessage (challenge : List UInt8) : Json :=
  .obj [("challenge_b64",.str (demoSigning.encodeUrlSafe challenge))]

theorem demo_answer (challenge : List UInt8) :
    (ClientHandshake.perform demoSigning (fromSigningKey demoSigning consumerKey) .tcp).onChallenge
      (.message (challengeMessage challenge)) =
        (.awaitResult,[.obj [("signature_b64",
          .str (demoSigning.encodeStandard (demoSigning.sign consumerKey challenge)))]]) := by
  have hsign := signAuthChallenge_fromSigningKey demoSigning_lawful
    (show consumerKey.length = 32 by decide) (demoSigning_lawful.base64 challenge)
  have hstatus : textAt (challengeMessage challenge) "status" = none := rfl
  have htext : textAt (challengeMessage challenge) "challenge_b64" =
      some (demoSigning.encodeUrlSafe challenge) := rfl
  simp only [ClientHandshake.perform,ClientHandshake.performAuthHandshake,onChallenge,hstatus,
    htext,answer,hsign]

theorem challengeIn_challengeMessage (challenge : List UInt8) :
    challengeIn demoSigning (.message (challengeMessage challenge)) = some challenge :=
  demoSigning_lawful.base64 challenge

/-- A server that sends the payload of a request as its challenge gets the consumer's signature
for it, and the consumer's own server issues the introduction. -/
theorem payload_challenge_yields_introduction :
    (ClientHandshake.perform demoSigning (fromSigningKey demoSigning consumerKey) .tcp).onChallenge
      (.message (challengeMessage (signedPayload demoRequest))) =
        (.awaitResult,[.obj [("signature_b64",.str demoRequest.consumerSignature)]]) ∧
    demoRequest.consumerDevicePublicKey = (fromSigningKey demoSigning consumerKey).publicKeyB64 ∧
    introduced demoLibs demoKeys "" 1000 = some (claimsOf demoRequest 1000) := by
  refine ⟨?_,rfl,demo_introduced⟩
  rw [signedPayload_demoRequest]
  exact demo_answer _

/-- A challenge of the server's own length. -/
def drawnChallenge : List UInt8 := List.replicate 32 7

/-- The request with the signature of the drawn challenge under it. -/
def replayedRequest : PeerShareIntroductionRequest :=
  {demoRequest with consumerSignature :=
    demoSigning.encodeStandard (demoSigning.sign consumerKey drawnChallenge)}

/-- A signature of a challenge of 32 bytes opens no introduction. -/
theorem drawn_challenge_yields_no_introduction :
    (peerShareIntroductionResponse {demoLibs with introductionFromStr := fun _ => some replayedRequest}
      demoKeys "" 1000).1 ≠ .ok := by
  intro hok
  have hbinding : ∀ challenge,
      challengeIn demoSigning (.message (challengeMessage drawnChallenge)) = some challenge →
      demoSigning.verify (demoSigning.publicKeyOf consumerKey) (signedPayload replayedRequest)
        (demoSigning.sign consumerKey challenge) = true →
      signedPayload replayedRequest = challenge := by
    intro challenge hchallenge hv
    rw [challengeIn_challengeMessage,Option.some.injEq] at hchallenge
    subst hchallenge
    have htag := (signedPayload_length replayedRequest).ne'
    simp [demoSigning,demoSign,drawnChallenge,htag] at hv
  have hnone := (handshake_signature_accepted_only_for_payload demoSigning demoSigning_lawful
    {demoLibs with introductionFromStr := fun _ => some replayedRequest} rfl
    ⟨fun _ => rfl,fun _ => rfl⟩ consumerKey (by decide) .tcp
    (.message (challengeMessage drawnChallenge)) _ _
    (by rw [demo_answer]; exact List.mem_singleton_self _) rfl replayedRequest rfl rfl
    hbinding).2 demoKeys "" 1000 rfl hok
  exact hnone.2 _ (challengeIn_challengeMessage _) (by decide)

end Demo

end Bonded.DomainSeparation
