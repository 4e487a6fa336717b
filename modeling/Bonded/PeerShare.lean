import Bonded.Bootstrap

/-! Peer sharing: the two payloads that are signed for an introduction, and the three places
where a signed introduction is checked. -/
namespace Bonded.PeerShare

open Auth Bootstrap JsonText Session

section Payloads

/-- The consumer signs the fields of its request, in the order of a sorted map. -/
def signedPayload (r : PeerShareIntroductionRequest) : List UInt8 :=
  toVec [("consumer_device_public_key",.text r.consumerDevicePublicKey),
    ("listener_cert_fingerprint",.text r.listenerCertFingerprint),
    ("listener_transport",.text r.listenerTransport),
    ("provider_device_public_key",.text r.providerDevicePublicKey),
    ("provider_endpoint",.text r.providerEndpoint),
    ("provider_instance_nonce",.text r.providerInstanceNonce)]

/-- The server signs the claims, in the order of the structure. -/
def signingPayload (claims : PeerShareIntroductionClaims) : List UInt8 :=
  toVec [("consumer_device_public_key",.text claims.consumerDevicePublicKey),
    ("provider_device_public_key",.text claims.providerDevicePublicKey),
    ("provider_instance_nonce",.text claims.providerInstanceNonce),
    ("provider_endpoint",.text claims.providerEndpoint),
    ("listener_transport",.text claims.listenerTransport),
    ("listener_cert_fingerprint",.text claims.listenerCertFingerprint),
    ("expires_at",.number claims.expiresAt)]

/-- The library prints objects as `JsonText` does. -/
structure SerdeText (libs : Libs) : Prop where
  signed : ∀ r, libs.signedPayload r = some (signedPayload r)
  signing : ∀ claims, libs.signingPayload claims = some (signingPayload claims)

/-- The claims that are issued for a request. -/
def claimsOf (r : PeerShareIntroductionRequest) (now : ℕ) : PeerShareIntroductionClaims :=
  ⟨r.consumerDevicePublicKey,r.providerDevicePublicKey,r.providerInstanceNonce,r.providerEndpoint,
    r.listenerTransport,r.listenerCertFingerprint,WireGuardRegistry.unixTimestampAfter now 300⟩

/-- Two requests agree in everything but the signature. -/
def SameFields (r r' : PeerShareIntroductionRequest) : Prop :=
  {r' with consumerSignature := r.consumerSignature} = r

/-- The consumer's signature is not part of what it signs. -/
theorem signedPayload_withSignature (r : PeerShareIntroductionRequest) (signature : String) :
    signedPayload {r with consumerSignature := signature} = signedPayload r := rfl

/-- The signature of a request covers exactly its fields. -/
theorem signedPayload_injective {r r' : PeerShareIntroductionRequest}
    (h : signedPayload r = signedPayload r') : SameFields r r' := by
  have hfields := toVec_injective h
  cases r
  cases r'
  simp_all [SameFields]

theorem signingPayload_injective {c c' : PeerShareIntroductionClaims}
    (h : signingPayload c = signingPayload c') : c = c' := by
  have hfields := toVec_injective h
  simp only [List.cons.injEq,Prod.mk.injEq,Value.text.injEq,Value.number.injEq,true_and,
    and_true] at hfields
  cases c
  cases c'
  simp_all

/-- When the server issues an introduction, and with which answer. -/
theorem peerShareIntroductionResponse_ok {libs : Libs} (hserde : SerdeText libs)
    {keys : Table String AuthorizedDevice} {body : String} {now : ℕ} {reply : Json} :
    peerShareIntroductionResponse libs keys body now = (.ok,reply) ↔ ∃ request signature,
      libs.introductionFromStr (trim body) = some request ∧
      ¬ (request.consumerDevicePublicKey = "" ∨ request.providerDevicePublicKey = "" ∨
        request.providerInstanceNonce = "" ∨ request.providerEndpoint = "" ∨
        request.listenerTransport = "" ∨ request.listenerCertFingerprint = "" ∨
        request.consumerSignature = "") ∧
      isAuthorized keys request.consumerDevicePublicKey = true ∧
      isAuthorized keys request.providerDevicePublicKey = true ∧
      verifySignature libs.crypto request.consumerDevicePublicKey (signedPayload request)
        request.consumerSignature = .ok () ∧
      libs.signBytes (signingPayload (claimsOf request now)) = some signature ∧
      libs.introductionToJson (claimsOf request now) signature = some reply := by
  constructor
  · intro h
    unfold peerShareIntroductionResponse at h
    split at h
    · cases h
    · next request hrequest =>
      split at h
      · cases h
      · next hfields =>
        split at h
        · cases h
        · next hauth =>
          simp only [hserde.signed,hserde.signing] at h
          split at h
          · cases h
          · next hverified =>
            split at h
            · cases h
            · next signature hsign =>
              split at h
              · cases h
              · next hreply =>
                cases h
                have hboth := not_not.mp hauth
                exact ⟨request,signature,hrequest,hfields,hboth.1,hboth.2,hverified,hsign,hreply⟩
  · rintro ⟨request,signature,hrequest,hfields,hconsumer,hprovider,hverified,hsign,hreply⟩
    unfold claimsOf at hsign hreply
    simp only [peerShareIntroductionResponse,hrequest,hserde.signed,hserde.signing,hverified,
      hsign,hreply,if_neg hfields,hconsumer,hprovider,and_self,not_true,if_false]

end Payloads

structure SignedPeerShareIntroduction where
  introduction : PeerShareIntroductionClaims
  serverSignature : String
  deriving DecidableEq, Repr

structure PeerListenerIdentity where
  providerDevicePublicKey : String
  instanceNonce : String
  listenerTransport : String
  listenerCertFingerprint : String
  deriving DecidableEq, Repr

structure SessionBinding where
  clientPublicKey : String
  initialFrame : Option SessionFrame
  relayedViaProvider : Bool
  deriving DecidableEq, Repr

section Verifiers

variable (libs : Libs) (serverPublicKey : String)

/-- An error is its text, `none` where the cause of a library is passed on. -/
abbrev Outcome (α : Type) := Except (Option String) α

def verifyServerSignature (text : Option String) (i : SignedPeerShareIntroduction) :
    Outcome Unit :=
  match libs.signingPayload i.introduction with
  | none => .error none
  | some payload =>
    match verifySignature libs.crypto serverPublicKey payload i.serverSignature with
    | .error _ => .error text
    | .ok _ => .ok ()

/-- A clock before the epoch, `none`, is an error. -/
def ensureNotExpired (text : String) (expiresAt : ℕ) (clock : Option ℕ) : Outcome Unit :=
  match clock with
  | none => .error none
  | some now => if expiresAt ≤ now then .error (some text) else .ok ()

def verifyRelayRegistration (i : SignedPeerShareIntroduction) (authenticatedProviderKey : String)
    (clock : Option ℕ) : Outcome Unit := do
  verifyServerSignature libs serverPublicKey
    (some "peer relay introduction signature verification failed") i
  if i.introduction.providerDevicePublicKey ≠ authenticatedProviderKey then
    throw (some ("peer relay introduction provider key mismatch: expected "++
      authenticatedProviderKey++", got "++i.introduction.providerDevicePublicKey))
  ensureNotExpired "peer relay introduction expired" i.introduction.expiresAt clock

/-- Bind the session of an authenticated peer by its first frame, `none` if that cannot be
received; `fromSlice` reads the introduction in a registration. -/
def resolveSessionBinding (fromSlice : List UInt8 → Option SignedPeerShareIntroduction)
    (authenticatedPublicKey : String) (frame : Option SessionFrame) (clock : Option ℕ) :
    Outcome SessionBinding :=
  match frame with
  | none => .error (some "failed to receive initial session frame")
  | some first =>
    if first.header.flags &&& flagPeerRelayRegistration = 0 then
      .ok ⟨authenticatedPublicKey,some first,false⟩
    else
      match fromSlice first.payload with
      | none => .error (some "invalid peer relay registration control frame")
      | some i =>
        match verifyRelayRegistration libs serverPublicKey i authenticatedPublicKey clock with
        | .error e => .error e
        | .ok _ => .ok ⟨i.introduction.consumerDevicePublicKey,none,true⟩

def verifyConsumerIntroduction (expectedProviderDevicePublicKey : String)
    (i : SignedPeerShareIntroduction) (clock : Option ℕ) : Outcome Unit := do
  verifyServerSignature libs serverPublicKey none i
  if i.introduction.providerDevicePublicKey ≠ expectedProviderDevicePublicKey then
    throw (some "peer introduction provider key mismatch")
  ensureNotExpired "peer introduction has expired" i.introduction.expiresAt clock

def verifyProviderIntroduction (listener : PeerListenerIdentity)
    (i : SignedPeerShareIntroduction) (clock : Option ℕ) : Outcome Unit := do
  verifyServerSignature libs serverPublicKey none i
  if i.introduction.providerDevicePublicKey ≠ listener.providerDevicePublicKey then
    throw (some "peer introduction was not issued for this provider device")
  if i.introduction.providerInstanceNonce ≠ listener.instanceNonce then
    throw (some "peer introduction instance nonce mismatch")
  if i.introduction.listenerTransport ≠ listener.listenerTransport then
    throw (some "peer introduction listener transport mismatch")
  if i.introduction.listenerCertFingerprint ≠ listener.listenerCertFingerprint then
    throw (some "peer introduction listener cert fingerprint mismatch")
  ensureNotExpired "peer introduction has expired" i.introduction.expiresAt clock

variable {libs serverPublicKey}

variable {i : SignedPeerShareIntroduction} {clock : Option ℕ}

theorem verifyServerSignature_ok {text : Option String} (hserde : SerdeText libs) :
    verifyServerSignature libs serverPublicKey text i = .ok () ↔
      verifySignature libs.crypto serverPublicKey (signingPayload i.introduction)
        i.serverSignature = .ok () := by
  simp only [verifyServerSignature,hserde.signing]
  split <;> simp_all

theorem ensureNotExpired_ok {text : String} {expiresAt : ℕ} :
    ensureNotExpired text expiresAt clock = .ok () ↔ ∃ now, clock = some now ∧ now < expiresAt := by
  cases clock with
  | none => simp [ensureNotExpired]
  | some now =>
    by_cases h : expiresAt ≤ now
    · simp [ensureNotExpired,h]
    · simp only [ensureNotExpired,if_neg h,Option.some.injEq]
      exact ⟨fun _ => ⟨now,rfl,by omega⟩,fun _ => trivial⟩

theorem guard_ok {p : Prop} [Decidable p] {text : Option String} {rest : Outcome Unit} :
    (do if p then throw text
        rest) = .ok () ↔ ¬ p ∧ rest = .ok () := by
  by_cases h : p
  · simp [h,bind,Except.bind,throw,throwThe,MonadExceptOf.throw]
  · simp [h]

theorem bind_ok {first rest : Outcome Unit} :
    (do first
        rest) = .ok () ↔ first = .ok () ∧ rest = .ok () := by
  cases first with
  | error e => simp [bind,Except.bind]
  | ok u => simp [bind,Except.bind]

theorem verifyRelayRegistration_ok {provider : String} (hserde : SerdeText libs) :
    verifyRelayRegistration libs serverPublicKey i provider clock = .ok () ↔
      verifySignature libs.crypto serverPublicKey (signingPayload i.introduction)
        i.serverSignature = .ok () ∧
      i.introduction.providerDevicePublicKey = provider ∧
      ∃ now, clock = some now ∧ now < i.introduction.expiresAt := by
  unfold verifyRelayRegistration
  rw [bind_ok,verifyServerSignature_ok hserde,guard_ok,ensureNotExpired_ok,not_not]

theorem verifyConsumerIntroduction_ok {provider : String} (hserde : SerdeText libs) :
    verifyConsumerIntroduction libs serverPublicKey provider i clock = .ok () ↔
      verifySignature libs.crypto serverPublicKey (signingPayload i.introduction)
        i.serverSignature = .ok () ∧
      i.introduction.providerDevicePublicKey = provider ∧
      ∃ now, clock = some now ∧ now < i.introduction.expiresAt := by
  unfold verifyConsumerIntroduction
  rw [bind_ok,verifyServerSignature_ok hserde,guard_ok,ensureNotExpired_ok,not_not]

theorem verifyProviderIntroduction_ok {listener : PeerListenerIdentity} (hserde : SerdeText libs) :
    verifyProviderIntroduction libs serverPublicKey listener i clock = .ok () ↔
      verifySignature libs.crypto serverPublicKey (signingPayload i.introduction)
        i.serverSignature = .ok () ∧
      i.introduction.providerDevicePublicKey = listener.providerDevicePublicKey ∧
      i.introduction.providerInstanceNonce = listener.instanceNonce ∧
      i.introduction.listenerTransport = listener.listenerTransport ∧
      i.introduction.listenerCertFingerprint = listener.listenerCertFingerprint ∧
      ∃ now, clock = some now ∧ now < i.introduction.expiresAt := by
  unfold verifyProviderIntroduction
  simp only [bind_ok,verifyServerSignature_ok hserde,guard_ok,ensureNotExpired_ok,not_not]

end Verifiers

end Bonded.PeerShare
