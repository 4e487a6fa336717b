import Bonded.ClientHandshake
import Bonded.PeerShare

/-! Signed introductions from the server through two peers and back. The server's identity
key signs introductions and the fingerprints of cert-proofs, and nothing else; whoever holds
an introduction may change it and present it to any of the three verifiers. -/
namespace Bonded.RelayBinding

open Auth Bootstrap ClientHandshake JsonText Machine PeerShare Session

/-- The authorized keys, and the messages whose signature the server has given out. -/
structure System where
  keys : Table String AuthorizedDevice
  released : List (List UInt8)

inductive Event
  | setKeys (keys : Table String AuthorizedDevice)
  | introduce (body : String) (now : ℕ)
  | certProof
  | bind (provider : String) (frame : Option SessionFrame) (clock : Option ℕ)
  | consumer (provider : String) (introduction : SignedPeerShareIntroduction) (clock : Option ℕ)
  | provider (listener : PeerListenerIdentity) (introduction : SignedPeerShareIntroduction)
      (clock : Option ℕ)

section Run

variable (libs : Libs) (ctx : BootstrapContext) (serverPublicKey : String)
  (fromSlice : List UInt8 → Option SignedPeerShareIntroduction)

/-- The claims in the server's answer to a request for an introduction. -/
def introduced (keys : Table String AuthorizedDevice) (body : String) (now : ℕ) :
    Option PeerShareIntroductionClaims :=
  if (peerShareIntroductionResponse libs keys body now).1 = .ok then
    (libs.introductionFromStr (trim body)).map fun request => claimsOf request now
  else none

/-- One event. Verifying changes nothing; what a verifier accepts is in its own function. -/
def step (s : System) : Event → Option System
  | .setKeys keys => some {s with keys := keys}
  | .introduce body now =>
    match introduced libs s.keys body now with
    | none => some s
    | some claims => some {s with released := signingPayload claims::s.released}
  | .certProof =>
    match certProof libs ctx with
    | some (some (fingerprint,_)) => some {s with released := utf8 fingerprint::s.released}
    | _ => some s
  | .bind _ _ _ | .consumer _ _ _ | .provider _ _ _ => some s

def initial (keys : Table String AuthorizedDevice) : System := ⟨keys,[]⟩

/-- The introduction that an event puts before a verifier. -/
def presented : Event → Option SignedPeerShareIntroduction
  | .bind _ frame _ => frame.bind fun first => fromSlice first.payload
  | .consumer _ i _ | .provider _ i _ => some i
  | _ => none

/-- Nobody makes signatures of the server: one that verifies is over a message that the
server has signed. -/
def Unforgeable (s : System) (e : Event) : Prop :=
  ∀ i, presented fromSlice e = some i →
    verifySignature libs.crypto serverPublicKey (signingPayload i.introduction)
      i.serverSignature = .ok () → signingPayload i.introduction ∈ s.released

/-- Earlier in the run the server answered a request with exactly these claims: both devices
were authorized then, and the consumer had signed exactly the fields of the request. -/
def IssuedBefore (keys : Table String AuthorizedDevice) (events : List Event)
    (claims : PeerShareIntroductionClaims) : Prop :=
  ∃ before body now s request reply signature,
    before++[.introduce body now] <+: events ∧
    exec (step libs ctx) (initial keys) before = some s ∧
    libs.introductionFromStr (trim body) = some request ∧ claims = claimsOf request now ∧
    peerShareIntroductionResponse libs s.keys body now = (.ok,reply) ∧
    libs.signBytes (signingPayload claims) = some signature ∧
    libs.introductionToJson claims signature = some reply ∧
    isAuthorized s.keys claims.consumerDevicePublicKey = true ∧
    isAuthorized s.keys claims.providerDevicePublicKey = true ∧
    verifySignature libs.crypto claims.consumerDevicePublicKey (signedPayload request)
      request.consumerSignature = .ok () ∧
    ∀ other, signedPayload other = signedPayload request → SameFields other request

variable {libs ctx serverPublicKey fromSlice}

variable {body : String} {keys : Table String AuthorizedDevice} {now : ℕ}
  {claims : PeerShareIntroductionClaims} {events : List Event} {s : System}

/-- What the answer `ok` to a request for an introduction contains. -/
theorem introduction_reply (hserde : SerdeText libs)
    (h : (peerShareIntroductionResponse libs keys body now).1 = .ok) :
    ∃ request reply signature, libs.introductionFromStr (trim body) = some request ∧
      peerShareIntroductionResponse libs keys body now = (.ok,reply) ∧
      libs.signBytes (signingPayload (claimsOf request now)) = some signature ∧
      libs.introductionToJson (claimsOf request now) signature = some reply ∧
      isAuthorized keys request.consumerDevicePublicKey = true ∧
      isAuthorized keys request.providerDevicePublicKey = true ∧
      verifySignature libs.crypto request.consumerDevicePublicKey (signedPayload request)
        request.consumerSignature = .ok () := by
  obtain ⟨reply,hreply⟩ : ∃ reply, peerShareIntroductionResponse libs keys body now = (.ok,reply) :=
    ⟨_,Prod.ext h rfl⟩
  obtain ⟨request,signature,hrequest,-,hconsumer,hprovider,hverified,hsign,hjson⟩ :=
    (peerShareIntroductionResponse_ok hserde).mp hreply
  exact ⟨request,reply,signature,hrequest,hreply,hsign,hjson,hconsumer,hprovider,hverified⟩

/-- The claims of a request that is answered with `ok`. -/
theorem introduced_of_reply {request : PeerShareIntroductionRequest} {reply : Json}
    (hrequest : libs.introductionFromStr (trim body) = some request)
    (h : peerShareIntroductionResponse libs keys body now = (.ok,reply)) :
    introduced libs keys body now = some (claimsOf request now) := by
  simp [introduced,h,hrequest]

theorem IssuedBefore.append (h : IssuedBefore libs ctx keys events claims) (more : List Event) :
    IssuedBefore libs ctx keys (events++more) claims := by
  obtain ⟨before,body,now,s,request,reply,signature,hbefore,hrest⟩ := h
  exact ⟨before,body,now,s,request,reply,signature,hbefore.trans (List.prefix_append _ _),hrest⟩

/-- Every message that the server has signed is a fingerprint or the payload of an
introduction that it has issued. -/
def Traced (libs : Libs) (ctx : BootstrapContext) (keys : Table String AuthorizedDevice)
    (events : List Event) (s : System) : Prop :=
  ∀ m ∈ s.released, (∃ claims, m = signingPayload claims ∧ IssuedBefore libs ctx keys events claims) ∨
    ∃ fingerprint, m = utf8 fingerprint ∧ fingerprint.toList.head? = some 's'

theorem Traced.append (h : Traced libs ctx keys events s) (more : List Event) :
    Traced libs ctx keys (events++more) s := by
  intro m hm
  exact (h m hm).imp (fun ⟨claims,heq,hissued⟩ => ⟨claims,heq,hissued.append more⟩) id

theorem traced_step {t : System} {e : Event} (hserde : SerdeText libs)
    (hexec : exec (step libs ctx) (initial keys) events = some s)
    (hs : Traced libs ctx keys events s) (h : step libs ctx s e = some t) :
    Traced libs ctx keys (events++[e]) t := by
  have hlater := hs.append [e]
  cases e with
  | setKeys | bind | consumer | provider => cases h; exact hlater
  | introduce body now =>
    simp only [step] at h
    split at h
    · cases h; exact hlater
    · next claims hclaims =>
      cases h
      intro m hm
      rcases List.mem_cons.mp hm with rfl | hm
      · unfold introduced at hclaims
        split at hclaims
        · next hok =>
          obtain ⟨request,reply,signature,hrequest,hreply,hsign,hjson,hc,hp,hv⟩ :=
            introduction_reply hserde hok
          rw [hrequest,Option.map_some,Option.some.injEq] at hclaims
          subst hclaims
          exact .inl ⟨_,rfl,events,body,now,s,request,reply,signature,List.prefix_refl _,hexec,
            hrequest,rfl,hreply,hsign,hjson,hc,hp,hv,fun _ => signedPayload_injective⟩
        · cases hclaims
      · exact hlater m hm
  | certProof =>
    simp only [step] at h
    split at h
    · next fingerprint signature hproof =>
      cases h
      intro m hm
      rcases List.mem_cons.mp hm with rfl | hm
      · refine .inr ⟨fingerprint,rfl,?_⟩
        obtain ⟨der,-,hder⟩ := Option.map_eq_some_iff.mp hproof
        obtain ⟨sig,-,heq⟩ := Option.map_eq_some_iff.mp hder
        cases heq
        simp
      · exact hlater m hm
    · cases h; exact hlater

theorem issued_of_released (hs : Traced libs ctx keys events s)
    (h : signingPayload claims ∈ s.released) : IssuedBefore libs ctx keys events claims := by
  rcases hs _ h with ⟨claims',heq,hissued⟩ | ⟨fingerprint,heq,hhead⟩
  · rw [signingPayload_injective heq]
    exact hissued
  · exact absurd heq (toVec_ne_utf8 (by simp [hhead]))

variable (libs ctx serverPublicKey fromSlice) in
/-- What follows when a verifier accepts at this point of the run. -/
def Sound (keys : Table String AuthorizedDevice) (events : List Event) : Event → Prop
  | .bind provider frame clock => ∀ b,
    resolveSessionBinding libs serverPublicKey fromSlice provider frame clock = .ok b →
    b.relayedViaProvider = true ∨ b.clientPublicKey ≠ provider →
    ∃ i now, presented fromSlice (.bind provider frame clock) = some i ∧
      i.introduction.consumerDevicePublicKey = b.clientPublicKey ∧
      i.introduction.providerDevicePublicKey = provider ∧
      clock = some now ∧ now < i.introduction.expiresAt ∧
      IssuedBefore libs ctx keys events i.introduction
  | .consumer provider i clock =>
    verifyConsumerIntroduction libs serverPublicKey provider i clock = .ok () →
      i.introduction.providerDevicePublicKey = provider ∧
      (∃ now, clock = some now ∧ now < i.introduction.expiresAt) ∧
      IssuedBefore libs ctx keys events i.introduction
  | .provider listener i clock =>
    verifyProviderIntroduction libs serverPublicKey listener i clock = .ok () →
      i.introduction.providerDevicePublicKey = listener.providerDevicePublicKey ∧
      i.introduction.providerInstanceNonce = listener.instanceNonce ∧
      i.introduction.listenerTransport = listener.listenerTransport ∧
      i.introduction.listenerCertFingerprint = listener.listenerCertFingerprint ∧
      (∃ now, clock = some now ∧ now < i.introduction.expiresAt) ∧
      IssuedBefore libs ctx keys events i.introduction
  | _ => True

/-- A binding is to the peer's own key, or comes from a verified registration. -/
theorem resolveSessionBinding_ok {provider : String} {frame : Option SessionFrame}
    {clock : Option ℕ} {b : SessionBinding}
    (h : resolveSessionBinding libs serverPublicKey fromSlice provider frame clock = .ok b) :
    b = ⟨provider,frame,false⟩ ∨ ∃ i, presented fromSlice (.bind provider frame clock) = some i ∧
      b.clientPublicKey = i.introduction.consumerDevicePublicKey ∧
      verifyRelayRegistration libs serverPublicKey i provider clock = .ok () := by
  unfold resolveSessionBinding at h
  split at h
  · cases h
  · next first =>
    split at h
    · cases h
      exact .inl rfl
    · split at h
      · cases h
      · next i hi =>
        split at h
        · cases h
        · next hverified =>
          cases h
          exact .inr ⟨i,hi,rfl,hverified⟩

/-- A verified registration binds the session to its consumer. -/
theorem resolveSessionBinding_relay {provider : String} {first : SessionFrame} {clock : Option ℕ}
    {i : SignedPeerShareIntroduction} (hflag : first.header.flags &&& flagPeerRelayRegistration ≠ 0)
    (hi : fromSlice first.payload = some i)
    (hverified : verifyRelayRegistration libs serverPublicKey i provider clock = .ok ()) :
    resolveSessionBinding libs serverPublicKey fromSlice provider (some first) clock =
      .ok ⟨i.introduction.consumerDevicePublicKey,none,true⟩ := by
  simp [resolveSessionBinding,hflag,hi,hverified]

theorem sound_now {e : Event} (hserde : SerdeText libs) (hs : Traced libs ctx keys events s)
    (hg : Unforgeable libs serverPublicKey fromSlice s e) :
    Sound libs ctx serverPublicKey fromSlice keys events e := by
  cases e with
  | setKeys | introduce | certProof => trivial
  | bind provider frame clock =>
    intro b hb hrelayed
    rcases resolveSessionBinding_ok hb with rfl | ⟨i,hi,hkey,hverified⟩
    · simp at hrelayed
    · obtain ⟨hsig,hprovider,now,hclock,hexp⟩ := (verifyRelayRegistration_ok hserde).mp hverified
      exact ⟨i,now,hi,hkey.symm,hprovider,hclock,hexp,issued_of_released hs (hg i hi hsig)⟩
  | consumer provider i clock =>
    intro hverified
    obtain ⟨hsig,hprovider,hexp⟩ := (verifyConsumerIntroduction_ok hserde).mp hverified
    exact ⟨hprovider,hexp,issued_of_released hs (hg i rfl hsig)⟩
  | provider listener i clock =>
    intro hverified
    obtain ⟨hsig,hprovider,hnonce,htransport,hcert,hexp⟩ :=
      (verifyProviderIntroduction_ok hserde).mp hverified
    exact ⟨hprovider,hnonce,htransport,hcert,hexp,issued_of_released hs (hg i rfl hsig)⟩

theorem step_introduce (h : introduced libs s.keys body now = some claims) :
    step libs ctx s (.introduce body now) =
      some {s with released := signingPayload claims::s.released} := by
  simp [step,h]

theorem step_total (s : System) (e : Event) : ∃ t, step libs ctx s e = some t := by
  cases e <;> simp only [step] <;> (try split) <;> exact ⟨_,rfl⟩

end Run

/-- In every run of requests, cert-proofs, changes of the authorized keys and presented
introductions, an introduction that one of the three verifiers accepts was issued by the
server before, field by field, for authorized devices and under the consumer's signature,
and has not expired. -/
theorem relay_binding_sound (libs : Libs) (hserde : SerdeText libs) (ctx : BootstrapContext)
    (serverPublicKey : String) (fromSlice : List UInt8 → Option SignedPeerShareIntroduction)
    (keys : Table String AuthorizedDevice) (events : List Event)
    (hunforgeable : Meets (step libs ctx) (Unforgeable libs serverPublicKey fromSlice)
      (initial keys) events) (done : List Event) (e : Event) (hdone : done++[e] <+: events) :
    Sound libs ctx serverPublicKey fromSlice keys done e := by
  obtain ⟨s,hexec⟩ := exec_total step_total (initial keys) done
  obtain ⟨rest,rfl⟩ := hdone
  rw [List.append_assoc] at hunforgeable
  have htraced : Traced libs ctx keys done s :=
    exec_history (P := Traced libs ctx keys) (by intro m hm; cases hm)
      (fun _ _ _ _ hexec hs h => traced_step hserde hexec hs h) hexec
  exact sound_now hserde htraced (meets_append hexec hunforgeable).2.1

section Demo

def consumerKey : List UInt8 := List.replicate 32 99

def providerKey : List UInt8 := List.replicate 32 112

def serverKey : List UInt8 := List.replicate 32 115

/-- A consumer asks for an introduction to a provider. -/
def unsignedRequest : PeerShareIntroductionRequest :=
  ⟨(fromSigningKey demoSigning consumerKey).publicKeyB64,
    (fromSigningKey demoSigning providerKey).publicKeyB64,"nonce","192.0.2.7:4433","quic",
    "sha256:00",""⟩

def demoRequest : PeerShareIntroductionRequest :=
  {unsignedRequest with consumerSignature :=
    demoSigning.encodeStandard (demoSigning.sign consumerKey (signedPayload unsignedRequest))}

theorem signedPayload_demoRequest : signedPayload demoRequest = signedPayload unsignedRequest := by
  rw [demoRequest,signedPayload_withSignature]

def demoLibs : Libs where
  crypto := demoSigning.toCrypto
  fromStr _ := none
  introductionFromStr _ := some demoRequest
  signedPayload r := some (signedPayload r)
  signingPayload claims := some (signingPayload claims)
  introductionToJson _ signature := some (.obj [("server_signature",.str signature)])
  sha256 bytes := bytes
  signBytes message := some (demoSigning.encodeStandard (demoSigning.sign serverKey message))

def demoContext : BootstrapContext := ⟨none,"",none,none,0⟩

def demoKeys : Table String AuthorizedDevice :=
  devicesMap [newDevice (fromSigningKey demoSigning consumerKey).publicKeyB64,
    newDevice (fromSigningKey demoSigning providerKey).publicKeyB64]

/-- The introduction that the server gives out at second 1000. -/
def demoIntroduction : SignedPeerShareIntroduction :=
  ⟨claimsOf demoRequest 1000,demoSigning.encodeStandard
    (demoSigning.sign serverKey (signingPayload (claimsOf demoRequest 1000)))⟩

theorem encoded_signature_ne_empty (key message : List UInt8) :
    demoSigning.encodeStandard (demoSigning.sign key message) ≠ "" := by
  intro hempty
  have hread := demoSigning_lawful.standard (demoSigning.sign key message)
  rw [hempty] at hread
  have hlength := demoSigning_lawful.signature key message
  rw [← Option.some.inj hread] at hlength
  cases hlength

theorem demo_introduced : introduced demoLibs demoKeys "" 1000 = some (claimsOf demoRequest 1000) := by
  have hverify : verifySignature demoLibs.crypto demoRequest.consumerDevicePublicKey
      (signedPayload demoRequest) demoRequest.consumerSignature = .ok () := by
    rw [signedPayload_demoRequest]
    exact verifySignature_sign demoSigning_lawful (by decide) _
  have hconsumer : isAuthorized demoKeys demoRequest.consumerDevicePublicKey = true := rfl
  have hprovider : isAuthorized demoKeys demoRequest.providerDevicePublicKey = true := rfl
  have hfields : ¬ (demoRequest.consumerDevicePublicKey = "" ∨
      demoRequest.providerDevicePublicKey = "" ∨ demoRequest.providerInstanceNonce = "" ∨
      demoRequest.providerEndpoint = "" ∨ demoRequest.listenerTransport = "" ∨
      demoRequest.listenerCertFingerprint = "" ∨ demoRequest.consumerSignature = "") := by
    have hsig : demoRequest.consumerSignature ≠ "" := encoded_signature_ne_empty _ _
    simp only [not_or]
    exact ⟨by decide +kernel,by decide +kernel,by decide,by decide,by decide,by decide,hsig⟩
  have hserde : SerdeText demoLibs := ⟨fun _ => rfl,fun _ => rfl⟩
  exact introduced_of_reply rfl ((peerShareIntroductionResponse_ok hserde).mpr
    ⟨demoRequest,_,rfl,hfields,hconsumer,hprovider,hverify,rfl,rfl⟩)

/-- The provider registers the introduction with the server, and the session is bound to the
consumer. -/
theorem demo_binding_is_sound :
    let fromSlice := fun _ : List UInt8 => some demoIntroduction
    let server := (fromSigningKey demoSigning serverKey).publicKeyB64
    let provider := (fromSigningKey demoSigning providerKey).publicKeyB64
    let frame : Option SessionFrame := some ⟨⟨0,0,flagPeerRelayRegistration⟩,[]⟩
    resolveSessionBinding demoLibs server fromSlice provider frame (some 1100) =
      .ok ⟨(fromSigningKey demoSigning consumerKey).publicKeyB64,none,true⟩ ∧
    IssuedBefore demoLibs demoContext demoKeys [.introduce "" 1000] demoIntroduction.introduction := by
  intro fromSlice server provider frame
  have hserde : SerdeText demoLibs := ⟨fun _ => rfl,fun _ => rfl⟩
  have hsig : verifySignature demoLibs.crypto server (signingPayload demoIntroduction.introduction)
      demoIntroduction.serverSignature = .ok () :=
    verifySignature_sign demoSigning_lawful (by decide) _
  have hverified : verifyRelayRegistration demoLibs server demoIntroduction provider (some 1100) =
      .ok () :=
    (verifyRelayRegistration_ok hserde).mpr ⟨hsig,rfl,1100,rfl,by decide⟩
  have hbound : resolveSessionBinding demoLibs server fromSlice provider frame (some 1100) =
      .ok ⟨(fromSigningKey demoSigning consumerKey).publicKeyB64,none,true⟩ :=
    resolveSessionBinding_relay (by decide) rfl hverified
  have hunforgeable : Meets (step demoLibs demoContext) (Unforgeable demoLibs server fromSlice)
      (initial demoKeys) [.introduce "" 1000,.bind provider frame (some 1100)] := by
    refine ⟨by rintro i ⟨⟩,fun t ht => ⟨?_,fun _ _ => trivial⟩⟩
    rw [step_introduce demo_introduced,Option.some.injEq] at ht
    subst ht
    rintro i ⟨⟩ -
    exact List.mem_cons_self
  obtain ⟨i,now,hi,-,-,-,-,hissued⟩ := relay_binding_sound demoLibs hserde demoContext server
    fromSlice demoKeys _ hunforgeable [.introduce "" 1000] _ (List.prefix_refl _) _ hbound (.inl rfl)
  cases hi
  exact ⟨hbound,hissued⟩

end Demo

end Bonded.RelayBinding
