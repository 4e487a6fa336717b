import Bonded.ClientHandshake

/-! Client and server against each other, over two reliable in-order channels. Each party
reads the next message of the other, or the end of the connection once the other has stopped
and nothing is left to read. Sends and writes succeed. -/
namespace Bonded.HandshakeAgreement

open Auth AuthHandshake Bootstrap ClientHandshake Machine

inductive Party
  | client
  | server
  deriving DecidableEq

structure System where
  client : ClientPhase
  toServer : List Json
  toClient : List Json
  stores : AuthHandshake.Stores
  server : Phase

def clientEnded : ClientPhase → Bool
  | .done | .failed _ => true
  | _ => false

def serverEnded : Phase → Bool
  | .done _ _ _ | .failed _ => true
  | _ => false

/-- The next message of a channel, with what is left of it. -/
def receive (peerEnded : Bool) : List Json → Option (Incoming Json × List Json)
  | v::rest => some (.message v,rest)
  | [] => if peerEnded then some (.closed,[]) else none

section Steps

variable (c : Signing) (kind : TransportKind) (keypair : DeviceKeypair) (raw : List UInt8)

def clientStep (s : System) : Option System :=
  match s.client with
  | .awaitChallenge => (receive (serverEnded s.server) s.toClient).map fun r =>
    let a := (ClientHandshake.perform c keypair kind).onChallenge r.1
    {s with client := a.1, toClient := r.2, toServer := s.toServer++a.2}
  | .awaitResult => (receive (serverEnded s.server) s.toClient).map fun r =>
    {s with client := (ClientHandshake.perform c keypair kind).onResult r.1, toClient := r.2}
  | .done | .failed _ => none

/-- What the server does next, with what is left of its channel; `raw` is the challenge that
it draws. -/
def serverInput (s : System) : Option (Input × List Json) :=
  match s.server with
  | .awaitHello => (receive (clientEnded s.client) s.toServer).map fun r =>
    (.hello (incoming helloFromJson r.1),r.2)
  | .awaitProof _ _ => (receive (clientEnded s.client) s.toServer).map fun r =>
    (.proof (incoming proofFromJson r.1),r.2)
  | .issue _ => some (.challenge raw true,s.toServer)
  | .done _ _ _ | .failed _ => none
  | _ => some (.advance true,s.toServer)

def serverStep (s : System) : Option System :=
  (serverInput raw s).bind fun i =>
    (AuthHandshake.perform c.toCrypto kind s.stores s.server i.1).map fun r =>
      {s with
        stores := r.1, server := r.2.1, toServer := i.2
        toClient := s.toClient++r.2.2.map serverMessageToJson}

def step (s : System) : Party → Option System
  | .client => clientStep c kind keypair s
  | .server => serverStep c kind raw s

def start (inviteToken : String) (stores : AuthHandshake.Stores) : System :=
  ⟨.awaitChallenge,[(ClientHandshake.perform c keypair kind).first inviteToken],[],stores,
    .awaitHello⟩

end Steps

/-- Both sides return `Ok`, and the server has the key of the device. -/
def BothOk (keypair : DeviceKeypair) (s : System) : Prop :=
  s.client = .done ∧ ∃ hello raw signature, s.server = .done hello raw signature ∧
    hello.publicKeyB64 = keypair.publicKeyB64

def BothErr (s : System) : Prop :=
  (∃ text, s.client = .failed text) ∧ ∃ text, s.server = .failed text

/-- The token can be redeemed: it is not blank, and the file has it with a use left. -/
def Redeemable (stores : AuthHandshake.Stores) (inviteToken : String) : Prop :=
  isBlank inviteToken = false ∧ ∃ n, usesLeft stores.tokensFile inviteToken = some n ∧ n ≠ 0

def Admissible (stores : AuthHandshake.Stores) (keypair : DeviceKeypair) (inviteToken : String) :
    Prop :=
  isAuthorized stores.devices keypair.publicKeyB64 = true ∨ Redeemable stores inviteToken

/-- Every run is short, and every run that cannot go on has the right result on both sides. -/
def Agrees (c : Signing) (kind : TransportKind) (keypair : DeviceKeypair) (raw : List UInt8)
    (inviteToken : String) (stores : AuthHandshake.Stores) : Prop :=
  ∀ schedule s,
    exec (step c kind keypair raw) (start c kind keypair inviteToken stores) schedule = some s →
    schedule.length ≤ 16 ∧ ((∀ p, step c kind keypair raw s p = none) →
      (Admissible stores keypair inviteToken → BothOk keypair s) ∧
      (¬ Admissible stores keypair inviteToken → BothErr s))

section Runs

variable {c : Signing} {kind : TransportKind} {keypair : DeviceKeypair} {raw : List UInt8}

/-- The client waits for the server's first message. -/
def waiting (stores : AuthHandshake.Stores) (phase : Phase) : System :=
  ⟨.awaitChallenge,[],[],stores,phase⟩

variable {s u : System} {P : System → Prop} {n : ℕ} {stores : AuthHandshake.Stores}
  {hello : ClientHello} {key : List UInt8} {inviteToken : String}

theorem only_server {t : System} {es : List Party} (hc : clientStep c kind keypair s = none)
    (hs : serverStep c kind raw s = some u) (h : OnlyRun (step c kind keypair raw) t u es) :
    OnlyRun (step c kind keypair raw) t s (.server::es) := by
  refine ⟨fun p hp => ?_,u,hs,h⟩
  cases p with
  | client => exact hc
  | server => exact absurd rfl hp

theorem only_client {t : System} {es : List Party} (hs : serverStep c kind raw s = none)
    (hc : clientStep c kind keypair s = some u) (h : OnlyRun (step c kind keypair raw) t u es) :
    OnlyRun (step c kind keypair raw) t s (.client::es) := by
  refine ⟨fun p hp => ?_,u,hc,h⟩
  cases p with
  | client => exact absurd rfl hp
  | server => exact hs

theorem only_end (hc : clientStep c kind keypair s = none) (hs : serverStep c kind raw s = none) :
    OnlyRun (step c kind keypair raw) s s [] := by
  refine ⟨rfl,fun p => ?_⟩
  cases p with
  | client => exact hc
  | server => exact hs

variable (c kind keypair raw) in
/-- The only run from `s` has at most `n` steps and ends in a state with the property. -/
def Ends (P : System → Prop) (n : ℕ) (s : System) : Prop :=
  ∃ es t, OnlyRun (step c kind keypair raw) t s es ∧ es.length ≤ n ∧ P t

theorem Ends.server (hc : clientStep c kind keypair s = none)
    (hs : serverStep c kind raw s = some u) (h : Ends c kind keypair raw P n u) :
    Ends c kind keypair raw P (n+1) s := by
  obtain ⟨es,t,hrun,hlen,ht⟩ := h
  exact ⟨_,t,only_server hc hs hrun,Nat.succ_le_succ hlen,ht⟩

theorem Ends.client (hs : serverStep c kind raw s = none)
    (hc : clientStep c kind keypair s = some u) (h : Ends c kind keypair raw P n u) :
    Ends c kind keypair raw P (n+1) s := by
  obtain ⟨es,t,hrun,hlen,ht⟩ := h
  exact ⟨_,t,only_client hs hc hrun,Nat.succ_le_succ hlen,ht⟩

theorem Ends.stop (hc : clientStep c kind keypair s = none) (hs : serverStep c kind raw s = none)
    (h : P s) : Ends c kind keypair raw P n s :=
  ⟨[],s,only_end hc hs,Nat.zero_le _,h⟩

/-- An internal step of the server while the client waits. -/
theorem Ends.advance {phase : Phase} (st : AuthHandshake.Stores) (next : Phase)
    (hended : serverEnded phase = false)
    (hin : serverInput raw (waiting stores phase) = some (.advance true,[]))
    (hadv : AuthHandshake.advance kind stores true phase = some (st,next,[]))
    (h : Ends c kind keypair raw P n (waiting st next)) :
    Ends c kind keypair raw P (n+1) (waiting stores phase) := by
  refine .server (u := waiting st next) ?_ ?_ h
  · simp [clientStep,waiting,receive,hended]
  · simp [serverStep,hin,perform_eq,handshake]
    simp [waiting,hadv]

/-- A server that has failed before its first message: the client reads the end. -/
theorem ends_failed {text : Option String} :
    Ends c kind keypair raw BothErr (n+1) (waiting stores (.failed text)) := by
  cases kind
  all_goals
    refine .client rfl rfl (.stop rfl rfl ⟨⟨_,rfl⟩,⟨_,rfl⟩⟩)

theorem ends_refuse (hkind : kind ≠ .quic) :
    Ends c kind keypair raw BothErr (n+2) (waiting stores (.refuse hello)) := by
  cases kind with
  | tcp | websocket =>
    refine .server rfl rfl (.client rfl rfl (.stop rfl rfl ⟨⟨_,rfl⟩,⟨_,rfl⟩⟩))
  | quic => exact absurd rfl hkind

/-- After the challenge is drawn both sides go on to `Ok`. -/
theorem ends_issue (h : Lawful c) (hkey : key.length = 32) (hraw : raw.length = 32)
    (hkind : kind ≠ .quic) (hhello : hello.publicKeyB64 = (fromSigningKey c key).publicKeyB64) :
    Ends c kind (fromSigningKey c key) raw (BothOk (fromSigningKey c key)) (n+5)
      (waiting stores (.issue hello)) := by
  let signature := c.encodeStandard (c.sign key raw)
  have hsign : signAuthChallenge c (fromSigningKey c key) (challengeText c.toCrypto raw) =
      .ok signature := signAuthChallenge_fromSigningKey h hkey (h.base64 raw)
  have hverify : verifyAuthChallenge c.toCrypto hello.publicKeyB64 (challengeText c.toCrypto raw)
      signature = .ok () := by
    rw [hhello]
    exact verifyAuthChallenge_sign h hkey raw
  have hchallenge : serverStep c kind raw (waiting stores (.issue hello)) = some
      ⟨.awaitChallenge,[],[.obj [("challenge_b64",.str (challengeText c.toCrypto raw))]],stores,
        .awaitProof hello raw⟩ := by
    simp [serverStep,serverInput,waiting,perform_eq,handshake,hraw,serverMessageToJson]
  have hanswer : clientStep c kind (fromSigningKey c key)
      ⟨.awaitChallenge,[],[.obj [("challenge_b64",.str (challengeText c.toCrypto raw))]],stores,
        .awaitProof hello raw⟩ = some
      ⟨.awaitResult,[.obj [("signature_b64",.str signature)]],[],stores,.awaitProof hello raw⟩ := by
    cases kind with
    | tcp | websocket =>
      simp [clientStep,receive,ClientHandshake.perform,ClientHandshake.performAuthHandshake,
        ClientHandshake.performWebsocketAuthHandshake,onChallenge,textAt,Json.get,Json.asStr,answer,
        hsign]
    | quic => exact absurd rfl hkind
  have hproof : serverStep c kind raw
      ⟨.awaitResult,[.obj [("signature_b64",.str signature)]],[],stores,.awaitProof hello raw⟩ = some
      ⟨.awaitResult,[],[],stores,.confirm hello raw signature⟩ := by
    simp [serverStep,serverInput,receive,perform_eq,handshake,incoming,proofFromJson,textAt,Json.get,
      Json.asStr,receiveProof,hverify]
  have hconfirm : serverStep c kind raw
      ⟨.awaitResult,[],[],stores,.confirm hello raw signature⟩ = some
      ⟨.awaitResult,[],[.obj [("status",.str "ok")]],stores,.done hello raw signature⟩ := by
    simp [serverStep,serverInput,perform_eq,handshake,AuthHandshake.advance,serverMessageToJson]
  have hresult : clientStep c kind (fromSigningKey c key)
      ⟨.awaitResult,[],[.obj [("status",.str "ok")]],stores,.done hello raw signature⟩ = some
      ⟨.done,[],[],stores,.done hello raw signature⟩ := by
    cases kind with
    | tcp | websocket => rfl
    | quic => exact absurd rfl hkind
  exact .server rfl hchallenge (.client rfl hanswer (.server rfl hproof (.server rfl hconfirm
    (.client rfl hresult (.stop rfl rfl ⟨rfl,hello,raw,signature,rfl,hhello⟩)))))

/-- A redeemed invite leads to `Ok` when the keys file can be read. -/
theorem ends_register {devices : List AuthorizedDevice} (h : Lawful c) (hkey : key.length = 32)
    (hraw : raw.length = 32) (hkind : kind ≠ .quic)
    (hhello : hello.publicKeyB64 = (fromSigningKey c key).publicKeyB64)
    (hload : stores.keysFile.load = some devices) :
    Ends c kind (fromSigningKey c key) raw (BothOk (fromSigningKey c key)) (n+9)
      (waiting stores (.authorizeLoad hello)) := by
  have hreload : ∀ (m : ℕ) (st : AuthHandshake.Stores) (ds : List AuthorizedDevice),
      st.keysFile.load = some ds → Ends c kind (fromSigningKey c key) raw
        (BothOk (fromSigningKey c key)) (m+7) (waiting st (.reloadRead hello)) := by
    intro m st ds hds
    refine .advance st (.reloadSwap hello (devicesMap ds)) rfl rfl ?_ ?_
    · simp [AuthHandshake.advance,loadDevicesMap,hds]
    · exact .advance _ _ rfl rfl rfl (ends_issue h hkey hraw hkind hhello)
  cases hnew : authorizeDeviceKey devices hello.publicKeyB64 with
  | none =>
    refine .advance stores (.reloadRead hello) rfl rfl ?_ (hreload (n+1) _ _ hload)
    simp [AuthHandshake.advance,hload,hnew]
  | some written =>
    refine .advance stores (.authorizeWrite hello written) rfl rfl ?_ ?_
    · simp [AuthHandshake.advance,hload,hnew]
    · exact .advance _ _ rfl rfl rfl (hreload n {stores with keysFile := .entries written} written rfl)

/-- The server can finish with this device: over TCP and WebSocket, for a known key, or for a
redeemable token when the keys file can be read. -/
def Succeeds (kind : TransportKind) (stores : AuthHandshake.Stores) (keypair : DeviceKeypair)
    (inviteToken : String) : Prop :=
  kind ≠ .quic ∧ (isAuthorized stores.devices keypair.publicKeyB64 = true ∨
    Redeemable stores inviteToken ∧ (stores.keysFile.load).isSome = true)

theorem ends_redeem (n : ℕ) (stores : AuthHandshake.Stores) (h : Lawful c) (hkey : key.length = 32)
    (hraw : raw.length = 32) (hkind : kind ≠ .quic) (hblank : isBlank inviteToken = false) :
    let keypair := fromSigningKey c key
    let s := waiting stores (.redeemLoad ⟨keypair.publicKeyB64,inviteToken⟩)
    (Redeemable stores inviteToken ∧ (stores.keysFile.load).isSome = true →
      Ends c kind keypair raw (BothOk keypair) (n+11) s) ∧
    (¬ (Redeemable stores inviteToken ∧ (stores.keysFile.load).isSome = true) →
      Ends c kind keypair raw BothErr (n+11) s) := by
  intro keypair s
  cases hload : loadManager stores.tokensFile with
  | none =>
    refine ⟨fun hred => ?_,fun _ => ?_⟩
    · obtain ⟨⟨-,m,hm,-⟩,-⟩ := hred
      simp [usesLeft,hload] at hm
    · refine .advance stores (.failed (failureText kind .redeem)) rfl rfl ?_ ends_failed
      simp [AuthHandshake.advance,hload]
  | some manager =>
    have huses := usesLeft_load hload inviteToken
    cases hredeem : redeem manager inviteToken with
    | error e =>
      refine ⟨fun hred => ?_,fun _ => ?_⟩
      · obtain ⟨⟨-,m,hm,hne⟩,-⟩ := hred
        rw [huses,Option.map_eq_some_iff] at hm
        obtain ⟨t,ht,rfl⟩ := hm
        simp [redeem,ht,hne] at hredeem
      · refine .advance stores (.refuse ⟨keypair.publicKeyB64,inviteToken⟩) rfl rfl ?_
          (ends_refuse hkind)
        simp [AuthHandshake.advance,hload,hredeem]
    | ok manager' =>
      obtain ⟨t,ht,hne,-⟩ := redeem_ok hredeem
      have hred : Redeemable stores inviteToken := ⟨hblank,t.usesRemaining,by simp [huses,ht],hne⟩
      have hfirst : ∀ P, Ends c kind keypair raw P (n+9)
          (waiting {stores with tokensFile := .entries (allTokens manager')}
            (.authorizeLoad ⟨keypair.publicKeyB64,inviteToken⟩)) →
          Ends c kind keypair raw P (n+11) s := by
        intro P hP
        refine .advance stores (.redeemPersist ⟨keypair.publicKeyB64,inviteToken⟩ manager') rfl rfl ?_
          (.advance _ _ rfl rfl rfl hP)
        simp [AuthHandshake.advance,hload,hredeem]
      cases hkeys : stores.keysFile.load with
      | none =>
        refine ⟨fun hno => by simp at hno,fun _ => hfirst _ ?_⟩
        refine .advance {stores with tokensFile := .entries (allTokens manager')}
          (.failed (failureText kind .persistKey)) rfl rfl ?_ ends_failed
        simp [AuthHandshake.advance,hkeys]
      | some devices =>
        refine ⟨fun _ => hfirst _ (ends_register h hkey hraw hkind rfl hkeys),fun hno => ?_⟩
        exact absurd ⟨hred,rfl⟩ hno

theorem serverStep_start (hkind : kind ≠ .quic) :
    serverStep c kind raw (start c kind keypair inviteToken stores) =
      some (waiting stores (.checkStore ⟨keypair.publicKeyB64,inviteToken⟩)) := by
  cases kind with
  | tcp | websocket => rfl
  | quic => exact absurd rfl hkind

/-- The QUIC client's hello has no field `public_key_b64`. -/
theorem serverStep_start_quic : serverStep c .quic raw (start c .quic keypair inviteToken stores) =
      some (waiting stores (.failed (some "QUIC: invalid client hello JSON"))) := rfl

theorem ends_start (kind : TransportKind) (stores : AuthHandshake.Stores) (inviteToken : String)
    (h : Lawful c) (hkey : key.length = 32) (hraw : raw.length = 32) :
    let keypair := fromSigningKey c key
    let s := start c kind keypair inviteToken stores
    (Succeeds kind stores keypair inviteToken → Ends c kind keypair raw (BothOk keypair) 16 s) ∧
    (¬ Succeeds kind stores keypair inviteToken → Ends c kind keypair raw BothErr 16 s) := by
  intro keypair s
  have hwait : clientStep c kind keypair s = none := rfl
  by_cases hkind : kind = .quic
  · subst hkind
    refine ⟨fun hs => absurd rfl hs.1,fun _ => ?_⟩
    exact .server hwait serverStep_start_quic ends_failed
  have hfirst : serverStep c kind raw s =
      some (waiting stores (.checkStore ⟨keypair.publicKeyB64,inviteToken⟩)) :=
    serverStep_start hkind
  cases hauth : isAuthorized stores.devices keypair.publicKeyB64 with
  | true =>
    refine ⟨fun _ => ?_,fun hno => absurd ⟨hkind,.inl hauth⟩ hno⟩
    refine .server hwait hfirst (.advance stores (.issue ⟨keypair.publicKeyB64,inviteToken⟩)
      rfl rfl ?_ (ends_issue h hkey hraw hkind rfl))
    simp [AuthHandshake.advance,hauth]
  | false =>
    cases hblank : isBlank inviteToken with
    | true =>
      refine ⟨fun hs => ?_,fun _ => ?_⟩
      · obtain ⟨-,hs | ⟨⟨hs,-⟩,-⟩⟩ := hs
        · simp [hauth] at hs
        · simp [hblank] at hs
      · refine .server hwait hfirst (.advance stores (.refuse ⟨keypair.publicKeyB64,inviteToken⟩)
          rfl rfl ?_ (ends_refuse hkind))
        simp [AuthHandshake.advance,hauth,hblank]
    | false =>
      have hcheck : AuthHandshake.advance kind stores true
          (.checkStore ⟨keypair.publicKeyB64,inviteToken⟩) =
          some (stores,.redeemLoad ⟨keypair.publicKeyB64,inviteToken⟩,[]) := by
        simp [AuthHandshake.advance,hauth,hblank]
      obtain ⟨hok,herr⟩ := ends_redeem 3 stores h hkey hraw hkind hblank
      refine ⟨fun hs => ?_,fun hno => ?_⟩
      · refine .server hwait hfirst (.advance stores _ rfl rfl hcheck (hok ?_))
        exact hs.2.resolve_left (by simp [hauth])
      · refine .server hwait hfirst (.advance stores _ rfl rfl hcheck (herr fun hred => ?_))
        exact hno ⟨hkind,.inr hred⟩

end Runs

/-- Client and server agree on a device exactly when, if it is to be admitted, the transport
is not QUIC and its key is known already or the keys file can be read. -/
theorem handshakes_agree_iff (c : Signing) (h : Lawful c) (kind : TransportKind)
    (key : List UInt8) (hkey : key.length = 32) (raw : List UInt8) (hraw : raw.length = 32)
    (inviteToken : String) (stores : AuthHandshake.Stores) :
    Agrees c kind (fromSigningKey c key) raw inviteToken stores ↔
      (Admissible stores (fromSigningKey c key) inviteToken → kind ≠ .quic ∧
        (isAuthorized stores.devices (fromSigningKey c key).publicKeyB64 = true ∨
          (stores.keysFile.load).isSome = true)) := by
  have hends := ends_start kind stores inviteToken h hkey hraw
  constructor
  · intro hagree hadm
    by_contra hcond
    have hfail : ¬ Succeeds kind stores (fromSigningKey c key) inviteToken :=
      fun hs => hcond ⟨hs.1,hs.2.imp id And.right⟩
    obtain ⟨es,t,hrun,-,⟨text,htext⟩,-⟩ := hends.2 hfail
    obtain ⟨hexec,hstuck⟩ := hrun.exec
    obtain ⟨hdone,-⟩ := ((hagree es t hexec).2 hstuck).1 hadm
    rw [htext] at hdone
    cases hdone
  · intro hcond schedule s hexec
    by_cases hsucc : Succeeds kind stores (fromSigningKey c key) inviteToken
    · obtain ⟨es,t,hrun,hlen,ht⟩ := hends.1 hsucc
      obtain ⟨hle,hend⟩ := hrun.unique hexec
      refine ⟨hle.trans hlen,fun hstuck => ⟨fun _ => hend hstuck ▸ ht,fun hno => absurd ?_ hno⟩⟩
      exact hsucc.2.imp id And.left
    · obtain ⟨es,t,hrun,hlen,ht⟩ := hends.2 hsucc
      obtain ⟨hle,hend⟩ := hrun.unique hexec
      refine ⟨hle.trans hlen,fun hstuck => ⟨fun hadm => absurd ?_ hsucc,fun _ => hend hstuck ▸ ht⟩⟩
      obtain ⟨hkind,hauth | hload⟩ := hcond hadm
      · exact ⟨hkind,.inl hauth⟩
      · exact ⟨hkind,hadm.imp id fun hred => ⟨hred,hload⟩⟩

/-- The key of a device that the server knows. -/
def knownKey : List UInt8 := List.replicate 32 107

def knownStores : AuthHandshake.Stores :=
  ⟨devicesMap [newDevice (fromSigningKey demoSigning knownKey).publicKeyB64],.absent,.absent⟩

/-- Over QUIC a known device is turned away: the server cannot read the client's hello. -/
theorem quic_rejects_known_device :
    let keypair := fromSigningKey demoSigning knownKey
    let raw : List UInt8 := List.replicate 32 48
    Admissible knownStores keypair "" ∧
      (exec (step demoSigning .quic keypair raw) (start demoSigning .quic keypair "" knownStores)
        [.server,.client]).map (fun s => (s.client,s.server)) =
        some (.failed (some "QUIC: connection closed while reading text line"),
          .failed (some "QUIC: invalid client hello JSON")) ∧
      ¬ Agrees demoSigning .quic keypair raw "" knownStores := by
  intro keypair raw
  have hauth : isAuthorized knownStores.devices keypair.publicKeyB64 = true := by decide +kernel
  have hrun : (exec (step demoSigning .quic keypair raw)
      (start demoSigning .quic keypair "" knownStores) [.server,.client]) =
      some ⟨.failed (some "QUIC: connection closed while reading text line"),[],[],knownStores,
        .failed (some "QUIC: invalid client hello JSON")⟩ := rfl
  refine ⟨.inl hauth,by rw [hrun]; rfl,fun hagree => ?_⟩
  obtain ⟨hdone,-⟩ := ((hagree _ _ hrun).2 (fun p => by cases p <;> rfl)).1 (.inl hauth)
  cases hdone

/-- Over TCP the same device is admitted. -/
theorem tcp_agrees_on_known_device :
    let keypair := fromSigningKey demoSigning knownKey
    Admissible knownStores keypair "" ∧
      Agrees demoSigning .tcp keypair (List.replicate 32 48) "" knownStores := by
  intro keypair
  have hauth : isAuthorized knownStores.devices keypair.publicKeyB64 = true := by decide +kernel
  exact ⟨.inl hauth,(handshakes_agree_iff demoSigning demoSigning_lawful .tcp knownKey (by decide)
    (List.replicate 32 48) (by decide) "" knownStores).mpr fun _ => ⟨by decide,.inl hauth⟩⟩

end Bonded.HandshakeAgreement
