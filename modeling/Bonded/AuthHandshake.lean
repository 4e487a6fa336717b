import Bonded.Auth
import Bonded.Machine

/-! The server's challenge-response handshake over its three transports. Runs interleave
with each other, with edits of the two store files and with the reloads of the key
watcher; every access to a file or to the shared map is a step of its own. -/
namespace Bonded.AuthHandshake

open Auth Machine

inductive TransportKind
  | tcp
  | websocket
  | quic
  deriving DecidableEq, Repr

structure ClientHello where
  publicKeyB64 : String
  inviteToken : String
  deriving DecidableEq, Repr

/-- What reading a message gives: the connection failed, the text is not the expected JSON,
or the message. -/
inductive Incoming (α : Type)
  | closed
  | invalid
  | message (value : α)
  deriving DecidableEq, Repr

inductive ServerMessage
  | challenge (challengeB64 : String)
  | authResult (status : String)
  deriving DecidableEq, Repr

inductive Failure
  | helloRead
  | helloInvalid
  | redeem
  | persistKey
  | reload
  | unauthorized
  | send
  | proofRead
  | proofInvalid
  | verification
  | reunite
  deriving DecidableEq, Repr

/-- The text a transport puts on a failure; `none` where the cause is passed on as it is. -/
def failureText : TransportKind → Failure → Option String
  | .tcp, .helloRead | .tcp, .helloInvalid => some "failed to read client hello"
  | .websocket, .helloRead => some "failed to read websocket client hello"
  | .websocket, .helloInvalid => none
  | .quic, .helloRead => some "QUIC: failed to read client hello"
  | .quic, .helloInvalid => some "QUIC: invalid client hello JSON"
  | .tcp, .redeem | .websocket, .redeem => some "failed to redeem invite token"
  | .quic, .redeem => some "QUIC: failed to redeem invite token"
  | .tcp, .persistKey | .websocket, .persistKey =>
    some "failed to persist authorized key from invite redemption"
  | .quic, .persistKey => some "QUIC: failed to persist authorized key"
  | .tcp, .reload | .websocket, .reload =>
    some "failed to reload authorized keys after invite redemption"
  | .quic, .reload => some "QUIC: failed to reload authorized keys"
  | .tcp, .unauthorized | .websocket, .unauthorized => some "client key is not authorized"
  | .quic, .unauthorized => some "QUIC: client key is not authorized"
  | _, .send => none
  | .tcp, .proofRead | .tcp, .proofInvalid => some "failed to read client proof"
  | .websocket, .proofRead => some "failed to read websocket client proof"
  | .websocket, .proofInvalid => none
  | .quic, .proofRead => some "QUIC: failed to read client proof"
  | .quic, .proofInvalid => some "QUIC: invalid client proof JSON"
  | .tcp, .verification | .websocket, .verification => some "challenge signature verification failed"
  | .quic, .verification => some "QUIC: challenge signature verification failed"
  | _, .reunite => some "failed to reunite tcp stream after handshake"

/-- Where a run stands. `done` is the result `Ok` with the key of the hello. -/
inductive Phase
  | awaitHello
  | checkStore (hello : ClientHello)
  | redeemLoad (hello : ClientHello)
  | redeemPersist (hello : ClientHello) (manager : InviteTokenManager)
  | authorizeLoad (hello : ClientHello)
  | authorizeWrite (hello : ClientHello) (devices : List AuthorizedDevice)
  | reloadRead (hello : ClientHello)
  | reloadSwap (hello : ClientHello) (devices : Table String AuthorizedDevice)
  | refuse (hello : ClientHello)
  | issue (hello : ClientHello)
  | awaitProof (hello : ClientHello) (raw : List UInt8)
  | confirm (hello : ClientHello) (raw : List UInt8) (signature : String)
  | done (hello : ClientHello) (raw : List UInt8) (signature : String)
  | failed (text : Option String)
  deriving DecidableEq

/-- The shared map of authorized devices and the two files. -/
structure Stores where
  devices : Table String AuthorizedDevice
  keysFile : File AuthorizedDevice
  tokensFile : File InviteToken
  deriving DecidableEq

structure Run where
  kind : TransportKind
  phase : Phase
  sent : List ServerMessage
  deriving DecidableEq

/-- One internal step of a run; `io` is the result of the write or send it makes. -/
def advance (kind : TransportKind) (s : Stores) (io : Bool) : Phase →
    Option (Stores × Phase × List ServerMessage)
  | .checkStore hello =>
    if isAuthorized s.devices hello.publicKeyB64 then some (s,.issue hello,[])
    else if isBlank hello.inviteToken then some (s,.refuse hello,[])
    else some (s,.redeemLoad hello,[])
  | .redeemLoad hello =>
    match loadManager s.tokensFile with
    | none => some (s,.failed (failureText kind .redeem),[])
    | some manager =>
      match redeem manager hello.inviteToken with
      | .error _ => some (s,.refuse hello,[])
      | .ok manager' => some (s,.redeemPersist hello manager',[])
  | .redeemPersist hello manager =>
    if io then some ({s with tokensFile := .entries (allTokens manager)},.authorizeLoad hello,[])
    else some (s,.failed (failureText kind .redeem),[])
  | .authorizeLoad hello =>
    match s.keysFile.load with
    | none => some (s,.failed (failureText kind .persistKey),[])
    | some devices =>
      match authorizeDeviceKey devices hello.publicKeyB64 with
      | none => some (s,.reloadRead hello,[])
      | some devices' => some (s,.authorizeWrite hello devices',[])
  | .authorizeWrite hello devices =>
    if io then some ({s with keysFile := .entries devices},.reloadRead hello,[])
    else some (s,.failed (failureText kind .persistKey),[])
  | .reloadRead hello =>
    match loadDevicesMap s.keysFile with
    | none => some (s,.failed (failureText kind .reload),[])
    | some devices => some (s,.reloadSwap hello devices,[])
  | .reloadSwap hello devices => some ({s with devices := devices},.issue hello,[])
  | .refuse _ =>
    let failure := if io then .unauthorized else .send
    some (s,.failed (failureText kind failure),[.authResult "unauthorized"])
  | .confirm hello raw signature =>
    if io then some (s,.done hello raw signature,[.authResult "ok"])
    else some (s,.failed (failureText kind .send),[.authResult "ok"])
  | _ => none

section Handshakes

variable (c : Crypto)

def receiveHello (kind : TransportKind) : Incoming ClientHello → Phase
  | .closed => .failed (failureText kind .helloRead)
  | .invalid => .failed (failureText kind .helloInvalid)
  | .message hello => .checkStore hello

/-- The peer's proof is checked against the challenge of this run. -/
def receiveProof (kind : TransportKind) (hello : ClientHello) (raw : List UInt8) :
    Incoming String → Phase
  | .closed => .failed (failureText kind .proofRead)
  | .invalid => .failed (failureText kind .proofInvalid)
  | .message signature =>
    match verifyAuthChallenge c hello.publicKeyB64 (challengeText c raw) signature with
    | .ok _ => .confirm hello raw signature
    | .error _ => .failed (failureText kind .verification)

/-- What moves a run: a message of the peer, a step of its own, a fresh challenge, or the
failure to put the TCP stream back together. -/
inductive Input
  | hello (incoming : Incoming ClientHello)
  | advance (io : Bool)
  | challenge (raw : List UInt8) (sendOk : Bool)
  | proof (incoming : Incoming String)
  | reunite
  deriving DecidableEq

/-- The handshake of a transport, one input at a time: the stores and the phase after it,
and the messages sent to the peer. -/
def handshake (kind : TransportKind) (s : Stores) (phase : Phase) (input : Input) :
    Option (Stores × Phase × List ServerMessage) :=
  match input, phase with
  | .hello incoming, .awaitHello => some (s,receiveHello kind incoming,[])
  | .advance io, phase => advance kind s io phase
  | .challenge raw sendOk, .issue hello =>
    if raw.length = 32 then
      let next := if sendOk then .awaitProof hello raw else .failed (failureText kind .send)
      some (s,next,[.challenge (challengeText c raw)])
    else none
  | .proof incoming, .awaitProof hello raw => some (s,receiveProof c kind hello raw incoming,[])
  | .reunite, .confirm _ _ _ =>
    if kind = .tcp then some (s,.failed (failureText kind .reunite),[.authResult "ok"]) else none
  | _, _ => none

def performAuthHandshake := handshake c .tcp

def performWebsocketAuthHandshake := handshake c .websocket

def performQuicAuthHandshake := handshake c .quic

def perform : TransportKind → Stores → Phase → Input →
    Option (Stores × Phase × List ServerMessage)
  | .tcp => performAuthHandshake c
  | .websocket => performWebsocketAuthHandshake c
  | .quic => performQuicAuthHandshake c

theorem perform_eq (kind : TransportKind) : perform c kind = handshake c kind := by
  cases kind <;> rfl

/-- The stores, the runs, and the map a watcher has read but not yet put in place. -/
structure Server where
  stores : Stores
  watcher : Option (Table String AuthorizedDevice)
  runs : Table ℕ Run
  deriving DecidableEq

inductive Event
  | start (i : ℕ) (kind : TransportKind)
  | input (i : ℕ) (input : Input)
  | editKeys (file : File AuthorizedDevice)
  | editTokens (file : File InviteToken)
  | watcherRead
  | watcherSwap
  deriving DecidableEq

/-- One event of one of the handshakes or of their surroundings. -/
def step (s : Server) : Event → Option Server
  | .start i kind =>
    match s.runs.get i with
    | some _ => none
    | none => some {s with runs := s.runs.set i ⟨kind,.awaitHello,[]⟩}
  | .input i input =>
    match s.runs.get i with
    | none => none
    | some r =>
      (perform c r.kind s.stores r.phase input).map fun (stores,phase,out) =>
        {s with stores := stores, runs := s.runs.set i ⟨r.kind,phase,r.sent++out⟩}
  | .editKeys file => some {s with stores := {s.stores with keysFile := file}}
  | .editTokens file => some {s with stores := {s.stores with tokensFile := file}}
  | .watcherRead => some {s with watcher := loadDevicesMap s.stores.keysFile}
  | .watcherSwap =>
    match s.watcher with
    | none => none
    | some devices => some {s with stores := {s.stores with devices := devices}, watcher := none}

/-- Run `i` is in the given phase. -/
def InPhase (s : Server) (i : ℕ) (phase : Phase) : Prop :=
  ∃ r, s.runs.get i = some r ∧ r.phase = phase

end Handshakes

section Soundness

variable (c : Crypto) (stores : Stores)

def initial : Server := ⟨stores,none,∅⟩

/-- In the run's history its key was found in the shared map. -/
def WasAuthorized (events : List Event) (i : ℕ) (hello : ClientHello) : Prop :=
  Sometime (step c) (fun s => InPhase s i (.checkStore hello) ∧
    isAuthorized s.stores.devices hello.publicKeyB64 = true) (initial stores) events

/-- In the run's history its invite token was in the file with a use left. -/
def HadUseLeft (events : List Event) (i : ℕ) (hello : ClientHello) : Prop :=
  Sometime (step c) (fun s => InPhase s i (.redeemLoad hello) ∧ ∃ manager token,
    loadManager s.stores.tokensFile = some manager ∧
    manager.get hello.inviteToken = some token ∧ token.usesRemaining ≠ 0) (initial stores) events

/-- In the run's history its key was in the keys file, where the run found or wrote it. -/
def WasInFile (events : List Event) (i : ℕ) (hello : ClientHello) : Prop :=
  Sometime (step c) (fun s =>
    (InPhase s i (.authorizeLoad hello) ∨ InPhase s i (.reloadRead hello)) ∧
    ∃ devices d, s.stores.keysFile.load = some devices ∧ d ∈ devices ∧
      d.publicKey = hello.publicKeyB64) (initial stores) events

/-- The ways into the handshake's second half. -/
def Admitted (events : List Event) (i : ℕ) (hello : ClientHello) : Prop :=
  WasAuthorized c stores events i hello ∨
    HadUseLeft c stores events i hello ∧ WasInFile c stores events i hello

/-- The peer of run `i` proved the key of its hello with this signature. -/
def Proved (events : List Event) (i : ℕ) (hello : ClientHello) (raw : List UInt8)
    (signature : String) : Prop :=
  verifyAuthChallenge c hello.publicKeyB64 (challengeText c raw) signature = .ok () ∧
    .input i (.proof (.message signature)) ∈ events

/-- What is known about a run from its phase. -/
def RunSound (events : List Event) (i : ℕ) (r : Run) : Prop :=
  match r.phase with
  | .awaitHello | .checkStore _ | .redeemLoad _ | .refuse _ => r.sent = []
  | .redeemPersist hello _ | .authorizeLoad hello =>
    r.sent = [] ∧ HadUseLeft c stores events i hello
  | .authorizeWrite hello devices => r.sent = [] ∧ HadUseLeft c stores events i hello ∧
    ∃ d ∈ devices, d.publicKey = hello.publicKeyB64
  | .reloadRead hello | .reloadSwap hello _ => r.sent = [] ∧
    HadUseLeft c stores events i hello ∧ WasInFile c stores events i hello
  | .issue hello => r.sent = [] ∧ Admitted c stores events i hello
  | .awaitProof hello raw => r.sent = [.challenge (challengeText c raw)] ∧
    Admitted c stores events i hello ∧ raw.length = 32 ∧
    ∃ sendOk, .input i (.challenge raw sendOk) ∈ events
  | .confirm hello raw signature => r.sent = [.challenge (challengeText c raw)] ∧
    Admitted c stores events i hello ∧ raw.length = 32 ∧
    (∃ sendOk, .input i (.challenge raw sendOk) ∈ events) ∧ Proved c events i hello raw signature
  | .done hello raw signature =>
    r.sent = [.challenge (challengeText c raw),.authResult "ok"] ∧
    Admitted c stores events i hello ∧ raw.length = 32 ∧
    (∃ sendOk, .input i (.challenge raw sendOk) ∈ events) ∧ Proved c events i hello raw signature
  | .failed _ => .authResult "unauthorized" ∈ r.sent → r.sent = [.authResult "unauthorized"]

variable {c stores}

variable {events : List Event} {hello : ClientHello} {i : ℕ} {r : Run}

theorem Admitted.append (h : Admitted c stores events i hello) (more : List Event) :
    Admitted c stores (events++more) i hello :=
  h.imp (fun h => sometime_append h more)
    fun h => ⟨sometime_append h.1 more,sometime_append h.2 more⟩

theorem Proved.append {raw : List UInt8} {signature : String}
    (h : Proved c events i hello raw signature) (more : List Event) :
    Proved c (events++more) i hello raw signature :=
  ⟨h.1,List.mem_append_left _ h.2⟩

theorem RunSound.append (h : RunSound c stores events i r) (more : List Event) :
    RunSound c stores (events++more) i r := by
  have hissued : ∀ raw, (∃ sendOk, Event.input i (.challenge raw sendOk) ∈ events) →
      ∃ sendOk, Event.input i (.challenge raw sendOk) ∈ events++more :=
    fun raw ⟨sendOk,hmem⟩ => ⟨sendOk,List.mem_append_left _ hmem⟩
  unfold RunSound at h ⊢
  split at h
  · exact h
  · exact h
  · exact h
  · exact h
  · exact ⟨h.1,sometime_append h.2 more⟩
  · exact ⟨h.1,sometime_append h.2 more⟩
  · exact ⟨h.1,sometime_append h.2.1 more,h.2.2⟩
  · exact ⟨h.1,sometime_append h.2.1 more,sometime_append h.2.2 more⟩
  · exact ⟨h.1,sometime_append h.2.1 more,sometime_append h.2.2 more⟩
  · exact ⟨h.1,h.2.append more⟩
  · exact ⟨h.1,h.2.1.append more,h.2.2.1,hissued _ h.2.2.2⟩
  · exact ⟨h.1,h.2.1.append more,h.2.2.1,hissued _ h.2.2.2.1,h.2.2.2.2.append more⟩
  · exact ⟨h.1,h.2.1.append more,h.2.2.1,hissued _ h.2.2.2.1,h.2.2.2.2.append more⟩
  · exact h

/-- A run that has answered `unauthorized` has sent nothing else. -/
theorem RunSound.refused (h : RunSound c stores events i r)
    (hr : .authResult "unauthorized" ∈ r.sent) : r.sent = [.authResult "unauthorized"] := by
  obtain ⟨kind,phase,sent⟩ := r
  cases phase with
  | awaitHello | checkStore | redeemLoad | refuse =>
    subst h
    simp at hr
  | redeemPersist | authorizeLoad | authorizeWrite | reloadRead | reloadSwap | issue |
    awaitProof | confirm | done =>
    obtain ⟨rfl,-⟩ := h
    simp at hr
  | failed text => exact h hr

section Input

variable {t u : Server} {st : Stores} {phase : Phase} {out : List ServerMessage}
  (hexec : exec (step c) (initial stores) events = some t)
  (hr : t.runs.get i = some r) (hs : RunSound c stores events i r)
  (hu : u.stores = st ∧ u.runs.get i = some ⟨r.kind,phase,r.sent++out⟩)
include hexec hr hs hu

/-- An internal step of a run keeps what is known about it. -/
theorem runSound_advance {io : Bool}
    (hnow : exec (step c) (initial stores) (events++[.input i (.advance io)]) = some u)
    (h : advance r.kind t.stores io r.phase = some (st,phase,out)) :
    RunSound c stores (events++[.input i (.advance io)]) i ⟨r.kind,phase,r.sent++out⟩ := by
  have hat : InPhase t i r.phase := ⟨r,hr,rfl⟩
  have hlater := hs.append [.input i (.advance io)]
  obtain ⟨kind,old,sent⟩ := r
  cases old with
  | checkStore hello =>
    subst hs
    simp only [advance] at h
    split at h
    · next hauth =>
      cases h
      exact ⟨rfl,.inl (sometime_append (sometime_now hexec ⟨hat,hauth⟩) _)⟩
    · split at h <;> cases h <;> exact rfl
  | redeemLoad hello =>
    subst hs
    simp only [advance] at h
    split at h
    · cases h; simp [RunSound]
    · next manager hload =>
      split at h
      · cases h; exact rfl
      · next manager' hredeem =>
        cases h
        obtain ⟨token,htoken,huse,-⟩ := redeem_ok hredeem
        exact ⟨rfl,sometime_append
          (sometime_now hexec ⟨hat,manager,token,hload,htoken,huse⟩) _⟩
  | redeemPersist hello manager =>
    obtain ⟨rfl,huse⟩ := hlater
    simp only [advance] at h
    split at h <;> cases h
    · exact ⟨rfl,huse⟩
    · simp [RunSound]
  | authorizeLoad hello =>
    obtain ⟨rfl,huse⟩ := hlater
    simp only [advance] at h
    split at h
    · cases h; simp [RunSound]
    · next devices hload =>
      split at h
      · next hthere =>
        cases h
        obtain ⟨d,hd,hkey⟩ := authorizeDeviceKey_none hthere
        exact ⟨rfl,huse,sometime_append
          (sometime_now hexec ⟨.inl hat,devices,d,hload,hd,hkey⟩) _⟩
      · next hwrite =>
        cases h
        exact ⟨rfl,huse,authorizeDeviceKey_mem hwrite⟩
  | authorizeWrite hello devices =>
    obtain ⟨rfl,huse,d,hd,hkey⟩ := hlater
    simp only [advance] at h
    split at h <;> cases h
    · refine ⟨rfl,huse,sometime_now hnow ⟨.inr ⟨_,hu.2,rfl⟩,devices,d,?_,hd,hkey⟩⟩
      rw [hu.1]
      rfl
    · simp [RunSound]
  | reloadRead hello =>
    obtain ⟨rfl,huse,hfile⟩ := hlater
    simp only [advance] at h
    split at h <;> cases h
    · simp [RunSound]
    · exact ⟨rfl,huse,hfile⟩
  | reloadSwap hello devices =>
    obtain ⟨rfl,huse,hfile⟩ := hlater
    cases h
    exact ⟨rfl,.inr ⟨huse,hfile⟩⟩
  | refuse hello =>
    subst hs
    cases h
    exact fun _ => rfl
  | confirm hello raw signature =>
    obtain ⟨rfl,hrest⟩ := hlater
    simp only [advance] at h
    split at h <;> cases h
    · exact ⟨rfl,hrest⟩
    · simp [RunSound]
  | awaitHello | issue | awaitProof | done | failed => cases h

/-- Every input of a run keeps what is known about it. -/
theorem runSound_input {input : Input}
    (hnow : exec (step c) (initial stores) (events++[.input i input]) = some u)
    (h : handshake c r.kind t.stores r.phase input = some (st,phase,out)) :
    RunSound c stores (events++[.input i input]) i ⟨r.kind,phase,r.sent++out⟩ := by
  cases input with
  | advance io =>
    exact runSound_advance hexec hr hs hu hnow (by simpa only [handshake] using h)
  | hello incoming =>
    obtain ⟨kind,old,sent⟩ := r
    cases old <;> simp only [handshake,reduceCtorEq] at h
    cases h
    subst hs
    cases incoming <;> simp [receiveHello,RunSound]
  | challenge raw sendOk =>
    obtain ⟨kind,old,sent⟩ := r
    cases old <;> simp only [handshake,reduceCtorEq] at h
    split at h
    · next hlen =>
      obtain ⟨rfl,hadm⟩ := hs.append [.input i (.challenge raw sendOk)]
      cases h
      cases sendOk with
      | true => exact ⟨rfl,hadm,hlen,true,by simp⟩
      | false => simp [RunSound]
    · cases h
  | proof incoming =>
    obtain ⟨kind,old,sent⟩ := r
    cases old <;> simp only [handshake,reduceCtorEq] at h
    cases h
    obtain ⟨rfl,hadm,hlen,hissued⟩ := hs.append [.input i (.proof incoming)]
    cases incoming with
    | closed | invalid => simp [receiveProof,RunSound]
    | message signature =>
      simp only [receiveProof]
      split
      · next hv => exact ⟨rfl,hadm,hlen,hissued,hv,by simp⟩
      · simp [RunSound]
  | reunite =>
    obtain ⟨kind,old,sent⟩ := r
    cases old <;> simp only [handshake,reduceCtorEq] at h
    split at h
    · obtain ⟨rfl,-⟩ := hs
      cases h
      simp [RunSound]
    · cases h

end Input

theorem runs_sound {s : Server} (hrun : exec (step c) (initial stores) events = some s) :
    ∀ i r, s.runs.get i = some r → RunSound c stores events i r := by
  refine exec_history (P := fun events s => ∀ i r, s.runs.get i = some r →
    RunSound c stores events i r) (by intro i r h; simp [initial] at h) ?_ hrun
  intro events t e u hexec hsound hstep i r hr
  have hnow : exec (step c) (initial stores) (events++[e]) = some u :=
    exec_append.mpr ⟨t,hexec,exec_cons.mpr ⟨u,hstep,rfl⟩⟩
  cases e with
  | start j kind =>
    simp only [step] at hstep
    split at hstep
    · cases hstep
    · cases hstep
      simp only [Table.get_set] at hr
      split at hr
      · cases hr; exact rfl
      · exact (hsound i r hr).append _
  | input j input =>
    simp only [step] at hstep
    split at hstep
    · cases hstep
    · next r₀ hr₀ =>
      obtain ⟨⟨st,phase,out⟩,hperf,hu⟩ := Option.map_eq_some_iff.mp hstep
      rw [perform_eq] at hperf
      subst hu
      simp only [Table.get_set] at hr
      split at hr
      · next hij =>
        subst hij
        cases hr
        exact runSound_input hexec hr₀ (hsound i r₀ hr₀) ⟨rfl,Table.get_set_self _ _ _⟩ hnow hperf
      · exact (hsound i r hr).append _
  | editKeys file => cases hstep; exact (hsound i r hr).append _
  | editTokens file => cases hstep; exact (hsound i r hr).append _
  | watcherRead => cases hstep; exact (hsound i r hr).append _
  | watcherSwap =>
    simp only [step] at hstep
    split at hstep
    · cases hstep
    · cases hstep; exact (hsound i r hr).append _

/-- The library's decoder gives back what the encoder was given. -/
def Base64RoundTrip (c : Crypto) : Prop :=
  ∀ raw, c.decodeUrlSafe (c.encodeUrlSafe raw) = some raw

/-- Each challenge is issued in one run only. -/
def FreshChallenges (events : List Event) : Prop :=
  ∀ i j raw sendOk sendOk', Event.input i (.challenge raw sendOk) ∈ events →
    Event.input j (.challenge raw sendOk') ∈ events → i = j

/-- A completed run's signature verifies over the bytes of its challenge. -/
theorem proved_verifies (hbase : Base64RoundTrip c) {raw : List UInt8} {signature : String}
    (h : Proved c events i hello raw signature) :
    ∃ key sig, verifyingKey c hello.publicKeyB64 = .ok key ∧
      signatureBytes c signature = .ok sig ∧ c.verify key raw sig = true := by
  obtain ⟨key,challenge,sig,hk,hc,hs,hv⟩ := verifyAuthChallenge_ok h.1
  rw [challengeText,hbase raw,Option.some.injEq] at hc
  exact ⟨key,sig,hk,hs,hc ▸ hv⟩

/-- A crypto library in which a key signs a message by putting its first byte before it. -/
def toyCrypto : Crypto where
  decodeStandard s := some (s.toList.map fun ch => UInt8.ofNat ch.toNat)
  decodeUrlSafe s := some (s.toList.map fun ch => UInt8.ofNat ch.toNat)
  encodeUrlSafe raw := String.ofList (raw.map fun b => Char.ofNat b.toNat)
  validKey _ := true
  verify key message signature := signature = List.replicate 32 (key.getD 0 0)++message

theorem toyCrypto_base64 : Base64RoundTrip toyCrypto := by
  intro raw
  have hfin : ∀ n : Fin 256, (Char.ofNat n).toNat = n := by decide +kernel
  have hbyte : ∀ b : UInt8, UInt8.ofNat (Char.ofNat b.toNat).toNat = b := fun b => by
    rw [hfin ⟨b.toNat,b.toNat_lt⟩]
    exact UInt8.ofNat_toNat
  simp only [toyCrypto,String.toList_ofList,List.map_map,Option.some.injEq]
  exact (List.map_congr_left fun b _ => hbyte b).trans (List.map_id _)

end Soundness

end Bonded.AuthHandshake
