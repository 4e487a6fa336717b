import Bonded.AuthHandshake

/-! What a failed handshake leaves behind. The invite of the hello is redeemed and its key
is registered before the peer has proved anything, so a run that fails later has already
written both files; every other failure leaves the stores as they were. -/
namespace Bonded.HandshakeEffects

open Auth AuthHandshake Machine

section Run

variable (c : Crypto) (kind : TransportKind)

/-- One handshake with the stores to itself. -/
def alone (s : Stores × Phase) (input : Input) : Option (Stores × Phase) :=
  (perform c kind s.1 s.2 input).map fun r => (r.1,r.2.1)

/-- The hello makes the server redeem its invite: the key is unknown and the token is in the
file with a use left. -/
def Redeems (s : Stores) (hello : ClientHello) : Prop :=
  isAuthorized s.devices hello.publicKeyB64 = false ∧ isBlank hello.inviteToken = false ∧
    ∃ n, usesLeft s.tokensFile hello.inviteToken = some n ∧ n ≠ 0

/-- The run redeems the invite of its hello, and the write of the token file succeeds. -/
def SpendsInvite (s : Stores) (inputs : List Input) (hello : ClientHello) : Prop :=
  Redeems s hello ∧ ∃ io io' rest, inputs =
    .hello (.message hello)::.advance io::.advance io'::.advance true::rest

/-- The keys file is the same, or has the key of the hello as one more entry. -/
def KeysChange (before after : Stores) (hello : ClientHello) : Prop :=
  after.keysFile = before.keysFile ∨ ∃ devices, before.keysFile.load = some devices ∧
    (∀ d ∈ devices, d.publicKey ≠ hello.publicKeyB64) ∧
    after.keysFile = .entries (devices++[newDevice hello.publicKeyB64])

/-- The map is the same, or what the keys file holds now. -/
def MapChange (before after : Stores) : Prop :=
  after.devices = before.devices ∨ loadDevicesMap after.keysFile = some after.devices

/-- One use of the token of the hello is gone, and of no other token. -/
def OneUseSpent (before after : Stores) (hello : ClientHello) : Prop :=
  (∃ n, usesLeft before.tokensFile hello.inviteToken = some n ∧ n ≠ 0 ∧
    usesLeft after.tokensFile hello.inviteToken = some (n-1)) ∧
  ∀ token, token ≠ hello.inviteToken →
    usesLeft after.tokensFile token = usesLeft before.tokensFile token

variable {c kind}

variable {input : Input} {t : Stores × Phase} {s mid : Stores} {inputs : List Input}
  {text : Option String} {hello : ClientHello}

theorem alone_some {s : Stores × Phase} :
    alone c kind s input = some t ↔ ∃ out, handshake c kind s.1 s.2 input = some (t.1,t.2,out) := by
  rw [alone,perform_eq,Option.map_eq_some_iff]
  constructor
  · rintro ⟨⟨a,b,out⟩,h,rfl⟩
    exact ⟨out,h⟩
  · rintro ⟨out,h⟩
    exact ⟨_,h,rfl⟩

/-- The phases in which a run only makes a step of its own. -/
def internal : Phase → Bool
  | .checkStore _ | .redeemLoad _ | .redeemPersist _ _ | .authorizeLoad _ | .authorizeWrite _ _
  | .reloadRead _ | .reloadSwap _ _ => true
  | _ => false

theorem internal_step {phase : Phase} (hphase : internal phase = true)
    (h : alone c kind (s,phase) input = some t) :
    ∃ io out, input = .advance io ∧ advance kind s io phase = some (t.1,t.2,out) := by
  obtain ⟨out,h⟩ := alone_some.mp h
  cases input with
  | advance io => exact ⟨io,out,rfl,h⟩
  | hello | challenge | proof | reunite => cases phase <;> simp [handshake,internal] at h hphase

/-- A run that ends in failure from an internal phase makes that step first. -/
theorem internal_cons {phase : Phase} {t : Stores} (hphase : internal phase = true)
    (h : exec (alone c kind) (s,phase) inputs = some (t,.failed text)) :
    ∃ io out rest mid next, inputs = .advance io::rest ∧
      advance kind s io phase = some (mid,next,out) ∧
      exec (alone c kind) (mid,next) rest = some (t,.failed text) := by
  cases inputs with
  | nil => cases h; cases hphase
  | cons input rest =>
    obtain ⟨mid,hstep,hrest⟩ := exec_cons.mp h
    obtain ⟨io,out,rfl,hadv⟩ := internal_step hphase hstep
    exact ⟨io,out,rest,mid.1,mid.2,rfl,hadv,hrest⟩

/-- The phases after the last access to the stores. -/
def settled : Phase → Bool
  | .refuse _ | .issue _ | .awaitProof _ _ | .confirm _ _ _ | .done _ _ _ | .failed _ => true
  | _ => false

theorem settled_step {s : Stores × Phase} (hs : settled s.2 = true)
    (h : alone c kind s input = some t) : t.1 = s.1 ∧ settled t.2 = true := by
  obtain ⟨out,h⟩ := alone_some.mp h
  obtain ⟨s,phase⟩ := s
  obtain ⟨t,next⟩ := t
  cases phase <;> simp only [settled,reduceCtorEq] at hs
  all_goals cases input <;> simp only [handshake,advance,reduceCtorEq,Option.some.injEq,
    Prod.mk.injEq] at h
  · exact ⟨h.1.symm,by rw [← h.2.1]; rfl⟩
  · split at h
    · simp only [Option.some.injEq,Prod.mk.injEq] at h
      refine ⟨h.1.symm,?_⟩
      rw [← h.2.1]
      split <;> rfl
    · cases h
  · refine ⟨h.1.symm,?_⟩
    rw [← h.2.1]
    unfold receiveProof
    split
    · rfl
    · rfl
    · split <;> rfl
  · split at h <;> cases h <;> exact ⟨rfl,rfl⟩
  · split at h
    · cases h; exact ⟨rfl,rfl⟩
    · cases h

theorem settled_run {s : Stores × Phase} (hs : settled s.2 = true)
    (h : exec (alone c kind) s inputs = some t) : t.1 = s.1 :=
  (exec_preserves (I := fun t => t.1 = s.1 ∧ settled t.2 = true)
    (fun _ _ _ hi hstep => ⟨(settled_step hi.2 hstep).1.trans hi.1,(settled_step hi.2 hstep).2⟩)
    ⟨rfl,hs⟩ h).1

/-- What holds while a run registers its key, from the stores `mid` right after the token
file was written. -/
def Registering (mid : Stores) (hello : ClientHello) (s : Stores × Phase) : Prop :=
  s.1.tokensFile = mid.tokensFile ∧
  match s.2 with
  | .authorizeLoad hello' => hello' = hello ∧ s.1 = mid
  | .authorizeWrite hello' written => hello' = hello ∧ s.1 = mid ∧ ∃ devices,
    mid.keysFile.load = some devices ∧ (∀ d ∈ devices, d.publicKey ≠ hello.publicKeyB64) ∧
    written = devices++[newDevice hello.publicKeyB64]
  | .reloadRead hello' => hello' = hello ∧ s.1.devices = mid.devices ∧ KeysChange mid s.1 hello
  | .reloadSwap hello' devices => hello' = hello ∧ KeysChange mid s.1 hello ∧
    loadDevicesMap s.1.keysFile = some devices
  | phase => settled phase = true ∧ KeysChange mid s.1 hello ∧ MapChange mid s.1

/-- A settled phase of the registration keeps the stores, so what was known stays known. -/
theorem registering_settled {s : Stores × Phase} (hs : settled s.2 = true)
    (hi : Registering mid hello s) (h : alone c kind s input = some t) :
    Registering mid hello t := by
  obtain ⟨hsame,ht⟩ := settled_step hs h
  obtain ⟨s,phase⟩ := s
  obtain ⟨t,next⟩ := t
  subst hsame
  have hknown : settled phase = true ∧ KeysChange mid t hello ∧ MapChange mid t := by
    cases phase <;> first | exact hi.2 | cases hs
  refine ⟨hi.1,?_⟩
  cases next <;> first | exact ⟨ht,hknown.2⟩ | cases ht

theorem registering_step {s : Stores × Phase} (hi : Registering mid hello s)
    (h : alone c kind s input = some t) : Registering mid hello t := by
  by_cases hs : settled s.2 = true
  · exact registering_settled hs hi h
  obtain ⟨s,phase⟩ := s
  obtain ⟨t,next⟩ := t
  cases phase with
  | authorizeLoad hello' =>
    obtain ⟨-,rfl,rfl⟩ := hi
    obtain ⟨io,out,-,hadv⟩ := internal_step rfl h
    simp only [advance] at hadv
    split at hadv
    · cases hadv; exact ⟨rfl,rfl,.inl rfl,.inl rfl⟩
    · next devices hload =>
      split at hadv
      · cases hadv; exact ⟨rfl,rfl,rfl,.inl rfl⟩
      · next written hwrite =>
        cases hadv
        exact ⟨rfl,rfl,rfl,devices,hload,authorizeDeviceKey_some hwrite⟩
  | authorizeWrite hello' written =>
    obtain ⟨-,rfl,rfl,devices,hload,hnew,rfl⟩ := hi
    obtain ⟨io,out,-,hadv⟩ := internal_step rfl h
    simp only [advance] at hadv
    split at hadv <;> cases hadv
    · exact ⟨rfl,rfl,rfl,.inr ⟨devices,hload,hnew,rfl⟩⟩
    · exact ⟨rfl,rfl,.inl rfl,.inl rfl⟩
  | reloadRead hello' =>
    obtain ⟨htokens,rfl,hmap,hkeys⟩ := hi
    obtain ⟨io,out,-,hadv⟩ := internal_step rfl h
    simp only [advance] at hadv
    split at hadv
    · cases hadv; exact ⟨htokens,rfl,hkeys,.inl hmap⟩
    · next devices hload => cases hadv; exact ⟨htokens,rfl,hkeys,hload⟩
  | reloadSwap hello' devices =>
    obtain ⟨htokens,rfl,hkeys,hload⟩ := hi
    obtain ⟨io,out,-,hadv⟩ := internal_step rfl h
    cases hadv
    exact ⟨htokens,rfl,hkeys,.inr hload⟩
  | awaitHello | checkStore | redeemLoad | redeemPersist => cases hi.2.1
  | refuse | issue | awaitProof | confirm | done | failed => exact absurd rfl hs

theorem registering_failed {t : Stores}
    (h : exec (alone c kind) (mid,.authorizeLoad hello) inputs = some (t,.failed text)) :
    t.tokensFile = mid.tokensFile ∧ KeysChange mid t hello ∧ MapChange mid t := by
  have hstart : Registering mid hello (mid,.authorizeLoad hello) := ⟨rfl,rfl,rfl⟩
  have hrun := exec_preserves (I := Registering mid hello) (fun _ _ _ => registering_step) hstart h
  exact ⟨hrun.1,hrun.2.2⟩

theorem redeem_oneUseSpent {t : Stores} {manager manager' : InviteTokenManager}
    (hload : loadManager s.tokensFile = some manager)
    (hredeem : redeem manager hello.inviteToken = .ok manager')
    (ht : t.tokensFile = .entries (allTokens manager')) : OneUseSpent s t hello := by
  have hkeyed := keyed_redeem (keyed_loadManager hload) hredeem
  obtain ⟨token,hget,huse,rfl⟩ := redeem_ok hredeem
  refine ⟨⟨token.usesRemaining,by simp [usesLeft_load hload,hget],huse,?_⟩,fun other hother => ?_⟩
  · rw [ht,usesLeft_written hkeyed]
    simp
  · rw [ht,usesLeft_written hkeyed,usesLeft_load hload,Table.get_set_ne hother]

theorem redeems_iff {manager : InviteTokenManager}
    (hauth : isAuthorized s.devices hello.publicKeyB64 = false)
    (hblank : isBlank hello.inviteToken = false) (hload : loadManager s.tokensFile = some manager) :
    Redeems s hello ↔ ∃ manager', redeem manager hello.inviteToken = .ok manager' := by
  simp only [Redeems,hauth,hblank,usesLeft_load hload,true_and]
  cases hget : manager.get hello.inviteToken with
  | none => simp [redeem,hget]
  | some token => by_cases huse : token.usesRemaining = 0 <;> simp [redeem,hget,huse]

/-- From the check of the invite on: a failed run has either spent the invite or kept the
stores. -/
theorem failed_after_check {t : Stores} (hauth : isAuthorized s.devices hello.publicKeyB64 = false)
    (hblank : isBlank hello.inviteToken = false)
    (h : exec (alone c kind) (s,.redeemLoad hello) inputs = some (t,.failed text)) :
    let Spends := Redeems s hello ∧ ∃ io rest, inputs = .advance io::.advance true::rest
    Spends ∧ OneUseSpent s t hello ∧ KeysChange s t hello ∧ MapChange s t ∨ ¬ Spends ∧ t = s := by
  intro Spends
  obtain ⟨io,out,rest,mid,next,rfl,hadv,hrest⟩ := internal_cons rfl h
  simp only [advance] at hadv
  split at hadv
  · next hload =>
    cases hadv
    refine .inr ⟨?_,settled_run rfl hrest⟩
    rintro ⟨⟨-,-,n,hn,-⟩,-⟩
    simp [usesLeft,hload] at hn
  · next manager hload =>
    have hredeems := redeems_iff hauth hblank hload
    split at hadv
    · next hredeem =>
      cases hadv
      refine .inr ⟨fun hsp => ?_,settled_run rfl hrest⟩
      obtain ⟨manager',hok⟩ := hredeems.mp hsp.1
      rw [hredeem] at hok
      cases hok
    · next manager' hredeem =>
      cases hadv
      obtain ⟨io',out',rest',mid',next',rfl,hadv',hrest'⟩ := internal_cons rfl hrest
      simp only [advance] at hadv'
      split at hadv'
      · next hio =>
        cases hadv'
        obtain ⟨htokens,hkeys,hmap⟩ := registering_failed hrest'
        exact .inl ⟨⟨hredeems.mpr ⟨manager',hredeem⟩,io,rest',by rw [hio]⟩,
          redeem_oneUseSpent hload hredeem htokens,hkeys,hmap⟩
      · next hio =>
        cases hadv'
        refine .inr ⟨?_,settled_run rfl hrest'⟩
        rintro ⟨-,io'',rest'',heq⟩
        simp only [List.cons.injEq,Input.advance.injEq] at heq
        exact hio heq.2.1

/-- From the hello on: a failed run has either spent the invite or kept the stores. -/
theorem failed_after_hello {t : Stores}
    (h : exec (alone c kind) (s,.checkStore hello) inputs = some (t,.failed text)) :
    let Spends := SpendsInvite s (.hello (.message hello)::inputs) hello
    Spends ∧ OneUseSpent s t hello ∧ KeysChange s t hello ∧ MapChange s t ∨ ¬ Spends ∧ t = s := by
  intro Spends
  obtain ⟨io,out,rest,mid,next,rfl,hadv,hrest⟩ := internal_cons rfl h
  simp only [advance] at hadv
  split at hadv
  · next hauth =>
    cases hadv
    refine .inr ⟨?_,settled_run rfl hrest⟩
    rintro ⟨⟨hnot,-⟩,-⟩
    simp [hauth] at hnot
  · next hauth =>
    split at hadv
    · next hblank =>
      cases hadv
      refine .inr ⟨?_,settled_run rfl hrest⟩
      rintro ⟨⟨-,hnot,-⟩,-⟩
      simp [hblank] at hnot
    · next hblank =>
      cases hadv
      have hspends : Spends ↔ Redeems s hello ∧ ∃ io rest', rest = .advance io::.advance true::rest' := by
        simp [Spends,SpendsInvite]
      rw [hspends]
      exact failed_after_check (by simpa using hauth) (by simpa using hblank) hrest

end Run

/-- What a handshake that returns an error has changed, for every transport, every content of
the stores and every sequence of messages, results of writes and disconnections. Unless the
hello of an unknown key names an invite with a use left and the write of the token file
succeeds, nothing; in that case one use of this invite is gone and of no other, the keys file
has at most gained the key of the hello, and the map is at most the reloaded keys file. -/
theorem failed_handshake_effects (c : Crypto) (kind : TransportKind) (s t : Stores)
    (inputs : List Input) (text : Option String)
    (h : exec (alone c kind) (s,.awaitHello) inputs = some (t,.failed text)) :
    ((∀ hello, ¬ SpendsInvite s inputs hello) → t = s) ∧
    ∀ hello, SpendsInvite s inputs hello →
      OneUseSpent s t hello ∧ KeysChange s t hello ∧ MapChange s t := by
  cases inputs with
  | nil => cases h
  | cons input rest =>
    obtain ⟨⟨mid,next⟩,hstep,hrest⟩ := exec_cons.mp h
    obtain ⟨out,hstep⟩ := alone_some.mp hstep
    cases input with
    | hello incoming =>
      cases hstep
      cases incoming with
      | closed | invalid =>
        refine ⟨fun _ => settled_run rfl hrest,?_⟩
        rintro hello ⟨-,io,io',rest',heq⟩
        simp at heq
      | message hello =>
        have hcases := failed_after_hello hrest
        refine ⟨fun hnone => ?_,fun hello' hsp => ?_⟩
        · exact hcases.elim (fun hsp => absurd hsp.1 (hnone hello)) (fun hsame => hsame.2)
        · have heq : hello' = hello := by
            obtain ⟨-,io,io',rest',heq⟩ := hsp
            simp only [List.cons.injEq,Input.hello.injEq,Incoming.message.injEq] at heq
            exact heq.1.symm
          subst heq
          exact hcases.elim (fun hsp => hsp.2) (fun hnot => absurd hsp hnot.1)
    | advance | challenge | proof | reunite => cases hstep

/-- A server with one single-use invite and no device. -/
def freshServer : Stores := ⟨∅,.absent,.entries [⟨"invite","unix:9",1⟩]⟩

/-- A peer names somebody's key and the invite, gets its challenge and hangs up. -/
def abandoned : List Input :=
  [.hello (.message ⟨"key","invite"⟩),.advance true,.advance true,.advance true,.advance true,
    .advance true,.advance true,.advance true,.challenge (List.replicate 32 0) true,.proof .closed]

/-- What is left of the server's stores after the abandoned handshake. -/
def afterAbandoned : Stores :=
  ⟨devicesMap [newDevice "key"],.entries [newDevice "key"],.entries [⟨"invite","unix:9",0⟩]⟩

/-- The abandoned handshake fails, and yet the key is registered and the invite is used up. -/
theorem abandoned_handshake_registers_key :
    exec (alone toyCrypto .tcp) (freshServer,.awaitHello) abandoned =
      some (afterAbandoned,.failed (some "failed to read client proof")) ∧
    afterAbandoned.keysFile ≠ freshServer.keysFile ∧
    isAuthorized freshServer.devices "key" = false ∧
    isAuthorized afterAbandoned.devices "key" = true ∧
    usesLeft freshServer.tokensFile "invite" = some 1 ∧
    usesLeft afterAbandoned.tokensFile "invite" = some 0 := by
  decide +kernel

theorem abandoned_handshake_effects :
    SpendsInvite freshServer abandoned ⟨"key","invite"⟩ ∧
      OneUseSpent freshServer afterAbandoned ⟨"key","invite"⟩ ∧
      KeysChange freshServer afterAbandoned ⟨"key","invite"⟩ ∧
      MapChange freshServer afterAbandoned := by
  have hrun : exec (alone toyCrypto .tcp) (freshServer,.awaitHello) abandoned =
      some (afterAbandoned,.failed (some "failed to read client proof")) := by decide +kernel
  have hsp : SpendsInvite freshServer abandoned ⟨"key","invite"⟩ :=
    ⟨⟨by decide,by decide,1,by decide,by decide⟩,true,true,_,rfl⟩
  exact ⟨hsp,(failed_handshake_effects toyCrypto .tcp freshServer afterAbandoned abandoned _
    hrun).2 _ hsp⟩

end Bonded.HandshakeEffects
