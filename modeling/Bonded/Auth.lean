import Bonded.Table

/-! Device authentication: the challenge signature, the authorized-keys store and the
invite tokens, each with its file. -/
namespace Bonded.Auth

/-- The libraries behind the checks: base64 decoding, and ed25519 keys and signatures. -/
structure Crypto where
  decodeStandard : String → Option (List UInt8)
  decodeUrlSafe : String → Option (List UInt8)
  encodeUrlSafe : List UInt8 → String
  validKey : List UInt8 → Bool
  verify : List UInt8 → List UInt8 → List UInt8 → Bool

inductive AuthError
  | invalidBase64
  | invalidPublicKeyLength (found : ℕ)
  | invalidSignatureLength (found : ℕ)
  | signatureVerificationFailed
  deriving DecidableEq, Repr

/-- The bytes of a public key that can verify signatures. -/
def verifyingKey (c : Crypto) (publicKeyB64 : String) : Except AuthError (List UInt8) :=
  match c.decodeStandard publicKeyB64 with
  | none => .error .invalidBase64
  | some key =>
    if key.length ≠ 32 then .error (.invalidPublicKeyLength key.length)
    else if c.validKey key then .ok key
    else .error (.invalidPublicKeyLength key.length)

def signatureBytes (c : Crypto) (signatureB64 : String) : Except AuthError (List UInt8) :=
  match c.decodeStandard signatureB64 with
  | none => .error .invalidBase64
  | some signature =>
    if signature.length ≠ 64 then .error (.invalidSignatureLength signature.length)
    else .ok signature

def verifySignature (c : Crypto) (publicKeyB64 : String) (message : List UInt8)
    (signatureB64 : String) : Except AuthError Unit :=
  match verifyingKey c publicKeyB64 with
  | .error e => .error e
  | .ok key =>
    match signatureBytes c signatureB64 with
    | .error e => .error e
    | .ok signature =>
      if c.verify key message signature then .ok () else .error .signatureVerificationFailed

def verifyAuthChallenge (c : Crypto) (publicKeyB64 challengeB64 signatureB64 : String) :
    Except AuthError Unit :=
  match verifyingKey c publicKeyB64 with
  | .error e => .error e
  | .ok key =>
    match c.decodeUrlSafe challengeB64 with
    | none => .error .invalidBase64
    | some challenge =>
      match signatureBytes c signatureB64 with
      | .error e => .error e
      | .ok signature =>
        if c.verify key challenge signature then .ok () else .error .signatureVerificationFailed

/-- A challenge is the text of 32 random bytes. -/
def challengeText (c : Crypto) (raw : List UInt8) : String := c.encodeUrlSafe raw

/-- A file of entries: missing, not readable or not well formed, or with its entries. -/
inductive File (α : Type)
  | absent
  | broken
  | entries (items : List α)
  deriving DecidableEq, Repr

/-- A missing file counts as an empty one. -/
def File.load {α : Type} : File α → Option (List α)
  | .absent => some []
  | .broken => none
  | .entries items => some items

structure AuthorizedDevice where
  deviceId : String
  publicKey : String
  addedAt : Option String
  deriving DecidableEq, Repr

/-- The devices by public key; of two entries for one key the later one stays. -/
def devicesMap (devices : List AuthorizedDevice) : Table String AuthorizedDevice :=
  devices.foldl (fun t d => t.set d.publicKey d) ∅

def loadDevicesMap (file : File AuthorizedDevice) : Option (Table String AuthorizedDevice) :=
  file.load.map devicesMap

def isAuthorized (devices : Table String AuthorizedDevice) (publicKey : String) : Bool :=
  devices.contains publicKey

/-- The entry that `authorizeDeviceKey` adds for a key. -/
def newDevice (publicKey : String) : AuthorizedDevice :=
  ⟨"device-"++String.ofList (publicKey.toList.take 8),publicKey,none⟩

/-- The devices to write for a key, or `none` if the key is there already. -/
def authorizeDeviceKey (devices : List AuthorizedDevice) (publicKey : String) :
    Option (List AuthorizedDevice) :=
  if devices.any fun d => d.publicKey = publicKey then none
  else some (devices++[newDevice publicKey])

structure InviteToken where
  token : String
  expiresAt : String
  usesRemaining : UInt32
  deriving DecidableEq, Repr

inductive InviteTokenError
  | notFound
  | exhausted
  deriving DecidableEq, Repr

abbrev InviteTokenManager := Table String InviteToken

def fromTokens (tokens : List InviteToken) : InviteTokenManager :=
  tokens.foldl (fun t x => t.set x.token x) ∅

def loadManager (file : File InviteToken) : Option InviteTokenManager :=
  file.load.map fromTokens

/-- Use a token once. The expiry text is not looked at. -/
def redeem (manager : InviteTokenManager) (token : String) :
    Except InviteTokenError InviteTokenManager :=
  match manager.get token with
  | none => .error .notFound
  | some t =>
    if t.usesRemaining = 0 then .error .exhausted
    else .ok (manager.set token {t with usesRemaining := t.usesRemaining-1})

def allTokens (manager : InviteTokenManager) : List InviteToken :=
  manager.toList.map Prod.snd

/-- The characters that the source's `trim` removes. -/
def isWhitespace (c : Char) : Bool :=
  let n := c.toNat
  (9 ≤ n ∧ n ≤ 13) ∨ n = 0x20 ∨ n = 0x85 ∨ n = 0xa0 ∨ n = 0x1680 ∨ (0x2000 ≤ n ∧ n ≤ 0x200a) ∨
    n = 0x2028 ∨ n = 0x2029 ∨ n = 0x202f ∨ n = 0x205f ∨ n = 0x3000

/-- Nothing is left of the text after `trim`. -/
def isBlank (s : String) : Bool := s.toList.all isWhitespace

/-- A successful verification is one of the key's bytes over the challenge's bytes. -/
theorem verifyAuthChallenge_ok {c : Crypto} {publicKeyB64 challengeB64 signatureB64 : String}
    (h : verifyAuthChallenge c publicKeyB64 challengeB64 signatureB64 = .ok ()) :
    ∃ key challenge signature, verifyingKey c publicKeyB64 = .ok key ∧
      c.decodeUrlSafe challengeB64 = some challenge ∧
      signatureBytes c signatureB64 = .ok signature ∧ c.verify key challenge signature = true := by
  unfold verifyAuthChallenge at h
  split at h
  · cases h
  · next key hk =>
    split at h
    · cases h
    · next challenge hc =>
      split at h
      · cases h
      · next signature hs =>
        split at h
        · next hv => exact ⟨key,challenge,signature,hk,hc,hs,hv⟩
        · cases h

theorem isAuthorized_devicesMap (devices : List AuthorizedDevice) (publicKey : String) :
    isAuthorized (devicesMap devices) publicKey = true ↔ ∃ d ∈ devices, d.publicKey = publicKey := by
  rw [isAuthorized,Table.contains,devicesMap,Table.get_foldl_set AuthorizedDevice.publicKey,
    Table.get_empty,Option.or_none,List.find?_isSome]
  simp

variable {devices : List AuthorizedDevice} {publicKey : String} {manager : InviteTokenManager}

theorem authorizeDeviceKey_mem {written : List AuthorizedDevice}
    (h : authorizeDeviceKey devices publicKey = some written) :
    ∃ d ∈ written, d.publicKey = publicKey := by
  unfold authorizeDeviceKey at h
  split at h
  · cases h
  · cases h
    exact ⟨newDevice publicKey,by simp,rfl⟩

theorem authorizeDeviceKey_none (h : authorizeDeviceKey devices publicKey = none) :
    ∃ d ∈ devices, d.publicKey = publicKey := by
  unfold authorizeDeviceKey at h
  split at h
  · next hany => simpa using hany
  · cases h

/-- A key that is added was not there. -/
theorem authorizeDeviceKey_some {written : List AuthorizedDevice}
    (h : authorizeDeviceKey devices publicKey = some written) :
    (∀ d ∈ devices, d.publicKey ≠ publicKey) ∧ written = devices++[newDevice publicKey] := by
  unfold authorizeDeviceKey at h
  split at h
  · cases h
  · next hany =>
    cases h
    exact ⟨by simpa using hany,rfl⟩

theorem redeem_ok {manager' : InviteTokenManager} {token : String}
    (h : redeem manager token = .ok manager') :
    ∃ t, manager.get token = some t ∧ t.usesRemaining ≠ 0 ∧
      manager' = manager.set token {t with usesRemaining := t.usesRemaining-1} := by
  unfold redeem at h
  split at h
  · cases h
  · next t ht =>
    split at h
    · cases h
    · next hu => cases h; exact ⟨t,ht,hu,rfl⟩

/-- Every token stands under its own value. -/
def Keyed (manager : InviteTokenManager) : Prop :=
  ∀ k t, manager.get k = some t → t.token = k

theorem keyed_set {k : String} {t : InviteToken} (h : Keyed manager) (ht : t.token = k) :
    Keyed (manager.set k t) := by
  intro k' t' hget
  rw [Table.get_set] at hget
  split at hget
  · next hk => cases hget; exact ht.trans hk.symm
  · exact h k' t' hget

theorem keyed_fromTokens (tokens : List InviteToken) : Keyed (fromTokens tokens) := by
  intro k t hget
  rw [fromTokens,Table.get_foldl_set InviteToken.token,Table.get_empty,Option.or_none] at hget
  simpa using List.find?_some hget

theorem keyed_loadManager {file : File InviteToken} (h : loadManager file = some manager) :
    Keyed manager := by
  obtain ⟨tokens,-,rfl⟩ := Option.map_eq_some_iff.mp h
  exact keyed_fromTokens tokens

theorem keyed_redeem {manager' : InviteTokenManager} {token : String} (hk : Keyed manager)
    (h : redeem manager token = .ok manager') : Keyed manager' := by
  obtain ⟨t,ht,-,rfl⟩ := redeem_ok h
  exact keyed_set hk (hk token t ht)

theorem get_fromTokens_allTokens (h : Keyed manager) (k : String) :
    (fromTokens (allTokens manager)).get k = manager.get k := by
  rw [fromTokens,Table.get_foldl_set InviteToken.token,Table.get_empty,Option.or_none]
  have hmem : ∀ t : InviteToken, t ∈ (allTokens manager).reverse ↔ manager.get t.token = some t := by
    intro t
    simp only [allTokens,List.mem_reverse,List.mem_map,Prod.exists,exists_eq_right]
    constructor
    · rintro ⟨k,hk⟩
      rw [Table.mem_toList] at hk
      exact h k t hk ▸ hk
    · intro ht
      exact ⟨t.token,(Table.mem_toList _ _ _).mpr ht⟩
  cases hfind : (allTokens manager).reverse.find? fun t => t.token = k with
  | some t =>
    have htoken : t.token = k := by simpa using List.find?_some hfind
    rw [← htoken,(hmem t).mp (List.mem_of_find?_eq_some hfind)]
  | none =>
    cases hget : manager.get k with
    | none => rfl
    | some t =>
      have htoken := h k t hget
      have hnot := List.find?_eq_none.mp hfind t ((hmem t).mpr (htoken ▸ hget))
      simp [htoken] at hnot

/-- The remaining uses of a token in the file. -/
def usesLeft (file : File InviteToken) (token : String) : Option UInt32 :=
  (loadManager file).bind fun manager => (manager.get token).map (·.usesRemaining)

theorem usesLeft_load {file : File InviteToken} (h : loadManager file = some manager)
    (token : String) : usesLeft file token = (manager.get token).map (·.usesRemaining) := by
  simp [usesLeft,h]

theorem usesLeft_written (h : Keyed manager) (token : String) :
    usesLeft (.entries (allTokens manager)) token = (manager.get token).map (·.usesRemaining) := by
  rw [usesLeft_load (show loadManager (.entries (allTokens manager)) = some _ from rfl),get_fromTokens_allTokens h]

end Bonded.Auth
