import Bonded.PeerShare
import Bonded.SnapshotJson

/-! The registration of a relay: the control frame that carries a signed introduction as nested
JSON objects, and how the frame is read back. -/
namespace Bonded.RelayRegistration

open Bootstrap (PeerShareIntroductionClaims)
open JsonParser JsonText Session
open PeerShare (Outcome SignedPeerShareIntroduction)
open SnapshotJson (lookup asString asUnsigned lookup_of_mem asUnsigned_number)

section Code

def claimsFields (claims : PeerShareIntroductionClaims) : List (String × Value) :=
  [("consumer_device_public_key",.text claims.consumerDevicePublicKey),
    ("provider_device_public_key",.text claims.providerDevicePublicKey),
    ("provider_instance_nonce",.text claims.providerInstanceNonce),
    ("provider_endpoint",.text claims.providerEndpoint),
    ("listener_transport",.text claims.listenerTransport),
    ("listener_cert_fingerprint",.text claims.listenerCertFingerprint),
    ("expires_at",.number claims.expiresAt)]

def signedText (i : SignedPeerShareIntroduction) : List Char :=
  '\x7b'::(JsonText.quoted "introduction"++ ':'::(JsonText.object (claimsFields i.introduction)++
    ','::(JsonText.quoted "server_signature"++ ':'::(JsonText.quoted i.serverSignature++
      ['\x7d']))))

def registrationText (i : SignedPeerShareIntroduction) : List Char :=
  '\x7b'::(JsonText.quoted "introduction"++ ':'::(signedText i++['\x7d']))

/-- Serialising strings and numbers does not fail. -/
def intoControlFrame (i : SignedPeerShareIntroduction) : SessionFrame :=
  ⟨⟨0,0,flagPeerRelayRegistration⟩,utf8 (String.ofList (registrationText i))⟩

def fromControlFrame (fromSlice : List UInt8 → Option SignedPeerShareIntroduction)
    (frame : SessionFrame) : Outcome SignedPeerShareIntroduction :=
  if frame.header.flags &&& flagPeerRelayRegistration = 0 then
    .error (some "session frame did not contain a peer relay registration")
  else
    match fromSlice frame.payload with
    | none => .error none
    | some i => .ok i

/-- The library reads a registration back that it has written; its number has 64 bits. -/
structure ReadsRegistrations (fromSlice : List UInt8 → Option SignedPeerShareIntroduction) :
    Prop where
  reads : ∀ i, i.introduction.expiresAt < 2^64 →
    fromSlice (intoControlFrame i).payload = some i

end Code

section Reading

def readClaims (json : Json) : Option PeerShareIntroductionClaims := do
  let text (key : String) := (lookup key json).bind asString
  let consumer ← text "consumer_device_public_key"
  let provider ← text "provider_device_public_key"
  let nonce ← text "provider_instance_nonce"
  let endpoint ← text "provider_endpoint"
  let transport ← text "listener_transport"
  let fingerprint ← text "listener_cert_fingerprint"
  let expires ← (lookup "expires_at" json).bind (asUnsigned (2^64))
  return ⟨consumer,provider,nonce,endpoint,transport,fingerprint,expires⟩

def readSigned (json : Json) : Option SignedPeerShareIntroduction := do
  let claims ← (lookup "introduction" json).bind readClaims
  let signature ← (lookup "server_signature" json).bind asString
  return ⟨claims,signature⟩

/-- A reader of registrations: bytes that are text, JSON, and the fields of the structures. -/
def readRegistration (bytes : List UInt8) : Option SignedPeerShareIntroduction := do
  let text ← String.fromUTF8? ⟨bytes.toArray⟩
  let json ← parse text
  (lookup "introduction" json).bind readSigned

end Reading

section Texts

theorem escape_plain {c : Char} (hquote : c ≠ '"') (hslash : c ≠ '\\') (hcode : 32 ≤ c.toNat) :
    escape c = [c] := by
  unfold escape
  rw [if_neg hquote,if_neg hslash,if_neg (by omega),if_neg (by omega),if_neg (by omega),
    if_neg (by omega),if_neg (by omega),if_neg (by omega)]

theorem escape_ne_nil (c : Char) : escape c ≠ [] := by
  unfold escape
  split_ifs <;> simp

theorem written_escape (c : Char) : Written (escape c) (some c) := by
  intro rest
  by_cases hquote : c = '"'
  · subst hquote; exact ⟨nofun,rfl⟩
  by_cases hslash : c = '\\'
  · subst hslash; exact ⟨nofun,rfl⟩
  by_cases hcontrol : c.toNat < 32
  · obtain ⟨n,rfl⟩ := control_cases hcontrol
    fin_cases n <;> exact ⟨nofun,rfl⟩
  · rw [escape_plain hquote hslash (Nat.not_lt.mp hcontrol)]
    exact ⟨fun h => hquote (Option.some.inj h),
      nextChar_plain hslash (Nat.not_lt.mp hcontrol) rest⟩

theorem gives_quoted_text (s : String) : Gives (JsonText.quoted s) (some (.string s)) := by
  have h : Gives ('"'::(s.toList.flatMap escape++['"']))
      (if s.toList.all (fun _ => true) then some (.string s) else none) :=
    gives_string fun c _ => ⟨escape_ne_nil c,written_escape c⟩
  rwa [List.all_eq_true.mpr fun _ _ => rfl,if_pos rfl] at h

def jsonOf : Value → Json
  | .text s => .string s
  | .number n => .number n 0

def memberOf (m : String × Value) : Member := ⟨m.1,m.2.print,some (jsonOf m.2)⟩

theorem gives_print (v : Value) : Gives v.print (some (jsonOf v)) := by
  cases v with
  | text s => exact gives_quoted_text s
  | number n => exact gives_number n

theorem quoted_plain {s : String} (h : Plain s) :
    JsonText.quoted s = '"'::(s.toList++['"']) := by
  have hsame : s.toList.flatMap escape = s.toList := by
    rw [List.flatMap_congr fun c hc => escape_plain (h c hc).1 (h c hc).2.1 (h c hc).2.2]
    simp
  rw [JsonText.quoted,hsame]

theorem member_eq_print {m : String × Value} (h : Plain m.1) :
    JsonText.member m = (memberOf m).print := by
  rw [JsonText.member,quoted_plain h]
  simp [memberOf,Member.print]

theorem object_eq_print {m : String × Value} {ms : List (String × Value)}
    (h : ∀ x ∈ m::ms, Plain x.1) :
    JsonText.object (m::ms) = '\x7b'::printMembers ((m::ms).map memberOf) := by
  have hmembers : JsonText.member m++further ms = printMembers ((m::ms).map memberOf) := by
    induction ms generalizing m with
    | nil =>
      rw [member_eq_print (h m (by simp))]
      rfl
    | cons m' ms ih =>
      have hrest := ih fun x hx => h x (List.mem_cons_of_mem m hx)
      rw [further,hrest,member_eq_print (h m (by simp))]
      rfl
  rw [JsonText.object,hmembers]

end Texts

section RoundTrip

variable (i : SignedPeerShareIntroduction)

def claimsJson (claims : PeerShareIntroductionClaims) : Json :=
  .object ((claimsFields claims).map fun m => (m.1,jsonOf m.2))

def signedJson : Json :=
  .object [("introduction",claimsJson i.introduction),("server_signature",.string i.serverSignature)]

theorem plain_claimsFields (claims : PeerShareIntroductionClaims) :
    ∀ m ∈ claimsFields claims, Plain m.1 := by
  simp only [claimsFields,List.forall_mem_cons]
  refine ⟨?_,?_,?_,?_,?_,?_,?_,by simp⟩ <;> simp [Plain]

theorem gives_claims (claims : PeerShareIntroductionClaims) :
    GivesFrom 8 (JsonText.object (claimsFields claims)) (some (claimsJson claims)) := by
  have hplain := plain_claimsFields claims
  have hsound : ∀ m ∈ (claimsFields claims).map memberOf, m.SoundFrom 0 := by
    intro m hm
    obtain ⟨field,hfield,rfl⟩ := List.mem_map.mp hm
    exact ⟨hplain field hfield,(gives_print field.2).from 0⟩
  have h := gives_object hsound (List.cons_ne_nil _ _)
  rw [claimsFields,object_eq_print hplain]
  exact h

def signedMembers : List Member :=
  [⟨"introduction",JsonText.object (claimsFields i.introduction),some (claimsJson i.introduction)⟩,
    ⟨"server_signature",JsonText.quoted i.serverSignature,some (.string i.serverSignature)⟩]

theorem plain_introduction : Plain "introduction" := by simp [Plain]

theorem plain_serverSignature : Plain "server_signature" := by simp [Plain]

theorem gives_signed : GivesFrom 11 (signedText i) (some (signedJson i)) := by
  have hsound : ∀ m ∈ signedMembers i, m.SoundFrom 8 := by
    simp only [signedMembers,List.forall_mem_cons]
    exact ⟨⟨plain_introduction,gives_claims i.introduction⟩,
      ⟨plain_serverSignature,(gives_quoted_text i.serverSignature).from 8⟩,by simp⟩
  have htext : signedText i = '\x7b'::printMembers (signedMembers i) := by
    rw [signedText,quoted_plain plain_introduction,quoted_plain plain_serverSignature]
    simp [signedMembers,printMembers,Member.print]
  rw [htext]
  exact gives_object hsound (List.cons_ne_nil _ _)

theorem parse_registration :
    parse (String.ofList (registrationText i)) = some (.object [("introduction",signedJson i)]) := by
  let m : Member := ⟨"introduction",signedText i,some (signedJson i)⟩
  have hsound : ∀ x ∈ [m], x.SoundFrom 11 := by
    rw [List.forall_mem_singleton]
    exact ⟨plain_introduction,gives_signed i⟩
  have htext : registrationText i = '\x7b'::printMembers [m] := by
    rw [registrationText,quoted_plain plain_introduction]
    simp [m,printMembers,Member.print]
  have hlength : 13 ≤ (registrationText i).length := by
    rw [registrationText,quoted_plain plain_introduction]
    simp
  refine parse_of_gives (n := 13) ?_ (by rwa [String.toList_ofList])
  rw [String.toList_ofList,htext]
  exact gives_object hsound (List.cons_ne_nil _ _)

variable {i}

theorem readClaims_claimsJson {claims : PeerShareIntroductionClaims}
    (h : claims.expiresAt < 2^64) : readClaims (claimsJson claims) = some claims := by
  have hnodup : (((claimsFields claims).map fun m => (m.1,jsonOf m.2)).map Prod.fst).Nodup := by
    simp only [claimsFields,List.map_cons,List.map_nil]
    decide
  have hexpires : (lookup "expires_at" (claimsJson claims)).bind (asUnsigned (2^64)) =
      some claims.expiresAt := by
    have hmem : ("expires_at",Json.number claims.expiresAt 0) ∈
        (claimsFields claims).map fun m => (m.1,jsonOf m.2) := by simp [claimsFields,jsonOf]
    rw [claimsJson,lookup_of_mem hnodup hmem,Option.bind_some,asUnsigned_number h]
  unfold readClaims
  rw [hexpires]
  rfl

theorem lookup_first (key : String) (value : Json) (ms : List (String × Json)) :
    lookup key (.object ((key,value)::ms)) = some value := by
  simp [lookup]

theorem readSigned_signedJson (h : i.introduction.expiresAt < 2^64) :
    readSigned (signedJson i) = some i := by
  have hclaims : (lookup "introduction" (signedJson i)).bind readClaims =
      some i.introduction := by
    rw [signedJson,lookup_first,Option.bind_some,readClaims_claimsJson h]
  unfold readSigned
  rw [hclaims]
  rfl

theorem fromUTF8_utf8 (s : String) : String.fromUTF8? ⟨(utf8 s).toArray⟩ = some s := by
  have hbytes : (⟨(utf8 s).toArray⟩ : ByteArray) = s.toByteArray := by
    rw [utf8,toList_eq_data,Array.toArray_toList,String.toUTF8_eq_toByteArray]
  rw [hbytes,String.fromUTF8?,dif_pos s.isValidUTF8]
  rfl

theorem readRegistration_eq (bytes : List UInt8) :
    readRegistration bytes = (String.fromUTF8? ⟨bytes.toArray⟩).bind fun text =>
      (parse text).bind fun json => (lookup "introduction" json).bind readSigned := rfl

theorem readRegistration_reads : ReadsRegistrations readRegistration := by
  refine ⟨fun i h => ?_⟩
  have hpayload : (intoControlFrame i).payload = utf8 (String.ofList (registrationText i)) := rfl
  rw [readRegistration_eq,hpayload,fromUTF8_utf8,Option.bind_some,parse_registration,
    Option.bind_some,lookup_first,Option.bind_some,readSigned_signedJson h]

end RoundTrip

end Bonded.RelayRegistration
