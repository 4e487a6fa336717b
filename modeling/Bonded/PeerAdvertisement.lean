import Bonded.Http

/-! The advertisement of a peer-share provider and its TXT records. A list of capabilities is one
record, joined by commas; reading it back drops empty pieces. -/
namespace Bonded.PeerAdvertisement

open Http (parseUnsigned parseUnsigned_digits)
open PeerShare

section Code

structure PeerShareAdvertisement where
  version : UInt16
  devicePublicKey : String
  serverPublicKey : String
  instanceNonce : String
  endpoint : String
  listenerCertFingerprint : String
  capabilities : List String
  deriving DecidableEq, Repr

/-- The texts with a comma between each two. -/
def join (texts : List String) : String :=
  String.ofList ([','].intercalate (texts.map String.toList))

/-- The pieces of a text between its commas; a text without a comma is one piece. -/
def split (text : String) : List String := (text.toList.splitOn ',').map String.ofList

def txtRecords (a : PeerShareAdvertisement) : List (String × String) :=
  [("version",String.ofList (Nat.toDigits 10 a.version.toNat)),
    ("device_key",a.devicePublicKey),
    ("server_key",a.serverPublicKey),
    ("instance_nonce",a.instanceNonce),
    ("endpoint",a.endpoint),
    ("cert_fingerprint",a.listenerCertFingerprint),
    ("capabilities",join a.capabilities)]

/-- A list of records as a map; of two records with one key the later one stays. -/
def collect (records : List (String × String)) : Table String String :=
  records.foldl (fun t r => t.set r.1 r.2) ∅

def requiredTxtRecord (records : Table String String) (key : String) : Outcome String :=
  match records.get key with
  | some value => .ok value
  | none => .error (some ("missing peer advertisement TXT record: "++key))

/-- The version is a `u16`; the cause of a text that is none is the library's. -/
def parseVersion (text : String) : Outcome UInt16 :=
  match parseUnsigned (2^16) text.toList with
  | some n => .ok (UInt16.ofNat n)
  | none => .error none

def parseCapabilities (text : String) : List String := (split text).filter (· ≠ "")

def fromTxtRecordMap (records : Table String String) : Outcome PeerShareAdvertisement := do
  let version ← parseVersion (← requiredTxtRecord records "version")
  let devicePublicKey ← requiredTxtRecord records "device_key"
  let serverPublicKey ← requiredTxtRecord records "server_key"
  let instanceNonce ← requiredTxtRecord records "instance_nonce"
  let endpoint ← requiredTxtRecord records "endpoint"
  let listenerCertFingerprint ← requiredTxtRecord records "cert_fingerprint"
  let capabilities ← requiredTxtRecord records "capabilities"
  return ⟨version,devicePublicKey,serverPublicKey,instanceNonce,endpoint,listenerCertFingerprint,
    parseCapabilities capabilities⟩

end Code

section Capabilities

/-- What a capability has to be to survive the record. -/
def Plain (text : String) : Prop := text ≠ "" ∧ ',' ∉ text.toList

theorem not_mem_of_mem_splitOn {α : Type} [DecidableEq α] {sep : α} {xs piece : List α}
    (h : piece ∈ xs.splitOn sep) : sep ∉ piece := by
  induction xs generalizing piece with
  | nil =>
    rw [List.splitOn_nil,List.mem_singleton] at h
    rw [h]
    exact List.not_mem_nil
  | cons x xs ih =>
    rw [List.splitOn_cons_eq_if_modifyHead] at h
    split at h
    · rcases List.mem_cons.mp h with rfl | h
      · exact List.not_mem_nil
      · exact ih h
    · next hx =>
      have hne : sep ≠ x := fun heq => hx (by simp [heq])
      cases hsplit : xs.splitOn sep with
      | nil => exact absurd hsplit (List.splitOn_ne_nil sep xs)
      | cons first rest =>
        rw [hsplit,List.modifyHead_cons] at h
        rcases List.mem_cons.mp h with rfl | h
        · intro hmem
          rcases List.mem_cons.mp hmem with heq | hmem
          · exact hne heq
          · exact ih (by rw [hsplit]; exact List.mem_cons_self) hmem
        · exact ih (by rw [hsplit]; exact List.mem_cons_of_mem first h)

theorem plain_of_mem_parseCapabilities {text capability : String}
    (h : capability ∈ parseCapabilities text) : Plain capability := by
  obtain ⟨hsplit,hne⟩ := List.mem_filter.mp h
  obtain ⟨piece,hpiece,rfl⟩ := List.mem_map.mp hsplit
  refine ⟨by simpa using hne,?_⟩
  rw [String.toList_ofList]
  exact not_mem_of_mem_splitOn hpiece

theorem split_join {texts : List String} (hne : texts ≠ []) (h : ∀ t ∈ texts, Plain t) :
    split (join texts) = texts := by
  have hpieces : ∀ l ∈ texts.map String.toList, ',' ∉ l := by
    intro l hl
    obtain ⟨t,ht,rfl⟩ := List.mem_map.mp hl
    exact (h t ht).2
  rw [split,join,String.toList_ofList,
    List.splitOn_intercalate ',' hpieces (by simpa using hne),List.map_map]
  simp [Function.comp_def]

/-- A list of capabilities comes back exactly if each of them is plain. -/
theorem parseCapabilities_join (texts : List String) :
    parseCapabilities (join texts) = texts ↔ ∀ t ∈ texts, Plain t := by
  constructor
  · intro h t ht
    rw [← h] at ht
    exact plain_of_mem_parseCapabilities ht
  · intro h
    cases texts with
    | nil => rfl
    | cons t ts =>
      rw [parseCapabilities,split_join (List.cons_ne_nil t ts) h,List.filter_eq_self]
      intro u hu
      simpa using (h u hu).1

end Capabilities

section Records

theorem parseVersion_digits (version : UInt16) :
    parseVersion (String.ofList (Nat.toDigits 10 version.toNat)) = .ok version := by
  have hlt : version.toNat < 2^16 := version.toNat_lt
  simp only [parseVersion,String.toList_ofList,parseUnsigned_digits hlt,UInt16.ofNat_toNat]

/-- What has to stand in a map for an advertisement to be read from it. -/
structure Holds (records : Table String String) (a : PeerShareAdvertisement) : Prop where
  version : ∃ text, records.get "version" = some text ∧ parseVersion text = .ok a.version
  devicePublicKey : records.get "device_key" = some a.devicePublicKey
  serverPublicKey : records.get "server_key" = some a.serverPublicKey
  instanceNonce : records.get "instance_nonce" = some a.instanceNonce
  endpoint : records.get "endpoint" = some a.endpoint
  listenerCertFingerprint : records.get "cert_fingerprint" = some a.listenerCertFingerprint
  capabilities : ∃ text, records.get "capabilities" = some text ∧
    parseCapabilities text = a.capabilities

theorem requiredTxtRecord_ok {records : Table String String} {key value : String} :
    requiredTxtRecord records key = .ok value ↔ records.get key = some value := by
  unfold requiredTxtRecord
  cases records.get key <;> simp

theorem ok_of_bind {α β : Type} {first : Outcome α} {rest : α → Outcome β} {b : β}
    (h : first >>= rest = .ok b) : ∃ a, first = .ok a ∧ rest a = .ok b := by
  cases first with
  | error cause => cases h
  | ok a => exact ⟨a,rfl,h⟩

theorem fromTxtRecordMap_ok {records : Table String String} {a : PeerShareAdvertisement} :
    fromTxtRecordMap records = .ok a ↔ Holds records a := by
  constructor
  · intro h
    obtain ⟨text,hversion,h⟩ := ok_of_bind h
    obtain ⟨version,hparse,h⟩ := ok_of_bind h
    obtain ⟨devicePublicKey,hdevice,h⟩ := ok_of_bind h
    obtain ⟨serverPublicKey,hserver,h⟩ := ok_of_bind h
    obtain ⟨instanceNonce,hnonce,h⟩ := ok_of_bind h
    obtain ⟨endpoint,hend,h⟩ := ok_of_bind h
    obtain ⟨fingerprint,hcert,h⟩ := ok_of_bind h
    obtain ⟨capabilities,hcaps,h⟩ := ok_of_bind h
    cases h
    rw [requiredTxtRecord_ok] at hversion hdevice hserver hnonce hend hcert hcaps
    exact ⟨⟨text,hversion,hparse⟩,hdevice,hserver,hnonce,hend,hcert,
      ⟨capabilities,hcaps,rfl⟩⟩
  · rintro ⟨⟨text,hversion,hparse⟩,hdevice,hserver,hnonce,hend,hcert,
      ⟨capabilities,hcaps,hsplit⟩⟩
    rw [← requiredTxtRecord_ok] at hversion hdevice hserver hnonce hend hcert hcaps
    simp only [fromTxtRecordMap,hversion,hparse,hdevice,hserver,hnonce,hend,hcert,
      hcaps,hsplit,bind,Except.bind,pure,Except.pure]

theorem get_txtRecords {a : PeerShareAdvertisement} {key value : String}
    (h : (key,value) ∈ txtRecords a) : (collect (txtRecords a)).get key = some value := by
  simp only [txtRecords,List.mem_cons,List.not_mem_nil,or_false,Prod.mk.injEq] at h
  rcases h with ⟨rfl,rfl⟩ | ⟨rfl,rfl⟩ | ⟨rfl,rfl⟩ | ⟨rfl,rfl⟩ | ⟨rfl,rfl⟩ | ⟨rfl,rfl⟩ |
    ⟨rfl,rfl⟩ <;>
    simp [collect,txtRecords,Table.get_set]

/-- What is read from the records of an advertisement: everything as it is, but the
capabilities split at every comma. -/
theorem fromTxtRecordMap_txtRecords (a : PeerShareAdvertisement) :
    fromTxtRecordMap (collect (txtRecords a)) =
      .ok {a with capabilities := parseCapabilities (join a.capabilities)} := by
  refine fromTxtRecordMap_ok.mpr ⟨⟨_,get_txtRecords ?_,parseVersion_digits a.version⟩,
    get_txtRecords ?_,get_txtRecords ?_,get_txtRecords ?_,get_txtRecords ?_,get_txtRecords ?_,
    ⟨_,get_txtRecords ?_,rfl⟩⟩ <;>
    simp [txtRecords]

/-- The records of an advertisement give it back exactly if its capabilities are plain, and
otherwise change its capabilities only. What was read once is read again. -/
theorem txt_round_trip (a : PeerShareAdvertisement) (records : Table String String) :
    (fromTxtRecordMap (collect (txtRecords a)) = .ok a ↔
        ∀ c ∈ a.capabilities, c ≠ "" ∧ ',' ∉ c.toList) ∧
      fromTxtRecordMap (collect (txtRecords a)) =
        .ok {a with capabilities := (split (join a.capabilities)).filter (· ≠ "")} ∧
      ∀ p, fromTxtRecordMap records = .ok p →
        fromTxtRecordMap (collect (txtRecords p)) = .ok p := by
  have hback : ∀ b : PeerShareAdvertisement,
      fromTxtRecordMap (collect (txtRecords b)) = .ok b ↔ ∀ c ∈ b.capabilities, Plain c := by
    intro b
    rw [fromTxtRecordMap_txtRecords,← parseCapabilities_join]
    cases b
    simp
  refine ⟨hback a,fromTxtRecordMap_txtRecords a,?_⟩
  intro p hp
  obtain ⟨text,-,hsplit⟩ := (fromTxtRecordMap_ok.mp hp).capabilities
  refine (hback p).mpr ?_
  rw [← hsplit]
  exact fun c hc => plain_of_mem_parseCapabilities hc

/-- A version with a sign and leading zeros, and a capability list with empty pieces. -/
def looseRecords : Table String String :=
  collect [("capabilities",",relay,,quic,"),("version","+007"),("device_key","d"),
    ("server_key","s"),("instance_nonce","n"),("endpoint","e"),("cert_fingerprint","f")]

def looseAdvertisement : PeerShareAdvertisement := ⟨7,"d","s","n","e","f",["relay","quic"]⟩

theorem loose_records_round_trip :
    fromTxtRecordMap looseRecords = .ok looseAdvertisement ∧
      fromTxtRecordMap (collect (txtRecords looseAdvertisement)) = .ok looseAdvertisement := by
  have hread : fromTxtRecordMap looseRecords = .ok looseAdvertisement := by decide +kernel
  exact ⟨hread,(txt_round_trip looseAdvertisement looseRecords).2.2 looseAdvertisement hread⟩

end Records

end Bonded.PeerAdvertisement
