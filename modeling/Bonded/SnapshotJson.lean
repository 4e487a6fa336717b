import Bonded.JsonParser

/-! The snapshot of a session as JSON text, as it crosses the foreign function interface. Its
strings are escaped by four replacements, one after the other. -/
namespace Bonded.SnapshotJson

open JsonParser

section Code

/-- The fields of a snapshot that its text has. -/
structure AndroidSessionSnapshot where
  state : String
  serverAddress : String
  activeTransport : String
  transportCount : UInt32
  peerRelayCount : UInt32
  outboundPackets : UInt64
  inboundPackets : UInt64
  outboundBytes : UInt64
  inboundBytes : UInt64
  connectedAtMs : UInt64
  lastError : Option String
  deriving DecidableEq, Repr

/-- Every occurrence of a character replaced by a text. -/
def replace (c : Char) (text : List Char) (cs : List Char) : List Char :=
  cs.flatMap fun d => if d = c then text else [d]

def escapeJson (value : String) : String :=
  String.ofList (replace '\r' ['\\','r'] (replace '\n' ['\\','n']
    (replace '"' ['\\','"'] (replace '\\' ['\\','\\'] value.toList))))

/-- A name and a value, as `"name":value`. -/
def entry (name : String) (value : List Char) : List Char := '"'::(name.toList++ '"':: ':'::value)

def quoted (value : String) : List Char := '"'::((escapeJson value).toList++['"'])

def decimal (n : ℕ) : List Char := Nat.toDigits 10 n

def lastErrorText : Option String → List Char
  | some value => quoted value
  | none => ['n','u','l','l']

def snapshotJson (s : AndroidSessionSnapshot) : String :=
  String.ofList ('\x7b'::
    (entry "state" (quoted s.state)++ ','::
    (entry "serverAddress" (quoted s.serverAddress)++ ','::
    (entry "activeTransport" (quoted s.activeTransport)++ ','::
    (entry "transportCount" (decimal s.transportCount.toNat)++ ','::
    (entry "peerRelayCount" (decimal s.peerRelayCount.toNat)++ ','::
    (entry "outboundPackets" (decimal s.outboundPackets.toNat)++ ','::
    (entry "inboundPackets" (decimal s.inboundPackets.toNat)++ ','::
    (entry "outboundBytes" (decimal s.outboundBytes.toNat)++ ','::
    (entry "inboundBytes" (decimal s.inboundBytes.toNat)++ ','::
    (entry "connectedAtMs" (decimal s.connectedAtMs.toNat)++ ','::
    (entry "lastError" (lastErrorText s.lastError)++['\x7d']))))))))))))

end Code

section Reading

def lookup (key : String) : Json → Option Json
  | .object members => (members.find? fun m => m.1 = key).map Prod.snd
  | _ => none

def asString : Json → Option String
  | .string s => some s
  | _ => none

/-- A number without a fraction below a bound. -/
def asUnsigned (bound : ℕ) : Json → Option ℕ
  | .number mantissa exponent =>
    if exponent = 0 ∧ 0 ≤ mantissa ∧ mantissa < bound then some mantissa.toNat else none
  | _ => none

def asOptional : Json → Option (Option String)
  | .null => some none
  | .string s => some (some s)
  | _ => none

/-- The snapshot that an object stands for. -/
def readSnapshot (json : Json) : Option AndroidSessionSnapshot := do
  let text (key : String) := (lookup key json).bind asString
  let u32 (key : String) := ((lookup key json).bind (asUnsigned (2^32))).map UInt32.ofNat
  let u64 (key : String) := ((lookup key json).bind (asUnsigned (2^64))).map UInt64.ofNat
  let state ← text "state"
  let serverAddress ← text "serverAddress"
  let activeTransport ← text "activeTransport"
  let transportCount ← u32 "transportCount"
  let peerRelayCount ← u32 "peerRelayCount"
  let outboundPackets ← u64 "outboundPackets"
  let inboundPackets ← u64 "inboundPackets"
  let outboundBytes ← u64 "outboundBytes"
  let inboundBytes ← u64 "inboundBytes"
  let connectedAtMs ← u64 "connectedAtMs"
  let lastError ← (lookup "lastError" json).bind asOptional
  return ⟨state,serverAddress,activeTransport,transportCount,peerRelayCount,outboundPackets,
    inboundPackets,outboundBytes,inboundBytes,connectedAtMs,lastError⟩

end Reading

section Escapes

/-- A character as the four replacements leave it. -/
def write (c : Char) : List Char :=
  if c = '\\' then ['\\','\\']
  else if c = '"' then ['\\','"']
  else if c = '\n' then ['\\','n']
  else if c = '\r' then ['\\','r']
  else [c]

/-- The control characters that JSON refuses and the replacements leave alone. -/
def good (c : Char) : Bool := 32 ≤ c.toNat ∨ c = '\n' ∨ c = '\r'

theorem escapeJson_toList (value : String) :
    (escapeJson value).toList = value.toList.flatMap write := by
  rw [escapeJson,String.toList_ofList]
  simp only [replace,List.flatMap_assoc]
  refine List.flatMap_congr fun c _ => ?_
  unfold write
  by_cases hslash : c = '\\'
  · subst hslash; rfl
  by_cases hquote : c = '"'
  · subst hquote; rfl
  by_cases hline : c = '\n'
  · subst hline; rfl
  by_cases hreturn : c = '\r'
  · subst hreturn; rfl
  · simp [hslash,hquote,hline,hreturn]

theorem write_ne_nil (c : Char) : write c ≠ [] := by
  unfold write
  split_ifs <;> simp

theorem written (c : Char) : Written (write c) (if good c then some c else none) := by
  intro rest
  by_cases hslash : c = '\\'
  · subst hslash; exact ⟨nofun,rfl⟩
  by_cases hquote : c = '"'
  · subst hquote; exact ⟨nofun,rfl⟩
  by_cases hline : c = '\n'
  · subst hline; exact ⟨nofun,rfl⟩
  by_cases hreturn : c = '\r'
  · subst hreturn; exact ⟨nofun,rfl⟩
  have hwrite : write c = [c] := by simp [write,hslash,hquote,hline,hreturn]
  rw [hwrite]
  refine ⟨fun h => hquote (Option.some.inj h),?_⟩
  by_cases hcontrol : 32 ≤ c.toNat
  · have hgood : good c = true := by simp [good,hcontrol]
    rw [hgood]
    exact nextChar_plain hslash hcontrol rest
  · have hgood : good c = false := by simp [good,hcontrol,hline,hreturn]
    rw [hgood]
    exact nextChar_control (Nat.not_le.mp hcontrol) rest

end Escapes

section Snapshots

variable (s : AndroidSessionSnapshot)

def textMember (key text : String) : Member :=
  ⟨key,quoted text,if text.toList.all good then some (.string text) else none⟩

def numberMember (key : String) (n : ℕ) : Member := ⟨key,decimal n,some (.number n 0)⟩

def errorMember (key : String) (error : Option String) : Member :=
  ⟨key,lastErrorText error,
    match error with
    | some text => if text.toList.all good then some (.string text) else none
    | none => some .null⟩

def members : List Member :=
  [textMember "state" s.state,
    textMember "serverAddress" s.serverAddress,
    textMember "activeTransport" s.activeTransport,
    numberMember "transportCount" s.transportCount.toNat,
    numberMember "peerRelayCount" s.peerRelayCount.toNat,
    numberMember "outboundPackets" s.outboundPackets.toNat,
    numberMember "inboundPackets" s.inboundPackets.toNat,
    numberMember "outboundBytes" s.outboundBytes.toNat,
    numberMember "inboundBytes" s.inboundBytes.toNat,
    numberMember "connectedAtMs" s.connectedAtMs.toNat,
    errorMember "lastError" s.lastError]

theorem snapshotJson_toList : (snapshotJson s).toList = '\x7b'::printMembers (members s) :=
  String.toList_ofList

theorem gives_quoted (text : String) :
    Gives (quoted text) (if text.toList.all good then some (.string text) else none) := by
  rw [quoted,escapeJson_toList]
  exact gives_string fun c _ => ⟨write_ne_nil c,written c⟩

theorem textMember_sound {key : String} (h : Plain key) (text : String) :
    (textMember key text).Sound := ⟨h,gives_quoted text⟩

theorem numberMember_sound {key : String} (h : Plain key) (n : ℕ) : (numberMember key n).Sound :=
  ⟨h,gives_number n⟩

theorem errorMember_sound {key : String} (h : Plain key) (error : Option String) :
    (errorMember key error).Sound := by
  cases error with
  | none => exact ⟨h,gives_null⟩
  | some text => exact ⟨h,gives_quoted text⟩

theorem members_sound : ∀ m ∈ members s, m.Sound := by
  simp only [members,List.forall_mem_cons]
  refine ⟨textMember_sound ?_ _,textMember_sound ?_ _,textMember_sound ?_ _,
    numberMember_sound ?_ _,numberMember_sound ?_ _,numberMember_sound ?_ _,
    numberMember_sound ?_ _,numberMember_sound ?_ _,numberMember_sound ?_ _,
    numberMember_sound ?_ _,errorMember_sound ?_ _,by simp⟩ <;>
  · simp [Plain]

theorem parse_snapshotJson :
    parse (snapshotJson s) = (valuesOf (members s)).map Json.object :=
  parse_object (members_sound s) (List.cons_ne_nil _ _) (snapshotJson_toList s)

def texts : List String := [s.state,s.serverAddress,s.activeTransport]++s.lastError.toList

/-- The member of a string that is not printable is refused. -/
theorem refused_of_text {text : String} (htext : text ∈ texts s)
    (hbad : text.toList.all good = false) : parse (snapshotJson s) = none := by
  have hmember : ∃ m ∈ members s, m.value = none := by
    have hvalue : ∀ key, (textMember key text).value = none := fun key => by
      simp only [textMember,hbad,Bool.false_eq_true,if_false]
    rcases List.mem_append.mp htext with htext | htext
    · simp only [List.mem_cons,List.not_mem_nil,or_false] at htext
      rcases htext with rfl | rfl | rfl
      · exact ⟨_,by simp [members],hvalue "state"⟩
      · exact ⟨_,by simp [members],hvalue "serverAddress"⟩
      · exact ⟨_,by simp [members],hvalue "activeTransport"⟩
    · rw [Option.mem_toList] at htext
      refine ⟨errorMember "lastError" s.lastError,by simp [members],?_⟩
      simp only [errorMember,htext,hbad,Bool.false_eq_true,if_false]
  obtain ⟨m,hm,hvalue⟩ := hmember
  rw [parse_snapshotJson,valuesOf_refused hm hvalue]
  rfl

theorem asUnsigned_number {bound n : ℕ} (h : n < bound) :
    asUnsigned bound (.number n 0) = some n := by
  simp [asUnsigned,h]

def errorValue : Option String → Json
  | some text => .string text
  | none => .null

/-- The members of a snapshot as they are read. -/
def values : List (String × Json) :=
  [("state",.string s.state),("serverAddress",.string s.serverAddress),
    ("activeTransport",.string s.activeTransport),
    ("transportCount",.number s.transportCount.toNat 0),
    ("peerRelayCount",.number s.peerRelayCount.toNat 0),
    ("outboundPackets",.number s.outboundPackets.toNat 0),
    ("inboundPackets",.number s.inboundPackets.toNat 0),
    ("outboundBytes",.number s.outboundBytes.toNat 0),
    ("inboundBytes",.number s.inboundBytes.toNat 0),
    ("connectedAtMs",.number s.connectedAtMs.toNat 0),
    ("lastError",errorValue s.lastError)]

theorem valuesOf_members (h : ∀ text ∈ texts s, text.toList.all good = true) :
    valuesOf (members s) = some (values s) := by
  have hstate := h s.state (by simp [texts])
  have haddress := h s.serverAddress (by simp [texts])
  have htransport := h s.activeTransport (by simp [texts])
  have herror : (errorMember "lastError" s.lastError).value = some (errorValue s.lastError) := by
    cases hlast : s.lastError with
    | none => rfl
    | some text =>
      have htext := h text (by simp [texts,hlast])
      simp only [errorMember,htext,if_true,errorValue]
  simp only [members,valuesOf,textMember,numberMember,hstate,haddress,htransport,if_true,herror]
  rfl

theorem lookup_of_mem {ms : List (String × Json)} (hnodup : (ms.map Prod.fst).Nodup) {key : String}
    {value : Json} (h : (key,value) ∈ ms) : lookup key (.object ms) = some value := by
  induction ms with
  | nil => cases h
  | cons m ms ih =>
    obtain ⟨hnot,hnodup⟩ := List.nodup_cons.mp hnodup
    rcases List.mem_cons.mp h with rfl | h
    · simp [lookup]
    · have hne : m.1 ≠ key := fun heq => hnot (heq ▸ List.mem_map_of_mem (f := Prod.fst) h)
      have hrest := ih hnodup h
      simpa [lookup,hne] using hrest

theorem values_nodup : ((values s).map Prod.fst).Nodup := by
  simp only [values,List.map_cons,List.map_nil]
  decide

theorem readSnapshot_values : readSnapshot (.object (values s)) = some s := by
  have hall : ∀ p ∈ values s, lookup p.1 (.object (values s)) = some p.2 :=
    fun _ hp => lookup_of_mem (values_nodup s) hp
  generalize Json.object (values s) = json at hall ⊢
  have htext : ∀ {key text}, lookup key json = some (.string text) →
      (lookup key json).bind asString = some text := by
    intro key text h
    rw [h]
    rfl
  have hu32 : ∀ {key} {n : UInt32}, lookup key json = some (.number n.toNat 0) →
      ((lookup key json).bind (asUnsigned (2^32))).map UInt32.ofNat = some n := by
    intro key n h
    rw [h,Option.bind_some,asUnsigned_number n.toNat_lt]
    simp
  have hu64 : ∀ {key} {n : UInt64}, lookup key json = some (.number n.toNat 0) →
      ((lookup key json).bind (asUnsigned (2^64))).map UInt64.ofNat = some n := by
    intro key n h
    rw [h,Option.bind_some,asUnsigned_number n.toNat_lt]
    simp
  simp only [values,List.forall_mem_cons] at hall
  obtain ⟨h₁,h₂,h₃,h₄,h₅,h₆,h₇,h₈,h₉,h₁₀,h₁₁,-⟩ := hall
  have herror : (lookup "lastError" json).bind asOptional = some s.lastError := by
    rw [h₁₁]
    cases s.lastError <;> rfl
  simp only [readSnapshot,htext h₁,htext h₂,htext h₃,hu32 h₄,hu32 h₅,hu64 h₆,hu64 h₇,hu64 h₈,
    hu64 h₉,hu64 h₁₀,herror,Option.bind_eq_bind,Option.bind_some,Option.pure_def]

theorem read_of_printable (h : ∀ text ∈ texts s, text.toList.all good = true) :
    (parse (snapshotJson s)).bind readSnapshot = some s := by
  rw [parse_snapshotJson,valuesOf_members s h,Option.map_some,Option.bind_some]
  exact readSnapshot_values s

/-- The text is valid JSON and gives the snapshot back exactly if its strings have no control
character below the blank other than the two ends of lines; otherwise a parser refuses it. -/
theorem snapshot_json_iff :
    ((parse (snapshotJson s)).bind readSnapshot = some s ↔
      ∀ text ∈ texts s, ∀ c ∈ text.toList, 32 ≤ c.toNat ∨ c = '\n' ∨ c = '\r') ∧
    ((∃ text ∈ texts s, ∃ c ∈ text.toList, c.toNat < 32 ∧ c ≠ '\n' ∧ c ≠ '\r') →
      parse (snapshotJson s) = none) := by
  have hgood : ∀ text : String, text.toList.all good = true ↔
      ∀ c ∈ text.toList, 32 ≤ c.toNat ∨ c = '\n' ∨ c = '\r' := by
    intro text
    simp [List.all_eq_true,good]
  refine ⟨⟨fun hread text htext => ?_,fun hprintable => ?_⟩,?_⟩
  · rw [← hgood]
    by_contra hbad
    rw [refused_of_text s htext (by simpa using hbad)] at hread
    cases hread
  · exact read_of_printable s fun text htext => (hgood text).mpr (hprintable text htext)
  · rintro ⟨text,htext,c,hc,hcontrol,hline,hreturn⟩
    refine refused_of_text s htext ?_
    by_contra hall
    rcases (hgood text).mp (by simpa using hall) c hc with hle | rfl | rfl
    · omega
    · exact hline rfl
    · exact hreturn rfl

/-- A snapshot with a tab in its last error. -/
def tabbed : AndroidSessionSnapshot :=
  ⟨"failed","vpn.example:443","wss",0,0,0,0,0,0,0,some "read:\terror"⟩

def quotedError : AndroidSessionSnapshot := {tabbed with lastError := some "a \"b\\c\"\r\n"}

theorem tab_is_refused : parse (snapshotJson tabbed) = none ∧
    (parse (snapshotJson quotedError)).bind readSnapshot = some quotedError :=
  ⟨refused_of_text tabbed (List.mem_append_right _ List.mem_cons_self) (by decide),
    read_of_printable quotedError (by decide)⟩

end Snapshots

end Bonded.SnapshotJson
