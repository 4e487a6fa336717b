import Bonded.SnapshotJson
import Bonded.WireGuardLiveness

/-! The server's status page and its JSON: the registered sessions with their keys shortened,
and the flows of the forwarders. A key is shortened by byte offsets, and such a cut panics
inside a character. -/
namespace Bonded.StatusPage

open Auth Machine SessionRegistry WireGuardRegistry WireGuardAdmission
open WireGuardServer hiding Event
open Bootstrap (Json Libs BootstrapContext Request provisions)
open SnapshotJson (replace)

section Code

def byteLength : List Char → ℕ
  | [] => 0
  | c::cs => c.utf8Size+byteLength cs

/-- A text cut at a byte offset; a cut inside a character or beyond the end panics. -/
def splitAtByte : ℕ → List Char → Option (List Char × List Char)
  | 0, cs => some ([],cs)
  | _+1, [] => none
  | n+1, c::cs =>
    if c.utf8Size ≤ n+1 then
      (splitAtByte (n+1-c.utf8Size) cs).map fun parts => (c::parts.1,parts.2)
    else none

def abbreviateKey (key : String) : Option String :=
  if byteLength key.toList ≤ 24 then some key
  else
    (splitAtByte 12 key.toList).bind fun first =>
      (splitAtByte (byteLength key.toList-8) key.toList).map fun last =>
        String.ofList (first.1++['.','.','.']++last.2)

def escapeHtml (value : String) : String :=
  String.ofList (replace '\'' ['&','#','x','2','7',';'] (replace '"' ['&','q','u','o','t',';']
    (replace '>' ['&','g','t',';'] (replace '<' ['&','l','t',';']
      (replace '&' ['&','a','m','p',';'] value.toList)))))

structure SessionSnapshot where
  clientKey : String
  sessionId : UInt64
  deriving DecidableEq, Repr

structure UdpFlowSnapshot where
  sessionId : UInt64
  clientSrc : String
  clientDst : String
  boundSocket : String
  createdAgo : String
  lastClientAgo : String
  lastRemoteAgo : Option String
  clientToRemotePackets : UInt64
  remoteToClientPackets : UInt64
  deriving DecidableEq, Repr

structure TcpFlowSnapshot where
  sessionId : UInt64
  clientSrc : String
  clientDst : String
  createdAgo : String
  lastActivityAgo : String
  clientToRemotePackets : UInt64
  remoteToClientPackets : UInt64
  bridgeReadChunks : UInt64
  bridgeReadBytes : UInt64
  bridgeReadAvgBytes : UInt64
  bridgeToSmoltcpChunks : UInt64
  bridgeToSmoltcpBytes : UInt64
  bridgeToSmoltcpAvgBytes : UInt64
  deriving DecidableEq, Repr

structure IcmpProbeSnapshot where
  sessionId : UInt64
  clientSrc : String
  clientDst : String
  echoIdentifier : UInt16
  echoSequence : UInt16
  outcome : String
  observedAgo : String
  deriving DecidableEq, Repr

/-- The entries of the registry in some order, as iterating the map gives them. -/
def Snapshot (sessions : Registry) (entries : List SessionSnapshot) : Prop :=
  entries.Perm (sessions.sessionsByClient.toList.map fun e => ⟨e.1,e.2⟩)

/-- A part of the page: text of the template, or a value put into it. -/
inductive Piece
  | fixed (text : String)
  | value (text : String)
  deriving DecidableEq, Repr

/-- A value with the unit that the template puts behind it. -/
def cell (value : String) (unit : String) : List Piece :=
  [.fixed "<td>",.value (escapeHtml value),.fixed (unit++"</td>")]

def row (cells : List (String × String)) : List Piece :=
  .fixed "<tr>"::(cells.flatMap (fun c => cell c.1 c.2)++[.fixed "</tr>"])

def sessionCells (entry : SessionSnapshot) : Option (List (String × String)) :=
  (abbreviateKey entry.clientKey).map fun short =>
    [(toString entry.sessionId.toNat,""),(short,"")]

def udpCells (entry : UdpFlowSnapshot) : List (String × String) :=
  [(toString entry.sessionId.toNat,""),(entry.clientSrc,""),(entry.clientDst,""),
    (entry.boundSocket,""),(entry.createdAgo,""),(entry.lastClientAgo,""),
    (entry.lastRemoteAgo.getD "never",""),(toString entry.clientToRemotePackets.toNat,""),
    (toString entry.remoteToClientPackets.toNat,"")]

/-- The units stand where the template has them, also behind the number of chunks. -/
def tcpCells (entry : TcpFlowSnapshot) : List (String × String) :=
  [(toString entry.sessionId.toNat,""),(entry.clientSrc,""),(entry.clientDst,""),
    (entry.createdAgo,""),(entry.lastActivityAgo,""),
    (toString entry.clientToRemotePackets.toNat,""),
    (toString entry.remoteToClientPackets.toNat,""),
    (toString entry.bridgeReadChunks.toNat,""),(toString entry.bridgeReadAvgBytes.toNat," B"),
    (toString entry.bridgeReadBytes.toNat,""),(toString entry.bridgeToSmoltcpChunks.toNat," B"),
    (toString entry.bridgeToSmoltcpAvgBytes.toNat,""),
    (toString entry.bridgeToSmoltcpBytes.toNat," B")]

def icmpCells (entry : IcmpProbeSnapshot) : List (String × String) :=
  [(toString entry.sessionId.toNat,""),(entry.clientSrc,""),(entry.clientDst,""),
    (toString entry.echoIdentifier.toNat,""),(toString entry.echoSequence.toNat,""),
    (entry.outcome,""),(entry.observedAgo,"")]

/-- The rows joined by line breaks; a row is never empty, so no rows is an empty text. -/
def tableRows (empty : String) : List (List (String × String)) → List Piece
  | [] => [.fixed empty]
  | [cells] => row cells
  | cells::more => row cells++ .fixed "\n"::tableRows empty more

/-- The template's texts before, between and after its eight values. -/
structure PageText where
  start : String
  sessions : String
  udpTitle : String
  udp : String
  tcpTitle : String
  tcp : String
  icmpTitle : String
  icmp : String
  rest : String
  deriving DecidableEq, Repr

def noSessions : String := "<tr><td colspan=\"2\">No active authenticated sessions.</td></tr>"
def noUdpFlows : String := "<tr><td colspan=\"9\">No active UDP flows.</td></tr>"
def noTcpFlows : String := "<tr><td colspan=\"13\">No active TCP flows.</td></tr>"
def noIcmpProbes : String := "<tr><td colspan=\"7\">No recent ICMP probes.</td></tr>"

/-- `active` is the number of sessions, read after the entries under a lock of its own. -/
def renderStatusPage (text : PageText) (entries : List SessionSnapshot) (active : ℕ)
    (udpFlows : List UdpFlowSnapshot) (tcpFlows : List TcpFlowSnapshot)
    (icmpProbes : List IcmpProbeSnapshot) : Option (List Piece) :=
  (entries.mapM sessionCells).map fun sessionRows =>
    .fixed text.start::.value (toString active)::.fixed text.sessions::
      (tableRows noSessions sessionRows++
    .fixed text.udpTitle::.value (toString udpFlows.length)::.fixed text.udp::
      (tableRows noUdpFlows (udpFlows.map udpCells)++
    .fixed text.tcpTitle::.value (toString tcpFlows.length)::.fixed text.tcp::
      (tableRows noTcpFlows (tcpFlows.map tcpCells)++
    .fixed text.icmpTitle::.value (toString icmpProbes.length)::.fixed text.icmp::
      (tableRows noIcmpProbes ((icmpProbes.take 64).map icmpCells)++[.fixed text.rest]))))

def number (n : ℕ) : Json := .num (toString n)

def sessionJson (entry : SessionSnapshot) : Option Json :=
  (abbreviateKey entry.clientKey).map fun short =>
    .obj [("session_id",number entry.sessionId.toNat),("client_key",.str entry.clientKey),
      ("client_key_abbrev",.str short)]

def udpJson (entry : UdpFlowSnapshot) : Json :=
  .obj [("session_id",number entry.sessionId.toNat),("client_src",.str entry.clientSrc),
    ("client_dst",.str entry.clientDst),("bound_socket",.str entry.boundSocket),
    ("created_ago",.str entry.createdAgo),("last_client_ago",.str entry.lastClientAgo),
    ("last_remote_ago",(entry.lastRemoteAgo.map Json.str).getD .null),
    ("client_to_remote_packets",number entry.clientToRemotePackets.toNat),
    ("remote_to_client_packets",number entry.remoteToClientPackets.toNat)]

def tcpJson (entry : TcpFlowSnapshot) : Json :=
  .obj [("session_id",number entry.sessionId.toNat),("client_src",.str entry.clientSrc),
    ("client_dst",.str entry.clientDst),("created_ago",.str entry.createdAgo),
    ("last_activity_ago",.str entry.lastActivityAgo),
    ("client_to_remote_packets",number entry.clientToRemotePackets.toNat),
    ("remote_to_client_packets",number entry.remoteToClientPackets.toNat),
    ("bridge_read_chunks",number entry.bridgeReadChunks.toNat),
    ("bridge_read_bytes",number entry.bridgeReadBytes.toNat),
    ("bridge_read_avg_bytes",number entry.bridgeReadAvgBytes.toNat),
    ("bridge_to_smoltcp_chunks",number entry.bridgeToSmoltcpChunks.toNat),
    ("bridge_to_smoltcp_bytes",number entry.bridgeToSmoltcpBytes.toNat),
    ("bridge_to_smoltcp_avg_bytes",number entry.bridgeToSmoltcpAvgBytes.toNat)]

def icmpJson (entry : IcmpProbeSnapshot) : Json :=
  .obj [("session_id",number entry.sessionId.toNat),("client_src",.str entry.clientSrc),
    ("client_dst",.str entry.clientDst),("echo_identifier",number entry.echoIdentifier.toNat),
    ("echo_sequence",number entry.echoSequence.toNat),("outcome",.str entry.outcome),
    ("observed_ago",.str entry.observedAgo)]

/-- The value that is printed. Its number of probes is that of the probes it lists. -/
def renderStatusJson (entries : List SessionSnapshot) (udpFlows : List UdpFlowSnapshot)
    (tcpFlows : List TcpFlowSnapshot) (icmpProbes : List IcmpProbeSnapshot) : Option Json :=
  (entries.mapM sessionJson).map fun sessions =>
    .obj [("sessions_count",number sessions.length),
      ("udp_flows_count",number udpFlows.length),
      ("tcp_flows_count",number tcpFlows.length),
      ("icmp_probes_count",number (icmpProbes.take 64).length),
      ("sessions",.arr sessions),("udp_flows",.arr (udpFlows.map udpJson)),
      ("tcp_flows",.arr (tcpFlows.map tcpJson)),
      ("icmp_probes",.arr ((icmpProbes.take 64).map icmpJson))]

end Code

section Keys

/-- A character begins, or the text ends, at the byte offset. -/
def IsBoundary (n : ℕ) (cs : List Char) : Prop := ∃ done rest, cs = done++rest ∧ byteLength done = n

theorem splitAtByte_eq {n : ℕ} {cs done rest : List Char} :
    splitAtByte n cs = some (done,rest) ↔ cs = done++rest ∧ byteLength done = n := by
  induction cs generalizing n done with
  | nil =>
    cases n with
    | zero => cases done <;> simp [splitAtByte,byteLength,eq_comm]
    | succ n => cases done <;> simp [splitAtByte,byteLength]
  | cons c cs ih =>
    have hpos := Char.utf8Size_pos c
    cases n with
    | zero =>
      cases done with
      | nil => simp [splitAtByte,byteLength,eq_comm]
      | cons d done =>
        simp only [splitAtByte,byteLength,List.cons_append,List.cons.injEq]
        constructor
        · nofun
        · rintro ⟨⟨rfl,-⟩,hlength⟩
          omega
    | succ n =>
      rw [splitAtByte]
      cases done with
      | nil => split <;> simp [byteLength]
      | cons d done =>
        simp only [byteLength,List.cons_append,List.cons.injEq]
        split
        · next hfits =>
          rw [Option.map_eq_some_iff]
          constructor
          · rintro ⟨⟨first,last⟩,hsplit,heq⟩
            simp only [Prod.mk.injEq,List.cons.injEq] at heq
            obtain ⟨⟨rfl,rfl⟩,rfl⟩ := heq
            obtain ⟨hcs,hlength⟩ := ih.mp hsplit
            exact ⟨⟨rfl,hcs⟩,by omega⟩
          · rintro ⟨⟨rfl,hcs⟩,hlength⟩
            exact ⟨(done,rest),ih.mpr ⟨hcs,by omega⟩,rfl⟩
        · next hlong =>
          constructor
          · nofun
          · rintro ⟨⟨rfl,-⟩,hlength⟩
            omega

theorem isBoundary_iff {n : ℕ} {cs : List Char} :
    (splitAtByte n cs).isSome = true ↔ IsBoundary n cs := by
  rw [Option.isSome_iff_exists,Prod.exists]
  simp only [splitAtByte_eq,IsBoundary]

instance (n : ℕ) (cs : List Char) : Decidable (IsBoundary n cs) :=
  decidable_of_iff _ isBoundary_iff

/-- A key that is short, or whose two cuts fall between characters. -/
def Sliceable (key : String) : Prop :=
  byteLength key.toList ≤ 24 ∨
    IsBoundary 12 key.toList ∧ IsBoundary (byteLength key.toList-8) key.toList

instance (key : String) : Decidable (Sliceable key) := inferInstanceAs (Decidable (_ ∨ _))

theorem abbreviateKey_isSome (key : String) :
    (abbreviateKey key).isSome = true ↔ Sliceable key := by
  unfold abbreviateKey Sliceable
  split
  · next hshort => simp [hshort]
  · next hlong =>
    rw [Option.isSome_bind,← isBoundary_iff,← isBoundary_iff]
    cases splitAtByte 12 key.toList <;> simp [hlong]

theorem byteLength_ascii {cs : List Char} (h : ∀ c ∈ cs, c.toNat < 128) :
    byteLength cs = cs.length := by
  induction cs with
  | nil => rfl
  | cons c cs ih =>
    obtain ⟨hc,hcs⟩ := List.forall_mem_cons.mp h
    have hsize : c.utf8Size = 1 := by
      rw [← String.length_utf8EncodeChar,Text.encodeChar_ascii hc]
      rfl
    rw [byteLength,ih hcs,hsize,List.length_cons,Nat.add_comm]

theorem isBoundary_ascii {cs : List Char} (h : ∀ c ∈ cs, c.toNat < 128) {n : ℕ}
    (hn : n ≤ cs.length) : IsBoundary n cs := by
  refine ⟨cs.take n,cs.drop n,(List.take_append_drop n cs).symm,?_⟩
  rw [byteLength_ascii fun c hc => h c (List.mem_of_mem_take hc),List.length_take,
    Nat.min_eq_left hn]

theorem sliceable_of_ascii {key : String} (h : ∀ c ∈ key.toList, c.toNat < 128) :
    Sliceable key := by
  unfold Sliceable
  rw [byteLength_ascii h]
  by_cases hshort : key.toList.length ≤ 24
  · exact Or.inl hshort
  · exact Or.inr ⟨isBoundary_ascii h (by omega),isBoundary_ascii h (by omega)⟩

/-- Base64 is written in characters of seven bits. -/
def AsciiBase64 (crypto : Crypto) : Prop :=
  ∀ text bytes, crypto.decodeStandard text = some bytes → ∀ c ∈ text.toList, c.toNat < 128

theorem sliceable_of_verifyingKey {crypto : Crypto} (hascii : AsciiBase64 crypto) {key : String}
    (h : (verifyingKey crypto key).isOk = true) : Sliceable key := by
  unfold verifyingKey at h
  split at h
  · cases h
  · next decoded hdecode => exact sliceable_of_ascii (hascii key decoded hdecode)

end Keys

section Escaping

/-- A character as the five replacements leave it. -/
def entity (c : Char) : List Char :=
  if c = '&' then ['&','a','m','p',';']
  else if c = '<' then ['&','l','t',';']
  else if c = '>' then ['&','g','t',';']
  else if c = '"' then ['&','q','u','o','t',';']
  else if c = '\'' then ['&','#','x','2','7',';']
  else [c]

/-- How text between tags is read: the references above stand for their characters, and
nothing is read where a tag begins. -/
def readText : List Char → Option (List Char)
  | [] => some []
  | '<'::_ => none
  | '&':: 'a':: 'm':: 'p':: ';'::cs => (readText cs).map ('&'::·)
  | '&':: 'l':: 't':: ';'::cs => (readText cs).map ('<'::·)
  | '&':: 'g':: 't':: ';'::cs => (readText cs).map ('>'::·)
  | '&':: 'q':: 'u':: 'o':: 't':: ';'::cs => (readText cs).map ('"'::·)
  | '&':: '#':: 'x':: '2':: '7':: ';'::cs => (readText cs).map ('\''::·)
  | c::cs => (readText cs).map (c::·)

theorem escapeHtml_toList (value : String) :
    (escapeHtml value).toList = value.toList.flatMap entity := by
  rw [escapeHtml,String.toList_ofList]
  simp only [replace,List.flatMap_assoc]
  refine List.flatMap_congr fun c _ => ?_
  unfold entity
  by_cases hamp : c = '&'
  · subst hamp; rfl
  by_cases hlt : c = '<'
  · subst hlt; rfl
  by_cases hgt : c = '>'
  · subst hgt; rfl
  by_cases hquote : c = '"'
  · subst hquote; rfl
  by_cases hsingle : c = '\''
  · subst hsingle; rfl
  · simp [hamp,hlt,hgt,hquote,hsingle]

theorem readText_entity (c : Char) (cs : List Char) :
    readText (entity c++cs) = (readText cs).map (c::·) := by
  by_cases hamp : c = '&'
  · subst hamp; simp [entity,readText]
  by_cases hlt : c = '<'
  · subst hlt; simp [entity,readText]
  by_cases hgt : c = '>'
  · subst hgt; simp [entity,readText]
  by_cases hquote : c = '"'
  · subst hquote; simp [entity,readText]
  by_cases hsingle : c = '\''
  · subst hsingle; simp [entity,readText]
  have hplain : entity c = [c] := by simp [entity,hamp,hlt,hgt,hquote,hsingle]
  rw [hplain,List.singleton_append,readText] <;> simp_all

/-- The characters that begin or end a tag or an attribute. -/
def markup (c : Char) : Bool := c = '<' ∨ c = '>' ∨ c = '"' ∨ c = '\''

theorem entity_inert (c : Char) : (entity c).all (fun d => !markup d) = true := by
  unfold entity
  split_ifs with hamp hlt hgt hquote hsingle
  · decide
  · decide
  · decide
  · decide
  · decide
  · simp [markup,hlt,hgt,hquote,hsingle]

/-- A text that was escaped: it has no character of markup and is read as what it was. -/
def Inert (text : String) : Prop :=
  ∃ raw, text = escapeHtml raw ∧ text.toList.all (fun c => !markup c) = true ∧
    readText text.toList = some raw.toList

theorem inert_escapeHtml (raw : String) : Inert (escapeHtml raw) := by
  refine ⟨raw,rfl,?_,?_⟩
  · rw [escapeHtml_toList,List.all_flatMap]
    exact List.all_eq_true.mpr fun c _ => entity_inert c
  · rw [escapeHtml_toList]
    induction raw.toList with
    | nil => rfl
    | cons c cs ih => rw [List.flatMap_cons,readText_entity,ih,Option.map_some]

theorem escapeHtml_digits (n : ℕ) : escapeHtml (toString n) = toString n := by
  rw [← String.toList_inj,escapeHtml_toList]
  have hdigits : ∀ c ∈ (toString n).toList, c.isDigit = true := fun c hc =>
    Nat.isDigit_of_mem_toDigits (b := 10) (by omega) (by omega) (by simpa using hc)
  have hentity : ∀ c ∈ (toString n).toList, entity c = [c] := by
    intro c hc
    have hdigit := hdigits c hc
    unfold entity
    split_ifs with hamp hlt hgt hquote hsingle
    · subst hamp; cases hdigit
    · subst hlt; cases hdigit
    · subst hgt; cases hdigit
    · subst hquote; cases hdigit
    · subst hsingle; cases hdigit
    · rfl
  rw [List.flatMap_congr hentity]
  simp

theorem inert_number (n : ℕ) : Inert (toString n) := escapeHtml_digits n ▸ inert_escapeHtml _

end Escaping

section Pages

/-- A page of the given texts of the template, with escaped values between them. -/
inductive Laid : List Piece → List String → Prop
  | nil : Laid [] []
  | fixed {page : List Piece} {texts : List String} (text : String) (h : Laid page texts) :
      Laid (.fixed text::page) (text::texts)
  | value {page : List Piece} {texts : List String} {text : String} (hinert : Inert text)
      (h : Laid page texts) : Laid (.value text::page) texts

theorem Laid.append {page page' : List Piece} {texts texts' : List String}
    (h : Laid page texts) (h' : Laid page' texts') : Laid (page++page') (texts++texts') := by
  induction h with
  | nil => exact h'
  | fixed text _ ih => exact ih.fixed text
  | value hinert _ ih => exact ih.value hinert

/-- The markup of a row depends on the units of its cells only. -/
def rowMarkup (units : List String) : List String :=
  "<tr>"::(units.flatMap (fun unit => ["<td>",unit++"</td>"])++["</tr>"])

def tableMarkup (empty : String) (units : List String) : ℕ → List String
  | 0 => [empty]
  | 1 => rowMarkup units
  | n+2 => rowMarkup units++"\n"::tableMarkup empty units (n+1)

def tcpUnits : List String := ["","","","","","","",""," B",""," B",""," B"]

/-- The markup of a page with the given numbers of rows, whatever is in them. -/
def pageMarkup (text : PageText) (sessions udp tcp icmp : ℕ) : List String :=
  text.start::text.sessions::(tableMarkup noSessions ["",""] sessions++
  text.udpTitle::text.udp::(tableMarkup noUdpFlows (List.replicate 9 "") udp++
  text.tcpTitle::text.tcp::(tableMarkup noTcpFlows tcpUnits tcp++
  text.icmpTitle::text.icmp::(tableMarkup noIcmpProbes (List.replicate 7 "") icmp++
    [text.rest]))))

theorem laid_row (cells : List (String × String)) :
    Laid (row cells) (rowMarkup (cells.map Prod.snd)) := by
  have hcells : Laid (cells.flatMap fun c => cell c.1 c.2)
      ((cells.map Prod.snd).flatMap fun unit => ["<td>",unit++"</td>"]) := by
    induction cells with
    | nil => exact Laid.nil
    | cons c cells ih => exact .fixed _ (.value (inert_escapeHtml _) (.fixed _ ih))
  exact .fixed _ (hcells.append (.fixed _ .nil))

theorem laid_tableRows (empty : String) (units : List String) (rows : List (List (String × String)))
    (hunits : ∀ cells ∈ rows, cells.map Prod.snd = units) :
    Laid (tableRows empty rows) (tableMarkup empty units rows.length) := by
  induction rows with
  | nil => exact .fixed _ .nil
  | cons cells rows ih =>
    obtain ⟨hcells,hrows⟩ := List.forall_mem_cons.mp hunits
    have hrow : Laid (row cells) (rowMarkup units) := hcells ▸ laid_row cells
    cases rows with
    | nil => exact hrow
    | cons next more => exact hrow.append (.fixed _ (ih hrows))

theorem mapM_eq_some {α β : Type} {f : α → Option β} {xs : List α} {ys : List β} :
    xs.mapM f = some ys ↔ xs.map f = ys.map some := by
  induction xs generalizing ys with
  | nil => cases ys <;> simp
  | cons x xs ih =>
    rw [List.mapM_cons]
    cases hx : f x with
    | none => cases ys <;> simp [hx]
    | some y =>
      cases ys with
      | nil => cases xs.mapM f <;> simp
      | cons z zs =>
        rw [List.map_cons,List.map_cons,List.cons.injEq,hx,← ih]
        cases xs.mapM f <;> simp

theorem mapM_isSome {α β : Type} {f : α → Option β} {xs : List α} :
    (∃ ys, xs.mapM f = some ys) ↔ ∀ x ∈ xs, (f x).isSome = true := by
  simp only [mapM_eq_some]
  constructor
  · rintro ⟨ys,hys⟩ x hx
    have hmem : f x ∈ ys.map some := hys ▸ List.mem_map_of_mem hx
    obtain ⟨y,-,hy⟩ := List.mem_map.mp hmem
    rw [← hy]
    rfl
  · intro h
    refine ⟨xs.filterMap f,?_⟩
    induction xs with
    | nil => rfl
    | cons x xs ih =>
      obtain ⟨hx,hxs⟩ := List.forall_mem_cons.mp h
      obtain ⟨y,hy⟩ := Option.isSome_iff_exists.mp hx
      rw [List.map_cons,List.filterMap_cons_some hy,List.map_cons,hy,ih hxs]

/-- Both renderings return, and the page has the markup of its template with nothing but
escaped values in it. -/
structure Renders (text : PageText) (entries : List SessionSnapshot) (active : ℕ)
    (udpFlows : List UdpFlowSnapshot) (tcpFlows : List TcpFlowSnapshot)
    (icmpProbes : List IcmpProbeSnapshot) : Prop where
  page : ∃ page, renderStatusPage text entries active udpFlows tcpFlows icmpProbes = some page ∧
    Laid page (pageMarkup text entries.length udpFlows.length tcpFlows.length
      (icmpProbes.take 64).length)
  json : ∃ json, renderStatusJson entries udpFlows tcpFlows icmpProbes = some json

theorem sessionCells_isSome (entry : SessionSnapshot) :
    (sessionCells entry).isSome = true ↔ Sliceable entry.clientKey := by
  rw [sessionCells,Option.isSome_map,abbreviateKey_isSome]

theorem sessionJson_isSome (entry : SessionSnapshot) :
    (sessionJson entry).isSome = true ↔ Sliceable entry.clientKey := by
  rw [sessionJson,Option.isSome_map,abbreviateKey_isSome]

theorem laid_sessions {entries : List SessionSnapshot} {rows : List (List (String × String))}
    (h : entries.mapM sessionCells = some rows) :
    Laid (tableRows noSessions rows) (tableMarkup noSessions ["",""] entries.length) := by
  rw [mapM_eq_some] at h
  have hlength : entries.length = rows.length := by
    rw [← List.length_map (f := sessionCells),h,List.length_map]
  rw [hlength]
  refine laid_tableRows noSessions ["",""] rows fun cells hcells => ?_
  have hmem : some cells ∈ entries.map sessionCells := h ▸ List.mem_map_of_mem hcells
  obtain ⟨entry,-,hentry⟩ := List.mem_map.mp hmem
  obtain ⟨short,-,rfl⟩ := Option.map_eq_some_iff.mp hentry
  rfl

theorem laid_mapped {α : Type} (empty : String) (units : List String) (xs : List α)
    (cells : α → List (String × String)) (hunits : ∀ x, (cells x).map Prod.snd = units) :
    Laid (tableRows empty (xs.map cells)) (tableMarkup empty units xs.length) := by
  have h := laid_tableRows empty units (xs.map cells) fun row hrow => by
    obtain ⟨x,-,rfl⟩ := List.mem_map.mp hrow
    exact hunits x
  rwa [List.length_map] at h

theorem renders_iff (text : PageText) (entries : List SessionSnapshot) (active : ℕ)
    (udpFlows : List UdpFlowSnapshot) (tcpFlows : List TcpFlowSnapshot)
    (icmpProbes : List IcmpProbeSnapshot) :
    Renders text entries active udpFlows tcpFlows icmpProbes ↔
      ∀ entry ∈ entries, Sliceable entry.clientKey := by
  constructor
  · rintro ⟨⟨page,hpage,-⟩,-⟩
    obtain ⟨rows,hrows,-⟩ := Option.map_eq_some_iff.mp hpage
    intro entry hentry
    exact (sessionCells_isSome entry).mp (mapM_isSome.mp ⟨rows,hrows⟩ entry hentry)
  · intro h
    obtain ⟨rows,hrows⟩ := mapM_isSome.mpr fun entry hentry =>
      (sessionCells_isSome entry).mpr (h entry hentry)
    obtain ⟨sessions,hsessions⟩ := mapM_isSome.mpr fun entry hentry =>
      (sessionJson_isSome entry).mpr (h entry hentry)
    refine ⟨⟨_,by rw [renderStatusPage,hrows,Option.map_some],?_⟩,
      ⟨_,by rw [renderStatusJson,hsessions,Option.map_some]⟩⟩
    have hudp := laid_mapped noUdpFlows (List.replicate 9 "") udpFlows udpCells fun _ => rfl
    have htcp := laid_mapped noTcpFlows tcpUnits tcpFlows tcpCells fun _ => rfl
    have hicmp := laid_mapped noIcmpProbes (List.replicate 7 "") (icmpProbes.take 64) icmpCells
      fun _ => rfl
    have hlast := hicmp.append (.fixed text.rest .nil)
    have hthird := htcp.append (.fixed text.icmpTitle (.value (inert_number icmpProbes.length)
      (.fixed text.icmp hlast)))
    have hsecond := hudp.append (.fixed text.tcpTitle (.value (inert_number tcpFlows.length)
      (.fixed text.tcp hthird)))
    have hfirst := (laid_sessions hrows).append (.fixed text.udpTitle
      (.value (inert_number udpFlows.length) (.fixed text.udp hsecond)))
    exact .fixed _ (.value (inert_number active) (.fixed _ hfirst))

theorem Snapshot.keys {sessions : Registry} {entries : List SessionSnapshot}
    (h : Snapshot sessions entries) (P : String → Prop) :
    (∀ entry ∈ entries, P entry.clientKey) ↔
      ∀ key, containsClient sessions key = true → P key := by
  have hmem : ∀ key, containsClient sessions key = true ↔
      ∃ entry ∈ entries, entry.clientKey = key := by
    intro key
    rw [containsClient,Table.contains_iff]
    constructor
    · rintro ⟨id,hid⟩
      exact ⟨⟨key,id⟩,h.mem_iff.mpr (List.mem_map.mpr
        ⟨(key,id),(Table.mem_toList _ _ _).mpr hid,rfl⟩),rfl⟩
    · rintro ⟨entry,hentry,rfl⟩
      obtain ⟨⟨key,id⟩,hid,rfl⟩ := List.mem_map.mp (h.mem_iff.mp hentry)
      exact ⟨id,(Table.mem_toList _ _ _).mp hid⟩
  constructor
  · intro hP key hkey
    obtain ⟨entry,hentry,rfl⟩ := (hmem key).mp hkey
    exact hP entry hentry
  · intro hP entry hentry
    exact hP entry.clientKey ((hmem _).mpr ⟨entry,hentry,rfl⟩)

end Pages

section Runs

variable {τ : Type} (api : TunnApi τ) (libs : Libs) (ctx : BootstrapContext)

/-- Every key that enters can be shortened: a request provisions no other device key, and what
another listener registers is a key that verifies signatures, or can be shortened. -/
def RegistersSliceable (s : System τ) : Event τ → Prop
  | .request request _ _ =>
    ∀ keys, provisions libs ctx s.stores request = some keys → Sliceable keys.1
  | .sessionsChange sessions => ∀ e ∈ sessions.sessionsByClient.toList,
      containsClient s.server.sessions e.1 = true ∨ (verifyingKey libs.crypto e.1).isOk = true ∨
        Sliceable e.1
  | _ => True

instance (s : System τ) (e : Event τ) : Decidable (RegistersSliceable libs ctx s e) :=
  match e with
  | .request request _ _ => decidableNext (provisions libs ctx s.stores request) fun keys =>
      Sliceable keys.1
  | .sessionsChange sessions =>
    inferInstanceAs (Decidable (∀ e ∈ sessions.sessionsByClient.toList, _))
  | .datagram .. | .keysChange _ | .deviceSigns .. | .tunnelUse .. | .restart .. => isTrue trivial

/-- Every registered key is as `P` says. -/
def Named (P : String → Prop) (sessions : Registry) : Prop :=
  ∀ key, containsClient sessions key = true → P key

section Named

variable {P : String → Prop}

theorem Named.registerClient {sessions : Registry} (h : Named P sessions) {key : String}
    (hkey : P key) : Named P (registerClient sessions key).2 := by
  intro k hk
  rw [containsClient,Table.contains,registerClient_get] at hk
  by_cases hsame : k = key
  · exact hsame ▸ hkey
  · rw [if_neg hsame] at hk
    exact h k hk

theorem named_ensurePeerRuntime {s : ServerState τ} {peer : WireGuardPeer}
    (hpeer : P peer.devicePublicKey) (h : Named P s.sessions) :
    Named P (ensurePeerRuntime api s peer).2.sessions := by
  rcases WireGuardLiveness.ensurePeerRuntime_sessions api s peer with hkept | hnew
  · rwa [hkept]
  · rw [hnew]
    exact h.registerClient hpeer

/-- One event of the listener registers the keys of the peers it sees. -/
theorem named_server {s t : ServerState τ} {e : WireGuardServer.Event τ}
    (hchange : ∀ sessions, e = .sessionsChange sessions → Named P sessions)
    (hpeers : ∀ src data peers sends, e = .datagram src data peers sends →
      ∀ p ∈ peers, P p.devicePublicKey)
    (h : Named P s.sessions) (ht : runWireguardServer api s e = some t) : Named P t.sessions := by
  have htry : ∀ (u : ServerState τ) (key : String) (src : SocketAddr) (data : List UInt8),
      Named P u.sessions → Named P (tryAcceptDatagram api u key src data).2.sessions := by
    intro u key src data hu
    rwa [(tryAcceptDatagram_sameBut api u key src data).sessions]
  cases e with
  | sessionsChange sessions => cases ht; exact hchange sessions rfl
  | tunnelUse key tunn =>
    simp only [runWireguardServer] at ht
    split at ht
    · cases ht
    · cases ht; exact h
  | datagram src data peers sends =>
    have haccept := fun (u : ServerState τ) (hu : Named P u.sessions) =>
      WireGuardSystem.acceptFrom_keeps_runtimes (I := fun _ sessions => Named P sessions) api
        (fun v key => htry v key src data) hu
    have hsearch := WireGuardSystem.searchPeers_keeps_runtimes
      (I := fun _ sessions => Named P sessions) api (fun v key => htry v key src data) peers
      (fun u p hp => named_ensurePeerRuntime api (hpeers src data peers sends rfl p hp))
      (s := newRound s src sends) h
    simp only [runWireguardServer] at ht
    split at ht
    · cases ht
    · split at ht
      · cases ht
        exact haccept (newRound s src sends) h _
      · generalize searchPeers api src data peers (newRound s src sends) = searched at hsearch ht
        obtain ⟨found,u⟩ := searched
        cases found with
        | failed => cases ht; exact hsearch
        | noMatch => cases ht; exact hsearch
        | found key => cases ht; exact haccept u hsearch key

end Named

/-- The keys in the server: those of the peers and of their file, and the registered ones. -/
structure Keys (P : String → Prop) (s : System τ) : Prop where
  peers : ∀ r, s.stores.wireguardPeers = some r → AllBound (fun device _ => P device) r
  sessions : Named P s.server.sessions

section Keys

variable {P : String → Prop} {s t : System τ}

theorem keys_initial (keys : Table String AuthorizedDevice) (peerLease : ℕ) :
    Keys P (initial τ keys peerLease) := by
  refine ⟨fun r hr => ?_,fun key hkey => ?_⟩
  · cases hr
    exact ⟨by simp,by simp⟩
  · simp [initial,start,SessionRegistry.new,containsClient,Table.contains] at hkey

theorem keys_request (h : Keys P s) {request : Request} (now : ℕ) (writable : Bool)
    (hrequest : ∀ keys, provisions libs ctx s.stores request = some keys → P keys.1)
    (r : WireGuardPeerRegistry)
    (hr : (Bootstrap.routeBootstrapRequest libs ctx s.stores request now writable).2.wireguardPeers
      = some r) : AllBound (fun device _ => P device) r := by
  rw [Bootstrap.routeBootstrapRequest_stores] at hr
  cases hprov : provisions libs ctx s.stores request with
  | none =>
    simp only [hprov] at hr
    exact h.peers r hr
  | some keys =>
    cases hpeers : s.stores.wireguardPeers with
    | none => simp [hprov,hpeers] at hr
    | some peers =>
      simp only [hprov,hpeers,Option.some.injEq] at hr
      subst hr
      exact (h.peers peers hpeers).registerPeerLease (hrequest keys hprov) now writable

variable {libs} in
theorem keys_step (hascii : AsciiBase64 libs.crypto) {e : Event τ} (h : Keys Sliceable s)
    (hg : RegistersSliceable libs ctx s e) (ht : step api libs ctx s e = some t) :
    Keys Sliceable t := by
  by_cases hrequest : ∃ request now writable, e = .request request now writable
  · obtain ⟨request,now,writable,rfl⟩ := hrequest
    cases ht
    exact ⟨keys_request libs ctx h now writable hg,h.sessions⟩
  · simp only [not_exists] at hrequest
    obtain ⟨hpeers,-,hmoves⟩ := step_moves h.peers hrequest ht
    refine ⟨hpeers,?_⟩
    generalize t.server = server at hmoves
    cases hmoves with
    | same => exact h.sessions
    | fails src sends => exact h.sessions
    | restarts => exact (keys_initial (τ := τ) ∅ 0).sessions
    | runs hseen hchanged hserver =>
      refine named_server api (fun sessions hsessions => ?_) hseen h.sessions hserver
      obtain rfl := hchanged sessions hsessions
      intro key hkey
      obtain ⟨id,hid⟩ := (Table.contains_iff _ _).mp hkey
      rcases hg (key,id) ((Table.mem_toList _ _ _).mpr hid) with hold | hverifies | hsliceable
      · exact h.sessions key hold
      · exact sliceable_of_verifyingKey hascii hverifies
      · exact hsliceable

end Keys

/-- Whatever is rendered in this state is rendered as it should be. -/
def Rendered (text : PageText) (s : System τ) : Prop :=
  ∀ entries active udpFlows tcpFlows icmpProbes, Snapshot s.server.sessions entries →
    Renders text entries active udpFlows tcpFlows icmpProbes

theorem rendered_iff (text : PageText) (s : System τ) :
    Rendered text s ↔ Named Sliceable s.server.sessions := by
  constructor
  · intro h
    have hsnapshot : Snapshot s.server.sessions _ := List.Perm.refl _
    exact (hsnapshot.keys Sliceable).mp
      ((renders_iff text _ 0 [] [] []).mp (h _ 0 [] [] [] hsnapshot))
  · intro h entries active udpFlows tcpFlows icmpProbes hsnapshot
    exact (renders_iff text entries active udpFlows tcpFlows icmpProbes).mpr
      ((hsnapshot.keys Sliceable).mpr h)

/-- If only keys enter that can be shortened, everything is rendered in every state reached;
and in any state reached it is exactly if the registered keys can be shortened. -/
theorem status_renders_iff (hascii : AsciiBase64 libs.crypto) (text : PageText)
    (keys : Table String AuthorizedDevice) (peerLease : ℕ) (es : List (Event τ)) :
    (Meets (step api libs ctx) (RegistersSliceable libs ctx) (initial τ keys peerLease) es →
      Along (step api libs ctx) (Rendered text) (initial τ keys peerLease) es) ∧
    ∀ t, exec (step api libs ctx) (initial τ keys peerLease) es = some t →
      (Rendered text t ↔
        ∀ key, containsClient t.server.sessions key = true → Sliceable key) := by
  refine ⟨fun h done t hdone ht => ?_,fun t _ => rendered_iff text t⟩
  obtain ⟨rest,rfl⟩ := hdone
  have hkeys : Keys Sliceable t := exec_invariant
    (fun s e u hs hg hu => keys_step api ctx hascii hs hg hu) (keys_initial keys peerLease)
    (meets_append ht h).1 ht
  exact (rendered_iff text t).mpr hkeys.sessions

end Runs

/-- Libraries that read every request body as a provisioning request for this device. -/
def provisioningLibs (device : String) : Libs :=
  {toyLibs with
    fromStr := fun _ => some (.obj [("device_public_key",.str device),("wg_public_key",.str "wg")])}

/-- A peer is provisioned, the server restarts and the peer's first datagram arrives. -/
def provisionedRun (device : String) : List (Event Unit) :=
  [.request provisionRequest 1000 true,.restart 1010 true,
    .datagram ⟨.v4 ⟨192,0,2,1⟩,51820⟩ ([0x45]++List.replicate 19 0)
      [⟨device,"wg",⟨100,64,1,1⟩,1060⟩] 0 1020 true]

/-- A key of 44 characters of seven bits, as base64 gives them. -/
def plainKey : String := "AAAAAAAAAAAAAAAAAAAAAAAAAAAAAAAAAAAAAAAAAAA="

/-- A key whose twelfth byte is inside a character. -/
def accentedKey : String := "aéééééééééééé"

/-- A peer with such a key is shown after a restart. -/
theorem plain_key_renders :
    ∃ s, exec (step openTunn (provisioningLibs plainKey) toyContext) (initial Unit ∅ 60)
        (provisionedRun plainKey) = some s ∧
      containsClient s.server.sessions plainKey = true ∧ ∀ text, Rendered text s := by
  have hrun : (exec (step openTunn (provisioningLibs plainKey) toyContext) (initial Unit ∅ 60)
      (provisionedRun plainKey)).map (fun s => containsClient s.server.sessions plainKey) =
      some true := by decide +kernel
  obtain ⟨s,hs,hregistered⟩ := Option.map_eq_some_iff.mp hrun
  refine ⟨s,hs,hregistered,fun text => ?_⟩
  exact (status_renders_iff openTunn (provisioningLibs plainKey) toyContext nofun text ∅ 60
    (provisionedRun plainKey)).1 (by decide +kernel) _ s (List.prefix_refl _) hs

/-- Anyone can provision a key that is cut inside a character. Once a datagram has arrived for
the peer, neither the page nor the JSON can be rendered. -/
theorem accented_key_panics :
    ∃ s, exec (step openTunn (provisioningLibs accentedKey) toyContext) (initial Unit ∅ 60)
        (provisionedRun accentedKey) = some s ∧
      containsClient s.server.sessions accentedKey = true ∧ abbreviateKey accentedKey = none ∧
      ∀ text active udpFlows tcpFlows icmpProbes entries, Snapshot s.server.sessions entries →
        renderStatusPage text entries active udpFlows tcpFlows icmpProbes = none ∧
          renderStatusJson entries udpFlows tcpFlows icmpProbes = none := by
  have hrun : (exec (step openTunn (provisioningLibs accentedKey) toyContext) (initial Unit ∅ 60)
      (provisionedRun accentedKey)).map
        (fun s => s.server.sessions.sessionsByClient.toList) =
      some [(accentedKey,0)] := by decide +kernel
  obtain ⟨s,hs,hregistered⟩ := Option.map_eq_some_iff.mp hrun
  have hcut : abbreviateKey accentedKey = none := by decide +kernel
  refine ⟨s,hs,?_,hcut,?_⟩
  · refine (Table.contains_iff _ _).mpr ⟨0,(Table.mem_toList _ _ _).mp ?_⟩
    rw [hregistered]
    exact List.mem_singleton_self _
  · intro text active udpFlows tcpFlows icmpProbes entries hsnapshot
    rw [Snapshot,hregistered,List.map_singleton,List.perm_singleton] at hsnapshot
    subst hsnapshot
    simp [renderStatusPage,renderStatusJson,List.mapM_cons,sessionCells,sessionJson,hcut]

end Bonded.StatusPage
