import Bonded.Checked
import Bonded.SmoltcpForwarder

/-! Whether a client's packet can make the forwarder panic: the code of `ingestPacket` with every
index, slice and sum checked. `none` is a panic; where there is none, the result is that of the
functions which the rest of the development uses. -/
namespace Bonded.IngestPanics

open Checked Ipv4 Packet SmoltcpForwarder

/-- The big-endian 16-bit number of two indexed bytes. -/
def word (bytes : List UInt8) (i : ℕ) : Option ℕ := do
  let high ← index bytes i
  let low ← index bytes (i+1)
  return high.toNat*256+low.toNat

def ipv4Addr (bytes : List UInt8) (i : ℕ) : Option Ipv4Addr := do
  let a ← index bytes i
  let b ← index bytes (i+1)
  let c ← index bytes (i+2)
  let d ← index bytes (i+3)
  return ⟨a,b,c,d⟩

/-- The loop over the words of a checksum; `fuel` bounds its rounds. -/
def sumWords (bytes : List UInt8) : ℕ → ℕ → ℕ → Option ℕ
  | 0, _, sum => some sum
  | fuel+1, i, sum =>
    if i+1 < bytes.length then do
      let sum ← add32 sum (← word bytes i)
      sumWords bytes fuel (i+2) sum
    else if i < bytes.length then do
      add32 sum ((← index bytes i).toNat*256)
    else some sum

def addCarries : ℕ → ℕ → Option ℕ
  | 0, sum => some sum
  | n+1, sum => if sum/65536 = 0 then some sum else do
      addCarries n (← add32 (sum%65536) (sum/65536))

def onesComplementSum (bytes : List UInt8) : Option ℕ := do
  let sum ← sumWords bytes (bytes.length+1) 0 0
  let sum ← addCarries 3 sum
  return 65535-sum%65536

def ipv4Checksum (header : List UInt8) : Option ℕ := onesComplementSum header

def rewriteDstIpInbound (packet : List UInt8) : Option (Option (List UInt8)) :=
  if packet.length < 20 then some none
  else do
    if (← index packet 0).toNat/16 ≠ 4 then return none
    let pkt ← copyFromSlice packet 16 20 (octets smoltcpIp)
    let ihl := (← index pkt 0).toNat%16*4
    let pkt ← copyFromSlice pkt 10 12 [0,0]
    let cksum ← ipv4Checksum (← slice pkt 0 ihl)
    let pkt ← copyFromSlice pkt 10 12 (be16Bytes cksum)
    return some pkt

/-- The checks that the parsers begin with. -/
def headerLength (proto : UInt8) (least : ℕ) (packet : List UInt8) : Option (Option ℕ) :=
  if packet.length < 20+least then some none
  else do
    let version := (← index packet 0).toNat/16
    let ihl := (← index packet 0).toNat%16
    if version ≠ 4 ∨ ihl < 5 ∨ (← index packet 9) ≠ proto then return none
    let ihlBytes := ihl*4
    if packet.length < ihlBytes+least then return none
    return some ihlBytes

def parseTcpHeader (packet : List UInt8) : Option (Option (TcpTuple × Bool)) := do
  match ← headerLength 6 20 packet with
  | none => return none
  | some ihlBytes =>
    let srcIp ← ipv4Addr packet 12
    let dstIp ← ipv4Addr packet 16
    let tcp ← slice packet ihlBytes packet.length
    let srcPort ← word tcp 0
    let dstPort ← word tcp 2
    let t : TcpTuple := ⟨srcIp,srcPort,dstIp,dstPort,← index tcp 13⟩
    return some (t,t.isSyn)

def unfragmented (proto : UInt8) (packet : List UInt8) : Option (Option (ℕ × ℕ)) := do
  match ← headerLength proto 8 packet with
  | none => return none
  | some hlen =>
    let total ← word packet 2
    if total < hlen+8 ∨ packet.length < total ∨ (← word packet 6)%0x4000 ≠ 0 then return none
    return some (hlen,total)

def parseIpv4UdpPacket (packet : List UInt8) : Option (Option Ipv4UdpPacket) := do
  match ← unfragmented 17 packet with
  | none => return none
  | some (hlen,total) =>
    let srcIp ← ipv4Addr packet 12
    let dstIp ← ipv4Addr packet 16
    let identification ← word packet 4
    let udp ← slice packet hlen packet.length
    let udpLen ← word udp 4
    if udpLen < 8 ∨ total < hlen+udpLen then return none
    let srcPort ← word udp 0
    let dstPort ← word udp 2
    let payload ← slice udp 8 udpLen
    return some ⟨srcIp,dstIp,srcPort,dstPort,payload,identification⟩

def parseIpv4IcmpEchoPacket (packet : List UInt8) : Option (Option Ipv4IcmpEchoPacket) := do
  match ← unfragmented 1 packet with
  | none => return none
  | some (hlen,total) =>
    let icmp ← slice packet hlen packet.length
    if (← index icmp 0) ≠ 8 ∨ (← index icmp 1) ≠ 0 then return none
    let srcIp ← ipv4Addr packet 12
    let dstIp ← ipv4Addr packet 16
    let identification ← word packet 4
    let echoIdentifier ← word icmp 4
    let echoSequence ← word icmp 6
    let segment ← slice packet hlen total
    return some ⟨srcIp,dstIp,identification,echoIdentifier,echoSequence,segment⟩

/-- The task that a packet of the other protocols starts. -/
inductive Spawned
  | udp (packet : Ipv4UdpPacket)
  | icmp (packet : Ipv4IcmpEchoPacket)
  deriving DecidableEq, Repr

section Dispatch

variable {τ : Type}

def dispatchTcp (s : Forwarder τ) (payload : List UInt8) : Option (Forwarder τ) := do
  let s := match ← parseTcpHeader payload with
    | some (t,true) => trySend s (.createTcpSocket (flowOf t t.dstIp))
    | _ => s
  match ← rewriteDstIpInbound payload with
  | some rewritten => return trySend s (.injectPacket ⟨rewritten,ipAt payload 16⟩)
  | none => return s

def dispatchUdp (payload : List UInt8) : Option (Option Spawned) := do
  return (← parseIpv4UdpPacket payload).map .udp

def dispatchIcmp (payload : List UInt8) : Option (Option Spawned) := do
  return (← parseIpv4IcmpEchoPacket payload).map .icmp

def ingestPacket (s : Forwarder τ) (payload : List UInt8) :
    Option (Forwarder τ × Option Spawned) :=
  if payload.length < 20 then some (s,none)
  else do
    let protocol ← index payload 9
    if protocol = 6 then return (← dispatchTcp s payload,none)
    else if protocol = 17 then return (s,← dispatchUdp payload)
    else if protocol = 1 then return (s,← dispatchIcmp payload)
    else return (s,none)

end Dispatch

section Reads

variable {bytes : List UInt8} {i : ℕ}

theorem index_eq (h : i < bytes.length) : index bytes i = some (byteAt bytes i) := index_of_lt h 0

theorem word_eq (h : i+1 < bytes.length) : word bytes i = some (be16 bytes i) := by
  simp only [word,index_eq h,index_eq (show i < bytes.length by omega)]
  rfl

theorem ipv4Addr_eq (h : i+3 < bytes.length) : ipv4Addr bytes i = some (ipAt bytes i) := by
  simp only [ipv4Addr,index_eq h,index_eq (show i < bytes.length by omega),
    index_eq (show i+1 < bytes.length by omega),index_eq (show i+2 < bytes.length by omega)]
  rfl

theorem byteAt_drop (bytes : List UInt8) (n i : ℕ) :
    byteAt (bytes.drop n) i = byteAt bytes (n+i) := by
  simp [byteAt,List.getD_eq_getElem?_getD,List.getElem?_drop]

theorem slice_rest {n : ℕ} (h : n ≤ bytes.length) :
    slice bytes n bytes.length = some (bytes.drop n) := by
  rw [slice_of_le h (Nat.le_refl _),List.take_length]

theorem word_drop (bytes : List UInt8) (n i : ℕ) (h : n+i+1 < bytes.length) :
    word (bytes.drop n) i = some (be16 bytes (n+i)) := by
  rw [word_eq (by simp; omega),be16,be16,byteAt_drop,byteAt_drop,Nat.add_assoc]

theorem index_drop (bytes : List UInt8) (n i : ℕ) (h : n+i < bytes.length) :
    index (bytes.drop n) i = some (byteAt bytes (n+i)) := by
  rw [index_eq (by simp; omega),byteAt_drop]

end Reads

section Checksum

theorem wordSum_le (bytes : List UInt8) : wordSum bytes ≤ 32768*(bytes.length+1) := by
  fun_induction wordSum bytes with
  | case1 => simp
  | case2 x =>
    have hx := x.toNat_lt
    simp only [List.length_singleton]
    omega
  | case3 x y rest ih =>
    have hx := x.toNat_lt
    have hy := y.toNat_lt
    simp only [List.length_cons]
    omega

theorem drop_eq_byteAt_cons {bytes : List UInt8} {i : ℕ} (h : i < bytes.length) :
    bytes.drop i = byteAt bytes i::bytes.drop (i+1) := by
  rw [List.drop_eq_getElem_cons h,byteAt,List.getD_eq_getElem?_getD,List.getElem?_eq_getElem h]
  rfl

/-- The loop adds up the words from its index on, unless the sum overflows. -/
theorem sumWords_eq {bytes : List UInt8} (fuel i sum : ℕ) (hfuel : bytes.length < i+2*fuel)
    (hsum : sum+wordSum (bytes.drop i) < 2^32) :
    sumWords bytes fuel i sum = some (sum+wordSum (bytes.drop i)) := by
  induction fuel generalizing i sum with
  | zero =>
    rw [List.drop_eq_nil_of_le (by omega)]
    rfl
  | succ fuel ih =>
    unfold sumWords
    by_cases htwo : i+1 < bytes.length
    · rw [if_pos htwo]
      rw [drop_eq_byteAt_cons (show i < bytes.length by omega),drop_eq_byteAt_cons htwo,
        wordSum] at hsum ⊢
      have hbe : be16 bytes i = (byteAt bytes i).toNat*256+(byteAt bytes (i+1)).toNat := rfl
      rw [← hbe,← Nat.add_assoc] at hsum ⊢
      have hadd : add32 sum (be16 bytes i) = some (sum+be16 bytes i) :=
        add32_of_lt (lt_of_le_of_lt (Nat.le_add_right _ _) hsum)
      simp only [word_eq htwo,Option.bind_eq_bind,Option.bind_some,hadd]
      exact ih (i+2) (sum+be16 bytes i) (by omega) hsum
    · rw [if_neg htwo]
      by_cases hone : i < bytes.length
      · rw [if_pos hone]
        rw [drop_eq_byteAt_cons hone,List.drop_eq_nil_of_le (show bytes.length ≤ i+1 by omega),
          wordSum] at hsum ⊢
        simp only [index_eq hone,Option.bind_eq_bind,Option.bind_some]
        exact add32_of_lt hsum
      · rw [if_neg hone,List.drop_eq_nil_of_le (by omega)]
        rfl

theorem addCarries_eq (n : ℕ) {sum : ℕ} (h : sum < 2^32) :
    addCarries n sum = some (foldCarries n sum) := by
  induction n generalizing sum with
  | zero => rfl
  | succ n ih =>
    unfold addCarries foldCarries
    split
    · rfl
    · rw [add32_of_lt (by omega)]
      exact ih (by omega)

/-- A checksum over at most 131070 bytes does not overflow. -/
theorem onesComplementSum_eq {bytes : List UInt8} (h : bytes.length ≤ 131070) :
    onesComplementSum bytes = some (Ipv4.onesComplementSum bytes) := by
  have hbound := wordSum_le bytes
  have hsum : sumWords bytes (bytes.length+1) 0 0 = some (0+wordSum (bytes.drop 0)) :=
    sumWords_eq (bytes.length+1) 0 0 (by omega) (by rw [List.drop_zero]; omega)
  rw [List.drop_zero,Nat.zero_add] at hsum
  have hcarries : addCarries 3 (wordSum bytes) = some (foldCarries 3 (wordSum bytes)) :=
    addCarries_eq 3 (by omega)
  simp only [onesComplementSum,hsum,Option.bind_eq_bind,Option.bind_some,hcarries]
  rfl

end Checksum

section Parsers

variable {packet : List UInt8}

theorem headerLength_eq (proto : UInt8) (least : ℕ) (packet : List UInt8) :
    headerLength proto least packet = some (Ipv4.headerLength proto least packet) := by
  unfold headerLength Ipv4.headerLength
  by_cases hshort : packet.length < 20+least
  · rw [if_pos hshort,if_pos hshort]
  rw [if_neg hshort,if_neg hshort]
  have hfirst : index packet 0 = some (byteAt packet 0) := index_eq (by omega)
  have hproto : index packet 9 = some (byteAt packet 9) := index_eq (by omega)
  simp only [hfirst,hproto,Option.bind_eq_bind,Option.bind_some]
  by_cases hbad : version packet ≠ 4 ∨ ihl packet < 5 ∨ byteAt packet 9 ≠ proto
  · rw [if_pos hbad]
    exact if_pos hbad
  · rw [if_neg hbad,apply_ite some]
    exact if_neg hbad

theorem headerLength_bounds {proto : UInt8} {least hlen : ℕ}
    (h : Ipv4.headerLength proto least packet = some hlen) :
    20+least ≤ packet.length ∧ hlen+least ≤ packet.length := by
  unfold Ipv4.headerLength at h
  split at h
  · exact absurd h (by simp)
  split at h
  · exact absurd h (by simp)
  split at h
  · exact absurd h (by simp)
  · obtain rfl := Option.some.inj h
    omega

theorem parseTcpHeader_eq (packet : List UInt8) :
    parseTcpHeader packet = some (Ipv4.parseTcpHeader packet) := by
  unfold parseTcpHeader Ipv4.parseTcpHeader parseIpv4TcpTupleFlags
  rw [headerLength_eq]
  cases h : Ipv4.headerLength 6 20 packet with
  | none => rfl
  | some hlen =>
    obtain ⟨hlong,hhlen⟩ := headerLength_bounds h
    simp only [Option.bind_eq_bind,Option.bind_some,
      ipv4Addr_eq (show 12+3 < packet.length by omega),
      ipv4Addr_eq (show 16+3 < packet.length by omega),
      slice_rest (show hlen ≤ packet.length by omega),
      word_drop packet hlen 0 (by omega),
      word_drop packet hlen 2 (by omega),
      index_drop packet hlen 13 (by omega)]
    rfl

theorem unfragmented_eq (proto : UInt8) (packet : List UInt8) :
    unfragmented proto packet = some (Ipv4.unfragmented proto packet) := by
  unfold unfragmented Ipv4.unfragmented
  rw [headerLength_eq]
  cases h : Ipv4.headerLength proto 8 packet with
  | none => rfl
  | some hlen =>
    obtain ⟨hlong,_⟩ := headerLength_bounds h
    simp only [Option.bind_eq_bind,Option.bind_some,
      word_eq (show 2+1 < packet.length by omega),word_eq (show 6+1 < packet.length by omega)]
    split <;> rfl

theorem unfragmented_bounds {proto : UInt8} {hlen total : ℕ}
    (h : Ipv4.unfragmented proto packet = some (hlen,total)) :
    28 ≤ packet.length ∧ hlen+8 ≤ total ∧ total ≤ packet.length := by
  obtain ⟨hdr,hhdr,h⟩ := Option.bind_eq_some_iff.mp h
  have hbounds := headerLength_bounds hhdr
  simp only at h
  split at h
  · exact absurd h (by simp)
  · simp only [Option.some.injEq,Prod.mk.injEq] at h
    omega

theorem parseIpv4UdpPacket_eq (packet : List UInt8) :
    parseIpv4UdpPacket packet = some (Ipv4.parseIpv4UdpPacket packet) := by
  unfold parseIpv4UdpPacket Ipv4.parseIpv4UdpPacket
  rw [unfragmented_eq]
  cases h : Ipv4.unfragmented 17 packet with
  | none => rfl
  | some lengths =>
    obtain ⟨hlen,total⟩ := lengths
    obtain ⟨hlong,hhlen,htotal⟩ := unfragmented_bounds h
    simp only [Option.bind_eq_bind,Option.bind_some,
      ipv4Addr_eq (show 12+3 < packet.length by omega),
      ipv4Addr_eq (show 16+3 < packet.length by omega),
      word_eq (show 4+1 < packet.length by omega),
      slice_rest (show hlen ≤ packet.length by omega),
      word_drop packet hlen 4 (by omega)]
    split
    · rfl
    · rename_i hudp
      have hpayload : slice (packet.drop hlen) 8 (be16 packet (hlen+4)) =
          some ((packet.take (hlen+be16 packet (hlen+4))).drop (hlen+8)) := by
        rw [slice_of_le (by omega) (by simp; omega),List.take_drop,List.drop_drop]
      simp only [word_drop packet hlen 0 (by omega),
        word_drop packet hlen 2 (by omega),hpayload,Option.bind_some]
      rfl

theorem parseIpv4IcmpEchoPacket_eq (packet : List UInt8) :
    parseIpv4IcmpEchoPacket packet = some (Ipv4.parseIpv4IcmpEchoPacket packet) := by
  unfold parseIpv4IcmpEchoPacket Ipv4.parseIpv4IcmpEchoPacket
  rw [unfragmented_eq]
  cases h : Ipv4.unfragmented 1 packet with
  | none => rfl
  | some lengths =>
    obtain ⟨hlen,total⟩ := lengths
    obtain ⟨hlong,hhlen,htotal⟩ := unfragmented_bounds h
    have htype : index (packet.drop hlen) 0 = some (byteAt packet hlen) :=
      index_drop packet hlen 0 (by omega)
    simp only [Option.bind_eq_bind,Option.bind_some,
      slice_rest (show hlen ≤ packet.length by omega),htype,
      index_drop packet hlen 1 (by omega)]
    split
    · rfl
    · simp only [ipv4Addr_eq (show 12+3 < packet.length by omega),
        ipv4Addr_eq (show 16+3 < packet.length by omega),
        word_eq (show 4+1 < packet.length by omega),
        word_drop packet hlen 4 (by omega),
        word_drop packet hlen 6 (by omega),
        slice_of_le (show hlen ≤ total by omega) htotal,Option.bind_some]
      rfl

end Parsers

section Rewrite

/-- What the rewrite's outcome is to its caller. -/
def outcome : Rewritten → Option (Option (List UInt8))
  | .dropped => some none
  | .panicked => none
  | .packet bytes => some (some bytes)

theorem copyFromSlice_eq {packet new : List UInt8} (a b : ℕ) (h : a+new.length = b)
    (hb : b ≤ packet.length) : copyFromSlice packet a b new = some (putAt packet a new) := by
  rw [copyFromSlice_of_le h hb,putAt,h]

/-- The rewrite panics where the header length is beyond the packet's end, and nowhere else. -/
theorem rewriteDstIpInbound_eq (packet : List UInt8) :
    rewriteDstIpInbound packet = outcome (Ipv4.rewriteDstIpInbound packet) := by
  unfold rewriteDstIpInbound Ipv4.rewriteDstIpInbound
  by_cases hshort : packet.length < 20
  · rw [if_pos hshort,if_pos (Or.inl hshort)]
    rfl
  rw [if_neg hshort]
  have hfirst : index packet 0 = some (byteAt packet 0) := index_eq (by omega)
  simp only [hfirst,Option.bind_eq_bind,Option.bind_some]
  by_cases hversion : version packet ≠ 4
  · rw [if_pos (Or.inr hversion)]
    exact if_pos hversion
  rw [if_neg (show ¬ (packet.length < 20 ∨ version packet ≠ 4) by tauto)]
  refine (if_neg hversion).trans ?_
  have hdst : 16+(octets smoltcpIp).length ≤ packet.length := by simp [octets]; omega
  have hlength := length_putAt hdst
  have hzero : 10+[(0 : UInt8),0].length ≤ (putAt packet 16 (octets smoltcpIp)).length := by
    rw [hlength]; simp; omega
  have hlength' := length_putAt hzero
  have hihl : index (putAt packet 16 (octets smoltcpIp)) 0 = some (byteAt packet 0) := by
    rw [index_eq (by omega),byteAt_putAt_of_lt hdst (by omega)]
  rw [copyFromSlice_eq 16 20 rfl (by omega),Option.bind_some,hihl,Option.bind_some,
    copyFromSlice_eq 10 12 rfl (by omega),Option.bind_some]
  change (slice _ 0 (ihl packet*4)).bind _ = _
  by_cases hpanic : packet.length < ihl packet*4
  · rw [if_pos hpanic,slice_of_lt (by omega)]
    rfl
  · have hheader : ((putAt (putAt packet 16 (octets smoltcpIp)) 10 [0,0]).take
        (ihl packet*4)).length ≤ 131070 := by
      have : ihl packet < 16 := Nat.mod_lt _ (by decide)
      rw [List.length_take]
      omega
    rw [if_neg hpanic,slice_of_le (Nat.zero_le _) (by omega),List.drop_zero,Option.bind_some,
      ipv4Checksum,onesComplementSum_eq hheader,Option.bind_some,
      copyFromSlice_eq 10 12 rfl (by omega)]
    rfl

end Rewrite

section Panic

variable {τ : Type} (s : Forwarder τ) (payload : List UInt8)

/-- The call of the forwarder's model, once the rewrite has returned. -/
def forward (payload : List UInt8) (rewritten : Option (List UInt8)) : Forwarder τ :=
  match rewritten with
  | some bytes => trySend (announceSyn s payload) (.injectPacket ⟨bytes,ipAt payload 16⟩)
  | none => announceSyn s payload

theorem dispatchTcp_eq : dispatchTcp s payload =
    (outcome (Ipv4.rewriteDstIpInbound payload)).map (forward s payload) := by
  rw [dispatchTcp,parseTcpHeader_eq,rewriteDstIpInbound_eq]
  cases outcome (Ipv4.rewriteDstIpInbound payload) with
  | none => rfl
  | some rewritten => cases rewritten <;> rfl

theorem outcome_isSome (h : 20 ≤ payload.length) :
    (outcome (Ipv4.rewriteDstIpInbound payload)).isSome = true ↔
      version payload ≠ 4 ∨ ihl payload*4 ≤ payload.length := by
  unfold Ipv4.rewriteDstIpInbound
  by_cases hversion : version payload ≠ 4
  · rw [if_pos (Or.inr hversion)]
    exact iff_of_true rfl (Or.inl hversion)
  rw [if_neg (by omega)]
  by_cases hpanic : payload.length < ihl payload*4
  · rw [if_pos hpanic]
    exact iff_of_false (by simp [outcome]) (by omega)
  · rw [if_neg hpanic]
    exact iff_of_true rfl (Or.inr (by omega))

/-- A payload panics exactly as a TCP packet over IPv4 that is shorter than the header length it
states. The parsers of the three protocols and the checksums panic on none. -/
theorem ingestPacket_returns_iff :
    (ingestPacket s payload).isSome = true ↔ payload.length < 20 ∨ byteAt payload 9 ≠ 6 ∨
      version payload ≠ 4 ∨ ihl payload*4 ≤ payload.length := by
  unfold ingestPacket
  by_cases hshort : payload.length < 20
  · rw [if_pos hshort]
    exact iff_of_true rfl (Or.inl hshort)
  rw [if_neg hshort]
  have hproto : index payload 9 = some (byteAt payload 9) := index_eq (by omega)
  simp only [hproto,Option.bind_eq_bind,Option.bind_some]
  by_cases htcp : byteAt payload 9 = 6
  · have hreturns := outcome_isSome payload (by omega)
    rw [if_pos htcp,dispatchTcp_eq]
    cases h : outcome (Ipv4.rewriteDstIpInbound payload) with
    | none =>
      rw [h] at hreturns
      exact iff_of_false (by simp) (by tauto)
    | some rewritten =>
      rw [h] at hreturns
      exact iff_of_true rfl (Or.inr (Or.inr (hreturns.mp rfl)))
  · rw [if_neg htcp]
    refine iff_of_true ?_ (Or.inr (Or.inl htcp))
    simp only [dispatchUdp,dispatchIcmp,parseIpv4UdpPacket_eq,parseIpv4IcmpEchoPacket_eq]
    split
    · rfl
    · split <;> rfl

/-- A TCP packet over IPv4 of 20 bytes that states a header of 60. -/
def overlong : List UInt8 := [0x4f,0,0,20,0,0,0,0,64,6,0,0,10,0,0,2,1,1,1,1]

theorem ingestPacket_overlong : ingestPacket (SmoltcpForwarder.new Unit) overlong = none := by
  decide

/-- Where the call returns, it is the call that the rest of the development is about. -/
theorem ingestPacket_refines : ingestPacket {s with caller := none} payload = none ∨
    ∃ spawned, ingestPacket {s with caller := none} payload =
      some (SmoltcpForwarder.ingestPacket {s with caller := none} payload,spawned) := by
  unfold ingestPacket SmoltcpForwarder.ingestPacket beginIngest
  by_cases hshort : payload.length < 20
  · rw [if_pos hshort,if_pos hshort]
    exact .inr ⟨_,rfl⟩
  rw [if_neg hshort,if_neg hshort]
  simp only [index_eq (show 9 < payload.length by omega),Option.bind_eq_bind,Option.bind_some]
  by_cases htcp : byteAt payload 9 = 6
  · rw [if_pos htcp,if_pos htcp,dispatchTcp_eq]
    simp only [endIngest,injected,Option.bind_some]
    cases Ipv4.rewriteDstIpInbound payload with
    | panicked => exact .inl rfl
    | dropped | packet bytes =>
      -- no command looks at the running call, whether the queue has room or not
      refine .inr ⟨none,?_⟩
      simp only [outcome,Option.map_some,Option.bind_some,forward,announceSyn,trySend]
      repeat' split
      all_goals rfl
  · rw [if_neg htcp,if_neg htcp]
    simp only [dispatchUdp,dispatchIcmp,parseIpv4UdpPacket_eq,parseIpv4IcmpEchoPacket_eq]
    split
    · exact .inr ⟨_,rfl⟩
    · split <;> exact .inr ⟨_,rfl⟩

end Panic

end Bonded.IngestPanics
