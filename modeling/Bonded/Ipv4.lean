import Bonded.Packet

/-! The forwarder's IPv4 code: checksums, the two address rewrites, and the parsers and
builders for TCP, UDP and ICMP packets. -/
namespace Bonded.Ipv4

open Packet

/-- Overwrite bytes from an offset on; the slice has to lie inside the packet. -/
def putAt (packet : List UInt8) (i : ℕ) (bytes : List UInt8) : List UInt8 :=
  packet.take i++bytes++packet.drop (i+bytes.length)

def be16Bytes (n : ℕ) : List UInt8 := [UInt8.ofNat (n/256),UInt8.ofNat n]

def octets (ip : Ipv4Addr) : List UInt8 := [ip.a,ip.b,ip.c,ip.d]

/-- The sum of the big-endian words; an odd last byte is a high byte. -/
def wordSum : List UInt8 → ℕ
  | [] => 0
  | [x] => x.toNat*256
  | x::y::rest => x.toNat*256+y.toNat+wordSum rest

/-- Add the carries back in. -/
def foldCarries : ℕ → ℕ → ℕ
  | 0, sum => sum
  | n+1, sum => if sum/65536 = 0 then sum else foldCarries n (sum%65536+sum/65536)

/-- A 32-bit sum has no carries left after three rounds. -/
def onesComplementSum (bytes : List UInt8) : ℕ := 65535-foldCarries 3 (wordSum bytes)%65536

def ipv4Checksum (header : List UInt8) : ℕ := onesComplementSum header

def tcpUdpChecksumIpv4 (src dst : Ipv4Addr) (proto : UInt8) (segment : List UInt8) : ℕ :=
  let pseudo := octets src++octets dst++[0,proto]++be16Bytes segment.length++segment++
    (if segment.length%2 = 1 then [0] else [])
  let ck := onesComplementSum pseudo
  if ck = 0 then 0xffff else ck

def version (packet : List UInt8) : ℕ := (byteAt packet 0).toNat/16

def ihl (packet : List UInt8) : ℕ := (byteAt packet 0).toNat%16

/-- The address that the virtual interface has. -/
def smoltcpIp : Ipv4Addr := ⟨10,200,0,1⟩

inductive Rewritten
  | dropped
  | panicked
  | packet (bytes : List UInt8)
  deriving DecidableEq, Repr

/-- A header length beyond the packet's end makes the slice of the header panic. -/
def rewriteDstIpInbound (packet : List UInt8) : Rewritten :=
  if packet.length < 20 ∨ version packet ≠ 4 then .dropped
  else if packet.length < ihl packet*4 then .panicked
  else
    let pkt := putAt (putAt packet 16 (octets smoltcpIp)) 10 [0,0]
    .packet (putAt pkt 10 (be16Bytes (ipv4Checksum (pkt.take (ihl packet*4)))))

/-- The transport checksum of a packet whose addresses have changed. -/
def fixTransport (pkt : List UInt8) (hlen : ℕ) : List UInt8 :=
  let total := be16 pkt 2
  if pkt.length < total ∨ total < hlen then pkt
  else
    let fix := fun (proto : UInt8) (i : ℕ) =>
      let cleared := putAt pkt (hlen+i) [0,0]
      putAt cleared (hlen+i) (be16Bytes (tcpUdpChecksumIpv4 (ipAt pkt 12) (ipAt pkt 16) proto
        ((cleared.take total).drop hlen)))
    if byteAt pkt 9 = 6 ∧ 20 ≤ total-hlen then fix 6 16
    else if byteAt pkt 9 = 17 ∧ 8 ≤ total-hlen then fix 17 6
    else pkt

/-- `none` is a panic, for a header length beyond the packet's end. -/
def rewriteSrcIpOutbound (pkt : List UInt8) (originalSrc : Ipv4Addr) : Option (List UInt8) :=
  if pkt.length < 20 then some pkt
  else
    let hlen := ihl pkt*4
    let cleared := putAt (putAt pkt 12 (octets originalSrc)) 10 [0,0]
    if pkt.length < hlen then none
    else some (fixTransport
      (putAt cleared 10 (be16Bytes (ipv4Checksum (cleared.take hlen)))) hlen)

/-- The header length of an IPv4 packet of a protocol with room for `least` bytes more. -/
def headerLength (proto : UInt8) (least : ℕ) (packet : List UInt8) : Option ℕ :=
  if packet.length < 20+least then none
  else if version packet ≠ 4 ∨ ihl packet < 5 ∨ byteAt packet 9 ≠ proto then none
  else if packet.length < ihl packet*4+least then none
  else some (ihl packet*4)

structure TcpTuple where
  srcIp : Ipv4Addr
  srcPort : ℕ
  dstIp : Ipv4Addr
  dstPort : ℕ
  flags : UInt8
  deriving DecidableEq, Repr

def parseIpv4TcpTupleFlags (packet : List UInt8) : Option TcpTuple :=
  (headerLength 6 20 packet).map fun hlen =>
    ⟨ipAt packet 12,be16 packet hlen,ipAt packet 16,be16 packet (hlen+2),byteAt packet (hlen+13)⟩

/-- SYN without ACK. -/
def TcpTuple.isSyn (t : TcpTuple) : Bool := t.flags.toNat/2%2 = 1 ∧ t.flags.toNat/16%2 = 0

def TcpTuple.isRst (t : TcpTuple) : Bool := t.flags.toNat/4%2 = 1

/-- The same fields as `parseIpv4TcpTupleFlags`, with the flags read as SYN or not. -/
def parseTcpHeader (packet : List UInt8) : Option (TcpTuple × Bool) :=
  (parseIpv4TcpTupleFlags packet).map fun t => (t,t.isSyn)

/-- Header length and total length of an unfragmented packet. -/
def unfragmented (proto : UInt8) (packet : List UInt8) : Option (ℕ × ℕ) :=
  (headerLength proto 8 packet).bind fun hlen =>
    let total := be16 packet 2
    if total < hlen+8 ∨ packet.length < total ∨ be16 packet 6%0x4000 ≠ 0 then none
    else some (hlen,total)

structure Ipv4UdpPacket where
  srcIp : Ipv4Addr
  dstIp : Ipv4Addr
  srcPort : ℕ
  dstPort : ℕ
  payload : List UInt8
  identification : ℕ
  deriving DecidableEq, Repr

def parseIpv4UdpPacket (packet : List UInt8) : Option Ipv4UdpPacket :=
  (unfragmented 17 packet).bind fun (hlen,total) =>
    let udpLen := be16 packet (hlen+4)
    if udpLen < 8 ∨ total < hlen+udpLen then none
    else some ⟨ipAt packet 12,ipAt packet 16,be16 packet hlen,be16 packet (hlen+2),
      (packet.take (hlen+udpLen)).drop (hlen+8),be16 packet 4⟩

structure Ipv4IcmpEchoPacket where
  srcIp : Ipv4Addr
  dstIp : Ipv4Addr
  identification : ℕ
  echoIdentifier : ℕ
  echoSequence : ℕ
  icmpSegment : List UInt8
  deriving DecidableEq, Repr

def parseIpv4IcmpEchoPacket (packet : List UInt8) : Option Ipv4IcmpEchoPacket :=
  (unfragmented 1 packet).bind fun (hlen,total) =>
    if byteAt packet hlen ≠ 8 ∨ byteAt packet (hlen+1) ≠ 0 then none
    else some ⟨ipAt packet 12,ipAt packet 16,be16 packet 4,be16 packet (hlen+4),
      be16 packet (hlen+6),(packet.take total).drop hlen⟩

/-- The 20 header bytes of a packet that is sent to the client. -/
def ipv4Header (total identification : ℕ) (proto : UInt8) (src dst : Ipv4Addr) : List UInt8 :=
  let header := [0x45,0]++be16Bytes total++be16Bytes identification++[0x40,0,64,proto,0,0]++
    octets src++octets dst
  putAt header 10 (be16Bytes (ipv4Checksum header))

def buildIpv4UdpPacket (srcIp dstIp : Ipv4Addr) (srcPort dstPort identification : ℕ)
    (udpPayload : List UInt8) : Option (List UInt8) :=
  let total := 20+8+udpPayload.length
  if 65535 < total then none
  else
    let udp := be16Bytes srcPort++be16Bytes dstPort++be16Bytes (8+udpPayload.length)++[0,0]++
      udpPayload
    some (ipv4Header total identification 17 srcIp dstIp++
      putAt udp 6 (be16Bytes (tcpUdpChecksumIpv4 srcIp dstIp 17 udp)))

def buildIpv4IcmpPacket (srcIp dstIp : Ipv4Addr) (identification : ℕ) (icmpSegment : List UInt8) :
    Option (List UInt8) :=
  let total := 20+icmpSegment.length
  if icmpSegment.length < 8 ∨ 65535 < total then none
  else
    let icmp := putAt icmpSegment 2 [0,0]
    some (ipv4Header total identification 1 srcIp dstIp++
      putAt icmp 2 (be16Bytes (onesComplementSum icmp)))

variable {bytes packet rewritten : List UInt8} {i j : ℕ}

section

variable (h : i+bytes.length ≤ packet.length)
include h

theorem length_putAt :
    (putAt packet i bytes).length = packet.length := by
  simp only [putAt,List.length_append,List.length_take,List.length_drop]
  omega

theorem byteAt_putAt (j : ℕ) :
    byteAt (putAt packet i bytes) j =
      if i ≤ j ∧ j < i+bytes.length then byteAt bytes (j-i) else byteAt packet j := by
  have htake : (packet.take i).length = i := by simp; omega
  simp only [byteAt,putAt,List.getD_eq_getElem?_getD]
  by_cases h₁ : j < i
  · rw [if_neg (by omega),List.append_assoc,List.getElem?_append_left (by omega),
      List.getElem?_take_of_lt h₁]
  · by_cases h₂ : j < i+bytes.length
    · rw [if_pos ⟨by omega,h₂⟩,List.append_assoc,List.getElem?_append_right (by omega),
        List.getElem?_append_left (by omega),htake]
    · rw [if_neg (by omega),List.getElem?_append_right (by simp; omega)]
      simp only [List.length_append,htake,List.getElem?_drop]
      congr 2
      omega

theorem byteAt_putAt_of_lt (hj : j < i) :
    byteAt (putAt packet i bytes) j = byteAt packet j := by
  rw [byteAt_putAt h,if_neg (by omega)]

theorem byteAt_putAt_of_ge (hj : i+bytes.length ≤ j) :
    byteAt (putAt packet i bytes) j = byteAt packet j := by
  rw [byteAt_putAt h,if_neg (by omega)]

end

theorem length_be16Bytes (n : ℕ) : (be16Bytes n).length = 2 := rfl

/-- The rewrite for the virtual interface replaces the destination address and the header
checksum and nothing else. -/
theorem rewriteDstIpInbound_spec (h : rewriteDstIpInbound packet = .packet rewritten) :
    rewritten.length = packet.length ∧ ipAt rewritten 16 = smoltcpIp ∧
      ∀ j, (j < 10 ∨ 12 ≤ j ∧ j < 16 ∨ 20 ≤ j) → byteAt rewritten j = byteAt packet j := by
  unfold rewriteDstIpInbound at h
  split at h
  · cases h
  · next hlen =>
    split at h
    · cases h
    · cases h
      have h₁ : 16+(octets smoltcpIp).length ≤ packet.length := by simp [octets]; omega
      have h₂ : 10+[(0 : UInt8),0].length ≤ (putAt packet 16 (octets smoltcpIp)).length := by
        rw [length_putAt h₁]; simp; omega
      have h₃ : ∀ n, 10+(be16Bytes n).length ≤
          (putAt (putAt packet 16 (octets smoltcpIp)) 10 [0,0]).length := fun n => by
        rw [length_putAt h₂,length_putAt h₁,length_be16Bytes]; omega
      have hbyte : ∀ n j, ¬ (10 ≤ j ∧ j < 12) →
          byteAt (putAt (putAt (putAt packet 16 (octets smoltcpIp)) 10 [0,0]) 10 (be16Bytes n)) j =
            byteAt (putAt packet 16 (octets smoltcpIp)) j := fun n j hj => by
        rw [byteAt_putAt (h₃ n),length_be16Bytes,if_neg hj,byteAt_putAt h₂,
          if_neg (by simpa using hj)]
      refine ⟨?_,?_,fun j hj => ?_⟩
      · rw [length_putAt (h₃ _),length_putAt h₂,length_putAt h₁]
      · simp only [ipAt]
        rw [hbyte _ _ (by omega),hbyte _ _ (by omega),hbyte _ _ (by omega),hbyte _ _ (by omega)]
        simp only [byteAt_putAt h₁]
        rfl
      · rw [hbyte _ _ (by omega),byteAt_putAt h₁,if_neg (by simp [octets]; omega)]

/-- The virtual interface sees the segment that the client sent, for another address. -/
theorem parse_rewriteDstIpInbound (h : rewriteDstIpInbound packet = .packet rewritten) :
    parseIpv4TcpTupleFlags rewritten =
      (parseIpv4TcpTupleFlags packet).map fun t => {t with dstIp := smoltcpIp} := by
  obtain ⟨hlen,hdst,hbyte⟩ := rewriteDstIpInbound_spec h
  have hheader : headerLength 6 20 rewritten = headerLength 6 20 packet := by
    unfold headerLength version ihl
    rw [hlen,hbyte 0 (by omega),hbyte 9 (by omega)]
  simp only [parseIpv4TcpTupleFlags,hheader]
  cases hh : headerLength 6 20 packet with
  | none => rfl
  | some hlen =>
    have hge : 20 ≤ hlen := by
      simp only [headerLength] at hh
      split at hh
      · cases hh
      · split at hh
        · cases hh
        · split at hh
          · cases hh
          · cases hh; omega
    simp only [Option.map_some,hdst]
    simp only [ipAt,be16,hbyte 12 (by omega),hbyte 13 (by omega),hbyte 14 (by omega),
      hbyte 15 (by omega),hbyte hlen (by omega),hbyte (hlen+1) (by omega),
      hbyte (hlen+2) (by omega),hbyte (hlen+2+1) (by omega),hbyte (hlen+13) (by omega)]

theorem byteAt_fixTransport {pkt : List UInt8} {hlen : ℕ} (hj : j < hlen) :
    byteAt (fixTransport pkt hlen) j = byteAt pkt j := by
  simp only [fixTransport]
  split
  · rfl
  · next hfit =>
    have hput : ∀ i n, i+2 ≤ be16 pkt 2-hlen →
        byteAt (putAt (putAt pkt (hlen+i) [0,0]) (hlen+i) (be16Bytes n)) j = byteAt pkt j := by
      intro i n hi
      have h₁ : hlen+i+[(0 : UInt8),0].length ≤ pkt.length := by simp; omega
      have h₂ : hlen+i+(be16Bytes n).length ≤ (putAt pkt (hlen+i) [0,0]).length := by
        rw [length_putAt h₁,length_be16Bytes]; simp at h₁; omega
      rw [byteAt_putAt_of_lt h₂ (by omega),byteAt_putAt_of_lt h₁ (by omega)]
    split
    · next ht => exact hput 16 _ (by omega)
    · split
      · next hu => exact hput 6 _ (by omega)
      · rfl

theorem rewriteSrcIpOutbound_src {pkt : List UInt8} {src : Ipv4Addr} (hlen : 20 ≤ pkt.length)
    (hihl : 5 ≤ ihl pkt) (h : rewriteSrcIpOutbound pkt src = some rewritten) :
    ipAt rewritten 12 = src := by
  simp only [rewriteSrcIpOutbound,if_neg (show ¬ pkt.length < 20 by omega)] at h
  split at h
  · cases h
  · cases h
    have h₁ : 12+(octets src).length ≤ pkt.length := by simp [octets]; omega
    have h₂ : 10+[(0 : UInt8),0].length ≤ (putAt pkt 12 (octets src)).length := by
      rw [length_putAt h₁]; simp; omega
    have h₃ : ∀ n, 10+(be16Bytes n).length ≤ (putAt (putAt pkt 12 (octets src)) 10 [0,0]).length :=
      fun n => by rw [length_putAt h₂,length_putAt h₁,length_be16Bytes]; omega
    have hbyte : ∀ n j, 12 ≤ j → j < 16 → byteAt (fixTransport (putAt (putAt (putAt pkt 12
        (octets src)) 10 [0,0]) 10 (be16Bytes n)) (ihl pkt*4)) j = byteAt (octets src) (j-12) := by
      intro n j hj hj'
      rw [byteAt_fixTransport (by omega),byteAt_putAt_of_ge (h₃ n) (by rw [length_be16Bytes]; omega),
        byteAt_putAt_of_ge h₂ (by simp; omega),byteAt_putAt h₁,if_pos (by simp [octets]; omega)]
    simp only [ipAt]
    rw [hbyte _ 12 (by omega) (by omega),hbyte _ 13 (by omega) (by omega),
      hbyte _ 14 (by omega) (by omega),hbyte _ 15 (by omega) (by omega)]
    rfl

end Bonded.Ipv4
