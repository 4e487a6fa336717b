import Bonded.Checksums

/-! The UDP and ICMP packets that the forwarder builds and parses: what is built parses back to
what it was built from, and what is parsed can be built again. -/
namespace Bonded.PacketCodec

open Checksums Ipv4 Packet

section Reads

theorem unfragmented_eq_some {proto : UInt8} {packet : List UInt8} {hlen total : ℕ} :
    unfragmented proto packet = some (hlen,total) ↔
      version packet = 4 ∧ 5 ≤ ihl packet ∧ byteAt packet 9 = proto ∧ be16 packet 6%0x4000 = 0 ∧
        hlen = ihl packet*4 ∧ total = be16 packet 2 ∧ hlen+8 ≤ total ∧ total ≤ packet.length := by
  unfold unfragmented headerLength
  constructor
  · intro h
    split at h
    · cases h
    split at h
    · cases h
    next hkind =>
    split at h
    · cases h
    simp only [Option.bind_some] at h
    split at h
    · cases h
    next htotal =>
    cases h
    push Not at hkind htotal
    exact ⟨hkind.1,hkind.2.1,hkind.2.2,htotal.2.2,rfl,rfl,htotal.1,htotal.2.1⟩
  · rintro ⟨hversion,hihl,hproto,hfragment,rfl,rfl,hroom,htotal⟩
    have hkind : ¬ (version packet ≠ 4 ∨ ihl packet < 5 ∨ byteAt packet 9 ≠ proto) := by
      simp only [hversion,hproto,ne_eq,not_true_eq_false,false_or,or_false]
      omega
    rw [if_neg (by omega),if_neg hkind,if_neg (by omega),Option.bind_some,if_neg (by omega)]

theorem byteAt_append (front rest : List UInt8) (i : ℕ) :
    byteAt (front++rest) (front.length+i) = byteAt rest i := by
  simp only [byteAt,List.getD_eq_getElem?_getD]
  rw [List.getElem?_append_right (by omega),Nat.add_sub_cancel_left]

theorem be16_field (front : List UInt8) {rest packet : List UInt8} {n i : ℕ}
    (hpacket : packet = front++(be16Bytes n++rest)) (hi : front.length = i) (hn : n < 65536) :
    be16 packet i = n := by
  have hhigh := byteAt_append front (be16Bytes n++rest) 0
  have hlow := byteAt_append front (be16Bytes n++rest) 1
  rw [Nat.add_zero] at hhigh
  rw [hpacket,be16,← hi,hhigh,hlow]
  simp only [be16Bytes,byteAt,List.cons_append,List.getD_cons_zero,List.getD_cons_succ,
    UInt8.toNat_ofNat']
  omega

/-- What a built header lets through to the segment behind it. -/
theorem unfragmented_built (identification : ℕ) (proto : UInt8) (src dst : Ipv4Addr)
    {segment : List UInt8} (suffix : List UInt8) (hlow : 8 ≤ segment.length)
    (hhigh : 20+segment.length ≤ 65535) :
    unfragmented proto (ipv4Header (20+segment.length) identification proto src dst++
      (segment++suffix)) = some (20,20+segment.length) := by
  have hread := builtHeader (20+segment.length) identification proto src dst (segment++suffix)
  have hlen := length_ipv4Header (20+segment.length) identification proto src dst
  have htotal := hread.total
  rw [Nat.mod_eq_of_lt (by omega)] at htotal
  refine unfragmented_eq_some.mpr ⟨hread.version,by rw [hread.ihl],hread.proto,?_,?_,htotal.symm,
    by omega,?_⟩
  · rw [hread.fragment]
  · rw [hread.ihl]
  · simp only [List.length_append]
    omega

end Reads

section Udp

variable {srcIp dstIp : Ipv4Addr} {srcPort dstPort identification : ℕ} {udpPayload : List UInt8}

theorem buildIpv4UdpPacket_eq_some {out : List UInt8} :
    Checksums.buildIpv4UdpPacket srcIp dstIp srcPort dstPort identification udpPayload =
        some (some out) ↔
      udpPayload.length ≤ 65507 ∧ ∃ ck, ck = Ipv4.tcpUdpChecksumIpv4 srcIp dstIp 17
          (clearUdp srcPort dstPort (8+udpPayload.length)++udpPayload) ∧
        out = ipv4Header (20+8+udpPayload.length) identification 17 srcIp dstIp++
          (be16Bytes srcPort++be16Bytes dstPort++be16Bytes (8+udpPayload.length)++be16Bytes ck++
            udpPayload) := by
  rw [buildIpv4UdpPacket_eq,Option.some.injEq]
  simp only [Ipv4.buildIpv4UdpPacket]
  constructor
  · intro h
    split at h
    · cases h
    · cases h
      exact ⟨by omega,_,rfl,rfl⟩
  · rintro ⟨hlen,_,rfl,rfl⟩
    rw [if_neg (by omega)]
    rfl

/-- A built packet parses back, whatever follows it in the buffer. -/
theorem parse_buildIpv4UdpPacket {out : List UInt8} (hsrc : srcPort < 65536)
    (hdst : dstPort < 65536) (hid : identification < 65536)
    (h : Checksums.buildIpv4UdpPacket srcIp dstIp srcPort dstPort identification udpPayload =
      some (some out)) (suffix : List UInt8) :
    IngestPanics.parseIpv4UdpPacket (out++suffix) =
      some (some ⟨srcIp,dstIp,srcPort,dstPort,udpPayload,identification⟩) := by
  obtain ⟨hlen,ck,-,rfl⟩ := buildIpv4UdpPacket_eq_some.mp h
  rw [IngestPanics.parseIpv4UdpPacket_eq,List.append_assoc]
  generalize hudp : be16Bytes srcPort++be16Bytes dstPort++be16Bytes (8+udpPayload.length)++
    be16Bytes ck++udpPayload = udp
  have hlength : udp.length = 8+udpPayload.length := by
    rw [← hudp]
    simp only [List.length_append,length_be16Bytes]
  rw [show 20+8+udpPayload.length = 20+udp.length by omega]
  have hpass := unfragmented_built identification 17 srcIp dstIp suffix (show 8 ≤ udp.length by omega)
    (by omega)
  have hread := builtHeader (20+udp.length) identification 17 srcIp dstIp (udp++suffix)
  have hheader := length_ipv4Header (20+udp.length) identification 17 srcIp dstIp
  generalize ipv4Header (20+udp.length) identification 17 srcIp dstIp = header at *
  generalize hwire : header++(udp++suffix) = wire at hpass hread
  rw [← hudp] at hwire
  simp only [List.append_assoc] at hwire
  have hsrcPort : be16 wire 20 = srcPort := be16_field header hwire.symm hheader hsrc
  have hdstPort : be16 wire (20+2) = dstPort :=
    be16_field (header++be16Bytes srcPort) (by rw [← hwire,List.append_assoc])
      (by rw [List.length_append,hheader,length_be16Bytes]) hdst
  have hudpLen : be16 wire (20+4) = 8+udpPayload.length :=
    be16_field (header++be16Bytes srcPort++be16Bytes dstPort)
      (by rw [← hwire,List.append_assoc,List.append_assoc])
      (by simp only [List.length_append,hheader,length_be16Bytes]) (by omega)
  have hpayload : (wire.take (20+(8+udpPayload.length))).drop (20+8) = udpPayload := by
    have hfront : (header++be16Bytes srcPort++be16Bytes dstPort++
        be16Bytes (8+udpPayload.length)++be16Bytes ck).length = 20+8 := by
      simp only [List.length_append,hheader,length_be16Bytes]
    rw [List.drop_take,← hwire,← List.append_assoc,← List.append_assoc,← List.append_assoc,
      ← List.append_assoc,List.drop_left' hfront]
    exact List.take_left' (by omega)
  unfold Ipv4.parseIpv4UdpPacket
  rw [hpass,Option.bind_some]
  simp only [hudpLen]
  rw [if_neg (by omega),hread.source,hread.destination,hsrcPort,hdstPort,hpayload,
    hread.identification,Nat.mod_eq_of_lt hid]

/-- An accepted packet is whole and carries what was returned between its own lengths. -/
structure UdpAccepted (packet : List UInt8) (parsed : Ipv4UdpPacket) : Prop where
  payload : parsed.payload = (packet.take (ihl packet*4+be16 packet (ihl packet*4+4))).drop
    (ihl packet*4+8)
  room : 8 ≤ be16 packet (ihl packet*4+4)
  inside : ihl packet*4+be16 packet (ihl packet*4+4) ≤ be16 packet 2
  total : be16 packet 2 ≤ packet.length
  last : be16 packet 6/0x2000%2 = 0
  first : be16 packet 6%0x2000 = 0

theorem parseIpv4UdpPacket_accepted {packet : List UInt8} {parsed : Ipv4UdpPacket}
    (h : IngestPanics.parseIpv4UdpPacket packet = some (some parsed)) :
    UdpAccepted packet parsed ∧ parsed.payload.length ≤ 65507 ∧ parsed.srcPort < 65536 ∧
      parsed.dstPort < 65536 ∧ parsed.identification < 65536 := by
  rw [IngestPanics.parseIpv4UdpPacket_eq,Option.some.injEq,Ipv4.parseIpv4UdpPacket,
    Option.bind_eq_some_iff] at h
  obtain ⟨⟨hlen,total⟩,hpass,hparsed⟩ := h
  obtain ⟨-,hihl,-,hfragment,rfl,rfl,hroom,hle⟩ := unfragmented_eq_some.mp hpass
  simp only at hparsed
  split at hparsed
  · cases hparsed
  next hudp =>
  push Not at hudp
  cases hparsed
  have htotal := be16_le packet 2
  have hword : ∀ i, be16 packet i < 65536 := by
    intro i
    have := be16_le packet i
    omega
  refine ⟨⟨rfl,hudp.1,hudp.2,hle,by omega,by omega⟩,?_,hword _,hword _,hword _⟩
  simp only [List.length_drop,List.length_take]
  omega

/-- What was parsed can be built again. -/
theorem parse_rebuilt {packet : List UInt8} {parsed : Ipv4UdpPacket}
    (h : IngestPanics.parseIpv4UdpPacket packet = some (some parsed)) :
    ∃ out, Checksums.buildIpv4UdpPacket parsed.srcIp parsed.dstIp parsed.srcPort parsed.dstPort
        parsed.identification parsed.payload = some (some out) ∧
      IngestPanics.parseIpv4UdpPacket out = some (some parsed) := by
  obtain ⟨-,hpayload,hsrc,hdst,hid⟩ := parseIpv4UdpPacket_accepted h
  obtain ⟨out,hout⟩ : ∃ out, Checksums.buildIpv4UdpPacket parsed.srcIp parsed.dstIp parsed.srcPort
      parsed.dstPort parsed.identification parsed.payload = some (some out) :=
    ⟨_,buildIpv4UdpPacket_eq_some.mpr ⟨hpayload,_,rfl,rfl⟩⟩
  have hparse := parse_buildIpv4UdpPacket hsrc hdst hid hout []
  rw [List.append_nil] at hparse
  exact ⟨out,hout,hparse⟩

end Udp

section Icmp

structure IcmpAccepted (packet : List UInt8) (parsed : Ipv4IcmpEchoPacket) : Prop where
  segment : parsed.icmpSegment = (packet.take (be16 packet 2)).drop (ihl packet*4)
  room : ihl packet*4+8 ≤ be16 packet 2
  total : be16 packet 2 ≤ packet.length
  last : be16 packet 6/0x2000%2 = 0
  first : be16 packet 6%0x2000 = 0

theorem parseIpv4IcmpEchoPacket_accepted {packet : List UInt8} {parsed : Ipv4IcmpEchoPacket}
    (h : IngestPanics.parseIpv4IcmpEchoPacket packet = some (some parsed)) :
    IcmpAccepted packet parsed := by
  rw [IngestPanics.parseIpv4IcmpEchoPacket_eq,Option.some.injEq,Ipv4.parseIpv4IcmpEchoPacket,
    Option.bind_eq_some_iff] at h
  obtain ⟨⟨hlen,total⟩,hpass,hparsed⟩ := h
  obtain ⟨-,-,-,hfragment,rfl,rfl,hroom,hle⟩ := unfragmented_eq_some.mp hpass
  simp only at hparsed
  split at hparsed
  · cases hparsed
  · cases hparsed
    exact ⟨rfl,hroom,hle,by omega,by omega⟩

/-- An echo request parses back with its checksum replaced. -/
theorem parse_buildIpv4IcmpPacket (srcIp dstIp : Ipv4Addr) {identification : ℕ}
    {icmpSegment : List UInt8} (hid : identification < 65536) (hlow : 8 ≤ icmpSegment.length)
    (hhigh : icmpSegment.length ≤ 65515) (hkind : byteAt icmpSegment 0 = 8)
    (hcode : byteAt icmpSegment 1 = 0) :
    ∃ out ck, Checksums.buildIpv4IcmpPacket srcIp dstIp identification icmpSegment =
        some (some out) ∧
      ∀ suffix, IngestPanics.parseIpv4IcmpEchoPacket (out++suffix) =
        some (some ⟨srcIp,dstIp,identification,be16 icmpSegment 4,be16 icmpSegment 6,
          putAt icmpSegment 2 (be16Bytes ck)⟩) := by
  let ck := Ipv4.onesComplementSum (putAt icmpSegment 2 [0,0])
  have hput : (putAt icmpSegment 2 (be16Bytes ck)).length = icmpSegment.length :=
    length_putAt (by rw [length_be16Bytes]; omega)
  have hbyte : ∀ j, ¬ (2 ≤ j ∧ j < 4) →
      byteAt (putAt icmpSegment 2 (be16Bytes ck)) j = byteAt icmpSegment j := by
    intro j hj
    rw [byteAt_putAt (by rw [length_be16Bytes]; omega),length_be16Bytes,if_neg hj]
  refine ⟨ipv4Header (20+icmpSegment.length) identification 1 srcIp dstIp++
    putAt icmpSegment 2 (be16Bytes ck),ck,?_,?_⟩
  · rw [buildIpv4IcmpPacket_eq,Ipv4.buildIpv4IcmpPacket]
    simp only
    rw [if_neg (by omega),putAt_cleared (show 2+2 ≤ icmpSegment.length by omega)]
  intro suffix
  generalize putAt icmpSegment 2 (be16Bytes ck) = segment at hput hbyte ⊢
  rw [IngestPanics.parseIpv4IcmpEchoPacket_eq,List.append_assoc,← hput]
  have hpass := unfragmented_built identification 1 srcIp dstIp suffix
    (show 8 ≤ segment.length by omega) (by omega)
  have hread := builtHeader (20+segment.length) identification 1 srcIp dstIp (segment++suffix)
  have hheader := length_ipv4Header (20+segment.length) identification 1 srcIp dstIp
  generalize ipv4Header (20+segment.length) identification 1 srcIp dstIp = header at *
  have hat : ∀ j, ¬ (2 ≤ j ∧ j < 4) → j < 8 →
      byteAt (header++(segment++suffix)) (20+j) = byteAt icmpSegment j := by
    intro j hj hlt
    rw [← hheader,byteAt_append,← hbyte j hj]
    simp only [byteAt,List.getD_eq_getElem?_getD]
    rw [List.getElem?_append_left (by omega)]
  have hfirst := hat 0 (by omega) (by omega)
  have hidentifier : be16 (header++(segment++suffix)) 24 = be16 icmpSegment 4 := by
    rw [be16,hat 4 (by omega) (by omega),hat 5 (by omega) (by omega),be16]
  have hsequence : be16 (header++(segment++suffix)) 26 = be16 icmpSegment 6 := by
    rw [be16,hat 6 (by omega) (by omega),hat 7 (by omega) (by omega),be16]
  have hsegment : ((header++(segment++suffix)).take (20+segment.length)).drop 20 = segment := by
    rw [List.drop_take,List.drop_left' hheader]
    exact List.take_left' (by omega)
  unfold Ipv4.parseIpv4IcmpEchoPacket
  rw [hpass,Option.bind_some]
  simp only [hfirst,hat 1 (by omega) (by omega),hkind,hcode]
  rw [if_neg (by decide),hread.source,hread.destination,hread.identification,
    Nat.mod_eq_of_lt hid,hsegment,hidentifier,hsequence]

end Icmp

section Main

/-- Both codecs, for all addresses, ports, identifications and payloads. -/
theorem packet_codecs :
    (∀ srcIp dstIp (srcPort dstPort identification : UInt16) udpPayload,
      ((∃ out, Checksums.buildIpv4UdpPacket srcIp dstIp srcPort.toNat dstPort.toNat
          identification.toNat udpPayload = some (some out)) ↔ udpPayload.length ≤ 65507) ∧
      ∀ out, Checksums.buildIpv4UdpPacket srcIp dstIp srcPort.toNat dstPort.toNat
          identification.toNat udpPayload = some (some out) →
        ∀ suffix, IngestPanics.parseIpv4UdpPacket (out++suffix) =
          some (some ⟨srcIp,dstIp,srcPort.toNat,dstPort.toNat,udpPayload,identification.toNat⟩)) ∧
    (∀ packet parsed, IngestPanics.parseIpv4UdpPacket packet = some (some parsed) →
      UdpAccepted packet parsed ∧
      ∃ out, Checksums.buildIpv4UdpPacket parsed.srcIp parsed.dstIp parsed.srcPort parsed.dstPort
          parsed.identification parsed.payload = some (some out) ∧
        IngestPanics.parseIpv4UdpPacket out = some (some parsed)) ∧
    (∀ packet parsed, IngestPanics.parseIpv4IcmpEchoPacket packet = some (some parsed) →
      IcmpAccepted packet parsed) ∧
    ∀ srcIp dstIp (identification : UInt16) icmpSegment, 8 ≤ icmpSegment.length →
      icmpSegment.length ≤ 65515 → byteAt icmpSegment 0 = 8 → byteAt icmpSegment 1 = 0 →
      ∃ out ck, Checksums.buildIpv4IcmpPacket srcIp dstIp identification.toNat icmpSegment =
          some (some out) ∧
        ∀ suffix, IngestPanics.parseIpv4IcmpEchoPacket (out++suffix) =
          some (some ⟨srcIp,dstIp,identification.toNat,be16 icmpSegment 4,be16 icmpSegment 6,
            putAt icmpSegment 2 (be16Bytes ck)⟩) := by
  refine ⟨?_,?_,?_,?_⟩
  · intro srcIp dstIp srcPort dstPort identification udpPayload
    refine ⟨⟨?_,?_⟩,?_⟩
    · rintro ⟨out,hout⟩
      exact (buildIpv4UdpPacket_eq_some.mp hout).1
    · intro hle
      exact ⟨_,buildIpv4UdpPacket_eq_some.mpr ⟨hle,_,rfl,rfl⟩⟩
    · intro out hout
      exact parse_buildIpv4UdpPacket srcPort.toNat_lt dstPort.toNat_lt identification.toNat_lt hout
  · intro packet parsed h
    exact ⟨(parseIpv4UdpPacket_accepted h).1,parse_rebuilt h⟩
  · intro packet parsed h
    exact parseIpv4IcmpEchoPacket_accepted h
  · intro srcIp dstIp identification icmpSegment hlow hhigh hkind hcode
    exact parse_buildIpv4IcmpPacket srcIp dstIp identification.toNat_lt hlow hhigh hkind hcode

/-- A packet with options in its header, a datagram shorter than the packet and bytes behind. -/
def optionsPacket : List UInt8 :=
  [0x46,0,0,36,0,7,0x40,0,64,17,0,0,10,8,0,2,1,1,1,1,7,4,0,0,0x9c,0x40,0,53,0,10,0,0,65,66,67,68,69]

theorem packet_codecs_options :
    UdpAccepted optionsPacket ⟨⟨10,8,0,2⟩,⟨1,1,1,1⟩,40000,53,[65,66],7⟩ :=
  (packet_codecs.2.1 optionsPacket _ (by decide)).1

end Main

end Bonded.PacketCodec
