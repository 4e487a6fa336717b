import Bonded.IngestPanics
import Bonded.OnesComplement

/-! The checksums of the packets that the forwarder rewrites or builds, with every index, slice
and sum checked; `none` is a panic. A checksum verifies if the one's-complement sum of what it
covers, itself included, is `0xffff`. -/
namespace Bonded.Checksums

open Checked Ipv4 OnesComplement Packet

section Code

def tcpUdpChecksumIpv4 (src dst : Ipv4Addr) (proto : UInt8) (segment : List UInt8) : Option ℕ := do
  let pseudo := octets src++octets dst++[0,proto]++be16Bytes segment.length++segment++
    (if segment.length%2 = 1 then [0] else [])
  let ck ← IngestPanics.onesComplementSum pseudo
  return if ck = 0 then 0xffff else ck

/-- Replace the checksum at an offset of a segment. -/
def fixChecksum (src dst : Ipv4Addr) (proto : UInt8) (i : ℕ) (transport : List UInt8) :
    Option (List UInt8) := do
  let transport ← copyFromSlice transport i (i+2) [0,0]
  let cksum ← tcpUdpChecksumIpv4 src dst proto transport
  copyFromSlice transport i (i+2) (be16Bytes cksum)

/-- The transport checksum of a packet whose addresses have changed; the segment is a part of
the packet and is changed in place. -/
def fixTransport (pkt : List UInt8) (ihl : ℕ) : Option (List UInt8) := do
  let protocol ← index pkt 9
  let srcIp ← IngestPanics.ipv4Addr pkt 12
  let dstIp ← IngestPanics.ipv4Addr pkt 16
  let totalLen ← IngestPanics.word pkt 2
  if pkt.length < totalLen ∨ totalLen < ihl then return pkt
  let transport ← slice pkt ihl totalLen
  if protocol = 6 ∧ 20 ≤ transport.length then
    copyFromSlice pkt ihl totalLen (← fixChecksum srcIp dstIp 6 16 transport)
  else if protocol = 17 ∧ 8 ≤ transport.length then
    copyFromSlice pkt ihl totalLen (← fixChecksum srcIp dstIp 17 6 transport)
  else return pkt

def rewriteSrcIpOutbound (pkt : List UInt8) (originalSrc : Ipv4Addr) : Option (List UInt8) :=
  if pkt.length < 20 then some pkt
  else do
    let ihl := (← index pkt 0).toNat%16*4
    let pkt ← copyFromSlice pkt 12 16 (octets originalSrc)
    let pkt ← copyFromSlice pkt 10 12 [0,0]
    let cksum ← IngestPanics.ipv4Checksum (← slice pkt 0 ihl)
    let pkt ← copyFromSlice pkt 10 12 (be16Bytes cksum)
    fixTransport pkt ihl

/-- Fields that are copied into a packet, each to its offset. -/
def writeAll (pkt : List UInt8) (fields : List (ℕ × List UInt8)) : Option (List UInt8) :=
  fields.foldlM (fun pkt field => copyFromSlice pkt field.1 (field.1+field.2.length) field.2) pkt

/-- The header fields that both builders write. -/
def headerFields (totalLen identification : ℕ) (proto : UInt8) (srcIp dstIp : Ipv4Addr) :
    List (ℕ × List UInt8) :=
  [(0,[0x45]),(2,be16Bytes totalLen),(4,be16Bytes identification),(6,be16Bytes 0x4000),(8,[64]),
    (9,[proto]),(12,octets srcIp),(16,octets dstIp)]

/-- An inner `none` is the error for a payload that is too long. -/
def buildIpv4UdpPacket (srcIp dstIp : Ipv4Addr) (srcPort dstPort identification : ℕ)
    (udpPayload : List UInt8) : Option (Option (List UInt8)) :=
  let totalLen := 20+8+udpPayload.length
  if 65535 < totalLen then some none
  else do
    let pkt ← writeAll (List.replicate totalLen 0)
      (headerFields totalLen identification 17 srcIp dstIp++
        [(20,be16Bytes srcPort),(22,be16Bytes dstPort),(24,be16Bytes (8+udpPayload.length))])
    let pkt ← copyFromSlice pkt 28 totalLen udpPayload
    let ipCksum ← IngestPanics.ipv4Checksum (← slice pkt 0 20)
    let pkt ← copyFromSlice pkt 10 12 (be16Bytes ipCksum)
    let udpCksum ← tcpUdpChecksumIpv4 srcIp dstIp 17 (← slice pkt 20 totalLen)
    return some (← copyFromSlice pkt 26 28 (be16Bytes udpCksum))

def buildIpv4IcmpPacket (srcIp dstIp : Ipv4Addr) (identification : ℕ) (icmpSegment : List UInt8) :
    Option (Option (List UInt8)) :=
  let totalLen := 20+icmpSegment.length
  if icmpSegment.length < 8 ∨ 65535 < totalLen then some none
  else do
    let pkt ← writeAll (List.replicate totalLen 0)
      (headerFields totalLen identification 1 srcIp dstIp)
    let pkt ← copyFromSlice pkt 20 totalLen icmpSegment
    let pkt ← copyFromSlice pkt 22 24 [0,0]
    let ck ← IngestPanics.onesComplementSum (← slice pkt 20 totalLen)
    let pkt ← copyFromSlice pkt 22 24 (be16Bytes ck)
    let ipCksum ← IngestPanics.ipv4Checksum (← slice pkt 0 20)
    return some (← copyFromSlice pkt 10 12 (be16Bytes ipCksum))

end Code

section Sums

theorem wordSum_eq_words (bytes : List UInt8) : wordSum bytes = (words bytes).sum := by
  fun_induction wordSum bytes with
  | case1 => rfl
  | case2 x => simp [words]
  | case3 x y rest ih => rw [words,List.sum_cons,ih]

theorem wordSum_append {front : List UInt8} (h : front.length%2 = 0) (rest : List UInt8) :
    wordSum (front++rest) = wordSum front+wordSum rest := by
  fun_induction wordSum front with
  | case1 => simp
  | case2 x => simp at h
  | case3 x y front ih =>
    simp only [List.length_cons] at h
    rw [List.cons_append,List.cons_append,wordSum,ih (by omega)]
    omega

theorem wordSum_padded (bytes : List UInt8) :
    wordSum (bytes++if bytes.length%2 = 1 then [0] else []) = wordSum bytes := by
  fun_induction wordSum bytes with
  | case1 => rfl
  | case2 x => simp [wordSum]
  | case3 x y rest ih =>
    have hparity : (x::y::rest).length%2 = rest.length%2 := by
      simp only [List.length_cons]
      omega
    rw [hparity,List.cons_append,List.cons_append,wordSum,ih]

variable {n i : ℕ} {bytes : List UInt8}

theorem wordSum_be16Bytes (h : n < 65536) : wordSum (be16Bytes n) = n := by
  simp only [be16Bytes,wordSum,UInt8.toNat_ofNat']
  omega

theorem foldCarries_of_lt (n : ℕ) {sum : ℕ} (h : sum < 65536) : foldCarries n sum = sum := by
  cases n with
  | zero => rfl
  | succ n => rw [foldCarries,if_pos (by omega)]

theorem reduce_foldCarries (n sum : ℕ) : reduce (foldCarries n sum) = reduce sum := by
  induction n generalizing sum with
  | zero => rfl
  | succ n ih =>
    unfold foldCarries
    split
    · rfl
    · rw [ih,reduce_carry]

theorem foldCarries_eq_reduce {sum : ℕ} (hn : 3 ≤ n) (h : sum < 2^32) :
    foldCarries n sum = reduce sum := by
  obtain ⟨k,rfl⟩ := Nat.exists_eq_add_of_le' hn
  have hsmall : foldCarries (k+3) sum < 65536 := by
    unfold foldCarries
    split
    · omega
    unfold foldCarries
    split
    · omega
    rw [foldCarries_of_lt _ (by omega)]
    omega
  rw [← reduce_foldCarries (k+3) sum,reduce_of_lt hsmall]

theorem wordSum_lt (h : bytes.length ≤ 131070) : wordSum bytes < 2^32 := by
  have hle := IngestPanics.wordSum_le bytes
  omega

theorem onesComplementSum_eq_sub (h : bytes.length ≤ 131070) :
    onesComplementSum bytes = 65535-reduce (wordSum bytes) := by
  have hle := reduce_le (wordSum bytes)
  rw [onesComplementSum,foldCarries_eq_reduce (Nat.le_refl 3) (wordSum_lt h),
    Nat.mod_eq_of_lt (by omega)]

theorem putAt_cleared (hi : i+2 ≤ bytes.length) (n : ℕ) :
    putAt (putAt bytes i [0,0]) i (be16Bytes n) = putAt bytes i (be16Bytes n) := by
  have hfront : (bytes.take i).length = i := by
    rw [List.length_take]
    omega
  have hold : (bytes.take i++[0,0]).length = i+2 := by
    rw [List.length_append,hfront]
    rfl
  have htake : (putAt bytes i [0,0]).take i = bytes.take i := by
    rw [putAt,List.append_assoc,List.take_append_of_le_length (by omega),List.take_take,
      Nat.min_self]
  have hdrop : (putAt bytes i [0,0]).drop (i+2) = bytes.drop (i+2) := by
    rw [putAt,← hold,List.drop_left,hold]
    rfl
  rw [putAt,length_be16Bytes,htake,hdrop,putAt,length_be16Bytes]

theorem wordSum_putAt (heven : i%2 = 0) (hi : i+2 ≤ bytes.length) (hn : n < 65536) :
    wordSum (putAt (putAt bytes i [0,0]) i (be16Bytes n)) = wordSum (putAt bytes i [0,0])+n := by
  have hfront : (bytes.take i).length = i := by
    rw [List.length_take]
    omega
  have hput : ∀ two : List UInt8, two.length = 2 →
      wordSum (putAt bytes i two) =
        wordSum (bytes.take i)+wordSum two+wordSum (bytes.drop (i+2)) := by
    intro two htwo
    rw [putAt,htwo,List.append_assoc,wordSum_append (by rw [hfront]; exact heven),
      wordSum_append (by rw [htwo]),Nat.add_assoc]
  rw [putAt_cleared hi,hput _ (length_be16Bytes n),hput _ rfl,wordSum_be16Bytes hn]
  simp only [wordSum,UInt8.toNat_zero]
  omega

theorem sum_checksum (heven : i%2 = 0) (hi : i+2 ≤ bytes.length) (hlen : bytes.length ≤ 131070)
    (hn : n = onesComplementSum (putAt bytes i [0,0])) :
    sum (putAt (putAt bytes i [0,0]) i (be16Bytes n)) = 0xffff := by
  have hclear : (putAt bytes i [0,0]).length = bytes.length := length_putAt hi
  rw [onesComplementSum_eq_sub (by omega)] at hn
  rw [sum_eq_reduce,← wordSum_eq_words,wordSum_putAt heven hi (by omega),hn]
  exact reduce_complement _

end Sums

section Slices

theorem putAt_middle (front : List UInt8) {mid : List UInt8} (back : List UInt8)
    {bytes : List UInt8} {i : ℕ} (h : i+bytes.length ≤ mid.length) :
    putAt (front++mid++back) (front.length+i) bytes = front++putAt mid i bytes++back := by
  simp only [putAt,List.append_assoc,Nat.add_assoc,List.take_length_add_append,
    List.drop_length_add_append]
  rw [List.take_append_of_le_length (by omega),List.drop_append_of_le_length (by omega)]

theorem packet_parts {pkt : List UInt8} {hlen total : ℕ} (h : hlen ≤ total) :
    pkt.take hlen++(pkt.take total).drop hlen++pkt.drop total = pkt := by
  have hheader : pkt.take hlen = (pkt.take total).take hlen := by
    rw [List.take_take,Nat.min_eq_left h]
  rw [hheader,List.take_append_drop,List.take_append_drop]

variable {pkt bytes : List UInt8} {hlen total i : ℕ}

theorem putAt_parts (hi : hlen+i+bytes.length ≤ total) (ht : total ≤ pkt.length) :
    putAt pkt (hlen+i) bytes =
      pkt.take hlen++putAt ((pkt.take total).drop hlen) i bytes++pkt.drop total := by
  have hfront : (pkt.take hlen).length = hlen := by
    rw [List.length_take]
    omega
  have hmid : ((pkt.take total).drop hlen).length = total-hlen := by
    rw [List.length_drop,List.length_take]
    omega
  have hput := putAt_middle (pkt.take hlen) (pkt.drop total)
    (show i+bytes.length ≤ ((pkt.take total).drop hlen).length by omega)
  rwa [packet_parts (by omega),hfront] at hput

theorem putAt_segment (hi : hlen+i+bytes.length ≤ total) (ht : total ≤ pkt.length) :
    putAt pkt hlen (putAt ((pkt.take total).drop hlen) i bytes) = putAt pkt (hlen+i) bytes := by
  have hmid : ((pkt.take total).drop hlen).length = total-hlen := by
    rw [List.length_drop,List.length_take]
    omega
  have hlength : (putAt ((pkt.take total).drop hlen) i bytes).length = total-hlen := by
    rw [length_putAt (by omega),hmid]
  rw [putAt_parts hi ht,putAt,hlength,show hlen+(total-hlen) = total by omega]

theorem segment_putAt (hi : hlen+i+bytes.length ≤ total) (ht : total ≤ pkt.length) :
    ((putAt pkt (hlen+i) bytes).take total).drop hlen =
      putAt ((pkt.take total).drop hlen) i bytes := by
  have hfront : (pkt.take hlen).length = hlen := by
    rw [List.length_take]
    omega
  have hmid : (putAt ((pkt.take total).drop hlen) i bytes).length = total-hlen := by
    rw [length_putAt (by rw [List.length_drop,List.length_take]; omega),List.length_drop,
      List.length_take]
    omega
  rw [putAt_parts hi ht,List.take_append_of_le_length (by simp only [List.length_append]; omega),
    List.take_of_length_le (by simp only [List.length_append]; omega),
    List.drop_append_of_le_length (by omega),List.drop_of_length_le (by omega),List.nil_append]

end Slices

section Safe

theorem tcpUdpChecksumIpv4_eq (src dst : Ipv4Addr) (proto : UInt8) {segment : List UInt8}
    (h : segment.length ≤ 65535) :
    tcpUdpChecksumIpv4 src dst proto segment =
      some (Ipv4.tcpUdpChecksumIpv4 src dst proto segment) := by
  have hpad : (if segment.length%2 = 1 then [(0 : UInt8)] else []).length ≤ 1 := by
    split <;> simp
  simp only [tcpUdpChecksumIpv4]
  rw [IngestPanics.onesComplementSum_eq (by
    simp only [List.length_append,octets,be16Bytes,List.length_cons,List.length_nil]
    omega)]
  rfl

theorem fixChecksum_eq (src dst : Ipv4Addr) (proto : UInt8) {i : ℕ} {transport : List UInt8}
    (hi : i+2 ≤ transport.length) (h : transport.length ≤ 65535) :
    fixChecksum src dst proto i transport = some (putAt (putAt transport i [0,0]) i (be16Bytes
      (Ipv4.tcpUdpChecksumIpv4 src dst proto (putAt transport i [0,0])))) := by
  have hclear : (putAt transport i [0,0]).length = transport.length := length_putAt hi
  unfold fixChecksum
  rw [IngestPanics.copyFromSlice_eq i (i+2) rfl hi]
  simp only [Option.bind_eq_bind,Option.bind_some]
  rw [tcpUdpChecksumIpv4_eq src dst proto (by omega),Option.bind_some,
    IngestPanics.copyFromSlice_eq i (i+2) rfl (by omega)]

theorem be16_le (bytes : List UInt8) (i : ℕ) : be16 bytes i ≤ 65535 := by
  have hhigh := (byteAt bytes i).toNat_lt
  have hlow := (byteAt bytes (i+1)).toNat_lt
  simp only [be16]
  omega

theorem fixTransport_eq {pkt : List UInt8} (hlong : 20 ≤ pkt.length) (hlen : ℕ) :
    fixTransport pkt hlen = some (Ipv4.fixTransport pkt hlen) := by
  unfold fixTransport
  rw [IngestPanics.index_eq (by omega),IngestPanics.ipv4Addr_eq (by omega),
    IngestPanics.ipv4Addr_eq (by omega),IngestPanics.word_eq (by omega)]
  simp only [Option.bind_eq_bind,Option.bind_some,Ipv4.fixTransport]
  have htotal := be16_le pkt 2
  generalize be16 pkt 2 = total at htotal ⊢
  by_cases hfit : pkt.length < total ∨ total < hlen
  · rw [if_pos hfit,if_pos hfit]
    rfl
  have hmid : ((pkt.take total).drop hlen).length = total-hlen := by
    rw [List.length_drop,List.length_take]
    omega
  rw [if_neg hfit,if_neg hfit,slice_of_le (by omega) (by omega),Option.bind_some,hmid]
  -- the code for one protocol, with its checksum at offset `i` of the segment
  have hfix : ∀ (proto : UInt8) (i : ℕ), i+2 ≤ total-hlen →
      ((fixChecksum (ipAt pkt 12) (ipAt pkt 16) proto i ((pkt.take total).drop hlen)).bind
        fun transport => copyFromSlice pkt hlen total transport) =
      some (putAt (putAt pkt (hlen+i) [0,0]) (hlen+i) (be16Bytes (Ipv4.tcpUdpChecksumIpv4
        (ipAt pkt 12) (ipAt pkt 16) proto
        (((putAt pkt (hlen+i) [0,0]).take total).drop hlen)))) := by
    intro proto i hi
    have hfits : hlen+i+2 ≤ total := by omega
    rw [fixChecksum_eq _ _ _ (by omega) (by omega),Option.bind_some,
      segment_putAt hfits (by omega),putAt_cleared (show i+2 ≤ _ by omega),
      putAt_cleared (show hlen+i+2 ≤ _ by omega),IngestPanics.copyFromSlice_eq hlen total
        (by rw [length_putAt (by rw [length_be16Bytes]; omega)]; omega) (by omega),
      putAt_segment hfits (by omega)]
  split
  · exact hfix 6 16 (by omega)
  · split
    · exact hfix 17 6 (by omega)
    · rfl

/-- Nothing overflows in the rewrite, and it panics for a header length beyond the packet's
end only. -/
theorem rewriteSrcIpOutbound_eq (pkt : List UInt8) (src : Ipv4Addr) :
    rewriteSrcIpOutbound pkt src = Ipv4.rewriteSrcIpOutbound pkt src := by
  unfold rewriteSrcIpOutbound Ipv4.rewriteSrcIpOutbound
  by_cases hshort : pkt.length < 20
  · rw [if_pos hshort,if_pos hshort]
  rw [if_neg hshort,if_neg hshort]
  have hsrc : 12+(octets src).length ≤ pkt.length := by simp [octets]; omega
  have hlength := length_putAt hsrc
  have hzero : 10+[(0 : UInt8),0].length ≤ (putAt pkt 12 (octets src)).length := by
    rw [hlength]; simp; omega
  have hlength' := length_putAt hzero
  rw [IngestPanics.index_eq (by omega)]
  simp only [Option.bind_eq_bind,Option.bind_some]
  rw [IngestPanics.copyFromSlice_eq 12 16 rfl (by omega),Option.bind_some,
    IngestPanics.copyFromSlice_eq 10 12 rfl (by omega),Option.bind_some]
  change (slice _ 0 (ihl pkt*4)).bind _ = _
  by_cases hpanic : pkt.length < ihl pkt*4
  · rw [if_pos hpanic,slice_of_lt (by omega)]
    rfl
  have hsmall : ihl pkt < 16 := Nat.mod_lt _ (by decide)
  have hchecked : ∀ n,
      (putAt (putAt (putAt pkt 12 (octets src)) 10 [0,0]) 10 (be16Bytes n)).length =
        pkt.length := by
    intro n
    rw [length_putAt (by rw [length_be16Bytes]; omega)]
    omega
  rw [if_neg hpanic,slice_of_le (Nat.zero_le _) (by omega),List.drop_zero,Option.bind_some,
    IngestPanics.ipv4Checksum,
    IngestPanics.onesComplementSum_eq (by rw [List.length_take]; omega),Option.bind_some,
    IngestPanics.copyFromSlice_eq 10 12 rfl (by omega),Option.bind_some]
  exact fixTransport_eq (by rw [hchecked]; omega) (ihl pkt*4)

end Safe

section Builders

variable {front rest : List UInt8}

theorem copyFromSlice_front (a b : ℕ) {new : List UInt8} (h : a+new.length = b)
    (hb : b ≤ front.length) :
    copyFromSlice (front++rest) a b new = some (putAt front a new++rest) := by
  have hput := putAt_middle [] rest (show a+new.length ≤ front.length by omega)
  rw [IngestPanics.copyFromSlice_eq a b h (by rw [List.length_append]; omega)]
  simpa using hput

theorem copyFromSlice_rest (a b i : ℕ) {new : List UInt8} (ha : a = front.length+i)
    (hb : a+new.length = b) (hlen : i+new.length ≤ rest.length) :
    copyFromSlice (front++rest) a b new = some (front++putAt rest i new) := by
  have hput := putAt_middle front [] hlen
  rw [IngestPanics.copyFromSlice_eq a b hb (by rw [List.length_append]; omega),ha]
  simpa using hput

theorem copyFromSlice_all {a b : ℕ} {new : List UInt8} (ha : a = front.length)
    (hb : a+new.length = b) (hlen : rest.length = new.length) :
    copyFromSlice (front++rest) a b new = some (front++new) := by
  have hput : putAt rest 0 new = new := by simp [putAt,← hlen]
  rw [copyFromSlice_rest a b 0 ha hb (by omega),hput]

theorem slice_front {n : ℕ} (h : n = front.length) : slice (front++rest) 0 n = some front := by
  rw [slice_of_le (Nat.zero_le _) (by simp [h]),h,List.take_left,List.drop_zero]

theorem slice_rest {m n : ℕ} (hm : m = front.length) (hn : n = front.length+rest.length) :
    slice (front++rest) m n = some rest := by
  rw [slice_of_le (by omega) (by simp [hn]),List.take_of_length_le (by simp [hn]),hm,List.drop_left]

theorem writeAll_front (fields : List (ℕ × List UInt8))
    (h : ∀ field ∈ fields, field.1+field.2.length ≤ front.length) :
    writeAll (front++rest) fields =
      some (fields.foldl (fun pkt field => putAt pkt field.1 field.2) front++rest) := by
  induction fields generalizing front with
  | nil => rfl
  | cons field fields ih =>
    obtain ⟨hfield,hfields⟩ := List.forall_mem_cons.mp h
    rw [writeAll,List.foldlM_cons,copyFromSlice_front _ _ rfl hfield]
    exact ih (by rw [length_putAt hfield]; exact hfields)

/-- The 20 header bytes while the checksum is clear. -/
def clearHeader (total identification : ℕ) (proto : UInt8) (src dst : Ipv4Addr) : List UInt8 :=
  [0x45,0]++be16Bytes total++be16Bytes identification++[0x40,0,64,proto,0,0]++octets src++octets dst

theorem writeAll_headerFields (total identification : ℕ) (proto : UInt8) (src dst : Ipv4Addr) :
    writeAll (List.replicate 20 0++rest) (headerFields total identification proto src dst) =
      some (clearHeader total identification proto src dst++rest) := by
  rw [writeAll_front _ (by simp [headerFields,octets,be16Bytes])]
  simp [headerFields,clearHeader,putAt,octets,be16Bytes,List.replicate]

theorem length_clearHeader (total identification : ℕ) (proto : UInt8) (src dst : Ipv4Addr) :
    (clearHeader total identification proto src dst).length = 20 := rfl

/-- The UDP header while the checksum is clear. -/
def clearUdp (srcPort dstPort len : ℕ) : List UInt8 :=
  be16Bytes srcPort++be16Bytes dstPort++be16Bytes len++[0,0]

theorem writeAll_udpFields (total identification srcPort dstPort len : ℕ) (src dst : Ipv4Addr) :
    writeAll (List.replicate 28 0++rest) (headerFields total identification 17 src dst++
        [(20,be16Bytes srcPort),(22,be16Bytes dstPort),(24,be16Bytes len)]) =
      some (clearHeader total identification 17 src dst++(clearUdp srcPort dstPort len++rest)) := by
  rw [writeAll_front _ (by simp [headerFields,octets,be16Bytes])]
  simp [headerFields,clearHeader,clearUdp,putAt,octets,be16Bytes,List.replicate]

/-- Nothing overflows in building a packet, and the build does not panic. -/
theorem buildIpv4UdpPacket_eq (srcIp dstIp : Ipv4Addr) (srcPort dstPort identification : ℕ)
    (udpPayload : List UInt8) :
    buildIpv4UdpPacket srcIp dstIp srcPort dstPort identification udpPayload =
      some (Ipv4.buildIpv4UdpPacket srcIp dstIp srcPort dstPort identification udpPayload) := by
  simp only [buildIpv4UdpPacket,Ipv4.buildIpv4UdpPacket]
  by_cases hlong : 65535 < 20+8+udpPayload.length
  · rw [if_pos hlong,if_pos hlong]
  rw [if_neg hlong,if_neg hlong]
  have hudp : (clearUdp srcPort dstPort (8+udpPayload.length)).length = 8 := rfl
  have hzeros : List.replicate (20+8+udpPayload.length) (0 : UInt8) =
      List.replicate 28 0++List.replicate udpPayload.length 0 := List.replicate_add ..
  rw [hzeros,writeAll_udpFields]
  generalize hheader : clearHeader (20+8+udpPayload.length) identification 17 srcIp dstIp = header
  have hlen : header.length = 20 := by rw [← hheader,length_clearHeader]
  simp only [Option.bind_eq_bind,Option.bind_some]
  rw [← List.append_assoc,copyFromSlice_all (by simp [hlen,hudp]) (by omega) (by simp),
    Option.bind_some,List.append_assoc,slice_front hlen.symm,Option.bind_some,
    IngestPanics.ipv4Checksum,IngestPanics.onesComplementSum_eq (by omega),Option.bind_some,
    copyFromSlice_front 10 12 rfl (by omega),Option.bind_some]
  have hput : (putAt header 10 (be16Bytes (onesComplementSum header))).length = 20 := by
    rw [length_putAt (by rw [length_be16Bytes]; omega),hlen]
  rw [slice_rest hput.symm (by rw [hput,List.length_append]; omega),Option.bind_some,
    tcpUdpChecksumIpv4_eq _ _ _ (by rw [List.length_append]; omega),Option.bind_some,
    copyFromSlice_rest 26 28 6 (by omega) rfl
      (by rw [List.length_append,length_be16Bytes]; omega),Option.bind_some,← hheader]
  rfl

theorem buildIpv4IcmpPacket_eq (srcIp dstIp : Ipv4Addr) (identification : ℕ)
    (icmpSegment : List UInt8) :
    buildIpv4IcmpPacket srcIp dstIp identification icmpSegment =
      some (Ipv4.buildIpv4IcmpPacket srcIp dstIp identification icmpSegment) := by
  simp only [buildIpv4IcmpPacket,Ipv4.buildIpv4IcmpPacket]
  by_cases hbad : icmpSegment.length < 8 ∨ 65535 < 20+icmpSegment.length
  · rw [if_pos hbad,if_pos hbad]
  rw [if_neg hbad,if_neg hbad]
  have hzeros : List.replicate (20+icmpSegment.length) (0 : UInt8) =
      List.replicate 20 0++List.replicate icmpSegment.length 0 := List.replicate_add ..
  rw [hzeros,writeAll_headerFields]
  generalize hheader : clearHeader (20+icmpSegment.length) identification 1 srcIp dstIp = header
  have hlen : header.length = 20 := by rw [← hheader,length_clearHeader]
  have hclear : (putAt icmpSegment 2 [0,0]).length = icmpSegment.length :=
    length_putAt (show 2+2 ≤ _ by omega)
  simp only [Option.bind_eq_bind,Option.bind_some]
  rw [copyFromSlice_all hlen.symm (by omega) (by simp),Option.bind_some,
    copyFromSlice_rest 22 24 2 (by omega) rfl (show 2+2 ≤ _ by omega),Option.bind_some,
    slice_rest hlen.symm (by omega),Option.bind_some,
    IngestPanics.onesComplementSum_eq (by omega),Option.bind_some,
    copyFromSlice_rest 22 24 2 (by omega) rfl (by rw [length_be16Bytes]; omega),Option.bind_some,
    slice_front hlen.symm,Option.bind_some,IngestPanics.ipv4Checksum,
    IngestPanics.onesComplementSum_eq (by omega),Option.bind_some,
    copyFromSlice_front 10 12 rfl (by omega),Option.bind_some,← hheader]
  rfl

end Builders

section Statement

/-- What an IPv4 packet carries, by its own lengths. -/
def segment (pkt : List UInt8) : List UInt8 := (pkt.take (be16 pkt 2)).drop (ihl pkt*4)

def pseudoHeader (src dst : Ipv4Addr) (proto : UInt8) (len : ℕ) : List UInt8 :=
  octets src++octets dst++[0,proto]++be16Bytes len

def headerSum (pkt : List UInt8) : ℕ := sum (pkt.take (ihl pkt*4))

def transportSum (pkt : List UInt8) : ℕ :=
  sum (pseudoHeader (ipAt pkt 12) (ipAt pkt 16) (byteAt pkt 9) (segment pkt).length++segment pkt)

/-- Where the checksum of a TCP or UDP segment stands. -/
def checksumAt (pkt : List UInt8) : Option ℕ :=
  if byteAt pkt 9 = 6 ∧ 20 ≤ (segment pkt).length then some (ihl pkt*4+16)
  else if byteAt pkt 9 = 17 ∧ 8 ≤ (segment pkt).length then some (ihl pkt*4+6)
  else none

/-- A packet with another source address and checksums that verify, unchanged otherwise. -/
structure SrcRewritten (pkt : List UInt8) (src : Ipv4Addr) (out : List UInt8) : Prop where
  source : ipAt out 12 = src
  header : headerSum out = 0xffff
  transport : ∀ i, checksumAt pkt = some i → transportSum out = 0xffff
  udp : ∀ i, byteAt pkt 9 = 17 → checksumAt pkt = some i → be16 out i ≠ 0
  length : out.length = pkt.length
  unchanged : ∀ j, ¬ (10 ≤ j ∧ j < 16) → (∀ i, checksumAt pkt = some i → ¬ (i ≤ j ∧ j < i+2)) →
    byteAt out j = byteAt pkt j

end Statement

section Header

theorem sum_header {pkt : List UInt8} {hlen : ℕ} (hge : 20 ≤ hlen) (hle : hlen ≤ pkt.length)
    (hmax : hlen ≤ 60) :
    sum ((putAt (putAt pkt 10 [0,0]) 10
      (be16Bytes (ipv4Checksum ((putAt pkt 10 [0,0]).take hlen)))).take hlen) = 0xffff := by
  have htake : ∀ bytes : List UInt8, bytes.length = 2 →
      (putAt pkt 10 bytes).take hlen = putAt (pkt.take hlen) 10 bytes := by
    intro bytes hbytes
    have hseg : ((putAt pkt (0+10) bytes).take hlen).drop 0 =
        putAt ((pkt.take hlen).drop 0) 10 bytes := segment_putAt (by omega) hle
    simpa using hseg
  rw [putAt_cleared (by omega),htake _ (length_be16Bytes _),htake _ rfl,
    ← putAt_cleared (by rw [List.length_take]; omega)]
  refine sum_checksum rfl ?_ ?_ rfl
  · rw [List.length_take]
    omega
  · rw [List.length_take]
    omega

theorem ihl_le (pkt : List UInt8) : ihl pkt*4 ≤ 60 := by
  have : ihl pkt < 16 := Nat.mod_lt _ (by decide)
  omega

theorem rewriteDstIpInbound_verifies {packet : List UInt8} (hversion : version packet = 4)
    (hge : 20 ≤ ihl packet*4) (hle : ihl packet*4 ≤ packet.length) :
    ∃ out, IngestPanics.rewriteDstIpInbound packet = some (some out) ∧ headerSum out = 0xffff := by
  have hdst : 16+(octets smoltcpIp).length ≤ packet.length := by simp [octets]; omega
  have hlength := length_putAt hdst
  have hout : Ipv4.rewriteDstIpInbound packet = .packet (putAt (putAt (putAt packet 16
      (octets smoltcpIp)) 10 [0,0]) 10 (be16Bytes (ipv4Checksum ((putAt (putAt packet 16
        (octets smoltcpIp)) 10 [0,0]).take (ihl packet*4))))) := by
    unfold Ipv4.rewriteDstIpInbound
    rw [if_neg (by omega),if_neg (by omega)]
  obtain ⟨-,-,hbytes⟩ := rewriteDstIpInbound_spec hout
  refine ⟨_,by rw [IngestPanics.rewriteDstIpInbound_eq,hout]; rfl,?_⟩
  have hihl := congrArg (fun b => b.toNat%16) (hbytes 0 (by omega))
  rw [headerSum]
  change sum (List.take (((byteAt _ 0).toNat%16)*4) _) = _
  rw [hihl]
  exact sum_header hge (by rw [hlength]; exact hle) (ihl_le packet)

end Header

section Transport

theorem length_pseudoHeader (src dst : Ipv4Addr) (proto : UInt8) (len : ℕ) :
    (pseudoHeader src dst proto len).length = 12 := rfl

theorem tcpUdpChecksumIpv4_cases (src dst : Ipv4Addr) (proto : UInt8) {seg : List UInt8}
    (h : seg.length ≤ 65535) {ck : ℕ} (hck : ck = Ipv4.tcpUdpChecksumIpv4 src dst proto seg) :
    ck ≠ 0 ∧ ck < 65536 ∧
      reduce (wordSum (pseudoHeader src dst proto seg.length++seg)+ck) = 65535 := by
  have hpad : (if seg.length%2 = 1 then [(0 : UInt8)] else []).length ≤ 1 := by
    split <;> simp
  have hparity : (pseudoHeader src dst proto seg.length++seg).length%2 = seg.length%2 := by
    rw [List.length_append,length_pseudoHeader]
    omega
  have hsum : onesComplementSum (pseudoHeader src dst proto seg.length++seg++
      if seg.length%2 = 1 then [0] else []) =
      65535-reduce (wordSum (pseudoHeader src dst proto seg.length++seg)) := by
    rw [onesComplementSum_eq_sub (by
      simp only [List.length_append,length_pseudoHeader]
      omega),← hparity,wordSum_padded]
  have hcode : Ipv4.tcpUdpChecksumIpv4 src dst proto seg =
      if 65535-reduce (wordSum (pseudoHeader src dst proto seg.length++seg)) = 0 then 0xffff
      else 65535-reduce (wordSum (pseudoHeader src dst proto seg.length++seg)) := by
    rw [← hsum]
    rfl
  rw [hcode] at hck
  generalize wordSum (pseudoHeader src dst proto seg.length++seg) = n at hck ⊢
  have hle := reduce_le n
  subst hck
  split
  · next hzero =>
    refine ⟨by omega,by omega,?_⟩
    rw [← reduce_add,show reduce n = 65535 by omega]
    rfl
  · next hne => exact ⟨hne,by omega,reduce_complement n⟩

theorem sum_transport (src dst : Ipv4Addr) (proto : UInt8) {seg : List UInt8} {i ck : ℕ}
    (heven : i%2 = 0) (hi : i+2 ≤ seg.length) (hlen : seg.length ≤ 65535)
    (hck : ck = Ipv4.tcpUdpChecksumIpv4 src dst proto (putAt seg i [0,0])) :
    sum (pseudoHeader src dst proto seg.length++putAt seg i (be16Bytes ck)) = 0xffff := by
  have hclear : (putAt seg i [0,0]).length = seg.length := length_putAt hi
  have hpseudo : (pseudoHeader src dst proto seg.length).length%2 = 0 := by
    rw [length_pseudoHeader]
  obtain ⟨-,hlt,hsum⟩ := tcpUdpChecksumIpv4_cases src dst proto (by omega) hck
  rw [hclear] at hsum
  rw [sum_eq_reduce,← wordSum_eq_words,wordSum_append hpseudo,← putAt_cleared hi,
    wordSum_putAt heven hi hlt,← Nat.add_assoc,← wordSum_append hpseudo]
  exact hsum

end Transport

section Outbound

variable {pkt p : List UInt8} {src : Ipv4Addr}

/-- What decides where the parts of a packet are. -/
structure SameShape (pkt p : List UInt8) : Prop where
  length : p.length = pkt.length
  ihl : ihl p = ihl pkt
  total : be16 p 2 = be16 pkt 2
  proto : byteAt p 9 = byteAt pkt 9

theorem SameShape.checksumAt (h : SameShape pkt p) : checksumAt p = checksumAt pkt := by
  have hseg : (segment p).length = (segment pkt).length := by
    simp only [segment,List.length_drop,List.length_take,h.length,h.ihl,h.total]
  simp only [Checksums.checksumAt,hseg,h.ihl,h.proto]

theorem SameShape.of_byteAt (hlength : p.length = pkt.length)
    (h : ∀ j < 10, byteAt p j = byteAt pkt j) : SameShape pkt p := by
  refine ⟨hlength,?_,?_,h 9 (by omega)⟩
  · rw [Ipv4.ihl,Ipv4.ihl,h 0 (by omega)]
  · rw [be16,be16,h 2 (by omega),h 3 (by omega)]

theorem ipAt_congr {i : ℕ} (h : ∀ j, i ≤ j → j < i+4 → byteAt p j = byteAt pkt j) :
    ipAt p i = ipAt pkt i := by
  rw [ipAt,ipAt,h i (by omega) (by omega),h (i+1) (by omega) (by omega),
    h (i+2) (by omega) (by omega),h (i+3) (by omega) (by omega)]

theorem length_segment (htotal : be16 p 2 ≤ p.length) :
    (segment p).length = be16 p 2-ihl p*4 := by
  rw [segment,List.length_drop,List.length_take]
  omega

/-- What the transport checksum is put into is the checksum field. -/
theorem fixTransport_cases (hfit : ihl p*4 ≤ be16 p 2) (htotal : be16 p 2 ≤ p.length) :
    (checksumAt p = none ∧ Ipv4.fixTransport p (ihl p*4) = p) ∨
    ∃ i ck, checksumAt p = some (ihl p*4+i) ∧ i%2 = 0 ∧ i+2 ≤ (segment p).length ∧
      ck = Ipv4.tcpUdpChecksumIpv4 (ipAt p 12) (ipAt p 16) (byteAt p 9)
        (putAt (segment p) i [0,0]) ∧
      Ipv4.fixTransport p (ihl p*4) = putAt p (ihl p*4+i) (be16Bytes ck) := by
  have hlen := length_segment htotal
  have hput : ∀ i, i+2 ≤ (segment p).length → ∀ ck,
      putAt (putAt p (ihl p*4+i) [0,0]) (ihl p*4+i) (be16Bytes ck) =
        putAt p (ihl p*4+i) (be16Bytes ck) ∧
      ((putAt p (ihl p*4+i) [0,0]).take (be16 p 2)).drop (ihl p*4) = putAt (segment p) i [0,0] := by
    intro i hi ck
    exact ⟨putAt_cleared (by omega) ck,segment_putAt (show ihl p*4+i+2 ≤ _ by omega) htotal⟩
  simp only [Ipv4.fixTransport,if_neg (show ¬ (p.length < be16 p 2 ∨ be16 p 2 < ihl p*4) by omega),
    checksumAt,← hlen]
  split
  · next htcp =>
    obtain ⟨hclear,hseg⟩ := hput 16 (by omega) (Ipv4.tcpUdpChecksumIpv4 (ipAt p 12) (ipAt p 16) 6
      (putAt (segment p) 16 [0,0]))
    refine .inr ⟨16,_,rfl,rfl,by omega,rfl,?_⟩
    rw [hseg,htcp.1,hclear]
  · split
    · next hudp =>
      obtain ⟨hclear,hseg⟩ := hput 6 (by omega) (Ipv4.tcpUdpChecksumIpv4 (ipAt p 12) (ipAt p 16) 17
        (putAt (segment p) 6 [0,0]))
      refine .inr ⟨6,_,rfl,rfl,by omega,rfl,?_⟩
      rw [hseg,hudp.1,hclear]
    · exact .inl ⟨rfl,rfl⟩

theorem be16_putAt {bytes : List UInt8} {i n : ℕ} (hi : i+2 ≤ bytes.length) (hn : n < 65536) :
    be16 (putAt bytes i (be16Bytes n)) i = n := by
  have hhigh := byteAt_putAt (show i+(be16Bytes n).length ≤ bytes.length from hi) i
  have hlow := byteAt_putAt (show i+(be16Bytes n).length ≤ bytes.length from hi) (i+1)
  rw [length_be16Bytes,if_pos (by omega),Nat.sub_self] at hhigh
  rw [length_be16Bytes,if_pos (by omega),Nat.add_sub_cancel_left] at hlow
  rw [be16,hhigh,hlow]
  simp only [be16Bytes,byteAt,List.getD_cons_zero,List.getD_cons_succ,UInt8.toNat_ofNat']
  omega

/-- The transport part of the rewrite. -/
theorem fixTransport_verifies (hge : 20 ≤ ihl p*4) (hfit : ihl p*4 ≤ be16 p 2)
    (htotal : be16 p 2 ≤ p.length) {out : List UInt8} (hout : out = Ipv4.fixTransport p (ihl p*4)) :
    out.length = p.length ∧ out.take (ihl p*4) = p.take (ihl p*4) ∧
      (∀ i, checksumAt p = some i → transportSum out = 0xffff ∧ be16 out i ≠ 0) ∧
      ∀ j, (∀ i, checksumAt p = some i → ¬ (i ≤ j ∧ j < i+2)) → byteAt out j = byteAt p j := by
  rcases fixTransport_cases hfit htotal with ⟨hnone,heq⟩ | ⟨i,ck,hat,heven,hi,hck,heq⟩
  · rw [heq] at hout
    subst hout
    refine ⟨rfl,rfl,?_,fun j _ => rfl⟩
    intro i hi
    rw [hnone] at hi
    cases hi
  · rw [heq] at hout
    have hlen := length_segment htotal
    have hclear : (putAt (segment p) i [0,0]).length = (segment p).length := length_putAt hi
    have hseg := be16_le p 2
    have hfield : ihl p*4+i+(be16Bytes ck).length ≤ be16 p 2 := by
      rw [length_be16Bytes]
      omega
    have hlength : out.length = p.length := by
      rw [hout,length_putAt (by omega)]
    have hbyte : ∀ j, ¬ (ihl p*4+i ≤ j ∧ j < ihl p*4+i+2) → byteAt out j = byteAt p j := by
      intro j hj
      rw [hout,byteAt_putAt (by omega),length_be16Bytes,if_neg hj]
    obtain ⟨hne,hlt,-⟩ := tcpUdpChecksumIpv4_cases _ _ _ (by omega) hck
    have hshape := SameShape.of_byteAt hlength fun j hj => hbyte j (by omega)
    have hsegment : segment out = putAt (segment p) i (be16Bytes ck) := by
      rw [segment,hshape.total,hshape.ihl,hout,segment_putAt hfield htotal,segment]
    have hsrc : ipAt out 12 = ipAt p 12 := ipAt_congr fun j _ _ => hbyte j (by omega)
    have hdst : ipAt out 16 = ipAt p 16 := ipAt_congr fun j _ _ => hbyte j (by omega)
    refine ⟨hlength,?_,?_,?_⟩
    · rw [hout,putAt_parts hfield htotal,List.append_assoc,List.take_left' (by
        rw [List.length_take]
        omega)]
    · intro k hk
      rw [hat,Option.some.injEq] at hk
      subst hk
      refine ⟨?_,?_⟩
      · rw [transportSum,hsegment,hsrc,hdst,hshape.proto,
          length_putAt (by rw [length_be16Bytes]; exact hi)]
        exact sum_transport _ _ _ heven hi (by omega) hck
      · rw [hout,be16_putAt (by omega) hlt]
        exact hne
    · intro j hj
      exact hbyte j (hj _ hat)

theorem rewriteSrcIpOutbound_verifies (src : Ipv4Addr) (hge : 20 ≤ ihl pkt*4)
    (hfit : ihl pkt*4 ≤ be16 pkt 2) (htotal : be16 pkt 2 ≤ pkt.length) :
    ∃ out, rewriteSrcIpOutbound pkt src = some out ∧ SrcRewritten pkt src out := by
  have hsrc : 12+(octets src).length ≤ pkt.length := by
    simp only [octets,List.length_cons,List.length_nil]
    omega
  have hqlen := length_putAt hsrc
  have hqbyte := byteAt_putAt hsrc
  generalize hq : putAt pkt 12 (octets src) = q at hqlen hqbyte
  let ck := ipv4Checksum ((putAt q 10 [0,0]).take (ihl pkt*4))
  have hplen : (putAt (putAt q 10 [0,0]) 10 (be16Bytes ck)).length = pkt.length := by
    rw [putAt_cleared (by omega),length_putAt (by rw [length_be16Bytes]; omega),hqlen]
  have hpbyte : ∀ j, ¬ (10 ≤ j ∧ j < 12) →
      byteAt (putAt (putAt q 10 [0,0]) 10 (be16Bytes ck)) j = byteAt q j := by
    intro j hj
    rw [putAt_cleared (by omega),byteAt_putAt (by rw [length_be16Bytes]; omega),length_be16Bytes,
      if_neg hj]
  have hheader : sum ((putAt (putAt q 10 [0,0]) 10 (be16Bytes ck)).take (ihl pkt*4)) = 0xffff :=
    sum_header hge (by omega) (ihl_le pkt)
  have hcode : rewriteSrcIpOutbound pkt src = some (Ipv4.fixTransport
      (putAt (putAt q 10 [0,0]) 10 (be16Bytes ck)) (ihl pkt*4)) := by
    rw [rewriteSrcIpOutbound_eq,Ipv4.rewriteSrcIpOutbound,if_neg (by omega)]
    simp only [hq]
    rw [if_neg (by omega)]
  generalize putAt (putAt q 10 [0,0]) 10 (be16Bytes ck) = p at hplen hpbyte hheader hcode
  have hbyte : ∀ j, ¬ (10 ≤ j ∧ j < 16) → byteAt p j = byteAt pkt j := by
    intro j hj
    rw [hpbyte j (by omega),hqbyte,if_neg]
    simp only [octets,List.length_cons,List.length_nil]
    omega
  have hshape := SameShape.of_byteAt hplen fun j hj => hbyte j (by omega)
  obtain ⟨hlength,htake,hfix,hkeep⟩ := fixTransport_verifies (p:=p) (by rw [hshape.ihl]; exact hge)
    (by rw [hshape.ihl,hshape.total]; exact hfit) (by rw [hshape.total,hplen]; exact htotal) rfl
  rw [← hshape.ihl] at hcode hheader hge
  rw [hshape.checksumAt] at hfix hkeep
  refine ⟨_,hcode,?_⟩
  generalize Ipv4.fixTransport p (ihl p*4) = out at hlength htake hfix hkeep
  have hfront : ∀ j < ihl p*4, byteAt out j = byteAt p j := by
    intro j hj
    have hget := congrArg (fun l => byteAt l j) htake
    simpa [byteAt,List.getD_eq_getElem?_getD,List.getElem?_take_of_lt hj] using hget
  have hout := SameShape.of_byteAt hlength fun j hj => hfront j (by omega)
  refine ⟨?_,?_,fun i hi => (hfix i hi).1,fun i _ hi => (hfix i hi).2,hlength.trans hplen,?_⟩
  · have hsame : ipAt out 12 = ipAt q 12 := by
      apply ipAt_congr
      intro j hj hlt
      rw [hfront j (by omega),hpbyte j (by omega)]
    rw [hsame]
    simp only [ipAt,hqbyte]
    rfl
  · rw [headerSum,hout.ihl,htake]
    exact hheader
  · intro j hj hfield
    rw [hkeep j hfield,hbyte j hj]

end Outbound

section Built

variable (total identification : ℕ) (proto : UInt8) (src dst : Ipv4Addr) (rest : List UInt8)

theorem length_ipv4Header : (ipv4Header total identification proto src dst).length = 20 := by
  rw [ipv4Header,length_putAt (show 10+2 ≤ 20 by omega)]
  rfl

theorem ipv4Header_append :
    ipv4Header total identification proto src dst++rest =
      [0x45,0]++be16Bytes total++be16Bytes identification++[0x40,0,64,proto]++
        be16Bytes (ipv4Checksum (clearHeader total identification proto src dst))++
          octets src++octets dst++rest := by
  simp [ipv4Header,clearHeader,putAt,octets,be16Bytes]

/-- How the fields of a built header are read. -/
structure BuiltHeader (pkt : List UInt8) : Prop where
  version : version pkt = 4
  ihl : ihl pkt = 5
  total : be16 pkt 2 = total%65536
  identification : be16 pkt 4 = identification%65536
  fragment : be16 pkt 6 = 0x4000
  proto : byteAt pkt 9 = proto
  source : ipAt pkt 12 = src
  destination : ipAt pkt 16 = dst

theorem builtHeader : BuiltHeader total identification proto src dst
    (ipv4Header total identification proto src dst++rest) := by
  rw [ipv4Header_append]
  generalize ipv4Checksum (clearHeader total identification proto src dst) = ck
  have hword : ∀ n : ℕ, (UInt8.ofNat (n/256)).toNat*256+(UInt8.ofNat n).toNat = n%65536 := by
    intro n
    simp only [UInt8.toNat_ofNat']
    omega
  have hfragment : (0x40 : UInt8).toNat*256+(0 : UInt8).toNat = 0x4000 := by decide
  have hversion : (0x45 : UInt8).toNat/16 = 4 := by decide
  have hihl : (0x45 : UInt8).toNat%16 = 5 := by decide
  exact ⟨hversion,hihl,hword total,hword identification,hfragment,rfl,rfl,rfl⟩

theorem headerSum_built :
    headerSum (ipv4Header total identification proto src dst++rest) = 0xffff := by
  have hread := builtHeader total identification proto src dst rest
  have hlen := length_ipv4Header total identification proto src dst
  have hlength := length_clearHeader total identification proto src dst
  have hsum := sum_checksum (show 10%2 = 0 from rfl)
    (show 10+2 ≤ (clearHeader total identification proto src dst).length by omega) (by omega) rfl
  rw [headerSum,hread.ihl,List.take_left' hlen,ipv4Header]
  exact hsum

theorem segment_built (htotal : total = 20+rest.length) (hle : total ≤ 65535) :
    segment (ipv4Header total identification proto src dst++rest) = rest := by
  have hread := builtHeader total identification proto src dst rest
  have hlen := length_ipv4Header total identification proto src dst
  rw [segment,hread.total,hread.ihl,Nat.mod_eq_of_lt (by omega),
    List.take_of_length_le (by rw [List.length_append]; omega),List.drop_left' hlen]

theorem transportSum_built (htotal : total = 20+rest.length) (hle : total ≤ 65535) :
    transportSum (ipv4Header total identification proto src dst++rest) =
      sum (pseudoHeader src dst proto rest.length++rest) := by
  have hread := builtHeader total identification proto src dst rest
  rw [transportSum,segment_built _ _ _ _ _ _ htotal hle,hread.source,hread.destination,hread.proto]

end Built

section Main

/-- A packet that the forwarder built for the client, with checksums that verify. -/
structure UdpVerifies (out : List UInt8) : Prop where
  header : headerSum out = 0xffff
  transport : transportSum out = 0xffff
  udp : be16 out 26 ≠ 0

theorem buildIpv4UdpPacket_verifies {srcIp dstIp : Ipv4Addr} {srcPort dstPort identification : ℕ}
    {udpPayload out : List UInt8}
    (h : Ipv4.buildIpv4UdpPacket srcIp dstIp srcPort dstPort identification udpPayload = some out) :
    UdpVerifies out := by
  simp only [Ipv4.buildIpv4UdpPacket] at h
  split at h
  · cases h
  next hle =>
  let udp := clearUdp srcPort dstPort (8+udpPayload.length)++udpPayload
  have hudp : udp.length = 8+udpPayload.length := List.length_append
  have hclear : putAt udp 6 [0,0] = udp := rfl
  obtain ⟨hne,hlt,-⟩ := tcpUdpChecksumIpv4_cases srcIp dstIp 17
    (show udp.length ≤ 65535 by omega) rfl
  have hsum := sum_transport srcIp dstIp 17 (show 6%2 = 0 from rfl) (show 6+2 ≤ udp.length by omega)
    (by omega) rfl
  rw [hclear] at hsum
  generalize hck : Ipv4.tcpUdpChecksumIpv4 srcIp dstIp 17 udp = ck at hne hlt hsum
  have hput : (putAt udp 6 (be16Bytes ck)).length = udp.length :=
    length_putAt (by rw [length_be16Bytes]; omega)
  have hout : ipv4Header (20+8+udpPayload.length) identification 17 srcIp dstIp++
      putAt udp 6 (be16Bytes ck) = out := by
    rw [← hck]
    exact Option.some.inj h
  subst hout
  refine ⟨headerSum_built ..,?_,?_⟩
  · rw [transportSum_built _ _ _ _ _ _ (by omega) (by omega),hput]
    exact hsum
  · have hheader := length_ipv4Header (20+8+udpPayload.length) identification 17 srcIp dstIp
    have hfield := putAt_middle (ipv4Header (20+8+udpPayload.length) identification 17 srcIp dstIp)
      [] (show 6+(be16Bytes ck).length ≤ udp.length by rw [length_be16Bytes]; omega)
    rw [List.append_nil,List.append_nil,hheader] at hfield
    rw [← hfield,be16_putAt (by rw [List.length_append]; omega) hlt]
    exact hne

/-- An ICMP checksum covers the segment alone. -/
structure IcmpVerifies (out : List UInt8) : Prop where
  header : headerSum out = 0xffff
  icmp : sum (segment out) = 0xffff

theorem buildIpv4IcmpPacket_verifies {srcIp dstIp : Ipv4Addr} {identification : ℕ}
    {icmpSegment out : List UInt8}
    (h : Ipv4.buildIpv4IcmpPacket srcIp dstIp identification icmpSegment = some out) :
    IcmpVerifies out := by
  simp only [Ipv4.buildIpv4IcmpPacket] at h
  split at h
  · cases h
  next hle =>
  have hclear : (putAt icmpSegment 2 [0,0]).length = icmpSegment.length :=
    length_putAt (show 2+2 ≤ _ by omega)
  have hput : (putAt (putAt icmpSegment 2 [0,0]) 2
      (be16Bytes (onesComplementSum (putAt icmpSegment 2 [0,0])))).length = icmpSegment.length := by
    rw [length_putAt (by rw [length_be16Bytes]; omega),hclear]
  cases h
  refine ⟨headerSum_built ..,?_⟩
  rw [segment_built _ _ _ _ _ _ (by omega) (by omega)]
  exact sum_checksum rfl (by omega) (by omega) rfl

theorem addCarries_ends {total : ℕ} (h : total < 2^32) :
    ∃ word < 65536, ∀ n ≥ 3, IngestPanics.addCarries n total = some word := by
  refine ⟨reduce total,by have := reduce_le total; omega,?_⟩
  intro n hn
  rw [IngestPanics.addCarries_eq n h,foldCarries_eq_reduce hn h]

/-- The checksums of every packet that the forwarder rewrites or builds verify, and computing
them neither overflows nor panics nor loops. -/
theorem checksums_verify :
    (∀ pkt src, 20 ≤ ihl pkt*4 → ihl pkt*4 ≤ be16 pkt 2 → be16 pkt 2 ≤ pkt.length →
      ∃ out, rewriteSrcIpOutbound pkt src = some out ∧ SrcRewritten pkt src out) ∧
    (∀ packet, version packet = 4 → 20 ≤ ihl packet*4 → ihl packet*4 ≤ packet.length →
      ∃ out, IngestPanics.rewriteDstIpInbound packet = some (some out) ∧
        headerSum out = 0xffff) ∧
    (∀ srcIp dstIp (srcPort dstPort identification : UInt16) udpPayload,
      ∃ built, buildIpv4UdpPacket srcIp dstIp srcPort.toNat dstPort.toNat identification.toNat
        udpPayload = some built ∧ ∀ out ∈ built, UdpVerifies out) ∧
    (∀ srcIp dstIp (identification : UInt16) icmpSegment,
      ∃ built, buildIpv4IcmpPacket srcIp dstIp identification.toNat icmpSegment = some built ∧
        ∀ out ∈ built, IcmpVerifies out) ∧
    ∀ total < 2^32, ∃ word < 65536, ∀ n ≥ 3, IngestPanics.addCarries n total = some word := by
  refine ⟨?_,?_,?_,?_,fun total => addCarries_ends⟩
  · intro pkt src hge hfit htotal
    exact rewriteSrcIpOutbound_verifies src hge hfit htotal
  · intro packet hversion hge hle
    exact rewriteDstIpInbound_verifies hversion hge hle
  · intro srcIp dstIp srcPort dstPort identification udpPayload
    exact ⟨_,buildIpv4UdpPacket_eq ..,fun out h => buildIpv4UdpPacket_verifies h⟩
  · intro srcIp dstIp identification icmpSegment
    exact ⟨_,buildIpv4IcmpPacket_eq ..,fun out h => buildIpv4IcmpPacket_verifies h⟩

/-- A datagram of 9 bytes (so the sum has an odd byte) to the client. -/
def datagram : List UInt8 :=
  [0x45,0,0,29,0,7,0x40,0,64,17,0,0,10,200,0,1,10,8,0,2,0,53,0x9c,0x40,0,9,0,0,65]

theorem checksums_verify_datagram :
    ∃ out, rewriteSrcIpOutbound datagram ⟨1,1,1,1⟩ = some out ∧
      SrcRewritten datagram ⟨1,1,1,1⟩ out :=
  checksums_verify.1 datagram ⟨1,1,1,1⟩ (by decide) (by decide) (by decide)

end Main

end Bonded.Checksums
