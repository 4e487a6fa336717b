import Bonded.Checksums
import Bonded.TunnelTransport

/-! The two copies of the code that wraps a frame in an IPv4 packet for the tunnel, in the client's
crate and in the server's, with every index, slice and sum checked; `none` is a panic. -/
namespace Bonded.TunnelWrapping

open Checked Checksums Ipv4 Packet TunnelTransport

section Code

def ipv4HdrLen : ℕ := 20

/-- The sum of the words at the even offsets of the header. -/
def headerWords (pkt : List UInt8) : Option ℕ :=
  [0,2,4,6,8,10,12,14,16,18].foldlM (fun csum i => do add32 csum (← IngestPanics.word pkt i)) 0

namespace Core

def wrapInIpv4 (payload : List UInt8) : Option (List UInt8) := do
  let totalLen := ipv4HdrLen+payload.length
  let pkt ← writeAll (List.replicate totalLen 0)
    [(0,[0x45]),(1,[0]),(2,be16Bytes totalLen),(8,[64]),(9,[253]),(12,octets wgFakeSrcIp),
      (16,octets wgFakeDstIp)]
  let csum ← headerWords pkt
  let csum ← IngestPanics.addCarries 3 csum
  let pkt ← copyFromSlice pkt 10 12 (be16Bytes (65535-csum%65536))
  copyFromSlice pkt ipv4HdrLen totalLen payload

def unwrapFromIpv4 (ipPkt : List UInt8) : Option (Except String (List UInt8)) :=
  if ipPkt.length < ipv4HdrLen then
    some (.error ("WireGuard: received IP packet too short ("++toString ipPkt.length++" bytes)"))
  else do
    let ihl := ((← index ipPkt 0) &&& 0x0f).toNat*4
    if ipPkt.length < ihl then
      return .error ("WireGuard: malformed IP packet (IHL="++toString ihl++" > pkt_len="++
        toString ipPkt.length++")")
    return .ok (← slice ipPkt ihl ipPkt.length)

end Core

namespace Server

def wrapInIpv4 (payload : List UInt8) : Option (List UInt8) := do
  let totalLen := ipv4HdrLen+payload.length
  let packet ← writeAll (List.replicate totalLen 0)
    [(0,[0x45]),(2,be16Bytes totalLen),(8,[64]),(9,[253]),(12,octets wgFakeSrcIp),
      (16,octets wgFakeDstIp)]
  let checksum ← headerWords packet
  let checksum ← IngestPanics.addCarries 3 checksum
  let packet ← copyFromSlice packet 10 12 (be16Bytes (65535-checksum%65536))
  copyFromSlice packet ipv4HdrLen totalLen payload

def unwrapFromIpv4 (ipPacket : List UInt8) : Option (Except String (List UInt8)) :=
  if ipPacket.length < ipv4HdrLen then
    some (.error ("WireGuard: received IP packet too short ("++toString ipPacket.length++
      " bytes)"))
  else do
    let ihl := ((← index ipPacket 0) &&& 0x0f).toNat*4
    if ipPacket.length < ihl then
      return .error ("WireGuard: malformed IP packet (IHL="++toString ihl++" > pkt_len="++
        toString ipPacket.length++")")
    return .ok (← slice ipPacket ihl ipPacket.length)

end Server
end Code

section Wrapping

theorem foldlM_add32 {f : ℕ → Option ℕ} {g : ℕ → ℕ} {l : List ℕ} (hf : ∀ i ∈ l, f i = some (g i))
    (acc : ℕ) (hlt : acc+(l.map g).sum < 2^32) :
    l.foldlM (fun csum i => do add32 csum (← f i)) acc = some (acc+(l.map g).sum) := by
  induction l generalizing acc with
  | nil => rfl
  | cons i l ih =>
    obtain ⟨hi,hl⟩ := List.forall_mem_cons.mp hf
    rw [List.map_cons,List.sum_cons,← Nat.add_assoc] at hlt ⊢
    rw [List.foldlM_cons,hi]
    simp only [Option.bind_eq_bind,Option.bind_some,add32_of_lt (Nat.lt_of_le_of_lt
      (Nat.le_add_right _ _) hlt)]
    exact ih hl _ hlt

theorem length_wrapHeader (total : ℕ) : (wrapHeader total).length = 20 := rfl

theorem wordSum_wrapHeader_lt (total : ℕ) : wordSum (wrapHeader total) < 2^32 :=
  wordSum_lt (by rw [length_wrapHeader]; decide)

theorem checksum_fits (total : ℕ) :
    10+(be16Bytes (ipv4Checksum (wrapHeader total))).length ≤ (wrapHeader total).length := by
  rw [length_wrapHeader,length_be16Bytes]
  decide

/-- The checked sum over the header is the sum of its words. -/
theorem headerWords_eq (total : ℕ) (rest : List UInt8) :
    headerWords (wrapHeader total++rest) = some (wordSum (wrapHeader total)) := by
  have hwords : ∀ i ∈ [0,2,4,6,8,10,12,14,16,18],
      IngestPanics.word (wrapHeader total++rest) i = some (be16 (wrapHeader total) i) := by
    simp only [List.forall_mem_cons]
    exact ⟨rfl,rfl,rfl,rfl,rfl,rfl,rfl,rfl,rfl,rfl,nofun⟩
  have hsum : wordSum (wrapHeader total) =
      0+([0,2,4,6,8,10,12,14,16,18].map (be16 (wrapHeader total))).sum := by
    rw [Nat.zero_add]
    rfl
  have hlt := wordSum_wrapHeader_lt total
  rw [hsum] at hlt ⊢
  exact foldlM_add32 hwords 0 hlt

/-- What both copies do once the fields of the header have been written. -/
theorem wrap_fields {fields : List (ℕ × List UInt8)} (payload : List UInt8)
    (hfields : writeAll (List.replicate 20 0++List.replicate payload.length 0) fields =
      some (wrapHeader (20+payload.length)++List.replicate payload.length 0)) :
    (do
      let pkt ← writeAll (List.replicate (20+payload.length) 0) fields
      let csum ← headerWords pkt
      let csum ← IngestPanics.addCarries 3 csum
      let pkt ← copyFromSlice pkt 10 12 (be16Bytes (65535-csum%65536))
      copyFromSlice pkt 20 (20+payload.length) payload) =
        some (TunnelTransport.wrapInIpv4 payload) := by
  have hlength := length_putAt (checksum_fits (20+payload.length))
  rw [List.replicate_add]
  refine Option.bind_eq_some_iff.mpr ⟨_,hfields,Option.bind_eq_some_iff.mpr
    ⟨_,headerWords_eq _ _,Option.bind_eq_some_iff.mpr
      ⟨_,IngestPanics.addCarries_eq 3 (wordSum_wrapHeader_lt _),Option.bind_eq_some_iff.mpr
        ⟨_,copyFromSlice_front 10 12 rfl (checksum_fits _),?_⟩⟩⟩⟩
  exact copyFromSlice_all (hlength.trans (length_wrapHeader _)).symm rfl List.length_replicate

theorem core_wrapInIpv4_eq (payload : List UInt8) :
    Core.wrapInIpv4 payload = some (TunnelTransport.wrapInIpv4 payload) := by
  refine wrap_fields payload ?_
  rw [writeAll_front _ (by simp [be16Bytes,octets])]
  rfl

theorem server_wrapInIpv4_eq (payload : List UInt8) :
    Server.wrapInIpv4 payload = some (TunnelTransport.wrapInIpv4 payload) := by
  refine wrap_fields payload ?_
  rw [writeAll_front _ (by simp [be16Bytes,octets])]
  rfl

theorem headerSum_wrapInIpv4 (payload : List UInt8) :
    headerSum (TunnelTransport.wrapInIpv4 payload) = 0xffff := by
  have hihl : ihl (TunnelTransport.wrapInIpv4 payload) = 5 := by
    obtain ⟨c₁,c₂,h⟩ := wrapInIpv4_eq payload
    have hfirst : byteAt (TunnelTransport.wrapInIpv4 payload) 0 = 0x45 := by
      rw [h]
      rfl
    rw [ihl,hfirst]
    rfl
  have hlength := (length_putAt (checksum_fits (20+payload.length))).trans (length_wrapHeader _)
  have hclear : ∀ total, putAt (wrapHeader total) 10 [0,0] = wrapHeader total := fun _ => rfl
  rw [headerSum,hihl,TunnelTransport.wrapInIpv4,List.take_left' hlength,
    ← hclear (20+payload.length)]
  refine sum_checksum rfl ?_ ?_ rfl
  · rw [length_wrapHeader]
    decide
  · rw [length_wrapHeader]
    decide

end Wrapping

section Unwrapping

theorem core_unwrapFromIpv4_eq (bytes : List UInt8) :
    Core.unwrapFromIpv4 bytes = Server.unwrapFromIpv4 bytes := rfl

/-- Neither copy panics, and what it returns is an end of the packet. -/
theorem unwrapFromIpv4_cases (bytes : List UInt8) :
    (∃ text, Server.unwrapFromIpv4 bytes = some (.error text) ∧
        WireGuardServer.unwrapFromIpv4 bytes = none) ∨
      ∃ n, Server.unwrapFromIpv4 bytes = some (.ok (bytes.drop n)) ∧
        WireGuardServer.unwrapFromIpv4 bytes = some (bytes.drop n) := by
  by_cases hshort : bytes.length < 20
  · exact .inl ⟨_,if_pos hshort,if_pos hshort⟩
  · have hindex := IngestPanics.index_eq (show 0 < bytes.length by omega)
    simp only [Server.unwrapFromIpv4,WireGuardServer.unwrapFromIpv4,ipv4HdrLen,if_neg hshort,hindex,
      Option.bind_eq_bind,Option.bind_some]
    by_cases hihl : bytes.length < (byteAt bytes 0 &&& 0x0f).toNat*4
    · exact .inl ⟨_,if_pos hihl,if_pos hihl⟩
    · rw [if_neg hihl,if_neg hihl,IngestPanics.slice_rest (by omega)]
      exact .inr ⟨_,rfl,rfl⟩

end Unwrapping

/-- Both copies wrap a payload that fits in the same packet, whose header verifies and states its
length, and both get the payload back. They unwrap any bytes alike, without a panic, and to an end
of these bytes. -/
theorem wrappers_agree :
    (∀ payload : List UInt8, payload.length ≤ 65515 → ∃ pkt, Core.wrapInIpv4 payload = some pkt ∧
      Server.wrapInIpv4 payload = some pkt ∧ headerSum pkt = 0xffff ∧ be16 pkt 2 = pkt.length ∧
      Core.unwrapFromIpv4 pkt = some (.ok payload) ∧
      Server.unwrapFromIpv4 pkt = some (.ok payload)) ∧
    ∀ bytes : List UInt8, ∃ result, Core.unwrapFromIpv4 bytes = some result ∧
      Server.unwrapFromIpv4 bytes = some result ∧ ∀ rest, result = .ok rest → rest <:+ bytes := by
  refine ⟨fun payload hlen => ⟨_,core_wrapInIpv4_eq payload,server_wrapInIpv4_eq payload,
    headerSum_wrapInIpv4 payload,?_,?_⟩,fun bytes => ?_⟩
  · rw [be16_wrapInIpv4 (by omega),wrapInIpv4_length]
  · rw [core_unwrapFromIpv4_eq,and_self]
    have hunwrap := unwrapFromIpv4_wrapInIpv4 payload
    rcases unwrapFromIpv4_cases (TunnelTransport.wrapInIpv4 payload) with ⟨_,_,h⟩ | ⟨n,h,hn⟩
    · rw [hunwrap] at h
      cases h
    · rw [h,Option.some.inj (hn.symm.trans hunwrap)]
  · rw [core_unwrapFromIpv4_eq]
    rcases unwrapFromIpv4_cases bytes with ⟨text,h,-⟩ | ⟨n,h,-⟩
    · exact ⟨_,h,h,nofun⟩
    · refine ⟨_,h,h,fun rest hrest => ?_⟩
      cases hrest
      exact List.drop_suffix n bytes

end Bonded.TunnelWrapping
