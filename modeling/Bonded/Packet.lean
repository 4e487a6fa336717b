import Mathlib.Tactic.Common

/-! Bytes of an IPv4 packet, as the forwarding code reads them. -/
namespace Bonded.Packet

structure Ipv4Addr where
  a : UInt8
  b : UInt8
  c : UInt8
  d : UInt8
  deriving DecidableEq, Repr

/-- The byte at an offset that the caller has checked against the length. -/
def byteAt (packet : List UInt8) (i : ℕ) : UInt8 := packet.getD i 0

/-- The big-endian 16-bit number at an offset. -/
def be16 (packet : List UInt8) (i : ℕ) : ℕ :=
  (byteAt packet i).toNat*256+(byteAt packet (i+1)).toNat

def ipAt (packet : List UInt8) (i : ℕ) : Ipv4Addr :=
  ⟨byteAt packet i,byteAt packet (i+1),byteAt packet (i+2),byteAt packet (i+3)⟩

end Bonded.Packet
