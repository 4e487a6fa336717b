import Mathlib.Algebra.Group.Nat.Defs
import Mathlib.Data.List.Induction

/-! Strings of bytes, and big-endian numbers of a fixed number of bytes. -/
namespace Bonded.Bytes

instance decidableMem (bytes : List UInt8) (seen : List (List UInt8)) :
    Decidable (bytes ∈ seen) :=
  inferInstance

def beNat (bytes : List UInt8) : ℕ := bytes.foldl (fun n b => n*256+b.toNat) 0

/-- The last `width` bytes of a number. -/
def beBytes : ℕ → ℕ → List UInt8
  | 0, _ => []
  | width+1, n => beBytes width (n/256)++[UInt8.ofNat n]

@[simp] theorem beBytes_length (width n : ℕ) : (beBytes width n).length = width := by
  induction width generalizing n with
  | zero => rfl
  | succ width ih => simp [beBytes,ih]

theorem beNat_append (bytes : List UInt8) (b : UInt8) :
    beNat (bytes++[b]) = beNat bytes*256+b.toNat := by
  simp [beNat]

theorem beNat_beBytes (width n : ℕ) (h : n < 256^width) : beNat (beBytes width n) = n := by
  induction width generalizing n with
  | zero => simp [beBytes,beNat] at h ⊢; omega
  | succ width ih =>
    have hn : n/256 < 256^width := by
      exact Nat.div_lt_of_lt_mul (by omega)
    rw [beBytes,beNat_append,ih _ hn]
    simp only [UInt8.toNat_ofNat']
    omega

theorem beNat_lt (bytes : List UInt8) : beNat bytes < 256^bytes.length := by
  induction bytes using List.reverseRecOn with
  | nil => simp [beNat]
  | append_singleton bytes b ih =>
    have hb := b.toNat_lt
    rw [beNat_append,List.length_append,List.length_singleton,Nat.pow_succ]
    omega

theorem beBytes_beNat (bytes : List UInt8) : beBytes bytes.length (beNat bytes) = bytes := by
  induction bytes using List.reverseRecOn with
  | nil => rfl
  | append_singleton bytes b ih =>
    have hb := b.toNat_lt
    have hdiv : (beNat bytes*256+b.toNat)/256 = beNat bytes := by omega
    have hlast : UInt8.ofNat (beNat bytes*256+b.toNat) = b := by
      apply UInt8.toNat.inj
      rw [UInt8.toNat_ofNat']
      omega
    rw [beNat_append,List.length_append,List.length_singleton,beBytes,hdiv,ih,hlast]

end Bonded.Bytes
