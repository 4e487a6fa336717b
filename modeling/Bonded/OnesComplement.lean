import Mathlib.Algebra.GroupWithZero.Nat
import Mathlib.Tactic.Common

/-! One's-complement sums of 16-bit words. The carry out of the highest bit is brought round to
the lowest, so a sum is known up to multiples of 65535, and is zero only if all words are. -/
namespace Bonded.OnesComplement

/-- Add two words and bring the carry round. -/
def add (a b : ℕ) : ℕ := if a+b < 65536 then a+b else a+b-65535

/-- The big-endian words of a byte string; an odd last byte is a high byte. -/
def words : List UInt8 → List ℕ
  | [] => []
  | [x] => [x.toNat*256]
  | x::y::rest => (x.toNat*256+y.toNat)::words rest

def sum (bytes : List UInt8) : ℕ := (words bytes).foldl add 0

/-- The word that is left of a number when all its carries have been brought round. -/
def reduce (n : ℕ) : ℕ := if n = 0 then 0 else (n-1)%65535+1

theorem reduce_le (n : ℕ) : reduce n ≤ 65535 := by
  unfold reduce
  split
  · omega
  · omega

theorem reduce_of_lt {n : ℕ} (h : n < 65536) : reduce n = n := by
  unfold reduce
  split
  · omega
  · omega

/-- Bringing carries round does not change what is left in the end. -/
theorem reduce_carry (n : ℕ) : reduce (n%65536+n/65536) = reduce n := by
  unfold reduce
  split
  · rw [if_pos (by omega)]
  · rw [if_neg (by omega)]
    omega

theorem add_eq_reduce {a b : ℕ} (ha : a ≤ 65535) (hb : b ≤ 65535) : add a b = reduce (a+b) := by
  unfold add reduce
  split
  · split
    · omega
    · omega
  · rw [if_neg (by omega)]
    omega

theorem reduce_add (a b : ℕ) : reduce (reduce a+b) = reduce (a+b) := by
  unfold reduce
  split
  · next ha => rw [ha]
  · rw [if_neg (by omega),if_neg (by omega)]
    omega

theorem reduce_complement (n : ℕ) : reduce (n+(65535-reduce n)) = 65535 := by
  have hle := reduce_le n
  unfold reduce at hle ⊢
  split
  · rw [if_neg (by omega)]
    omega
  · next hn =>
    rw [if_neg (by omega)]
    omega

theorem words_le {bytes : List UInt8} : ∀ w ∈ words bytes, w ≤ 65535 := by
  fun_induction words bytes with
  | case1 => simp
  | case2 x =>
    have hx := x.toNat_lt
    simp only [List.mem_singleton,forall_eq]
    omega
  | case3 x y rest ih =>
    have hx := x.toNat_lt
    have hy := y.toNat_lt
    rw [List.forall_mem_cons]
    exact ⟨by omega,ih⟩

theorem sum_eq_reduce (bytes : List UInt8) : sum bytes = reduce (words bytes).sum := by
  have hfold : ∀ (ws : List ℕ) (acc : ℕ), (∀ w ∈ ws, w ≤ 65535) → acc ≤ 65535 →
      ws.foldl add acc = reduce (acc+ws.sum) := by
    intro ws
    induction ws with
    | nil => exact fun acc _ hacc => (reduce_of_lt (by simp; omega)).symm
    | cons w ws ih =>
      intro acc hws hacc
      obtain ⟨hw,hws⟩ := List.forall_mem_cons.mp hws
      have hadd := add_eq_reduce hacc hw
      rw [List.foldl_cons,ih _ hws (hadd ▸ reduce_le _),hadd,reduce_add,List.sum_cons,
        Nat.add_assoc]
  simpa [sum] using hfold (words bytes) 0 words_le (Nat.zero_le _)

end Bonded.OnesComplement
