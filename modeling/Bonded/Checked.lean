import Mathlib.Algebra.Group.Nat.Defs
import Mathlib.Data.List.Basic

/-! Operations that panic outside their range: indexing, slicing, copying into a slice, and
addition of 32-bit numbers. `none` is a panic. -/
namespace Bonded.Checked

variable {α : Type}

def index (xs : List α) (i : ℕ) : Option α := xs[i]?

/-- The slice from `a` up to `b`. -/
def slice (xs : List α) (a b : ℕ) : Option (List α) :=
  if a ≤ b ∧ b ≤ xs.length then some ((xs.take b).drop a) else none

/-- Overwrite the slice from `a` up to `b` by a list of the same length. -/
def copyFromSlice (xs : List α) (a b : ℕ) (new : List α) : Option (List α) :=
  if a ≤ b ∧ b ≤ xs.length ∧ new.length = b-a then some (xs.take a++new++xs.drop b) else none

def add32 (a b : ℕ) : Option ℕ := if a+b < 2^32 then some (a+b) else none

theorem index_of_lt {xs : List α} {i : ℕ} (h : i < xs.length) (d : α) :
    index xs i = some (xs.getD i d) := by
  simp [index,List.getD_eq_getElem?_getD,List.getElem?_eq_getElem h]

theorem slice_of_le {xs : List α} {a b : ℕ} (h : a ≤ b) (hb : b ≤ xs.length) :
    slice xs a b = some ((xs.take b).drop a) := if_pos ⟨h,hb⟩

theorem slice_of_lt {xs : List α} {a b : ℕ} (h : xs.length < b) : slice xs a b = none :=
  if_neg fun hab => absurd hab.2 (Nat.not_le.mpr h)

theorem copyFromSlice_of_le {xs new : List α} {a b : ℕ} (h : a+new.length = b)
    (hb : b ≤ xs.length) :
    copyFromSlice xs a b new = some (xs.take a++new++xs.drop b) :=
  if_pos ⟨by omega,hb,by omega⟩

theorem add32_of_lt {a b : ℕ} (h : a+b < 2^32) : add32 a b = some (a+b) := if_pos h

end Bonded.Checked
