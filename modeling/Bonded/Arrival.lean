import Mathlib.Data.List.Basic

/-! The longest run of items, from the start of a list, all of which have arrived. -/
namespace Bonded.Arrival

variable {α : Type} [DecidableEq α]

/-- Length of the longest initial segment of `sent` all of whose items are in `arrived`. -/
def prefixLength (sent arrived : List α) : ℕ :=
  (sent.takeWhile (fun x => decide (x ∈ arrived))).length

theorem prefixLength_le (sent arrived : List α) :
    prefixLength sent arrived ≤ sent.length :=
  (List.takeWhile_sublist _).length_le

@[simp] theorem prefixLength_nil (sent : List α) : prefixLength sent [] = 0 := by
  cases sent <;> simp [prefixLength]

theorem mem_of_lt_prefixLength (sent arrived : List α) (i : ℕ)
    (hi : i < prefixLength sent arrived) : ∃ x, sent[i]? = some x ∧ x ∈ arrived := by
  induction sent generalizing i with
  | nil => simp [prefixLength] at hi
  | cons y ys ih =>
    by_cases hy : y ∈ arrived
    · cases i with
      | zero => exact ⟨y,rfl,hy⟩
      | succ i => exact ih i (by simpa [prefixLength,List.takeWhile_cons,hy] using hi)
    · simp [prefixLength,hy] at hi

/-- The item at the end of the initial segment has not arrived. -/
theorem not_mem_at_prefixLength (sent arrived : List α) (x : α)
    (hx : sent[prefixLength sent arrived]? = some x) : x ∉ arrived := by
  induction sent with
  | nil => simp at hx
  | cons y ys ih =>
    by_cases hy : y ∈ arrived
    · simp only [prefixLength,List.takeWhile_cons,hy,decide_true,if_true,List.length_cons,
        List.getElem?_cons_succ] at hx
      exact ih hx
    · simp only [prefixLength,List.takeWhile_cons,hy,decide_false,Bool.false_eq_true,if_false,
        List.length_nil,List.getElem?_cons_zero,Option.some.injEq] at hx
      exact hx ▸ hy

theorem prefixLength_congr {sent arrived arrived' : List α}
    (h : ∀ x ∈ sent, x ∈ arrived ↔ x ∈ arrived') :
    prefixLength sent arrived = prefixLength sent arrived' := by
  induction sent with
  | nil => rfl
  | cons y ys ih =>
    have hy := h y (by simp)
    have hys := ih fun x hx => h x (by simp [hx])
    simp only [prefixLength,List.takeWhile_cons,hy] at hys ⊢
    split
    · simp [hys]
    · rfl

theorem prefixLength_append_le (sent arrived new : List α) :
    prefixLength sent arrived ≤ prefixLength sent (arrived++new) := by
  induction sent with
  | nil => exact Nat.le_refl _
  | cons y ys ih =>
    by_cases hy : y ∈ arrived
    · simpa [prefixLength,List.takeWhile_cons,hy] using ih
    · simp [prefixLength,List.takeWhile_cons,hy]

end Bonded.Arrival
