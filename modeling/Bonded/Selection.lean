import Mathlib.Data.List.Perm.Basic

/-! The part of a list that a predicate selects, and how changes of the list show in it. -/
namespace Bonded.Selection

variable {α β κ : Type} {p : α → Bool} {g : α → α}

/-- The place that the element at `i` has in the selected part. -/
def rank (p : α → Bool) (xs : List α) (i : ℕ) : ℕ := (xs.take i).countP p

@[simp] theorem rank_zero (xs : List α) : rank p xs 0 = 0 := rfl

theorem rank_cons_succ (x : α) (xs : List α) (i : ℕ) :
    rank p (x::xs) (i+1) = rank p xs i+if p x then 1 else 0 := by
  simp [rank,List.countP_cons]

theorem rank_length (xs : List α) : rank p xs xs.length = (xs.filter p).length := by
  simp [rank,List.countP_eq_length_filter]

variable {i : ℕ} {xs : List α}

theorem rank_append (h : i ≤ xs.length) (ys : List α) : rank p (xs++ys) i = rank p xs i := by
  rw [rank,List.take_append_of_le_length h,rank]

theorem length_filter_le_rank (h : xs.length ≤ i) (ys : List α) :
    (xs.filter p).length ≤ rank p (xs++ys) i := by
  rw [rank,List.take_append,List.take_of_length_le h,List.countP_append,
    List.countP_eq_length_filter]
  omega

theorem rank_modify (hg : ∀ x, p (g x) = p x) (xs : List α) (i j : ℕ) :
    rank p (xs.modify j g) i = rank p xs i := by
  induction xs generalizing i j with
  | nil => simp
  | cons x xs ih =>
    cases i with
    | zero => rfl
    | succ i =>
      cases j with
      | zero => rw [List.modify_zero_cons,rank_cons_succ,rank_cons_succ,hg]
      | succ j => rw [List.modify_succ_cons,rank_cons_succ,rank_cons_succ,ih]

theorem getElem?_filter_rank {x : α} (hx : xs[i]? = some x) (hp : p x = true) :
    (xs.filter p)[rank p xs i]? = some x := by
  induction xs generalizing i with
  | nil => simp at hx
  | cons y xs ih =>
    cases i with
    | zero =>
      simp only [List.getElem?_cons_zero,Option.some.injEq] at hx
      subst hx
      simp [hp]
    | succ i =>
      rw [rank_cons_succ,List.filter_cons]
      split
      · simpa using ih hx
      · simpa using ih hx

theorem filter_modify_of_pos (hg : ∀ x, p (g x) = p x) {x : α} (hx : xs[i]? = some x)
    (hp : p x = true) : (xs.modify i g).filter p = (xs.filter p).modify (rank p xs i) g := by
  induction xs generalizing i with
  | nil => simp at hx
  | cons y xs ih =>
    cases i with
    | zero =>
      simp only [List.getElem?_cons_zero,Option.some.injEq] at hx
      subst hx
      simp [hg,hp]
    | succ i =>
      rw [rank_cons_succ,List.modify_succ_cons,List.filter_cons,List.filter_cons,ih hx]
      split <;> simp

/-- A change of any other element does not show. -/
theorem filter_modify_of_neg (hg : ∀ x, p (g x) = p x) (hp : ∀ x, xs[i]? = some x → p x = false) :
    (xs.modify i g).filter p = xs.filter p := by
  induction xs generalizing i with
  | nil => simp
  | cons y xs ih =>
    cases i with
    | zero =>
      have hy := hp y rfl
      simp [hg,hy]
    | succ i =>
      have hxs : (xs.modify i g).filter p = xs.filter p := ih fun x hx => hp x hx
      rw [List.modify_succ_cons,List.filter_cons,List.filter_cons,hxs]

theorem getElem?_modify_some {g : α → α} {j : ℕ} {y : α} (h : (xs.modify i g)[j]? = some y) :
    ∃ x, xs[j]? = some x ∧ y = if j = i then g x else x := by
  rw [List.getElem?_modify] at h
  obtain ⟨x,hx,rfl⟩ := Option.map_eq_some_iff.mp h
  refine ⟨x,hx,?_⟩
  by_cases hij : i = j
  · simp [hij]
  · simp [hij,Ne.symm hij]

theorem map_modify {f : α → β} {g' : β → β} (h : ∀ x, f (g x) = g' (f x)) (xs : List α) (i : ℕ) :
    (xs.modify i g).map f = (xs.map f).modify i g' := by
  induction xs generalizing i with
  | nil => simp
  | cons x xs ih =>
    cases i with
    | zero => simp [h]
    | succ i => simp [ih]

theorem perm_of_filter_eq [DecidableEq κ] (key : α → κ) {ys : List α}
    (h : ∀ k, xs.filter (fun x => key x = k) = ys.filter fun x => key x = k) : xs.Perm ys := by
  classical
  refine List.perm_iff_count.mpr fun a => ?_
  have hcount : ∀ zs : List α, zs.count a = (zs.filter fun x => key x = key a).count a :=
    fun zs => (List.count_filter (by simp)).symm
  rw [hcount xs,hcount ys,h]

/-- Only the list at place `a` contributes. -/
theorem flatMap_of_single {f : α → List β} {zs : List β} {a : ℕ}
    (h : ∀ i x, xs[i]? = some x → f x = if i = a then zs else []) :
    xs.flatMap f = if a < xs.length then zs else [] := by
  induction xs generalizing a with
  | nil => simp
  | cons x xs ih =>
    have hx := h 0 x rfl
    cases a with
    | zero =>
      have hrest : xs.flatMap f = [] := by
        refine List.flatMap_eq_nil_iff.mpr fun y hy => ?_
        obtain ⟨i,hi⟩ := List.mem_iff_getElem?.mp hy
        simpa using h (i+1) y (by simpa using hi)
      simp [hx,hrest]
    | succ a =>
      have hrest := ih (a := a) fun i y hy => by simpa using h (i+1) y (by simpa using hy)
      simp [hx,hrest]

end Bonded.Selection
