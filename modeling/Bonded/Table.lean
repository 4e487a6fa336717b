import Mathlib.Algebra.Group.Nat.Defs
import Mathlib.Data.List.AList

/-! Finite tables: association lists in which no key occurs twice. A table is
read and written by key only; the order of its entries carries no meaning. -/
namespace Bonded

/-- A finite table from keys to values; the distinctness of its keys is part of the type. -/
def Table (κ ν : Type) : Type := AList (fun _ : κ => ν)

namespace Table
variable {κ ν : Type}

def empty : Table κ ν := (∅ : AList _)

instance : EmptyCollection (Table κ ν) := ⟨empty⟩

instance : Inhabited (Table κ ν) := ⟨empty⟩

/-- The entries as pairs, in the order of the underlying list. -/
def toList (t : Table κ ν) : List (κ × ν) := (AList.entries t).map fun e => (e.1,e.2)

def size (t : Table κ ν) : ℕ := (AList.entries t).length

variable [DecidableEq κ]

instance [DecidableEq ν] : DecidableEq (Table κ ν) := fun s t =>
  decidable_of_iff (AList.entries s = AList.entries t) ⟨AList.ext,congrArg AList.entries⟩

def get (t : Table κ ν) (k : κ) : Option ν := AList.lookup k t

/-- Write a key, replacing the value it had. -/
def set (t : Table κ ν) (k : κ) (v : ν) : Table κ ν := AList.insert k v t

def remove (t : Table κ ν) (k : κ) : Table κ ν := AList.erase k t

def contains (t : Table κ ν) (k : κ) : Bool := (t.get k).isSome

/-- Write a key only where the table has no value for it. -/
def orInsert (t : Table κ ν) (k : κ) (v : ν) : Table κ ν :=
  match t.get k with
  | some _ => t
  | none => t.set k v

/-- Keep the entries that satisfy the predicate. -/
def retain (t : Table κ ν) (p : κ → ν → Bool) : Table κ ν :=
  ⟨(AList.entries t).filter fun e => p e.1 e.2,
    List.Nodup.sublist (List.filter_sublist.map _) (AList.nodupKeys t)⟩

@[simp] theorem get_empty (k : κ) : (∅ : Table κ ν).get k = none := rfl

theorem get_set (t : Table κ ν) (k k' : κ) (v : ν) :
    (t.set k v).get k' = if k' = k then some v else t.get k' := by
  by_cases h : k' = k
  · subst h; simp only [if_true]; exact AList.lookup_insert t
  · rw [if_neg h]; exact AList.lookup_insert_ne h

@[simp] theorem get_set_self (t : Table κ ν) (k : κ) (v : ν) : (t.set k v).get k = some v := by
  simp [get_set]

theorem get_set_ne {t : Table κ ν} {k k' : κ} {v : ν} (h : k' ≠ k) :
    (t.set k v).get k' = t.get k' := by
  simp [get_set,h]

theorem get_remove (t : Table κ ν) (k k' : κ) :
    (t.remove k).get k' = if k' = k then none else t.get k' := by
  by_cases h : k' = k
  · subst h; simp only [if_true]; exact AList.lookup_erase k' t
  · rw [if_neg h]; exact AList.lookup_erase_ne h

@[simp] theorem get_remove_self (t : Table κ ν) (k : κ) : (t.remove k).get k = none := by
  simp [get_remove]

theorem get_remove_ne {t : Table κ ν} {k k' : κ} (h : k' ≠ k) :
    (t.remove k).get k' = t.get k' := by
  simp [get_remove,h]

theorem remove_eq_self {t : Table κ ν} {k : κ} (h : t.get k = none) : t.remove k = t :=
  AList.ext (List.kerase_of_notMem_keys (List.dlookup_eq_none.mp h))

theorem get_orInsert (t : Table κ ν) (k k' : κ) (v : ν) :
    (t.orInsert k v).get k' = if k' = k then some ((t.get k).getD v) else t.get k' := by
  by_cases h : k' = k
  · subst h; cases hk : t.get k' <;> simp [orInsert,hk]
  · cases hk : t.get k <;> simp [orInsert,hk,h,get_set]

theorem get_eq_some_iff (t : Table κ ν) (k : κ) (v : ν) :
    t.get k = some v ↔ (⟨k,v⟩ : (_ : κ) × ν) ∈ AList.entries t :=
  AList.mem_lookup_iff

theorem get_retain (t : Table κ ν) (p : κ → ν → Bool) (k : κ) :
    (t.retain p).get k = (t.get k).filter (p k) := by
  apply Option.ext
  intro v
  rw [get_eq_some_iff,Option.filter_eq_some_iff,get_eq_some_iff]
  simp [retain]

theorem contains_iff (t : Table κ ν) (k : κ) : t.contains k = true ↔ ∃ v, t.get k = some v :=
  Option.isSome_iff_exists

theorem mem_toList (t : Table κ ν) (k : κ) (v : ν) : (k,v) ∈ t.toList ↔ t.get k = some v := by
  rw [get_eq_some_iff]
  constructor
  · intro h
    obtain ⟨e,he,heq⟩ := List.mem_map.mp h
    cases heq
    exact he
  · intro h
    exact List.mem_map.mpr ⟨_,h,rfl⟩

omit [DecidableEq κ] in
theorem nodup_keys (t : Table κ ν) : (t.toList.map Prod.fst).Nodup := by
  have hkeys : t.toList.map Prod.fst = AList.keys t := by
    simp only [toList,List.map_map]
    rfl
  rw [hkeys]
  exact AList.keys_nodup t

theorem get_of_size_zero {t : Table κ ν} (h : t.size = 0) (k : κ) : t.get k = none := by
  cases hk : t.get k with
  | none => rfl
  | some v =>
    have hm := (get_eq_some_iff t k v).mp hk
    rw [List.length_eq_zero_iff.mp h] at hm
    cases hm

omit [DecidableEq κ] in
theorem length_toList (t : Table κ ν) : t.toList.length = t.size := by
  simp [toList,size]

omit [DecidableEq κ] in
theorem size_retain (t : Table κ ν) (p : κ → ν → Bool) :
    (t.retain p).size = (t.toList.filter fun e => p e.1 e.2).length := by
  simp only [size,retain,toList,List.filter_map,List.length_map]
  rfl

omit [DecidableEq κ] in
theorem retain_of_size_eq {t : Table κ ν} {p : κ → ν → Bool}
    (h : (t.retain p).size = t.size) : t.retain p = t :=
  AList.ext (List.filter_sublist.eq_of_length h)

theorem size_remove {t : Table κ ν} {k : κ} {v : ν} (h : t.get k = some v) :
    (t.remove k).size + 1 = t.size := by
  have hk : k ∈ AList.keys t := AList.mem_keys.mp (AList.lookup_isSome.mp (by
    change (t.get k).isSome = true; simp [h]))
  have hl : (AList.keys (t.remove k)).length = (AList.keys t).length - 1 :=
    (congrArg List.length (AList.keys_erase k t)).trans (List.length_erase_of_mem hk)
  have hp : 0 < (AList.keys t).length := List.length_pos_of_mem hk
  simp only [AList.keys,List.keys,List.length_map] at hl hp
  simp only [size]
  omega

/-- Writing a list of values under their keys: the last value of a key stays. -/
theorem get_foldl_set (f : ν → κ) (xs : List ν) (t : Table κ ν) (k : κ) :
    (xs.foldl (fun t x => t.set (f x) x) t).get k =
      (xs.reverse.find? fun x => f x = k).or (t.get k) := by
  induction xs generalizing t with
  | nil => simp
  | cons x xs ih =>
    rw [List.foldl_cons,ih,List.reverse_cons,List.find?_append]
    cases hfind : xs.reverse.find? fun x => f x = k with
    | some y => simp
    | none =>
      by_cases hk : f x = k
      · simp [hk]
      · simp [get_set,hk,Ne.symm hk]

end Table

/-- One element of a list is replaced: what a partial map gives for the others is kept. -/
theorem filterMap_set {α β : Type} (f : α → Option β) {l : List α} {i : ℕ} {a : α}
    (h : l[i]? = some a) (b : α) :
    ∃ rest, (l.filterMap f).Perm ((f a).toList++rest) ∧
      ((l.set i b).filterMap f).Perm ((f b).toList++rest) := by
  obtain ⟨hlt,ha⟩ := List.getElem?_eq_some_iff.mp h
  have hsplit : ∀ c, ((l.take i++c::l.drop (i+1)).filterMap f).Perm
      ((f c).toList++((l.take i).filterMap f++(l.drop (i+1)).filterMap f)) := by
    intro c
    rw [List.filterMap_append,List.filterMap_cons]
    cases f c with
    | none => exact .rfl
    | some y => exact List.perm_middle
  refine ⟨(l.take i).filterMap f++(l.drop (i+1)).filterMap f,?_,?_⟩
  · have hl : l = l.take i++a::l.drop (i+1) := by
      rw [← ha,List.getElem_cons_drop,List.take_append_drop]
    nth_rewrite 1 [hl]
    exact hsplit a
  · rw [List.set_eq_take_append_cons_drop,if_pos hlt]
    exact hsplit b

end Bonded
