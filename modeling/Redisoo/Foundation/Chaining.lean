import Mathlib.Algebra.BigOperators.Group.Finset.Basic
import Mathlib.Algebra.Order.BigOperators.Group.Finset
import Mathlib.Data.Finset.Range
import Mathlib.Logic.Function.Basic

/-!
# Tables of chains

Association lists as they hang off the slots of a hash table, and tables of them
in which every key lies in the one slot an index function assigns to it.  Nothing
here depends on where the index comes from.
-/

namespace Redisoo
namespace Foundation
namespace Chaining

open List Function

variable {key val : Type _}

def keys (chain : List (key × val)) : List key :=
  chain.map Prod.fst

@[simp] theorem keys_nil : keys ([] : List (key × val)) = [] := rfl

@[simp] theorem keys_cons (e : key × val) (rest : List (key × val)) :
    keys (e :: rest) = e.1 :: keys rest := rfl

/-!
# Tables
-/

structure Placed (index : key -> Nat) (table : Nat -> List (key × val)) : Prop where
  home : forall i k, k ∈ keys (table i) -> i = index k
  nodup : forall i, (keys (table i)).Nodup

def total (size : Nat) (table : Nat -> List (key × val)) : Nat :=
  ∑ i ∈ Finset.range size, (table i).length

section Tables

variable {index : key -> Nat} {table : Nat -> List (key × val)} {size : Nat}

theorem placed_empty (index : key -> Nat) : Placed index (fun _ => ([] : List (key × val))) :=
  ⟨fun _ _ h => absurd h not_mem_nil, fun _ => nodup_nil⟩

variable {i : Nat}

theorem Placed.beyond (h : Placed index table) (hinside : forall k, index k < size) (hi : size ≤ i) :
    table i = [] := by
  cases hchain : table i with
  | nil => rfl
  | cons e rest =>
    have hk : e.1 ∈ keys (table i) := by
      rw [hchain]
      exact mem_cons_self
    have hlt := hinside e.1
    rw [← h.home i e.1 hk] at hlt
    exact absurd hlt (Nat.not_lt.mpr hi)

theorem Placed.update (h : Placed index table) {chain : List (key × val)}
    (hhome : forall k, k ∈ keys chain -> i = index k) (hnodup : (keys chain).Nodup) :
    Placed index (update table i chain) := by
  constructor
  · intro j k hk
    by_cases hj : j = i
    · subst hj
      rw [update_self] at hk
      exact hhome k hk
    · rw [update_of_ne hj] at hk
      exact h.home j k hk
  · intro j
    by_cases hj : j = i
    · subst hj
      rw [update_self]
      exact hnodup
    · rw [update_of_ne hj]
      exact h.nodup j

theorem total_update (table : Nat -> List (key × val)) (hi : i < size) (chain : List (key × val)) :
    total size (update table i chain) + (table i).length = total size table + chain.length := by
  have hmem : i ∈ Finset.range size := Finset.mem_range.mpr hi
  have hrest : ∑ j ∈ (Finset.range size).erase i, (update table i chain j).length =
      ∑ j ∈ (Finset.range size).erase i, (table j).length := by
    apply Finset.sum_congr rfl
    intro j hj
    rw [update_of_ne (Finset.ne_of_mem_erase hj)]
  unfold total
  rw [← Finset.add_sum_erase _ _ hmem, ← Finset.add_sum_erase (Finset.range size)
    (fun j => (table j).length) hmem, hrest, update_self]
  lia

@[simp] theorem total_empty (size : Nat) : total size (fun _ => ([] : List (key × val))) = 0 := by
  simp [total]

theorem total_eq_zero_iff : total size table = 0 <-> forall i, i < size -> table i = [] := by
  unfold total
  rw [Finset.sum_eq_zero_iff]
  constructor
  · intro h i hi
    exact length_eq_zero_iff.mp (h i (Finset.mem_range.mpr hi))
  · intro h i hi
    rw [h i (Finset.mem_range.mp hi)]
    rfl

theorem total_insert (table : Nat -> List (key × val)) (hi : i < size) (e : key × val) :
    total size (update table i (e :: table i)) = total size table + 1 := by
  have htotal := total_update table hi (e :: table i)
  rw [length_cons] at htotal
  lia

theorem Placed.clear (h : Placed index table) (i : Nat) :
    Placed index (Function.update table i []) :=
  h.update (fun _ hk => absurd hk not_mem_nil) nodup_nil

end Tables

/-!
# Chains
-/

variable [DecidableEq key]

def lookup : List (key × val) -> key -> Option val
  | [], _ => none
  | e :: rest, k => if e.1 = k then some e.2 else lookup rest k

def erase : List (key × val) -> key -> List (key × val)
  | [], _ => []
  | e :: rest, k => if e.1 = k then rest else e :: erase rest k

def assign (chain : List (key × val)) (k : key) (v : val) : List (key × val) :=
  chain.map fun e => if e.1 = k then (e.1, v) else e

@[simp] theorem lookup_nil (k : key) : lookup ([] : List (key × val)) k = none := rfl

theorem lookup_cons (e : key × val) (rest : List (key × val)) (k : key) :
    lookup (e :: rest) k = if e.1 = k then some e.2 else lookup rest k := rfl

variable {chain : List (key × val)} {k : key}

theorem lookup_eq_none_iff : lookup chain k = none <-> k ∉ keys chain := by
  induction chain with
  | nil => simp
  | cons e rest ih =>
    rw [lookup_cons]
    by_cases he : e.1 = k
    · simp [he]
    · simp [he, ih, Ne.symm he]

theorem mem_of_lookup {v : val} (h : lookup chain k = some v) : (k, v) ∈ chain := by
  induction chain with
  | nil => cases h
  | cons e rest ih =>
    rw [lookup_cons] at h
    by_cases he : e.1 = k
    · rw [if_pos he] at h
      injection h with hv
      have heq : e = (k, v) := by rw [← he, ← hv]
      rw [heq]
      exact mem_cons_self
    · rw [if_neg he] at h
      exact mem_cons_of_mem e (ih h)

theorem lookup_of_mem (hnodup : (keys chain).Nodup) {v : val} (h : (k, v) ∈ chain) :
    lookup chain k = some v := by
  induction chain with
  | nil => cases h
  | cons e rest ih =>
    rw [keys_cons, nodup_cons] at hnodup
    rw [lookup_cons]
    rcases mem_cons.mp h with heq | hrest
    · rw [← heq]
      simp
    have hk : k ∈ keys rest := mem_map.mpr ⟨(k, v), hrest, rfl⟩
    have hne : e.1 ≠ k := fun heq => hnodup.left (heq ▸ hk)
    rw [if_neg hne]
    exact ih hnodup.right hrest

theorem lookup_erase_same (hnodup : (keys chain).Nodup) (k : key) :
    lookup (erase chain k) k = none := by
  induction chain with
  | nil => rfl
  | cons e rest ih =>
    rw [keys_cons, nodup_cons] at hnodup
    by_cases he : e.1 = k
    · simp only [erase, if_pos he]
      rw [lookup_eq_none_iff, ← he]
      exact hnodup.left
    · simp only [erase, if_neg he, lookup_cons]
      exact ih hnodup.right

theorem lookup_erase_other (chain : List (key × val)) {k' : key} (h : k' ≠ k) :
    lookup (erase chain k) k' = lookup chain k' := by
  induction chain with
  | nil => rfl
  | cons e rest ih =>
    by_cases he : e.1 = k
    · have hne : e.1 ≠ k' := fun heq => h (heq.symm.trans he)
      simp only [erase, if_pos he, lookup_cons, if_neg hne]
    · simp only [erase, if_neg he, lookup_cons, ih]

theorem keys_erase_sublist (chain : List (key × val)) (k : key) :
    (keys (erase chain k)).Sublist (keys chain) := by
  induction chain with
  | nil => exact List.Sublist.refl _
  | cons e rest ih =>
    by_cases he : e.1 = k
    · simp only [erase, if_pos he, keys_cons]
      exact sublist_cons_self _ _
    · simp only [erase, if_neg he, keys_cons]
      exact ih.cons_cons _

theorem length_erase (h : k ∈ keys chain) : (erase chain k).length + 1 = chain.length := by
  induction chain with
  | nil => cases h
  | cons e rest ih =>
    by_cases he : e.1 = k
    · simp [erase, he]
    have hrest : k ∈ keys rest := by
      rcases mem_cons.mp h with heq | hrest
      · exact absurd heq.symm he
      · exact hrest
    simp [erase, he, ih hrest]

variable (chain)

@[simp] theorem keys_assign (k : key) (v : val) : keys (assign chain k v) = keys chain := by
  unfold keys assign
  rw [map_map]
  apply map_congr_left
  intro e _
  by_cases he : e.1 = k
  · simp [he]
  · simp [he]

@[simp] theorem length_assign (k : key) (v : val) : (assign chain k v).length = chain.length :=
  length_map _

theorem lookup_assign_other {k' : key} (v : val) (h : k' ≠ k) :
    lookup (assign chain k v) k' = lookup chain k' := by
  induction chain with
  | nil => rfl
  | cons e rest ih =>
    change lookup ((if e.1 = k then (e.1, v) else e) :: assign rest k v) k' = _
    rw [lookup_cons, lookup_cons, ih]
    by_cases he : e.1 = k
    · simp [he, Ne.symm h]
    · simp [he]

theorem lookup_assign_same (k : key) (v : val) :
    lookup (assign chain k v) k = (lookup chain k).map fun _ => v := by
  induction chain with
  | nil => rfl
  | cons e rest ih =>
    change lookup ((if e.1 = k then (e.1, v) else e) :: assign rest k v) k = _
    rw [lookup_cons, lookup_cons, ih]
    by_cases he : e.1 = k
    · simp [he]
    · simp [he]

variable {chain}

/-!
# Tables as maps
-/

def get (index : key -> Nat) (table : Nat -> List (key × val)) (k : key) : Option val :=
  lookup (table (index k)) k

section Placed

variable {index : key -> Nat} {table : Nat -> List (key × val)} {size : Nat} {i : Nat} {k : key}

theorem Placed.mem_iff (h : Placed index table) :
    k ∈ keys (table i) <-> i = index k ∧ get index table k ≠ none := by
  constructor
  · intro hk
    have hi := h.home i k hk
    refine ⟨hi, ?_⟩
    intro hnone
    rw [hi] at hk
    exact lookup_eq_none_iff.mp hnone hk
  · rintro ⟨hi, hsome⟩
    by_contra hk
    rw [hi] at hk
    exact hsome (lookup_eq_none_iff.mpr hk)

theorem get_update_slot (index : key -> Nat) (table : Nat -> List (key × val))
    (chain : List (key × val)) (hk : index k = i) :
    get index (update table i chain) k = lookup chain k := by
  unfold get
  rw [hk, update_self]

theorem get_update_other (index : key -> Nat) (table : Nat -> List (key × val))
    (chain : List (key × val)) (hk : index k ≠ i) :
    get index (update table i chain) k = get index table k := by
  unfold get
  rw [update_of_ne hk]

theorem Placed.insert (h : Placed index table) (hnew : get index table k = none) (v : val) :
    Placed index (Function.update table (index k) ((k, v) :: table (index k))) := by
  apply h.update
  · intro k' hk'
    rcases mem_cons.mp hk' with heq | hrest
    · rw [heq]
    · exact h.home _ k' hrest
  · rw [keys_cons, nodup_cons]
    exact ⟨lookup_eq_none_iff.mp hnew, h.nodup _⟩

theorem get_insert (index : key -> Nat) (table : Nat -> List (key × val)) (k : key)
    (v : val) (k' : key) :
    get index (update table (index k) ((k, v) :: table (index k))) k' =
      if k = k' then some v else get index table k' := by
  by_cases hindex : index k' = index k
  · rw [get_update_slot _ _ _ hindex, lookup_cons]
    unfold get
    rw [hindex]
  · have hne : k ≠ k' := fun heq => hindex (by rw [heq])
    rw [get_update_other _ _ _ hindex, if_neg hne]

theorem Placed.erase (h : Placed index table) (k : key) :
    Placed index (Function.update table (index k) (Chaining.erase (table (index k)) k)) := by
  apply h.update
  · intro k' hk'
    exact h.home _ k' ((keys_erase_sublist _ k).subset hk')
  · exact (h.nodup _).sublist (keys_erase_sublist _ k)

theorem Placed.get_erase (h : Placed index table) (k k' : key) :
    get index (Function.update table (index k)
        (Chaining.erase (table (index k)) k)) k' =
      if k = k' then none else get index table k' := by
  by_cases hindex : index k' = index k
  · rw [get_update_slot _ _ _ hindex]
    by_cases hk : k = k'
    · rw [if_pos hk, ← hk]
      exact lookup_erase_same (h.nodup _) k
    · rw [if_neg hk, lookup_erase_other _ (Ne.symm hk)]
      unfold get
      rw [hindex]
  · have hne : k ≠ k' := fun heq => hindex (by rw [heq])
    rw [get_update_other _ _ _ hindex, if_neg hne]

theorem total_erase (table : Nat -> List (key × val)) (hi : i < size) (hk : k ∈ keys (table i)) :
    total size (update table i (erase (table i) k)) + 1 = total size table := by
  have htotal := total_update table hi (erase (table i) k)
  have hlength := length_erase hk
  lia

theorem Placed.assign (h : Placed index table) (k : key) (v : val) :
    Placed index (fun i => Chaining.assign (table i) k v) := by
  constructor
  · intro i k' hk'
    rw [keys_assign] at hk'
    exact h.home i k' hk'
  · intro i
    rw [keys_assign]
    exact h.nodup i

theorem get_assign (index : key -> Nat) (table : Nat -> List (key × val)) (k : key)
    (v : val) (k' : key) :
    get index (fun i => Chaining.assign (table i) k v) k' =
      if k = k' then (get index table k').map (fun _ => v)
      else get index table k' := by
  unfold get
  by_cases hk : k = k'
  · rw [if_pos hk, ← hk]
    exact lookup_assign_same _ k v
  · rw [if_neg hk]
    exact lookup_assign_other _ v (Ne.symm hk)

theorem Placed.get_clear (i : Nat) (k : key) :
    get index (Function.update table i []) k = if index k = i then none else get index table k := by
  by_cases hk : index k = i
  · rw [get_update_slot _ _ _ hk, if_pos hk]
    rfl
  · rw [get_update_other _ _ _ hk, if_neg hk]

/-!
# The entries in the order of the slots
-/

def entries (size : Nat) (table : Nat -> List (key × val)) : List (key × val) :=
  (List.range size).flatMap table

omit [DecidableEq key] in
theorem entries_length (size : Nat) (table : Nat -> List (key × val)) :
    (entries size table).length = total size table := by
  unfold entries total
  induction size with
  | zero => rfl
  | succ size ih =>
    rw [range_succ, flatMap_append, length_append, ih, Finset.sum_range_succ, flatMap_singleton]

omit [DecidableEq key] in
theorem Placed.entries_nodup (h : Placed index table) (size : Nat) :
    (keys (entries size table)).Nodup := by
  unfold keys entries
  rw [map_flatMap, nodup_flatMap]
  constructor
  · exact fun i _ => h.nodup i
  · refine nodup_range.imp_of_mem ?_
    intro i j _ _ hne k hi hj
    exact hne ((h.home i k hi).trans (h.home j k hj).symm)

theorem Placed.mem_entries (h : Placed index table) (hinside : forall k, index k < size)
    (k : key) (v : val) : (k, v) ∈ entries size table <-> get index table k = some v := by
  unfold entries
  rw [mem_flatMap]
  constructor
  · rintro ⟨i, _, hin⟩
    have hi := h.home i k (mem_map.mpr ⟨(k, v), hin, rfl⟩)
    rw [hi] at hin
    exact lookup_of_mem (h.nodup _) hin
  · intro hget
    exact ⟨index k, mem_range.mpr (hinside k), mem_of_lookup hget⟩

end Placed

end Chaining
end Foundation
end Redisoo
