import Mathlib.Data.List.Basic

/-!
# Tables and cells

What a lookup in an ordered table gives after an update, and memory cells at numeric
addresses.
-/

namespace Redisoo
namespace Foundation
namespace Table

section Lookup

variable {K V : Type} [Ord K] [Std.TransOrd K] [Std.LawfulEqOrd K] [DecidableEq K]
variable (t : Std.TreeMap K V)

theorem get_insert (k x : K) (v : V) : (t.insert k v)[x]? = if x = k then some v else t[x]? := by
  rw [Std.TreeMap.getElem?_insert]
  by_cases h : x = k
  · rw [if_pos h, if_pos (Std.compare_eq_iff_eq.mpr h.symm)]
  · rw [if_neg h, if_neg (fun heq => h (Std.compare_eq_iff_eq.mp heq).symm)]

theorem get_erase (k x : K) : (t.erase k)[x]? = if x = k then none else t[x]? := by
  rw [Std.TreeMap.getElem?_erase]
  by_cases h : x = k
  · rw [if_pos h, if_pos (Std.compare_eq_iff_eq.mpr h.symm)]
  · rw [if_neg h, if_neg (fun heq => h (Std.compare_eq_iff_eq.mp heq).symm)]

theorem get_insertIfNew (k x : K) (v : V) :
    (t.insertIfNew k v)[x]? = if x = k then some (t[k]?.getD v) else t[x]? := by
  rw [Std.TreeMap.getElem?_insertIfNew]
  by_cases h : x = k
  · subst h
    rw [if_pos rfl]
    by_cases hmem : x ∈ t
    · rw [if_neg (fun hnew => hnew.right hmem)]
      rw [Std.TreeMap.mem_iff_isSome_getElem?] at hmem
      rcases Option.isSome_iff_exists.mp hmem with ⟨w, hw⟩
      rw [hw]
      rfl
    · rw [if_pos ⟨Std.compare_eq_iff_eq.mpr rfl, hmem⟩, Std.TreeMap.getElem?_eq_none hmem]
      rfl
  · rw [if_neg h, if_neg (fun hnew => h (Std.compare_eq_iff_eq.mp hnew.left).symm)]

end Lookup

def put {V : Type} (cells : Nat -> Option V) (a : Nat) (v : Option V) : Nat -> Option V :=
  fun x => if x = a then v else cells x

theorem put_self {V : Type} (cells : Nat -> Option V) (a : Nat) (v : Option V) :
    put cells a v a = v :=
  if_pos rfl

theorem put_ne {V : Type} {cells : Nat -> Option V} {a x : Nat} {v : Option V} (h : x ≠ a) :
    put cells a v x = cells x :=
  if_neg h

end Table
end Foundation
end Redisoo
