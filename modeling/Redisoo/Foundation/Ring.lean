import Mathlib.Data.List.Basic

/-!
# Circular buffers

A buffer of `size` cells is written from an index on and around its end.  A history is
kept with its newest element first; `Holds` says that the cells before the index are the
newest elements of a history.
-/

namespace Redisoo
namespace Foundation
namespace Ring

open List

variable {α : Type}

def memcpy (buf : Nat -> α) (start : Nat) (p : List α) : Nat -> α :=
  fun i => if start ≤ i then (p[i - start]?).getD (buf i) else buf i

def slice (buf : Nat -> α) (start n : Nat) : List α :=
  (List.range n).map fun k => buf (start + k)

def back (size idx i : Nat) : Nat :=
  if i < idx then idx - 1 - i else idx + size - 1 - i

structure Holds (size : Nat) (buf : Nat -> α) (idx n : Nat) (hist : List α) : Prop where
  bound : idx < size
  cell : forall i, i < n -> i < size -> hist[i]? = some (buf (back size idx i))

theorem memcpy_inside {buf : Nat -> α} {start : Nat} {p : List α} {i : Nat} (hlow : start ≤ i)
    (hhigh : i < start + p.length) : p[i - start]? = some (memcpy buf start p i) := by
  unfold memcpy
  rw [if_pos hlow, List.getElem?_eq_getElem (by lia : i - start < p.length)]
  rfl

variable {buf : Nat -> α} {idx n size : Nat} {hist : List α}

theorem memcpy_outside {start : Nat} {p : List α} {i : Nat} (h : i < start ∨ start + p.length ≤ i) :
    memcpy buf start p i = buf i := by
  unfold memcpy
  split
  · rw [List.getElem?_eq_none (by lia : p.length ≤ i - start)]
    rfl
  · rfl

theorem Holds.start (buf : Nat -> α) (hsize : 0 < size) (hist : List α) :
    Holds size buf 0 0 hist where
  bound := hsize
  cell := fun i hi => absurd hi (Nat.not_lt_zero i)

theorem Holds.mono {m : Nat} (h : Holds size buf idx n hist) (hm : m ≤ n) :
    Holds size buf idx m hist where
  bound := h.bound
  cell := fun i hi => h.cell i (Nat.lt_of_lt_of_le hi hm)

theorem Holds.write {p : List α} (h : Holds size buf idx n hist) (hp : idx + p.length ≤ size) :
    Holds size (memcpy buf idx p) (if idx + p.length = size then 0 else idx + p.length)
      (n + p.length) (p.reverse ++ hist) := by
  have hbound := h.bound
  constructor
  · split
    · lia
    · lia
  intro i hi hsize
  -- the cell is one of the new ones or one of the old ones, which are not overwritten
  have hback : back size (if idx + p.length = size then 0 else idx + p.length) i =
      if i < p.length then idx + p.length - 1 - i else back size idx (i - p.length) := by
    unfold back
    split <;> split <;> split <;> lia
  rw [hback]
  by_cases hnew : i < p.length
  · rw [if_pos hnew, List.getElem?_append_left (by rw [length_reverse]; exact hnew),
      List.getElem?_reverse hnew]
    have hcell := @memcpy_inside α buf idx p (idx + p.length - 1 - i) (by lia) (by lia)
    rw [← hcell]
    congr 1
    lia
  · rw [if_neg hnew, List.getElem?_append_right (by rw [length_reverse]; lia),
      length_reverse, memcpy_outside]
    · exact h.cell (i - p.length) (by lia) (by lia)
    unfold back
    split
    · lia
    · lia

theorem Holds.rewind {delta : Nat} (h : Holds size buf idx n hist) (hdelta : delta ≤ size)
    (hn : n ≤ size) :
    Holds size buf ((idx + (size - delta)) % size) (n - delta) (hist.drop delta) := by
  have hbound := h.bound
  have hidx : (idx + (size - delta)) % size =
      if idx + (size - delta) < size then idx + (size - delta) else idx - delta := by
    split
    · next hlt => exact Nat.mod_eq_of_lt hlt
    · next hge =>
      rw [Nat.mod_eq_sub_mod (by lia), Nat.mod_eq_of_lt (by lia)]
      lia
  constructor
  · exact Nat.mod_lt _ (by lia)
  intro i hi hsize
  rw [List.getElem?_drop, h.cell (delta + i) (by lia) (by lia), hidx]
  congr 2
  unfold back
  split <;> split <;> split <;> lia

theorem Holds.read {size idx n m : Nat} (h : Holds size buf idx n hist) (hm : m ≤ n)
    (hn : n ≤ size) : (hist.take m).reverse =
      if m ≤ idx then slice buf (idx - m) m
      else slice buf (idx + size - m) (m - idx) ++ slice buf 0 idx := by
  have hlen : m ≤ hist.length := by
    rcases Nat.eq_zero_or_pos m with hzero | hpos
    · lia
    · have hlast := h.cell (m - 1) (by lia) (by lia)
      have := (List.getElem?_eq_some_iff.mp hlast).choose
      lia
  have hcell : forall k, k < m ->
      (hist.take m).reverse[k]? = some (buf (back size idx (m - 1 - k))) := by
    intro k hk
    rw [List.getElem?_reverse (by rw [length_take]; lia), length_take,
      Nat.min_eq_left hlen, List.getElem?_take_of_lt (by lia)]
    exact h.cell (m - 1 - k) (by lia) (by lia)
  have htake : (hist.take m).reverse = (List.range m).map fun k => buf (back size idx (m - 1 - k)) := by
    apply ext_getElem?
    intro k
    by_cases hk : k < m
    · rw [hcell k hk, List.getElem?_map, List.getElem?_range hk]
      rfl
    · rw [List.getElem?_eq_none (by rw [length_reverse, length_take]; lia),
        List.getElem?_eq_none (by rw [length_map, length_range]; lia)]
  rw [htake]
  split
  · apply map_congr_left
    intro k hk
    rw [mem_range] at hk
    unfold back
    rw [if_pos (by lia)]
    congr 1
    lia
  · next hwrap =>
    have hm' : m = (m - idx) + idx := by lia
    conv_lhs => rw [hm', range_add, map_append, map_map]
    congr 1
    · apply map_congr_left
      intro k hk
      rw [mem_range] at hk
      unfold back
      rw [if_neg (by lia)]
      congr 1
      lia
    · apply map_congr_left
      intro k hk
      rw [mem_range] at hk
      change buf (back size idx (m - idx + idx - 1 - (m - idx + k))) = buf (0 + k)
      unfold back
      rw [if_pos (by lia)]
      congr 1
      lia

end Ring
end Foundation
end Redisoo
