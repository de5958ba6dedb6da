import Redisoo.Commands

/-!
# SORT with a constant BY pattern

A BY pattern without a star leaves a list or a sorted set in its order, and
`sortCommand` loads only the elements that LIMIT asks for.
-/

namespace Redisoo
namespace SortLimit

open List

inductive Kind where
  | list
  | zset

inductive Abort where
  | outOfMemory
  | assertion
  | readBeyondVector
deriving DecidableEq

def limits (len limitStart limitCount : Int) : Int × Int :=
  let start := max limitStart 0
  let stop := if limitCount < 0 then len - 1 else wrap64 (start + limitCount - 1)
  if start ≥ len then (len - 1, len - 2)
  else (start, if stop ≥ len then len - 1 else stop)

def vectorlen (len start stop : Int) : Int :=
  if start ≠ 0 ∨ stop ≠ len - 1 then Int.bmod (stop - start + 1) (2 ^ 32) else len

def firstIndex (desc : Bool) (len start : Int) : Kind -> Nat
  | .list => (if desc then len - start - 1 else start).toNat
  | .zset =>
    if start > 0 then (if desc then len - start else start + 1).toNat - 1
    else (if desc then len - 1 else 0).toNat

section

variable {ele : Type}

def walk (desc : Bool) (l : List ele) (index : Nat) : List ele :=
  if desc then (l.take (index + 1)).reverse else l.drop index

def loads (start stop : Int) : Kind -> Bool
  | .list => decide (stop ≥ start)
  | .zset => true

def load (kind : Kind) (desc : Bool) (l : List ele) (start stop : Int) : List ele :=
  if loads start stop kind then
    (walk desc l (firstIndex desc l.length start kind)).take
      (vectorlen l.length start stop).toNat
  else []

def output (vector : List ele) (start stop : Int) : Except Abort (Nat × List ele) :=
  if start ≤ stop ∧ stop ≥ vector.length then .error .readBeyondVector
  else .ok (((stop - start + 1) % 2 ^ 32).toNat,
    (vector.drop start.toNat).take (stop - start + 1).toNat)

def sortCommand (kind : Kind) (desc : Bool) (l : List ele) (limitStart limitCount : Int) :
    Except Abort (Nat × List ele) :=
  let start := (limits l.length limitStart limitCount).1
  let stop := (limits l.length limitStart limitCount).2
  let vector := load kind desc l start stop
  if vectorlen l.length start stop < 0 then .error .outOfMemory
  else if vector.length ≠ (vectorlen l.length start stop).toNat then .error .assertion
  else if loads start stop kind then output vector 0 (stop - start)
  else output vector start stop

def slice (desc : Bool) (l : List ele) (limitStart limitCount : Int) : List ele :=
  ((if desc then l.reverse else l).drop limitStart.toNat).take
    (if limitCount < 0 then l.length else limitCount.toNat)

def Fits (len limitStart limitCount : Int) : Prop :=
  limitCount < 0 ∨ max limitStart 0 + limitCount ≤ 2 ^ 63 ∨ len ≤ max limitStart 0

variable {kind : Kind} {desc : Bool} {l : List ele} {len limitStart limitCount start stop : Int}

theorem limits_fits (hlen : 0 ≤ len ∧ len < 2 ^ 31) (hcount : limitCount < 2 ^ 63)
    (h : Fits len limitStart limitCount) (hbounds : limits len limitStart limitCount = (start, stop)) :
    stop - start + 1 = (if limitCount < 0 then max (len - max limitStart 0) 0
      else min limitCount (max (len - max limitStart 0) 0)) ∧
      (start ≤ stop -> start = max limitStart 0) := by
  unfold Fits at h
  unfold limits wrap64 at hbounds
  dsimp only at hbounds
  rw [Int.bmod_def] at hbounds
  split_ifs at hbounds <;> cases hbounds <;> split_ifs <;> omega

theorem vectorlen_fits (h : 0 ≤ stop - start + 1 ∧ stop - start + 1 < 2 ^ 31) :
    vectorlen len start stop = stop - start + 1 := by
  unfold vectorlen
  rw [Int.bmod_def]
  split_ifs <;> omega

theorem vectorlen_overflows (hlen : len < 2 ^ 31) (hcount : limitCount < 2 ^ 63)
    (h : Not (Fits len limitStart limitCount))
    (hbounds : limits len limitStart limitCount = (start, stop)) :
    vectorlen len start stop < 0 := by
  unfold Fits at h
  unfold limits wrap64 at hbounds
  dsimp only at hbounds
  rw [Int.bmod_def] at hbounds
  have hwrapped : start = max limitStart 0 ∧ stop = start + limitCount - 1 - 2 ^ 64 := by
    split_ifs at hbounds <;> cases hbounds <;> omega
  unfold vectorlen
  rw [Int.bmod_def]
  split_ifs <;> omega

theorem length_slice : (slice desc l limitStart limitCount).length =
    min (if limitCount < 0 then l.length else limitCount.toNat) (l.length - limitStart.toNat) := by
  unfold slice
  cases desc <;> simp

theorem slice_eq_take : slice desc l limitStart limitCount =
    ((if desc then l.reverse else l).drop limitStart.toNat).take
      (slice desc l limitStart limitCount).length := by
  exact prefix_iff_eq_take.mp ( take_prefix _ _)

theorem walk_firstIndex {index : Nat} (h : index < l.length) :
    walk desc l (firstIndex desc l.length index kind) =
      (if desc then l.reverse else l).drop index := by
  have hindex : firstIndex desc l.length index kind =
      if desc then l.length - index - 1 else index := by
    unfold firstIndex
    cases kind <;> cases desc <;> grind
  rw [hindex]
  unfold walk
  cases desc with
  | false => rfl
  | true =>
    simp only [if_true]
    rw [drop_reverse, Nat.sub_add_cancel (by omega)]

theorem output_eq (h : start = 0 ∨ stop < start) (hspan : stop - start + 1 = l.length)
    (hlen : l.length < 2 ^ 31) : output l start stop = .ok (l.length, l) := by
  have hdrop : l.drop start.toNat = l := by
    rcases h with rfl | h
    · rfl
    · rw [length_eq_zero_iff.mp (show l.length = 0 by omega), drop_nil]
  unfold output
  rw [if_neg (by omega), hspan, Int.toNat_natCast, hdrop, take_length]
  congr
  omega

theorem sortCommand_fits (hlen : l.length < 2 ^ 31) (hcount : limitCount < 2 ^ 63)
    (h : Fits l.length limitStart limitCount) :
    sortCommand kind desc l limitStart limitCount =
      .ok ((slice desc l limitStart limitCount).length, slice desc l limitStart limitCount) := by
  unfold sortCommand
  cases hbounds : limits l.length limitStart limitCount with
  | mk start stop =>
  rcases limits_fits ⟨by omega, by omega⟩ hcount h hbounds with ⟨hspan, hstart⟩
  have hslice := @slice_eq_take ele desc l limitStart limitCount
  have hlength := @length_slice ele desc l limitStart limitCount
  generalize slice desc l limitStart limitCount = sent at hslice hlength ⊢
  have hspan : stop - start + 1 = sent.length := by
    rw [hspan, hlength]
    split <;> omega
  have hshort : sent.length + limitStart.toNat ≤ l.length ∨ sent.length = 0 := by
    omega
  have hload : load kind desc l start stop = sent := by
    unfold load
    rw [vectorlen_fits (by omega), hspan, Int.toNat_natCast]
    by_cases hnone : sent.length = 0
    · rw [length_eq_zero_iff.mp hnone]
      simp
    have hloads : loads start stop kind = true := by
      cases kind with
      | list => exact decide_eq_true (by omega)
      | zset => rfl
    have hfirst : start = limitStart.toNat := by
      rw [hstart (by omega)]
      omega
    rw [hloads, if_pos rfl, hfirst, walk_firstIndex (by omega), ← hslice]
  dsimp only
  rw [hload, vectorlen_fits (by omega), hspan, if_neg (by omega), if_neg (by simp)]
  split
  · exact output_eq (Or.inl rfl) (by omega) (by omega)
  · next hloads =>
    refine output_eq (Or.inr ?_) hspan (by omega)
    cases kind with
    | list => exact Int.not_le.mp (of_decide_eq_false (Bool.not_eq_true _ ▸ hloads))
    | zset => exact absurd rfl hloads

/-- The reply is the slice that LIMIT names, unless the end of it overflows. -/
theorem sort_constant_slice_iff (kind : Kind) (desc : Bool) (l : List ele)
    (hlen : l.length < 2 ^ 31) (limitStart limitCount : Int64) :
    sortCommand kind desc l limitStart.toInt limitCount.toInt =
      .ok ((slice desc l limitStart.toInt limitCount.toInt).length,
        slice desc l limitStart.toInt limitCount.toInt) <->
    Fits l.length limitStart.toInt limitCount.toInt := by
  constructor
  · intro hreply
    by_contra hfits
    have hnegative := vectorlen_overflows (by omega) limitCount.toInt_lt hfits
      (Prod.eta _).symm
    unfold sortCommand at hreply
    rw [if_pos hnegative] at hreply
    cases hreply
  · exact sortCommand_fits hlen limitCount.toInt_lt

theorem sort_constant_slice_iff_desc :
    sortCommand .zset true [1, 2, 3, 4, 5] (Int64.toInt 1) (Int64.toInt 2) = .ok (2, [4, 3]) :=
  (sort_constant_slice_iff .zset true [1, 2, 3, 4, 5] (by decide) 1 2).mpr
    (Or.inr (Or.inl (by decide)))

/-- The end wraps below zero, and so does the length of the vector. -/
theorem sort_limit_end_overflows :
    sortCommand .list false [1, 2, 3, 4, 5] 2 9223372036854775807 = .error .outOfMemory := by
  decide

end

end SortLimit
end Redisoo
