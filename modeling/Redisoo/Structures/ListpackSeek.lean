import Redisoo.Structures.ListpackRun

/-!
# Seeking in a listpack

Backward lengths, the steps in both directions, and `lpSeek`.
-/

namespace Redisoo
namespace Listpack

open Foundation Foundation.Bytes List

def backlenBytes (before : List UInt8) : Nat :=
  (before.takeWhile fun b => 128 ≤ b.toNat).length + 1

def lpElementBack (lp : List UInt8) : Nat -> Option (Option Nat)
  | 0 => lpLast lp
  | i + 1 => do
      match ← lpElementBack lp i with
      | none => some none
      | some p => lpPrev lp p

def lpSeek (lp : List UInt8) (index : Int) : Option (Option Nat) := do
  let numele ← lpGetNumElements lp
  if numele ≠ LP_HDR_NUMELE_UNKNOWN then
    let index := if index < 0 then numele + index else index
    if index < 0 then some none
    else if index ≥ numele then some none
    else if index > (numele / 2 : Nat) then lpElementBack lp (-1 - (index - numele)).toNat
    else lpElement lp index.toNat
  else if index < 0 then lpElementBack lp (-1 - index).toNat
  else lpElement lp index.toNat

theorem backlenBytes_encode {l : Nat} (hl : l < 2 ^ 35) (before : List UInt8) :
    backlenBytes ((lpEncodeBacklen l).reverse ++ before) = (lpEncodeBacklen l).length := by
  unfold backlenBytes lpEncodeBacklen
  split_ifs
  all_goals
    simp [takeWhile_cons, more_toNat]
    omega

variable {es : List Sds} {lp : List UInt8}

section

variable (h : Packs es lp)
include h

theorem Packs.next {i : Nat} (hi : i < es.length) :
    lpNext lp (offset es i) = some (lpPointer es (i + 1)) := by
  have hnext := h.element (i + 1)
  simp only [lpElement, h.element i, lpPointer, if_pos hi] at hnext
  exact hnext

theorem Packs.prev {i : Nat} (hi : i ≤ es.length) :
    lpPrev lp (offset es i) = some (if i = 0 then none else some (offset es (i - 1))) := by
  rcases h.form with ⟨count, rfl, _⟩
  cases i with
  | zero => rfl
  | succ i =>
    have hprev : lpPrev (packed count (_ ++ es.drop (i + 1))) _ = _ :=
      lpPrev_entry count (es.take i) (h.short _ (getElem_mem hi))
    rw [← take_succ_eq_append_getElem hi, take_append_drop] at hprev
    exact hprev

theorem Packs.elementBack (i : Nat) : lpElementBack lp i =
    some (if i < es.length then some (offset es (es.length - 1 - i)) else none) := by
  induction i with
  | zero =>
    have hend : bytes es - 1 = offset es es.length := by
      rw [offset, take_length, behind, bytes, LP_HDR_SIZE]
      lia
    simp only [lpElementBack, lpLast, bind, h.readsAs.total, h.readsAs.bytes, Option.bind_some,
      hend, h.prev (Nat.le_refl _)]
    grind
  | succ i ih =>
    by_cases hi : i < es.length
    · simp only [lpElementBack, ih, if_pos hi, bind, Option.bind_some]
      rw [h.prev (by lia)]
      grind
    · simp only [lpElementBack, ih, if_neg hi, bind, Option.bind_some]
      grind

theorem Packs.seek (i : Int) : lpSeek lp i =
    some (if 0 ≤ i then lpPointer es i.toNat
      else if -es.length ≤ i then lpPointer es (es.length + i).toNat else none) := by
  have hcount : exists numele, lpGetNumElements lp = some numele ∧
      (numele ≠ LP_HDR_NUMELE_UNKNOWN -> numele = es.length) := by
    rcases h.readsAs.count with hknown | hunknown
    · exact ⟨_, hknown, fun _ => rfl⟩
    · exact ⟨_, hunknown, fun hne => absurd rfl hne⟩
  rcases hcount with ⟨numele, hget, hnumele⟩
  simp only [lpSeek, hget, bind, Option.bind_some, h.element, h.elementBack, lpPointer]
  -- Without a count the direction is the sign of the index, with one the nearer end.
  by_cases hunknown : numele = LP_HDR_NUMELE_UNKNOWN
  · grind
  · rw [if_pos hunknown, hnumele hunknown]
    grind

end

end Listpack

open Listpack

/-- A backward length is read back from its end, in as many bytes as were written.  In every
listpack, the next of an element has it as its previous, and `lpSeek` gives the element at
an index from either end and `NULL` otherwise, whether or not the header has the count. -/
theorem listpack_seek_exact :
    (forall l, l < 2 ^ 35 -> forall before,
      lpDecodeBacklen ((lpEncodeBacklen l).reverse ++ before) = some l ∧
        backlenBytes ((lpEncodeBacklen l).reverse ++ before) = (lpEncodeBacklen l).length) ∧
    forall es lp, Packs es lp ->
      (forall i, i + 1 < es.length -> lpNext lp (offset es i) = some (some (offset es (i + 1))) ∧
        lpPrev lp (offset es (i + 1)) = some (some (offset es i))) ∧
      forall i : Int, lpSeek lp i = some (if 0 ≤ i then lpPointer es i.toNat
        else if -es.length ≤ i then lpPointer es (es.length + i).toNat else none) := by
  refine ⟨fun l hl before => ⟨lpDecodeBacklen_encode hl before, backlenBytes_encode hl before⟩, ?_⟩
  intro es lp h
  refine ⟨fun i hi => ⟨?_, ?_⟩, h.seek⟩
  · rw [h.next (by lia), lpPointer, if_pos hi]
  · exact h.prev (by lia)

theorem listpack_seek_exact_pair :
    lpSeek (packed LP_HDR_NUMELE_UNKNOWN [[97], [98, 98]]) (-1) = some (some 9) ∧
      lpDecodeBacklen (lpEncodeBacklen 300).reverse = some 300 := by
  have hpacks : Packs [[97], [98, 98]] (packed LP_HDR_NUMELE_UNKNOWN [[97], [98, 98]]) :=
    ⟨by decide, by simp [Short], _, rfl, by decide, Or.inr rfl⟩
  have hback := (listpack_seek_exact.left 300 (by decide) []).left
  rw [List.append_nil] at hback
  exact ⟨(listpack_seek_exact.right _ _ hpacks).right (-1), hback⟩

end Redisoo
