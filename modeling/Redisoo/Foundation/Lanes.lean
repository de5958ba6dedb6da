import Mathlib.Data.List.Nodup

/-!
# Lists with express lanes

The nodes of a skip list in order, each with an address and a height.  On lane `i`
a node of a greater height is followed by the next node of a greater height.
-/

namespace Redisoo
namespace Foundation
namespace Lanes

open List

structure Cell (item : Type) where
  addr : Nat
  height : Nat
  item : item

variable {item : Type}

def jump (i : Nat) : List (Cell item) -> Option Nat × Nat
  | [] => (none, 0)
  | c :: rest =>
    if i < c.height then (some c.addr, 1)
    else ((jump i rest).1, (jump i rest).2 + 1)

def Low (i : Nat) (cells : List (Cell item)) : Prop :=
  forall c, c ∈ cells -> c.height ≤ i

def Reaches (i : Nat) (cells : List (Cell item)) : Prop :=
  cells = [] ∨ exists front c, cells = front ++ [c] ∧ i < c.height

def lastAddr (cells : List (Cell item)) : Option Nat :=
  cells.getLast?.map Cell.addr

@[simp] theorem lastAddr_concat (cells : List (Cell item)) (c : Cell item) :
    lastAddr (cells ++ [c]) = some c.addr := by
  simp [lastAddr]

theorem low_nil (i : Nat) : Low i ([] : List (Cell item)) :=
  fun _ h => absurd h not_mem_nil

variable {i : Nat} {s : List (Cell item)} {t front r a p p' s' : List (Cell item)}

theorem low_append : Low i (s ++ t) <-> Low i s ∧ Low i t := by
  simp [Low, or_imp, forall_and]

theorem jump_append_of_low (h : Low i s) (t : List (Cell item)) :
    jump i (s ++ t) = ((jump i t).1, s.length + (jump i t).2) := by
  induction s with
  | nil => simp
  | cons c rest ih =>
    have hc : Not (i < c.height) := Nat.not_lt.mpr (h c mem_cons_self)
    rw [cons_append, jump, if_neg hc, ih (fun d hd => h d (mem_cons_of_mem c hd)), length_cons]
    dsimp only
    congr 1
    lia

theorem jump_of_low (h : Low i s) : jump i s = (none, s.length) := by
  have happ := jump_append_of_low h []
  rw [append_nil] at happ
  exact happ

theorem jump_cons_of_lt {c : Cell item} (h : i < c.height) (rest : List (Cell item)) :
    jump i (c :: rest) = (some c.addr, 1) :=
  if_pos h

theorem low_or_split (i : Nat) (s : List (Cell item)) :
    Low i s ∨ exists front c rest, s = front ++ c :: rest ∧ Low i front ∧ i < c.height := by
  induction s with
  | nil => exact Or.inl (low_nil i)
  | cons c rest ih =>
    by_cases hc : i < c.height
    · exact Or.inr ⟨[], c, rest, rfl, low_nil i, hc⟩
    have hlow : Low i [c] := by
      intro d hd
      rw [mem_singleton] at hd
      subst hd
      exact Nat.not_lt.mp hc
    rcases ih with hrest | ⟨front, d, tail, hsplit, hfront, hd⟩
    · exact Or.inl (low_append.mpr ⟨hlow, hrest⟩ : Low i ([c] ++ rest))
    · right
      refine ⟨c :: front, d, tail, by rw [hsplit]; rfl, ?_, hd⟩
      exact (low_append.mpr ⟨hlow, hfront⟩ : Low i ([c] ++ front))

theorem jump_split {c : Cell item} (hfront : Low i front) (hc : i < c.height)
    (rest : List (Cell item)) :
    jump i (front ++ c :: rest) = (some c.addr, front.length + 1) := by
  rw [jump_append_of_low hfront, jump_cons_of_lt hc]

theorem jump_append_of_not_low (h : Not (Low i s)) (t t' : List (Cell item)) :
    jump i (s ++ t) = jump i (s ++ t') := by
  rcases low_or_split i s with hlow | ⟨front, c, rest, hsplit, hfront, hc⟩
  · exact absurd hlow h
  · rw [hsplit, append_assoc, append_assoc, cons_append,
      cons_append, jump_split hfront hc, jump_split hfront hc]

theorem jump_span_le (i : Nat) (s : List (Cell item)) : (jump i s).2 ≤ s.length := by
  rcases low_or_split i s with hlow | ⟨front, c, rest, hsplit, hfront, hc⟩
  · exact Nat.le_of_eq (congrArg Prod.snd (jump_of_low hlow))
  · rw [hsplit, jump_split hfront hc, length_append, length_cons]
    lia

theorem nil_of_reaches (h : Reaches i (r ++ a)) (ha : Low i a) : a = [] := by
  rcases eq_nil_or_concat a with rfl | ⟨front, c, rfl⟩
  · rfl
  exfalso
  rw [concat_eq_append] at h ha
  have hc : c.height ≤ i := ha c (by simp)
  rcases h with hnil | ⟨front', d, hd, hlt⟩
  · simp at hnil
  rw [← append_assoc] at hd
  have hcd := (append_inj' hd rfl).right
  rw [List.cons.injEq] at hcd
  rw [← hcd.left] at hlt
  lia

theorem reaches_unique (hsplit : p ++ s = p' ++ s') (hp : Reaches i p) (hs : Low i s)
    (hp' : Reaches i p') (hs' : Low i s') : p = p' := by
  rcases append_eq_append_iff.mp hsplit with ⟨a, hpa, hsa⟩ | ⟨a, hpa, hsa⟩
  · rw [hsa, low_append] at hs
    rw [hpa] at hp'
    rw [hpa, nil_of_reaches hp' hs.left, append_nil]
  · rw [hsa, low_append] at hs'
    rw [hpa] at hp
    rw [hpa, nil_of_reaches hp hs'.left, append_nil]

theorem eq_of_lastAddr (hsplit : p ++ s = p' ++ s') (hnodup : ((p ++ s).map Cell.addr).Nodup)
    (hlast : lastAddr p = lastAddr p') : p = p' := by
  have hkey : forall {q r a t : List (Cell item)}, q = r ++ a ->
      ((q ++ t).map Cell.addr).Nodup -> lastAddr q = lastAddr r -> a = [] := by
    intro q r a t hq hnodup hlast
    rcases eq_nil_or_concat a with rfl | ⟨front, c, rfl⟩
    · rfl
    exfalso
    rw [concat_eq_append, ← append_assoc] at hq
    rw [hq, lastAddr_concat] at hlast
    rcases eq_nil_or_concat r with rfl | ⟨front', d, rfl⟩
    · cases hlast
    rw [concat_eq_append, lastAddr_concat] at hlast
    injection hlast with haddr
    rw [hq, concat_eq_append] at hnodup
    simp only [map_append, map_cons, append_assoc, cons_append, nil_append] at hnodup
    have hmid := (nodup_append.mp hnodup).right.left
    rw [nodup_cons] at hmid
    apply hmid.left
    rw [← haddr]
    simp
  rcases append_eq_append_iff.mp hsplit with ⟨a, hpa, hsa⟩ | ⟨a, hpa, hsa⟩
  · have ha : a = [] := hkey hpa (hsplit ▸ hnodup) hlast.symm
    subst ha
    simpa using hpa.symm
  · have ha : a = [] := hkey hpa hnodup hlast
    subst ha
    simpa using hpa

end Lanes
end Foundation
end Redisoo
