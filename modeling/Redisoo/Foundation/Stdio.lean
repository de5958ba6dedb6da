import Mathlib.Data.List.Basic

/-!
# Reading from C

`fgets` on the bytes that are left of a file, the number that `strtol` finds at the start
of a string, and the byte that `strchr` finds.
-/

namespace Redisoo
namespace Foundation
namespace Stdio

open List

def fgets : Nat -> List UInt8 -> List UInt8 × List UInt8
  | 0, p => ([], p)
  | _ + 1, [] => ([], [])
  | n + 1, b :: p =>
    if b = 10 then ([b], p)
    else (b :: (fgets n p).1, (fgets n p).2)

variable {rest : List UInt8} {b : UInt8} {line xs ys s : List UInt8} {n acc : Nat}

theorem fgets_line (hline : forall b, b ∈ line -> b ≠ 10) (hlen : line.length < n) :
    fgets n (line ++ 10 :: rest) = (line ++ [10], rest) := by
  induction line generalizing n with
  | nil =>
    rcases n with _ | n
    · exact absurd hlen (Nat.not_lt_zero _)
    · rfl
  | cons b line ih =>
    rcases n with _ | n
    · exact absurd hlen (Nat.not_lt_zero _)
    have hrest := ih (fun b' hb' => hline b' (mem_cons_of_mem b hb')) (Nat.lt_of_succ_lt_succ hlen)
    rw [cons_append, fgets, if_neg (hline b mem_cons_self), hrest]
    rfl

theorem fgets_end (hline : forall b, b ∈ line -> b ≠ 10) (hlen : line.length ≤ n) :
    fgets n line = (line, []) := by
  induction line generalizing n with
  | nil =>
    rcases n with _ | n
    · rfl
    · rfl
  | cons b line ih =>
    rcases n with _ | n
    · exact absurd hlen (Nat.not_succ_le_zero _)
    · have hrest := ih (fun b' hb' => hline b' (mem_cons_of_mem b hb'))
        (Nat.le_of_succ_le_succ hlen)
      rw [fgets, if_neg (hline b mem_cons_self), hrest]

def isspace (b : UInt8) : Bool :=
  b == 32 || (9 ≤ b && b ≤ 13)

def isDigit (b : UInt8) : Bool :=
  48 ≤ b.toNat && b.toNat ≤ 57

def digits : Nat -> List UInt8 -> Nat
  | acc, [] => acc
  | acc, b :: rest => if isDigit b then digits (acc * 10 + (b.toNat - 48)) rest else acc

def LONG_MAX : Int := 9223372036854775807

def LONG_MIN : Int := -9223372036854775808

def strtol (s : List UInt8) : Int :=
  match s.dropWhile isspace with
  | 45 :: rest => max (-(digits 0 rest : Int)) LONG_MIN
  | 43 :: rest => min (digits 0 rest) LONG_MAX
  | rest => min (digits 0 rest) LONG_MAX

theorem digits_append (hxs : forall b, b ∈ xs -> isDigit b) :
    digits acc (xs ++ ys) = digits (digits acc xs) ys := by
  induction xs generalizing acc with
  | nil => rfl
  | cons b xs ih =>
    rw [cons_append, digits, digits, if_pos (hxs b mem_cons_self), if_pos (hxs b mem_cons_self)]
    exact ih (fun b' hb' => hxs b' (mem_cons_of_mem b hb'))

theorem digits_ge (acc : Nat) (xs : List UInt8) : acc ≤ digits acc xs := by
  induction xs generalizing acc with
  | nil => exact Nat.le_refl _
  | cons b xs ih =>
    rw [digits]
    split
    · have h := ih (acc * 10 + (b.toNat - 48))
      lia
    · exact Nat.le_refl _

theorem digits_stop (hb : isDigit b = false) : digits acc (b :: rest) = acc := by
  rw [digits, if_neg (by rw [hb]; decide)]

theorem strtol_digits (hb : isDigit b) :
    strtol (b :: rest) = min (digits 0 (b :: rest) : Int) LONG_MAX := by
  have hrange : 48 ≤ b.toNat ∧ b.toNat ≤ 57 := by
    unfold isDigit at hb
    simpa using hb
  have hspace : isspace b = false := by
    unfold isspace
    have h32 : b ≠ 32 := by
      rintro rfl
      exact absurd hrange.left (by decide)
    have h13 : Not (b ≤ 13) := by
      intro h
      have h' : b.toNat ≤ 13 := h
      lia
    simp [h32, h13]
  have hminus : b ≠ 45 := by
    rintro rfl
    exact absurd hrange.left (by decide)
  have hplus : b ≠ 43 := by
    rintro rfl
    exact absurd hrange.left (by decide)
  unfold strtol
  rw [dropWhile_cons_of_neg (by rw [hspace]; decide)]
  split
  · rename_i heq
    cases heq
    exact absurd rfl hminus
  · rename_i heq
    cases heq
    exact absurd rfl hplus
  · rfl

def strchr (b : UInt8) : List UInt8 -> Option Nat
  | [] => none
  | x :: rest =>
    if x = b then some 0
    else if x = 0 then none
    else (strchr b rest).map (· + 1)

theorem strchr_none (h : forall x, x ∈ s -> x ≠ b) : strchr b s = none := by
  induction s with
  | nil => rfl
  | cons x s ih =>
    rw [strchr, if_neg (h x mem_cons_self), ih (fun y hy => h y (mem_cons_of_mem x hy))]
    split
    · rfl
    · rfl

theorem strchr_some (h : forall x, x ∈ s -> x ≠ b ∧ x ≠ 0) :
    strchr b (s ++ b :: rest) = some s.length := by
  induction s with
  | nil => exact if_pos rfl
  | cons x s ih =>
    have hx := h x mem_cons_self
    rw [cons_append, strchr, if_neg hx.left, if_neg hx.right,
      ih (fun y hy => h y (mem_cons_of_mem x hy))]
    rfl

end Stdio
end Foundation
end Redisoo
