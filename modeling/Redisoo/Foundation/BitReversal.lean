import Mathlib.Data.Nat.Bitwise
import Mathlib.Tactic.Ring

/-!
# Words in the order of their reversed bits

The rank of a word is the number its bits form when they are read backwards.
Words that agree on their low bits then form an interval of ranks, and a counter
that is incremented on its reversed bits walks through the ranks upwards.
-/

namespace Redisoo
namespace Foundation
namespace BitReversal

open BitVec

variable {w : Nat} (x : BitVec w)

def rank (x : BitVec w) : Nat :=
  x.reverse.toNat

theorem rank_lt : rank x < 2 ^ w := x.reverse.isLt

theorem testBit_rank (i : Nat) :
    (rank x).testBit i = (decide (i < w) && x.getLsbD (w - 1 - i)) := by
  unfold rank
  rw [testBit_toNat, getLsbD_reverse, getMsbD_eq_getLsbD]

@[simp] theorem rank_zero : rank (0 : BitVec w) = 0 := by
  apply Nat.eq_of_testBit_eq
  intro i
  rw [testBit_rank]
  simp

theorem rank_reverse : rank x.reverse = x.toNat := by
  unfold rank
  rw [reverse_reverse_eq]

theorem rank_injective {x y : BitVec w} (h : rank x = rank y) : x = y := by
  have hreverse : x.reverse = y.reverse := eq_of_toNat_eq h
  rw [← reverse_reverse_eq (x := x), hreverse, reverse_reverse_eq]

theorem rank_eq_zero_iff {x : BitVec w} : rank x = 0 <-> x = 0 := by
  constructor
  · intro h
    exact rank_injective (h.trans rank_zero.symm)
  · intro h
    rw [h]
    exact rank_zero

/-!
# Low bits
-/

variable {b : Nat}

theorem low_eq_iff (hb : b ≤ w) (x y : BitVec w) :
    x.toNat % 2 ^ b = y.toNat % 2 ^ b <-> rank x / 2 ^ (w - b) = rank y / 2 ^ (w - b) := by
  constructor
  · intro h
    apply Nat.eq_of_testBit_eq
    intro i
    rw [Nat.testBit_div_two_pow, Nat.testBit_div_two_pow, testBit_rank, testBit_rank]
    by_cases hi : i + (w - b) < w
    · have hbit := congrArg (fun n => n.testBit (w - 1 - (i + (w - b)))) h
      have hlow : w - 1 - (i + (w - b)) < b := by lia
      simp only [Nat.testBit_mod_two_pow, hlow, decide_true, Bool.true_and, testBit_toNat] at hbit
      rw [hbit]
    · simp [hi]
  · intro h
    apply Nat.eq_of_testBit_eq
    intro i
    rw [Nat.testBit_mod_two_pow, Nat.testBit_mod_two_pow]
    by_cases hi : i < b
    · have hbit := congrArg (fun n => n.testBit (b - 1 - i)) h
      have hhigh : b - 1 - i + (w - b) < w := by lia
      have hback : w - 1 - (b - 1 - i + (w - b)) = i := by lia
      simp only [Nat.testBit_div_two_pow, testBit_rank, hhigh, decide_true, Bool.true_and,
        hback] at hbit
      rw [testBit_toNat, testBit_toNat, hbit]
    · simp [hi]

/-!
# Counting on the reversed bits
-/

def lowMask (w b : Nat) : BitVec w :=
  BitVec.ofNat w (2 ^ b - 1)

theorem getLsbD_lowMask (i : Nat) (hi : i < w) : (lowMask w b).getLsbD i = decide (i < b) := by
  unfold lowMask
  rw [getLsbD_ofNat, Nat.testBit_two_pow_sub_one]
  simp [hi]

def advance (mask v : BitVec w) : BitVec w :=
  ((v ||| ~~~mask).reverse + 1).reverse

theorem rank_fill (hb : b ≤ w) (v : BitVec w) :
    rank (v ||| ~~~(lowMask w b)) = rank v / 2 ^ (w - b) * 2 ^ (w - b) + (2 ^ (w - b) - 1) := by
  have hones : 2 ^ (w - b) - 1 < 2 ^ (w - b) := by
    have := Nat.two_pow_pos (w - b)
    lia
  rw [← Nat.shiftRight_eq_div_pow, ← Nat.shiftLeft_eq, Nat.shiftLeft_add_eq_or_of_lt hones]
  apply Nat.eq_of_testBit_eq
  intro i
  rw [testBit_rank, Nat.testBit_or, Nat.testBit_shiftLeft, Nat.testBit_shiftRight,
    Nat.testBit_two_pow_sub_one, testBit_rank]
  by_cases hi : i < w
  · have hpos : w - 1 - i < w := by lia
    rw [getLsbD_or, getLsbD_not, getLsbD_lowMask _ hpos]
    by_cases hlow : i < w - b
    · have hover : Not (w - 1 - i < b) := by lia
      have hunder : Not (w - b ≤ i) := by lia
      simp [hi, hpos, hlow, hover]
    have hunder : w - 1 - i < b := by lia
    have hge : w - b ≤ i := by lia
    have hsum : w - b + (i - (w - b)) = i := by lia
    simp [hi, hlow, hunder, hge, hsum]
  · have hlow : Not (i < w - b) := by lia
    have hge : w - b ≤ i := by lia
    have hsum : w - b + (i - (w - b)) = i := by lia
    simp [hi, hlow, hge, hsum]

theorem rank_advance (hb : b ≤ w) (v : BitVec w) :
    rank (advance (lowMask w b) v) = (rank v / 2 ^ (w - b) + 1) * 2 ^ (w - b) % 2 ^ w := by
  have hfill := rank_fill hb v
  have hpos := Nat.two_pow_pos (w - b)
  have hsucc : rank v / 2 ^ (w - b) * 2 ^ (w - b) + (2 ^ (w - b) - 1) + 1 =
      (rank v / 2 ^ (w - b) + 1) * 2 ^ (w - b) := by
    rw [Nat.add_mul, Nat.one_mul]
    lia
  unfold advance
  rw [rank_reverse, toNat_add]
  change (rank (v ||| ~~~(lowMask w b)) + (1 : BitVec w).toNat) % 2 ^ w = _
  rw [hfill, ← hsucc]
  have hone : (1 : BitVec w).toNat = 1 % 2 ^ w := toNat_ofNat 1 w
  rw [hone, Nat.add_mod_mod]

theorem next_le (hb : b ≤ w) (v : BitVec w) : (rank v / 2 ^ (w - b) + 1) * 2 ^ (w - b) ≤ 2 ^ w := by
  have hsplit : 2 ^ w = 2 ^ b * 2 ^ (w - b) := by
    rw [← Nat.pow_add]
    congr 1
    lia
  have hlt : rank v / 2 ^ (w - b) < 2 ^ b := by
    apply Nat.div_lt_of_lt_mul
    rw [Nat.mul_comm, ← hsplit]
    exact rank_lt v
  rw [hsplit]
  exact Nat.mul_le_mul_right _ hlt

theorem between_eq_zero_iff {b' : Nat} (hbb' : b ≤ b') (hb' : b' ≤ w) {v : BitVec w}
    (hstart : 2 ^ (w - b') ∣ rank v) :
    v &&& (lowMask w b ^^^ lowMask w b') = 0#w <-> 2 ^ (w - b) ∣ rank v := by
  have hzero : forall i, i < w - b' -> (rank v).testBit i = false := by
    intro i hi
    have hmod := congrArg (fun n => n.testBit i) (Nat.mod_eq_zero_of_dvd hstart)
    simpa [Nat.testBit_mod_two_pow, hi] using hmod
  have hmask : forall i, i < w ->
      (lowMask w b ^^^ lowMask w b').getLsbD i = (decide (b ≤ i) && decide (i < b')) := by
    intro i hi
    rw [getLsbD_xor, getLsbD_lowMask i hi, getLsbD_lowMask i hi]
    by_cases hib : i < b
    · have hib' : i < b' := by lia
      have hge : Not (b ≤ i) := by lia
      simp [hib, hib', hge]
    · have hge : b ≤ i := by lia
      simp [hib, hge]
  constructor
  · intro h
    apply Nat.dvd_of_mod_eq_zero
    apply Nat.eq_of_testBit_eq
    intro i
    rw [Nat.testBit_mod_two_pow, Nat.zero_testBit]
    by_cases hi : i < w - b
    · by_cases hlow : i < w - b'
      · simp [hzero i hlow]
      have hpos : w - 1 - i < w := by lia
      have hge : b ≤ w - 1 - i := by lia
      have hlt : w - 1 - i < b' := by lia
      have hbit := congrArg (fun x => x.getLsbD (w - 1 - i)) h
      simp only [getLsbD_and, hmask _ hpos, hge, hlt, decide_true,
        Bool.and_true, getLsbD_zero] at hbit
      rw [testBit_rank, hbit]
      simp
    · simp [hi]
  · intro h
    apply eq_of_getLsbD_eq
    intro i hi
    rw [getLsbD_and, hmask i hi, getLsbD_zero]
    by_cases hin : b ≤ i ∧ i < b'
    · have hback : w - 1 - (w - 1 - i) = i := by lia
      have hpos : w - 1 - i < w := by lia
      have hlow : w - 1 - i < w - b := by lia
      have hbit := congrArg (fun n => n.testBit (w - 1 - i)) (Nat.mod_eq_zero_of_dvd h)
      simp only [Nat.testBit_mod_two_pow, hlow, decide_true, Bool.true_and,
        testBit_rank, hpos, hback, Nat.zero_testBit] at hbit
      simp [hbit]
    · have hout : (decide (b ≤ i) && decide (i < b')) = false := by
        by_cases hge : b ≤ i
        · have hlt : Not (i < b') := fun hlt => hin ⟨hge, hlt⟩
          simp [hlt]
        · simp [hge]
      simp [hout]

end BitReversal
end Foundation
end Redisoo
