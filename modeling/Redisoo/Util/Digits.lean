import Mathlib.Data.Nat.Digits.Lemmas
import Redisoo.Util.Decimal

/-!
# The number of digits

`sdigits10` counts the characters of a number without printing it, and
`ll2string` uses the count to write the number into its buffer.
-/

namespace Redisoo
namespace Util

open List

def digits10From : Nat -> Nat -> Nat
  | 0, _ => 0
  | fuel + 1, v =>
    if v < 10 then 1
    else if v < 100 then 2
    else if v < 1000 then 3
    else if v < 1000000000000 then
      if v < 100000000 then
        if v < 1000000 then
          if v < 10000 then 4 else 5 + (if v ≥ 100000 then 1 else 0)
        else 7 + (if v ≥ 10000000 then 1 else 0)
      else if v < 10000000000 then 9 + (if v ≥ 1000000000 then 1 else 0)
      else 11 + (if v ≥ 100000000000 then 1 else 0)
    else 12 + digits10From fuel (v / 1000000000000)

def digits10 (v : Nat) : Nat :=
  digits10From 2 v

def sdigits10 (v : Int) : Nat :=
  if v < 0 then digits10 v.natAbs + 1 else digits10 v.natAbs

variable {v k fuel value : Nat}

theorem decimal_length_eq (hlow : 10 ^ k ≤ v) (hhigh : v < 10 ^ (k + 1)) :
    (decimal v).length = k + 1 := by
  have hne : v ≠ 0 := by
    omega
  unfold decimal
  rw [if_neg hne, length_map, length_reverse]
  apply Nat.le_antisymm
  · exact (Nat.digits_length_le_iff (by decide) v).mpr hhigh
  · exact (Nat.lt_digits_length_iff (by decide) v).mpr hlow

theorem exists_pow_le_lt (h : 0 < v) : exists k, 10 ^ k ≤ v ∧ v < 10 ^ (k + 1) :=
  ⟨Nat.log 10 v, Nat.pow_log_le_self 10 (by omega), Nat.lt_pow_succ_log_self (by decide) v⟩

theorem digits10From_small (h : v < 1000000000000) :
    digits10From (fuel + 1) v = (decimal v).length := by
  by_cases hzero : v = 0
  · subst hzero
    rfl
  rw [digits10From]
  split_ifs
  all_goals exact (decimal_length_eq (by omega) (by omega)).symm

theorem digits10_eq (h : v ≤ ULLONG_MAX) : digits10 v = (decimal v).length := by
  unfold ULLONG_MAX at h
  by_cases hsmall : v < 1000000000000
  · exact digits10From_small hsmall
  -- twelve digits are cut off, and at most eight are left
  have hrest : digits10From 1 (v / 1000000000000) = (decimal (v / 1000000000000)).length :=
    digits10From_small (by omega)
  have hsplit : digits10 v = 12 + digits10From 1 (v / 1000000000000) := by
    unfold digits10
    rw [digits10From]
    simp only [show Not (v < 10) by omega, show Not (v < 100) by omega,
      show Not (v < 1000) by omega, hsmall, if_false]
  have hcut : (decimal v).length = 12 + (decimal (v / 1000000000000)).length := by
    rcases exists_pow_le_lt (show 0 < v / 1000000000000 by omega) with ⟨k, hlow, hhigh⟩
    have hlow' : 10 ^ (k + 12) ≤ v := by
      rw [Nat.pow_add]
      omega
    have hhigh' : v < 10 ^ (k + 12 + 1) := by
      have hpow : 10 ^ (k + 12 + 1) = 10 ^ (k + 1) * 10 ^ 12 := by
        rw [← Nat.pow_add]
      rw [hpow]
      omega
    rw [decimal_length_eq hlow hhigh, decimal_length_eq hlow' hhigh']
    omega
  rw [hsplit, hrest, hcut]

theorem sdigits10_eq {v : Int} (hv : LLONG_MIN ≤ v ∧ v ≤ LLONG_MAX) :
    sdigits10 v = (ll2string v).length := by
  unfold LLONG_MIN LLONG_MAX at hv
  rw [ll2string_eq_canonical]
  unfold sdigits10 canonical
  rw [digits10_eq (by unfold ULLONG_MAX; omega)]
  by_cases hneg : v < 0
  · rw [if_pos hneg, if_pos hneg, length_cons]
  · rw [if_neg hneg, if_neg hneg]

/-!
# The buffer of `ll2string`

`ll2stringInto` has the buffer and the returned length; the digits are taken in
pairs from a table and written from the last one backwards.
-/

def digits : Sds :=
  ["0001020304050607080910111213141516171819",
    "2021222324252627282930313233343536373839",
    "4041424344454647484950515253545556575859",
    "6061626364656667686970717273747576777879",
    "8081828384858687888990919293949596979899"].flatMap
    fun row => row.toList.map fun c => UInt8.ofNat c.toNat

def store (dst : Sds) (i : Nat) (b : UInt8) : Option Sds :=
  if i < dst.length then some (dst.set i b) else none

def storePair (dst : Sds) (next v : Nat) : Option Sds :=
  if next = 0 then none
  else (store dst next (digits.getD (v * 2 + 1) 0)).bind fun dst =>
    store dst (next - 1) (digits.getD (v * 2) 0)

def storeDigits : Nat -> Sds -> Nat -> Nat -> Option Sds
  | 0, _, _, _ => none
  | fuel + 1, dst, next, value =>
    if value ≥ 100 then
      if next < 2 then none
      else (storePair dst next (value % 100)).bind fun dst =>
        storeDigits fuel dst (next - 2) (value / 100)
    else if value < 10 then store dst next (digitByte value)
    else storePair dst next value

def ll2stringInto (dst : Sds) (svalue : Int) : Option (Sds × Nat) :=
  let value := svalue.natAbs
  let negative := decide (svalue < 0)
  let length := digits10 value + negative.toNat
  if length ≥ dst.length then some (dst, 0)
  else
    (store dst length 0).bind fun dst =>
      (storeDigits (value + 1) dst (length - 1) value).bind fun dst =>
        (if negative then store dst 0 45 else some dst).map fun dst => (dst, length)

theorem digits_pair : forall v, v < 100 ->
    digits.getD (v * 2 + 1) 0 = digitByte (v % 10) ∧ digits.getD (v * 2) 0 = digitByte (v / 10) := by
  decide +kernel

theorem store_at (a b : Sds) (x y : UInt8) :
    store (a ++ x :: b) a.length y = some (a ++ y :: b) := by
  simp [store]

theorem storePair_at (a b : Sds) (x y : UInt8) (hv : v < 100) :
    storePair (a ++ x :: y :: b) (a.length + 1) v =
      some (a ++ digitByte (v / 10) :: digitByte (v % 10) :: b) := by
  rcases digits_pair v hv with ⟨hlow, hhigh⟩
  have hsecond := store_at (a ++ [x]) b y (digitByte (v % 10))
  rw [length_append, append_assoc, append_assoc] at hsecond
  unfold storePair
  rw [if_neg (Nat.succ_ne_zero _), hlow, hhigh]
  exact (congrArg (Option.bind · _) hsecond).trans (store_at a _ x _)

theorem decimal_ne_nil (v : Nat) : decimal v ≠ [] := by
  unfold decimal
  split
  · exact cons_ne_nil _ _
  · rename_i h
    simpa [Nat.digits_ne_nil_iff_ne_zero] using h

theorem split_last_two {room : Sds} (h : room.length = k + 2) :
    exists front x y, room = front ++ [x, y] ∧ front.length = k := by
  rcases length_eq_two.mp (show (room.drop k).length = 2 by simp [h]) with ⟨x, y, hxy⟩
  refine ⟨room.take k, x, y, ?_, by simp [h]⟩
  rw [← hxy, take_append_drop]

theorem storeDigits_eq (hfuel : value < fuel) (a room b : Sds)
    (hroom : room.length = (decimal value).length) :
    storeDigits fuel (a ++ room ++ b) (a.length + room.length - 1) value =
      some (a ++ decimal value ++ b) := by
  induction fuel generalizing value room b with
  | zero => omega
  | succ fuel ih =>
    unfold storeDigits
    by_cases hbig : value ≥ 100
    · rw [decimal_pair hbig] at hroom ⊢
      rw [length_append] at hroom
      have hpos := length_pos_iff.mpr (decimal_ne_nil (value / 100))
      rcases split_last_two hroom with ⟨front, x, y, hfront, hlength⟩
      subst hfront
      have hpair := storePair_at (a ++ front) b x y (show value % 100 < 100 by omega)
      have hrest := ih (show value / 100 < fuel by omega) front
        (digitByte (value % 100 / 10) :: digitByte (value % 100 % 10) :: b) hlength
      have hnext : a.length + (front ++ [x, y]).length - 1 = (a ++ front).length + 1 := by
        simp [Nat.add_assoc]
      have hdst : a ++ (front ++ [x, y]) ++ b = a ++ front ++ x :: y :: b := by
        simp
      rw [if_pos hbig, hnext, hdst, hpair]
      have hdown : (a ++ front).length + 1 - 2 = a.length + front.length - 1 := by
        simp
      rw [if_neg (by rw [length_append]; omega), hdown, Option.bind_some, hrest]
      simp
    · rw [if_neg hbig]
      by_cases hsmall : value < 10
      · rw [if_pos hsmall]
        rw [decimal_digit hsmall] at hroom ⊢
        rcases length_eq_one_iff.mp hroom with ⟨x, hx⟩
        subst hx
        simpa using store_at a b x (digitByte value)
      · rw [if_neg hsmall]
        rw [decimal_split (by omega), decimal_digit (show value / 10 < 10 by omega)] at hroom ⊢
        rcases length_eq_two.mp hroom with ⟨x, y, hxy⟩
        subst hxy
        simpa using storePair_at a b x y (show value < 100 by omega)

theorem ll2stringInto_eq {v : Int} (hv : LLONG_MIN ≤ v ∧ v ≤ LLONG_MAX) (dst : Sds) :
    ll2stringInto dst v = some (if sdigits10 v < dst.length then
      (canonical v ++ 0 :: dst.drop (sdigits10 v + 1), sdigits10 v) else (dst, 0)) := by
  have hdigits : digits10 v.natAbs = (decimal v.natAbs).length := by
    unfold LLONG_MIN LLONG_MAX at hv
    exact digits10_eq (by unfold ULLONG_MAX; omega)
  have hlength : digits10 v.natAbs + (decide (v < 0)).toNat = sdigits10 v := by
    unfold sdigits10
    by_cases hneg : v < 0
    · simp [hneg]
    · simp [hneg]
  unfold ll2stringInto
  dsimp only
  rw [hlength]
  by_cases hroom : sdigits10 v < dst.length
  · rw [if_neg (Nat.not_le.mpr hroom), if_pos hroom]
    have hend : store dst (sdigits10 v) 0 =
        some (dst.take (sdigits10 v) ++ 0 :: dst.drop (sdigits10 v + 1)) := by
      unfold store
      rw [if_pos hroom, set_eq_take_append_cons_drop, if_pos hroom]
    have hfront : (dst.take (sdigits10 v)).length = sdigits10 v := by
      simpa using hroom.le
    rw [hend, Option.bind_some]
    generalize dst.take (sdigits10 v) = front at hfront ⊢
    unfold canonical
    generalize dst.drop (sdigits10 v + 1) = rest
    rw [← hlength, hdigits] at hfront ⊢
    by_cases hneg : v < 0
    · rw [if_pos hneg]
      rw [decide_eq_true hneg] at hfront ⊢
      cases front with
      | nil => cases hfront
      | cons sign room =>
        have hloop := storeDigits_eq (Nat.lt_succ_self v.natAbs) [sign] room (0 :: rest)
          (Nat.succ.inj hfront)
        rw [length_singleton, Nat.add_sub_cancel_left] at hloop
        change ((storeDigits _ ([sign] ++ room ++ 0 :: rest) _ _).bind _) = _
        rw [show (decimal v.natAbs).length + true.toNat - 1 = room.length from
          (Nat.succ.inj hfront).symm, hloop]
        rfl
    · rw [if_neg hneg]
      rw [decide_eq_false hneg] at hfront ⊢
      have hloop := storeDigits_eq (Nat.lt_succ_self v.natAbs) [] front (0 :: rest) hfront
      rw [hfront, length_nil, Nat.zero_add] at hloop
      change ((storeDigits _ ([] ++ front ++ 0 :: rest) _ _).bind _) = _
      rw [hloop]
      rfl
  · rw [if_pos (Nat.not_lt.mp hroom), if_neg hroom]

theorem int64_range (v : Int64) : LLONG_MIN ≤ v.toInt ∧ v.toInt ≤ LLONG_MAX := by
  have hlow := v.le_toInt
  have hhigh := v.toInt_lt
  unfold LLONG_MIN LLONG_MAX
  omega

theorem string2ll_eq_some_iff (s : Sds) (v : Int) :
    string2ll s = some v <-> exists i : Int64, i.toInt = v ∧ s = canonical v := by
  constructor
  · intro h
    have hrange := string2ll_range h
    unfold LLONG_MIN LLONG_MAX at hrange
    refine ⟨Int64.ofInt v, Int64.toInt_ofInt_of_le (by omega) (by omega), ?_⟩
    rw [← ll2string_eq_canonical, ll2string_string2ll h]
  · rintro ⟨i, rfl, rfl⟩
    rw [← ll2string_eq_canonical]
    exact string2ll_ll2string (int64_range i)

/-- Printing and parsing are inverse to each other, on all 64-bit integers and
the canonical decimals of them; a buffer that is too short is left as it is. -/
theorem decimal_conversion_bijective :
    (forall (v : Int64) (dst : Sds),
      (canonical v.toInt).length = sdigits10 v.toInt ∧
      ll2stringInto dst v.toInt = some (if sdigits10 v.toInt < dst.length then
        (canonical v.toInt ++ 0 :: dst.drop (sdigits10 v.toInt + 1), sdigits10 v.toInt)
        else (dst, 0)) ∧
      string2ll (canonical v.toInt) = some v.toInt) ∧
    forall (s : Sds) (v : Int),
      string2ll s = some v <-> exists i : Int64, i.toInt = v ∧ s = canonical v := by
  refine ⟨?_, string2ll_eq_some_iff⟩
  intro v dst
  refine ⟨?_, ll2stringInto_eq (int64_range v) dst, ?_⟩
  · rw [sdigits10_eq (int64_range v), ll2string_eq_canonical]
  · exact (string2ll_eq_some_iff _ _).mpr ⟨v, rfl, rfl⟩

end Util
end Redisoo
