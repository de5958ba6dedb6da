import Mathlib.Data.Nat.Digits.Lemmas

/-!
# Decimal conversion of 64-bit integers

The string commands store a value that reads as a canonical signed 64-bit
decimal as an integer, and print it back when the value is read.  This module
models the two conversions of `util.c` and proves that printing what was parsed
gives the parsed bytes back.
-/

namespace Redisoo

abbrev Sds := List UInt8

namespace Util

def ULLONG_MAX : Nat := 18446744073709551615
def LLONG_MAX : Nat := 9223372036854775807
def LLONG_MIN : Int := -9223372036854775808

def digitByte (d : Nat) : UInt8 :=
  UInt8.ofNat (48 + d)

def isDigit (b : UInt8) : Bool :=
  48 ≤ b.toNat && b.toNat ≤ 57

def string2llDigits : Nat -> Sds -> Option Nat
  | v, [] => some v
  | v, b :: rest =>
    if isDigit b then
      if v > ULLONG_MAX / 10 then none
      else if v * 10 > ULLONG_MAX - (b.toNat - 48) then none
      else string2llDigits (v * 10 + (b.toNat - 48)) rest
    else none

def string2llUnsigned : Sds -> Option Nat
  | [] => none
  | b :: rest =>
    if 49 ≤ b.toNat && b.toNat ≤ 57 then
      string2llDigits (b.toNat - 48) rest
    else none

def string2ll (s : Sds) : Option Int :=
  if s = [48] then some 0
  else
    match s with
    | 45 :: rest =>
      match string2llUnsigned rest with
      | some v => if v > LLONG_MAX + 1 then none else some (-(v : Int))
      | none => none
    | _ =>
      match string2llUnsigned s with
      | some v => if v > LLONG_MAX then none else some (v : Int)
      | none => none

def ll2stringLoop : Nat -> Nat -> Sds -> Sds
  | 0, _, acc => acc
  | fuel + 1, value, acc =>
    if value ≥ 100 then
      ll2stringLoop fuel (value / 100)
        (digitByte (value % 100 / 10) :: digitByte (value % 10) :: acc)
    else if value < 10 then digitByte value :: acc
    else digitByte (value / 10) :: digitByte (value % 10) :: acc

def ll2string (svalue : Int) : Sds :=
  let value := svalue.natAbs
  let written := ll2stringLoop (value + 1) value []
  if svalue < 0 then 45 :: written else written

/-!
# Canonical decimals

`decimal` is the decimal numeral of a natural number.  The printing loop emits
it, and the parsing loop extends it digit by digit.
-/

def decimal (v : Nat) : Sds :=
  if v = 0 then [48] else (Nat.digits 10 v).reverse.map digitByte

variable {d v : Nat} {s : Sds}

theorem decimal_digit (hd : d < 10) : decimal d = [digitByte d] := by
  unfold decimal
  by_cases hzero : d = 0
  · subst d
    rfl
  · rw [if_neg hzero, Nat.digits_of_lt 10 d hzero hd]
    rfl

theorem decimal_snoc (hv : 0 < v) (hd : d < 10) :
    decimal (v * 10 + d) = decimal v ++ [digitByte d] := by
  have hne : v * 10 + d ≠ 0 := by omega
  have hvne : v ≠ 0 := by omega
  have hdigits : Nat.digits 10 (d + 10 * v) = d :: Nat.digits 10 v :=
    Nat.digits_add 10 (by decide) d v hd (Or.inr hvne)
  have hcomm : v * 10 + d = d + 10 * v := by omega
  unfold decimal
  rw [if_neg hne, if_neg hvne, hcomm, hdigits]
  simp

theorem decimal_split (h : 10 ≤ v) : decimal v = decimal (v / 10) ++ [digitByte (v % 10)] := by
  have hsplit : v = v / 10 * 10 + v % 10 := by omega
  conv => lhs; rw [hsplit]
  exact decimal_snoc (by omega) (by omega)

theorem decimal_pair (h : 100 ≤ v) :
    decimal v = decimal (v / 100) ++ [digitByte (v % 100 / 10), digitByte (v % 100 % 10)] := by
  have hdiv : v / 10 / 10 = v / 100 := by omega
  have hmod : v / 10 % 10 = v % 100 / 10 := by omega
  have hlast : v % 10 = v % 100 % 10 := by omega
  rw [decimal_split (by omega), decimal_split (show 10 ≤ v / 10 by omega), hdiv, hmod, hlast,
    List.append_assoc]
  rfl

theorem ll2stringLoop_eq {fuel value : Nat} (hfuel : value < fuel) (acc : Sds) :
    ll2stringLoop fuel value acc = decimal value ++ acc := by
  induction fuel generalizing value acc with
  | zero => omega
  | succ fuel ih =>
    unfold ll2stringLoop
    by_cases hbig : value ≥ 100
    · rw [if_pos hbig, ih (by omega), decimal_pair hbig]
      simp
    rw [if_neg hbig]
    by_cases hsmall : value < 10
    · rw [if_pos hsmall, decimal_digit hsmall]
      rfl
    · rw [if_neg hsmall, decimal_split (by omega), decimal_digit (show value / 10 < 10 by omega)]
      rfl

theorem ll2string_of_nonneg : ll2string (v : Int) = decimal v := by
  have hsign : Not ((v : Int) < 0) := by omega
  simp only [ll2string, Int.natAbs_natCast, if_neg hsign]
  rw [ll2stringLoop_eq (by omega), List.append_nil]

theorem ll2string_neg (hv : 0 < v) : ll2string (-(v : Int)) = 45 :: decimal v := by
  have hsign : -(v : Int) < 0 := by omega
  simp only [ll2string, Int.natAbs_neg, Int.natAbs_natCast, if_pos hsign]
  rw [ll2stringLoop_eq (by omega), List.append_nil]

/-!
# Parsing keeps the numeral
-/

def canonical (v : Int) : Sds :=
  if v < 0 then 45 :: decimal v.natAbs else decimal v.natAbs

theorem ll2string_eq_canonical (v : Int) : ll2string v = canonical v := by
  unfold canonical
  by_cases hneg : v < 0
  · rw [if_pos hneg, ← ll2string_neg (by omega)]
    congr
    omega
  · rw [if_neg hneg, ← ll2string_of_nonneg]
    congr
    omega

theorem digitByte_sub {b : UInt8} (hb : 48 ≤ b.toNat) : digitByte (b.toNat - 48) = b := by
  have hsum : 48 + (b.toNat - 48) = b.toNat := by omega
  unfold digitByte
  rw [hsum, UInt8.ofNat_toNat]

theorem string2llDigits_decimal {r : Nat} (hv : 0 < v) (h : string2llDigits v s = some r) :
    0 < r ∧ decimal r = decimal v ++ s := by
  induction s generalizing v with
  | nil =>
    cases h
    exact ⟨hv, by simp⟩
  | cons b rest ih =>
    unfold string2llDigits at h
    by_cases hdigit : isDigit b
    · rw [if_pos hdigit] at h
      have hbounds : 48 ≤ b.toNat ∧ b.toNat ≤ 57 := by
        simpa [isDigit] using hdigit
      split at h
      · cases h
      split at h
      · cases h
      rcases ih (by omega) h with ⟨hr, hdec⟩
      refine ⟨hr, ?_⟩
      rw [hdec, decimal_snoc hv (by omega), digitByte_sub hbounds.left]
      simp
    · rw [if_neg hdigit] at h
      cases h

theorem string2llUnsigned_decimal {r : Nat} (h : string2llUnsigned s = some r) :
    0 < r ∧ decimal r = s := by
  cases s with
  | nil => cases h
  | cons b rest =>
    dsimp only [string2llUnsigned] at h
    by_cases hfirst : 49 ≤ b.toNat && b.toNat ≤ 57
    · rw [if_pos hfirst] at h
      have hbounds : 49 ≤ b.toNat ∧ b.toNat ≤ 57 := by simpa using hfirst
      rcases string2llDigits_decimal (by omega) h with ⟨hr, hdec⟩
      refine ⟨hr, ?_⟩
      rw [hdec, decimal_digit (by omega), digitByte_sub (by omega)]
      rfl
    · rw [if_neg hfirst] at h
      cases h

theorem decimal_of_bounded {v : Int} {max : Nat} {sign : Nat -> Int}
    (h : (match string2llUnsigned s with
      | some r => if r > max then none else some (sign r)
      | none => none) = some v) : exists r, v = sign r ∧ 0 < r ∧ decimal r = s := by
  cases hparse : string2llUnsigned s with
  | none =>
    rw [hparse] at h
    cases h
  | some r =>
    rw [hparse] at h
    rcases string2llUnsigned_decimal hparse with ⟨hr, hdec⟩
    dsimp only at h
    split at h
    · cases h
    · cases h
      exact ⟨r, rfl, hr, hdec⟩

theorem ll2string_string2ll {v : Int} (h : string2ll s = some v) : ll2string v = s := by
  unfold string2ll at h
  by_cases hzero : s = [48]
  · rw [if_pos hzero] at h
    cases h
    rw [hzero]
    exact ll2string_of_nonneg (v := 0)
  · rw [if_neg hzero] at h
    split at h
    · rename_i rest
      rcases decimal_of_bounded h with ⟨r, rfl, hr, hdec⟩
      rw [ll2string_neg hr, hdec]
    · rcases decimal_of_bounded h with ⟨r, rfl, hr, hdec⟩
      rw [ll2string_of_nonneg, hdec]

theorem string2ll_range {v : Int} (h : string2ll s = some v) : LLONG_MIN ≤ v ∧ v ≤ LLONG_MAX := by
  unfold LLONG_MIN LLONG_MAX
  unfold string2ll LLONG_MAX at h
  split at h
  · cases h
    lia
  split at h
  · split at h
    · split at h
      · cases h
      · cases h
        lia
    · cases h
  · split at h
    · split at h
      · cases h
      · cases h
        lia
    · cases h

/-!
# Parsing what was printed
-/

theorem string2llDigits_append {xs ys : Sds} :
    string2llDigits v (xs ++ ys) = (string2llDigits v xs).bind fun w => string2llDigits w ys := by
  induction xs generalizing v with
  | nil => rfl
  | cons b xs ih =>
    rw [List.cons_append, string2llDigits, string2llDigits]
    split
    · split
      · rfl
      · split
        · rfl
        · exact ih
    · rfl

theorem string2llUnsigned_snoc {xs : Sds} (h : string2llUnsigned xs = some v) (hd : d < 10)
    (hmax : v * 10 + d ≤ ULLONG_MAX) :
    string2llUnsigned (xs ++ [digitByte d]) = some (v * 10 + d) := by
  have hbyte : (digitByte d).toNat = 48 + d := by
    unfold digitByte
    rw [UInt8.toNat_ofNat']
    lia
  have hdigit : isDigit (digitByte d) = true := by
    unfold isDigit
    rw [hbyte]
    simp
    lia
  have hlast : string2llDigits v [digitByte d] = some (v * 10 + d) := by
    unfold ULLONG_MAX at hmax
    rw [string2llDigits, if_pos hdigit, hbyte, if_neg (by unfold ULLONG_MAX; lia),
      if_neg (by unfold ULLONG_MAX; lia), string2llDigits]
    congr 1
    lia
  cases xs with
  | nil => cases h
  | cons b xs =>
    rw [List.cons_append]
    unfold string2llUnsigned at h ⊢
    dsimp only at h ⊢
    split at h
    · rename_i hfirst
      rw [if_pos hfirst, string2llDigits_append, h]
      exact hlast
    · cases h

theorem string2llUnsigned_of_decimal (hv : 0 < v) (hmax : v ≤ ULLONG_MAX) :
    string2llUnsigned (decimal v) = some v := by
  induction v using Nat.strongRecOn with
  | ind v ih =>
    by_cases hsmall : v < 10
    · have hbyte : (digitByte v).toNat = 48 + v := by
        unfold digitByte
        rw [UInt8.toNat_ofNat']
        lia
      rw [decimal_digit hsmall, string2llUnsigned, hbyte, if_pos (by simp; lia)]
      rw [string2llDigits]
      congr 1
      lia
    · have hsplit : v / 10 * 10 + v % 10 = v := by lia
      have hsnoc := decimal_snoc (show 0 < v / 10 by lia) (show v % 10 < 10 by lia)
      rw [hsplit] at hsnoc
      have hrec := ih (v / 10) (by lia) (by lia) (by lia)
      have h := string2llUnsigned_snoc hrec (show v % 10 < 10 by lia) (by lia)
      rw [hsplit] at h
      rw [hsnoc, h]

theorem string2ll_ll2string {v : Int} (hv : LLONG_MIN ≤ v ∧ v ≤ LLONG_MAX) :
    string2ll (ll2string v) = some v := by
  unfold LLONG_MIN at hv
  rcases Int.lt_trichotomy v 0 with hneg | hzero | hpos
  · rcases Int.eq_ofNat_of_zero_le (show 0 ≤ -v by lia) with ⟨w, hw⟩
    have hv' : v = -(w : Int) := by lia
    have hparse := string2llUnsigned_of_decimal (show 0 < w by lia) (by unfold ULLONG_MAX; lia)
    rw [hv', ll2string_neg (by lia), string2ll, if_neg (by simp)]
    simp only [hparse]
    rw [if_neg (by unfold LLONG_MAX at *; lia)]
  · subst hzero
    rfl
  · rcases Int.eq_ofNat_of_zero_le (Int.le_of_lt hpos) with ⟨w, rfl⟩
    have hparse := string2llUnsigned_of_decimal (show 0 < w by lia)
      (by unfold ULLONG_MAX LLONG_MAX at *; lia)
    have hll : ll2string (w : Int) = decimal w := ll2string_of_nonneg
    rw [hll]
    have hfirst : exists b rest, decimal w = b :: rest ∧ 49 ≤ b.toNat := by
      cases hdec : decimal w with
      | nil =>
        rw [hdec] at hparse
        cases hparse
      | cons b rest =>
        rw [hdec] at hparse
        unfold string2llUnsigned at hparse
        dsimp only at hparse
        split at hparse
        · rename_i hb
          simp at hb
          exact ⟨b, rest, rfl, hb.left⟩
        · cases hparse
    rcases hfirst with ⟨b, rest, hdec, hb⟩
    rw [hdec] at hparse ⊢
    have hzero : b ≠ 48 := by
      rintro rfl
      exact absurd hb (by decide)
    have hminus : b ≠ 45 := by
      rintro rfl
      exact absurd hb (by decide)
    rw [string2ll, if_neg (by simp [hzero]), hparse]
    · exact if_neg (by lia)
    · intro rest' heq
      injection heq with hfirst _
      exact hminus hfirst

theorem decimal_length (hk : 0 < k) (h : v < 10 ^ k) : (decimal v).length ≤ k := by
  unfold decimal
  split
  · exact hk
  · rw [List.length_map, List.length_reverse]
    exact (Nat.digits_length_le_iff (by decide) v).mpr h

theorem ll2string_length (v : Int) (hv : LLONG_MIN ≤ v ∧ v ≤ LLONG_MAX) :
    (ll2string v).length ≤ 21 := by
  unfold LLONG_MIN LLONG_MAX at hv
  have hlen := decimal_length (v := v.natAbs) (k := 20) (by decide) (by lia)
  rw [ll2string_eq_canonical]
  unfold canonical
  split
  · rw [List.length_cons]
    lia
  · lia

example : string2ll [45, 49, 50] = some (-12) := by decide
example : string2ll [48, 49] = none := by decide

end Util
end Redisoo
