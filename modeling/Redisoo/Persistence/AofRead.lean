import Mathlib.Data.Nat.Digits.Lemmas
import Redisoo.Persistence.Aof

/-!
# Reading the text of a command

A command that was written is read back, and a command that is cut anywhere is a short
read.
-/

namespace Redisoo

open Foundation.Stdio List

namespace Aof

/-!
# Decimal numerals
-/

variable {d k v : Nat} {b : UInt8} {argv : List Sds} {s : Sds}

theorem digitByte_toNat (hd : d < 10) : (Util.digitByte d).toNat = 48 + d := by
  unfold Util.digitByte
  rw [UInt8.toNat_ofNat']
  lia

theorem digitByte_isDigit (hd : d < 10) : isDigit (Util.digitByte d) = true := by
  unfold isDigit
  rw [digitByte_toNat hd]
  simp
  lia

theorem digits_digitByte {acc : Nat} (hd : d < 10) :
    digits acc [Util.digitByte d] = acc * 10 + d := by
  rw [digits, if_pos (digitByte_isDigit hd), digitByte_toNat hd, digits]
  lia

structure Numeral (v : Nat) (s : List UInt8) : Prop where
  isDigit : forall b, b ∈ s -> isDigit b
  value : digits 0 s = v
  head : exists b rest, s = b :: rest ∧ (0 < v -> 49 ≤ b.toNat)

theorem numeral_decimal (v : Nat) : Numeral v (Util.decimal v) := by
  induction v using Nat.strongRecOn with
  | ind v ih =>
    by_cases hsmall : v < 10
    · rw [Util.decimal_digit hsmall]
      refine ⟨?_, ?_, _, [], rfl, ?_⟩
      · intro b hb
        rw [mem_singleton.mp hb]
        exact digitByte_isDigit hsmall
      · rw [digits_digitByte hsmall]
        lia
      · intro hpos
        rw [digitByte_toNat hsmall]
        lia
    · have hsplit : v / 10 * 10 + v % 10 = v := by lia
      have hlast : v % 10 < 10 := Nat.mod_lt _ (by lia)
      have hsnoc : Util.decimal v = Util.decimal (v / 10) ++ [Util.digitByte (v % 10)] := by
        have h := Util.decimal_snoc (show 0 < v / 10 by lia) hlast
        rw [hsplit] at h
        exact h
      have hrec := ih (v / 10) (by lia)
      rw [hsnoc]
      refine ⟨?_, ?_, ?_⟩
      · intro b hb
        rcases mem_append.mp hb with hfront | hend
        · exact hrec.isDigit b hfront
        · rw [mem_singleton.mp hend]
          exact digitByte_isDigit hlast
      · rw [digits_append hrec.isDigit, hrec.value, digits_digitByte hlast, hsplit]
      · rcases hrec.head with ⟨b, rest, hb, hpos⟩
        refine ⟨b, rest ++ [Util.digitByte (v % 10)], ?_, fun _ => hpos (by lia)⟩
        rw [hb, cons_append]

theorem sized_ll2string (v : Int) (hv : Util.LLONG_MIN ≤ v ∧ v ≤ Util.LLONG_MAX) :
    (Util.ll2string v).length < 2 ^ 63 :=
  Nat.lt_of_le_of_lt (Util.ll2string_length v hv) (by decide)

def line (b : UInt8) (v : Nat) : List UInt8 :=
  b :: (Util.decimal v ++ [13])

theorem not_newline_of_isDigit (h : isDigit b = true) : b ≠ 10 := by
  rintro rfl
  exact absurd h (by decide)

theorem line_not_newline (hb : b ≠ 10) (v : Nat) : forall b', b' ∈ line b v -> b' ≠ 10 := by
  intro b' hb'
  rcases mem_cons.mp hb' with rfl | hb'
  · exact hb
  rcases mem_append.mp hb' with hdigit | hcr
  · exact not_newline_of_isDigit ((numeral_decimal v).isDigit b' hdigit)
  · rw [mem_singleton.mp hcr]
    decide

theorem line_length (hv : v < 2 ^ 63) : (line b v).length ≤ 21 := by
  have h := Util.decimal_length (k := 19) (by decide) (Nat.lt_trans hv (by decide))
  unfold line
  rw [length_cons, length_append, length_singleton]
  lia

theorem fgets_number (hb : b ≠ 10) (hv : v < 2 ^ 63) (rest : List UInt8) :
    fgets 127 (line b v ++ 10 :: rest) = (b :: (Util.decimal v ++ [13, 10]), rest) := by
  have hlen := line_length (b := b) hv
  rw [fgets_line (line_not_newline hb v) (by lia)]
  simp [line]

theorem fgets_number_cut (hb : b ≠ 10) (hv : v < 2 ^ 63) :
    fgets 127 ((line b v).take k) = ((line b v).take k, []) := by
  have hlen := line_length (b := b) hv
  apply fgets_end
  · intro b' hb'
    exact line_not_newline hb v b' (mem_of_mem_take hb')
  · rw [length_take]
    lia

theorem strtol_decimal (hv : v < 2 ^ 63) (rest : List UInt8) :
    strtol (Util.decimal v ++ 13 :: rest) = v := by
  have hnum := numeral_decimal v
  rcases hnum.head with ⟨b, tail, hcons, _⟩
  have hb : isDigit b = true := hnum.isDigit b (by rw [hcons]; exact mem_cons_self)
  have hvalue : digits 0 (Util.decimal v ++ 13 :: rest) = v := by
    rw [digits_append hnum.isDigit, hnum.value, digits_stop (by decide)]
  rw [hcons, cons_append, strtol_digits hb, ← cons_append, ← hcons, hvalue]
  unfold LONG_MAX
  lia

/-!
# Arguments
-/

theorem bulk_eq (s : Sds) : bulk s = line 36 s.length ++ 10 :: (s ++ crlf) := by
  unfold bulk line
  rw [Util.ll2string_of_nonneg]
  simp [crlf]

theorem strtol_ll2string {v : Int} (hv : Util.LLONG_MIN ≤ v ∧ v ≤ Util.LLONG_MAX) :
    strtol (Util.ll2string v) = v := by
  unfold Util.LLONG_MIN Util.LLONG_MAX at hv
  have hnum := numeral_decimal v.natAbs
  rw [Util.ll2string_eq_canonical]
  unfold Util.canonical
  split
  · show max (-(digits 0 (Util.decimal v.natAbs) : Int)) LONG_MIN = _
    rw [hnum.value]
    unfold LONG_MIN
    lia
  · rcases hnum.head with ⟨b, rest, hcons, _⟩
    have hb : isDigit b = true := hnum.isDigit b (by rw [hcons]; exact mem_cons_self)
    rw [hcons, strtol_digits hb, ← hcons, hnum.value]
    unfold LONG_MAX
    lia

theorem strtol_of_string2ll {v : Int} (h : Util.string2ll s = some v) : strtol s = v := by
  rw [← Util.ll2string_string2ll h]
  exact strtol_ll2string (Util.string2ll_range h)

theorem strtol_length (hs : s.length < 2 ^ 63) :
    (strtol (Util.decimal s.length ++ [13, 10]) % 2 ^ 64).toNat = s.length := by
  rw [strtol_decimal hs]
  lia

theorem readArg_bulk (hs : s.length < 2 ^ 63) (rest : List UInt8) :
    readArg (bulk s ++ rest) = .ok (s, rest) := by
  have hfgets : fgets 127 (bulk s ++ rest) =
      (36 :: (Util.decimal s.length ++ [13, 10]), s ++ (crlf ++ rest)) := by
    rw [bulk_eq, append_assoc, cons_append, append_assoc, fgets_number (by decide) hs]
  have hlen := strtol_length hs
  unfold readArg
  rw [hfgets]
  dsimp only
  rw [if_neg (by decide), hlen, if_neg (by rw [length_append]; lia), drop_left,
    take_left, if_neg (by simp [crlf])]
  rfl

theorem readArg_cut (hs : s.length < 2 ^ 63) (hk : k < (bulk s).length) :
    readArg ((bulk s).take k) = .error (.readerr true) := by
  rw [bulk_eq] at hk ⊢
  by_cases hline : k ≤ (line 36 s.length).length
  · -- the line of the length is cut
    rw [take_append_of_le_length hline]
    unfold readArg
    rw [fgets_number_cut (by decide) hs]
    rcases k with _ | k
    · rfl
    simp only [line, take_succ_cons, length_nil, drop_nil]
    rw [if_neg (by decide)]
    split
    · rfl
    · rfl
  · -- the argument or its end is cut
    rcases Nat.exists_eq_add_of_lt (Nat.lt_of_not_le hline) with ⟨m, hm⟩
    have htake : (line 36 s.length ++ 10 :: (s ++ crlf)).take k =
        line 36 s.length ++ 10 :: (s ++ crlf).take m := by
      rw [hm, Nat.add_assoc, take_length_add_append, take_succ_cons]
    have hmlen : m < s.length + 2 := by
      simp only [length_append, length_cons, crlf, length_nil] at hk
      lia
    have hlen := strtol_length hs
    have hrest : ((s ++ crlf).take m).length = m := by
      rw [length_take, length_append]
      simp only [crlf, length_cons, length_nil]
      lia
    rw [htake]
    unfold readArg
    rw [fgets_number (by decide) hs]
    dsimp only
    rw [if_neg (by decide), hlen, hrest, length_drop, hrest]
    split
    · rfl
    · rw [if_pos (by lia)]

def Sized (argv : List Sds) : Prop :=
  forall s, s ∈ argv -> s.length < 2 ^ 63

theorem readArgs_args (hsized : Sized argv) (rest : List UInt8) :
    readArgs argv.length (argv.flatMap bulk ++ rest) = .ok (argv, rest) := by
  induction argv with
  | nil => rfl
  | cons s argv ih =>
    have hrest := ih (fun s' hs' => hsized s' (mem_cons_of_mem s hs'))
    rw [flatMap_cons, append_assoc, length_cons]
    simp only [readArgs, bind, Except.bind, readArg_bulk (hsized s mem_cons_self), hrest]

theorem readArgs_cut (hsized : Sized argv) (hk : k < (argv.flatMap bulk).length) :
    readArgs argv.length ((argv.flatMap bulk).take k) = .error (.readerr true) := by
  induction argv generalizing k with
  | nil => exact absurd hk (Nat.not_lt_zero k)
  | cons s argv ih =>
    have hs : s.length < 2 ^ 63 := hsized s mem_cons_self
    rw [flatMap_cons, length_append] at hk
    rw [flatMap_cons, length_cons]
    by_cases hfirst : k < (bulk s).length
    · rw [take_append_of_le_length (Nat.le_of_lt hfirst)]
      simp only [readArgs, bind, Except.bind, readArg_cut hs hfirst]
    have hle : (bulk s).length ≤ k := Nat.le_of_not_lt hfirst
    have hrest := ih (fun s' hs' => hsized s' (mem_cons_of_mem s hs'))
      (show k - (bulk s).length < (argv.flatMap bulk).length by lia)
    rw [take_append, take_of_length_le hle]
    simp only [readArgs, bind, Except.bind, readArg_bulk hs, hrest]

theorem readArgs_nil {argc : Nat} (h : 0 < argc) : readArgs argc [] = .error (.readerr true) := by
  rcases argc with _ | argc
  · exact absurd h (Nat.lt_irrefl 0)
  · rfl

/-!
# Commands
-/

structure WellSized (argv : List Sds) : Prop where
  nonempty : argv ≠ []
  count : argv.length < 2 ^ 31
  sized : Sized argv

theorem WellSized.pos (h : WellSized argv) : 0 < argv.length := length_pos_of_ne_nil h.nonempty

theorem command_eq (argv : List Sds) :
    catAppendOnlyGenericCommand argv = line 42 argv.length ++ 10 :: argv.flatMap bulk := by
  unfold catAppendOnlyGenericCommand line
  rw [Util.ll2string_of_nonneg]
  simp [crlf]

theorem atoi_of_small {s : List UInt8} (h : strtol s = v) (hv : v < 2 ^ 31) : atoi s = v := by
  unfold atoi
  rw [h, Int.bmod_eq_of_le (by lia) (by lia)]

theorem head_decimal (hv : 0 < v) (rest : List UInt8) :
    (Util.decimal v ++ rest).head?.getD 0 ≠ 0 := by
  rcases (numeral_decimal v).head with ⟨b, tail, hcons, hb⟩
  rw [hcons]
  rintro rfl
  exact absurd (hb hv) (by decide)

theorem readCommand_command (h : WellSized argv) (rest : List UInt8) :
    readCommand (catAppendOnlyGenericCommand argv ++ rest) = .ok (some (argv, rest)) := by
  have hcount := h.count
  have hpos := h.pos
  have hfgets : fgets 127 (catAppendOnlyGenericCommand argv ++ rest) =
      (42 :: (Util.decimal argv.length ++ [13, 10]), argv.flatMap bulk ++ rest) := by
    rw [command_eq, append_assoc, cons_append, fgets_number (by decide) (by lia)]
  have hatoi : atoi (Util.decimal argv.length ++ [13, 10]) = argv.length :=
    atoi_of_small (strtol_decimal (by lia) [10]) h.count
  unfold readCommand
  rw [hfgets]
  dsimp only
  rw [if_neg (by decide), if_neg (head_decimal hpos _), hatoi, if_neg (by lia), Int.toNat_natCast,
    readArgs_args h.sized]
  rfl

theorem strtol_cut (hv : 0 < v) (hmax : v < 2 ^ 31) :
    exists w, strtol ((Util.decimal v ++ [13]).take (k + 1)) = (w : Nat) ∧ 0 < w ∧ w ≤ v := by
  have hnum := numeral_decimal v
  rcases hnum.head with ⟨b, tail, hcons, hfirst⟩
  have hb : isDigit b = true := hnum.isDigit b (by rw [hcons]; exact mem_cons_self)
  have hle : digits 0 ((Util.decimal v ++ [13]).take (k + 1)) ≤ v := by
    by_cases hin : k + 1 ≤ (Util.decimal v).length
    · rw [take_append_of_le_length hin]
      have hsplit : digits 0 (Util.decimal v) =
          digits (digits 0 ((Util.decimal v).take (k + 1))) ((Util.decimal v).drop (k + 1)) := by
        rw [← digits_append (fun b' hb' => hnum.isDigit b' (mem_of_mem_take hb')), take_append_drop]
      rw [hnum.value] at hsplit
      have hge := digits_ge (digits 0 ((Util.decimal v).take (k + 1)))
        ((Util.decimal v).drop (k + 1))
      rw [← hsplit] at hge
      exact hge
    · rw [take_of_length_le (by rw [length_append, length_singleton]; lia),
        digits_append hnum.isDigit, hnum.value, digits_stop (by decide)]
  have hpos : 0 < digits 0 ((Util.decimal v ++ [13]).take (k + 1)) := by
    have hge := digits_ge (0 * 10 + (b.toNat - 48)) ((tail ++ [13]).take k)
    rw [hcons, cons_append, take_succ_cons, digits, if_pos hb]
    lia
  refine ⟨digits 0 ((Util.decimal v ++ [13]).take (k + 1)), ?_, hpos, hle⟩
  rw [hcons, cons_append, take_succ_cons] at hle ⊢
  rw [strtol_digits hb]
  unfold LONG_MAX
  lia

theorem readCommand_cut (h : WellSized argv) (hpos : 0 < k)
    (hk : k < (catAppendOnlyGenericCommand argv).length) :
    readCommand ((catAppendOnlyGenericCommand argv).take k) = .error (.readerr true) := by
  have hcount := h.count
  have hargc := h.pos
  rw [command_eq] at hk ⊢
  by_cases hline : k ≤ (line 42 argv.length).length
  · -- the line of the count is cut
    rw [take_append_of_le_length hline]
    unfold readCommand
    rw [fgets_number_cut (by decide) (by lia)]
    rcases k with _ | k
    · exact absurd hpos (Nat.lt_irrefl 0)
    rcases k with _ | k
    · rfl
    rcases strtol_cut (k := k) hargc h.count with ⟨w, hstrtol, hw, hle⟩
    have hatoi := atoi_of_small hstrtol (by lia)
    have hhead : ((Util.decimal argv.length ++ [13]).take (k + 1)).head?.getD 0 ≠ 0 := by
      rw [List.head?_take, if_neg (by lia)]
      exact head_decimal hargc _
    simp only [line, take_succ_cons]
    rw [if_neg (by decide), if_neg hhead, hatoi, if_neg (by lia), readArgs_nil (by lia)]
    rfl
  · -- an argument is cut
    rcases Nat.exists_eq_add_of_lt (Nat.lt_of_not_le hline) with ⟨m, hm⟩
    have htake : (line 42 argv.length ++ 10 :: argv.flatMap bulk).take k =
        line 42 argv.length ++ 10 :: (argv.flatMap bulk).take m := by
      rw [hm, Nat.add_assoc, take_length_add_append, take_succ_cons]
    have hmlen : m < (argv.flatMap bulk).length := by
      rw [length_append, length_cons] at hk
      lia
    have hatoi : atoi (Util.decimal argv.length ++ [13, 10]) = argv.length :=
      atoi_of_small (strtol_decimal (by lia) [10]) h.count
    rw [htake]
    unfold readCommand
    rw [fgets_number (by decide) (by lia)]
    dsimp only
    rw [if_neg (by decide), if_neg (head_decimal hargc _), hatoi, if_neg (by lia),
      Int.toNat_natCast, readArgs_cut h.sized hmlen]
    rfl

end Aof
end Redisoo
