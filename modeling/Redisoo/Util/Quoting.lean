import Redisoo.Foundation.Stdio
import Redisoo.Util.Decimal

/-!
# Quoted arguments

What `sdscatrepr` writes, `sdssplitargs` reads back.  A line ends with the list or at its
first NUL.
-/

namespace Redisoo
namespace Quoting

open List

open Foundation.Stdio

def isprint (c : UInt8) : Bool := 32 ≤ c && c ≤ 126

def hexDigit (x : Nat) : UInt8 := .ofNat (if x < 10 then 48 + x else 87 + x)

def reprByte (c : UInt8) : Sds :=
  match c with
  | 92 | 34 => [92, c]
  | 10 => [92, 110]
  | 13 => [92, 114]
  | 9 => [92, 116]
  | 7 => [92, 97]
  | 8 => [92, 98]
  | _ => if isprint c then [c] else [92, 120, hexDigit (c.toNat / 16), hexDigit (c.toNat % 16)]

def sdscatrepr (s p : Sds) : Sds :=
  s ++ 34 :: (p.flatMap reprByte ++ [34])

def isHexDigit (c : UInt8) : Bool :=
  (48 ≤ c && c ≤ 57) || (97 ≤ c && c ≤ 102) || (65 ≤ c && c ≤ 70)

def hexDigitToInt (c : UInt8) : Nat :=
  if 48 ≤ c ∧ c ≤ 57 then c.toNat - 48
  else if 97 ≤ c ∧ c ≤ 102 then c.toNat - 87
  else if 65 ≤ c ∧ c ≤ 70 then c.toNat - 55
  else 0

def unescape (c : UInt8) : UInt8 :=
  match c with
  | 110 => 10
  | 114 => 13
  | 116 => 9
  | 98 => 8
  | 97 => 7
  | _ => c

inductive State where
  | plain
  | inq
  | insq

def closed (rest : Sds) : Bool :=
  match rest with
  | [] => true
  | c :: _ => c == 0 || isspace c

def token (current : Sds) : State -> Sds -> Option (Sds × Sds)
  | .inq, 92 :: 120 :: a :: b :: rest =>
    if isHexDigit a && isHexDigit b then
      token (current ++ [.ofNat (hexDigitToInt a * 16 + hexDigitToInt b)]) .inq rest
    else token (current ++ [120]) .inq (a :: b :: rest)
  | .inq, 92 :: c :: rest =>
    -- A backslash at the end is copied, and then the quotes are not closed.
    if c = 0 then none else token (current ++ [unescape c]) .inq rest
  | .inq, c :: rest =>
    if c = 34 then if closed rest then some (current, rest) else none
    else if c = 0 then none
    else token (current ++ [c]) .inq rest
  | .insq, 92 :: 39 :: rest => token (current ++ [39]) .insq rest
  | .insq, c :: rest =>
    if c = 39 then if closed rest then some (current, rest) else none
    else if c = 0 then none
    else token (current ++ [c]) .insq rest
  | .plain, c :: rest =>
    if c = 32 ∨ c = 10 ∨ c = 13 ∨ c = 9 then some (current, rest)
    else if c = 0 then some (current, c :: rest)
    else if c = 34 then token current .inq rest
    else if c = 39 then token current .insq rest
    else token (current ++ [c]) .plain rest
  | .plain, [] => some (current, [])
  | _, [] => none

def splitFrom : Nat -> Sds -> Option (List Sds)
  | 0, _ => none
  | fuel + 1, line =>
    match line.dropWhile isspace with
    | [] => some []
    | c :: rest =>
      if c = 0 then some []
      else
        match token [] .plain (c :: rest) with
        | none => none
        | some (word, rest) => (splitFrom fuel rest).map (word :: ·)

def sdssplitargs (line : Sds) : Option (List Sds) :=
  splitFrom (line.length + 1) line

theorem hexDigitToInt_hexDigit : forall x, x < 16 ->
    isHexDigit (hexDigit x) ∧ hexDigitToInt (hexDigit x) = x := by
  decide

theorem reprByte_cases (c : UInt8) :
    (exists e, reprByte c = [92, e] ∧ e ≠ 120 ∧ e ≠ 0 ∧ unescape e = c)
      ∨ (reprByte c = [c] ∧ c ≠ 92 ∧ c ≠ 34 ∧ c ≠ 0)
      ∨ (exists a b, reprByte c = [92, 120, a, b] ∧ isHexDigit a ∧ isHexDigit b
        ∧ UInt8.ofNat (hexDigitToInt a * 16 + hexDigitToInt b) = c) := by
  unfold reprByte
  split
  case h_8 hback hquote _ _ _ _ _ =>
    by_cases hprint : isprint c
    · refine .inr (.inl ⟨if_pos hprint, hback, hquote, ?_⟩)
      rintro rfl
      contradiction
    · have hbyte := c.toNat_lt
      obtain ⟨ha, hhigh⟩ := hexDigitToInt_hexDigit (c.toNat / 16) (by lia)
      obtain ⟨hb, hlow⟩ := hexDigitToInt_hexDigit (c.toNat % 16) (by lia)
      refine .inr (.inr ⟨_, _, if_neg hprint, ha, hb, ?_⟩)
      rw [hhigh, hlow, Nat.div_add_mod', UInt8.ofNat_toNat]
  all_goals exact .inl ⟨_, rfl, by decide⟩

theorem token_reprByte (current rest : Sds) (c : UInt8) :
    token current .inq (reprByte c ++ rest) = token (current ++ [c]) .inq rest := by
  rcases reprByte_cases c with ⟨e, hrepr, hx, h0, he⟩ | ⟨hrepr, hback, hquote, h0⟩ |
    ⟨a, b, hrepr, ha, hb, hab⟩
  · rw [hrepr]
    simp [token, hx, h0, he]
  · rw [hrepr]
    simp [token, hback, hquote, h0]
  · rw [hrepr]
    simp [token, ha, hb, hab]

theorem token_repr {rest : Sds} (hrest : closed rest) (word current : Sds) :
    token current .inq (word.flatMap reprByte ++ 34 :: rest) = some (current ++ word, rest) := by
  induction word generalizing current with
  | nil => simp [token, hrest]
  | cons c word ih =>
    rw [flatMap_cons, append_assoc, token_reprByte, ih, append_assoc]
    rfl

theorem splitFrom_repr (fuel : Nat) (word rest : Sds) (hrest : closed rest) :
    splitFrom (fuel + 1) (sdscatrepr [] word ++ rest) = (splitFrom fuel rest).map (word :: ·) := by
  have htoken := token_repr hrest word []
  simp [splitFrom, sdscatrepr, isspace, token, htoken]

theorem splitFrom_space (fuel : Nat) (line : Sds) :
    splitFrom fuel (32 :: line) = splitFrom fuel line := by
  cases fuel <;> rfl

theorem splitFrom_intercalate {fuel : Nat} (words : List Sds) (hfuel : words.length < fuel) :
    splitFrom fuel (intercalate [32] (words.map (sdscatrepr []))) = some words := by
  induction words generalizing fuel with
  | nil =>
    obtain ⟨fuel, rfl⟩ := Nat.exists_eq_add_of_lt hfuel
    rfl
  | cons w words ih =>
    obtain ⟨fuel, rfl⟩ := Nat.exists_eq_succ_of_ne_zero (Nat.ne_zero_of_lt hfuel)
    have hrest := ih (Nat.lt_of_succ_lt_succ hfuel)
    -- The last word ends the line, the others end at a space.
    cases words with
    | nil =>
      have hword := (splitFrom_repr fuel w [] rfl).trans (congrArg _ hrest)
      simpa [intercalate] using hword
    | cons v words =>
      have hword := splitFrom_repr fuel w
        (32 :: intercalate [32] ((v :: words).map (sdscatrepr []))) rfl
      rw [splitFrom_space, hrest] at hword
      simpa [intercalate] using hword

/-- Splitting the quoted forms of any strings, with single spaces between them, gives the
strings. -/
theorem sdssplitargs_sdscatrepr (words : List Sds) :
    sdssplitargs (intercalate [32] (words.map (sdscatrepr []))) = some words := by
  refine splitFrom_intercalate words (Nat.lt_succ_of_le ?_)
  induction words with
  | nil => exact Nat.le_refl 0
  | cons w words ih =>
    cases words <;> simp [intercalate, sdscatrepr] at ih ⊢
    lia

end Quoting
end Redisoo
