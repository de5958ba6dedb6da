import Redisoo.Foundation.Bytes
import Redisoo.Util.Decimal

/-!
# Ziplists

A ziplist as the list of its entries, and the calls of `ziplist.c` the hash type makes.  A
string that is a canonical decimal is stored as an integer.  Lengths are passed as
`unsigned int`, and the bytes are counted in 32 bits.
-/

namespace Redisoo

open Foundation.Bytes

inductive ZlEntry where
  | str (s : Sds)
  | int (v : Int)

def ZlEntry.text : ZlEntry -> Sds
  | .str s => s
  | .int v => Util.ll2string v

/-- A length is a `ssize_t`, an integer a `long long`. -/
def ZlEntry.Fits : ZlEntry -> Prop
  | .str s => s.length < 2 ^ 63
  | .int v => SignedIn 8 v

instance : DecidablePred ZlEntry.Fits
  | .str s => inferInstanceAs (Decidable (s.length < 2 ^ 63))
  | .int _ => inferInstanceAs (Decidable (_ ∧ _))

def asUint (s : Sds) : Sds :=
  s.take (s.length % 2 ^ 32)

def zipTryEncoding (entry : Sds) : Option Int :=
  if entry.length ≥ 32 ∨ entry.length = 0 then none else Util.string2ll entry

def zipEntry (s : Sds) : ZlEntry :=
  match zipTryEncoding s with
  | some v => .int v
  | none => .str s

/-- The bytes of an entry with the widest headers: five for the length of the previous
entry, and five for the length of a string or one for the encoding of an integer. -/
def ZlEntry.widest : ZlEntry -> Nat
  | .str s => 10 + s.length
  | .int _ => 14

def widestBytes (zl : List ZlEntry) : Nat :=
  11 + (zl.map ZlEntry.widest).sum

/-!
# Calls

A pointer to an entry is its position.
-/

def ziplistIndex (zl : List ZlEntry) (index : Nat) : Option Nat :=
  if index < zl.length then some index else none

def ziplistNext (zl : List ZlEntry) (p : Nat) : Option Nat :=
  if p + 1 < zl.length then some (p + 1) else none

def ziplistGet (zl : List ZlEntry) (p : Nat) : Option ZlEntry :=
  zl[p]?

def ziplistInsert (zl : List ZlEntry) (p : Nat) (s : Sds) : Option (List ZlEntry) :=
  let zl' := zl.take p ++ zipEntry (asUint s) :: zl.drop p
  if widestBytes zl' < 2 ^ 32 then some zl' else none

def ziplistPush (zl : List ZlEntry) (s : Sds) : Option (List ZlEntry) :=
  ziplistInsert zl zl.length s

def ziplistDelete (zl : List ZlEntry) (p : Nat) : List ZlEntry :=
  zl.take p ++ zl.drop (p + 1)

def ziplistLen (zl : List ZlEntry) : Nat :=
  zl.length

def ZlEntry.equals (vstr : Sds) : ZlEntry -> Bool
  | .str s => s == vstr
  | .int ll => zipTryEncoding vstr == some ll

def ziplistFindFrom (vstr : Sds) (skip : Nat) : Nat -> Nat -> List ZlEntry -> Option Nat
  | _, _, [] => none
  | 0, p, e :: rest => if e.equals vstr then some p else ziplistFindFrom vstr skip skip (p + 1) rest
  | skipcnt + 1, p, _ :: rest => ziplistFindFrom vstr skip skipcnt (p + 1) rest

def ziplistFind (zl : List ZlEntry) (p : Nat) (vstr : Sds) (skip : Nat) : Option Nat :=
  ziplistFindFrom (asUint vstr) skip 0 p (zl.drop p)

/-!
# Entries and strings
-/

theorem asUint_of_small {s : Sds} (h : s.length < 2 ^ 32) : asUint s = s := by
  unfold asUint
  rw [Nat.mod_eq_of_lt h, List.take_length]

theorem zipTryEncoding_text {s : Sds} {v : Int} (h : zipTryEncoding s = some v) :
    Util.ll2string v = s := by
  unfold zipTryEncoding at h
  split at h
  · cases h
  · exact Util.ll2string_string2ll h

theorem zipEntry_text (s : Sds) : (zipEntry s).text = s := by
  unfold zipEntry
  cases h : zipTryEncoding s with
  | none => rfl
  | some v => exact zipTryEncoding_text h

theorem zipEntry_equals (s vstr : Sds) : (zipEntry s).equals vstr = decide (s = vstr) := by
  unfold zipEntry
  cases h : zipTryEncoding s with
  | none => exact beq_eq_decide s vstr
  | some v =>
    have hs := zipTryEncoding_text h
    simp only [ZlEntry.equals]
    by_cases heq : s = vstr
    · rw [← heq, h, decide_eq_true rfl, beq_self_eq_true]
    rw [decide_eq_false heq]
    apply beq_eq_false_iff_ne.mpr
    intro hv
    exact heq (hs.symm.trans (zipTryEncoding_text hv))

theorem widest_le (s : Sds) : (zipEntry s).widest ≤ 14 + s.length := by
  unfold zipEntry
  cases zipTryEncoding s with
  | none | some v =>
    simp only [ZlEntry.widest]
    lia

theorem widestBytes_append (a b : List ZlEntry) :
    widestBytes (a ++ b) = widestBytes a + (b.map ZlEntry.widest).sum := by
  unfold widestBytes
  rw [List.map_append, List.sum_append]
  lia

end Redisoo
