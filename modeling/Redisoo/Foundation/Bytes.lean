import Mathlib.Algebra.Order.Ring.Int
import Mathlib.Data.List.Basic

/-!
# Bytes and memory

Numbers as bytes, least first, and the operations of `string.h` on an allocation.
An access beyond the allocation has no result.
-/

namespace Redisoo
namespace Foundation
namespace Bytes

open List

def le : Nat -> Nat -> List UInt8
  | 0, _ => []
  | k + 1, v => UInt8.ofNat v :: le k (v / 256)

def ofLe : List UInt8 -> Nat
  | [] => 0
  | b :: rest => b.toNat + 256 * ofLe rest

@[simp] theorem le_length (k v : Nat) : (le k v).length = k := by
  induction k generalizing v with
  | zero => rfl
  | succ k ih => rw [le, length_cons, ih]

variable {k v : Nat} {mem : List UInt8} {a b c src xs ys : List UInt8}

theorem ofLe_le (h : v < 256 ^ k) : ofLe (le k v) = v := by
  induction k generalizing v with
  | zero =>
    have hv : v = 0 := Nat.lt_one_iff.mp h
    rw [hv]
    rfl
  | succ k ih =>
    have hdiv : v / 256 < 256 ^ k := by
      apply Nat.div_lt_of_lt_mul
      rw [Nat.mul_comm, ← Nat.pow_succ]
      exact h
    rw [le, ofLe, ih hdiv, UInt8.toNat_ofNat']
    lia

def readLe (k : Nat) (p : List UInt8) : Option Nat :=
  if k ≤ p.length then some (ofLe (p.take k)) else none

theorem readLe_le (h : v < 256 ^ k) (rest : List UInt8) : readLe k (le k v ++ rest) = some v := by
  have htake : (le k v ++ rest).take k = le k v := take_left' (le_length k v)
  unfold readLe
  rw [if_pos (by rw [length_append, le_length]; lia), htake, ofLe_le h]

def be (k v : Nat) : List UInt8 :=
  (le k v).reverse

def readBe (k : Nat) (p : List UInt8) : Option Nat :=
  if k ≤ p.length then some (ofLe (p.take k).reverse) else none

@[simp] theorem be_length (k v : Nat) : (be k v).length = k := by
  unfold be
  rw [length_reverse, le_length]

theorem readBe_be (h : v < 256 ^ k) (rest : List UInt8) : readBe k (be k v ++ rest) = some v := by
  have htake : (be k v ++ rest).take k = be k v := take_left' (be_length k v)
  unfold readBe
  rw [if_pos (by rw [length_append, be_length]; lia), htake, be, reverse_reverse, ofLe_le h]

def leInt (k : Nat) (v : Int) : List UInt8 :=
  le k (v % (256 ^ k : Nat)).toNat

def readLeInt (k : Nat) (p : List UInt8) : Option Int :=
  (readLe k p).map fun (n : Nat) => Int.bmod (n : Int) (256 ^ k)

def SignedIn (k : Nat) (v : Int) : Prop :=
  -((256 ^ k : Nat) : Int) ≤ v * 2 ∧ v * 2 < (256 ^ k : Nat)

@[simp] theorem leInt_length (k : Nat) (v : Int) : (leInt k v).length = k := le_length k _

theorem readLeInt_leInt {v : Int} (h : SignedIn k v) (rest : List UInt8) :
    readLeInt k (leInt k v ++ rest) = some v := by
  have hpos : (0 : Int) < (256 ^ k : Nat) := by
    exact_mod_cast Nat.pow_pos (Nat.zero_lt_succ 255)
  have hnonneg : 0 ≤ v % (256 ^ k : Nat) := Int.emod_nonneg v (Int.ne_of_gt hpos)
  have hlt : (v % (256 ^ k : Nat)).toNat < 256 ^ k := by
    have hmod := Int.emod_lt_of_pos v hpos
    lia
  unfold readLeInt leInt
  rw [readLe_le hlt, Option.map_some, Int.toNat_of_nonneg hnonneg, Int.emod_bmod,
    Int.bmod_eq_of_le_mul_two h.left h.right]

/-!
# Memory
-/

def memcpy (mem : List UInt8) (dst : Nat) (src : List UInt8) : Option (List UInt8) :=
  if dst + src.length ≤ mem.length then
    some (mem.take dst ++ src ++ mem.drop (dst + src.length))
  else none

def memmove (mem : List UInt8) (dst src n : Nat) : Option (List UInt8) :=
  if src + n ≤ mem.length then memcpy mem dst ((mem.drop src).take n) else none

def realloc (junk : UInt8) (mem : List UInt8) (n : Nat) : List UInt8 :=
  mem.take n ++ List.replicate (n - mem.length) junk

theorem memcpy_split (hlen : b.length = src.length) :
    memcpy (a ++ b ++ c) a.length src = some (a ++ src ++ c) := by
  have htake : (a ++ b ++ c).take a.length = a := by
    rw [append_assoc, take_left]
  have hdrop : (a ++ b ++ c).drop (a.length + src.length) = c := by
    rw [← hlen, ← length_append, drop_left]
  unfold memcpy
  rw [if_pos (by simp only [length_append]; lia), htake, hdrop]

theorem memcpy_at {dst : Nat} (h : dst + src.length ≤ mem.length) :
    exists mem', memcpy mem dst src = some mem' ∧ mem'.length = mem.length ∧
      (forall k, k ≤ dst -> mem'.take k = mem.take k) ∧
      mem'.drop dst = src ++ mem.drop (dst + src.length) := by
  have hlen : (mem.take dst).length = dst := by
    rw [length_take]
    lia
  refine ⟨_, if_pos h, ?_, ?_, ?_⟩
  · simp only [length_append, length_drop, hlen]
    lia
  · intro k hk
    rw [append_assoc, take_append_of_le_length (by lia), take_take, Nat.min_eq_left hk]
  · rw [append_assoc]
    exact drop_left' hlen

theorem memmove_spec (dst : Nat) {src : Nat} (hsrc : (mem.drop src).take c.length = c)
    (hle : src + c.length ≤ mem.length) (hdst : dst + c.length ≤ mem.length) :
    memmove mem dst src c.length = some (mem.take dst ++ c ++ mem.drop (dst + c.length)) := by
  unfold memmove memcpy
  rw [if_pos hle, hsrc, if_pos hdst]

theorem realloc_left (junk : UInt8) {n : Nat} (h : xs.length = n) :
    realloc junk (xs ++ ys) n = xs := by
  have hnone : n - (xs ++ ys).length = 0 := by
    rw [length_append]
    lia
  unfold realloc
  rw [take_left' h, hnone, replicate_zero, append_nil]

theorem realloc_grow (junk : UInt8) {n : Nat} (h : mem.length ≤ n) :
    realloc junk mem n = mem ++ List.replicate (n - mem.length) junk := by
  unfold realloc
  rw [take_of_length_le h]

end Bytes
end Foundation
end Redisoo
