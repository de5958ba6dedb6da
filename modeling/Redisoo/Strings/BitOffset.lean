import Redisoo.Commands

/-!
# Bit offsets

An offset `#N` of BITFIELD is multiplied by the width before its range is tested, in 64 bits.
-/

namespace Redisoo
namespace BitOffset

open Util (string2ll ll2string)

def outOfRange : Reply := .error "bit offset is not an integer or out of range"

def getBitOffsetFromArgument (p : Sds) (hash : Bool) (bits : Int) : Except Reply Nat :=
  let usehash := p.head? == some 35 && hash && decide (0 < bits)
  match string2ll (if usehash then p.tail else p) with
  | none => .error outOfRange
  | some n =>
    let loffset := if usehash then wrap64 (n * bits) else n
    if loffset < 0 ∨ loffset.toNat >>> 3 ≥ 512 * 1024 * 1024 then .error outOfRange
    else .ok loffset.toNat

def Exact (arg : Sds) (n w : Int) : Prop :=
  forall offset : Nat, getBitOffsetFromArgument (35 :: arg) true w = .ok offset <->
    offset = n * w ∧ offset < 2 ^ 32

theorem getBitOffset_hash {arg : Sds} {n w : Int} (hn : string2ll arg = some n) (hw : 0 < w)
    (offset : Nat) : getBitOffsetFromArgument (35 :: arg) true w = .ok offset <->
      offset = wrap64 (n * w) ∧ offset < 2 ^ 32 := by
  have husehash : ((35 :: arg).head? == some 35 && true && decide (0 < w)) = true := by
    simp [hw]
  unfold getBitOffsetFromArgument
  simp only [husehash, if_true, List.tail_cons, hn, Nat.shiftRight_eq_div_pow]
  split
  · constructor
    · intro h
      cases h
    · lia
  · simp only [Except.ok.injEq]
    lia

/-- The offset is exact unless a product out of range is wrapped into it. -/
theorem scaled_offset_exact_iff {arg : Sds} {n w : Int} (hn : string2ll arg = some n) (hw : 0 < w) :
    Exact arg n w <->
      wrap64 (n * w) = n * w ∨ Not (0 ≤ wrap64 (n * w) ∧ wrap64 (n * w) < 2 ^ 32) := by
  unfold Exact
  simp only [getBitOffset_hash hn hw]
  constructor
  · intro h
    by_cases hrange : 0 ≤ wrap64 (n * w) ∧ wrap64 (n * w) < 2 ^ 32
    · have hsame := h (wrap64 (n * w)).toNat
      lia
    · exact Or.inr hrange
  · rintro (hsame | hout) offset
    · rw [hsame]
    · have hfits : 0 ≤ n * w ∧ n * w < 2 ^ 32 -> wrap64 (n * w) = n * w := fun h =>
        wrap64_of_range (by unfold Util.LLONG_MIN Util.LLONG_MAX; lia)
      lia

theorem scaled_offset_exact_third : Exact [51] 3 8 :=
  (scaled_offset_exact_iff rfl (by decide)).mpr (Or.inl rfl)

/-- `#288230376151711744` in words of 64 bits is the first bit. -/
theorem scaled_offset_wraps : string2ll (ll2string (2 ^ 58)) = some (2 ^ 58) ∧
    getBitOffsetFromArgument (35 :: ll2string (2 ^ 58)) true 64 = .ok 0 :=
  ⟨rfl, rfl⟩

end BitOffset
end Redisoo
