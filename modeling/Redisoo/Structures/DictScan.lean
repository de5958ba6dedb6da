import Redisoo.Foundation.BitReversal
import Redisoo.Structures.DictMap

/-!
# Scanning a dictionary

`dictScan` visits the bucket its cursor names and returns the next cursor, which
is incremented on its reversed bits.  In the order of reversed hashes the cursor
only moves forward, whatever the sizes of the tables are from call to call.
-/

namespace Redisoo

open Foundation Chaining BitVec Dict
open Foundation.BitReversal List

variable {key val : Type} {s i x y c b0 b1 : Nat}

/-!
# The model
-/

def revRound (s : Nat) (mask v : BitVec 64) : BitVec 64 × BitVec 64 :=
  let mask := mask ^^^ (mask <<< s)
  (mask, ((v >>> s) &&& mask) ||| ((v <<< s) &&& ~~~mask))

/-- The loop of `rev`, which halves `s` before every round. -/
def revLoop : Nat -> Nat -> BitVec 64 -> BitVec 64 -> BitVec 64
  | 0, _, _, v => v
  | fuel + 1, s, mask, v =>
    if s / 2 = 0 then v
    else
      let (mask, v) := revRound (s / 2) mask v
      revLoop fuel (s / 2) mask v

def rev (v : BitVec 64) : BitVec 64 :=
  revLoop 7 64 (BitVec.allOnes 64) v

namespace Dict

def nextCursor (m : Nat) (v : BitVec 64) : BitVec 64 :=
  rev (rev (v ||| ~~~(BitVec.ofNat 64 m)) + 1)

def scanBucket (ht : Dictht key val) (v : BitVec 64) : Except DictCrash (List (key × val)) :=
  ht.bucket (v.toNat &&& ht.sizemask)

/-- The loop over the indices of the larger table that expand the cursor.  Each
round visits another bucket of that table, so its size bounds the rounds. -/
def scanExpansions (m0 : Nat) (t1 : Dictht key val) :
    Nat -> BitVec 64 -> Except DictCrash (BitVec 64 × List (key × val))
  | 0, v => .ok (v, [])
  | fuel + 1, v =>
    match scanBucket t1 v with
    | .error c => .error c
    | .ok chain =>
      let v := nextCursor t1.sizemask v
      if v &&& BitVec.ofNat 64 (m0 ^^^ t1.sizemask) = 0#64 then .ok (v, chain)
      else
        match scanExpansions m0 t1 fuel v with
        | .error c => .error c
        | .ok (v, rest) => .ok (v, chain ++ rest)

def bySize (d : Dict key val) : Dictht key val × Dictht key val :=
  if d.ht0.size > d.ht1.size then (d.ht1, d.ht0) else (d.ht0, d.ht1)

def dictScan (d : Dict key val) (v : BitVec 64) : Except DictCrash (BitVec 64 × List (key × val)) :=
  if d.dictSize = 0 then .ok (0, [])
  else if d.isRehashing then
    let (t0, t1) := d.bySize
    match scanBucket t0 v with
    | .error c => .error c
    | .ok chain =>
      match scanExpansions t0.sizemask t1 t1.size v with
      | .error c => .error c
      | .ok (v, rest) => .ok (v, chain ++ rest)
  else
    match scanBucket d.ht0 v with
    | .error c => .error c
    | .ok chain => .ok (nextCursor d.ht0.sizemask v, chain)

/-- Calls on the dictionary as it is at each of them, every call with the cursor
the one before returned, up to the first that returns 0. -/
def scanCalls : List (Dict key val) -> BitVec 64 -> Except DictCrash (BitVec 64 × List (key × val))
  | [], v => .ok (v, [])
  | d :: rest, v =>
    match d.dictScan v with
    | .error c => .error c
    | .ok (v, entries) =>
      if v = 0 then .ok (0, entries)
      else
        match scanCalls rest v with
        | .error c => .error c
        | .ok (v, more) => .ok (v, entries ++ more)

end Dict

/-!
# Reversal
-/

def partner (s i : Nat) : Nat :=
  if i / s % 2 = 0 then i + s else i - s

theorem revRound_bit {mask v : BitVec 64}
    (hmask : forall i, i < 64 -> (mask ^^^ (mask <<< s)).getLsbD i = decide (i / s % 2 = 0))
    (hi : i < 64) : (revRound s mask v).2.getLsbD i = v.getLsbD (partner s i) := by
  unfold revRound partner
  dsimp only
  rw [getLsbD_or, getLsbD_and, getLsbD_and, getLsbD_not,
    getLsbD_ushiftRight, getLsbD_shiftLeft, hmask i hi]
  by_cases heven : i / s % 2 = 0
  · simp [heven, hi, Nat.add_comm]
  have hge : Not (i < s) := by
    intro hlt
    apply heven
    rw [Nat.div_eq_of_lt hlt]
  simp [heven, hi, hge]

theorem rev_rounds (v : BitVec 64) :
    rev v =
      (revRound 1 0x3333333333333333#64
        (revRound 2 0x0F0F0F0F0F0F0F0F#64
          (revRound 4 0x00FF00FF00FF00FF#64
            (revRound 8 0x0000FFFF0000FFFF#64
              (revRound 16 0x00000000FFFFFFFF#64
                (revRound 32 0xFFFFFFFFFFFFFFFF#64 v).2).2).2).2).2).2 := rfl

theorem rev_eq_reverse (v : BitVec 64) : rev v = v.reverse := by
  have hpartner : forall s, s ∈ [1, 2, 4, 8, 16] -> forall i, i < 64 ->
      partner s i < 64 := by decide
  have hall : forall i, i < 64 ->
      partner 32 (partner 16 (partner 8 (partner 4 (partner 2 (partner 1 i))))) =
        63 - i := by decide
  apply eq_of_getLsbD_eq
  intro i hi
  have h1 := hpartner 1 (by decide) i hi
  have h2 := hpartner 2 (by decide) _ h1
  have h4 := hpartner 4 (by decide) _ h2
  have h8 := hpartner 8 (by decide) _ h4
  have h16 := hpartner 16 (by decide) _ h8
  rw [getLsbD_reverse, getMsbD_eq_getLsbD, rev_rounds,
    revRound_bit (by decide) hi, revRound_bit (by decide) h1,
    revRound_bit (by decide) h2, revRound_bit (by decide) h4,
    revRound_bit (by decide) h8, revRound_bit (by decide) h16, hall i hi]
  simp [hi]

/-!
# One call
-/

namespace Dict

def place (hash : key -> Nat) (k : key) : Nat :=
  rank (BitVec.ofNat 64 (hash k))

theorem nextCursor_eq (b : Nat) (v : BitVec 64) :
    nextCursor (2 ^ b - 1) v = advance (lowMask 64 b) v := by
  unfold nextCursor advance
  rw [rev_eq_reverse, rev_eq_reverse]
  rfl

variable {ht : Dictht key val} {b target : Nat} {d : Dict key val} {k : key} {v : BitVec 64}
  {ds : List (Dict key val)}

theorem live_bits (h : ht.Live) : exists b, b ≤ 64 ∧ ht.size = 2 ^ b ∧ ht.sizemask = 2 ^ b - 1 := by
  rcases h.power with ⟨b, hb⟩
  refine ⟨b, ?_, hb, by rw [h.mask, hb]⟩
  have hlt : 2 ^ b < 2 ^ 61 := hb ▸ h.fits
  have hb61 := (Nat.pow_lt_pow_iff_right (by decide)).mp hlt
  lia

theorem scanBucket_live (h : ht.Live) (v : BitVec 64) :
    scanBucket ht v = .ok (ht.table (v.toNat &&& ht.sizemask)) := by
  rcases live_bits h with ⟨b, _, hsize, hmask⟩
  apply h.bucket
  rw [hmask, hsize, Nat.and_two_pow_sub_one_eq_mod]
  exact Nat.mod_lt _ (Nat.two_pow_pos b)

variable [DecidableEq key] {hash : key -> Nat} {entries visited : List (key × val)}

theorem mem_scanBucket (hexact : ht.Exact hash) (hb : b ≤ 64) (hmask : ht.sizemask = 2 ^ b - 1)
    (v : BitVec 64) (k : key) :
    k ∈ keys (ht.table (v.toNat &&& ht.sizemask)) <->
      ht.get hash k ≠ none ∧ rank v / 2 ^ (64 - b) = place hash k / 2 ^ (64 - b) := by
  have hpow : 2 ^ b ∣ 2 ^ 64 := Nat.pow_dvd_pow 2 hb
  have hindex : v.toNat &&& ht.sizemask = ht.index hash k <->
      rank v / 2 ^ (64 - b) = place hash k / 2 ^ (64 - b) := by
    unfold Dictht.index place
    rw [hmask, Nat.and_two_pow_sub_one_eq_mod, Nat.and_two_pow_sub_one_eq_mod,
      ← low_eq_iff hb, toNat_ofNat, Nat.mod_mod_of_dvd _ hpow]
  rw [hexact.placed.mem_iff, hindex]
  exact And.comm

theorem div_eq_of_between (hle : x ≤ y) (hlt : y < (x / 2 ^ c + 1) * 2 ^ c) :
    x / 2 ^ c = y / 2 ^ c := by
  have hupper : y / 2 ^ c < x / 2 ^ c + 1 := (Nat.div_lt_iff_lt_mul (Nat.two_pow_pos c)).mpr hlt
  have hlower : x / 2 ^ c ≤ y / 2 ^ c := Nat.div_le_div_right hle
  lia

theorem scanExpansions_spec {t1 : Dictht key val} (hlive : t1.Live) (hexact : t1.Exact hash)
    (hb : b0 ≤ b1) (hb1 : b1 ≤ 64) (hmask : t1.sizemask = 2 ^ b1 - 1)
    (hends : 2 ^ (64 - b0) ∣ target) (htarget : target ≤ 2 ^ 64) (fuel : Nat) (v : BitVec 64)
    (hbefore : rank v < target) (hinside : target ≤ rank v + 2 ^ (64 - b0))
    (hfuel : target ≤ (rank v / 2 ^ (64 - b1) + fuel) * 2 ^ (64 - b1)) :
    exists v' entries, scanExpansions (2 ^ b0 - 1) t1 fuel v = .ok (v', entries) ∧
      rank v' = target % 2 ^ 64 ∧
      forall k, t1.get hash k ≠ none -> rank v ≤ place hash k ->
        place hash k < target -> k ∈ keys entries := by
  have hdvd : 2 ^ (64 - b1) ∣ 2 ^ (64 - b0) := Nat.pow_dvd_pow 2 (by lia)
  have hdvd64 : 2 ^ (64 - b1) ∣ 2 ^ 64 := Nat.pow_dvd_pow 2 (by lia)
  have hdvd64' : 2 ^ (64 - b0) ∣ 2 ^ 64 := Nat.pow_dvd_pow 2 (by lia)
  have hpos := Nat.two_pow_pos (64 - b1)
  induction fuel generalizing v with
  | zero =>
    have hle : rank v / 2 ^ (64 - b1) * 2 ^ (64 - b1) ≤ rank v := Nat.div_mul_le_self _ _
    rw [Nat.add_zero] at hfuel
    exact absurd hbefore (by lia)
  | succ fuel ih =>
    have hnext : (rank v / 2 ^ (64 - b1) + 1) * 2 ^ (64 - b1) ≤ target := by
      rcases hdvd.trans hends with ⟨q, hq⟩
      have hlt : rank v / 2 ^ (64 - b1) < q := by
        apply Nat.div_lt_of_lt_mul
        rw [← hq]
        exact hbefore
      rw [hq, Nat.mul_comm]
      exact Nat.mul_le_mul_left _ hlt
    have hrank : rank (nextCursor t1.sizemask v) =
        (rank v / 2 ^ (64 - b1) + 1) * 2 ^ (64 - b1) % 2 ^ 64 := by
      rw [hmask, nextCursor_eq]
      exact rank_advance hb1 v
    have hstart : 2 ^ (64 - b1) ∣ rank (nextCursor t1.sizemask v) := by
      rw [hrank]
      exact (Nat.dvd_mod_iff hdvd64).mpr (Nat.dvd_mul_left _ _)
    have hstop : nextCursor t1.sizemask v &&&
        BitVec.ofNat 64 ((2 ^ b0 - 1) ^^^ t1.sizemask) = 0#64 <->
        2 ^ (64 - b0) ∣ rank (nextCursor t1.sizemask v) := by
      rw [← between_eq_zero_iff hb hb1 hstart, hmask, ofNat_xor]
      rfl
    have hbucket := scanBucket_live hlive v
    have hmem : forall k, t1.get hash k ≠ none -> rank v ≤ place hash k ->
        place hash k < (rank v / 2 ^ (64 - b1) + 1) * 2 ^ (64 - b1) ->
        k ∈ keys (t1.table (v.toNat &&& t1.sizemask)) := by
      intro k hk hge hlt
      exact (mem_scanBucket hexact hb1 hmask v k).mpr ⟨hk, div_eq_of_between hge hlt⟩
    unfold scanExpansions
    rw [hbucket]
    dsimp only
    by_cases hlast : (rank v / 2 ^ (64 - b1) + 1) * 2 ^ (64 - b1) = target
    · have hzero := hstop.mpr (by
        rw [hrank, hlast]
        exact (Nat.dvd_mod_iff hdvd64').mpr hends)
      rw [if_pos hzero]
      refine ⟨_, _, rfl, by rw [hrank, hlast], ?_⟩
      intro k hk hge hlt
      exact hmem k hk hge (hlast ▸ hlt)
    · have hlt : (rank v / 2 ^ (64 - b1) + 1) * 2 ^ (64 - b1) < target := by lia
      have hrank' : rank (nextCursor t1.sizemask v) =
          (rank v / 2 ^ (64 - b1) + 1) * 2 ^ (64 - b1) := by
        rw [hrank]
        exact Nat.mod_eq_of_lt (by lia)
      have hpast : rank v < rank (nextCursor t1.sizemask v) := by
        rw [hrank']
        exact Nat.lt_mul_of_div_lt (Nat.lt_succ_self _) hpos
      have hgo : Not (nextCursor t1.sizemask v &&&
          BitVec.ofNat 64 ((2 ^ b0 - 1) ^^^ t1.sizemask) = 0#64) := by
        intro hzero
        -- Two multiples of the interval's length would lie closer than that.
        rcases hstop.mp hzero with ⟨p, hp⟩
        rcases hends with ⟨q, hq⟩
        have hpq : p < q := by
          by_contra hge
          have hmul := Nat.mul_le_mul_left (2 ^ (64 - b0)) (Nat.not_lt.mp hge)
          lia
        have hmul := Nat.mul_le_mul_left (2 ^ (64 - b0)) (Nat.succ_le_of_lt hpq)
        rw [Nat.succ_eq_add_one, Nat.mul_add, Nat.mul_one] at hmul
        lia
      rw [if_neg hgo]
      have hdiv : rank (nextCursor t1.sizemask v) / 2 ^ (64 - b1) = rank v / 2 ^ (64 - b1) + 1 := by
        rw [hrank']
        exact Nat.mul_div_cancel _ hpos
      rcases ih (nextCursor t1.sizemask v) (by lia) (by lia)
        (by rw [hdiv, Nat.add_assoc, Nat.add_comm 1 fuel]; exact hfuel) with
        ⟨v', entries, hrest, hv', hmore⟩
      rw [hrest]
      refine ⟨_, _, rfl, hv', ?_⟩
      intro k hk hge hlt'
      unfold Chaining.keys
      rw [map_append, mem_append]
      by_cases hsplit : place hash k < (rank v / 2 ^ (64 - b1) + 1) * 2 ^ (64 - b1)
      · exact Or.inl (hmem k hk hge hsplit)
      · right
        apply hmore k hk _ hlt'
        lia

structure Advances (hash : key -> Nat) (d : Dict key val) (v v' : BitVec 64)
    (entries : List (key × val)) (target : Nat) : Prop where
  bound : target ≤ 2 ^ 64
  past : rank v < target
  cursor : rank v' = target % 2 ^ 64
  visits : forall k, d.toMap hash k ≠ none -> rank v ≤ place hash k ->
    place hash k < target -> k ∈ Chaining.keys entries

theorem toMap_ne_none (h : d.toMap hash k ≠ none) :
    d.ht0.get hash k ≠ none ∨ d.ht1.get hash k ≠ none := by
  unfold toMap at h
  by_cases h0 : d.ht0.get hash k = none
  · right
    rw [h0, Option.none_or] at h
    exact h
  · exact Or.inl h0

theorem Inv.get_of_idle (h : d.Inv hash) (hidle : d.isRehashing = false)
    (hk : d.toMap hash k ≠ none) : d.ht0.get hash k ≠ none := by
  rcases toMap_ne_none hk with hk | hk
  · exact hk
  · rw [(h.idle_of_not hidle).left] at hk
    exact absurd rfl hk

theorem scan_pair {t0 t1 : Dictht key val} (hlive0 : t0.Live) (hexact0 : t0.Exact hash)
    (hlive1 : t1.Live) (hexact1 : t1.Exact hash) (hsizes : t0.size < t1.size) (v : BitVec 64) :
    exists v' rest target, scanExpansions t0.sizemask t1 t1.size v = .ok (v', rest) ∧
      target ≤ 2 ^ 64 ∧ rank v < target ∧ rank v' = target % 2 ^ 64 ∧
      forall k, t0.get hash k ≠ none ∨ t1.get hash k ≠ none ->
        rank v ≤ place hash k -> place hash k < target ->
        k ∈ keys (t0.table (v.toNat &&& t0.sizemask) ++ rest) := by
  rcases live_bits hlive0 with ⟨b0, hb0, hsize0, hmask0⟩
  rcases live_bits hlive1 with ⟨b1, hb1, hsize1, hmask1⟩
  have hb : b0 ≤ b1 := by
    rw [hsize0, hsize1] at hsizes
    exact Nat.le_of_lt ((Nat.pow_lt_pow_iff_right (by decide)).mp hsizes)
  have hpos0 := Nat.two_pow_pos (64 - b0)
  have hbefore : rank v < (rank v / 2 ^ (64 - b0) + 1) * 2 ^ (64 - b0) :=
    Nat.lt_mul_of_div_lt (Nat.lt_succ_self _) hpos0
  have hinside : (rank v / 2 ^ (64 - b0) + 1) * 2 ^ (64 - b0) ≤ rank v + 2 ^ (64 - b0) := by
    rw [Nat.add_mul, Nat.one_mul]
    exact Nat.add_le_add_right (Nat.div_mul_le_self _ _) _
  have hfuel : (rank v / 2 ^ (64 - b0) + 1) * 2 ^ (64 - b0) ≤
      (rank v / 2 ^ (64 - b1) + t1.size) * 2 ^ (64 - b1) := by
    have hall : t1.size * 2 ^ (64 - b1) = 2 ^ 64 := by
      rw [hsize1, ← Nat.pow_add]
      congr 1
      lia
    rw [Nat.add_mul (rank v / 2 ^ (64 - b1)), hall]
    exact (next_le hb0 v).trans (Nat.le_add_left _ _)
  rcases scanExpansions_spec hlive1 hexact1 hb hb1 hmask1 (Nat.dvd_mul_left _ _)
    (next_le hb0 v) t1.size v hbefore hinside hfuel with
    ⟨v', rest, hscan, hv', hvisits⟩
  refine ⟨v', rest, _, by rw [hmask0]; exact hscan, next_le hb0 v, hbefore, hv', ?_⟩
  intro k hk hge hlt
  unfold Chaining.keys
  rw [map_append, mem_append]
  rcases hk with hk | hk
  · left
    exact (mem_scanBucket hexact0 hb0 hmask0 v k).mpr ⟨hk, div_eq_of_between hge hlt⟩
  · exact Or.inr (hvisits k hk hge hlt)

theorem dictScan_advances (h : d.Inv hash) (hsize : d.dictSize ≠ 0) (v : BitVec 64) :
    exists v' entries target, d.dictScan v = .ok (v', entries) ∧
      Advances hash d v v' entries target := by
  unfold dictScan
  rw [if_neg hsize]
  cases hrehash : d.isRehashing with
  | false =>
    have hlive := h.live_of_entries hsize
    rcases live_bits hlive with ⟨b, hb, hsize0, hmask⟩
    rw [if_neg Bool.false_ne_true, scanBucket_live hlive]
    refine ⟨_, _, _, rfl, next_le hb v,
      Nat.lt_mul_of_div_lt (Nat.lt_succ_self _) (Nat.two_pow_pos _), ?_, ?_⟩
    · rw [hmask, nextCursor_eq]
      exact rank_advance hb v
    intro k hk hge hlt
    have hk0 := h.get_of_idle hrehash hk
    exact (mem_scanBucket h.exact0 hb hmask v k).mpr ⟨hk0, div_eq_of_between hge hlt⟩
  | true =>
    rw [if_pos rfl]
    unfold isRehashing at hrehash
    rcases Option.isSome_iff_exists.mp hrehash with ⟨r, hr⟩
    rcases h.moving r hr with ⟨hlive0, hlive1, hsizes, _⟩
    unfold bySize
    by_cases hswap : d.ht0.size > d.ht1.size
    · rw [if_pos hswap]
      dsimp only
      rcases scan_pair hlive1 h.exact1 hlive0 h.exact0 hswap v with
        ⟨v', rest, target, hscan, hbound, hpast, hcursor, hvisits⟩
      rw [scanBucket_live hlive1, hscan]
      refine ⟨_, _, target, rfl, hbound, hpast, hcursor, ?_⟩
      intro k hk
      exact hvisits k (toMap_ne_none hk).symm
    · rw [if_neg hswap]
      dsimp only
      have hlt : d.ht0.size < d.ht1.size := by lia
      rcases scan_pair hlive0 h.exact0 hlive1 h.exact1 hlt v with
        ⟨v', rest, target, hscan, hbound, hpast, hcursor, hvisits⟩
      rw [scanBucket_live hlive0, hscan]
      refine ⟨_, _, target, rfl, hbound, hpast, hcursor, ?_⟩
      intro k hk
      exact hvisits k (toMap_ne_none hk)

theorem Advances.visits_last (h : Advances hash d v 0 entries target) (hk : d.toMap hash k ≠ none)
    (hge : rank v ≤ place hash k) : k ∈ keys entries := by
  apply h.visits k hk hge
  have hzero : target % 2 ^ 64 = 0 := h.cursor.symm.trans rank_zero
  have hplace : place hash k < 2 ^ 64 := rank_lt _
  have hpast := h.past
  rcases Nat.dvd_of_mod_eq_zero hzero with ⟨q, hq⟩
  have hq0 : q ≠ 0 := by
    rintro rfl
    lia
  lia

theorem Advances.rank_eq {v' : BitVec 64} (h : Advances hash d v v' entries target) (hv' : v' ≠ 0) :
    rank v' = target := by
  rcases Nat.lt_or_eq_of_le h.bound with hlt | heq
  · exact h.cursor.trans (Nat.mod_eq_of_lt hlt)
  exfalso
  apply hv'
  apply rank_eq_zero_iff.mp
  rw [h.cursor, heq, Nat.mod_self]

/-!
# Runs
-/

theorem scanCalls_ok (hinv : forall d, d ∈ ds -> d.Inv hash) (v : BitVec 64) :
    exists v' visited, scanCalls ds v = .ok (v', visited) := by
  induction ds generalizing v with
  | nil => exact ⟨v, [], rfl⟩
  | cons d rest ih =>
    have hcall : exists v' entries, d.dictScan v = .ok (v', entries) := by
      by_cases hsize : d.dictSize = 0
      · exact ⟨0, [], if_pos hsize⟩
      · rcases dictScan_advances (hinv d mem_cons_self) hsize v with ⟨v', entries, _, hscan, _⟩
        exact ⟨v', entries, hscan⟩
    rcases hcall with ⟨v1, entries, hscan⟩
    rcases ih (fun d hd => hinv d (mem_cons_of_mem _ hd)) v1 with ⟨v', visited, hrest⟩
    unfold scanCalls
    rw [hscan]
    dsimp only
    by_cases hzero : v1 = 0
    · rw [if_pos hzero]
      exact ⟨_, _, rfl⟩
    · rw [if_neg hzero, hrest]
      exact ⟨_, _, rfl⟩

theorem scanCalls_visits (hne : ds ≠ []) (hinv : forall d, d ∈ ds -> d.Inv hash)
    (hrun : scanCalls ds v = .ok (0, visited)) (hk : forall d, d ∈ ds -> d.toMap hash k ≠ none)
    (hge : rank v ≤ place hash k) :
    k ∈ keys visited := by
  induction ds generalizing v visited with
  | nil => exact absurd rfl hne
  | cons d rest ih =>
    have hd := hinv d mem_cons_self
    have hkd := hk d mem_cons_self
    have hsize : d.dictSize ≠ 0 := fun h => hkd (hd.toMap_empty h k)
    rcases dictScan_advances hd hsize v with ⟨v1, entries, target, hscan, hadv⟩
    unfold scanCalls at hrun
    rw [hscan] at hrun
    dsimp only at hrun
    by_cases hzero : v1 = 0
    · subst hzero
      rw [if_pos rfl] at hrun
      cases hrun
      exact hadv.visits_last hkd hge
    · rw [if_neg hzero] at hrun
      have hrest := fun d' hd' => hinv d' (mem_cons_of_mem d hd')
      rcases scanCalls_ok hrest v1 with ⟨v', more, hmore⟩
      rw [hmore] at hrun
      cases hrun
      unfold Chaining.keys
      rw [map_append, mem_append]
      have htarget := hadv.rank_eq hzero
      by_cases hpast : place hash k < target
      · exact Or.inl (hadv.visits k hkd hge hpast)
      right
      have hne' : rest ≠ [] := by
        rintro rfl
        cases hmore
        exact hzero rfl
      exact ih hne' hrest hmore (fun d' hd' => hk d' (mem_cons_of_mem d hd')) (by lia)

theorem count_scanBucket (hexact : ht.Exact hash) (hb : b ≤ 64) (hmask : ht.sizemask = 2 ^ b - 1)
    (v : BitVec 64) (hk : ht.get hash k ≠ none) :
    (keys (ht.table (v.toNat &&& ht.sizemask))).count k =
      if rank v / 2 ^ (64 - b) = place hash k / 2 ^ (64 - b) then 1 else 0 := by
  have hmem := mem_scanBucket hexact hb hmask v k
  split
  · rename_i hsame
    exact count_eq_one_of_mem (hexact.placed.nodup _) (hmem.mpr ⟨hk, hsame⟩)
  · rename_i hother
    exact count_eq_zero.mpr (fun hin => hother (hmem.mp hin).right)

theorem scanCalls_once (hb : b ≤ 64) (hinv : forall d, d ∈ ds -> d.Inv hash)
    (hstill : forall d, d ∈ ds -> d.isRehashing = false ∧ d.ht0.size = 2 ^ b)
    (hv : rank v = i * 2 ^ (64 - b)) (hlength : i + ds.length = 2 ^ b) :
    exists visited, scanCalls ds v = .ok (0, visited) ∧
      forall k, (forall d, d ∈ ds -> d.toMap hash k ≠ none) ->
        (keys visited).count k = if i * 2 ^ (64 - b) ≤ place hash k then 1 else 0 := by
  have hpos := Nat.two_pow_pos (64 - b)
  have hall : 2 ^ b * 2 ^ (64 - b) = 2 ^ 64 := by
    rw [← Nat.pow_add]
    congr 1
    lia
  induction ds generalizing i v with
  | nil =>
    exfalso
    rw [length_nil, Nat.add_zero] at hlength
    rw [hlength, hall] at hv
    exact absurd (rank_lt v) (by lia)
  | cons d rest ih =>
    have hd := hinv d mem_cons_self
    rcases hstill d mem_cons_self with ⟨hidle, hsizeb⟩
    by_cases hsize : d.dictSize = 0
    · refine ⟨[], ?_, fun k hk => absurd (hd.toMap_empty hsize k) (hk d mem_cons_self)⟩
      unfold scanCalls dictScan
      rw [if_pos hsize]
      rfl
    have hlive := hd.live_of_entries hsize
    have hmask : d.ht0.sizemask = 2 ^ b - 1 := by rw [hlive.mask, hsizeb]
    have hscan : d.dictScan v = .ok (nextCursor d.ht0.sizemask v,
        d.ht0.table (v.toNat &&& d.ht0.sizemask)) := by
      unfold dictScan
      rw [if_neg hsize, hidle, if_neg Bool.false_ne_true, scanBucket_live hlive]
    have hdiv : rank v / 2 ^ (64 - b) = i := by rw [hv, Nat.mul_div_cancel _ hpos]
    have hrank : rank (nextCursor d.ht0.sizemask v) = (i + 1) * 2 ^ (64 - b) % 2 ^ 64 := by
      rw [hmask, nextCursor_eq, rank_advance hb, hdiv]
    have hcount : forall k, d.toMap hash k ≠ none ->
        (keys (d.ht0.table (v.toNat &&& d.ht0.sizemask))).count k =
          if i = place hash k / 2 ^ (64 - b) then 1 else 0 := by
      intro k hk
      have hk0 := hd.get_of_idle hidle hk
      rw [count_scanBucket hd.exact0 hb hmask v hk0, hdiv]
    have hdivle : forall k, i ≤ place hash k / 2 ^ (64 - b) <-> i * 2 ^ (64 - b) ≤ place hash k :=
      fun k => Nat.le_div_iff_mul_le hpos
    have hdivle' : forall k, i + 1 ≤ place hash k / 2 ^ (64 - b) <->
        (i + 1) * 2 ^ (64 - b) ≤ place hash k :=
      fun k => Nat.le_div_iff_mul_le hpos
    rw [length_cons] at hlength
    unfold scanCalls
    rw [hscan]
    dsimp only
    by_cases hlast : i + 1 = 2 ^ b
    · have hzero : nextCursor d.ht0.sizemask v = 0 := by
        apply rank_eq_zero_iff.mp
        rw [hrank, hlast, hall, Nat.mod_self]
      rw [if_pos hzero]
      refine ⟨_, rfl, ?_⟩
      intro k hk
      rw [hcount k (hk d mem_cons_self)]
      have hplace : place hash k / 2 ^ (64 - b) < i + 1 := by
        rw [Nat.div_lt_iff_lt_mul hpos, hlast, hall]
        exact rank_lt _
      have hiff := hdivle k
      split <;> split <;> lia
    · have hnext : (i + 1) * 2 ^ (64 - b) < 2 ^ 64 := by
        rw [← hall]
        exact Nat.mul_lt_mul_of_pos_right (by lia) hpos
      rw [Nat.mod_eq_of_lt hnext] at hrank
      have hnonzero : nextCursor d.ht0.sizemask v ≠ 0 := by
        intro hzero
        have hr := rank_eq_zero_iff.mpr hzero
        have hmul := Nat.mul_pos (Nat.succ_pos i) hpos
        rw [Nat.succ_eq_add_one] at hmul
        lia
      rcases ih (fun d' hd' => hinv d' (mem_cons_of_mem d hd'))
        (fun d' hd' => hstill d' (mem_cons_of_mem d hd')) hrank (by lia) with
        ⟨visited, hrest, honce⟩
      rw [if_neg hnonzero, hrest]
      refine ⟨_, rfl, ?_⟩
      intro k hk
      have hkeys : forall xs ys : List (key × val), keys (xs ++ ys) =
          keys xs ++ keys ys := fun _ _ => map_append
      rw [hkeys, count_append, hcount k (hk d mem_cons_self),
        honce k (fun d' hd' => hk d' (mem_cons_of_mem d hd'))]
      have hiff := hdivle k
      have hiff' := hdivle' k
      split <;> split <;> split <;> lia

end Dict

def Evolves [DecidableEq key] (hash : key -> Nat) (d d' : Dict key val) : Prop :=
  exists ops results results', AllSteps (dictStep hash) Addressable ops (d, results) ∧
    runSteps (dictStep hash) ops (d, results) = .ok (d', results')

section Runs

variable [DecidableEq key] {hash : key -> Nat}

theorem Evolves.inv {d d' : Dict key val} (h : Evolves hash d d') (hd : d.Inv hash) :
    d'.Inv hash := by
  rcases h with ⟨ops, results, results', hall, hrun⟩
  have hstep : forall (op : DictOp key val) (s s' : Dict key val × List (DictResult val)),
      s.1.Inv hash -> Addressable op s -> dictStep hash op s = .ok s' ->
      s'.1.Inv hash := by
    intro op s s' hs hop hstep
    have hrep : Represents hash s (s.1.toMap hash, s.2) := ⟨hs, rfl, rfl⟩
    rcases dictStep_represents hrep hop with ⟨s1, hstep1, hrep1⟩
    rw [hstep1] at hstep
    cases hstep
    exact hrep1.inv
  exact runSteps_invariant (I := fun s => s.1.Inv hash) hstep hd hall hrun

theorem inv_of_chain {d : Dict key val} {ds : List (Dict key val)} (hd : d.Inv hash)
    (hchain : List.IsChain (Evolves hash) (d :: ds)) : forall d', d' ∈ ds -> d'.Inv hash := by
  induction ds generalizing d with
  | nil =>
    intro d' hd'
    cases hd'
  | cons d1 rest ih =>
    rw [isChain_cons_cons] at hchain
    have hd1 := hchain.left.inv hd
    intro d' hd'
    rcases mem_cons.mp hd' with rfl | hin
    · exact hd1
    · exact ih hd1 hchain.right d' hin

end Runs

/-- Whatever the hash function and whatever happens to the dictionary between the
calls: the calls succeed, a run that comes back to cursor 0 has visited every key
present at all of its calls, and over a table that stays as it is it comes back
after at most one call for every bucket and visits each of these keys once. -/
theorem scan_visits_all [DecidableEq key] (hash : key -> Nat) (ds : List (Dict key val))
    (hchain : List.IsChain (Evolves hash) (Dict.create :: ds)) :
    (exists v visited, Dict.scanCalls ds 0 = .ok (v, visited)) ∧
      (forall visited, ds ≠ [] -> Dict.scanCalls ds 0 = .ok (0, visited) ->
        forall k, (forall d, d ∈ ds -> d.toMap hash k ≠ none) ->
          k ∈ Chaining.keys visited) ∧
      (forall size,
        (forall d, d ∈ ds -> d.isRehashing = false ∧ d.ht0.size = size) ->
        ds.length = max size 1 ->
        exists visited, Dict.scanCalls ds 0 = .ok (0, visited) ∧
          forall k, (forall d, d ∈ ds -> d.toMap hash k ≠ none) ->
            (Chaining.keys visited).count k = 1) := by
  have hinv := inv_of_chain (inv_create hash) hchain
  have hstart : forall k, rank (0 : BitVec 64) ≤ place hash k := by
    intro k
    rw [rank_zero]
    exact Nat.zero_le _
  refine ⟨scanCalls_ok hinv 0, ?_, ?_⟩
  · intro visited hne hrun k hk
    exact scanCalls_visits hne hinv hrun hk (hstart k)
  intro size hstill hlength
  cases ds with
  | nil =>
    rw [length_nil] at hlength
    exact absurd hlength (by lia)
  | cons d rest =>
    have hd := hinv d mem_cons_self
    by_cases hsize : d.dictSize = 0
    · refine ⟨[], ?_, fun k hk => absurd (hd.toMap_empty hsize k) (hk d mem_cons_self)⟩
      unfold scanCalls dictScan
      rw [if_pos hsize]
      rfl
    · rcases live_bits (hd.live_of_entries hsize) with ⟨b, hb, hsizeb, _⟩
      have heq : size = 2 ^ b := (hstill d mem_cons_self).right.symm.trans hsizeb
      have hpos := Nat.two_pow_pos b
      rcases scanCalls_once hb hinv
        (fun d' hd' => heq ▸ hstill d' hd') (i := 0)
        (by rw [rank_zero, Nat.zero_mul]) (by lia) with ⟨visited, hrun, honce⟩
      refine ⟨visited, hrun, ?_⟩
      intro k hk
      rw [honce k hk, Nat.zero_mul, if_pos (Nat.zero_le _)]

theorem scan_visits_all_growing :
    exists (ds : List (Dict Nat Nat)) (visited : List (Nat × Nat)),
      List.IsChain (Evolves fun k => k) (Dict.create :: ds) ∧
        Dict.scanCalls ds 0 = .ok (0, visited) ∧ 3 ∈ Chaining.keys visited := by
  have hrun : exists s : Dict Nat Nat × List (DictResult Nat), runSteps (dictStep fun k => k)
        [.add 0 10 0, .add 1 11 0, .add 2 12 0, .add 3 13 0] (create, []) = .ok s ∧
      s.1.dictSize = 4 ∧
      reaches (dictStep fun k => k)
        (fun s' : Dict Nat Nat × List (DictResult Nat) =>
          decide (scanCalls [s.1, s'.1, s'.1, s'.1] 0 =
              .ok (0, [(0, 10), (2, 12), (1, 11), (3, 13)]) ∧
            s.1.toMap (fun k => k) 3 ≠ none ∧ s'.1.toMap (fun k => k) 3 ≠ none))
        [.add 4 14 0] s = true :=
    exists_run_of_reaches (by decide +kernel)
  rcases hrun with ⟨s, hrun, hsize, hreach⟩
  rcases exists_run_of_reaches hreach with ⟨s', hrun', hscan, hk, hk'⟩
  have hfill : Evolves (fun k => k) create s.1 :=
    ⟨_, [], s.2, allSteps_of_check (by decide +kernel), hrun⟩
  have hgrow : Evolves (fun k => k) s.1 s'.1 := by
    refine ⟨[.add 4 14 0], s.2, s'.2, ⟨⟨?_, trivial⟩, fun _ _ => trivial⟩, hrun'⟩
    change s.1.dictSize < 2 ^ 59
    rw [hsize]
    decide
  have hsame : Evolves (fun k => k) s'.1 s'.1 := ⟨[], s'.2, s'.2, trivial, rfl⟩
  have hchain : List.IsChain (Evolves fun k => k)
      (create :: [s.1, s'.1, s'.1, s'.1]) := by
    simp only [isChain_cons_cons]
    exact ⟨hfill, hgrow, hsame, hsame, isChain_singleton _⟩
  refine ⟨_, _, hchain, hscan, ?_⟩
  apply (scan_visits_all (fun k => k) _ hchain).right.left _ (by simp) hscan
  intro d hd
  simp only [mem_cons, not_mem_nil, or_false] at hd
  rcases hd with rfl | rfl | rfl | rfl
  · exact hk
  · exact hk'
  · exact hk'
  · exact hk'

/-- An expansion whose byte count wraps to 0 starts a rehash into a table without
buckets, which the next call reads. -/
theorem scan_after_wrap :
    exists (d : Dict Nat Nat) (results : List (DictResult Nat)),
      runSteps (dictStep fun k => k) [.add 1 10 0, .expand (2 ^ 62)]
          (Dict.create, []) = .ok (d, results) ∧
        d.toMap (fun k => k) 1 = some 10 ∧
        Dict.scanCalls [d] 0 = .error .outOfBounds :=
  ⟨_, _, rfl, by decide +kernel, by decide +kernel⟩

end Redisoo
