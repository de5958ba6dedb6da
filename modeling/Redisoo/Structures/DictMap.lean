import Mathlib.Data.Nat.Bitwise
import Redisoo.Foundation.Run
import Redisoo.Structures.Dict

/-!
# A dictionary is a finite map

The invariant of the two tables, what each operation does to it and to the map
they represent, and the refinement of the map by whole sequences of operations.
-/

namespace Redisoo

open Foundation Option Chaining Dictht Dict

variable {key val : Type} {i r j idx : Nat}

/-!
# The invariant
-/

/-- Every key of the table lies in its own chain, once, and `used` counts them. -/
structure Dictht.Exact (hash : key -> Nat) (ht : Dictht key val) : Prop where
  placed : Chaining.Placed (ht.index hash) ht.table
  used : ht.used = Chaining.total ht.size ht.table

structure Dictht.Live (ht : Dictht key val) : Prop where
  allocated : ht.allocated = some ht.size
  mask : ht.sizemask = ht.size - 1
  power : exists b, ht.size = 2 ^ b
  fits : ht.size < 2 ^ 61

namespace Dictht

theorem exact_reset (hash : key -> Nat) : (reset : Dictht key val).Exact hash :=
  ⟨placed_empty _, by simp [reset]⟩

variable {ht : Dictht key val}

theorem Live.index_lt (h : ht.Live) (hash : key -> Nat) (k : key) : ht.index hash k < ht.size := by
  rcases h.power with ⟨b, hb⟩
  unfold index
  rw [h.mask, hb, Nat.and_two_pow_sub_one_eq_mod]
  exact Nat.mod_lt _ (Nat.two_pow_pos b)

theorem Live.bucket (h : ht.Live) (hi : i < ht.size) : ht.bucket i = .ok (ht.table i) := by
  simp [Dictht.bucket, h.allocated, hi]

variable {hash : key -> Nat}

theorem Exact.empty (h : ht.Exact hash) (hlive : ht.Live) (hused : ht.used = 0) (i : Nat) :
    ht.table i = [] := by
  by_cases hi : i < ht.size
  · rw [h.used] at hused
    exact total_eq_zero_iff.mp hused i hi
  · exact h.placed.beyond (hlive.index_lt hash) (Nat.not_lt.mp hi)

theorem Exact.nonempty (h : ht.Exact hash) (hused : ht.used ≠ 0)
    (hswept : forall i, i < r -> ht.table i = []) :
    exists j, r ≤ j ∧ j < ht.size ∧ ht.table j ≠ [] := by
  by_contra hnone
  apply hused
  rw [h.used, total_eq_zero_iff]
  intro i hi
  by_contra hchain
  by_cases hr : i < r
  · exact hchain (hswept i hr)
  · exact hnone ⟨i, Nat.not_lt.mp hr, hi, hchain⟩

variable [DecidableEq key]

def get (hash : key -> Nat) (ht : Dictht key val) (k : key) : Option val :=
  Chaining.get (ht.index hash) ht.table k

@[simp] theorem get_reset (hash : key -> Nat) (k : key) :
    (reset : Dictht key val).get hash k = none := rfl

theorem get_of_table {k : key} (h : ht.table (ht.index hash k) = []) : ht.get hash k = none := by
  unfold get Chaining.get
  rw [h]
  rfl

end Dictht

/-- The invariant of a dictionary.  Outside a rehash the second table is not in
use; during one, the buckets of the first table that have been moved are empty. -/
structure Dict.Inv [DecidableEq key] (hash : key -> Nat) (d : Dict key val) : Prop where
  exact0 : d.ht0.Exact hash
  exact1 : d.ht1.Exact hash
  apart : forall k, d.ht0.get hash k = none ∨ d.ht1.get hash k = none
  idle : d.rehashidx = none ->
    d.ht1 = Dictht.reset ∧ (d.ht0 = Dictht.reset ∨ d.ht0.Live)
  moving : forall r, d.rehashidx = some r ->
    d.ht0.Live ∧ d.ht1.Live ∧ d.ht0.size ≠ d.ht1.size ∧
      forall i, i < r -> d.ht0.table i = []

namespace Dict

def dictSize (d : Dict key val) : Nat :=
  d.ht0.used + d.ht1.used

structure SameSettings (d d' : Dict key val) : Prop where
  iterators : d'.iterators = d.iterators
  canResize : d'.canResize = d.canResize

variable {ht : Dictht key val} {size : Nat} {k : key} {d d1 d2 d3 d' : Dict key val}

theorem addEntry_live (hlive : ht.Live) (i : Nat) (k : key) (v : val) : (addEntry ht i k v).Live :=
  ⟨hlive.allocated, hlive.mask, hlive.power, hlive.fits⟩

theorem moveEntry_eq (hash : key -> Nat) (hlive : d.ht1.Live) (e : key × val) :
    moveEntry hash d e =
      .ok { d with
        ht0 := { d.ht0 with used := d.ht0.used - 1 },
        ht1 := addEntry d.ht1 (d.ht1.index hash e.1) e.1 e.2 } := by
  unfold moveEntry
  dsimp only
  rw [hlive.bucket (hlive.index_lt hash e.1)]
  rfl

theorem skipEmpty_spec {table : Nat -> List (key × val)} (hj : j < size) (hchain : table j ≠ [])
    (left idx : Nat) (visits : Int) (hleft : left = size - idx) (hidx : idx ≤ j) :
    exists r, skipEmpty table left idx visits = .ok r ∧
      match r with
      | (.found i, _) =>
        idx ≤ i ∧ i < size ∧ table i ≠ [] ∧ forall i', idx ≤ i' -> i' < i -> table i' = []
      | (.limit i, _) => idx ≤ i ∧ forall i', idx ≤ i' -> i' < i -> table i' = [] := by
  induction left generalizing idx visits with
  | zero => exact absurd hleft (by lia)
  | succ left ih =>
    unfold skipEmpty
    cases htable : table idx with
    | cons e rest =>
      refine ⟨_, rfl, Nat.le_refl idx, by lia, ?_, ?_⟩
      · rw [htable]
        exact List.cons_ne_nil e rest
      · intro i' h1 h2
        exact absurd h1 (Nat.not_le.mpr h2)
    | nil =>
      have hone : forall i', idx ≤ i' -> i' < idx + 1 -> table i' = [] := by
        intro i' h1 h2
        have heq : i' = idx := by lia
        rw [heq]
        exact htable
      by_cases hvisits : visits - 1 = 0
      · refine ⟨(.limit (idx + 1), 0), by simp [hvisits], Nat.le_succ idx, hone⟩
      have hne : idx ≠ j := fun heq => hchain (heq ▸ htable)
      rcases ih (idx + 1) (visits - 1) (by lia) (by lia) with ⟨r, hr, hspec⟩
      refine ⟨r, by simpa [hvisits] using hr, ?_⟩
      rcases r with ⟨skipped, visits'⟩
      cases skipped with
      | found i =>
        refine ⟨by lia, hspec.right.left, hspec.right.right.left, ?_⟩
        intro i' h1 h2
        by_cases hi' : i' < idx + 1
        · exact hone i' h1 hi'
        · exact hspec.right.right.right i' (Nat.not_lt.mp hi') h2
      | limit i =>
        refine ⟨by lia, ?_⟩
        intro i' h1 h2
        by_cases hi' : i' < idx + 1
        · exact hone i' h1 hi'
        · exact hspec.right i' (Nat.not_lt.mp hi') h2

theorem skipEmpty_past {table : Nat -> List (key × val)} {left : Nat} {visits : Int}
    {s : Skipped × Int} (h : skipEmpty table left idx visits = .ok s) :
    (forall i, s.1 = .limit i -> idx < i) ∧ forall i, s.1 = .found i -> idx ≤ i := by
  fun_induction skipEmpty table left idx visits with
  | _ => grind

theorem moveBucket_size {hash : key -> Nat} {chain : List (key × val)}
    (h : moveBucket hash chain d = .ok d') : d'.ht0.size = d.ht0.size := by
  fun_induction moveBucket hash chain d with
  | _ => grind [moveEntry]

theorem rehashLoop_advances {hash : key -> Nat} {n : Nat} {visits : Int}
    {s : Dict key val × Bool} (h : rehashLoop hash n visits idx d = .ok s)
    (hidx : d.rehashidx = some idx) (hr : s.1.rehashidx = some r) :
    idx + min n 1 ≤ r ∧ s.1.ht0.size = d.ht0.size ∧ s.1.ht0.used ≠ 0 := by
  fun_induction rehashLoop hash n visits idx d with
  | case5 _ _ _ _ _ _ i _ hskip =>
    have hpast := (skipEmpty_past hskip).left i rfl
    grind
  | case7 _ _ _ _ _ _ i _ hskip _ hmove _ =>
    have hpast := (skipEmpty_past hskip).right i rfl
    have hsize := moveBucket_size hmove
    grind [Dictht.setBucket]
  | _ => grind [finishRehash]

theorem nextPowerFrom_spec (size fuel b : Nat) (hsize : size ≤ 2 ^ (b + fuel)) :
    exists b', nextPowerFrom size fuel (2 ^ b) = 2 ^ b' ∧ size ≤ 2 ^ b' ∧
      (b' = b ∨ 2 ^ b' < 2 * size) := by
  induction fuel generalizing b with
  | zero => exact ⟨b, rfl, hsize, Or.inl rfl⟩
  | succ fuel ih =>
    unfold nextPowerFrom
    by_cases hle : size ≤ 2 ^ b
    · rw [if_pos hle]
      exact ⟨b, rfl, hle, Or.inl rfl⟩
    rw [if_neg hle, ← Nat.pow_succ]
    have hexp : b + 1 + fuel = b + (fuel + 1) := by lia
    rcases ih (b + 1) (hexp ▸ hsize) with ⟨b', heq, hge, hbound⟩
    refine ⟨b', heq, hge, Or.inr ?_⟩
    rcases hbound with hb' | hlt
    · rw [hb', Nat.pow_succ]
      lia
    · exact hlt

theorem nextPower_spec (hsize : size ≤ 2 ^ 60) :
    (exists b, nextPower size = 2 ^ b) ∧ size ≤ nextPower size ∧ nextPower size < 2 ^ 61 := by
  have hlong : Not (LONG_MAX ≤ size) := by
    unfold LONG_MAX
    lia
  unfold nextPower
  rw [if_neg hlong]
  have hfuel : size ≤ 2 ^ (2 + 63) := by lia
  rcases nextPowerFrom_spec size 63 2 hfuel with ⟨b', heq, hge, hbound⟩
  have hinitial : DICT_HT_INITIAL_SIZE = 2 ^ 2 := rfl
  rw [hinitial, heq]
  refine ⟨⟨b', rfl⟩, hge, ?_⟩
  rcases hbound with hb' | hlt
  · rw [hb']
    decide
  · lia

theorem allocate_live (hsize : size ≤ 2 ^ 60) :
    (allocate (nextPower size) : Dictht key val).Live := by
  rcases nextPower_spec hsize with ⟨hpower, _, hlt⟩
  refine ⟨?_, rfl, hpower, hlt⟩
  change some (nextPower size * 8 % 2 ^ 64 / 8) = some (nextPower size)
  have hwrap : nextPower size * 8 < 2 ^ 64 := by lia
  rw [Nat.mod_eq_of_lt hwrap, Nat.mul_div_cancel _ (by decide)]

theorem allocate_exact (hash : key -> Nat) (size : Nat) :
    (allocate size : Dictht key val).Exact hash :=
  ⟨placed_empty _, by simp [allocate]⟩

theorem dictExpand_ok (hrehash : d.isRehashing = false) (hused : d.ht0.used ≤ size)
    (hnew : nextPower size ≠ d.ht0.size) :
    (d.dictExpand size).2 = true := by
  unfold dictExpand
  have hfits : Not ((d.isRehashing || decide (d.ht0.used > size)) = true) := by
    simp [hrehash, hused]
  rw [if_neg hfits, if_neg hnew]
  cases d.ht0.allocated with
  | none => rfl
  | some _ => rfl

variable [DecidableEq key] {hash : key -> Nat} {d : Dict key val}

def toMap (hash : key -> Nat) (d : Dict key val) (k : key) : Option val :=
  (d.ht0.get hash k).or (d.ht1.get hash k)

theorem inv_create (hash : key -> Nat) : (create : Dict key val).Inv hash where
  exact0 := exact_reset hash
  exact1 := exact_reset hash
  apart := fun _ => Or.inl rfl
  idle := fun _ => ⟨rfl, Or.inl rfl⟩
  moving := fun _ h => by cases h

theorem Inv.isRehashing_iff (h : d.Inv hash) : d.isRehashing = true -> d.ht0.Live ∧ d.ht1.Live := by
  intro hrehash
  unfold isRehashing at hrehash
  rcases isSome_iff_exists.mp hrehash with ⟨r, hr⟩
  exact ⟨(h.moving r hr).left, (h.moving r hr).right.left⟩

theorem Inv.idle_of_not (h : d.Inv hash) (hrehash : d.isRehashing = false) :
    d.ht1 = reset ∧ (d.ht0 = reset ∨ d.ht0.Live) := by
  apply h.idle
  unfold isRehashing at hrehash
  exact not_isSome_iff_eq_none.mp (by simp [hrehash])

theorem Inv.live_of_entries (h : d.Inv hash) (hsize : d.dictSize ≠ 0) : d.ht0.Live := by
  cases hrehash : d.isRehashing with
  | true => exact (h.isRehashing_iff hrehash).left
  | false =>
    rcases h.idle_of_not hrehash with ⟨h1, h0 | h0⟩
    · exfalso
      apply hsize
      unfold dictSize
      rw [h0, h1]
      rfl
    · exact h0

theorem Inv.toMap_empty (h : d.Inv hash) (hsize : d.dictSize = 0) (k : key) :
    d.toMap hash k = none := by
  have hused0 : d.ht0.used = 0 := by unfold dictSize at hsize; lia
  have hused1 : d.ht1.used = 0 := by unfold dictSize at hsize; lia
  have hget : forall ht : Dictht key val, ht.Exact hash -> ht.used = 0 ->
      ht = reset ∨ ht.Live -> ht.get hash k = none := by
    intro ht hexact hused hstate
    rcases hstate with hreset | hlive
    · rw [hreset]
      rfl
    · exact get_of_table (hexact.empty hlive hused _)
  unfold toMap
  cases hrehash : d.isRehashing with
  | true =>
    rcases h.isRehashing_iff hrehash with ⟨h0, h1⟩
    rw [hget _ h.exact0 hused0 (Or.inr h0), hget _ h.exact1 hused1 (Or.inr h1)]
    rfl
  | false =>
    rcases h.idle_of_not hrehash with ⟨h1, h0⟩
    rw [hget _ h.exact0 hused0 h0, hget _ h.exact1 hused1 (Or.inl h1)]
    rfl

/-!
# Rehashing
-/

structure Moved (hash : key -> Nat) (chain : List (key × val)) (d d' : Dict key val) : Prop where
  frame : d' = { d with ht0 := d'.ht0, ht1 := d'.ht1 }
  ht0 : d'.ht0 = { d.ht0 with used := d.ht0.used - chain.length }
  live : d'.ht1.Live
  size : d'.ht1.size = d.ht1.size
  exact1 : d'.ht1.Exact hash
  used : d'.ht1.used = d.ht1.used + chain.length
  get : forall k, d'.ht1.get hash k =
    (Chaining.lookup chain k).or (d.ht1.get hash k)

theorem addEntry_exact (hlive : ht.Live) (hexact : ht.Exact hash) (hnew : ht.get hash k = none)
    (v : val) : (addEntry ht (ht.index hash k) k v).Exact hash := by
  constructor
  · exact hexact.placed.insert hnew v
  · change ht.used + 1 = total ht.size
      (Function.update ht.table (ht.index hash k) ((k, v) :: ht.table (ht.index hash k)))
    rw [total_insert ht.table (hlive.index_lt hash k), hexact.used]

theorem addEntry_get (ht : Dictht key val) (k : key) (v : val) (k' : key) :
    (addEntry ht (ht.index hash k) k v).get hash k' = if k = k' then some v else ht.get hash k' :=
  get_insert (ht.index hash) ht.table k v k'

theorem moveBucket_spec (hlive : d.ht1.Live) (hexact : d.ht1.Exact hash)
    {chain : List (key × val)} (hnodup : (keys chain).Nodup)
    (hnew : forall k, k ∈ keys chain -> d.ht1.get hash k = none) :
    exists d', moveBucket hash chain d = .ok d' ∧ Moved hash chain d d' := by
  induction chain generalizing d with
  | nil =>
    refine ⟨d, rfl, ⟨rfl, rfl, hlive, rfl, hexact, rfl, fun k => rfl⟩⟩
  | cons e rest ih =>
    rw [keys_cons, List.nodup_cons] at hnodup
    have hnew_e : d.ht1.get hash e.1 = none := hnew e.1 List.mem_cons_self
    have hmove := moveEntry_eq hash hlive e
    generalize hd1 : ({ d with
      ht0 := { d.ht0 with used := d.ht0.used - 1 },
      ht1 := addEntry d.ht1 (d.ht1.index hash e.1) e.1 e.2 } : Dict key val) = d1
      at hmove
    have hht1 : d1.ht1 = addEntry d.ht1 (d.ht1.index hash e.1) e.1 e.2 := by
      rw [← hd1]
    have hget1 : forall k, d1.ht1.get hash k = if e.1 = k then some e.2 else d.ht1.get hash k := by
      intro k
      rw [hht1]
      exact addEntry_get d.ht1 e.1 e.2 k
    have hlive1 : d1.ht1.Live := by
      rw [hht1]
      exact addEntry_live hlive _ _ _
    have hexact1 : d1.ht1.Exact hash := by
      rw [hht1]
      exact addEntry_exact hlive hexact hnew_e e.2
    have hnew1 : forall k, k ∈ keys rest -> d1.ht1.get hash k = none := by
      intro k hk
      have hne : e.1 ≠ k := fun heq => hnodup.left (heq ▸ hk)
      rw [hget1, if_neg hne]
      exact hnew k (List.mem_cons_of_mem _ hk)
    rcases ih hlive1 hexact1 hnodup.right hnew1 with ⟨d', hrest, hmoved⟩
    refine ⟨d', ?_, ?_⟩
    · unfold moveBucket
      rw [hmove]
      exact hrest
    constructor
    · rw [hmoved.frame, ← hd1]
    · rw [hmoved.ht0, ← hd1]
      simp only [List.length_cons, Dictht.mk.injEq, true_and]
      lia
    · exact hmoved.live
    · rw [hmoved.size, hht1]
      rfl
    · exact hmoved.exact1
    · rw [hmoved.used, hht1]
      change d.ht1.used + 1 + rest.length = d.ht1.used + (rest.length + 1)
      lia
    · intro k
      rw [hmoved.get, hget1, lookup_cons]
      by_cases hk : e.1 = k
      · have hrest_none : lookup rest k = none := by
          rw [lookup_eq_none_iff, ← hk]
          exact hnodup.left
        rw [if_pos hk, if_pos hk, hrest_none]
        rfl
      · rw [if_neg hk, if_neg hk]

structure Keeps (hash : key -> Nat) (d d' : Dict key val) : Prop where
  inv : d'.Inv hash
  map : d'.toMap hash = d.toMap hash
  count : d'.dictSize = d.dictSize
  settings : SameSettings d d'

theorem Keeps.trans (h12 : Keeps hash d1 d2) (h23 : Keeps hash d2 d3) : Keeps hash d1 d3 where
  inv := h23.inv
  map := h23.map.trans h12.map
  count := h23.count.trans h12.count
  settings :=
    ⟨h23.settings.iterators.trans h12.settings.iterators,
      h23.settings.canResize.trans h12.settings.canResize⟩

theorem Inv.keeps_refl (h : d.Inv hash) : Keeps hash d d := ⟨h, rfl, rfl, rfl, rfl⟩

theorem finishRehash_keeps (h : d.Inv hash) (hidx : d.rehashidx = some idx) :
    Keeps hash d (finishRehash d).1 := by
  unfold finishRehash
  split
  · rename_i hused
    rcases h.moving idx hidx with ⟨hlive0, hlive1, _, _⟩
    have hempty : forall k, d.ht0.get hash k = none := fun k =>
      get_of_table (h.exact0.empty hlive0 hused _)
    constructor
    · exact {
        exact0 := h.exact1
        exact1 := exact_reset hash
        apart := fun _ => Or.inr rfl
        idle := fun _ => ⟨rfl, Or.inr hlive1⟩
        moving := fun _ hr => by cases hr }
    · funext k
      change (d.ht1.get hash k).or (reset.get hash k) = (d.ht0.get hash k).or (d.ht1.get hash k)
      rw [hempty k, get_reset, or_none, none_or]
    · change d.ht1.used + 0 = d.ht0.used + d.ht1.used
      lia
    · exact ⟨rfl, rfl⟩
  · exact h.keeps_refl

theorem round_keeps (h : d.Inv hash) (hidx : d.rehashidx = some idx) (hi : i < d.ht0.size)
    (hempty : forall j, idx ≤ j -> j < i -> d.ht0.table j = [])
    (hmoved : Moved hash (d.ht0.table i) d d') :
    Keeps hash d { d' with ht0 := d'.ht0.setBucket i [], rehashidx := some (i + 1) } := by
  rcases h.moving idx hidx with ⟨hlive0, hlive1, hsizes, hswept⟩
  have hgone : forall j, j < i -> d.ht0.table j = [] := by
    intro j hj
    by_cases hlt : j < idx
    · exact hswept j hlt
    · exact hempty j (Nat.not_lt.mp hlt) hj
  have hindex : forall k, (d'.ht0.setBucket i []).index hash k = d.ht0.index hash k := by
    intro k
    rw [hmoved.ht0]
    rfl
  have htable : (d'.ht0.setBucket i []).table = Function.update d.ht0.table i [] := by
    rw [hmoved.ht0]
    rfl
  have hget0 : forall k, (d'.ht0.setBucket i []).get hash k =
      if d.ht0.index hash k = i then none else d.ht0.get hash k := by
    intro k
    rw [hmoved.ht0]
    exact Chaining.Placed.get_clear i k
  have hlookup : forall k, lookup (d.ht0.table i) k =
      if d.ht0.index hash k = i then d.ht0.get hash k else none := by
    intro k
    by_cases hk : d.ht0.index hash k = i
    · rw [if_pos hk]
      unfold Dictht.get Chaining.get
      rw [hk]
    · rw [if_neg hk, lookup_eq_none_iff]
      intro hkey
      exact hk (h.exact0.placed.home i k hkey).symm
  have htotal := total_update d.ht0.table hi []
  have hused := h.exact0.used
  constructor
  · constructor
    · constructor
      · have hplaced := h.exact0.placed.clear i
        constructor
        · intro j k hk
          rw [htable] at hk
          rw [hindex]
          exact hplaced.home j k hk
        · intro j
          rw [htable]
          exact hplaced.nodup j
      · rw [htable, hmoved.ht0]
        change d.ht0.used - (d.ht0.table i).length = total d.ht0.size _
        rw [List.length_nil] at htotal
        lia
    · exact hmoved.exact1
    · intro k
      rw [hget0, hmoved.get, hlookup]
      by_cases hk : d.ht0.index hash k = i
      · exact Or.inl (if_pos hk)
      rw [if_neg hk, if_neg hk, none_or]
      exact h.apart k
    · intro hnone
      cases hnone
    · intro r hr
      injection hr with hr
      have hlive0' : (d'.ht0.setBucket i []).Live := by
        rw [hmoved.ht0]
        exact ⟨hlive0.allocated, hlive0.mask, hlive0.power, hlive0.fits⟩
      refine ⟨hlive0', hmoved.live, ?_, ?_⟩
      · change (d'.ht0.setBucket i []).size ≠ d'.ht1.size
        rw [hmoved.size, hmoved.ht0]
        exact hsizes
      intro j hj
      change (d'.ht0.setBucket i []).table j = []
      rw [htable]
      by_cases hji : j = i
      · rw [hji, Function.update_self]
      · rw [Function.update_of_ne hji]
        exact hgone j (by lia)
  · funext k
    change ((d'.ht0.setBucket i []).get hash k).or (d'.ht1.get hash k) =
      (d.ht0.get hash k).or (d.ht1.get hash k)
    rw [hget0, hmoved.get, hlookup]
    by_cases hk : d.ht0.index hash k = i
    · rw [if_pos hk, if_pos hk, none_or]
    · rw [if_neg hk, if_neg hk, none_or]
  · change (d'.ht0.setBucket i []).used + d'.ht1.used = d.ht0.used + d.ht1.used
    rw [hmoved.used, hmoved.ht0]
    change d.ht0.used - (d.ht0.table i).length + (d.ht1.used + (d.ht0.table i).length) = _
    rw [List.length_nil] at htotal
    lia
  · rw [hmoved.frame]
    exact ⟨rfl, rfl⟩

theorem rehashLoop_spec (n : Nat) (visits : Int) (idx : Nat) (h : d.Inv hash)
    (hidx : d.rehashidx = some idx) :
    exists d' b, rehashLoop hash n visits idx d = .ok (d', b) ∧ Keeps hash d d' := by
  induction n generalizing visits idx d with
  | zero => exact ⟨_, _, rfl, finishRehash_keeps h hidx⟩
  | succ n ih =>
    rcases h.moving idx hidx with ⟨hlive0, hlive1, _, hswept⟩
    unfold rehashLoop
    by_cases hused : d.ht0.used = 0
    · rw [if_pos hused]
      exact ⟨_, _, rfl, finishRehash_keeps h hidx⟩
    rw [if_neg hused]
    rcases h.exact0.nonempty hused hswept with ⟨j, hge, hlt, hchain⟩
    have hassert : Not (d.ht0.size ≤ idx) := by lia
    rw [if_neg hassert, hlive0.allocated, getD_some]
    rcases skipEmpty_spec hlt hchain (d.ht0.size - idx) idx visits rfl hge with
      ⟨⟨skipped, visits'⟩, hskip, hspec⟩
    rw [hskip]
    cases skipped with
    | limit i =>
      refine ⟨_, _, rfl, ⟨?_, rfl, rfl, ⟨rfl, rfl⟩⟩⟩
      refine ⟨h.exact0, h.exact1, h.apart, fun hnone => (by cases hnone), ?_⟩
      intro r hr
      injection hr with hr
      rcases h.moving idx hidx with ⟨_, _, hsizes, _⟩
      refine ⟨hlive0, hlive1, hsizes, ?_⟩
      intro i' hi'
      by_cases hold : i' < idx
      · exact hswept i' hold
      · exact hspec.right i' (Nat.not_lt.mp hold) (hr ▸ hi')
    | found i =>
      rcases hspec with ⟨_, hlti, _, hempty⟩
      have hnew : forall k, k ∈ keys (d.ht0.table i) -> d.ht1.get hash k = none := by
        intro k hk
        rcases h.apart k with hnone | hnone
        · exact absurd hnone (h.exact0.placed.mem_iff.mp hk).right
        · exact hnone
      rcases moveBucket_spec hlive1 h.exact1 (h.exact0.placed.nodup i) hnew with
        ⟨d', hmove, hmoved⟩
      have hkeeps := round_keeps h hidx hlti hempty hmoved
      rcases ih visits' (i + 1) hkeeps.inv rfl with ⟨d'', b, hloop, hrest⟩
      refine ⟨d'', b, ?_, hkeeps.trans hrest⟩
      dsimp only
      rw [hmove]
      exact hloop

theorem dictRehash_spec (h : d.Inv hash) (n : Nat) :
    exists d' b, dictRehash hash d n = .ok (d', b) ∧ Keeps hash d d' := by
  unfold dictRehash
  cases hidx : d.rehashidx with
  | none => exact ⟨d, false, rfl, h.keeps_refl⟩
  | some idx => exact rehashLoop_spec n _ idx h hidx

theorem rehashStep_spec (h : d.Inv hash) :
    exists d', rehashStep hash d = .ok d' ∧ Keeps hash d d' := by
  unfold rehashStep
  split
  · rcases dictRehash_spec h 1 with ⟨d', b, hrehash, hkeeps⟩
    rw [hrehash]
    exact ⟨d', rfl, hkeeps⟩
  · exact ⟨d, rfl, h.keeps_refl⟩

/-!
# Resizing
-/

@[simp] theorem allocate_get (hash : key -> Nat) (size : Nat) (k : key) :
    (allocate size : Dictht key val).get hash k = none := rfl

theorem dictExpand_keeps (h : d.Inv hash) (hsize : size ≤ 2 ^ 60) :
    Keeps hash d (d.dictExpand size).1 := by
  unfold dictExpand
  by_cases hrefuse : (d.isRehashing || decide (d.ht0.used > size)) = true
  · rw [if_pos hrefuse]
    exact h.keeps_refl
  rw [if_neg hrefuse]
  have hrehash : d.isRehashing = false := by
    cases hr : d.isRehashing with
    | true => exact absurd (by simp [hr]) hrefuse
    | false => rfl
  rcases h.idle_of_not hrehash with ⟨hht1, hht0⟩
  by_cases hsame : nextPower size = d.ht0.size
  · rw [if_pos hsame]
    exact h.keeps_refl
  rw [if_neg hsame]
  rcases hht0 with hreset | hlive
  · -- The first allocation; it is no rehash.
    have hnull : d.ht0.allocated = none := by
      rw [hreset]
      rfl
    rw [hnull]
    refine ⟨⟨allocate_exact hash _, h.exact1, fun _ => Or.inl rfl, ?_, ?_⟩, ?_, ?_, ⟨rfl, rfl⟩⟩
    · intro _
      exact ⟨hht1, Or.inr (allocate_live hsize)⟩
    · intro r hr
      change d.rehashidx = some r at hr
      unfold isRehashing at hrehash
      rw [hr] at hrehash
      cases hrehash
    · funext k
      change ((allocate (nextPower size)).get hash k).or (d.ht1.get hash k) =
        (d.ht0.get hash k).or (d.ht1.get hash k)
      rw [hreset, allocate_get, get_reset]
    · change 0 + d.ht1.used = d.ht0.used + d.ht1.used
      rw [hreset]
      rfl
  · rw [hlive.allocated]
    refine ⟨⟨h.exact0, allocate_exact hash _, fun _ => Or.inr rfl, ?_, ?_⟩, ?_, ?_, ⟨rfl, rfl⟩⟩
    · intro hnone
      cases hnone
    · intro r hr
      injection hr with hr
      refine ⟨hlive, allocate_live hsize, fun heq => hsame heq.symm, ?_⟩
      intro i hi
      rw [← hr] at hi
      exact absurd hi (Nat.not_lt_zero i)
    · funext k
      change (d.ht0.get hash k).or ((allocate (nextPower size)).get hash k) =
        (d.ht0.get hash k).or (d.ht1.get hash k)
      rw [hht1, allocate_get, get_reset]
    · change d.ht0.used + 0 = d.ht0.used + d.ht1.used
      rw [hht1]
      rfl

theorem dictExpand_live (h : d.Inv hash) (hsize : size ≤ 2 ^ 60)
    (hok : (d.dictExpand size).2 = true) : (d.dictExpand size).1.ht0.Live := by
  unfold dictExpand at hok ⊢
  split at hok
  · cases hok
  · rename_i hrefuse
    rw [if_neg hrefuse]
    split at hok
    · cases hok
    · rename_i hsame
      rw [if_neg hsame]
      cases hallocated : d.ht0.allocated with
      | none => exact allocate_live hsize
      | some slots =>
        cases hrehash : d.isRehashing with
        | true => exact (h.isRehashing_iff hrehash).left
        | false =>
          rcases (h.idle_of_not hrehash).right with hreset | hlive
          · rw [hreset] at hallocated
            cases hallocated
          · exact hlive

theorem dictResize_keeps (h : d.Inv hash) (hcount : d.dictSize < 2 ^ 59) :
    Keeps hash d d.dictResize.1 := by
  have hused : d.ht0.used < 2 ^ 59 := by
    unfold dictSize at hcount
    lia
  unfold dictResize
  split
  · exact h.keeps_refl
  · apply dictExpand_keeps h
    unfold DICT_HT_INITIAL_SIZE
    lia

theorem dictExpandIfNeeded_spec (h : d.Inv hash) (hcount : d.dictSize < 2 ^ 59) :
    exists d', d.dictExpandIfNeeded = (d', true) ∧ Keeps hash d d' ∧ d'.ht0.Live := by
  have hused : d.ht0.used < 2 ^ 59 := by
    unfold dictSize at hcount
    lia
  have hpair : forall size, size ≤ 2 ^ 60 -> (d.dictExpand size).2 = true ->
      exists d', d.dictExpand size = (d', true) ∧ Keeps hash d d' ∧ d'.ht0.Live := by
    intro size hsize hok
    refine ⟨(d.dictExpand size).1, ?_, dictExpand_keeps h hsize, dictExpand_live h hsize hok⟩
    rw [← hok]
  unfold dictExpandIfNeeded
  cases hrehash : d.isRehashing with
  | true => exact ⟨d, rfl, h.keeps_refl, (h.isRehashing_iff hrehash).left⟩
  | false =>
    rw [if_neg Bool.false_ne_true]
    rcases (h.idle_of_not hrehash).right with hreset | hlive
    · have hzero : d.ht0.size = 0 := by
        rw [hreset]
        rfl
      have hnone : d.ht0.used = 0 := by
        rw [hreset]
        rfl
      rw [if_pos hzero]
      apply hpair
      · decide
      apply dictExpand_ok hrehash
      · rw [hnone]
        exact Nat.zero_le _
      · rw [hzero]
        decide
    · rcases hlive.power with ⟨b, hb⟩
      have hpos : 0 < d.ht0.size := by
        rw [hb]
        exact Nat.two_pow_pos b
      have hnonzero : Not (d.ht0.size = 0) := by lia
      rw [if_neg hnonzero]
      split
      · rename_i hfull
        rw [Bool.and_eq_true, decide_eq_true_eq] at hfull
        have hwrap : d.ht0.used * 2 % 2 ^ 64 = d.ht0.used * 2 := by
          apply Nat.mod_eq_of_lt
          lia
        rw [hwrap]
        have hsize : d.ht0.used * 2 ≤ 2 ^ 60 := by lia
        apply hpair _ hsize
        apply dictExpand_ok hrehash
        · lia
        · have hge := (nextPower_spec hsize).right.left
          lia
      · exact ⟨d, rfl, h.keeps_refl, hlive⟩

/-!
# Searching
-/

theorem searchTable_live (hlive : ht.Live) (k : key) :
    searchTable hash ht k = .ok (ht.get hash k) := by
  unfold searchTable
  rw [hlive.bucket (hlive.index_lt hash k)]
  rfl

section

variable (h : d.Inv hash)
include h

theorem search_spec (hlive : d.ht0.Live) (k : key) : search hash d k = .ok (d.toMap hash k) := by
  unfold search toMap
  rw [searchTable_live hlive]
  cases hget : d.ht0.get hash k with
  | some v => rfl
  | none =>
    dsimp only
    rw [none_or]
    cases hrehash : d.isRehashing with
    | true =>
      rw [if_pos rfl]
      exact searchTable_live (h.isRehashing_iff hrehash).right k
    | false =>
      rw [if_neg Bool.false_ne_true, (h.idle_of_not hrehash).left]
      rfl

theorem dictFind_spec (k : key) :
    exists d', dictFind hash d k = .ok (d', d.toMap hash k) ∧ Keeps hash d d' := by
  unfold dictFind
  by_cases hempty : d.ht0.used + d.ht1.used = 0
  · rw [if_pos hempty, h.toMap_empty hempty]
    exact ⟨d, rfl, h.keeps_refl⟩
  rw [if_neg hempty]
  rcases rehashStep_spec h with ⟨d', hstep, hkeeps⟩
  have hlive : d'.ht0.Live := by
    apply hkeeps.inv.live_of_entries
    rw [hkeeps.count]
    exact hempty
  rw [hstep]
  dsimp only
  rw [search_spec hkeeps.inv hlive, hkeeps.map]
  exact ⟨d', rfl, hkeeps⟩

/-!
# Updates
-/

theorem put_ht0 {x : Option val} (hexact : ht.Exact hash) (hlive' : ht.Live)
    (hsize : ht.size = d.ht0.size)
    (hget : forall k', ht.get hash k' = if k = k' then x else d.ht0.get hash k')
    (hother : d.ht1.get hash k = none)
    (hempty : forall i, d.ht0.table i = [] -> ht.table i = [] ∨ d.rehashidx = none) :
    ({ d with ht0 := ht } : Dict key val).Inv hash ∧
      ({ d with ht0 := ht } : Dict key val).toMap hash = Function.update (d.toMap hash) k x := by
  refine ⟨⟨hexact, h.exact1, ?_, ?_, ?_⟩, ?_⟩
  · intro k'
    by_cases hk : k = k'
    · exact Or.inr (hk ▸ hother)
    · rw [hget, if_neg hk]
      exact h.apart k'
  · intro hidx
    exact ⟨(h.idle hidx).left, Or.inr hlive'⟩
  · intro r hr
    rcases h.moving r hr with ⟨_, hlive1, hsizes, hswept⟩
    refine ⟨hlive', hlive1, hsize ▸ hsizes, ?_⟩
    intro i hi
    rcases hempty i (hswept i hi) with hnil | hnone
    · exact hnil
    · rw [hr] at hnone
      cases hnone
  · funext k'
    change (ht.get hash k').or (d.ht1.get hash k') = _
    rw [hget]
    by_cases hk : k = k'
    · rw [if_pos hk, ← hk, Function.update_self, hother, or_none]
    · rw [if_neg hk, Function.update_of_ne (Ne.symm hk)]
      rfl

theorem put_ht1 {x : Option val} (hrehash : d.isRehashing = true) (hexact : ht.Exact hash)
    (hlive' : ht.Live) (hsize : ht.size = d.ht1.size)
    (hget : forall k', ht.get hash k' = if k = k' then x else d.ht1.get hash k')
    (hother : d.ht0.get hash k = none) :
    ({ d with ht1 := ht } : Dict key val).Inv hash ∧
      ({ d with ht1 := ht } : Dict key val).toMap hash = Function.update (d.toMap hash) k x := by
  refine ⟨⟨h.exact0, hexact, ?_, ?_, ?_⟩, ?_⟩
  · intro k'
    by_cases hk : k = k'
    · exact Or.inl (hk ▸ hother)
    · rw [hget, if_neg hk]
      exact h.apart k'
  · intro hidx
    change d.rehashidx = none at hidx
    unfold isRehashing at hrehash
    rw [hidx] at hrehash
    cases hrehash
  · intro r hr
    rcases h.moving r hr with ⟨hlive0, _, hsizes, hswept⟩
    exact ⟨hlive0, hlive', hsize ▸ hsizes, hswept⟩
  · funext k'
    change (d.ht0.get hash k').or (ht.get hash k') = _
    rw [hget]
    by_cases hk : k = k'
    · rw [if_pos hk, ← hk, Function.update_self, hother, none_or]
    · rw [if_neg hk, Function.update_of_ne (Ne.symm hk)]
      rfl

theorem addEntry_spec (hlive : d.ht0.Live) (hnew : d.toMap hash k = none) (v : val) :
    exists d',
      (if d.isRehashing then
        { d with ht1 := addEntry d.ht1 (d.ht1.index hash k) k v }
      else { d with ht0 := addEntry d.ht0 (d.ht0.index hash k) k v }) = d' ∧
      d'.Inv hash ∧ d'.toMap hash = Function.update (d.toMap hash) k (some v) ∧
      d'.dictSize = d.dictSize + 1 := by
  unfold toMap at hnew
  rcases or_eq_none_iff.mp hnew with ⟨hnew0, hnew1⟩
  cases hrehash : d.isRehashing with
  | true =>
    have hlive1 := (h.isRehashing_iff hrehash).right
    rw [if_pos rfl]
    have hput := put_ht1 h hrehash (addEntry_exact hlive1 h.exact1 hnew1 v)
      (addEntry_live hlive1 _ _ _) rfl (addEntry_get d.ht1 k v) hnew0
    exact ⟨_, rfl, hput.left, hput.right, rfl⟩
  | false =>
    have hidle : d.rehashidx = none := by
      unfold isRehashing at hrehash
      exact not_isSome_iff_eq_none.mp (by simp [hrehash])
    rw [if_neg Bool.false_ne_true]
    have hput := put_ht0 h (addEntry_exact hlive h.exact0 hnew0 v) (addEntry_live hlive _ _ _) rfl
      (addEntry_get d.ht0 k v) hnew1 fun _ _ => Or.inr hidle
    exact ⟨_, rfl, hput.left, hput.right, Nat.add_right_comm _ _ _⟩

theorem dictAddRaw_spec (hcount : d.dictSize < 2 ^ 59) (k : key) (junk : val) :
    exists d' r, dictAddRaw hash d k junk = .ok (d', r) ∧ d'.Inv hash ∧
      ((d.toMap hash k = none ∧ r = none ∧
          d'.toMap hash = Function.update (d.toMap hash) k (some junk) ∧
          d'.dictSize = d.dictSize + 1) ∨
        exists v, d.toMap hash k = some v ∧ r = some (some v) ∧ d'.toMap hash = d.toMap hash) := by
  rcases rehashStep_spec h with ⟨d1, hstep, hkeeps1⟩
  have hcount1 : d1.dictSize < 2 ^ 59 := by
    rw [hkeeps1.count]
    exact hcount
  rcases dictExpandIfNeeded_spec hkeeps1.inv hcount1 with ⟨d2, hexpand, hkeeps2, hlive⟩
  have hkeeps := hkeeps1.trans hkeeps2
  have hsearch := search_spec hkeeps.inv hlive k
  unfold dictAddRaw
  rw [hstep]
  dsimp only
  unfold dictKeyIndex
  rw [hexpand]
  dsimp only
  rw [hsearch]
  cases hmap : d2.toMap hash k with
  | some v =>
    refine ⟨d2, some (some v), rfl, hkeeps.inv, Or.inr ⟨v, ?_, rfl, hkeeps.map⟩⟩
    rw [← hkeeps.map]
    exact hmap
  | none =>
    rcases addEntry_spec hkeeps.inv hlive hmap junk with ⟨d', hd', hinv, hmap', hcount'⟩
    refine ⟨d', none, ?_, hinv, Or.inl ⟨?_, rfl, ?_, ?_⟩⟩
    · dsimp only
      rw [← hd']
      cases d2.isRehashing with
      | true => rfl
      | false => rfl
    · rw [← hkeeps.map]
      exact hmap
    · rw [hmap', hkeeps.map]
    · rw [hcount', hkeeps.count]

end

theorem assign_exact (hexact : ht.Exact hash) (k : key) (v : val) :
    ({ ht with table := fun i => assign (ht.table i) k v } : Dictht key val).Exact hash := by
  constructor
  · exact hexact.placed.assign k v
  · change ht.used = total ht.size (fun i => assign (ht.table i) k v)
    rw [hexact.used]
    simp [total]

theorem dictSetVal_spec (h : d.Inv hash) (k : key) (v : val) :
    (dictSetVal d k v).Inv hash ∧ forall k',
      (dictSetVal d k v).toMap hash k' =
        if k = k' then (d.toMap hash k').map (fun _ => v) else d.toMap hash k' := by
  have hget0 : forall k', (dictSetVal d k v).ht0.get hash k' =
      if k = k' then (d.ht0.get hash k').map (fun _ => v) else d.ht0.get hash k' :=
    fun k' => get_assign _ _ k v k'
  have hget1 : forall k', (dictSetVal d k v).ht1.get hash k' =
      if k = k' then (d.ht1.get hash k').map (fun _ => v) else d.ht1.get hash k' :=
    fun k' => get_assign _ _ k v k'
  constructor
  · refine ⟨assign_exact h.exact0 k v, assign_exact h.exact1 k v, ?_, ?_, ?_⟩
    · intro k'
      rw [hget0, hget1]
      rcases h.apart k' with hnone | hnone
      · left
        rw [hnone]
        split <;> rfl
      · right
        rw [hnone]
        split <;> rfl
    · intro hidx
      rcases h.idle hidx with ⟨h1, h0⟩
      refine ⟨?_, ?_⟩
      · simp only [dictSetVal, h1]
        rfl
      rcases h0 with hreset | hlive
      · left
        simp only [dictSetVal, hreset]
        rfl
      · exact Or.inr ⟨hlive.allocated, hlive.mask, hlive.power, hlive.fits⟩
    · intro r hr
      rcases h.moving r hr with ⟨hlive0, hlive1, hsizes, hswept⟩
      refine ⟨⟨hlive0.allocated, hlive0.mask, hlive0.power, hlive0.fits⟩,
        ⟨hlive1.allocated, hlive1.mask, hlive1.power, hlive1.fits⟩, hsizes, ?_⟩
      intro i hi
      change assign (d.ht0.table i) k v = []
      rw [hswept i hi]
      rfl
  · intro k'
    unfold toMap
    rw [hget0, hget1]
    by_cases hk : k = k'
    · rw [if_pos hk, if_pos hk, if_pos hk]
      cases d.ht0.get hash k' with
      | none => rfl
      | some _ => rfl
    · rw [if_neg hk, if_neg hk, if_neg hk]

theorem unlinkEntry_exact (hlive : ht.Live) (hexact : ht.Exact hash) (hfound : ht.get hash k ≠ none) :
    (unlinkEntry hash ht k).Exact hash := by
  constructor
  · exact hexact.placed.erase k
  change ht.used - 1 = total ht.size
    (Function.update ht.table (ht.index hash k) (erase (ht.table (ht.index hash k)) k))
  have hmem : k ∈ keys (ht.table (ht.index hash k)) := hexact.placed.mem_iff.mpr ⟨rfl, hfound⟩
  have htotal := total_erase ht.table (hlive.index_lt hash k) hmem
  have hused := hexact.used
  lia

theorem unlinkEntry_get (hexact : ht.Exact hash) (k k' : key) :
    (unlinkEntry hash ht k).get hash k' = if k = k' then none else ht.get hash k' :=
  hexact.placed.get_erase k k'

theorem unlinkEntry_live (hlive : ht.Live) (k : key) : (unlinkEntry hash ht k).Live :=
  ⟨hlive.allocated, hlive.mask, hlive.power, hlive.fits⟩

theorem unlinkEntry_nil (k : key) (h : ht.table i = []) : (unlinkEntry hash ht k).table i = [] := by
  change Function.update ht.table _ _ i = []
  by_cases hi : i = ht.index hash k
  · rw [hi, Function.update_self, ← hi, h]
    rfl
  · rw [Function.update_of_ne hi]
    exact h

theorem used_pos (hlive : ht.Live) (hexact : ht.Exact hash) (hfound : ht.get hash k ≠ none) :
    0 < ht.used := by
  apply Nat.pos_of_ne_zero
  intro hzero
  exact hfound (get_of_table (hexact.empty hlive hzero _))

theorem dictGenericDelete_spec (h : d.Inv hash) (k : key) :
    exists d', dictGenericDelete hash d k = .ok (d', d.toMap hash k) ∧
      d'.Inv hash ∧ d'.toMap hash = Function.update (d.toMap hash) k none ∧
      d'.dictSize + (if (d.toMap hash k).isSome then 1 else 0) = d.dictSize := by
  have habsent : d.toMap hash k = none -> d.toMap hash = Function.update (d.toMap hash) k none := by
    intro hnone
    rw [← hnone, Function.update_eq_self]
  unfold dictGenericDelete
  by_cases hempty : d.ht0.used = 0 ∧ d.ht1.used = 0
  · have hsize : d.dictSize = 0 := by
      unfold dictSize
      lia
    rw [if_pos hempty]
    have hnone := h.toMap_empty hsize k
    rw [hnone]
    exact ⟨d, rfl, h, habsent hnone, rfl⟩
  · rw [if_neg hempty]
    rcases rehashStep_spec h with ⟨d1, hstep, hkeeps⟩
    have hlive : d1.ht0.Live := by
      apply hkeeps.inv.live_of_entries
      rw [hkeeps.count]
      unfold dictSize
      lia
    have hinv := hkeeps.inv
    rw [hstep, ← hkeeps.map, ← hkeeps.count]
    rw [← hkeeps.map] at habsent
    dsimp only
    rw [searchTable_live hlive]
    cases hget0 : d1.ht0.get hash k with
    | some v =>
      have hfound : d1.ht0.get hash k ≠ none := by simp [hget0]
      have hnone1 : d1.ht1.get hash k = none := (hinv.apart k).resolve_left hfound
      have hvalue : d1.toMap hash k = some v := by
        unfold toMap
        rw [hget0, some_or]
      rw [hvalue]
      have hput := put_ht0 hinv (unlinkEntry_exact hlive hinv.exact0 hfound)
        (unlinkEntry_live hlive k) rfl (unlinkEntry_get hinv.exact0 k) hnone1
        fun i hi => Or.inl (unlinkEntry_nil k hi)
      refine ⟨_, rfl, hput.left, hput.right, ?_⟩
      have hpos := used_pos hlive hinv.exact0 hfound
      change d1.ht0.used - 1 + d1.ht1.used + 1 = d1.ht0.used + d1.ht1.used
      lia
    | none =>
      dsimp only
      cases hrehash : d1.isRehashing with
      | false =>
        have hnone : d1.toMap hash k = none := by
          unfold toMap
          rw [hget0, (hinv.idle_of_not hrehash).left]
          rfl
        rw [if_neg Bool.false_ne_true, hnone]
        exact ⟨d1, rfl, hinv, habsent hnone, rfl⟩
      | true =>
        have hlive1 := (hinv.isRehashing_iff hrehash).right
        rw [if_pos rfl, searchTable_live hlive1]
        have hvalue : d1.toMap hash k = d1.ht1.get hash k := by
          unfold toMap
          rw [hget0, none_or]
        cases hget1 : d1.ht1.get hash k with
        | none =>
          rw [hget1] at hvalue
          rw [hvalue]
          exact ⟨d1, rfl, hinv, habsent hvalue, rfl⟩
        | some v =>
          rw [hget1] at hvalue
          rw [hvalue]
          have hfound : d1.ht1.get hash k ≠ none := by simp [hget1]
          have hput := put_ht1 hinv hrehash (unlinkEntry_exact hlive1 hinv.exact1 hfound)
            (unlinkEntry_live hlive1 k) rfl (unlinkEntry_get hinv.exact1 k) hget0
          refine ⟨_, rfl, hput.left, hput.right, ?_⟩
          have hpos := used_pos hlive1 hinv.exact1 hfound
          change d1.ht0.used + (d1.ht1.used - 1) + 1 = d1.ht0.used + d1.ht1.used
          lia

theorem dictAdd_new (h : d.Inv hash) (hcount : d.dictSize < 2 ^ 59) (hnew : d.toMap hash k = none)
    (v junk : val) :
    exists d', dictAdd hash d k v junk = .ok (d', true) ∧ d'.Inv hash ∧
      d'.toMap hash = Function.update (d.toMap hash) k (some v) ∧
      d'.dictSize = d.dictSize + 1 := by
  rcases dictAddRaw_spec h hcount k junk with
    ⟨d', r, hadd, hinv', ⟨_, hr, hmap', hcount'⟩ | ⟨v', hsome, _, _⟩⟩
  · have hset := dictSetVal_spec hinv' k v
    refine ⟨dictSetVal d' k v, by simp only [dictAdd, hadd, hr], hset.left, ?_, hcount'⟩
    funext k'
    rw [hset.right, hmap']
    by_cases hk : k = k'
    · rw [if_pos hk, ← hk, Function.update_self, Function.update_self]
      rfl
    · rw [if_neg hk, Function.update_of_ne (Ne.symm hk), Function.update_of_ne (Ne.symm hk)]
  · rw [hnew] at hsome
    cases hsome

end Dict

/-!
# Sequences of operations
-/

variable [DecidableEq key]

def mapStep (op : DictOp key val) (s : (key -> Option val) × List (DictResult val)) :
    (key -> Option val) × List (DictResult val) :=
  let (m, results) := s
  match op with
  | .add k v _ =>
    if (m k).isSome then (m, .status false :: results)
    else (Function.update m k (some v), .status true :: results)
  | .addRaw k junk =>
    match m k with
    | some v => (m, .added (some (some v)) :: results)
    | none => (Function.update m k (some junk), .added none :: results)
  | .replace k v _ => (Function.update m k (some v), .status (m k).isNone :: results)
  | .delete k => (Function.update m k none, .status (m k).isSome :: results)
  | .unlink k => (Function.update m k none, .entry (m k) :: results)
  | .find k => (m, .entry (m k) :: results)
  | .expand _ => (m, .done :: results)
  | .resize => (m, .done :: results)
  | .rehash _ => (m, .done :: results)
  | .iterate _ => (m, .done :: results)
  | .setResize _ => (m, .done :: results)

structure Represents (hash : key -> Nat) (s : Dict key val × List (DictResult val))
    (a : (key -> Option val) × List (DictResult val)) : Prop where
  inv : s.1.Inv hash
  map : s.1.toMap hash = a.1
  results : s.2 = a.2

/-- No table is asked for whose byte count wraps: the argument of `dictExpand` is
at most `2 ^ 60`, and there are fewer than `2 ^ 59` entries. -/
def Addressable (op : DictOp key val) (s : Dict key val × List (DictResult val)) : Prop :=
  s.1.dictSize < 2 ^ 59 ∧
    match op with
    | .expand size => size ≤ 2 ^ 60
    | _ => True

instance (op : DictOp key val) (s : Dict key val × List (DictResult val)) :
    Decidable (Addressable op s) := by
  unfold Addressable
  cases op <;> infer_instance

theorem dictStep_represents {hash : key -> Nat} {op : DictOp key val}
    {s : Dict key val × List (DictResult val)} {a : (key -> Option val) × List (DictResult val)}
    (h : Represents hash s a) (hop : Addressable op s) :
    exists s', dictStep hash op s = .ok s' ∧ Represents hash s' (mapStep op a) := by
  rcases s with ⟨d, results⟩
  rcases a with ⟨m, results'⟩
  rcases h with ⟨hinv, hmap, hresults⟩
  change d.Inv hash at hinv
  change d.toMap hash = m at hmap
  change results = results' at hresults
  subst hmap
  subst hresults
  have hkeep : forall d' : Dict key val, d'.Inv hash -> d'.toMap hash = d.toMap hash ->
      Represents hash (d', DictResult.done :: results)
        (d.toMap hash, DictResult.done :: results) :=
    fun d' hinv' hmap' => ⟨hinv', hmap', rfl⟩
  cases op with
  | add k v junk =>
    cases hold : d.toMap hash k with
    | none =>
      rcases dictAdd_new hinv hop.left hold v junk with ⟨d', hadd, hinv', hmap', _⟩
      refine ⟨(d', .status true :: results), ?_, ?_⟩
      · simp only [dictStep, hadd, Except.map]
      · simp only [mapStep, hold, isSome_none, Bool.false_eq_true, if_false]
        exact ⟨hinv', hmap', rfl⟩
    | some v0 =>
      rcases dictAddRaw_spec hinv hop.left k junk with
        ⟨d', r, hadd, hinv', ⟨hnone, _, _, _⟩ | ⟨v', _, hr, hmap'⟩⟩
      · rw [hold] at hnone
        cases hnone
      refine ⟨(d', .status false :: results), ?_, ?_⟩
      · simp only [dictStep, dictAdd, hadd, hr, Except.map]
      · simp only [mapStep, hold, isSome_some, if_true]
        exact ⟨hinv', hmap', rfl⟩
  | addRaw k junk =>
    rcases dictAddRaw_spec hinv hop.left k junk with
      ⟨d', r, hadd, hinv', ⟨hnone, hr, hmap', _⟩ | ⟨v', hsome, hr, hmap'⟩⟩
    · refine ⟨(d', .added none :: results), ?_, ?_⟩
      · simp only [dictStep, hadd, hr, Except.map]
      · simp only [mapStep, hnone]
        exact ⟨hinv', hmap', rfl⟩
    · refine ⟨(d', .added (some (some v')) :: results), ?_, ?_⟩
      · simp only [dictStep, hadd, hr, Except.map]
      · simp only [mapStep, hsome]
        exact ⟨hinv', hmap', rfl⟩
  | replace k v junk =>
    rcases dictAddRaw_spec hinv hop.left k junk with ⟨d', r, hadd, hinv', hcases⟩
    have hset := dictSetVal_spec hinv' k v
    have hmap' : (dictSetVal d' k v).toMap hash = Function.update (d.toMap hash) k (some v) := by
      funext k'
      rw [hset.right]
      by_cases hk : k = k'
      · rw [if_pos hk, ← hk, Function.update_self]
        rcases hcases with ⟨_, _, hd', _⟩ | ⟨v', hsome, _, hd'⟩
        · rw [hd', Function.update_self]
          rfl
        · rw [hd', hsome]
          rfl
      · rw [if_neg hk, Function.update_of_ne (Ne.symm hk)]
        rcases hcases with ⟨_, _, hd', _⟩ | ⟨v', _, _, hd'⟩
        · rw [hd', Function.update_of_ne (Ne.symm hk)]
        · rw [hd']
    refine ⟨(dictSetVal d' k v, .status (d.toMap hash k).isNone :: results), ?_,
      ⟨hset.left, hmap', rfl⟩⟩
    rcases hcases with ⟨hnone, hr, _, _⟩ | ⟨v', hsome, hr, _⟩
    · simp only [dictStep, dictReplace, hadd, hr, hnone, Except.map, isNone_none]
    · simp only [dictStep, dictReplace, hadd, hr, hsome, Except.map, isNone_some]
  | delete k =>
    rcases dictGenericDelete_spec hinv k with ⟨d', hdelete, hinv', hmap', _⟩
    refine ⟨(d', .status (d.toMap hash k).isSome :: results), ?_, ⟨hinv', hmap', rfl⟩⟩
    simp only [dictStep, dictDelete, hdelete, Except.map]
  | unlink k =>
    rcases dictGenericDelete_spec hinv k with ⟨d', hdelete, hinv', hmap', _⟩
    refine ⟨(d', .entry (d.toMap hash k) :: results), ?_, ⟨hinv', hmap', rfl⟩⟩
    simp only [dictStep, dictUnlink, hdelete, Except.map]
  | find k =>
    rcases dictFind_spec hinv k with ⟨d', hfind, hkeeps⟩
    refine ⟨(d', .entry (d.toMap hash k) :: results), ?_, ⟨hkeeps.inv, hkeeps.map, rfl⟩⟩
    simp only [dictStep, hfind, Except.map]
  | expand size =>
    have hkeeps := dictExpand_keeps hinv hop.right
    exact ⟨_, rfl, hkeep _ hkeeps.inv hkeeps.map⟩
  | resize =>
    have hkeeps := dictResize_keeps hinv hop.left
    exact ⟨_, rfl, hkeep _ hkeeps.inv hkeeps.map⟩
  | rehash n =>
    rcases dictRehash_spec hinv n with ⟨d', b, hrehash, hkeeps⟩
    refine ⟨(d', .done :: results), ?_, hkeep _ hkeeps.inv hkeeps.map⟩
    simp only [dictStep, hrehash, Except.map]
  | iterate iterators | setResize on =>
    exact ⟨_, rfl, hkeep _ ⟨hinv.exact0, hinv.exact1, hinv.apart, hinv.idle, hinv.moving⟩ rfl⟩

theorem run_represents (hash : key -> Nat) {ops : List (DictOp key val)}
    (hall : AllSteps (dictStep hash) Addressable ops (Dict.create, [])) :
    exists s, runSteps (dictStep hash) ops (Dict.create, []) = .ok s ∧
      Represents hash s (ops.foldl (fun s op => mapStep op s) (fun _ => none, [])) := by
  have hstart : Represents hash ((create, []) : Dict key val × List (DictResult val))
      ((fun _ => none), []) :=
    ⟨inv_create hash, rfl, rfl⟩
  have hstep : forall (op : DictOp key val) (s : Dict key val × List (DictResult val)) a,
      Represents hash s a -> Addressable op s ->
      exists s', dictStep hash op s = .ok s' ∧ Represents hash s' (mapStep op a) :=
    fun _ _ _ h hop => dictStep_represents h hop
  exact runSteps_simulates hstep hstart hall

/-- Whatever the hash function: as long as no table is asked for whose size in
bytes is not a machine integer, every sequence of operations succeeds, returns
what a finite map returns, and keeps the invariant of the two tables. -/
theorem dict_refines_map (hash : key -> Nat) (ops : List (DictOp key val))
    (hall : AllSteps (dictStep hash) Addressable ops (Dict.create, [])) :
    exists d results, runSteps (dictStep hash) ops (Dict.create, []) = .ok (d, results) ∧
      d.Inv hash ∧
      (d.toMap hash, results) = ops.foldl (fun s op => mapStep op s) (fun _ => none, []) := by
  rcases run_represents hash hall with ⟨⟨d, results⟩, hrun, hrep⟩
  exact ⟨d, results, hrun, hrep.inv, Prod.ext hrep.map hrep.results⟩

theorem dict_refines_map_collisions :
    exists (d : Dict Nat Nat) (results : List (DictResult Nat)),
      runSteps (dictStep fun _ => 0)
        [.add 1 10 0, .add 2 20 0, .add 3 30 0, .add 4 40 0, .add 5 50 0,
          .rehash 1, .delete 2, .find 5] (Dict.create, []) = .ok (d, results) ∧
        d.toMap (fun _ => 0) 2 = none ∧ d.toMap (fun _ => 0) 5 = some 50 := by
  apply (dict_refines_map (fun _ : Nat => 0) (_ : List (DictOp Nat Nat)) (allSteps_of_check _)).elim
  · rintro d ⟨results, hrun, _, hspec⟩
    have hmap := congrArg Prod.fst hspec
    exact ⟨d, results, hrun, congrFun hmap 2, congrFun hmap 5⟩
  · decide +kernel

/-- A size whose byte count wraps to 0: the table is allocated without buckets
and the next insertion reads beyond it. -/
theorem dict_expand_wraps :
    (Dict.create.dictExpand (2 ^ 62) : Dict Nat Nat × Bool).2 = true ∧
      (Dict.create.dictExpand (2 ^ 62) : Dict Nat Nat × Bool).1.ht0.size = 2 ^ 62 ∧
      runSteps (dictStep fun k => k)
        [.expand (2 ^ 62), .add 1 10 0] (Dict.create, []) =
        (.error .outOfBounds : Except DictCrash
          (Dict Nat Nat × List (DictResult Nat))) := by
  refine ⟨by decide +kernel, by decide +kernel, ?_⟩
  rfl

/-- Calls of `dictRehash` for any positive numbers of buckets complete a rehash
once there are more calls than buckets left. -/
theorem Dict.rehash_completes {hash : key -> Nat} {d : Dict key val} (h : d.Inv hash)
    (ns : List Nat) (hpos : forall n, n ∈ ns -> 0 < n)
    (hcalls : forall r, d.rehashidx = some r -> ns ≠ [] ∧ d.ht0.size < r + ns.length) :
    exists d', runSteps (fun n d => (dictRehash hash d n).map Prod.fst) ns d = .ok d' ∧
      d'.isRehashing = false ∧ Keeps hash d d' := by
  induction ns generalizing d with
  | nil =>
    refine ⟨d, rfl, ?_, h.keeps_refl⟩
    simpa [isRehashing, Option.eq_none_iff_forall_ne_some] using hcalls
  | cons n ns ih =>
    rcases dictRehash_spec h n with ⟨d1, b, hcall, hkeeps⟩
    have hleft : forall r, d1.rehashidx = some r -> ns ≠ [] ∧ d1.ht0.size < r + ns.length := by
      intro r hr
      unfold dictRehash at hcall
      cases hidx : d.rehashidx with
      | none => grind
      | some idx =>
        rw [hidx] at hcall
        rcases rehashLoop_advances hcall hidx hr with ⟨hmore, hsize, hused⟩
        -- What is left in the first table lies behind the new index.
        rcases hkeeps.inv.exact0.nonempty hused (hkeeps.inv.moving r hr).right.right.right with
          ⟨j, hge, hlt, _⟩
        have hn := hpos n List.mem_cons_self
        have hlen := (hcalls idx hidx).right
        grind
    rcases ih hkeeps.inv (fun m hm => hpos m (List.mem_cons_of_mem n hm)) hleft with
      ⟨d', hrun, hdone, hrest⟩
    refine ⟨d', ?_, hdone, hkeeps.trans hrest⟩
    rw [runSteps_cons_ok (by rw [hcall]; rfl)]
    exact hrun

/-- The fifth of these keys starts the growth from 4 buckets to 8, and is the only one
in the larger table. -/
def growingOps : List (DictOp Nat Nat) :=
  [.add 1 10 0, .add 2 20 0, .add 5 50 0, .add 4 40 0, .add 9 90 0]

theorem rehash_completes_growing :
    exists s, runSteps (dictStep id) growingOps (Dict.create, []) = .ok s ∧
      s.1.rehashidx = some 0 ∧ s.1.ht0.used = 4 ∧ s.1.ht1.used = 1 ∧
      exists d', runSteps (fun n d => (dictRehash id d n).map Prod.fst) [1, 2, 1, 1, 1] s.1 = .ok d' ∧
        d'.isRehashing = false ∧ Keeps id s.1 d' := by
  have hall : AllSteps (dictStep id) Addressable growingOps (Dict.create, []) :=
    allSteps_of_check (by decide +kernel)
  rcases run_represents id hall with ⟨s, hrun, hrep⟩
  have hgrown : s.1.rehashidx = some 0 ∧ s.1.ht0.used = 4 ∧ s.1.ht1.used = 1 ∧ s.1.ht0.size = 4 := by
    cases hrun
    decide +kernel
  rcases hgrown with ⟨hidx, hused0, hused1, hsize⟩
  refine ⟨s, hrun, hidx, hused0, hused1, rehash_completes hrep.inv [1, 2, 1, 1, 1] (by decide) ?_⟩
  intro r hr
  rw [hidx] at hr
  cases hr
  rw [hsize]
  decide

end Redisoo
