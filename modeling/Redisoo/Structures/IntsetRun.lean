import Mathlib.Data.Finset.Sort
import Mathlib.Data.Int.ConditionallyCompleteOrder
import Mathlib.Order.ConditionallyCompleteLattice.Basic
import Redisoo.Foundation.Cells
import Redisoo.Foundation.Run
import Redisoo.Structures.Intset

/-!
# Intsets as sets

An intset stores the members of a finite set of integers in increasing order, and every
call keeps this and answers as the set does, as long as the size computed by
`intsetResize` does not wrap around.
-/

namespace Redisoo

open Foundation Foundation.Bytes Foundation.Cells Intset List Option

variable (junk : UInt8)

namespace Intset

def Width (w : Nat) : Prop :=
  w = 2 ∨ w = 4 ∨ w = 8

def array (w : Nat) (xs : List Int) : List UInt8 :=
  cells (leInt w) xs

structure Holds (is : Intset) (xs : List Int) : Prop where
  width : Width is.encoding
  sorted : xs.Pairwise (· < ·)
  wide : forall v, v ∈ xs -> SignedIn is.encoding v
  length : is.length = xs.length
  contents : is.contents = array is.encoding xs
  bytes : xs.length * is.encoding < 2 ^ 32

/-!
# Widths
-/

variable {i w : Nat} {is : Intset} {v : Int} {as bs xs : List Int} {rest a b c extra : List UInt8}

theorem Width.pos (h : Width w) : 0 < w := by
  rcases h with rfl | rfl | rfl <;> decide

theorem getEncoded_width (h : Width w) (is : Intset) (pos : Nat) :
    intsetGetEncoded is pos w = is.load w pos := by
  rcases h with rfl | rfl | rfl <;> rfl

theorem setPos_width (h : Width is.encoding) (pos : Nat) (value : Int) :
    intsetSetPos is pos value = is.store is.encoding pos value := by
  unfold intsetSetPos INTSET_ENC_INT64 INTSET_ENC_INT32
  rcases h with hw | hw | hw <;> rw [hw] <;> rfl

theorem moveTail_width (h : Width is.encoding) (src dst : Nat) :
    intsetMoveTail is src dst =
      (memmove is.contents (is.encoding * dst) (is.encoding * src)
        ((2 ^ 32 + is.length - src) % 2 ^ 32 * is.encoding % 2 ^ 32)).map fun contents =>
          { is with contents } := by
  unfold intsetMoveTail INTSET_ENC_INT64 INTSET_ENC_INT32
  rcases h with hw | hw | hw <;> rw [hw] <;> rfl

theorem valueEncoding_width (v : Int) : Width (intsetValueEncoding v) := by
  unfold intsetValueEncoding
  split
  · exact Or.inr (Or.inr rfl)
  · split
    · exact Or.inr (Or.inl rfl)
    · exact Or.inl rfl

theorem valueEncoding_le_iff (h : Width w) (hv : SignedIn 8 v) :
    intsetValueEncoding v ≤ w <-> SignedIn w v := by
  unfold intsetValueEncoding INTSET_ENC_INT64 INTSET_ENC_INT32 INTSET_ENC_INT16
  unfold SignedIn at hv ⊢
  rcases h with rfl | rfl | rfl
  · split
    · lia
    · split <;> lia
  · split
    · lia
    · split <;> lia
  · split
    · lia
    · split <;> lia

theorem signedIn_toInt (v : Int64) : SignedIn 8 v.toInt := by
  have hlow := Int64.le_toInt v
  have hhigh := Int64.toInt_lt v
  constructor <;> lia

theorem SignedIn.mono {w' : Nat} (h : SignedIn w v) (hle : w ≤ w') : SignedIn w' v := by
  have hpow : 256 ^ w ≤ 256 ^ w' := Nat.pow_le_pow_right (by decide) hle
  unfold SignedIn at h ⊢
  constructor <;> lia

theorem Holds.isLongLong (h : Holds is xs) (hv : v ∈ xs) : SignedIn 8 v := by
  have hle : is.encoding ≤ 8 := by
    rcases h.width with hw | hw | hw <;> rw [hw] <;> decide
  exact SignedIn.mono (h.wide v hv) hle

/-!
# Cells
-/

theorem array_length (w : Nat) (xs : List Int) : (array w xs).length = w * xs.length :=
  cells_length (leInt_length w) xs

theorem array_append (w : Nat) (xs ys : List Int) : array w (xs ++ ys) = array w xs ++ array w ys :=
  cells_append xs ys

theorem array_cons (w : Nat) (x : Int) (xs : List Int) :
    array w (x :: xs) = leInt w x ++ array w xs := rfl

theorem load_array (hcontents : is.contents = array w xs ++ rest) (hi : i < xs.length)
    (hwide : SignedIn w xs[i]) : is.load w i = some xs[i] := by
  have hsplit : is.contents =
      array w (xs.take i) ++ (leInt w xs[i] ++ (array w (xs.drop (i + 1)) ++ rest)) := by
    rw [hcontents, ← append_assoc (leInt w xs[i]), ← array_cons,
      ← drop_eq_getElem_cons hi, ← append_assoc, ← array_append,
      take_append_drop]
  have hdrop : is.contents.drop (w * i) = leInt w xs[i] ++ (array w (xs.drop (i + 1)) ++ rest) := by
    rw [hsplit]
    apply drop_left'
    rw [array_length, length_take, Nat.min_eq_left (Nat.le_of_lt hi)]
  unfold load
  rw [hdrop]
  exact readLeInt_leInt hwide _

theorem Holds.get (h : Holds is xs) (hi : i < xs.length) : intsetGetPos is i = some xs[i] := by
  have hcontents : is.contents = array is.encoding xs ++ [] := by
    rw [h.contents, append_nil]
  unfold intsetGetPos
  rw [getEncoded_width h.width]
  exact load_array hcontents hi (h.wide _ (getElem_mem hi))

theorem store_between (is : Intset) (h : Width is.encoding) {pos : Nat} (value : Int)
    (hcontents : is.contents = a ++ b ++ c) (ha : a.length = is.encoding * pos)
    (hb : b.length = is.encoding) :
    intsetSetPos is pos value = some { is with contents := a ++ leInt is.encoding value ++ c } := by
  have hlen : b.length = (leInt is.encoding value).length := by rw [hb, leInt_length]
  rw [setPos_width h]
  unfold store
  rw [hcontents, ← ha, memcpy_split hlen, map_some]

/-!
# Search
-/

structure Gap (xs : List Int) (v : Int) (p : Nat) : Prop where
  le : p ≤ xs.length
  below : forall i (h : i < xs.length), i < p -> xs[i] < v
  above : forall i (h : i < xs.length), p ≤ i -> v < xs[i]

def Tells (xs : List Int) (v : Int) (found : Bool) (pos : Nat) : Prop :=
  if found then xs[pos]? = some v else Gap xs v pos

theorem getElem_le (hsorted : xs.Pairwise (· < ·)) {j : Nat} (hj : j < xs.length) (hij : i ≤ j) :
    xs[i] ≤ xs[j] := by
  rcases Nat.lt_or_eq_of_le hij with hlt | rfl
  · exact Int.le_of_lt (pairwise_iff_getElem.mp hsorted i j (by lia) hj hlt)
  · exact Int.le_refl _

theorem searchFrom_spec (h : Holds is xs) (v : Int) (fuel : Nat) (min max mid cur : Int)
    (hmin : 0 ≤ min) (hmax : max < xs.length) (hrange : min ≤ max + 1)
    (hfuel : max - min + 1 < fuel)
    (hbelow : forall i (hi : i < xs.length), (i : Int) < min -> xs[i] < v)
    (habove : forall i (hi : i < xs.length), max < (i : Int) -> v < xs[i])
    (hcur : max < min -> v ≠ cur) :
    exists min' mid' cur', searchFrom is v fuel min max mid cur = some (min', mid', cur') ∧
      (if v = cur' then xs[mid'.toNat]? = some v else Gap xs v min'.toNat) := by
  induction fuel generalizing min max mid cur with
  | zero => lia
  | succ fuel ih =>
    by_cases hmore : max ≥ min
    · -- the element in the middle of the range
      generalize hm : (min + max) / 2 = m
      have hlt : m.toNat < xs.length := by lia
      have hget := h.get hlt
      rw [searchFrom, if_pos hmore]
      dsimp only
      rw [hm, hget]
      dsimp only
      by_cases hgt : v > xs[m.toNat]
      · rw [if_pos hgt]
        apply ih
        · lia
        · exact hmax
        · lia
        · lia
        · intro i hi hle
          have horder := getElem_le h.sorted hlt (i := i) (by lia)
          lia
        · exact habove
        · intro _
          lia
      · rw [if_neg hgt]
        by_cases hless : v < xs[m.toNat]
        · rw [if_pos hless]
          apply ih
          · exact hmin
          · lia
          · lia
          · lia
          · exact hbelow
          · intro i hi hle
            have horder := getElem_le h.sorted hi (i := m.toNat) (by lia)
            lia
          · intro _
            lia
        · have heq : v = xs[m.toNat] := by lia
          rw [if_neg hless]
          refine ⟨min, m, xs[m.toNat], rfl, ?_⟩
          rw [if_pos heq, List.getElem?_eq_getElem hlt, ← heq]
    · rw [searchFrom, if_neg hmore]
      refine ⟨min, mid, cur, rfl, ?_⟩
      rw [if_neg (hcur (by lia))]
      constructor
      · lia
      · intro i hi hlt
        exact hbelow i hi (by lia)
      · intro i hi hle
        exact habove i hi (by lia)

theorem Holds.search (h : Holds is xs) (v : Int) :
    exists found pos, intsetSearch is v = some (found, pos) ∧ Tells xs v found pos := by
  unfold intsetSearch
  rw [h.length]
  by_cases hempty : xs.length = 0
  · rw [if_pos hempty]
    refine ⟨false, 0, rfl, by lia, ?_, ?_⟩ <;> intro i hi <;> lia
  have hlast : xs.length - 1 < xs.length := by lia
  have hfirst : 0 < xs.length := by lia
  rw [if_neg hempty]
  simp only [bind, Option.bind, h.get hlast, h.get hfirst]
  by_cases hgt : v > xs[xs.length - 1]
  · rw [if_pos hgt]
    refine ⟨false, xs.length, rfl, Nat.le_refl _, ?_, ?_⟩
    · intro i hi _
      have horder := getElem_le h.sorted hlast (i := i) (by lia)
      lia
    · intro i hi hle
      lia
  · rw [if_neg hgt]
    by_cases hless : v < xs[0]
    · rw [if_pos hless]
      refine ⟨false, 0, rfl, Nat.zero_le _, ?_, ?_⟩
      · intro i hi hlt
        lia
      · intro i hi _
        have horder := getElem_le h.sorted hi (i := 0) (by lia)
        lia
    · rw [if_neg hless]
      have hloop := searchFrom_spec h v (xs.length + 1) 0 (xs.length - 1) (-1) (-1)
        (Int.le_refl 0) (by lia) (by lia) (by lia)
        (fun i hi hlt => by lia) (fun i hi hlt => by lia) (fun hlt => by lia)
      rcases hloop with ⟨min', mid', cur', hrun, htells⟩
      rw [hrun]
      dsimp only
      by_cases heq : v = cur'
      · rw [if_pos heq] at htells
        rw [if_pos heq]
        exact ⟨true, mid'.toNat, rfl, htells⟩
      · rw [if_neg heq] at htells
        rw [if_neg heq]
        exact ⟨false, min'.toNat, rfl, htells⟩

theorem Gap.split {p : Nat} (h : Gap xs v p) :
    exists as bs, xs = as ++ bs ∧ as.length = p ∧ (forall a, a ∈ as -> a < v) ∧
      forall b, b ∈ bs -> v < b := by
  have hle := h.le
  refine ⟨xs.take p, xs.drop p, (take_append_drop p xs).symm, ?_, ?_, ?_⟩
  · rw [length_take]
    lia
  · intro a ha
    rcases mem_take_iff_getElem.mp ha with ⟨i, hi, rfl⟩
    exact h.below i (by lia) (by lia)
  · intro b hb
    rcases mem_drop_iff_getElem.mp hb with ⟨i, hi, rfl⟩
    exact h.above (p + i) (by lia) (Nat.le_add_right p i)

theorem Holds.search_split (h : Holds is xs) (v : Int) : exists as bs,
    xs = as ++ v :: bs ∧ intsetSearch is v = some (true, as.length) ∨
    xs = as ++ bs ∧ intsetSearch is v = some (false, as.length) ∧ v ∉ xs ∧
      (forall a, a ∈ as -> a < v) ∧ forall b, b ∈ bs -> v < b := by
  rcases h.search v with ⟨found, pos, hsearch, htells⟩
  cases found with
  | true =>
    rcases List.getElem?_eq_some_iff.mp htells with ⟨hlt, rfl⟩
    refine ⟨xs.take pos, xs.drop (pos + 1), Or.inl ⟨?_, ?_⟩⟩
    · rw [← drop_eq_getElem_cons hlt, take_append_drop]
    · rw [hsearch, length_take, Nat.min_eq_left (Nat.le_of_lt hlt)]
  | false =>
    rcases Gap.split htells with ⟨as, bs, rfl, rfl, hbelow, habove⟩
    refine ⟨as, bs, Or.inr ⟨rfl, hsearch, ?_, hbelow, habove⟩⟩
    intro hmem
    rcases mem_append.mp hmem with ha | hb
    · exact Int.lt_irrefl v (hbelow v ha)
    · exact Int.lt_irrefl v (habove v hb)

/-!
# Insertion
-/

theorem sorted_insert (hsorted : (as ++ bs).Pairwise (· < ·)) (hbelow : forall a, a ∈ as -> a < v)
    (habove : forall b, b ∈ bs -> v < b) : (as ++ v :: bs).Pairwise (· < ·) := by
  rcases pairwise_append.mp hsorted with ⟨has, hbs, hcross⟩
  apply pairwise_append.mpr
  refine ⟨has, pairwise_cons.mpr ⟨habove, hbs⟩, ?_⟩
  intro a ha b hb
  rcases mem_cons.mp hb with rfl | hb
  · exact hbelow a ha
  · exact hcross a ha b hb

theorem resize_grow {len : Nat} (hlen : is.contents.length ≤ len * is.encoding)
    (hbytes : len * is.encoding < 2 ^ 32) :
    intsetResize junk is len =
      { is with
        contents := is.contents ++
          List.replicate (len * is.encoding - is.contents.length) junk } := by
  unfold intsetResize
  rw [Nat.mod_eq_of_lt hbytes, realloc_grow junk hlen]

theorem tail_bytes {length src n : Nat} (hn : src + n = length) (hlt : length * w < 2 ^ 32)
    (hw : 0 < w) : (2 ^ 32 + length - src) % 2 ^ 32 * w % 2 ^ 32 = w * n := by
  have hlength : length < 2 ^ 32 := Nat.lt_of_le_of_lt (Nat.le_mul_of_pos_right length hw) hlt
  have hsub : (2 ^ 32 + length - src) % 2 ^ 32 = n := by lia
  have hle : n * w ≤ length * w := Nat.mul_le_mul_right w (by lia)
  rw [hsub, Nat.mod_eq_of_lt (by lia), Nat.mul_comm]

theorem moveTail_up (is : Intset) (hw : Width is.encoding)
    (hlength : is.length = (as ++ bs).length)
    (hcontents : is.contents = array is.encoding as ++ (array is.encoding bs ++ extra))
    (hextra : extra.length = is.encoding) (hbytes : (as ++ bs).length * is.encoding < 2 ^ 32) :
    exists x, x.length = is.encoding ∧ intsetMoveTail is as.length (as.length + 1) =
      some { is with contents := array is.encoding as ++ x ++ array is.encoding bs } := by
  generalize hweq : is.encoding = w at *
  have hlen : is.contents.length = w * as.length + (w * bs.length + w) := by
    rw [hcontents, length_append, length_append, array_length, array_length, hextra]
  have hsrc : (is.contents.drop (w * as.length)).take (array w bs).length = array w bs := by
    rw [hcontents, ← array_length, drop_left, take_left]
  have hdst : w * (as.length + 1) = w * as.length + w := Nat.mul_succ w as.length
  have hmove := memmove_spec (w * (as.length + 1)) hsrc (by rw [array_length]; lia)
    (by rw [array_length]; lia)
  have htake : is.contents.take (w * (as.length + 1)) =
      array w as ++ (array w bs ++ extra).take w := by
    rw [hdst, take_add, hcontents, ← array_length, take_left, drop_left]
  have hend : is.contents.drop (w * (as.length + 1) + (array w bs).length) = [] := by
    apply drop_of_length_le
    rw [array_length]
    lia
  refine ⟨(array w bs ++ extra).take w, ?_, ?_⟩
  · rw [length_take, length_append]
    lia
  rw [length_append] at hlength
  rw [moveTail_width (by rw [hweq]; exact hw), hweq, hlength,
    tail_bytes rfl (by rw [← length_append]; exact hbytes) hw.pos, ← array_length w bs, hmove,
    map_some, htake, hend, append_nil]

theorem addAt_spec (h : Holds is (as ++ bs))
    (hfit : ((as ++ bs).length + 1) * is.encoding < 2 ^ 32) :
    intsetAddAt junk is as.length v =
      some { is with
        length := (as ++ bs).length + 1
        contents := array is.encoding (as ++ v :: bs) } := by
  have hpos := h.width.pos
  have hlt : (as ++ bs).length + 1 < 2 ^ 32 :=
    Nat.lt_of_le_of_lt (Nat.le_mul_of_pos_right _ hpos) hfit
  have hsize : ((as ++ bs).length + 1) * is.encoding - is.contents.length = is.encoding := by
    rw [h.contents, array_length, Nat.succ_mul, Nat.mul_comm]
    lia
  have hcontents : is.contents.length ≤ ((as ++ bs).length + 1) * is.encoding := by
    rw [h.contents, array_length, Nat.succ_mul, Nat.mul_comm]
    lia
  have hresize := resize_grow junk hcontents hfit
  rw [hsize, h.contents, array_append, append_assoc] at hresize
  -- the elements from the position on are moved only if there are any
  have hmove : exists x, x.length = is.encoding ∧ (if as.length < (as ++ bs).length then
        intsetMoveTail (intsetResize junk is ((as ++ bs).length + 1)) as.length (as.length + 1)
        else some (intsetResize junk is ((as ++ bs).length + 1))) =
      some { is with contents := array is.encoding as ++ x ++ array is.encoding bs } := by
    cases bs with
    | nil =>
      refine ⟨List.replicate is.encoding junk, length_replicate, ?_⟩
      rw [if_neg (by simp), hresize]
      simp [array]
    | cons b bs =>
      rw [if_pos (by simp), hresize]
      have hlast : (List.replicate is.encoding junk).length = is.encoding := length_replicate
      exact moveTail_up ⟨is.encoding, is.length, array is.encoding as ++
        (array is.encoding (b :: bs) ++ List.replicate is.encoding junk)⟩ h.width h.length rfl
        hlast h.bytes
  rcases hmove with ⟨x, hx, hmove⟩
  have hstore : intsetSetPos
      { is with contents := array is.encoding as ++ x ++ array is.encoding bs } as.length v =
        some { is with
          contents := array is.encoding as ++ leInt is.encoding v ++ array is.encoding bs } :=
    store_between ⟨is.encoding, is.length, array is.encoding as ++ x ++ array is.encoding bs⟩
      h.width v rfl (array_length _ _) hx
  have hlen : (intsetResize junk is ((as ++ bs).length + 1)).length = (as ++ bs).length := h.length
  rw [h.length] at hstore
  unfold intsetAddAt
  simp only [h.length, Nat.mod_eq_of_lt hlt, hlen, bind, Option.bind, hmove, hstore]
  rw [array_append, array_cons, ← append_assoc]

theorem Holds.inserted (h : Holds is (as ++ bs)) (hbelow : forall a, a ∈ as -> a < v)
    (habove : forall b, b ∈ bs -> v < b) (hwide : SignedIn is.encoding v)
    (hfit : ((as ++ bs).length + 1) * is.encoding < 2 ^ 32) :
    Holds
      { is with
        length := (as ++ bs).length + 1
        contents := array is.encoding (as ++ v :: bs) }
      (as ++ v :: bs) := by
  have hlen : (as ++ v :: bs).length = (as ++ bs).length + 1 := by
    simp only [length_append, length_cons]
    lia
  constructor
  · exact h.width
  · exact sorted_insert h.sorted hbelow habove
  · intro x hx
    rcases mem_append.mp hx with ha | hx
    · exact h.wide x (mem_append_left bs ha)
    · rcases mem_cons.mp hx with rfl | hb
      · exact hwide
      · exact h.wide x (mem_append_right as hb)
  · exact hlen.symm
  · rfl
  · rw [hlen]
    exact hfit

/-!
# Upgrades
-/

structure Halfway (cur new prepend n : Nat) (xs : List Int) (mem : List UInt8) : Prop where
  length : mem.length = new * (xs.length + 1)
  old : mem.take (cur * n) = array cur (xs.take n)
  moved : (mem.drop (new * (n + prepend))).take (new * (xs.length - n)) = array new (xs.drop n)

theorem upgradeFrom_spec {cur prepend n : Nat} {xs : List Int} {is : Intset} (hcur : Width cur)
    (hnew : Width is.encoding) (hle : cur ≤ is.encoding) (hprepend : prepend ≤ 1)
    (hn : n ≤ xs.length) (hwide : forall v, v ∈ xs -> SignedIn cur v)
    (h : Halfway cur is.encoding prepend n xs is.contents) :
    exists mem, upgradeFrom prepend cur n is = some { is with contents := mem } ∧
      Halfway cur is.encoding prepend 0 xs mem := by
  induction n generalizing is with
  | zero => exact ⟨is.contents, rfl, h⟩
  | succ n ih =>
    have hx := hwide xs[n] (getElem_mem hn)
    have hget : intsetGetEncoded is n cur = some xs[n] := by
      have hlt : n < (xs.take (n + 1)).length := by
        rw [length_take]
        lia
      have hcontents : is.contents =
          array cur (xs.take (n + 1)) ++ is.contents.drop (cur * (n + 1)) := by
        rw [← h.old, take_append_drop]
      have hload := load_array hcontents hlt (by rw [getElem_take]; exact hx)
      rw [getElem_take] at hload
      rw [getEncoded_width hcur, hload]
    have hnew' : is.encoding * (n + 1 + prepend) = is.encoding * (n + prepend) + is.encoding := by
      rw [← Nat.mul_succ]
      congr 1
      lia
    have hroom : is.encoding * (n + prepend) + (leInt is.encoding xs[n]).length ≤
        is.contents.length := by
      rw [leInt_length, h.length, ← hnew']
      exact Nat.mul_le_mul_left _ (by lia)
    rcases memcpy_at hroom with ⟨mem', hcopy, hlength, htake, hdrop⟩
    rw [leInt_length] at hdrop
    have hset : intsetSetPos is (n + prepend) xs[n] = some { is with contents := mem' } := by
      rw [setPos_width hnew]
      unfold store
      rw [hcopy, map_some]
    have hhalf : Halfway cur is.encoding prepend n xs mem' := by
      constructor
      · rw [hlength, h.length]
      · have hbefore : cur * n ≤ is.encoding * (n + prepend) :=
          Nat.mul_le_mul hle (Nat.le_add_right n prepend)
        have hless : cur * n ≤ cur * (n + 1) := Nat.mul_le_mul_left cur (Nat.le_succ n)
        have hcells : array cur (xs.take (n + 1)) = array cur (xs.take n) ++ leInt cur xs[n] := by
          rw [take_succ_eq_append_getElem hn, array_append, array_cons]
          simp [array]
        rw [htake _ hbefore, ← Nat.min_eq_left hless, ← take_take, h.old, hcells]
        apply take_left'
        rw [array_length, length_take, Nat.min_eq_left (by lia)]
      · have hcount : is.encoding * (xs.length - n) =
            is.encoding + is.encoding * (xs.length - (n + 1)) := by
          rw [Nat.add_comm, ← Nat.mul_succ]
          congr 1
          lia
        have hfirst : (leInt is.encoding xs[n]).length = is.encoding := leInt_length _ _
        have hmoved := h.moved
        rw [hnew'] at hmoved
        rw [hdrop, hcount, drop_eq_getElem_cons hn, array_cons, ← hmoved, take_add,
          take_left' hfirst, drop_left' hfirst]
    simp only [upgradeFrom, bind, Option.bind, hget, hset]
    exact @ih { is with contents := mem' } hnew hle (by lia) hhalf

def upgraded (xs : List Int) (v : Int) : List Int :=
  if v < 0 then v :: xs else xs ++ [v]

theorem upgraded_length (xs : List Int) (v : Int) : (upgraded xs v).length = xs.length + 1 := by
  unfold upgraded
  split
  · exact length_cons
  · simp

theorem upgradeAndAdd_spec (h : Holds is xs) (hless : is.encoding < intsetValueEncoding v)
    (hfit : (xs.length + 1) * intsetValueEncoding v < 2 ^ 32) :
    intsetUpgradeAndAdd junk is v =
      some
        { encoding := intsetValueEncoding v
          length := xs.length + 1
          contents := array (intsetValueEncoding v) (upgraded xs v) } := by
  have hnew := valueEncoding_width v
  generalize hneweq : intsetValueEncoding v = new at *
  have hlt : xs.length + 1 < 2 ^ 32 := Nat.lt_of_le_of_lt (Nat.le_mul_of_pos_right _ hnew.pos) hfit
  have hgrow : is.contents.length ≤ (xs.length + 1) * new := by
    rw [h.contents, array_length, Nat.mul_comm]
    exact Nat.mul_le_mul (Nat.le_succ _) (Nat.le_of_lt hless)
  have hresize := @resize_grow junk ⟨new, xs.length, is.contents⟩ (xs.length + 1) hgrow hfit
  dsimp only at hresize
  generalize hmem : is.contents ++ List.replicate ((xs.length + 1) * new - is.contents.length) junk =
    mem at hresize
  have hstart : Halfway is.encoding new (if v < 0 then 1 else 0) xs.length xs mem := by
    constructor
    · rw [← hmem, length_append, length_replicate, Nat.mul_comm new]
      lia
    · rw [← hmem, h.contents, take_length]
      exact take_cells (leInt_length _) xs _
    · rw [Nat.sub_self, Nat.mul_zero, take_zero, drop_length]
      rfl
  have hprepend : (if v < 0 then 1 else 0) ≤ 1 := by split <;> decide
  rcases @upgradeFrom_spec is.encoding _ _ xs ⟨new, xs.length, mem⟩ h.width hnew
    (Nat.le_of_lt hless) hprepend (Nat.le_refl _) h.wide hstart with ⟨mem', hloop, hdone⟩
  have hlength := hdone.length
  have hmoved := hdone.moved
  dsimp only at hlength hmoved hloop
  rw [Nat.mul_succ] at hlength
  rw [Nat.zero_add, Nat.sub_zero, drop_zero] at hmoved
  simp only [intsetUpgradeAndAdd, hneweq, h.length, Nat.mod_eq_of_lt hlt, hresize, bind,
    Option.bind, hloop]
  by_cases hneg : v < 0
  · rw [if_pos hneg, Nat.mul_one] at hmoved
    rw [take_of_length_le (by rw [length_drop]; lia)] at hmoved
    have hsplit : mem' = [] ++ mem'.take new ++ array new xs := by
      rw [nil_append, ← hmoved, take_append_drop]
    have hwidth : (mem'.take new).length = new := by
      rw [length_take]
      lia
    have hstore : intsetSetPos ⟨new, xs.length, mem'⟩ 0 v =
        some ⟨new, xs.length, [] ++ leInt new v ++ array new xs⟩ :=
      store_between ⟨new, xs.length, mem'⟩ hnew v hsplit rfl hwidth
    rw [if_pos hneg, if_pos rfl, hstore]
    simp only [Nat.mod_eq_of_lt hlt, upgraded, if_pos hneg, nil_append, array_cons]
  · rw [if_neg hneg, Nat.mul_zero, drop_zero] at hmoved
    have hsplit : mem' = array new xs ++ mem'.drop (new * xs.length) ++ [] := by
      rw [append_nil, ← hmoved, take_append_drop]
    have hwidth : (mem'.drop (new * xs.length)).length = new := by
      rw [length_drop]
      lia
    have hstore : intsetSetPos ⟨new, xs.length, mem'⟩ xs.length v =
        some ⟨new, xs.length, array new xs ++ leInt new v ++ []⟩ :=
      store_between ⟨new, xs.length, mem'⟩ hnew v hsplit (array_length new xs) hwidth
    have hcells : array new (xs ++ [v]) = array new xs ++ leInt new v ++ [] := by
      rw [array_append, array_cons, append_assoc]
      rfl
    rw [if_neg hneg, if_neg Nat.zero_ne_one, hstore]
    simp only [Nat.mod_eq_of_lt hlt, upgraded, if_neg hneg, hcells]

theorem Holds.upgrade (h : Holds is xs) (hv : SignedIn 8 v)
    (hless : is.encoding < intsetValueEncoding v)
    (hfit : (xs.length + 1) * intsetValueEncoding v < 2 ^ 32) :
    Holds
      { encoding := intsetValueEncoding v
        length := xs.length + 1
        contents := array (intsetValueEncoding v) (upgraded xs v) }
      (upgraded xs v) := by
  have hnew := valueEncoding_width v
  have hwide : SignedIn (intsetValueEncoding v) v :=
    (valueEncoding_le_iff hnew hv).mp (Nat.le_refl _)
  -- the value is beyond what the old cells hold, on one side or the other
  have hout : Not (SignedIn is.encoding v) := by
    intro hin
    have hle := (valueEncoding_le_iff h.width hv).mpr hin
    lia
  have hmem : forall x, x ∈ upgraded xs v <-> x = v ∨ x ∈ xs := by
    intro x
    unfold upgraded
    split
    · exact mem_cons
    · rw [mem_append, mem_singleton, or_comm]
  constructor
  · exact hnew
  · unfold upgraded
    split
    · rename_i hneg
      apply pairwise_cons.mpr
      refine ⟨?_, h.sorted⟩
      intro x hx
      have hin := h.wide x hx
      unfold SignedIn at hin hout
      lia
    · rename_i hpos
      apply pairwise_append.mpr
      refine ⟨h.sorted, pairwise_singleton _ v, ?_⟩
      intro x hx y hy
      have hin := h.wide x hx
      rw [mem_singleton.mp hy]
      unfold SignedIn at hin hout
      lia
  · intro x hx
    rcases (hmem x).mp hx with rfl | hx
    · exact hwide
    · exact SignedIn.mono (h.wide x hx) (Nat.le_of_lt hless)
  · exact (upgraded_length xs v).symm
  · rfl
  · rw [upgraded_length]
    exact hfit

/-!
# Removal
-/

theorem removeAt_spec (h : Holds is (as ++ v :: bs)) :
    intsetRemoveAt junk is as.length =
      some { is with
        length := (as ++ bs).length
        contents := array is.encoding (as ++ bs) } := by
  have hw := h.width
  have hcontents := h.contents
  have hbytes := h.bytes
  have hlength : is.length = as.length + 1 + bs.length := by
    rw [h.length, length_append, length_cons]
    lia
  generalize hweq : is.encoding = w at *
  rw [array_append, array_cons] at hcontents
  have hlast : is.length - 1 = (as ++ bs).length := by
    rw [hlength, length_append]
    lia
  have hsize : (is.length - 1) * w % 2 ^ 32 = (array w (as ++ bs)).length := by
    have hle : (as ++ bs).length * w ≤ is.length * w := Nat.mul_le_mul_right w (by lia)
    rw [h.length] at hle
    rw [hlast, Nat.mod_eq_of_lt (by lia), array_length, Nat.mul_comm]
  -- the tail is moved only if there is one
  have hmove : exists rest,
      (if as.length < is.length - 1 then intsetMoveTail is (as.length + 1) as.length
        else some is) = some { is with contents := array w (as ++ bs) ++ rest } := by
    cases bs with
    | nil =>
      refine ⟨leInt w v, ?_⟩
      rw [if_neg (by rw [hlast]; simp), append_nil]
      have hcells : is.contents = array w as ++ leInt w v := by
        rw [hcontents]
        simp [array]
      rw [← hcells]
    | cons b bs =>
      have hlen : is.contents.length = w * as.length + (w + w * (b :: bs).length) := by
        rw [hcontents, length_append, length_append, array_length, array_length, leInt_length]
      have hsrc : (is.contents.drop (w * (as.length + 1))).take (array w (b :: bs)).length =
          array w (b :: bs) := by
        have hsplit : is.contents = (array w as ++ leInt w v) ++ array w (b :: bs) := by
          rw [hcontents, append_assoc]
        have hbefore : (array w as ++ leInt w v).length = w * (as.length + 1) := by
          rw [length_append, array_length, leInt_length, Nat.mul_succ]
        rw [hsplit, drop_left' hbefore, take_length]
      have hmove := memmove_spec (w * as.length) hsrc
        (by rw [array_length, Nat.mul_succ]; lia) (by rw [array_length]; lia)
      have htake : is.contents.take (w * as.length) = array w as := by
        rw [hcontents]
        exact take_cells (leInt_length w) as _
      have hless : as.length < is.length - 1 := by
        rw [hlength, length_cons]
        lia
      rw [h.length] at hlength
      refine ⟨is.contents.drop (w * as.length + (array w (b :: bs)).length), ?_⟩
      rw [if_pos hless, moveTail_width (by rw [hweq]; exact hw), hweq, h.length,
        tail_bytes hlength.symm hbytes hw.pos, ← array_length w (b :: bs), hmove,
        map_some, htake, array_append]
  rcases hmove with ⟨rest, hmove⟩
  rw [hlast] at hmove hsize
  unfold intsetRemoveAt
  simp only [bind, Option.bind, hlast, hmove, intsetResize, hweq, hsize]
  rw [realloc_left junk rfl]

theorem Holds.erased (h : Holds is (as ++ v :: bs)) :
    Holds
      { is with
        length := (as ++ bs).length
        contents := array is.encoding (as ++ bs) }
      (as ++ bs) := by
  have hsub : (as ++ bs).Sublist (as ++ v :: bs) :=
    List.Sublist.append_left (sublist_cons_self v bs) as
  constructor
  · exact h.width
  · exact h.sorted.sublist hsub
  · intro x hx
    exact h.wide x (hsub.subset hx)
  · rfl
  · rfl
  · exact Nat.lt_of_le_of_lt (Nat.mul_le_mul_right _ hsub.length_le) h.bytes

/-!
# The calls
-/

theorem Holds.not_mem (h : Holds is xs) (hv : SignedIn 8 v)
    (hgt : is.encoding < intsetValueEncoding v) : Not (v ∈ xs) := by
  intro hmem
  have hle := (valueEncoding_le_iff h.width hv).mpr (h.wide v hmem)
  lia

theorem Holds.find (h : Holds is xs) (hv : SignedIn 8 v) :
    intsetFind is v = some (decide (v ∈ xs)) := by
  unfold intsetFind
  by_cases hle : intsetValueEncoding v ≤ is.encoding
  · rw [if_pos hle]
    rcases h.search_split v with ⟨as, bs, ⟨rfl, hsearch⟩ | ⟨_, hsearch, hout, _⟩⟩
    · rw [hsearch, map_some, decide_eq_true (by simp)]
    · rw [hsearch, map_some, decide_eq_false hout]
  · rw [if_neg hle, decide_eq_false (h.not_mem hv (by lia))]

section

variable (h : Holds is xs)

include h

def widthWith (is : Intset) (v : Int) : Nat :=
  max is.encoding (intsetValueEncoding v)

theorem Holds.add (hv : SignedIn 8 v) (hfit : v ∈ xs ∨ (xs.length + 1) * widthWith is v < 2 ^ 32) :
    exists is' xs', intsetAdd junk is v = some (is', decide (v ∉ xs)) ∧ Holds is' xs' ∧
      xs'.toFinset = insert v xs.toFinset := by
  unfold intsetAdd widthWith at *
  by_cases hgt : intsetValueEncoding v > is.encoding
  · have hout := h.not_mem hv hgt
    have hfit' : (xs.length + 1) * intsetValueEncoding v < 2 ^ 32 := by
      have hmax := hfit.resolve_left hout
      rw [Nat.max_eq_right (Nat.le_of_lt hgt)] at hmax
      exact hmax
    rw [if_pos hgt, upgradeAndAdd_spec junk h hgt hfit', map_some, decide_eq_true hout]
    refine ⟨_, _, rfl, h.upgrade hv hgt hfit', ?_⟩
    unfold upgraded
    split
    · exact toFinset_cons
    · rw [toFinset_append, Finset.union_comm]
      rfl
  · rw [if_neg hgt]
    rcases h.search_split v with ⟨as, bs, ⟨rfl, hsearch⟩ | ⟨rfl, hsearch, hout, hbelow, habove⟩⟩
    · have hin : v ∈ as ++ v :: bs := by simp
      simp only [bind, Option.bind, hsearch, if_true]
      rw [decide_eq_false (not_not_intro hin)]
      refine ⟨is, _, rfl, h, ?_⟩
      rw [Finset.insert_eq_of_mem (List.mem_toFinset.mpr hin)]
    · have hfit' : ((as ++ bs).length + 1) * is.encoding < 2 ^ 32 := by
        have hmax := hfit.resolve_left hout
        rw [Nat.max_eq_left (by lia)] at hmax
        exact hmax
      have hwide := (valueEncoding_le_iff h.width hv).mp (Nat.le_of_not_lt hgt)
      simp only [bind, Option.bind, hsearch]
      rw [if_neg Bool.false_ne_true, addAt_spec junk h hfit', map_some, decide_eq_true hout]
      refine ⟨_, _, rfl, h.inserted hbelow habove hwide hfit', ?_⟩
      ext x
      simp only [List.mem_toFinset, mem_append, mem_cons, Finset.mem_insert]
      tauto

theorem Holds.remove (hv : SignedIn 8 v) :
    exists is' xs', intsetRemove junk is v = some (is', decide (v ∈ xs)) ∧ Holds is' xs' ∧
      xs'.toFinset = xs.toFinset.erase v := by
  have hkeep : v ∉ xs -> exists is' xs', some (is, false) = some (is', decide (v ∈ xs)) ∧
      Holds is' xs' ∧ xs'.toFinset = xs.toFinset.erase v := by
    intro hout
    rw [decide_eq_false hout, Finset.erase_eq_of_notMem (mt List.mem_toFinset.mp hout)]
    exact ⟨is, xs, rfl, h, rfl⟩
  unfold intsetRemove
  by_cases hle : intsetValueEncoding v ≤ is.encoding
  · rw [if_pos hle]
    rcases h.search_split v with ⟨as, bs, ⟨rfl, hsearch⟩ | ⟨_, hsearch, hout, _⟩⟩
    · simp only [bind, Option.bind, hsearch, if_true]
      rw [removeAt_spec junk h, map_some, decide_eq_true (by simp)]
      refine ⟨_, _, rfl, h.erased, ?_⟩
      have hnodup : (as ++ v :: bs).Nodup := h.sorted.imp fun hlt => Int.ne_of_lt hlt
      have hnot : v ∉ as ++ bs := by
        have hperm : (as ++ v :: bs).Perm (v :: (as ++ bs)) := perm_middle
        exact (nodup_cons.mp (hperm.nodup hnodup)).left
      ext x
      simp only [List.mem_toFinset, mem_append, mem_cons, Finset.mem_erase]
      rw [mem_append] at hnot
      constructor
      · intro hx
        refine ⟨?_, by tauto⟩
        rintro rfl
        exact hnot hx
      · rintro ⟨hne, hx⟩
        tauto
    · simp only [bind, Option.bind, hsearch]
      exact hkeep hout
  · rw [if_neg hle]
    exact hkeep (h.not_mem hv (Nat.lt_of_not_le hle))

theorem Holds.sort : xs.toFinset.sort = xs := by
  have hnodup : xs.Nodup := h.sorted.imp fun hlt => Int.ne_of_lt hlt
  exact (toFinset_sort (fun a b => a ≤ b) hnodup).mpr (h.sorted.imp fun hlt => Int.le_of_lt hlt)

theorem Holds.get_all (pos : Nat) : intsetGet is pos = some xs[pos]? := by
  unfold intsetGet
  rw [h.length]
  by_cases hlt : pos < xs.length
  · rw [if_pos hlt, h.get hlt, map_some, List.getElem?_eq_getElem hlt]
  · rw [if_neg hlt, List.getElem?_eq_none (Nat.le_of_not_lt hlt)]

theorem Holds.walk_from {fuel : Nat} (hfuel : i + fuel = xs.length + 1)
    (hpos : 0 < fuel) : intsetWalk is fuel i = some (xs.drop i) := by
  induction fuel generalizing i with
  | zero => lia
  | succ fuel ih =>
    rw [intsetWalk, h.get_all]
    by_cases hi : i < xs.length
    · rw [List.getElem?_eq_getElem hi, drop_eq_getElem_cons hi]
      simp only [ih (i := i + 1) (by lia) (by lia), map_some]
    · rw [List.getElem?_eq_none (by lia), drop_eq_nil_of_le (by lia)]

theorem Holds.walk : intsetWalk is (xs.length + 1) 0 = some xs :=
  h.walk_from (Nat.zero_add _) (Nat.succ_pos _)

end

theorem holds_new : Holds intsetNew [] := by
  refine ⟨Or.inl rfl, List.Pairwise.nil, ?_, rfl, rfl, by decide⟩
  intro v hv
  cases hv

end Intset

/-!
# Sets
-/

def setStep (op : IntsetOp) (st : Finset Int × List IntsetResult) :
    Finset Int × List IntsetResult :=
  let (s, results) := st
  match op with
  | .add value => (insert value.toInt s, .flag (decide (value.toInt ∉ s)) :: results)
  | .remove value => (s.erase value.toInt, .flag (decide (value.toInt ∈ s)) :: results)
  | .find value => (s, .flag (decide (value.toInt ∈ s)) :: results)
  | .get pos => (s, .value (s.sort[pos.toNat]?) :: results)

def IntsetOp.Fits (op : IntsetOp) (st : Intset × List IntsetResult) : Prop :=
  match op with
  | .add value =>
    intsetFind st.1 value.toInt = some true ∨
      (st.1.length + 1) * widthWith st.1 value.toInt < 2 ^ 32
  | _ => True

instance (op : IntsetOp) (st : Intset × List IntsetResult) : Decidable (op.Fits st) := by
  cases op <;> unfold IntsetOp.Fits <;> infer_instance

namespace Intset

structure ReadsAs (s : Finset Int) (is : Intset) : Prop where
  width : is.encoding = 2 ∨ is.encoding = 4 ∨ is.encoding = 8
  wide : forall v, v ∈ s -> intsetValueEncoding v ≤ is.encoding
  length : intsetLen is = s.card
  /-- the array is the members in increasing order -/
  stored : forall i, i < s.card -> intsetGetPos is i = s.sort[i]?
  size : is.contents.length = is.encoding * s.card

theorem Holds.readsAs {is : Intset} {xs : List Int} (h : Holds is xs) : ReadsAs xs.toFinset is := by
  have hcard : xs.toFinset.card = xs.length := by
    rw [← Finset.length_sort (fun a b => a ≤ b), h.sort]
  constructor
  · exact h.width
  · intro v hv
    have hin := List.mem_toFinset.mp hv
    exact (valueEncoding_le_iff h.width (h.isLongLong hin)).mpr (h.wide v hin)
  · rw [hcard]
    exact h.length
  · intro i hi
    rw [hcard] at hi
    rw [h.sort, h.get hi, List.getElem?_eq_getElem hi]
  · rw [hcard, h.contents, array_length]

def Simulates (st : Intset × List IntsetResult) (abs : Finset Int × List IntsetResult) : Prop :=
  st.2 = abs.2 ∧ exists xs, Holds st.1 xs ∧ xs.toFinset = abs.1

theorem simulates_step (op : IntsetOp) (st : Intset × List IntsetResult)
    (abs : Finset Int × List IntsetResult) (h : Simulates st abs) (hfits : op.Fits st) :
    exists st', intsetStep junk op st = .ok st' ∧ Simulates st' (setStep op abs) := by
  rcases st with ⟨is, results⟩
  rcases abs with ⟨s, results'⟩
  rcases h with ⟨hresults, xs, hxs, rfl⟩
  dsimp only at hresults hxs
  subst hresults
  have hdecide : forall v : Int, decide (v ∈ xs.toFinset) = decide (v ∈ xs) :=
    fun v => decide_eq_decide.mpr List.mem_toFinset
  cases op with
  | add value =>
    have hv := signedIn_toInt value
    have hfit : value.toInt ∈ xs ∨ (xs.length + 1) * widthWith is value.toInt < 2 ^ 32 := by
      rcases hfits with hfound | hbytes
      · rw [hxs.find hv] at hfound
        exact Or.inl (of_decide_eq_true (Option.some.inj hfound))
      · rw [hxs.length] at hbytes
        exact Or.inr hbytes
    rcases hxs.add junk hv hfit with ⟨is', xs', hrun, hxs', hset⟩
    simp only [intsetStep, Intset.finish, hrun, setStep, decide_not, hdecide]
    exact ⟨_, rfl, rfl, xs', hxs', hset⟩
  | remove value =>
    rcases hxs.remove junk (signedIn_toInt value) with ⟨is', xs', hrun, hxs', hset⟩
    simp only [intsetStep, Intset.finish, hrun, setStep, hdecide]
    exact ⟨_, rfl, rfl, xs', hxs', hset⟩
  | find value =>
    simp only [intsetStep, Intset.finish, hxs.find (signedIn_toInt value), setStep, hdecide]
    exact ⟨_, rfl, rfl, xs, hxs, rfl⟩
  | get pos =>
    simp only [intsetStep, Intset.finish, hxs.get_all, hxs.sort, setStep]
    exact ⟨_, rfl, rfl, xs, hxs, rfl⟩

theorem simulates_run {ops : List IntsetOp}
    (hfits : AllSteps (intsetStep junk) IntsetOp.Fits ops (intsetNew, [])) :
    exists st, runSteps (intsetStep junk) ops (intsetNew, []) = .ok st ∧
      Simulates st (ops.foldl (fun abs op => setStep op abs) (∅, [])) :=
  runSteps_simulates (simulates_step junk) ⟨rfl, [], holds_new, rfl⟩ hfits

end Intset

/-- A run whose arrays fit into 32 bits of size is a run on a set of integers. -/
theorem intset_refines_set (junk : UInt8) (ops : List IntsetOp)
    (hfits : AllSteps (intsetStep junk) IntsetOp.Fits ops (intsetNew, [])) :
    exists is results, runSteps (intsetStep junk) ops (intsetNew, []) = .ok (is, results) ∧
      results = (ops.foldl (fun abs op => setStep op abs) (∅, [])).2 ∧
      ReadsAs (ops.foldl (fun abs op => setStep op abs) (∅, [])).1 is := by
  rcases simulates_run junk hfits with ⟨⟨is, results⟩, hrun, hresults, xs, hxs, hset⟩
  refine ⟨is, results, hrun, hresults, ?_⟩
  rw [← hset]
  exact hxs.readsAs

theorem intset_refines_set_upgrades :
    exists is results, runSteps (intsetStep 0)
        [.add 5, .add (-70000), .add 5000000000, .find 5, .remove 5, .get 1] (intsetNew, []) =
        .ok (is, results) ∧
      results = [.value (some 5000000000), .flag true, .flag true, .flag true, .flag true,
        .flag true] ∧
      ReadsAs {-70000, 5000000000} is := by
  apply (intset_refines_set 0 _ (allSteps_of_check _)).elim
  · rintro is ⟨results, hrun, _, hreads⟩
    refine ⟨is, results, hrun, ?_, ?_⟩
    · have heval := congrArg (fun r => r.toOption.map Prod.snd) hrun
      exact Option.some.inj (heval.symm.trans (by decide +kernel))
    · convert hreads using 1
      decide +kernel
  · decide +kernel

/-!
# The size of the array
-/

namespace Intset

def adds (n : Nat) : List IntsetOp :=
  (List.range n).map fun (i : Nat) => .add (Int64.ofInt (2 ^ 40 + (i : Int)))

theorem adds_succ (n : Nat) : adds (n + 1) = adds n ++ [.add (Int64.ofInt (2 ^ 40 + n))] := by
  unfold adds
  rw [range_succ, map_append]
  rfl

theorem toInt_added {i : Nat} (hi : i < 2 ^ 40) : (Int64.ofInt (2 ^ 40 + i)).toInt = 2 ^ 40 + i :=
  Int64.toInt_ofInt_of_le (by lia) (by lia)

variable {n : Nat}

theorem adds_set (hn : n ≤ 2 ^ 40) : ((adds n).foldl (fun abs op => setStep op abs) (∅, [])).1 =
      (Finset.range n).image fun (i : Nat) => (2 ^ 40 + (i : Int)) := by
  induction n with
  | zero => rfl
  | succ n ih =>
    rw [adds_succ, foldl_append, foldl_cons, foldl_nil, Finset.range_add_one,
      Finset.image_insert, ← ih (by lia)]
    have hv := toInt_added hn
    dsimp only [setStep]
    rw [hv]

theorem adds_card (n : Nat) :
    ((Finset.range n).image fun (i : Nat) => (2 ^ 40 + (i : Int))).card = n := by
  rw [Finset.card_image_of_injective, Finset.card_range]
  intro i j hij
  lia

theorem adds_holds (hn : n ≤ 2 ^ 40) {st : Intset × List IntsetResult}
    (h : Simulates st ((adds n).foldl (fun abs op => setStep op abs) (∅, []))) :
    exists xs, Holds st.1 xs ∧ xs.length = n ∧
      forall v, v ∈ xs <-> exists i, i < n ∧ v = 2 ^ 40 + (i : Int) := by
  rcases h with ⟨_, xs, hxs, hset⟩
  rw [adds_set hn] at hset
  refine ⟨xs, hxs, ?_, ?_⟩
  · rw [← hxs.sort, Finset.length_sort, hset, adds_card]
  intro v
  rw [← List.mem_toFinset, hset, Finset.mem_image]
  constructor
  · rintro ⟨i, hi, rfl⟩
    exact ⟨i, Finset.mem_range.mp hi, rfl⟩
  · rintro ⟨i, hi, rfl⟩
    exact ⟨i, Finset.mem_range.mpr hi, rfl⟩

theorem width_le {is : Intset} (h : Width is.encoding) (v : Int) : widthWith is v ≤ 8 := by
  unfold widthWith
  rcases h with hw | hw | hw <;> rcases valueEncoding_width v with hv | hv | hv <;>
    rw [hw, hv] <;> decide

theorem adds_fit (hn : n * 8 < 2 ^ 32) :
    AllSteps (intsetStep junk) IntsetOp.Fits (adds n) (intsetNew, []) := by
  induction n with
  | zero => trivial
  | succ n ih =>
    have hfits := ih (by lia)
    rw [adds_succ]
    apply allSteps_append hfits
    intro st' hrun
    rcases simulates_run junk hfits with ⟨st, hst, hsim⟩
    rw [hrun] at hst
    cases hst
    rcases adds_holds (by lia) hsim with ⟨xs, hxs, hlen, _⟩
    refine ⟨Or.inr ?_, fun _ _ => trivial⟩
    have hle := Nat.mul_le_mul_left (n + 1) (width_le hxs.width (Int64.ofInt (2 ^ 40 + n)).toInt)
    rw [hxs.length, hlen]
    lia

theorem addAt_wraps {is : Intset} {xs : List Int} (h : Holds is xs) (v : Int)
    (hw : is.encoding = 8) (hlen : (xs.length + 1) * 8 = 2 ^ 32) :
    intsetAddAt junk is xs.length v = none := by
  have hmod : (xs.length + 1) % 2 ^ 32 = xs.length + 1 := Nat.mod_eq_of_lt (by lia)
  have hresize : intsetResize junk is (xs.length + 1) = ⟨8, xs.length, []⟩ := by
    unfold intsetResize realloc
    rw [hw, hlen, Nat.mod_self, take_zero, Nat.zero_sub, h.length]
    rfl
  have hstore : intsetSetPos ⟨8, xs.length, []⟩ xs.length v = none := by
    rw [setPos_width (Or.inr (Or.inr rfl))]
    simp only [store, memcpy, leInt_length, length_nil]
    rw [if_neg (by lia), map_none]
  simp only [intsetAddAt, h.length, hmod, hresize, Nat.lt_irrefl, if_false, bind, Option.bind,
    hstore]

theorem adds_wrap (hn : (n + 1) * 8 = 2 ^ 32) :
    runSteps (intsetStep junk) (adds (n + 1)) (intsetNew, []) = .error .outOfBounds := by
  have hfits : AllSteps (intsetStep junk) IntsetOp.Fits (adds n) (intsetNew, []) :=
    adds_fit junk (by lia)
  rcases simulates_run junk hfits with ⟨⟨is, results⟩, hrun, hsim⟩
  rcases adds_holds (by lia) hsim with ⟨xs, hxs, hlen, hmem⟩
  dsimp only at hxs
  have hv : (Int64.ofInt (2 ^ 40 + (n : Int))).toInt = 2 ^ 40 + (n : Int) := toInt_added (by lia)
  have henc : intsetValueEncoding (2 ^ 40 + (n : Int)) = 8 := by
    unfold intsetValueEncoding
    exact if_pos (Or.inr (by lia))
  -- the members need eight bytes
  have hw : is.encoding = 8 := by
    have hfirst := hxs.wide (2 ^ 40) ((hmem _).mpr ⟨0, by lia, by lia⟩)
    unfold SignedIn at hfirst
    rcases hxs.width with hw | hw | hw
    · rw [hw] at hfirst
      lia
    · rw [hw] at hfirst
      lia
    · exact hw
  -- the new one is larger than every member
  have hsearch : intsetSearch is (2 ^ 40 + (n : Int)) = some (false, xs.length) := by
    rcases hxs.search_split (2 ^ 40 + (n : Int)) with
      ⟨as, bs, ⟨rfl, _⟩ | ⟨rfl, hsearch, _, _, habove⟩⟩
    · rcases (hmem (2 ^ 40 + n)).mp (by simp) with ⟨i, hi, heq⟩
      lia
    · cases bs with
      | nil => rw [hsearch, append_nil]
      | cons b bs =>
        rcases (hmem b).mp (by simp) with ⟨i, hi, rfl⟩
        have hless := habove _ mem_cons_self
        lia
  have hadd : intsetAdd junk is (2 ^ 40 + (n : Int)) = none := by
    simp only [intsetAdd, henc, hw, gt_iff_lt, Nat.lt_irrefl, if_false, bind, Option.bind,
      hsearch, Bool.false_eq_true]
    rw [addAt_wraps junk hxs _ hw (by rw [hlen]; exact hn), map_none]
  rw [adds_succ, runSteps_append, hrun]
  apply runSteps_cons_error
  simp only [intsetStep, Intset.finish, hv, hadd]

end Intset

/-- An array of 2^29 members of eight bytes would have 2^32 bytes, and is given none. -/
theorem intset_size_wraps :
    exists ops : List IntsetOp, ops.length = 2 ^ 29 ∧
      runSteps (intsetStep 0) ops (intsetNew, []) = .error .outOfBounds := by
  obtain ⟨n, hn⟩ : exists n, n + 1 = 2 ^ 29 := ⟨2 ^ 29 - 1, by decide⟩
  refine ⟨adds (n + 1), ?_, adds_wrap 0 (by lia)⟩
  unfold adds
  rw [length_map, length_range, hn]

end Redisoo
