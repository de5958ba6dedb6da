import Redisoo.Structures.ZsetRank

/-!
# Sorted sets as finite maps in order

Both encodings stand for a list of pairs in strictly increasing order in which every
element occurs once.
-/

namespace Redisoo

open Foundation
open Foundation.Lanes List
open Zskiplist (insertPair removePair items Linked inRange)

variable {score ele : Type} [LinearOrder score] [LinearOrder ele]

structure Ordered (l : List (score × ele)) : Prop where
  sorted : l.Pairwise PairLt
  distinct : (l.map Prod.snd).Nodup

/-!
# The operations on the map
-/

def mapScore (e : ele) (l : List (score × ele)) : Option score :=
  (l.find? fun q => decide (q.2 = e)).map Prod.fst

def mapRank (e : ele) (reverse : Bool) (l : List (score × ele)) : Option Nat :=
  (l.findIdx? fun q => decide (q.2 = e)).map fun i =>
    if reverse then l.length - 1 - i else i

def mapAdd (T : ZsetTypes score ele) (flags : Zobj.ZaddFlags) (s : score) (e : ele)
    (l : List (score × ele)) : List (score × ele) × Zobj.ZaddResult score :=
  match mapScore e l with
  | none => if flags.xx then (l, .nop) else (insertPair (s, e) l, .added (some s))
  | some old =>
    if flags.nx then (l, .nop)
    else
      match Zobj.newScore T flags s old with
      | none => (l, .nan)
      | some (s, newscore) =>
        if s = old then (l, .same newscore)
        else (insertPair (s, e) (removePair (old, e) l), .updated newscore)

def inLexRange (range : Zlexrangespec ele) (q : score × ele) : Bool :=
  zslLexValueGteMin q.2 range && zslLexValueLteMax q.2 range

/-- The first of the ranks from `start` to `stop`, where negative ranks count from the
end. -/
def fromRank (len : Nat) (start : Int) : Nat :=
  (if start < 0 then len + start else start).toNat

def uptoRank (len : Nat) (stop : Int) : Nat :=
  min len ((if stop < 0 then len + stop else stop) + 1).toNat

def Zobj.pairs : Zobj score ele -> List (score × ele)
  | .ziplist zl => zl
  | .skiplist zs => zs.zsl.pairs

def zsetMapStep (T : ZsetTypes score ele) (op : ZsetOp score ele)
    (st : List (score × ele) × List (ZsetResult score)) :
    List (score × ele) × List (ZsetResult score) :=
  let (l, results) := st
  match op.call with
  | .add flags s e =>
    ((mapAdd T flags s e l).1, .added (mapAdd T flags s e l).2 :: results)
  | .del e =>
    (l.filter (fun q => decide (q.2 ≠ e)), .deleted (mapScore e l).isSome :: results)
  | .score e => (l, .score (mapScore e l) :: results)
  | .rank e reverse => (l, .rank (mapRank e reverse l) :: results)
  | .count range => (l, .number (l.filter (inRange range)).length :: results)
  | .remrangebyscore range =>
    (l.filter (fun q => !inRange range q), .number (l.filter (inRange range)).length :: results)
  | .remrangebylex range =>
    (l.filter (fun q => !inLexRange range q),
      .number (l.filter (inLexRange range)).length :: results)
  | .remrangebyrank start stop =>
    let first := fromRank l.length start
    let last := uptoRank l.length stop
    (l.take first ++ l.drop (max first last), .number (last - first) :: results)
  | .toSkiplist => (l, .done :: results)
  | .toZiplist => (l, .done :: results)
  | .toZiplistIfNeeded _ => (l, .done :: results)

section Map

variable {T : ZsetTypes score ele} {l front back : List (score × ele)} {s : score} {e : ele}

section Elements

omit [LinearOrder score]

omit [LinearOrder ele] in
theorem member_cases (l : List (score × ele)) (e : ele) :
    e ∉ l.map Prod.snd ∨ exists front s back, l = front ++ (s, e) :: back := by
  by_cases h : e ∈ l.map Prod.snd
  · right
    rcases mem_map.mp h with ⟨⟨s, e'⟩, hq, heq⟩
    have heq' : e' = e := heq
    subst heq'
    rcases append_of_mem hq with ⟨front, back, hsplit⟩
    exact ⟨front, s, back, hsplit⟩
  · exact Or.inl h

omit [LinearOrder ele] in
theorem not_mem_around (h : ((front ++ (s, e) :: back).map Prod.snd).Nodup) :
    e ∉ (front ++ back).map Prod.snd := by
  rw [map_append, map_cons, nodup_middle, nodup_cons, ← map_append] at h
  exact h.left

theorem mapScore_absent (h : e ∉ l.map Prod.snd) : mapScore e l = none := by
  unfold mapScore
  rw [Option.map_eq_none_iff, List.find?_eq_none]
  intro q hq heq
  exact h (mem_map.mpr ⟨q, hq, of_decide_eq_true heq⟩)

theorem mapScore_at (h : ((front ++ (s, e) :: back).map Prod.snd).Nodup) :
    mapScore e (front ++ (s, e) :: back) = some s := by
  have habsent := not_mem_around h
  rw [map_append, mem_append, not_or] at habsent
  have hfront : front.find? (fun q => decide (q.2 = e)) = none := by
    rw [List.find?_eq_none]
    intro q hq heq
    exact habsent.left (mem_map.mpr ⟨q, hq, of_decide_eq_true heq⟩)
  unfold mapScore
  rw [List.find?_append, hfront]
  simp

theorem findIdx_absent (h : e ∉ l.map Prod.snd) :
    l.findIdx? (fun q => decide (q.2 = e)) = none := by
  rw [List.findIdx?_eq_none_iff]
  intro q hq
  apply decide_eq_false
  intro heq
  exact h (mem_map.mpr ⟨q, hq, heq⟩)

theorem findIdx_at (h : ((front ++ (s, e) :: back).map Prod.snd).Nodup) :
    (front ++ (s, e) :: back).findIdx? (fun q => decide (q.2 = e)) = some front.length := by
  have habsent := not_mem_around h
  rw [map_append, mem_append, not_or] at habsent
  rw [List.findIdx?_append, findIdx_absent habsent.left]
  simp [List.findIdx?_cons]

theorem zzlFindFrom_absent (i : Nat) (h : e ∉ l.map Prod.snd) : zzlFindFrom e i l = none := by
  induction l generalizing i with
  | nil => rfl
  | cons q rest ih =>
    rw [map_cons, mem_cons, not_or] at h
    rw [zzlFindFrom, if_neg (Ne.symm h.left)]
    exact ih (i + 1) h.right

theorem zzlFindFrom_at (i : Nat) (h : e ∉ front.map Prod.snd) :
    zzlFindFrom e i (front ++ (s, e) :: back) = some (i + front.length, s) := by
  induction front generalizing i with
  | nil => rw [nil_append, zzlFindFrom, if_pos rfl, length_nil, Nat.add_zero]
  | cons q rest ih =>
    rw [map_cons, mem_cons, not_or] at h
    rw [cons_append, zzlFindFrom, if_neg (Ne.symm h.left), ih (i + 1) h.right, length_cons]
    congr 2
    lia

theorem zzlFind_absent (hlen : T.sdslen e < 2 ^ 32) (h : e ∉ l.map Prod.snd) :
    zzlFind T l e = none := by
  unfold zzlFind
  rw [T.asUint_of_lt e hlen]
  exact zzlFindFrom_absent 0 h

theorem zzlFind_at (hlen : T.sdslen e < 2 ^ 32)
    (h : ((front ++ (s, e) :: back).map Prod.snd).Nodup) :
    zzlFind T (front ++ (s, e) :: back) e = some (front.length, s) := by
  have habsent := not_mem_around h
  rw [map_append, mem_append, not_or] at habsent
  unfold zzlFind
  rw [T.asUint_of_lt e hlen, zzlFindFrom_at 0 habsent.left, Nat.zero_add]

omit [LinearOrder ele] in
theorem zzlDelete_at : zzlDelete (front ++ (s, e) :: back) front.length = front ++ back := by
  unfold zzlDelete
  rw [eraseIdx_append_of_length_le (Nat.le_refl _), Nat.sub_self]
  rfl

theorem filter_element_absent (h : e ∉ l.map Prod.snd) :
    l.filter (fun q => decide (q.2 ≠ e)) = l := by
  rw [filter_eq_self]
  intro q hq
  apply decide_eq_true
  intro heq
  exact h (mem_map.mpr ⟨q, hq, heq⟩)

end Elements

theorem filter_element (h : Ordered (front ++ (s, e) :: back)) :
    (front ++ (s, e) :: back).filter (fun q => decide (q.2 ≠ e)) = front ++ back := by
  have habsent := not_mem_around h.distinct
  rw [filter_append, filter_cons_of_neg (by simp), ← filter_append, filter_eq_self]
  intro q hq
  apply decide_eq_true
  intro heq
  exact habsent (mem_map.mpr ⟨q, hq, heq⟩)

theorem Ordered.sublist {l' : List (score × ele)} (h : Ordered l) (hsub : l'.Sublist l) :
    Ordered l' :=
  ⟨h.sorted.sublist hsub, distinct_sublist h.distinct hsub⟩

theorem Ordered.insert (h : Ordered l) (hnew : e ∉ l.map Prod.snd) (s : score) :
    Ordered (insertPair (s, e) l) :=
  ⟨Zskiplist.insertPair_sorted h.sorted (fun hin => hnew (mem_map_of_mem hin)),
    insertPair_distinct h.distinct hnew⟩

theorem Ordered.append_right (h : Ordered (front ++ (s, e) :: back)) : Ordered (front ++ back) :=
  h.sublist (List.Sublist.append (List.Sublist.refl _) (sublist_cons_self _ _))

theorem zsetMapStep_ordered (T : ZsetTypes score ele) (op : ZsetOp score ele)
    {results : List (ZsetResult score)} (h : Ordered l) :
    Ordered (zsetMapStep T op (l, results)).1 := by
  unfold zsetMapStep
  dsimp only
  cases op.call with
  | add flags s e =>
    change Ordered (mapAdd T flags s e l).1
    unfold mapAdd
    rcases member_cases l e with habsent | ⟨front, old, back, rfl⟩
    · rw [mapScore_absent habsent]
      dsimp only
      split
      · exact h
      · exact h.insert habsent s
    · rw [mapScore_at h.distinct]
      dsimp only
      split
      · exact h
      split
      · exact h
      split
      · exact h
      · dsimp only
        rw [Zskiplist.removePair_middle h.sorted]
        exact h.append_right.insert (not_mem_around h.distinct) _
  | del e | remrangebyscore range | remrangebylex range => exact h.sublist filter_sublist
  | score e => exact h
  | rank e reverse => exact h
  | count range => exact h
  | remrangebyrank start stop =>
    apply h.sublist
    have hsub : (l.drop (max (fromRank l.length start) (uptoRank l.length stop))).Sublist
        (l.drop (fromRank l.length start)) :=
      drop_sublist_drop_left l (Nat.le_max_left _ _)
    have hall := List.Sublist.append (List.Sublist.refl (l.take (fromRank l.length start))) hsub
    rw [take_append_drop] at hall
    exact hall
  | toSkiplist => exact h
  | toZiplist => exact h
  | toZiplistIfNeeded maxelelen => exact h

end Map

/-!
# The ziplist form
-/

section Ziplist

variable {T : ZsetTypes score ele} {l : List (score × ele)} {s : score} {e : ele}

theorem insertPair_split {front back : List (score × ele)} {q : score × ele}
    (hfront : forall r, r ∈ front -> PairLt r q) (hback : forall r, r ∈ back -> Not (PairLt r q)) :
    insertPair q (front ++ back) = front ++ q :: back := by
  have hfilter := filter_split (P := fun r => decide (PairLt r q))
    (fun r hr => decide_eq_true (hfront r hr)) (fun r hr => decide_eq_false (hback r hr))
  unfold insertPair
  rw [hfilter.left, hfilter.right]

omit [LinearOrder score] in
theorem zzlCompareElements_pos {T : ZsetTypes score ele} {v c : ele}
    (hv : T.sdslen v < 2 ^ 31) (hc : T.sdslen c < 2 ^ 31) :
    0 < zzlCompareElements T v c <-> c < v := by
  unfold zzlCompareElements
  rw [T.asUint_of_lt c (by lia), T.sdscmp_pos, Nat.mod_eq_of_lt (show T.sdslen v < 2 ^ 32 by lia),
    Nat.mod_eq_of_lt (show T.sdslen c < 2 ^ 32 by lia)]
  dsimp only
  split
  · rw [Int.bmod_eq_of_le (by lia) (by lia)]
    lia
  · lia

theorem zzlPlace_spec (s : score) {e : ele} (i : Nat) {l : List (score × ele)}
    (hcmp : forall q, q ∈ l -> (0 < zzlCompareElements T q.2 e <-> e < q.2)) :
    exists front back, l = front ++ back ∧
      (forall q, q ∈ front -> Not (PairLt (s, e) q)) ∧
      (forall q rest, back = q :: rest -> PairLt (s, e) q) ∧
      (back = [] ∧ zzlPlace T s e i l = none ∨
        zzlPlace T s e i l = some (i + front.length)) := by
  induction l generalizing i with
  | nil =>
    refine ⟨[], [], rfl, fun q hq => absurd hq not_mem_nil, ?_, Or.inl ⟨rfl, rfl⟩⟩
    intro q rest hcons
    cases hcons
  | cons q rest ih =>
    rcases q with ⟨s', e'⟩
    have hhead := hcmp (s', e') mem_cons_self
    by_cases hafter : PairLt (s, e) (s', e')
    · refine ⟨[], (s', e') :: rest, rfl, fun q hq => absurd hq not_mem_nil, ?_, Or.inr ?_⟩
      · intro q rest' hcons
        cases hcons
        exact hafter
      rw [zzlPlace]
      rcases hafter with hlt | ⟨heq, hlt⟩
      · exact if_pos hlt
      · have heq' : s' = s := heq.symm
        rw [if_neg (by rw [heq']; exact lt_irrefl _), if_pos ⟨heq', hhead.mpr hlt⟩]
        rfl
    · rcases ih (i + 1) (fun q hq => hcmp q (mem_cons_of_mem _ hq)) with
        ⟨front, back, hsplit, hfront, hback, hplace⟩
      have hskip : zzlPlace T s e i ((s', e') :: rest) = zzlPlace T s e (i + 1) rest := by
        rw [zzlPlace, if_neg (fun hlt => hafter (Or.inl hlt)),
          if_neg (fun h => hafter (Or.inr ⟨h.left.symm, hhead.mp h.right⟩))]
      refine ⟨(s', e') :: front, back, by rw [hsplit]; rfl, ?_, hback, ?_⟩
      · intro q hq
        rw [mem_cons] at hq
        rcases hq with rfl | hq
        · exact hafter
        · exact hfront q hq
      · rw [hskip, length_cons]
        rcases hplace with hnone | hsome
        · exact Or.inl hnone
        right
        rw [hsome]
        congr 1
        lia

theorem zzlInsert_eq (h : Ordered l) (hnew : e ∉ l.map Prod.snd) (hlen : T.sdslen e < 2 ^ 31)
    (hshort : forall q, q ∈ l -> T.sdslen q.2 < 2 ^ 31)
    (hbytes : zlbytes T (insertPair (s, e) l) < 2 ^ 32) :
    zzlInsert T l e s = .ok (insertPair (s, e) l) := by
  rcases zzlPlace_spec s 0 (fun q hq => zzlCompareElements_pos (hshort q hq) hlen)
    with ⟨front, back, hsplit, hfront, hback, hplace⟩
  have hpair : (s, e) ∉ l := fun hin => hnew (mem_map_of_mem hin)
  have hinsert : insertPair (s, e) l = front ++ (s, e) :: back := by
    rw [hsplit]
    apply insertPair_split
    · intro q hq
      have hne : q ≠ (s, e) := by
        rintro rfl
        exact hpair (by rw [hsplit]; exact mem_append_left _ hq)
      rcases pairLt_trichotomy q (s, e) with hlt | heq | hgt
      · exact hlt
      · exact absurd heq hne
      · exact absurd hgt (hfront q hq)
    · intro q hq hlt
      cases hcons : back with
      | nil =>
        rw [hcons] at hq
        cases hq
      | cons first rest =>
        have hfirst := hback first rest hcons
        rw [hcons, mem_cons] at hq
        rcases hq with rfl | hq
        · exact pairLt_irrefl _ (hfirst.trans hlt)
        have hsorted := h.sorted
        rw [hsplit, hcons, pairwise_append, pairwise_cons] at hsorted
        exact pairLt_irrefl _ ((hfirst.trans (hsorted.right.left.left q hq)).trans hlt)
  rw [hinsert] at hbytes ⊢
  unfold zzlInsert zzlInsertAt
  rw [T.asUint_of_lt e (by lia)]
  rcases hplace with ⟨hnil, hnone⟩ | hsome
  · rw [hnil] at hbytes hsplit ⊢
    rw [append_nil] at hsplit
    rw [hnone, hsplit]
    exact if_pos hbytes
  · rw [hsome, Nat.zero_add, hsplit]
    dsimp only
    rw [take_left, drop_left]
    exact if_pos hbytes

structure Ends (gteMin lteMax : score × ele -> Bool) (l : List (score × ele)) : Prop where
  below : forall a b, a ∈ l -> b ∈ l -> PairLt a b -> gteMin b = false -> gteMin a = false
  above : forall a b, a ∈ l -> b ∈ l -> PairLt a b -> lteMax b = true -> lteMax a = true

variable {gteMin lteMax : score × ele -> Bool}

theorem zzlFirst_spec (i : Nat) (hsorted : l.Pairwise PairLt) (hends : Ends gteMin lteMax l) :
    (zzlFirst gteMin lteMax i l = none ∧ forall q, q ∈ l -> (gteMin q && lteMax q) = false) ∨
      exists front q back, l = front ++ q :: back ∧
        zzlFirst gteMin lteMax i l = some (i + front.length) ∧
        (forall r, r ∈ front -> gteMin r = false) ∧ gteMin q = true ∧ lteMax q = true := by
  induction l generalizing i with
  | nil => exact Or.inl ⟨rfl, fun q hq => absurd hq not_mem_nil⟩
  | cons q rest ih =>
    rw [pairwise_cons] at hsorted
    rw [zzlFirst]
    cases hgte : gteMin q with
    | true =>
      rw [if_pos rfl]
      cases hlte : lteMax q with
      | true =>
        right
        exact ⟨[], q, rest, rfl, rfl, fun r hr => absurd hr not_mem_nil, hgte, hlte⟩
      | false =>
        left
        refine ⟨rfl, ?_⟩
        intro r hr
        rw [Bool.and_eq_false_iff]
        right
        rw [mem_cons] at hr
        rcases hr with rfl | hr
        · exact hlte
        rw [← Bool.not_eq_true]
        intro hlter
        rw [hends.above q r mem_cons_self (mem_cons_of_mem q hr) (hsorted.left r hr) hlter] at hlte
        cases hlte
    | false =>
      rw [if_neg Bool.false_ne_true]
      have hends' : Ends gteMin lteMax rest :=
        ⟨fun a b ha hb => hends.below a b (mem_cons_of_mem q ha) (mem_cons_of_mem q hb),
          fun a b ha hb => hends.above a b (mem_cons_of_mem q ha)
            (mem_cons_of_mem q hb)⟩
      rcases ih (i + 1) hsorted.right hends' with
        ⟨hnone, hall⟩ | ⟨front, r, back, hsplit, hsome, hfront, hr⟩
      · left
        refine ⟨hnone, ?_⟩
        intro r hr
        rw [mem_cons] at hr
        rcases hr with rfl | hr
        · rw [hgte]
          rfl
        · exact hall r hr
      · right
        refine ⟨q :: front, r, back, by rw [hsplit]; rfl, ?_, ?_, hr⟩
        · rw [hsome, length_cons]
          congr 1
          lia
        intro r' hr'
        rw [mem_cons] at hr'
        rcases hr' with rfl | hr'
        · exact hgte
        · exact hfront r' hr'

theorem zzlDeleteFrom_eq (hsorted : l.Pairwise PairLt) (hends : Ends gteMin lteMax l)
    {b : Bool} (hb : b = false -> forall q, q ∈ l -> (gteMin q && lteMax q) = false) :
    zzlDeleteFrom lteMax l (if b then zzlFirst gteMin lteMax 0 l else none) =
      (l.filter (fun q => !(gteMin q && lteMax q)),
        (l.filter (fun q => gteMin q && lteMax q)).length) := by
  have hnothing : (forall q, q ∈ l -> (gteMin q && lteMax q) = false) ->
      (l, 0) = (l.filter (fun q => !(gteMin q && lteMax q)),
        (l.filter (fun q => gteMin q && lteMax q)).length) := by
    intro hall
    rw [filter_eq_self.mpr (fun q hq => by rw [hall q hq]; rfl),
      filter_eq_nil_iff.mpr (fun q hq => by rw [hall q hq]; exact Bool.false_ne_true)]
    rfl
  cases b with
  | false => exact hnothing (hb rfl)
  | true =>
    rw [if_pos rfl]
    rcases zzlFirst_spec 0 hsorted hends with
      ⟨hnone, hall⟩ | ⟨front, q, back, hsplit, hsome, hfront, hgte, hlte⟩
    · rw [hnone]
      exact hnothing hall
    have htail : (q :: back).Pairwise PairLt := by
      rw [hsplit, pairwise_append] at hsorted
      exact hsorted.right.left
    have hmem : forall r, r ∈ q :: back -> r ∈ l := by
      intro r hr
      rw [hsplit]
      exact mem_append_right _ hr
    have hwhile := while_eq_filter htail (fun a b ha hb => hends.above a b (hmem a ha) (hmem b hb))
    have hgteAll : forall r, r ∈ q :: back -> gteMin r = true := by
      intro r hr
      rw [← Bool.not_eq_false]
      intro hgter
      rw [pairwise_cons] at htail
      rw [mem_cons] at hr
      rcases hr with rfl | hr'
      · rw [hgte] at hgter
        cases hgter
      · rw [hends.below q r (hmem q mem_cons_self) (hmem r (mem_cons_of_mem q hr'))
          (htail.left r hr') hgter] at hgte
        cases hgte
    have hkept : front.filter (fun q => !(gteMin q && lteMax q)) = front :=
      filter_eq_self.mpr (fun r hr => by rw [hfront r hr]; rfl)
    have hnone : front.filter (fun q => gteMin q && lteMax q) = [] :=
      filter_eq_nil_iff.mpr (fun r hr => by rw [hfront r hr]; exact Bool.false_ne_true)
    have hrest : (q :: back).filter (fun q => !(gteMin q && lteMax q)) =
        (q :: back).filter (fun q => !lteMax q) :=
      filter_congr (fun r hr => by rw [hgteAll r hr, Bool.true_and])
    have hdeleted : (q :: back).filter (fun q => gteMin q && lteMax q) =
        (q :: back).filter lteMax :=
      filter_congr (fun r hr => by rw [hgteAll r hr, Bool.true_and])
    rw [hsome, Nat.zero_add]
    unfold zzlDeleteFrom
    dsimp only
    rw [hsplit, take_left, drop_left, hwhile.left, hwhile.right,
      filter_append, filter_append, hkept, hnone, hrest, hdeleted,
      nil_append]

theorem outside_of_ends (hsorted : l.Pairwise PairLt) (hends : Ends gteMin lteMax l)
    {last first : score × ele} (hlast : l.getLast? = some last) (hfirst : l.head? = some first)
    (hout : (gteMin last && lteMax first) = false) :
    forall q, q ∈ l -> (gteMin q && lteMax q) = false := by
  intro q hq
  rw [Bool.and_eq_false_iff] at hout ⊢
  rcases hout with hbelow | habove
  · left
    rcases List.getLast?_eq_some_iff.mp hlast with ⟨front, hsplit⟩
    have hin : last ∈ l := mem_of_getLast? hlast
    rw [hsplit, pairwise_append] at hsorted
    have hq' := hq
    rw [hsplit, mem_append, mem_singleton] at hq'
    rcases hq' with hq' | rfl
    · exact hends.below q last hq hin
        (hsorted.right.right q hq' last (mem_singleton_self last)) hbelow
    · exact hbelow
  · right
    rcases List.head?_eq_some_iff.mp hfirst with ⟨rest, hcons⟩
    have hin : first ∈ l := mem_of_mem_head? hfirst
    rw [hcons, pairwise_cons] at hsorted
    rw [← Bool.not_eq_true]
    intro hlte
    have hq' := hq
    rw [hcons, mem_cons] at hq'
    rcases hq' with rfl | hq'
    · rw [habove] at hlte
      cases hlte
    · rw [hends.above first q hin hq (hsorted.left q hq') hlte] at habove
      cases habove

theorem scoreEnds (range : Zrangespec score) (l : List (score × ele)) :
    Ends (fun q => zslValueGteMin q.1 range) (fun q => zslValueLteMax q.1 range) l :=
  ⟨fun _ _ _ _ hab h => gteMin_down hab.score_le h, fun _ _ _ _ hab h => lteMax_down hab.score_le h⟩

theorem lexEnds (range : Zlexrangespec ele)
    (hscores : forall a, a ∈ l -> forall b, b ∈ l -> a.1 = b.1) :
    Ends (fun q : score × ele => zslLexValueGteMin q.2 range)
      (fun q => zslLexValueLteMax q.2 range) l :=
  ⟨fun a b ha hb hab h => lexGteMin_down (Zskiplist.PairLt.ele_le hab (hscores a ha b hb)) h,
    fun a b ha hb hab h => lexLteMax_down (Zskiplist.PairLt.ele_le hab (hscores a ha b hb)) h⟩

omit [LinearOrder score] [LinearOrder ele] in
theorem ends_cases (l : List (score × ele)) :
    l = [] ∨ exists last first, l.getLast? = some last ∧ l.head? = some first := by
  cases l with
  | nil => exact Or.inl rfl
  | cons first rest =>
    exact Or.inr ⟨(first :: rest).getLast (cons_ne_nil _ _), first,
      List.getLast?_eq_getLast_of_ne_nil _, rfl⟩

theorem zzlIsInRange_out {range : Zrangespec score} (hsorted : l.Pairwise PairLt)
    (h : zzlIsInRange l range = false) : forall q, q ∈ l -> inRange range q = false := by
  unfold zzlIsInRange at h
  cases hempty : Zskiplist.emptyRange range with
  | true => exact fun q _ => Zskiplist.emptyRange_out hempty q
  | false =>
    rw [hempty, if_neg Bool.false_ne_true] at h
    rcases ends_cases l with rfl | ⟨last, first, hlast, hfirst⟩
    · exact fun q hq => absurd hq not_mem_nil
    · rw [hlast, hfirst] at h
      exact outside_of_ends hsorted (scoreEnds range l) hlast hfirst h

omit [LinearOrder score] in
theorem emptyLexRange_out {range : Zlexrangespec ele} (h : emptyLexRange range = true)
    (q : score × ele) : inLexRange range q = false := by
  rcases range with ⟨min, max, minex, maxex⟩
  rw [← Bool.not_eq_true]
  intro hin
  unfold inLexRange zslLexValueGteMin zslLexValueLteMax at hin
  unfold emptyLexRange at h
  rw [Bool.and_eq_true] at hin
  rcases hin with ⟨hgte, hlte⟩
  dsimp only at h hgte hlte
  cases min with
  | minstring => cases max <;> cases minex <;> cases maxex <;> simp [cmpBounds, sdscmplex] at h hlte
  | maxstring => cases minex <;> simp [sdscmplex] at hgte
  | str a =>
    cases max with
    | minstring => cases maxex <;> simp [sdscmplex] at hlte
    | maxstring => simp [cmpBounds] at h
    | str b =>
      have hae : a ≤ q.2 := by
        cases minex with
        | true =>
          rw [if_pos rfl, beq_iff_eq] at hgte
          exact le_of_lt (compare_gt_iff_gt.mp hgte)
        | false =>
          rw [if_neg Bool.false_ne_true, bne_iff_ne] at hgte
          exact le_of_not_gt (fun hlt => hgte (compare_lt_iff_lt.mpr hlt))
      have heb : q.2 ≤ b := by
        cases maxex with
        | true =>
          rw [if_pos rfl, beq_iff_eq] at hlte
          exact le_of_lt (compare_lt_iff_lt.mp hlte)
        | false =>
          rw [if_neg Bool.false_ne_true, bne_iff_ne] at hlte
          exact le_of_not_gt (fun hgt => hlte (compare_gt_iff_gt.mpr hgt))
      rw [Bool.or_eq_true, beq_iff_eq, Bool.and_eq_true, beq_iff_eq, Bool.or_eq_true] at h
      rcases h with hgt | ⟨heq, hex | hex⟩
      · exact absurd (le_trans hae heb) (not_le_of_gt (compare_gt_iff_gt.mp hgt))
      · have hab : a = b := compare_eq_iff_eq.mp heq
        rw [if_pos hex, beq_iff_eq] at hgte
        exact absurd heb (not_le_of_gt (hab ▸ compare_gt_iff_gt.mp hgte))
      · have hab : a = b := compare_eq_iff_eq.mp heq
        rw [if_pos hex, beq_iff_eq] at hlte
        exact absurd hae (not_le_of_gt (hab ▸ compare_lt_iff_lt.mp hlte))

section

variable (hsorted : l.Pairwise PairLt)
include hsorted

theorem zzlIsInLexRange_out {range : Zlexrangespec ele}
    (hscores : forall a, a ∈ l -> forall b, b ∈ l -> a.1 = b.1)
    (h : zzlIsInLexRange l range = false) : forall q, q ∈ l -> inLexRange range q = false := by
  unfold zzlIsInLexRange at h
  cases hempty : emptyLexRange range with
  | true => exact fun q _ => emptyLexRange_out hempty q
  | false =>
    rw [hempty, if_neg Bool.false_ne_true] at h
    rcases ends_cases l with rfl | ⟨last, first, hlast, hfirst⟩
    · exact fun q hq => absurd hq not_mem_nil
    · rw [hlast, hfirst] at h
      exact outside_of_ends hsorted (lexEnds range hscores) hlast hfirst h

theorem zzlDeleteRangeByScore_eq (range : Zrangespec score) :
    zzlDeleteRangeByScore l range =
      (l.filter (fun q => !inRange range q), (l.filter (inRange range)).length) :=
  zzlDeleteFrom_eq hsorted (scoreEnds range l) (zzlIsInRange_out hsorted)

theorem zzlDeleteRangeByLex_eq (range : Zlexrangespec ele)
    (hscores : forall a, a ∈ l -> forall b, b ∈ l -> a.1 = b.1) :
    zzlDeleteRangeByLex l range =
      (l.filter (fun q => !inLexRange range q), (l.filter (inLexRange range)).length) :=
  zzlDeleteFrom_eq hsorted (lexEnds range hscores) (zzlIsInLexRange_out hsorted hscores)

theorem zcount_ziplist (range : Zrangespec score) :
    Zobj.zcount range (.ziplist l) = .ok (l.filter (inRange range)).length := by
  have hdelete := congrArg Prod.snd (zzlDeleteRangeByScore_eq hsorted range)
  unfold zzlDeleteRangeByScore zzlDeleteFrom at hdelete
  dsimp only [Zobj.zcount]
  rw [← show _ = (l.filter (inRange range)).length from hdelete]
  cases zzlFirstInRange l range with
  | none => rfl
  | some i => rfl

end

/-!
# Ranges of ranks
-/

theorem sanitize_spec (len : Nat) (start stop : Int) : (Zobj.sanitize len start stop = none ∧
      (uptoRank len stop ≤ fromRank len start ∨ len ≤ fromRank len start)) ∨
    exists first last, Zobj.sanitize len start stop = some (first, last) ∧
      first = fromRank len start ∧ last + 1 = uptoRank len stop ∧ first ≤ last ∧ last < len := by
  unfold Zobj.sanitize fromRank uptoRank
  dsimp only
  generalize (if start < 0 then (len : Int) + start else start) = a
  generalize (if stop < 0 then (len : Int) + stop else stop) = b
  by_cases hempty : (if a < 0 then 0 else a) > b ∨ (if a < 0 then 0 else a) ≥ (len : Int)
  · left
    rw [if_pos hempty]
    refine ⟨rfl, ?_⟩
    split at hempty <;> omega
  · right
    rw [if_neg hempty]
    refine ⟨_, _, rfl, ?_, ?_, ?_, ?_⟩
    all_goals split at hempty <;> split <;> omega

omit [LinearOrder score] [LinearOrder ele] in
theorem take_drop_all {n m : Nat} (h : m ≤ n ∨ l.length ≤ n) :
    l.take n ++ l.drop (max n m) = l := by
  rcases h with h | h
  · rw [Nat.max_eq_left h, take_append_drop]
  · rw [take_of_length_le h, drop_eq_nil_of_le (by lia), append_nil]

end Ziplist

end Redisoo
