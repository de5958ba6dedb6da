import Redisoo.Structures.SkiplistMap

/-!
# Range deletions and runs of a skip list
-/

namespace Redisoo

open Foundation Zskiplist List.Sublist
open Foundation.Lanes List Zskiplist

section Bounds

variable {score : Type} [LinearOrder score]

theorem gteMin_down {range : Zrangespec score} {a b : score} (hab : a ≤ b)
    (h : zslValueGteMin b range = false) : zslValueGteMin a range = false := by
  unfold zslValueGteMin at h ⊢
  cases hex : range.minex <;> simp only [hex, Bool.false_eq_true, if_false, if_true,
    decide_eq_false_iff_not, ge_iff_le, gt_iff_lt, not_le, not_lt] at h ⊢
  · exact lt_of_le_of_lt hab h
  · exact le_trans hab h

theorem lteMax_down {range : Zrangespec score} {a b : score} (hab : a ≤ b)
    (h : zslValueLteMax b range = true) : zslValueLteMax a range = true := by
  unfold zslValueLteMax at h ⊢
  cases hex : range.maxex <;> simp only [hex, Bool.false_eq_true, if_false, if_true,
    decide_eq_true_eq] at h ⊢
  · exact le_trans hab h
  · exact lt_of_le_of_lt hab h

end Bounds

section LexBounds

variable {ele : Type} [LinearOrder ele] {a b : ele}

theorem sdscmplex_lt (hab : a ≤ b) {bound : LexBound ele} (h : sdscmplex b bound = .lt) :
    sdscmplex a bound = .lt := by
  cases bound with
  | minstring => cases h
  | maxstring => rfl
  | str e =>
    have hlt : b < e := compare_lt_iff_lt.mp h
    exact compare_lt_iff_lt.mpr (lt_of_le_of_lt hab hlt)

theorem sdscmplex_gt (hab : a ≤ b) {bound : LexBound ele} (h : sdscmplex a bound = .gt) :
    sdscmplex b bound = .gt := by
  cases bound with
  | minstring => rfl
  | maxstring => cases h
  | str e =>
    have hgt : a > e := compare_gt_iff_gt.mp h
    exact compare_gt_iff_gt.mpr (lt_of_lt_of_le hgt hab)

theorem lexGteMin_down {range : Zlexrangespec ele} (hab : a ≤ b)
    (h : zslLexValueGteMin b range = false) : zslLexValueGteMin a range = false := by
  unfold zslLexValueGteMin at h ⊢
  split
  · rename_i hex
    rw [if_pos hex, beq_eq_false_iff_ne] at h
    rw [beq_eq_false_iff_ne]
    exact fun hgt => h (sdscmplex_gt hab hgt)
  · rename_i hex
    rw [if_neg hex, bne_eq_false_iff_eq] at h
    rw [bne_eq_false_iff_eq]
    exact sdscmplex_lt hab h

theorem lexLteMax_down {range : Zlexrangespec ele} (hab : a ≤ b)
    (h : zslLexValueLteMax b range = true) : zslLexValueLteMax a range = true := by
  unfold zslLexValueLteMax at h ⊢
  split
  · rename_i hex
    rw [if_pos hex, beq_iff_eq] at h
    rw [beq_iff_eq]
    exact sdscmplex_lt hab h
  · rename_i hex
    rw [if_neg hex, bne_iff_ne] at h
    rw [bne_iff_ne]
    exact fun hgt => h (sdscmplex_gt hab hgt)

end LexBounds

namespace Zskiplist

section Range

variable {score ele : Type} {cond go : Nat -> score -> ele -> Bool}
  {pre post : List (Cell (score × ele))} {zsl : Zskiplist score ele} {found : Found}
  {mid : List (Cell (score × ele))}

structure Removed (cond : Nat -> score -> ele -> Bool)
    (pre mid rest : List (Cell (score × ele))) : Prop where
  passed : Passed cond 0 pre.length mid
  halts : forall c tail, rest = c :: tail ->
    goes cond (pre.length + mid.length + 1) c = false

theorem deleteWhile_spec (cond : Nat -> score -> ele -> Bool) (fuel : Nat)
    (h : Linked (pre ++ post) zsl)
    (hstops : forall j, j < zsl.level -> exists p s, Stop j pre found p s)
    (rank : Nat) (hrank : rank + post.length < 2 ^ 33) (hfuel : post.length < fuel) :
    exists zsl' mid rest, post = mid ++ rest ∧
      deleteWhile cond found fuel (headAddr post) (rank + 1) zsl =
        .ok (zsl', mid.map fun c => c.item.2) ∧
      Linked (pre ++ rest) zsl' ∧ Passed cond 0 rank mid ∧
      forall c tail, rest = c :: tail -> goes cond (rank + mid.length + 1) c = false := by
  induction fuel generalizing zsl post rank with
  | zero => exact absurd hfuel (Nat.not_lt_zero _)
  | succ fuel ih =>
    cases post with
    | nil =>
      refine ⟨zsl, [], [], rfl, rfl, h, trivial, ?_⟩
      intro c tail hnil
      cases hnil
    | cons c tail =>
      rcases h.nodeAt rfl with ⟨levels, hnode⟩
      cases hcond : goes cond (rank + 1) c with
      | false =>
        refine ⟨zsl, [], c :: tail, rfl, ?_, h, trivial, ?_⟩
        · have htest : cond (rank + 1) c.item.1 c.item.2 = false := hcond
          simp only [headAddr_cons, deleteWhile, ok_bind, hnode, htest]
          rfl
        · intro c' tail' hcons
          cases hcons
          exact hcond
      | true =>
        have htest : cond (rank + 1) c.item.1 c.item.2 = true := hcond
        rcases h.lane_zero rfl with ⟨hlane0, hforward⟩
        rcases deleteFirst_linked h hstops with ⟨z1, hdelete, hlinked1, hgone, hlevel1, _⟩
        rw [length_cons] at hrank hfuel
        have hadd : ulAdd (rank + 1) 1 = rank + 1 + 1 := ulAdd_eq (by lia)
        rcases ih (hlinked1.free hgone)
          (fun j hj => hstops j (Nat.lt_of_lt_of_le hj hlevel1)) (rank + 1)
          (by lia) (by lia) with ⟨zsl', mid, rest, htail, hrun, hlinked', hpassed, hhalts⟩
        refine ⟨zsl', c :: mid, rest, by rw [htail]; rfl, ?_, hlinked', ?_, ?_⟩
        · simp only [headAddr_cons, deleteWhile, ok_bind, hnode, htest, if_true,
            hlane0, toLevel, hforward, hdelete, hadd, hrun]
          rfl
        · exact ⟨fun _ => hcond, hpassed⟩
        · intro d tail' hcons
          have hd := hhalts d tail' hcons
          rw [← hd, length_cons]
          congr 1
          lia

theorem zslDeleteRange_linked {cells : List (Cell (score × ele))} (h : Linked cells zsl)
    (go cond : Nat -> score -> ele -> Bool) :
    exists zsl' pre mid rest, cells = pre ++ (mid ++ rest) ∧
      zsl.zslDeleteRange go cond = .ok (zsl', mid.map fun c => c.item.2) ∧
      Linked (pre ++ rest) zsl' ∧
      (exists found, Searched go zsl.level [] pre (mid ++ rest) found) ∧
      Removed cond pre mid rest := by
  rcases search_spec h go with ⟨pre, post, found, hsplit, hsearch, hfound⟩
  rcases searched_forward h hsplit hfound with ⟨hlevel, hforward, hrank⟩
  have hsmall := h.small
  have hlength := h.length
  rw [hsplit, length_append] at hsmall hlength
  rcases deleteWhile_spec cond (zsl.length + 1) (hsplit ▸ h) hfound.stops pre.length
    (by lia) (by lia) with ⟨zsl', mid, rest, hpost, hrun, hlinked', hpassed, hhalts⟩
  refine ⟨zsl', pre, mid, rest, by rw [hsplit, hpost], ?_, hlinked',
    ⟨found, hpost ▸ hfound⟩, hpassed, hhalts⟩
  have hadd : ulAdd pre.length 1 = pre.length + 1 := ulAdd_eq (by lia)
  simp only [zslDeleteRange, ok_bind, hsearch, hlevel, toLevel, hforward, hrank, hadd, hrun]

theorem passed_all {rank : Nat} {P : score × ele -> Prop} [DecidablePred P]
    (hcond : forall n s e, cond n s e = decide (P (s, e))) (h : Passed cond 0 rank mid) :
    forall c, c ∈ mid -> P c.item := by
  induction mid generalizing rank with
  | nil => exact fun c hc => nomatch hc
  | cons d tail ih =>
    intro c hc
    rw [mem_cons] at hc
    rcases hc with rfl | hc
    · have hgo := h.left (Nat.zero_le _)
      unfold goes at hgo
      rw [hcond, decide_eq_true_eq] at hgo
      exact hgo
    · exact ih h.right c hc

theorem Passed.last {rank : Nat} (h : Passed cond 0 rank mid) (hne : mid ≠ []) :
    exists c, goes cond (rank + mid.length) c = true := by
  rcases eq_nil_or_concat mid with rfl | ⟨front, c, rfl⟩
  · exact absurd rfl hne
  rw [concat_eq_append, passed_append] at h
  refine ⟨c, ?_⟩
  rw [concat_eq_append, length_append, length_singleton, ← Nat.add_assoc]
  exact h.right.left (Nat.zero_le _)

end Range

section Ordered

variable {score ele : Type} [LinearOrder score] [LinearOrder ele]
  {zsl : Zskiplist score ele} {l : List (score × ele)} {cells : List (Cell (score × ele))}

omit [LinearOrder score] [LinearOrder ele] in
theorem filter_middle {p : score × ele -> Bool} (pre mid rest : List (Cell (score × ele)))
    (hpre : forall c, c ∈ pre -> p c.item = false) (hmid : forall c, c ∈ mid -> p c.item = true)
    (hrest : forall c, c ∈ rest -> p c.item = false) :
    (items (pre ++ (mid ++ rest))).filter p = items mid ∧
      (items (pre ++ (mid ++ rest))).filter (fun q => !p q) = items (pre ++ rest) := by
  have hfront : (items pre).filter p = [] ∧ (items pre).filter (fun q => !p q) = items pre := by
    simpa [items] using hpre
  have hmiddle : (items mid).filter p = items mid ∧ (items mid).filter (fun q => !p q) = [] := by
    simpa [items] using hmid
  have hback : (items rest).filter p = [] ∧ (items rest).filter (fun q => !p q) = items rest := by
    simpa [items] using hrest
  simp only [items_append, filter_append, hfront, hmiddle, hback, nil_append, append_nil, and_self]

theorem Represents.length (h : Represents zsl l) : zsl.length = l.length := by
  rcases h.shape with ⟨cells, hlinked, hitems⟩
  rw [hlinked.length, ← hitems]
  exact (length_map _).symm

theorem zslDeleteRange_cells (h : Linked cells zsl) (hsorted : (items cells).Pairwise PairLt)
    (go cond : Nat -> score -> ele -> Bool) :
    exists zsl' cells' front mid back, items cells = front ++ mid ++ back ∧
      zsl.zslDeleteRange go cond = .ok (zsl', mid.map Prod.snd) ∧
      Linked cells' zsl' ∧ items cells' = front ++ back ∧
      forall c, c ∈ cells' <-> c ∈ cells ∧ c.item ∉ mid := by
  rcases zslDeleteRange_linked h go cond with ⟨zsl', pre, mid, rest, hsplit, hrun, hlinked', _, _⟩
  have hitems : items cells = items pre ++ items mid ++ items rest := by
    rw [hsplit, items_append, items_append, append_assoc]
  refine ⟨zsl', pre ++ rest, items pre, items mid, items rest, hitems, ?_, hlinked',
    items_append _ _, ?_⟩
  · rw [hrun]
    unfold items
    rw [map_map]
    rfl
  · have hapart : forall c, c ∈ pre ++ rest -> c.item ∉ items mid := by
      intro c hc hin
      rw [hitems, pairwise_append, pairwise_append] at hsorted
      rcases mem_append.mp hc with hpre | hrest
      · exact pairLt_irrefl _ (hsorted.left.right.right _ (mem_map_of_mem hpre) _ hin)
      · exact pairLt_irrefl _
          (hsorted.right.right _ (mem_append_right _ hin) _ (mem_map_of_mem hrest))
    intro c
    rw [hsplit]
    constructor
    · intro hc
      refine ⟨?_, hapart c hc⟩
      rcases mem_append.mp hc with hpre | hrest
      · exact mem_append_left _ hpre
      · exact mem_append_right _ (mem_append_right _ hrest)
    · rintro ⟨hc, hnot⟩
      rcases mem_append.mp hc with hpre | hmid
      · exact mem_append_left _ hpre
      · rcases mem_append.mp hmid with hmid | hrest
        · exact absurd (mem_map_of_mem hmid) hnot
        · exact mem_append_right _ hrest

theorem zslDeleteRange_bounds (h : Represents zsl l) {go cond : Nat -> score -> ele -> Bool}
    {gte lte : score × ele -> Bool} (hgo : forall n s e, go n s e = !gte (s, e))
    (hcond : forall n s e, cond n s e = lte (s, e))
    (hgte : forall a b, a ∈ l -> b ∈ l -> PairLt a b -> gte b = false -> gte a = false)
    (hlte : forall a b, a ∈ l -> b ∈ l -> PairLt a b -> lte b = true -> lte a = true) :
    exists zsl', zsl.zslDeleteRange go cond =
        .ok (zsl', (l.filter fun q => gte q && lte q).map Prod.snd) ∧
      Represents zsl' (l.filter fun q => !(gte q && lte q)) := by
  rcases h.shape with ⟨cells, hlinked, rfl⟩
  rcases zslDeleteRange_linked hlinked go cond with
    ⟨zsl', pre, mid, rest, rfl, hrun, hlinked', ⟨found, hfound⟩, hremoved⟩
  have hparts := searched_split hlinked.level.left h.sorted (P := fun q => gte q = false)
    (fun n s e => by rw [hgo]; cases gte (s, e) <;> rfl) hgte hfound
  have hmid := passed_all (P := fun q => lte q = true)
    (fun n s e => by rw [hcond]; cases lte (s, e) <;> rfl) hremoved.passed
  have hsorted := h.sorted
  rw [items_append, items_append, pairwise_append, pairwise_append] at hsorted
  have hrest : forall c, c ∈ rest -> Not (lte c.item = true) := by
    refine fails_from (P := fun q => lte q = true) hsorted.right.left.right.left
      (fun a b ha hb => hlte a b (by simp [ha]) (by simp [hb])) ?_
    intro d tail hcons hd
    have hgo := hremoved.halts d tail hcons
    unfold goes at hgo
    rw [hcond, hd] at hgo
    cases hgo
  rcases filter_middle (p := fun q => gte q && lte q) pre mid rest
    (fun c hc => by simp [hparts.left c hc])
    (fun c hc => by simp [hparts.right c (mem_append_left _ hc), hmid c hc])
    (fun c hc => by simp [hrest c hc]) with ⟨hgone, hkept⟩
  refine ⟨zsl', ?_, ⟨_, hlinked', hkept.symm⟩, h.sorted.filter _⟩
  rw [hrun, hgone]
  unfold items
  rw [map_map]
  rfl

theorem zslDeleteRangeByScore_represents (h : Represents zsl l) (range : Zrangespec score) :
    exists zsl', zsl.zslDeleteRangeByScore range =
        .ok (zsl', (l.filter fun q =>
          zslValueGteMin q.1 range && zslValueLteMax q.1 range).map Prod.snd) ∧
      Represents zsl' (l.filter fun q =>
        !(zslValueGteMin q.1 range && zslValueLteMax q.1 range)) := by
  refine zslDeleteRange_bounds h ?_ ?_
    (fun a b _ _ hab hb => gteMin_down hab.score_le hb)
    (fun a b _ _ hab hb => lteMax_down hab.score_le hb)
  · intro n s e
    unfold zslValueGteMin
    cases range.minex <;> simp [← decide_not]
  · intro n s e
    unfold zslValueLteMax
    cases range.maxex <;> simp

theorem PairLt.ele_le {a b : score × ele} (h : PairLt a b) (hscore : a.1 = b.1) : a.2 ≤ b.2 := by
  rcases h with hlt | heq
  · exact absurd hlt (by rw [hscore]; exact lt_irrefl _)
  · exact le_of_lt heq.right

theorem zslDeleteRangeByLex_represents (h : Represents zsl l) (range : Zlexrangespec ele)
    (hscores : forall a b, a ∈ l -> b ∈ l -> a.1 = b.1) :
    exists zsl', zsl.zslDeleteRangeByLex range =
        .ok (zsl', (l.filter fun q =>
          zslLexValueGteMin q.2 range && zslLexValueLteMax q.2 range).map Prod.snd) ∧
      Represents zsl' (l.filter fun q =>
        !(zslLexValueGteMin q.2 range && zslLexValueLteMax q.2 range)) :=
  zslDeleteRange_bounds h (fun _ _ _ => rfl) (fun _ _ _ => rfl)
    (fun a b ha hb hab => lexGteMin_down (PairLt.ele_le hab (hscores a b ha hb)))
    (fun a b ha hb hab => lexLteMax_down (PairLt.ele_le hab (hscores a b ha hb)))

def removeRanks (start stop : Nat) (l : List (score × ele)) : List (score × ele) :=
  l.take (start - 1) ++ l.drop (max (start - 1) stop)

theorem take_drop_cut {A : Type} {a b : List A} {n : Nat} (hle : a.length ≤ n)
    (hend : b ≠ [] -> n = a.length) : (a ++ b).take n = a ∧ (a ++ b).drop n = b := by
  by_cases hb : b = []
  · rw [hb, append_nil]
    exact ⟨take_of_length_le hle, drop_eq_nil_of_le hle⟩
  · rw [hend hb]
    exact ⟨take_left, drop_left⟩

theorem zslDeleteRangeByRank_represents (h : Represents zsl l) (start stop : Nat) :
    exists zsl', zsl.zslDeleteRangeByRank start stop =
        .ok (zsl', ((l.drop (start - 1)).take (stop - (start - 1))).map Prod.snd) ∧
      Represents zsl' (removeRanks start stop l) := by
  rcases h.shape with ⟨cells, hlinked, rfl⟩
  rcases zslDeleteRange_linked hlinked (fun traversed _ _ => decide (traversed < start))
    (fun traversed _ _ => decide (traversed ≤ stop)) with
    ⟨zsl', pre, mid, rest, hsplit, hrun, hlinked', ⟨found, hfound⟩, hremoved⟩
  have hlength : (items pre).length = pre.length := length_map _
  have hlengthMid : (items mid).length = mid.length := length_map _
  have hitems : items cells = items pre ++ (items mid ++ items rest) := by
    rw [hsplit, items_append, items_append]
  -- The search stops before the rank `start`, or at the end.
  have hpre : pre.length ≤ start - 1 := by
    rcases hfound.last with hnil | ⟨front, c, _, hgo⟩
    · rw [hnil]
      exact Nat.zero_le _
    · unfold goes at hgo
      rw [decide_eq_true_eq, length_nil] at hgo
      lia
  have hstart : mid ++ rest ≠ [] -> pre.length = start - 1 := by
    intro hne
    cases hcons : mid ++ rest with
    | nil => exact absurd hcons hne
    | cons c tail =>
      have hgo := hfound.halts hlinked.level.left c tail hcons
      unfold goes at hgo
      rw [decide_eq_false_iff_not, length_nil] at hgo
      lia
  have hmid : mid ≠ [] -> pre.length + mid.length ≤ stop := by
    intro hne
    rcases hremoved.passed.last hne with ⟨c, hgo⟩
    unfold goes at hgo
    exact of_decide_eq_true hgo
  have hrest : rest ≠ [] -> stop < pre.length + mid.length + 1 := by
    intro hne
    cases hcons : rest with
    | nil => exact absurd hcons hne
    | cons c tail =>
      have hgo := hremoved.halts c tail hcons
      unfold goes at hgo
      rw [decide_eq_false_iff_not] at hgo
      lia
  -- Both the parts that stay and the part that goes are read off the ranks.
  have hlater : items mid ++ items rest ≠ [] -> mid ++ rest ≠ [] := by
    rw [← items_append]
    rintro hne hnil
    exact hne (by rw [hnil]; rfl)
  have hrest' : items rest ≠ [] -> stop < pre.length + mid.length + 1 :=
    fun hne => hrest fun hnil => hne (by rw [hnil]; rfl)
  have hmid' : mid.length ≤ stop - (start - 1) := by
    by_cases hnil : mid = []
    · simp [hnil]
    · have hle := hmid hnil
      have hlen := hstart (by simp [hnil])
      lia
  have hkeep := take_drop_cut (n := start - 1) (hlength ▸ hpre)
    fun hne => by rw [hlength, hstart (hlater hne)]
  have hgone := take_drop_cut (n := stop - (start - 1)) (hlengthMid ▸ hmid') fun hne => by
    have hlen := hstart (hlater (append_ne_nil_of_right_ne_nil _ hne))
    lia
  rw [← hitems] at hkeep
  have hdrop : (items cells).drop (max (start - 1) stop) = items rest := by
    have hadd : max (start - 1) stop = (start - 1) + (stop - (start - 1)) := by
      lia
    rw [hadd, ← drop_drop, hkeep.right, hgone.right]
  refine ⟨zsl', ?_, ⟨_, hlinked', ?_⟩, ?_⟩
  · unfold zslDeleteRangeByRank
    rw [hrun, hkeep.right, hgone.left]
    unfold items
    rw [map_map]
    rfl
  · unfold removeRanks
    rw [hkeep.left, hdrop, items_append]
  · unfold removeRanks
    rw [hkeep.left, hdrop]
    have hsorted := h.sorted
    rw [hitems, ← append_assoc] at hsorted
    refine List.Pairwise.sublist ?_ hsorted
    exact append (sublist_append_left _ _) (refl _)

end Ordered

/-!
# Runs
-/

section Runs

variable {score ele : Type}

def pairsFrom (zsl : Zskiplist score ele) : Nat -> Option Nat -> List (score × ele)
  | 0, _ => []
  | _ + 1, none => []
  | fuel + 1, some a =>
    match zsl.nodes a with
    | none => []
    | some n => (n.score, n.ele) :: pairsFrom zsl fuel (n.level 0).forward

def pairs (zsl : Zskiplist score ele) : List (score × ele) :=
  zsl.pairsFrom zsl.length (zsl.header 0).forward

theorem pairsFrom_eq {cells pre post : List (Cell (score × ele))}
    {zsl : Zskiplist score ele} (h : Linked cells zsl) (hsplit : cells = pre ++ post) :
    zsl.pairsFrom post.length (headAddr post) = items post := by
  induction post generalizing pre with
  | nil => rfl
  | cons c rest ih =>
    have hsplit' : cells = (pre ++ [c]) ++ rest := hsplit.trans (append_cons _ _ _)
    rcases nodes_of_dataAt (h.data pre c rest hsplit) with ⟨levels, hnode⟩
    have hheight := h.heights_part hsplit c mem_cons_self
    rcases h.lane_zero hsplit with ⟨hlane, hnext⟩
    have hlevel : levels 0 = toLevel (jump 0 rest) := by
      simp only [levelAt, hnode, if_pos (by lia : 0 < c.height)] at hlane
      injection hlane
    have hforward : (levels 0).forward = headAddr rest := by
      rw [hlevel]
      exact hnext
    rw [length_cons, headAddr_cons, pairsFrom, hnode]
    dsimp only
    rw [hforward, ih hsplit']
    rfl

variable [LinearOrder score] [LinearOrder ele] {zsl : Zskiplist score ele} {l : List (score × ele)}

theorem Represents.pairs_eq (h : Represents zsl l) : zsl.pairs = l := by
  rcases h.shape with ⟨cells, hlinked, rfl⟩
  rcases hlinked.first with ⟨span, hheader⟩
  have hmax : 0 < ZSKIPLIST_MAXLEVEL := by decide
  simp only [levelAt, if_pos hmax] at hheader
  injection hheader with hheader
  have hstart : cells = [] ++ cells := rfl
  unfold pairs
  rw [hheader, hlinked.length]
  exact pairsFrom_eq hlinked hstart

end Runs

end Zskiplist

section Runs

variable {score ele : Type} [LinearOrder score] [LinearOrder ele]

/-- The operations of a skip list.  A node that is inserted gets the level the random
generator draws. -/
inductive ZslOp (score ele : Type) where
  | insert (draws : Nat) (s : score) (e : ele)
  | delete (s : score) (e : ele)
  | updateScore (draws : Nat) (curscore : score) (e : ele) (newscore : score)
  | deleteRangeByScore (range : Zrangespec score)
  | deleteRangeByLex (range : Zlexrangespec ele)
  | deleteRangeByRank (start stop : Nat)

def zslStep (op : ZslOp score ele) (zsl : Zskiplist score ele) :
    Except ZslCrash (Zskiplist score ele) :=
  match op with
  | .insert draws s e =>
    (zsl.zslInsert (Zskiplist.zslRandomLevel draws) s e).map Prod.fst
  | .delete s e => (zsl.zslDelete s e).map Prod.fst
  | .updateScore draws curscore e newscore =>
    (zsl.zslUpdateScore (Zskiplist.zslRandomLevel draws) curscore e newscore).map Prod.fst
  | .deleteRangeByScore range => (zsl.zslDeleteRangeByScore range).map Prod.fst
  | .deleteRangeByLex range => (zsl.zslDeleteRangeByLex range).map Prod.fst
  | .deleteRangeByRank start stop => (zsl.zslDeleteRangeByRank start stop).map Prod.fst

/-- What the operations mean for the pairs in order.  A lexicographic range of pairs
with different scores removes some part of the list. -/
def Current (op : ZslOp score ele) (l l' : List (score × ele)) : Prop :=
  match op with
  | .insert _ s e => l' = Zskiplist.insertPair (s, e) l
  | .delete s e => l' = Zskiplist.removePair (s, e) l
  | .updateScore _ curscore e newscore =>
    l' = Zskiplist.insertPair (newscore, e) (Zskiplist.removePair (curscore, e) l)
  | .deleteRangeByScore range =>
    l' = l.filter fun q => !(zslValueGteMin q.1 range && zslValueLteMax q.1 range)
  | .deleteRangeByLex range =>
    (exists front mid back, l = front ++ mid ++ back ∧ l' = front ++ back) ∧
      ((forall a b, a ∈ l -> b ∈ l -> a.1 = b.1) ->
        l' = l.filter fun q => !(zslLexValueGteMin q.2 range && zslLexValueLteMax q.2 range))
  | .deleteRangeByRank start stop => l' = Zskiplist.removeRanks start stop l

def CurrentRun : List (ZslOp score ele) -> List (score × ele) -> List (score × ele) -> Prop
  | [], l, l' => l' = l
  | op :: ops, l, l' => exists l1, Current op l l1 ∧ CurrentRun ops l1 l'

def Proper (op : ZslOp score ele) (zsl : Zskiplist score ele) : Prop :=
  match op with
  | .insert _ _ e => e ∉ zsl.pairs.map Prod.snd
  | .updateScore _ curscore e _ => (curscore, e) ∈ zsl.pairs
  | _ => True

instance (op : ZslOp score ele) (zsl : Zskiplist score ele) : Decidable (Proper op zsl) := by
  unfold Proper
  cases op <;> infer_instance

def RanksFit (op : ZslOp score ele) (zsl : Zskiplist score ele) : Prop :=
  match op with
  | .insert _ _ _ => zsl.length + 1 < 2 ^ 32
  | _ => True

instance (op : ZslOp score ele) (zsl : Zskiplist score ele) : Decidable (RanksFit op zsl) := by
  unfold RanksFit
  cases op <;> infer_instance

theorem zslRandomLevel_bounds (draws : Nat) :
    1 ≤ zslRandomLevel draws ∧ zslRandomLevel draws ≤ ZSKIPLIST_MAXLEVEL := by
  unfold zslRandomLevel
  dsimp only
  split
  · lia
  · exact ⟨by decide, Nat.le_refl _⟩

structure Holds (zsl : Zskiplist score ele) (l : List (score × ele)) : Prop where
  represents : zsl.Represents l
  distinct : (l.map Prod.snd).Nodup

theorem holds_create : Holds (zslCreate : Zskiplist score ele) [] :=
  ⟨⟨⟨[], linked_create, rfl⟩, List.Pairwise.nil⟩, nodup_nil⟩

theorem insertPair_perm (q : score × ele) (l : List (score × ele)) :
    (insertPair q l).Perm (q :: l) := by
  unfold insertPair
  refine perm_middle.trans (List.Perm.cons q ?_)
  exact filter_append_perm _ l

variable {l : List (score × ele)}

theorem insertPair_distinct {q : score × ele} (h : (l.map Prod.snd).Nodup)
    (hnew : q.2 ∉ l.map Prod.snd) : ((insertPair q l).map Prod.snd).Nodup := by
  rw [((insertPair_perm q l).map Prod.snd).nodup_iff, map_cons, nodup_cons]
  exact ⟨hnew, h⟩

omit [LinearOrder score] [LinearOrder ele] in
theorem distinct_sublist {l' : List (score × ele)} (h : (l.map Prod.snd).Nodup)
    (hsub : l'.Sublist l) : (l'.map Prod.snd).Nodup :=
  h.sublist (hsub.map Prod.snd)

theorem removePair_gone {s : score} {e : ele} (h : (l.map Prod.snd).Nodup) (hmem : (s, e) ∈ l) :
    e ∉ (removePair (s, e) l).map Prod.snd := by
  intro hin
  rcases mem_map.mp hin with ⟨q, hq, rfl⟩
  unfold removePair at hq
  rw [mem_filter, decide_eq_true_eq] at hq
  exact hq.right (inj_on_of_nodup_map h hq.left hmem rfl)

theorem zslStep_holds {zsl : Zskiplist score ele} (h : Holds zsl l) {op : ZslOp score ele}
    (hproper : Proper op zsl) (hfit : RanksFit op zsl) :
    exists zsl' l', zslStep op zsl = .ok zsl' ∧ Current op l l' ∧ Holds zsl' l' := by
  have hpairs := h.represents.pairs_eq
  rcases h.represents.shape with ⟨cells, hlinked, hitems⟩
  have hsorted := h.represents.sorted
  rw [← hitems] at hsorted
  cases op with
  | insert draws s e =>
    change e ∉ zsl.pairs.map Prod.snd at hproper
    change zsl.length + 1 < 2 ^ 32 at hfit
    rw [hpairs] at hproper
    rw [hlinked.length] at hfit
    have hnew : (s, e) ∉ l := fun hin => hproper (mem_map_of_mem hin)
    rcases zslInsert_cells hlinked hsorted hfit (zslRandomLevel_bounds draws) s e
      with ⟨zsl', cells', hrun, hlinked', hitems', _, _⟩
    rw [hitems] at hitems'
    refine ⟨zsl', _, ?_, rfl,
      ⟨⟨cells', hlinked', hitems'⟩, insertPair_sorted h.represents.sorted hnew⟩,
      insertPair_distinct h.distinct hproper⟩
    simp only [zslStep, hrun, Except.map]
  | delete s e =>
    rcases zslDelete_cells hlinked hsorted s e with ⟨zsl', cells', hrun, hlinked', hitems', _⟩
    rw [hitems] at hitems'
    refine ⟨zsl', _, ?_, rfl, ⟨⟨cells', hlinked', hitems'⟩, h.represents.sorted.filter _⟩,
      distinct_sublist h.distinct filter_sublist⟩
    simp only [zslStep, hrun, Except.map]
  | updateScore draws curscore e newscore =>
    change (curscore, e) ∈ zsl.pairs at hproper
    rw [hpairs] at hproper
    have hgone := removePair_gone h.distinct hproper
    have hnew : (newscore, e) ∉ removePair (curscore, e) l :=
      fun hin => hgone (mem_map_of_mem hin)
    rcases zslUpdateScore_cells hlinked hsorted (zslRandomLevel_bounds draws)
      (hitems ▸ hproper) newscore with ⟨zsl', x, cells', hrun, hlinked', hitems', _⟩
    rw [hitems] at hitems'
    refine ⟨zsl', _, ?_, rfl, ⟨⟨cells', hlinked', hitems'⟩,
        insertPair_sorted (h.represents.sorted.filter _) hnew⟩,
      insertPair_distinct (distinct_sublist h.distinct filter_sublist) hgone⟩
    simp only [zslStep, hrun, Except.map]
  | deleteRangeByScore range =>
    rcases zslDeleteRangeByScore_represents h.represents range with ⟨zsl', hrun, hrep⟩
    refine ⟨zsl', _, ?_, rfl, hrep, distinct_sublist h.distinct filter_sublist⟩
    simp only [zslStep, hrun, Except.map]
  | deleteRangeByLex range =>
    rcases zslDeleteRange_cells hlinked hsorted
      (fun _ _ e => !zslLexValueGteMin e range) (fun _ _ e => zslLexValueLteMax e range) with
      ⟨zsl', cells', front, mid, back, hsplit, hrun, hlinked', hitems', _⟩
    rw [hitems] at hsplit
    have hsub : (front ++ back).Sublist l := by
      rw [hsplit]
      exact append (sublist_append_left _ _) (refl _)
    have hrep : zsl'.Represents (front ++ back) :=
      ⟨⟨cells', hlinked', hitems'⟩, h.represents.sorted.sublist hsub⟩
    have hrun' : zsl.zslDeleteRangeByLex range = .ok (zsl', mid.map Prod.snd) := hrun
    refine ⟨zsl', front ++ back, ?_, ⟨⟨front, mid, back, hsplit, rfl⟩, ?_⟩, hrep, ?_⟩
    · simp only [zslStep, hrun', Except.map]
    · intro hscores
      rcases zslDeleteRangeByLex_represents h.represents range hscores with ⟨zsl1, hrun1, hrep1⟩
      rw [hrun'] at hrun1
      injection hrun1 with hpair
      injection hpair with hzsl _
      rw [← hzsl] at hrep1
      exact hrep.pairs_eq.symm.trans hrep1.pairs_eq
    · exact distinct_sublist h.distinct hsub
  | deleteRangeByRank start stop =>
    rcases zslDeleteRangeByRank_represents h.represents start stop with ⟨zsl', hrun, hrep⟩
    refine ⟨zsl', _, ?_, rfl, hrep, ?_⟩
    · simp only [zslStep, hrun, Except.map]
    apply distinct_sublist h.distinct
    unfold removeRanks
    have hsub : (l.drop (max (start - 1) stop)).Sublist (l.drop (start - 1)) :=
      drop_sublist_drop_left l (Nat.le_max_left _ _)
    have hall := append (refl (l.take (start - 1))) hsub
    rw [take_append_drop] at hall
    exact hall

theorem run_holds {ops : List (ZslOp score ele)} {zsl : Zskiplist score ele} (h : Holds zsl l)
    (hall : AllSteps zslStep (fun op zsl => Proper op zsl ∧ RanksFit op zsl) ops zsl) :
    exists zsl' l', runSteps zslStep ops zsl = .ok zsl' ∧ CurrentRun ops l l' ∧ Holds zsl' l' := by
  induction ops generalizing zsl l with
  | nil => exact ⟨zsl, l, rfl, rfl, h⟩
  | cons op ops ih =>
    rcases zslStep_holds h hall.left.left hall.left.right with ⟨zsl1, l1, hstep, hcurrent, h1⟩
    rcases ih h1 (hall.right zsl1 hstep) with ⟨zsl', l', hrun, hmore, h'⟩
    exact ⟨zsl', l', by rw [runSteps_cons_ok hstep, hrun], ⟨l1, hcurrent, hmore⟩, h'⟩

/-- Whatever levels are drawn: as long as the ranks of the insertions fit in
`unsigned int`, every run succeeds and ends in a list of the right shape, which
holds the current pairs in strictly increasing order. -/
theorem skiplist_keeps_shape (ops : List (ZslOp score ele))
    (hall : AllSteps zslStep (fun op zsl => Proper op zsl ∧ RanksFit op zsl) ops
      Zskiplist.zslCreate) :
    exists zsl l cells, runSteps zslStep ops Zskiplist.zslCreate = .ok zsl ∧
      CurrentRun ops [] l ∧ l.Pairwise PairLt ∧ zsl.pairs = l ∧
      Zskiplist.Linked cells zsl ∧ Zskiplist.items cells = l := by
  rcases run_holds holds_create hall with ⟨zsl, l, hrun, hcurrent, h⟩
  rcases h.represents.shape with ⟨cells, hlinked, hitems⟩
  exact ⟨zsl, l, cells, hrun, hcurrent, h.represents.sorted, h.represents.pairs_eq, hlinked, hitems⟩

theorem skiplist_keeps_shape_ranges :
    exists (zsl : Zskiplist Nat Nat) (cells : List (Cell (Nat × Nat))),
      runSteps zslStep
        [.insert 0 10 1, .insert 2 20 2, .insert 1 30 3, .insert 0 30 4,
          .updateScore 0 20 2 25, .updateScore 1 10 1 40,
          .deleteRangeByScore ⟨25, 25, false, false⟩, .deleteRangeByRank 1 1]
        Zskiplist.zslCreate = .ok zsl ∧
      zsl.pairs = [(30, 4), (40, 1)] ∧ Zskiplist.Linked cells zsl ∧
      Zskiplist.items cells = [(30, 4), (40, 1)] := by
  apply (skiplist_keeps_shape (_ : List (ZslOp Nat Nat)) (allSteps_of_check _)).elim
  · rintro zsl ⟨l, cells, hrun, hcurrent, _, hpairs, hlinked, hitems⟩
    suffices hl : l = [(30, 4), (40, 1)] from
      ⟨zsl, cells, hrun, hpairs.trans hl, hlinked, hitems.trans hl⟩
    rcases hcurrent with ⟨l1, rfl, l2, rfl, l3, rfl, l4, rfl, l5, rfl, l6, rfl, l7, rfl,
      l8, rfl, hlast⟩
    rw [hlast]
    decide +kernel
  · decide +kernel

end Runs

/-!
# A list that is too long
-/

namespace Zskiplist

section Wrap

variable {score ele : Type} {zsl : Zskiplist score ele}

theorem link_ok {x i : Nat} {found : Found} {l l0 : ZskiplistLevel}
    (hl : zsl.levelAt (found.update i) i = .ok l)
    (hx : zsl.levelAt (.node x) i = .ok l0) (hne : found.update i ≠ .node x) :
    link x found i zsl =
      .ok ((zsl.putLevel (.node x) i ⟨l.forward, ulSub l.span (crossed found i)⟩).putLevel
        (found.update i) i ⟨some x, (crossed found i + 1) % 2 ^ 32⟩) := by
  have hl' : (zsl.putLevel (.node x) i ⟨l.forward, ulSub l.span (crossed found i)⟩).levelAt
      (found.update i) i = .ok l := by
    rw [levelAt_putLevel_of_ne _ _ _ _ (Or.inl hne), hl]
  simp only [link, ok_bind, hl, setLevel_ok _ hx, setLevel_ok _ hl']

variable [LinearOrder score] [LinearOrder ele]

structure LastOfTwo (zsl : Zskiplist score ele) (x : Nat) (s : score) (e : ele)
    (length span : Nat) : Prop where
  tail : zsl.tail = some x
  length : zsl.length = length
  level : zsl.level = 2
  header : zsl.header 1 = ⟨some x, span⟩
  node : exists backward, zsl.dataAt x = some ((s, e), 2, backward)
  forward : exists span, zsl.levelAt (.node x) 1 = .ok ⟨none, span⟩

theorem insert_last {cells : List (Cell (score × ele))} (h : Linked cells zsl)
    (hlevel : zsl.level = 1) {s : score} {e : ele} (hsorted : (items cells).Pairwise PairLt)
    (hlast : forall c, c ∈ cells -> PairLt c.item (s, e)) :
    exists zsl', zsl.zslInsert 2 s e = .ok (zsl', zsl.next) ∧
      LastOfTwo zsl' zsl.next s e (cells.length + 1) ((cells.length + 1) % 2 ^ 32) := by
  rcases search_spec h (before s e) with ⟨pre, post, found, hsplit, hsearch, hfound⟩
  have hparts := searched_split h.level.left (hsplit ▸ hsorted) (before_eq s e)
    (fun a b _ _ hab hb => hab.trans hb) hfound
  have hpost : post = [] := by
    cases hcons : post with
    | nil => rfl
    | cons c tail =>
      exact absurd (hlast c (by rw [hsplit, hcons]; simp)) (hparts.right c (by rw [hcons]; simp))
  have hpre : pre = cells := by rw [hsplit, hpost, append_nil]
  subst hpre
  rcases hfound.stops 0 h.level.left with ⟨p, q, hstop⟩
  have hstop0 : Stop 0 pre found p q := hstop
  rcases h.stop_zero hsplit hstop0 with ⟨rfl, _⟩
  have hsmall := h.small
  have hraised := raise_raised zsl 2 found
  have hlane0 : Lane 0 p (zsl.raise 2 found).1 := by
    apply raise_lane h (by decide)
    rw [hraised.level, hlevel]
    decide
  have hold : (zsl.raise 2 found).2.update 0 = lastPlace p ∧
      (zsl.raise 2 found).2.rank 0 = p.length ∧
      (zsl.raise 2 found).2.update 1 = .header ∧ (zsl.raise 2 found).2.rank 1 = 0 := by
    refine ⟨?_, ?_, ?_, ?_⟩
    · rw [← hstop0.update]
      simp [raise, hlevel]
    · rw [← hstop0.rank]
      simp [raise, hlevel]
    · simp [raise, hlevel]
    · simp [raise, hlevel]
  have htop : ((zsl.raise 2 found).1.header 1).forward = none := by
    have hnone := h.above 1 (by rw [hlevel]) (by decide)
    rw [raise_header]
    split
    · exact hnone
    · exact hnone
  cases hraise : zsl.raise 2 found with
  | mk z1 f1 =>
  rw [hraise] at hraised hlane0 hold htop
  dsimp only at hraised hlane0 hold htop
  rcases hold with ⟨hupdate0, hrank0, hupdate1, hrank1⟩
  -- The node is created.
  generalize hz2 : (z1.zslCreateNode 2 s e).1 = z2
  have hcreate : z1.zslCreateNode 2 s e = (z2, zsl.next) := by
    rw [← hz2, ← hraised.next]
    rfl
  have hdata2 : z2.dataAt zsl.next = some ((s, e), 2, none) := by
    rw [← hz2, ← hraised.next]
    exact dataAt_create_same z1 2 s e
  have hplace : lastPlace p ≠ .node zsl.next := by
    intro heq
    rcases lastPlace_node heq with ⟨c, hc, haddr⟩
    have hlt := h.fresh c hc
    lia
  have hlast2 : z2.levelAt (lastPlace p) 0 = .ok ⟨none, 0⟩ := by
    rw [← hz2, levelAt_create_other _ _ _ _ (by rw [hraised.next]; exact hplace)]
    exact hlane0 p [] (append_nil p).symm hstop0.reaches
  have hheader2 : exists l, z2.levelAt .header 1 = .ok l ∧ l.forward = none := by
    refine ⟨z2.header 1, rfl, ?_⟩
    rw [← hz2]
    exact htop
  rcases hheader2 with ⟨l1, hheader2, hnone1⟩
  -- Two rounds link it.
  have hround0 : exists z3, link zsl.next f1 0 z2 = .ok z3 ∧ Frame 0 z2 z3 ∧
      exists span, z3.levelAt (.node zsl.next) 0 = .ok ⟨none, span⟩ := by
    rcases levelAt_of_dataAt hdata2 (by decide : 0 < 2) with ⟨l0, hl0⟩
    rw [← hupdate0] at hlast2 hplace
    refine ⟨_, link_ok hlast2 hl0 hplace,
      (frame_putLevel _ _ _ _).trans (frame_putLevel _ _ _ _), ulSub 0 (crossed f1 0), ?_⟩
    rw [levelAt_putLevel_of_ne _ _ _ _ (Or.inl hplace.symm)]
    exact levelAt_putLevel_same _ hl0
  rcases hround0 with ⟨z3, hlink0, hframe0, span, hown3⟩
  have hdata3 : z3.dataAt zsl.next = some ((s, e), 2, none) := (hframe0.same.data _).trans hdata2
  have hheader3 : z3.levelAt .header 1 = .ok l1 :=
    (hframe0.other 1 (by decide) .header).trans hheader2
  have hround1 : exists z4, link zsl.next f1 1 z3 = .ok z4 ∧ Frame 1 z3 z4 ∧
      z4.levelAt .header 1 = .ok ⟨some zsl.next, (p.length + 1) % 2 ^ 32⟩ ∧
      exists span, z4.levelAt (.node zsl.next) 1 = .ok ⟨none, span⟩ := by
    rcases levelAt_of_dataAt hdata3 (by decide : 1 < 2) with ⟨l0, hl0⟩
    have hcrossed : (crossed f1 1 + 1) % 2 ^ 32 = (p.length + 1) % 2 ^ 32 := by
      unfold crossed uiSub
      rw [hrank0, hrank1, Nat.zero_mod, Nat.sub_zero, Nat.add_mod_right, Nat.mod_mod,
        Nat.mod_add_mod]
    have hupdate3 : z3.levelAt (f1.update 1) 1 = .ok l1 := by
      rw [hupdate1]
      exact hheader3
    have hne : ZslPlace.header ≠ .node zsl.next := fun heq => nomatch heq
    refine ⟨_, link_ok hupdate3 hl0 (by rw [hupdate1]; exact hne),
      (frame_putLevel _ _ _ _).trans (frame_putLevel _ _ _ _), ?_,
      ulSub l1.span (crossed f1 1), ?_⟩
    · rw [hcrossed, hupdate1]
      exact levelAt_putLevel_same _ ((levelAt_putLevel_of_ne _ _ _ _ (Or.inl hne)).trans hheader3)
    · rw [hupdate1, levelAt_putLevel_of_ne _ _ _ _ (Or.inl hne.symm), ← hnone1]
      exact levelAt_putLevel_same _ hl0
  rcases hround1 with ⟨z4, hlink1, hframe1, hheader4, spanTop, hown4⟩
  have hlevel4 : z4.level = 2 := by
    rw [hframe1.same.level, hframe0.same.level, ← hz2]
    change z1.level = 2
    rw [hraised.level, hlevel]
    rfl
  have hdata4 : z4.dataAt zsl.next = some ((s, e), 2, none) := (hframe1.same.data _).trans hdata3
  rcases setBackward_spec hdata4 (lastAddr p) with ⟨z5, hset, hback⟩
  have hown5 : z5.levelAt (.node zsl.next) 0 = .ok ⟨none, span⟩ := by
    rw [hback.levels, hframe1.other 0 (by decide), hown3]
  have hlength5 : z5.length = p.length := by
    rw [hback.length, hframe1.same.length, hframe0.same.length, ← hz2]
    exact hraised.length.trans h.length
  have hheader5 : z5.header 1 = ⟨some zsl.next, (p.length + 1) % 2 ^ 32⟩ := by
    have hmax : 1 < ZSKIPLIST_MAXLEVEL := by decide
    rw [← hback.levels] at hheader4
    simp only [levelAt, if_pos hmax] at hheader4
    injection hheader4
  have hlinks : forLevels (link zsl.next f1) 0 2 z2 = .ok z4 := by
    simp only [forLevels, ok_bind, Nat.zero_add, hlink0, hlink1]
  have hbumps : forLevels (bump f1) 2 (z4.level - 2) z4 = .ok z4 := by
    rw [hlevel4]
    rfl
  have hset' : z4.setBackward zsl.next (f1.update 0).orNull = .ok z5 := by
    rw [hupdate0, orNull_lastPlace]
    exact hset
  have hdata5 : z5.dataAt zsl.next = some ((s, e), 2, lastAddr p) := by
    rw [hback.own, hdata4]
    rfl
  refine ⟨⟨z5.header, z5.nodes, z5.next, some zsl.next, ulAdd z5.length 1, z5.level⟩,
    ?_, rfl, ?_, hback.level.trans hlevel4, hheader5, ⟨lastAddr p, ?_⟩, spanTop, ?_⟩
  · simp only [zslInsert, ok_bind, hsearch, hraise, hcreate, hlinks, hbumps,
      hset', hown5, pointBack]
  · change ulAdd z5.length 1 = _
    rw [hlength5, ulAdd_eq (by lia)]
  · exact (dataAt_congr rfl _).trans hdata5
  · have hown5' : z5.levelAt (.node zsl.next) 1 = .ok ⟨none, spanTop⟩ :=
      (hback.levels _ _).trans hown4
    exact (levelAt_congr rfl rfl _ _).trans hown5'

end Wrap

end Zskiplist

def fillPairs (n : Nat) : List (Nat × Nat) :=
  (List.range n).map fun i => (i, i)

theorem fillPairs_length (n : Nat) : (fillPairs n).length = n := by
  unfold fillPairs
  rw [length_map, length_range]

variable {n : Nat}

theorem fillPairs_below {q : Nat × Nat} (hq : q ∈ fillPairs n) : q.1 < n ∧ q.2 < n := by
  rcases mem_map.mp hq with ⟨i, hi, rfl⟩
  exact ⟨mem_range.mp hi, mem_range.mp hi⟩

theorem fillPairs_new (n : Nat) : n ∉ (fillPairs n).map Prod.snd := by
  intro hin
  rcases mem_map.mp hin with ⟨q, hq, heq⟩
  have hlt := (fillPairs_below hq).right
  lia

theorem fillPairs_succ (n : Nat) : insertPair (n, n) (fillPairs n) = fillPairs (n + 1) := by
  have hbetween := insertPair_between (q := (n, n))
    (fun r hr => (fillPairs_below hr).left)
    (fun r (hr : r ∈ ([] : List (Nat × Nat))) => nomatch hr)
  rw [append_nil] at hbetween
  rw [hbetween]
  unfold fillPairs
  rw [range_succ, map_append]
  rfl

def fillOps (n : Nat) : List (ZslOp Nat Nat) :=
  (List.range n).map fun i => .insert 0 i i

theorem fill_holds (n : Nat) (hn : n < 2 ^ 32) :
    AllSteps zslStep Proper (fillOps n) (zslCreate : Zskiplist Nat Nat) ∧
      exists zsl, runSteps zslStep (fillOps n) zslCreate = .ok zsl ∧
        Holds zsl (fillPairs n) ∧ zsl.level = 1 := by
  induction n with
  | zero => exact ⟨trivial, zslCreate, rfl, holds_create, rfl⟩
  | succ n ih =>
    rcases ih (by lia) with ⟨hall, zsl, hrun, hholds, hlevel⟩
    have hops : fillOps (n + 1) = fillOps n ++ [.insert 0 n n] := by
      unfold fillOps
      rw [range_succ, map_append]
      rfl
    have hnew := fillPairs_new n
    have hpair : (n, n) ∉ fillPairs n := fun hin => hnew (mem_map_of_mem hin)
    rcases hholds.represents.shape with ⟨cells, hlinked, hitems⟩
    have hlength : cells.length + 1 < 2 ^ 32 := by
      rw [← hlinked.length, hholds.represents.length, fillPairs_length]
      exact hn
    rcases zslInsert_cells hlinked (hitems ▸ hholds.represents.sorted) hlength
      (zslRandomLevel_bounds 0) n n with
      ⟨zsl', cells', hinsert, hlinked', hitems', _, hmax⟩
    have hrep := insertPair_sorted hholds.represents.sorted hpair
    have hdistinct := insertPair_distinct (q := (n, n)) hholds.distinct hnew
    have hstep : zslStep (.insert 0 n n) zsl = .ok zsl' := by
      simp only [zslStep, hinsert, Except.map]
    rw [hitems] at hitems'
    rw [fillPairs_succ] at hrep hitems' hdistinct
    refine ⟨?_, zsl', ?_, ⟨⟨⟨cells', hlinked', hitems'⟩, hrep⟩, hdistinct⟩, ?_⟩
    · rw [hops]
      apply allSteps_append hall
      intro zsl1 hrun1
      rw [hrun] at hrun1
      cases hrun1
      refine ⟨?_, fun _ _ => trivial⟩
      change n ∉ zsl.pairs.map Prod.snd
      rw [hholds.represents.pairs_eq]
      exact hnew
    · rw [hops, runSteps_append, hrun]
      exact runSteps_cons_ok hstep
    · rw [hmax, hlevel]
      rfl

theorem insert_wraps {zsl : Zskiplist Nat Nat} {cells : List (Cell (Nat × Nat))}
    (hn : n + 1 = 2 ^ 32) (hlinked : Zskiplist.Linked cells zsl)
    (hitems : items cells = fillPairs n) (hsorted : (fillPairs n).Pairwise PairLt)
    (hlevel : zsl.level = 1) :
    exists zsl', zsl.zslInsert 2 n n = .ok (zsl', zsl.next) ∧
      Zskiplist.LastOfTwo zsl' zsl.next n n (2 ^ 32) 0 := by
  have hcells : cells.length + 1 = 2 ^ 32 := by
    have hlength := congrArg List.length hitems
    unfold items at hlength
    rw [length_map, fillPairs_length] at hlength
    rw [hlength]
    exact hn
  have hlast : forall c, c ∈ cells -> PairLt c.item (n, n) := by
    intro c hc
    have hin : c.item ∈ items cells := mem_map_of_mem hc
    rw [hitems] at hin
    exact Or.inl (fillPairs_below hin).left
  rcases insert_last hlinked hlevel (hitems ▸ hsorted) hlast with ⟨zsl', hinsert, hend⟩
  rw [hcells, Nat.mod_self] at hend
  exact ⟨zsl', hinsert, hend⟩

theorem fill_wraps (hn : n + 1 = 2 ^ 32) :
    exists (zsl : Zskiplist Nat Nat) (x : Nat),
      AllSteps zslStep Proper (fillOps n ++ [.insert 1 n n]) zslCreate ∧
        runSteps zslStep (fillOps n ++ [.insert 1 n n]) zslCreate = .ok zsl ∧
        zsl.tail = some x ∧ zsl.length = 2 ^ 32 ∧ zsl.header 1 = ⟨some x, 0⟩ := by
  rcases fill_holds n (by lia) with ⟨hall, zsl, hrun, hholds, hlevel⟩
  rcases hholds.represents.shape with ⟨cells, hlinked, hitems⟩
  rcases insert_wraps hn hlinked hitems hholds.represents.sorted hlevel with ⟨zsl', hinsert, hend⟩
  have hstep : zslStep (.insert 1 n n) zsl = .ok zsl' := by
    have hrandom : zslRandomLevel 1 = 2 := rfl
    simp only [zslStep, hrandom, hinsert, Except.map]
  refine ⟨zsl', zsl.next, ?_, ?_, hend.tail, hend.length, hend.header⟩
  · apply allSteps_append hall
    intro zsl1 hrun1
    rw [hrun] at hrun1
    cases hrun1
    refine ⟨?_, fun _ _ => trivial⟩
    change n ∉ zsl.pairs.map Prod.snd
    rw [hholds.represents.pairs_eq]
    exact fillPairs_new n
  · rw [runSteps_append, hrun]
    exact runSteps_cons_ok hstep

/-- The node number `2 ^ 32` is given two levels: the span of the header to it, over
all the nodes, is 0. -/
theorem skiplist_span_wraps :
    exists (ops : List (ZslOp Nat Nat)) (zsl : Zskiplist Nat Nat) (x : Nat),
      AllSteps zslStep Proper ops Zskiplist.zslCreate ∧
        runSteps zslStep ops Zskiplist.zslCreate = .ok zsl ∧
        zsl.tail = some x ∧ zsl.length = 2 ^ 32 ∧ zsl.header 1 = ⟨some x, 0⟩ := by
  have hn : exists n, n + 1 = 2 ^ 32 := ⟨4294967295, by decide⟩
  rcases hn with ⟨n, hn⟩
  exact ⟨_, fill_wraps hn⟩

end Redisoo
