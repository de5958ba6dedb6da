import Redisoo.Structures.SkiplistRun
import Redisoo.Structures.Zset

/-!
# Ranks and ranges of a sorted skip list
-/

namespace Redisoo

open Foundation.Lanes List

theorem while_eq_filter {item : Type} {R : item -> item -> Prop} {Q : item -> Bool}
    {l : List item} (hsorted : l.Pairwise R)
    (hdown : forall a b, a ∈ l -> b ∈ l -> R a b -> Q b = true -> Q a = true) :
    l.takeWhile Q = l.filter Q ∧ l.dropWhile Q = l.filter (fun a => !Q a) := by
  induction l with
  | nil => exact ⟨rfl, rfl⟩
  | cons a rest ih =>
    rw [pairwise_cons] at hsorted
    have hrest := ih hsorted.right
      (fun b c hb hc => hdown b c (mem_cons_of_mem a hb) (mem_cons_of_mem a hc))
    cases ha : Q a with
    | true => simp [ha, hrest.left, hrest.right]
    | false =>
      have hnone : forall b, b ∈ rest -> Q b = false := by
        intro b hb
        cases hQ : Q b with
        | false => rfl
        | true =>
          have hQa := hdown a b mem_cons_self (mem_cons_of_mem a hb) (hsorted.left b hb) hQ
          rw [ha] at hQa
          cases hQa
      constructor
      · rw [takeWhile_cons, ha, filter_cons, ha,
          filter_eq_nil_iff.mpr (fun b hb => by rw [hnone b hb]; exact Bool.false_ne_true)]
        rfl
      · rw [dropWhile_cons, ha, filter_cons, ha,
          filter_eq_self.mpr (fun b hb => by rw [hnone b hb]; rfl)]
        rfl

theorem filter_window {item : Type} {P : item -> Bool} {l : List item} {p k : Nat}
    (hlow : forall q, q ∈ l.take p -> P q = false) (hhigh : forall q, q ∈ l.drop k -> P q = false)
    (hin : forall q, q ∈ (l.take k).drop p -> P q = true) : l.filter P = (l.take k).drop p := by
  have hnone : forall l' : List item, (forall q, q ∈ l' -> P q = false) -> l'.filter P = [] :=
    fun l' h => filter_eq_nil_iff.mpr (fun q hq => by rw [h q hq]; exact Bool.false_ne_true)
  have hlow' : forall q, q ∈ (l.take k).take p -> P q = false := by
    intro q hq
    rw [take_take] at hq
    exact hlow q (take_subset_take_left l (Nat.min_le_left p k) hq)
  calc l.filter P = ((l.take k).take p ++ (l.take k).drop p ++ l.drop k).filter P := by
        rw [take_append_drop, take_append_drop]
    _ = (l.take k).drop p := by
        rw [filter_append, filter_append, hnone _ hlow', hnone _ hhigh,
          filter_eq_self.mpr hin, nil_append, append_nil]

namespace Zskiplist

variable {score ele : Type} [LinearOrder score] [LinearOrder ele]
  {cells pre post : List (Cell (score × ele))} {zsl : Zskiplist score ele}

theorem upTo_eq (s : score) (e : ele) (n : Nat) (s' : score) (e' : ele) :
    upTo s e n s' e' = decide (Not (PairLt (s, e) (s', e'))) := by
  unfold upTo PairLt
  rw [decide_eq_decide, not_or, not_and, not_lt, not_lt]
  constructor
  · rintro (hlt | ⟨rfl, hle⟩)
    · exact ⟨le_of_lt hlt, fun heq => absurd heq (ne_of_gt hlt)⟩
    · exact ⟨le_refl _, fun _ => hle⟩
  rintro ⟨hle, himp⟩
  rcases lt_or_eq_of_le hle with hlt | heq
  · exact Or.inl hlt
  · exact Or.inr ⟨heq, himp heq.symm⟩

variable {c : Cell (score × ele)} {range : Zrangespec score} {d c' : Cell (score × ele)}
  {front back front' back' pre' post' : List (Cell (score × ele))}

omit [LinearOrder score] [LinearOrder ele] in
theorem cell_eq (hnodup : (items cells).Nodup) (hc : c ∈ cells) (hd : d ∈ cells)
    (hitem : c.item = d.item) : c = d :=
  inj_on_of_nodup_map hnodup hc hd hitem

omit [LinearOrder score] in
theorem isEle_spec (h : Linked cells zsl) (hsplit : cells = pre ++ post) (e : ele) :
    (pre = [] ∧ zsl.isEle (lastPlace pre) e = .ok false) ∨
      exists front d, pre = front ++ [d] ∧
        zsl.isEle (lastPlace pre) e = .ok (decide (d.item.2 = e)) := by
  rcases eq_nil_or_concat pre with rfl | ⟨front, d, rfl⟩
  · exact Or.inl ⟨rfl, rfl⟩
  right
  rw [concat_eq_append] at hsplit ⊢
  refine ⟨front, d, rfl, ?_⟩
  have hsplit' : cells = front ++ d :: post := by
    rw [hsplit, append_assoc]
    rfl
  rcases h.nodeAt hsplit' with ⟨level, hnode⟩
  rw [lastPlace_concat]
  simp only [isEle, bind, Except.bind, hnode]

theorem sorted_nodup {l : List (score × ele)} (hsorted : l.Pairwise PairLt) : l.Nodup :=
  hsorted.imp (fun {a b} hlt (heq : a = b) => pairLt_irrefl b (heq ▸ hlt))

theorem pairLt_of_split (hsorted : (items cells).Pairwise PairLt) (hsplit : cells = pre ++ post)
    (hc : c ∈ pre) (hd : d ∈ post) : PairLt c.item d.item := by
  rw [hsplit, items_append, pairwise_append] at hsorted
  exact hsorted.right.right _ (mem_map_of_mem hc) _ (mem_map_of_mem hd)

omit [LinearOrder score] [LinearOrder ele] in
theorem place_unique (hnodup : (items cells).Nodup) (hsplit : cells = front ++ c :: back)
    (hsplit' : cells = front' ++ c :: back') : front = front' ∧ back = back' := by
  have hcells : cells.Nodup := List.Nodup.of_map Cell.item hnodup
  rw [hsplit, nodup_middle, nodup_cons, mem_append, not_or] at hcells
  rw [hsplit] at hsplit'
  have hinj := (append_cons_inj_of_notMem hcells.left.left hcells.left.right).mp hsplit'
  exact ⟨hinj.left, hinj.right.right⟩

section Rank

variable {s : score} {e : ele} (h : Linked cells zsl) (hsorted : (items cells).Pairwise PairLt)
  (hdistinct : ((items cells).map Prod.snd).Nodup)

include h hsorted hdistinct

theorem rank_round (hc : c ∈ cells) (hitem : c.item = (s, e)) {i : Nat} (hi : i < zsl.level)
    (hsplit : cells = pre ++ post) (hreach : Reaches i pre)
    (hpre : forall d, d ∈ pre -> Not (PairLt (s, e) d.item)) :
    (exists front back, cells = front ++ c :: back ∧
      zsl.getRankFrom s e (i + 1) (lastPlace pre) pre.length = .ok (front.length + 1)) ∨
    exists m rest, cells = (pre ++ m) ++ rest ∧ Reaches i (pre ++ m) ∧
      (forall d, d ∈ pre ++ m -> Not (PairLt (s, e) d.item)) ∧ c ∈ rest ∧
      Blocked (upTo s e) i (pre.length + m.length) rest ∧
      zsl.getRankFrom s e (i + 1) (lastPlace pre) pre.length =
        zsl.getRankFrom s e i (lastPlace (pre ++ m)) (pre ++ m).length := by
  have hlength : post.length < zsl.length + 1 := by
    rw [h.length, hsplit, length_append]
    lia
  rcases walk_spec h (upTo s e) hi (zsl.length + 1) hsplit hreach hlength with
    ⟨m, rest, hpost, hwalk, hreach', hpassed, hblocked⟩
  have hsplit' : cells = (pre ++ m) ++ rest := by
    rw [hsplit, hpost, append_assoc]
  have hpre' : forall d, d ∈ pre ++ m -> Not (PairLt (s, e) d.item) := by
    rcases last_of_passed hreach' hpassed with hnil | ⟨front, d0, hm, hgoes⟩
    · rw [hnil, append_nil]
      exact hpre
    unfold goes at hgoes
    rw [upTo_eq, decide_eq_true_eq] at hgoes
    intro d hd hlt
    rw [hm, ← append_assoc, mem_append, mem_singleton] at hd
    rcases hd with hd | rfl
    · have hcut : cells = (pre ++ front) ++ (d0 :: rest) := by
        rw [hsplit', hm]
        simp only [append_assoc, singleton_append]
      exact hgoes (hlt.trans (pairLt_of_split hsorted hcut hd mem_cons_self))
    · exact hgoes hlt
  have hstop : (exists front, pre ++ m = front ++ [c] ∧
      zsl.isEle (lastPlace (pre ++ m)) e = .ok true) ∨
      c ∉ pre ++ m ∧ zsl.isEle (lastPlace (pre ++ m)) e = .ok false := by
    rcases isEle_spec h hsplit' e with ⟨hnil, hele⟩ | ⟨front, d, hlast, hele⟩
    · refine Or.inr ⟨?_, hele⟩
      rw [hnil]
      exact not_mem_nil
    have hd : d ∈ cells := by
      rw [hsplit', hlast]
      simp
    by_cases heq : d.item.2 = e
    · left
      have hdc : d = c := by
        apply cell_eq (sorted_nodup hsorted) hd hc
        apply inj_on_of_nodup_map hdistinct (mem_map_of_mem hd) (mem_map_of_mem hc)
        rw [heq, hitem]
      rw [decide_eq_true heq] at hele
      exact ⟨front, hdc ▸ hlast, hele⟩
    rw [decide_eq_false heq] at hele
    refine Or.inr ⟨?_, hele⟩
    intro hin
    rw [hlast, mem_append, mem_singleton] at hin
    rcases hin with hin | rfl
    · have hcut : cells = front ++ (d :: rest) := by
        rw [hsplit', hlast, append_assoc]
        rfl
      apply hpre' d (by rw [hlast]; simp)
      rw [← hitem]
      exact pairLt_of_split hsorted hcut hin mem_cons_self
    · exact heq (congrArg Prod.snd hitem)
  rcases hstop with ⟨front, hlast, hele⟩ | ⟨hnot, hele⟩
  · left
    refine ⟨front, rest, ?_, ?_⟩
    · rw [hsplit', hlast, append_assoc]
      rfl
    · simp only [getRankFrom, bind, Except.bind, hwalk, hele, if_true]
      rw [hlast, length_append, length_singleton]
  · right
    refine ⟨m, rest, hsplit', hreach', hpre', ?_, hblocked, ?_⟩
    · rw [hsplit', mem_append] at hc
      exact hc.resolve_left hnot
    · simp only [getRankFrom, bind, Except.bind, hwalk, hele, Bool.false_eq_true, if_false]

theorem getRankFrom_spec (hc : c ∈ cells) (hitem : c.item = (s, e)) (i : Nat) (hi : i < zsl.level)
    (hsplit : cells = pre ++ post) (hreach : forall j, j < i + 1 -> Reaches j pre)
    (hpre : forall d, d ∈ pre -> Not (PairLt (s, e) d.item)) :
    exists front back, cells = front ++ c :: back ∧
      zsl.getRankFrom s e (i + 1) (lastPlace pre) pre.length = .ok (front.length + 1) := by
  induction i generalizing pre post with
  | zero =>
    rcases rank_round h hsorted hdistinct hc hitem hi hsplit
      (hreach 0 (Nat.lt_succ_self 0)) hpre with
      hdone | ⟨m, rest, hsplit', _, _, hin, hblocked, _⟩
    · exact hdone
    -- On level 0 the first cell that stops the search comes after the pair.
    exfalso
    cases hrest : rest with
    | nil =>
      rw [hrest] at hin
      cases hin
    | cons r tail =>
      have hr : 0 < r.height := (h.heights r (by rw [hsplit', hrest]; simp)).left
      rw [hrest, Blocked, if_pos hr] at hblocked
      unfold goes at hblocked
      rw [upTo_eq, decide_eq_false_iff_not, not_not] at hblocked
      rw [hrest, mem_cons] at hin
      rcases hin with rfl | hin
      · rw [hitem] at hblocked
        exact pairLt_irrefl _ hblocked
      have hcut : cells = (pre ++ m ++ [r]) ++ tail := by
        rw [hsplit', hrest, append_assoc (pre ++ m)]
        rfl
      have hlt := pairLt_of_split hsorted hcut (by simp : r ∈ pre ++ m ++ [r]) hin
      rw [hitem] at hlt
      exact pairLt_irrefl _ (hblocked.trans hlt)
  | succ i ih =>
    rcases rank_round h hsorted hdistinct hc hitem hi hsplit
      (hreach (i + 1) (Nat.lt_succ_self _)) hpre with
      hdone | ⟨m, rest, hsplit', hreach', hpre', _, _, hnext⟩
    · exact hdone
    rw [hnext]
    apply ih (by lia) hsplit' _ hpre'
    intro j hj
    rcases hreach' with hnil | ⟨front, d, hfront, hd⟩
    · exact Or.inl hnil
    · exact Or.inr ⟨front, d, hfront, by lia⟩

theorem zslGetRank_spec (hc : c ∈ cells) :
    exists front back, cells = front ++ c :: back ∧
      zsl.zslGetRank c.item.1 c.item.2 = .ok (front.length + 1) := by
  have hlevel := h.level.left
  have hsucc : zsl.level = zsl.level - 1 + 1 := by lia
  have hstart : cells = [] ++ cells := rfl
  rcases getRankFrom_spec h hsorted hdistinct hc (s := c.item.1) (e := c.item.2) rfl
    (zsl.level - 1) (by lia) hstart (fun _ _ => Or.inl rfl)
    (fun d hd => absurd hd not_mem_nil) with ⟨front, back, hsplit, hrank⟩
  refine ⟨front, back, hsplit, ?_⟩
  unfold zslGetRank
  rw [hsucc]
  exact hrank

theorem zslGetRank_place (hsplit : cells = pre ++ c :: post) :
    zsl.zslGetRank c.item.1 c.item.2 = .ok (pre.length + 1) := by
  have hc : c ∈ cells := by
    rw [hsplit]
    simp
  rcases zslGetRank_spec h hsorted hdistinct hc with ⟨front, back, hsplit', hrank⟩
  rw [(place_unique (sorted_nodup hsorted) hsplit hsplit').left]
  exact hrank

end Rank

/-!
# Ranges
-/

def inRange (range : Zrangespec score) (q : score × ele) : Bool :=
  zslValueGteMin q.1 range && zslValueLteMax q.1 range

omit [LinearOrder ele] in
theorem emptyRange_out (h : emptyRange range = true) (q : score × ele) :
    inRange range q = false := by
  rw [← Bool.not_eq_true]
  intro hin
  unfold inRange zslValueGteMin zslValueLteMax at hin
  rw [Bool.and_eq_true] at hin
  have hmin : range.min ≤ q.1 := by
    have hleft := hin.left
    split at hleft
    · exact le_of_lt (of_decide_eq_true hleft)
    · exact of_decide_eq_true hleft
  have hmax : q.1 ≤ range.max := by
    have hright := hin.right
    split at hright
    · exact le_of_lt (of_decide_eq_true hright)
    · exact of_decide_eq_true hright
  unfold emptyRange at h
  rw [Bool.or_eq_true, decide_eq_true_eq, Bool.and_eq_true, decide_eq_true_eq, Bool.or_eq_true] at h
  rcases h with hgt | ⟨heq, hex | hex⟩
  · exact absurd (le_trans hmin hmax) (not_le_of_gt hgt)
  · have hleft := hin.left
    rw [if_pos hex, decide_eq_true_eq] at hleft
    exact absurd hmax (not_le_of_gt (heq ▸ hleft))
  · have hright := hin.right
    rw [if_pos hex, decide_eq_true_eq, ← heq] at hright
    exact absurd hmin (not_le_of_gt hright)

omit [LinearOrder ele] in
theorem inRange_false {q : score × ele}
    (h : zslValueGteMin q.1 range = false ∨ zslValueLteMax q.1 range = false) :
    inRange range q = false := by
  unfold inRange
  rw [Bool.and_eq_false_iff]
  exact h

theorem zslIsInRange_spec (h : Linked cells zsl) (hsorted : (items cells).Pairwise PairLt)
    (range : Zrangespec score) :
    exists b, zsl.zslIsInRange range = .ok b ∧
      (b = false -> forall c, c ∈ cells -> inRange range c.item = false) ∧
      (b = true -> (exists c, c ∈ cells ∧ zslValueGteMin c.item.1 range = true) ∧
        exists c, c ∈ cells ∧ zslValueLteMax c.item.1 range = true) := by
  unfold zslIsInRange
  cases hempty : emptyRange range with
  | true => exact ⟨false, rfl, fun _ c _ => emptyRange_out hempty c.item, fun hb => nomatch hb⟩
  | false =>
    rw [if_neg Bool.false_ne_true]
    rcases eq_nil_or_concat cells with hnil | ⟨front, last, hlast⟩
    · refine ⟨false, ?_, ?_, fun hb => nomatch hb⟩
      · rw [h.tail, hnil]
        rfl
      · intro _ c hc
        rw [hnil] at hc
        cases hc
    · rw [concat_eq_append] at hlast
      rcases h.nodeAt hlast with ⟨level, hnode⟩
      have htail : zsl.tail = some last.addr := by
        rw [h.tail, hlast, lastAddr_concat]
      have hlastMem : last ∈ cells := by
        rw [hlast]
        simp
      have hle : forall c, c ∈ cells -> c.item.1 ≤ last.item.1 := by
        intro c hc
        rw [hlast, mem_append, mem_singleton] at hc
        rcases hc with hc | rfl
        · exact (pairLt_of_split hsorted hlast hc (mem_singleton_self last)).score_le
        · exact le_refl _
      rw [htail]
      simp only [bind, Except.bind, hnode]
      cases hgte : zslValueGteMin last.item.1 range with
      | false =>
        refine ⟨false, rfl, ?_, fun hb => nomatch hb⟩
        intro _ c hc
        exact inRange_false (Or.inl (gteMin_down (hle c hc) hgte))
      | true =>
        cases hcells : cells with
        | nil =>
          rw [hcells] at hlastMem
          cases hlastMem
        | cons first rest =>
          have hfirst : cells = [] ++ first :: rest := hcells
          rcases h.first with ⟨span, hheader⟩
          rcases h.nodeAt hfirst with ⟨level', hnode'⟩
          have hforward : headAddr cells = some first.addr := by
            rw [hcells]
            rfl
          have hge : forall c, c ∈ first :: rest -> first.item.1 ≤ c.item.1 := by
            intro c hc
            rw [mem_cons] at hc
            rcases hc with rfl | hc
            · exact le_refl _
            · have hcut : cells = [first] ++ rest := hcells
              exact (pairLt_of_split hsorted hcut (mem_singleton_self first) hc).score_le
          rw [if_pos rfl, hheader, hforward]
          dsimp only
          rw [hnode']
          refine ⟨_, rfl, ?_, ?_⟩
          · intro hfalse c hc
            apply inRange_false
            right
            rw [← Bool.not_eq_true]
            intro hlte
            rw [lteMax_down (hge c hc) hlte] at hfalse
            cases hfalse
          · intro htrue
            exact ⟨⟨last, hcells ▸ hlastMem, hgte⟩, ⟨first, mem_cons_self, htrue⟩⟩

structure NodeOf (c : Cell (score × ele)) (n : ZskiplistNode score ele) : Prop where
  score : n.score = c.item.1
  ele : n.ele = c.item.2

theorem zslFirstInRange_spec (h : Linked cells zsl)
    (hsorted : (items cells).Pairwise PairLt) (range : Zrangespec score) :
    (zsl.zslFirstInRange range = .ok none ∧
      forall c, c ∈ cells -> inRange range c.item = false) ∨
    exists pre c post n, cells = pre ++ c :: post ∧
      zsl.zslFirstInRange range = .ok (some n) ∧ NodeOf c n ∧
      (forall d, d ∈ pre -> zslValueGteMin d.item.1 range = false) ∧
      inRange range c.item = true := by
  rcases zslIsInRange_spec h hsorted range with ⟨b, hb, hno, hyes⟩
  unfold zslFirstInRange
  simp only [bind, Except.bind, hb]
  cases b with
  | false => exact Or.inl ⟨rfl, hno rfl⟩
  | true =>
    rw [if_pos rfl]
    rcases search_spec h (fun _ s _ => !zslValueGteMin s range) with
      ⟨pre, post, found, hsplit, hrun, hfound⟩
    have hgo : forall (n : Nat) s (e : ele), (!zslValueGteMin s range) =
        decide (zslValueGteMin ((s, e) : score × ele).1 range = false) := by
      intro n s e
      cases zslValueGteMin s range <;> rfl
    have hparts := searched_split h.level.left (hsplit ▸ hsorted) hgo
      (fun a b _ _ hab hb => gteMin_down hab.score_le hb) hfound
    rcases searched_forward h hsplit hfound with ⟨hlevel, hforward, _⟩
    cases hpost : post with
    | nil =>
      rcases (hyes rfl).left with ⟨c, hc, hgte⟩
      rw [hsplit, hpost, append_nil] at hc
      rw [hparts.left c hc] at hgte
      cases hgte
    | cons c rest =>
      have hsplit' : cells = pre ++ c :: rest := by rw [hsplit, hpost]
      rcases h.nodeAt hsplit' with ⟨level, hnode⟩
      have hnext : (toLevel (jump 0 post)).forward = some c.addr := by
        change (jump 0 post).1 = _
        rw [hforward, hpost]
        rfl
      have hgte : zslValueGteMin c.item.1 range = true := by
        rw [← Bool.not_eq_false]
        exact hparts.right c (by rw [hpost]; simp)
      simp only [hrun, hlevel, hnext, hnode]
      cases hlte : zslValueLteMax c.item.1 range with
      | true =>
        right
        refine ⟨pre, c, rest, _, hsplit', rfl, ⟨rfl, rfl⟩, hparts.left, ?_⟩
        unfold inRange
        rw [hgte, hlte]
        rfl
      | false =>
        left
        refine ⟨rfl, ?_⟩
        intro d hd
        apply inRange_false
        rw [hsplit', mem_append, mem_cons] at hd
        rcases hd with hd | rfl | hd
        · exact Or.inl (hparts.left d hd)
        · exact Or.inr hlte
        · right
          rw [← Bool.not_eq_true]
          intro hlted
          have hcut : cells = (pre ++ [c]) ++ rest := hsplit'.trans (append_cons _ _ _)
          have hlt := pairLt_of_split hsorted hcut (by simp : c ∈ pre ++ [c]) hd
          rw [lteMax_down hlt.score_le hlted] at hlte
          cases hlte

theorem zslLastInRange_spec (h : Linked cells zsl)
    (hsorted : (items cells).Pairwise PairLt) (range : Zrangespec score) :
    (zsl.zslLastInRange range = .ok none ∧
      forall c, c ∈ cells -> inRange range c.item = false) ∨
    exists pre c post n, cells = pre ++ c :: post ∧
      zsl.zslLastInRange range = .ok (some n) ∧ NodeOf c n ∧
      (forall d, d ∈ post -> zslValueLteMax d.item.1 range = false) ∧
      inRange range c.item = true := by
  rcases zslIsInRange_spec h hsorted range with ⟨b, hb, hno, hyes⟩
  unfold zslLastInRange
  simp only [bind, Except.bind, hb]
  cases b with
  | false => exact Or.inl ⟨rfl, hno rfl⟩
  | true =>
    rw [if_pos rfl]
    rcases search_spec h (fun _ s _ => zslValueLteMax s range) with
      ⟨pre, post, found, hsplit, hrun, hfound⟩
    have hgo : forall (n : Nat) s (e : ele), zslValueLteMax s range =
        decide (zslValueLteMax ((s, e) : score × ele).1 range = true) := by
      intro n s e
      cases zslValueLteMax s range <;> rfl
    have hparts := searched_split h.level.left (hsplit ▸ hsorted) hgo
      (fun a b _ _ hab hb => lteMax_down hab.score_le hb) hfound
    have habove : forall d, d ∈ post -> zslValueLteMax d.item.1 range = false :=
      fun d hd => Bool.not_eq_true _ ▸ hparts.right d hd
    rcases hfound.stops 0 h.level.left with ⟨p, q, hstop⟩
    have hstop' : Stop 0 pre found p q := hstop
    have hupdate : found.update 0 = lastPlace pre := by
      rw [hstop'.update, (h.stop_zero hsplit hstop').left]
    rcases eq_nil_or_concat pre with hpre | ⟨front, c, hpre⟩
    · rcases (hyes rfl).right with ⟨c, hc, hlte⟩
      rw [hsplit, hpre, nil_append] at hc
      rw [habove c hc] at hlte
      cases hlte
    · rw [concat_eq_append] at hpre
      have hsplit' : cells = front ++ c :: post := by
        rw [hsplit, hpre, append_assoc]
        rfl
      rcases h.nodeAt hsplit' with ⟨level, hnode⟩
      rw [hpre, lastPlace_concat] at hupdate
      have hlte : zslValueLteMax c.item.1 range = true := hparts.left c (by rw [hpre]; simp)
      simp only [hrun, hupdate, hnode]
      cases hgte : zslValueGteMin c.item.1 range with
      | true =>
        right
        refine ⟨front, c, post, _, hsplit', rfl, ⟨rfl, rfl⟩, habove, ?_⟩
        unfold inRange
        rw [hgte, hlte]
        rfl
      | false =>
        left
        refine ⟨rfl, ?_⟩
        intro d hd
        apply inRange_false
        rw [hsplit', mem_append, mem_cons] at hd
        rcases hd with hd | rfl | hd
        · left
          exact gteMin_down (pairLt_of_split hsorted hsplit' hd mem_cons_self).score_le hgte
        · exact Or.inl hgte
        · exact Or.inr (habove d hd)

theorem first_le_last (hsorted : (items cells).Pairwise PairLt)
    (hsplit : cells = pre ++ c :: post) (hsplit' : cells = pre' ++ c' :: post') (hc : c ∉ post') :
    pre.length ≤ pre'.length := by
  have hnodup := sorted_nodup hsorted
  have hin : c ∈ cells := by
    rw [hsplit]
    simp
  rw [hsplit', mem_append, mem_cons] at hin
  rcases hin with hin | rfl | hin
  · rcases append_of_mem hin with ⟨x, y, hpre'⟩
    have hcut : cells = x ++ c :: (y ++ c' :: post') := by
      rw [hsplit', hpre', append_assoc]
      rfl
    rw [(place_unique hnodup hsplit hcut).left, hpre', length_append]
    exact Nat.le_add_right _ _
  · rw [(place_unique hnodup hsplit hsplit').left]
  · exact absurd hin hc

theorem inRange_window (hsorted : (items cells).Pairwise PairLt)
    (hsplit : cells = pre ++ c :: post) (hsplit' : cells = pre' ++ c' :: post')
    (hlow : forall d, d ∈ pre -> zslValueGteMin d.item.1 range = false)
    (hhigh : forall d, d ∈ post' -> zslValueLteMax d.item.1 range = false)
    (hc : inRange range c.item = true) (hc' : inRange range c'.item = true) :
    cells.filter (fun d => inRange range d.item) =
      (cells.take (pre'.length + 1)).drop pre.length := by
  unfold inRange at hc hc'
  rw [Bool.and_eq_true] at hc hc'
  have htake : cells.take pre.length = pre := by
    rw [hsplit, take_left]
  have hdrop : cells.drop pre.length = c :: post := by
    rw [hsplit, drop_left]
  have hcut : cells = (pre' ++ [c']) ++ post' := hsplit'.trans (append_cons _ _ _)
  have hlen : (pre' ++ [c']).length = pre'.length + 1 := by
    rw [length_append, length_singleton]
  have htake' : cells.take (pre'.length + 1) = pre' ++ [c'] := by
    rw [hcut, ← hlen, take_left]
  have hdrop' : cells.drop (pre'.length + 1) = post' := by
    rw [hcut, ← hlen, drop_left]
  apply filter_window
  · intro d hd
    rw [htake] at hd
    exact inRange_false (Or.inl (hlow d hd))
  · intro d hd
    rw [hdrop'] at hd
    exact inRange_false (Or.inr (hhigh d hd))
  · intro d hd
    have hbelow : d ∈ pre' ++ [c'] := htake' ▸ mem_of_mem_drop hd
    rw [drop_take] at hd
    have habove : d ∈ c :: post := hdrop ▸ mem_of_mem_take hd
    unfold inRange
    rw [Bool.and_eq_true]
    constructor
    · rw [mem_cons] at habove
      rcases habove with rfl | hd'
      · exact hc.left
      rw [← Bool.not_eq_false]
      intro hgte
      have hcut' : cells = (pre ++ [c]) ++ post := hsplit.trans (append_cons _ _ _)
      have hlt := pairLt_of_split hsorted hcut' (by simp : c ∈ pre ++ [c]) hd'
      have hgtec := hc.left
      rw [gteMin_down hlt.score_le hgte] at hgtec
      cases hgtec
    · rw [mem_append, mem_singleton] at hbelow
      rcases hbelow with hd' | rfl
      · exact lteMax_down (pairLt_of_split hsorted hsplit' hd' mem_cons_self).score_le hc'.right
      · exact hc'.right

theorem count_ranks {p k len : Nat} (hpk : p ≤ k) (hk : k + 1 ≤ len) (hlen : len < 2 ^ 32) :
    ulSub (ulSub len (ulSub (p + 1) 1)) (ulSub len (k + 1)) = k + 1 - p := by
  have hfirst : ulSub (p + 1) 1 = p := ulSub_eq (by lia) (by lia)
  have hbelow : ulSub len p = len - p := ulSub_eq (by lia) (by lia)
  have habove : ulSub len (k + 1) = len - (k + 1) := ulSub_eq hk (by lia)
  rw [hfirst, hbelow, habove, ulSub_eq (by lia) (by lia)]
  lia

theorem zcount_skiplist (h : Linked cells zsl) (hsorted : (items cells).Pairwise PairLt)
    (hdistinct : ((items cells).map Prod.snd).Nodup) (d : Dict ele Nat) (range : Zrangespec score) :
    Zobj.zcount range (.skiplist ⟨d, zsl⟩) = .ok ((items cells).filter (inRange range)).length := by
  have hcount : ((items cells).filter (inRange range)).length =
      (cells.filter (fun d => inRange range d.item)).length := by
    unfold items
    rw [filter_map, length_map]
    rfl
  have hnone : (forall c, c ∈ cells -> inRange range c.item = false) ->
      (cells.filter (fun d => inRange range d.item)).length = 0 := by
    intro hall
    rw [filter_eq_nil_iff.mpr (fun c hc => by rw [hall c hc]; exact Bool.false_ne_true)]
    rfl
  rw [hcount]
  rcases zslFirstInRange_spec h hsorted range with
    ⟨hfirst, hall⟩ | ⟨pre, c, post, n, hsplit, hfirst, hn, hlow, hc⟩
  · simp only [Zobj.zcount, bind, Except.bind, hfirst, ofZsl, hnone hall]
  have hcmem : c ∈ cells := by
    rw [hsplit]
    simp
  have hrank := zslGetRank_place h hsorted hdistinct hsplit
  rcases zslLastInRange_spec h hsorted range with
    ⟨_, hall⟩ | ⟨pre', c', post', n', hsplit', hlast, hn', hhigh, hc'⟩
  · rw [hall c hcmem] at hc
    cases hc
  have hrank' := zslGetRank_place h hsorted hdistinct hsplit'
  have hcnot : c ∉ post' := by
    intro hin
    rw [inRange_false (Or.inr (hhigh c hin))] at hc
    cases hc
  have hle := first_le_last hsorted hsplit hsplit' hcnot
  have hlen' : pre'.length + 1 ≤ cells.length := by
    rw [hsplit', length_append, length_cons]
    lia
  have hsmall := h.small
  rw [inRange_window hsorted hsplit hsplit' hlow hhigh hc hc', length_drop,
    length_take, Nat.min_eq_left hlen']
  simp only [Zobj.zcount, bind, Except.bind, hfirst, hlast, ofZsl, hn.score, hn.ele,
    hn'.score, hn'.ele, hrank, hrank', h.length]
  rw [count_ranks hle hlen' hsmall]

end Zskiplist

end Redisoo
