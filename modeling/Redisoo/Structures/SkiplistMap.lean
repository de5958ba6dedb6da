import Mathlib.Data.Prod.Lex
import Redisoo.Structures.SkiplistOps

/-!
# The skip list as a sorted list of pairs
-/

namespace Redisoo

open Foundation
open Foundation.Lanes List

theorem filter_split {item : Type} {P : item -> Bool} {pre post : List item}
    (hpre : forall r, r ∈ pre -> P r = true) (hpost : forall r, r ∈ post -> P r = false) :
    (pre ++ post).filter P = pre ∧ (pre ++ post).filter (fun r => !P r) = post := by
  constructor
  · rw [filter_append, filter_eq_self.mpr hpre,
      filter_eq_nil_iff.mpr (fun r hr => by rw [hpost r hr]; exact Bool.false_ne_true),
      append_nil]
  · rw [filter_append, filter_eq_nil_iff.mpr
        (fun r hr => by rw [hpre r hr]; exact Bool.false_ne_true),
      filter_eq_self.mpr (fun r hr => by rw [hpost r hr]; rfl), nil_append]

variable {score ele : Type} [LinearOrder score] [LinearOrder ele]

def PairLt (a b : score × ele) : Prop :=
  a.1 < b.1 ∨ a.1 = b.1 ∧ a.2 < b.2

instance (a b : score × ele) : Decidable (PairLt a b) :=
  inferInstanceAs (Decidable (_ ∨ _))

variable {a b : score × ele} {c q r : score × ele}

theorem pairLt_iff : PairLt a b <-> toLex a < toLex b := Prod.Lex.toLex_lt_toLex.symm

theorem PairLt.trans (hab : PairLt a b) (hbc : PairLt b c) : PairLt a c := by
  rw [pairLt_iff] at hab hbc ⊢
  exact lt_trans hab hbc

theorem pairLt_irrefl (a : score × ele) : Not (PairLt a a) := by
  rw [pairLt_iff]
  exact lt_irrefl _

theorem pairLt_trichotomy (a b : score × ele) : PairLt a b ∨ a = b ∨ PairLt b a := by
  rw [pairLt_iff, pairLt_iff]
  rcases lt_trichotomy (toLex a) (toLex b) with h | h | h
  · exact Or.inl h
  · exact Or.inr (Or.inl (toLex.injective h))
  · exact Or.inr (Or.inr h)

theorem PairLt.score_le (h : PairLt a b) : a.1 ≤ b.1 := by
  rcases h with h | h
  · exact le_of_lt h
  · exact le_of_eq h.left

namespace Zskiplist

def items (cells : List (Cell (score × ele))) : List (score × ele) :=
  cells.map Cell.item

omit [LinearOrder score] [LinearOrder ele] in
@[simp] theorem items_append (p q : List (Cell (score × ele))) :
    items (p ++ q) = items p ++ items q :=
  map_append

structure Represents (zsl : Zskiplist score ele) (l : List (score × ele)) : Prop where
  shape : exists cells, Linked cells zsl ∧ items cells = l
  sorted : l.Pairwise PairLt

section Split

variable {cells pre post : List (Cell (score × ele))} {zsl : Zskiplist score ele}
  {go : Nat -> score -> ele -> Bool} {found : Found}

theorem fails_from {P : score × ele -> Prop} (hsorted : (items post).Pairwise PairLt)
    (hdown : forall a b, a ∈ items post -> b ∈ items post -> PairLt a b -> P b -> P a)
    (hfirst : forall d tail, post = d :: tail -> Not (P d.item)) :
    forall c, c ∈ post -> Not (P c.item) := by
  intro c hc hP
  cases post with
  | nil => cases hc
  | cons d tail =>
    have hd := hfirst d tail rfl
    rcases mem_cons.mp hc with rfl | htail
    · exact hd hP
    · exact hd (hdown _ _ mem_cons_self (mem_map_of_mem hc)
        ((pairwise_cons.mp hsorted).left _ (mem_map_of_mem htail)) hP)

theorem searched_split {P : score × ele -> Prop} [DecidablePred P]
    (hpos : 0 < zsl.level) (hsorted : (items (pre ++ post)).Pairwise PairLt)
    (hgo : forall n s e, go n s e = decide (P (s, e)))
    (hdown : forall a b, a ∈ items (pre ++ post) -> b ∈ items (pre ++ post) ->
      PairLt a b -> P b -> P a)
    (hfound : Searched go zsl.level [] pre post found) :
    (forall c, c ∈ pre -> P c.item) ∧ forall c, c ∈ post -> Not (P c.item) := by
  have hgoes : forall n (c : Cell (score × ele)), goes go n c = decide (P c.item) :=
    fun n c => hgo n c.item.1 c.item.2
  have hin : forall c, c ∈ pre ++ post -> c.item ∈ items (pre ++ post) :=
    fun c hc => mem_map_of_mem hc
  unfold items at hsorted
  rw [map_append, pairwise_append] at hsorted
  constructor
  · intro c hc
    rcases hfound.last with hnil | ⟨front, d, hpre, hd⟩
    · rw [hnil] at hc
      cases hc
    rw [hgoes, decide_eq_true_eq] at hd
    rw [hpre, mem_append, mem_singleton] at hc
    rcases hc with hc | rfl
    · have hpair := hsorted.left
      rw [hpre, map_append, pairwise_append] at hpair
      exact hdown _ _ (hin c (by rw [hpre]; simp [hc])) (hin d (by rw [hpre]; simp))
        (hpair.right.right _ (mem_map_of_mem hc) _ (by simp)) hd
    · exact hd
  · refine fails_from hsorted.right.left ?_ ?_
    · intro a b ha hb
      exact hdown a b (by simp [ha]) (by simp [hb])
    · intro d tail hpost hP
      have hd := hfound.halts hpos d tail hpost
      rw [hgoes, decide_eq_false_iff_not] at hd
      exact hd hP

omit [LinearOrder score] [LinearOrder ele] in
theorem searched_forward (h : Linked cells zsl) (hsplit : cells = pre ++ post)
    (hfound : Searched go zsl.level [] pre post found) :
    zsl.levelAt (found.update 0) 0 = .ok (toLevel (jump 0 post)) ∧
      (jump 0 post).1 = headAddr post ∧ found.rank 0 = pre.length := by
  rcases hfound.stops 0 h.level.left with ⟨p, s, hstop⟩
  have hstop' : Stop 0 pre found p s := hstop
  rcases h.stop_zero hsplit hstop' with ⟨hp, _⟩
  refine ⟨?_, jump_zero (h.heights_part hsplit), hp ▸ hstop'.rank⟩
  rw [hstop'.update, hp]
  exact h.lanes 0 h.level.left pre post hsplit (hp ▸ hstop'.reaches)

end Split

theorem before_eq (s : score) (e : ele) (n : Nat) (s' : score) (e' : ele) :
    before s e n s' e' = decide (PairLt (s', e') (s, e)) := rfl

def insertPair (q : score × ele) (l : List (score × ele)) : List (score × ele) :=
  l.filter (fun r => decide (PairLt r q)) ++ q :: l.filter (fun r => !decide (PairLt r q))

theorem insertPair_sorted {l : List (score × ele)} (hsorted : l.Pairwise PairLt) (hnew : q ∉ l) :
    (insertPair q l).Pairwise PairLt := by
  unfold insertPair
  rw [pairwise_append]
  refine ⟨hsorted.filter _, ?_, ?_⟩
  · rw [pairwise_cons]
    refine ⟨?_, hsorted.filter _⟩
    intro r hr
    rw [mem_filter, Bool.not_eq_true', decide_eq_false_iff_not] at hr
    rcases pairLt_trichotomy r q with hlt | heq | hgt
    · exact absurd hlt hr.right
    · rw [heq] at hr
      exact absurd hr.left hnew
    · exact hgt
  · intro a ha b hb
    rw [mem_filter, decide_eq_true_eq] at ha
    rw [mem_cons, mem_filter, Bool.not_eq_true', decide_eq_false_iff_not] at hb
    rcases hb with rfl | hb
    · exact ha.right
    rcases pairLt_trichotomy b q with hlt | heq | hgt
    · exact absurd hlt hb.right
    · rw [heq]
      exact ha.right
    · exact ha.right.trans hgt

variable {cells : List (Cell (score × ele))} {front back : List (score × ele)}
  {pre rest cells p s : List (Cell (score × ele))} {d c : Cell (score × ele)}

theorem zslInsert_cells {zsl : Zskiplist score ele} (h : Linked cells zsl)
    (hsorted : (items cells).Pairwise PairLt) (hsmall : cells.length + 1 < 2 ^ 32) {level : Nat}
    (hlevel : 1 ≤ level ∧ level ≤ ZSKIPLIST_MAXLEVEL) (s : score) (e : ele) :
    exists zsl' cells', zsl.zslInsert level s e = .ok (zsl', zsl.next) ∧
      Linked cells' zsl' ∧ items cells' = insertPair (s, e) (items cells) ∧
      (forall c, c ∈ cells' <-> c ∈ cells ∨ c = newCell zsl level s e) ∧
      zsl'.level = max zsl.level level := by
  rcases zslInsert_linked h hsmall hlevel s e with
    ⟨zsl', pre, post, found, hsplit, hrun, hlinked', hmax, hfound⟩
  rw [hsplit] at hsorted
  have hparts := searched_split h.level.left hsorted (before_eq s e)
    (fun a b _ _ hab hb => hab.trans hb) hfound
  have hpre : forall r, r ∈ items pre -> decide (PairLt r (s, e)) = true := by
    intro r hr
    rcases mem_map.mp hr with ⟨c, hc, rfl⟩
    exact decide_eq_true (hparts.left c hc)
  have hpost : forall r, r ∈ items post -> decide (PairLt r (s, e)) = false := by
    intro r hr
    rcases mem_map.mp hr with ⟨c, hc, rfl⟩
    exact decide_eq_false (hparts.right c hc)
  have hfilter := filter_split hpre hpost
  refine ⟨zsl', _, hrun, hlinked', ?_, ?_, hmax⟩
  · unfold insertPair
    rw [hsplit, items_append, items_append, items_append, hfilter.left, hfilter.right, append_assoc]
    rfl
  intro c
  rw [hsplit]
  simp only [mem_append, mem_singleton]
  tauto

section Delete

variable {pre post : List (Cell (score × ele))} {zsl : Zskiplist score ele}
  {found : Found} {c : Cell (score × ele)}

omit [LinearOrder score] [LinearOrder ele] in
theorem deleteFirst_linked (h : Linked (pre ++ c :: post) zsl)
    (hstops : forall j, j < zsl.level -> exists p s, Stop j pre found p s) :
    exists zsl', zsl.zslDeleteNode c.addr found = .ok zsl' ∧
      Linked (pre ++ post) zsl' ∧ c.addr ∉ (pre ++ post).map Cell.addr ∧
      zsl'.level ≤ zsl.level ∧ zsl'.next = zsl.next := by
  have hsplit : pre ++ c :: post = pre ++ [c] ++ post := by
    rw [append_assoc]
    rfl
  rw [hsplit] at h
  rcases zslDeleteNode_linked h hstops with ⟨zsl', hrun, hlinked, hlevel, hnext⟩
  rw [append_nil] at hlinked
  refine ⟨zsl', hrun, hlinked, ?_, hlevel, hnext⟩
  have hnodup := h.nodup
  rw [← hsplit, map_append, map_cons, nodup_middle, nodup_cons, ← map_append] at hnodup
  exact hnodup.left

theorem found_iff {s : score} {e : ele} (hsorted : (items (pre ++ post)).Pairwise PairLt)
    (hpre : forall d, d ∈ pre -> PairLt d.item (s, e))
    (hpost : forall d, d ∈ post -> Not (PairLt d.item (s, e))) : (s, e) ∈ items (pre ++ post) <->
      exists d rest, post = d :: rest ∧ d.item = (s, e) := by
  constructor
  · intro hmem
    rcases mem_map.mp hmem with ⟨d, hd, hitem⟩
    rw [mem_append] at hd
    rcases hd with hd | hd
    · have hlt := hpre d hd
      rw [hitem] at hlt
      exact absurd hlt (pairLt_irrefl _)
    cases post with
    | nil => cases hd
    | cons d' rest =>
      refine ⟨d', rest, rfl, ?_⟩
      rw [mem_cons] at hd
      rcases hd with rfl | hrest
      · exact hitem
      rw [items_append, pairwise_append] at hsorted
      have hfirst := hsorted.right.left
      unfold items at hfirst
      rw [map_cons, pairwise_cons] at hfirst
      have hlt := hfirst.left _ (mem_map_of_mem hrest)
      rw [hitem] at hlt
      exact absurd hlt (hpost d' mem_cons_self)
  · rintro ⟨d, rest, hcons, hitem⟩
    rw [hcons, ← hitem]
    exact mem_map_of_mem (by simp)

end Delete

section Operations

variable {zsl : Zskiplist score ele} {cells : List (Cell (score × ele))}

theorem search_pair (h : Linked cells zsl) (hsorted : (items cells).Pairwise PairLt)
    (s : score) (e : ele) :
    exists pre post found, cells = pre ++ post ∧
      zsl.search (before s e) = .ok found ∧
      (forall j, j < zsl.level -> exists p q, Stop j pre found p q) ∧
      zsl.levelAt (found.update 0) 0 = .ok ⟨headAddr post, (jump 0 post).2⟩ ∧
      (forall d, d ∈ pre -> PairLt d.item (s, e)) ∧
      forall d, d ∈ post -> Not (PairLt d.item (s, e)) := by
  rcases search_spec h (before s e) with ⟨pre, post, found, hsplit, hrun, hfound⟩
  rw [hsplit] at hsorted
  have hparts := searched_split h.level.left hsorted (before_eq s e)
    (fun a b _ _ hab hb => hab.trans hb) hfound
  rcases searched_forward h hsplit hfound with ⟨hlevel, hforward, _⟩
  refine ⟨pre, post, found, hsplit, hrun, hfound.stops, ?_, hparts.left, hparts.right⟩
  rw [hlevel, ← hforward]
  rfl

def removePair (q : score × ele) (l : List (score × ele)) : List (score × ele) :=
  l.filter (fun r => decide (r ≠ q))

variable {q : score × ele}

theorem ne_of_middle (hsorted : (front ++ q :: back).Pairwise PairLt) (hr : r ∈ front ++ back) :
    r ≠ q := by
  rw [pairwise_append, pairwise_cons] at hsorted
  rcases mem_append.mp hr with hfront | hback
  · rintro rfl
    exact pairLt_irrefl _ (hsorted.right.right r hfront r mem_cons_self)
  · rintro rfl
    exact pairLt_irrefl _ (hsorted.right.left.left r hback)

theorem removePair_middle (hsorted : (front ++ q :: back).Pairwise PairLt) :
    removePair q (front ++ q :: back) = front ++ back := by
  unfold removePair
  rw [filter_append, filter_cons_of_neg (by simp), ← filter_append, filter_eq_self]
  intro r hr
  exact decide_eq_true (ne_of_middle hsorted hr)

theorem removePair_absent {l : List (score × ele)} (h : q ∉ l) : removePair q l = l := by
  unfold removePair
  rw [filter_eq_self]
  intro r hr
  apply decide_eq_true
  rintro rfl
  exact h hr

theorem mem_beside (hsorted : (items (pre ++ d :: rest)).Pairwise PairLt) (c : Cell (score × ele)) :
    c ∈ pre ++ rest <-> c ∈ pre ++ d :: rest ∧ c.item ≠ d.item := by
  have hmiddle : items (pre ++ d :: rest) = items pre ++ d.item :: items rest :=
    items_append pre (d :: rest)
  rw [hmiddle] at hsorted
  constructor
  · intro hc
    refine ⟨?_, ne_of_middle hsorted ?_⟩
    · rw [mem_append, mem_cons]
      exact (mem_append.mp hc).imp_right Or.inr
    · rw [← items_append]
      exact mem_map_of_mem hc
  · rintro ⟨hc, hne⟩
    rw [mem_append, mem_cons] at hc
    rcases hc with hc | rfl | hc
    · exact mem_append_left _ hc
    · exact absurd rfl hne
    · exact mem_append_right _ hc

theorem removePair_beside (hsorted : (items (pre ++ d :: rest)).Pairwise PairLt) :
    removePair d.item (items (pre ++ d :: rest)) = items (pre ++ rest) := by
  rw [items_append] at hsorted ⊢
  exact (removePair_middle hsorted).trans (items_append pre rest).symm

theorem zslDelete_cells (h : Linked cells zsl) (hsorted : (items cells).Pairwise PairLt)
    (s : score) (e : ele) :
    exists zsl' cells', zsl.zslDelete s e = .ok (zsl', decide ((s, e) ∈ items cells)) ∧
      Linked cells' zsl' ∧ items cells' = removePair (s, e) (items cells) ∧
      forall c, c ∈ cells' <-> c ∈ cells ∧ c.item ≠ (s, e) := by
  rcases search_pair h hsorted s e with
    ⟨pre, post, found, hsplit, hsearch, hstops, hlevel, hpre, hpost⟩
  have hiff := found_iff (hsplit ▸ hsorted) hpre hpost
  rw [← hsplit] at hiff
  by_cases hmem : (s, e) ∈ items cells
  · rcases hiff.mp hmem with ⟨d, rest, hcons, hitem⟩
    rw [hcons] at hlevel hsplit
    rcases h.nodeAt hsplit with ⟨levels, hnode⟩
    have hfound : s = d.item.1 ∧ d.item.2 = e := by
      rw [hitem]
      exact ⟨rfl, rfl⟩
    rcases deleteFirst_linked (hsplit ▸ h) hstops with ⟨z', hdelete, hlinked', hgone, _⟩
    rw [hsplit] at hsorted
    refine ⟨z'.zslFreeNode d.addr, pre ++ rest, ?_, hlinked'.free hgone, ?_, ?_⟩
    · rw [headAddr_cons] at hlevel
      simp only [zslDelete, ok_bind, hsearch, hlevel, hnode, if_pos hfound,
        hdelete, decide_eq_true hmem]
    · rw [hsplit, ← hitem, removePair_beside hsorted]
    · rw [hsplit, ← hitem]
      exact mem_beside hsorted
  · have hrun : zsl.zslDelete s e = .ok (zsl, false) := by
      cases hcons : post with
      | nil =>
        rw [hcons] at hlevel
        simp only [zslDelete, ok_bind, hsearch, hlevel]
        rfl
      | cons d rest =>
        rw [hcons] at hlevel hsplit
        rcases h.nodeAt hsplit with ⟨levels, hnode⟩
        have hfound : Not (s = d.item.1 ∧ d.item.2 = e) := fun hfound =>
          hmem (hiff.mpr ⟨d, rest, hcons, Prod.ext hfound.left.symm hfound.right⟩)
        rw [headAddr_cons] at hlevel
        simp only [zslDelete, ok_bind, hsearch, hlevel, hnode, if_neg hfound]
    refine ⟨zsl, cells, by rw [hrun, decide_eq_false hmem], h, (removePair_absent hmem).symm, ?_⟩
    intro c
    exact ⟨fun hc => ⟨hc, fun heq => hmem (heq ▸ mem_map_of_mem hc)⟩, And.left⟩

def setScore (a : Nat) (q : score × ele) (c : Cell (score × ele)) : Cell (score × ele) :=
  if c.addr = a then { c with item := q } else c

end Operations

section SetScore

omit [LinearOrder score] [LinearOrder ele]

variable (a : Nat) (q : score × ele)

@[simp] theorem setScore_addr (c : Cell (score × ele)) : (setScore a q c).addr = c.addr := by
  unfold setScore
  split <;> rfl

@[simp] theorem setScore_height (c : Cell (score × ele)) : (setScore a q c).height = c.height := by
  unfold setScore
  split <;> rfl

theorem jump_setScore (i : Nat) (cells : List (Cell (score × ele))) :
    jump i (cells.map (setScore a q)) = jump i cells := by
  induction cells with
  | nil => rfl
  | cons c rest ih => simp only [map_cons, jump, ih, setScore_addr, setScore_height]

theorem lastAddr_setScore (cells : List (Cell (score × ele))) :
    lastAddr (cells.map (setScore a q)) = lastAddr cells := by
  unfold lastAddr
  rw [List.getLast?_map, Option.map_map]
  congr 1
  funext c
  exact setScore_addr a q c

theorem reaches_setScore {i : Nat} (h : Reaches i (cells.map (setScore a q))) :
    Reaches i cells := by
  rcases eq_nil_or_concat cells with rfl | ⟨front, c, rfl⟩
  · exact Or.inl rfl
  rw [concat_eq_append] at h ⊢
  rw [map_append] at h
  rcases h with hnil | ⟨front', d, hd, hlt⟩
  · simp at hnil
  have hcd := (append_inj' hd rfl).right
  rw [map_singleton, List.cons.injEq] at hcd
  rw [← hcd.left, setScore_height] at hlt
  exact Or.inr ⟨front, c, rfl, hlt⟩

variable {a q}

theorem Linked.setScore {zsl : Zskiplist score ele} (h : Linked cells zsl) {e : ele} {s : score}
    {b : Option Nat} {height : Nat} {level : Nat -> ZskiplistLevel}
    (hnode : zsl.nodes a = some ⟨e, s, b, height, level⟩) (s' : score) :
    Linked (cells.map (setScore a (s', e)))
      { zsl with nodes := Function.update zsl.nodes a (some ⟨e, s', b, height, level⟩) } := by
  have hlevels : forall y i, ({ zsl with
        nodes := Function.update zsl.nodes a (some ⟨e, s', b, height, level⟩) } :
        Zskiplist score ele).levelAt y i = zsl.levelAt y i := by
    intro y i
    cases y with
    | header => rfl
    | node a' =>
      by_cases ha : a' = a
      · subst ha
        simp [levelAt, hnode]
      · simp [levelAt, Function.update_of_ne ha]
  have haddrs : (cells.map (Zskiplist.setScore a (s', e))).map Cell.addr = cells.map Cell.addr := by
    rw [map_map]
    congr 1
    funext c
    exact setScore_addr a (s', e) c
  refine ⟨?_, h.above, ?_, ?_, ?_, ?_, h.level, ?_, ?_, ?_, ?_⟩
  · intro i hi p t hsplit hreach
    rcases map_eq_append_iff.mp hsplit with ⟨p0, t0, hcells, rfl, rfl⟩
    rw [hlevels, jump_setScore, lastPlace, lastAddr_setScore]
    exact h.lanes i hi p0 t0 hcells (reaches_setScore a (s', e) hreach)
  · intro p c t hsplit
    rcases map_eq_append_iff.mp hsplit with ⟨p0, t0, hcells, rfl, htail⟩
    rcases map_eq_cons_iff.mp htail with ⟨c0, t1, rfl, rfl, _⟩
    have hdata := h.data p0 c0 t1 hcells
    rw [lastAddr_setScore, setScore_addr, setScore_height]
    by_cases ha : c0.addr = a
    · rw [ha] at hdata ⊢
      have hown : zsl.dataAt a = some ((s, e), height, b) := by
        simp [dataAt, hnode]
      rw [hdata] at hown
      simp only [Option.some.injEq, Prod.mk.injEq] at hown
      simp [dataAt, Zskiplist.setScore, ha, hown.right.left, hown.right.right]
    · have hsame : Zskiplist.setScore a (s', e) c0 = c0 := if_neg ha
      rw [hsame, ← hdata]
      simp [dataAt, Function.update_of_ne ha]
  · rw [lastAddr_setScore]
    exact h.tail
  · rw [length_map]
    exact h.length
  · intro c hc
    rcases mem_map.mp hc with ⟨c0, hc0, rfl⟩
    rw [setScore_height]
    exact h.heights c0 hc0
  · rcases h.top with hone | ⟨c0, hc0, hheight⟩
    · exact Or.inl hone
    · exact Or.inr ⟨_, mem_map_of_mem hc0, by rw [setScore_height]; exact hheight⟩
  · rw [haddrs]
    exact h.nodup
  · intro c hc
    rcases mem_map.mp hc with ⟨c0, hc0, rfl⟩
    rw [setScore_addr]
    exact h.fresh c0 hc0
  · rw [length_map]
    exact h.small

theorem nullOr_cell (h : Linked cells zsl) (hsplit : cells = p ++ c :: s) (test : score -> Bool) :
    zsl.nullOr (some c.addr) test = .ok (test c.item.1) := by
  rcases h.nodeAt hsplit with ⟨levels, hnode⟩
  simp only [nullOr, ok_bind, hnode]

theorem map_setScore {pre rest : List (Cell (score × ele))} {d : Cell (score × ele)}
    (hnodup : ((pre ++ d :: rest).map Cell.addr).Nodup) (q : score × ele) :
    (pre ++ d :: rest).map (setScore d.addr q) = pre ++ { d with item := q } :: rest := by
  rw [map_append, map_cons, nodup_middle, nodup_cons, ← map_append] at hnodup
  have hkeep : forall cells : List (Cell (score × ele)),
      (forall c, c ∈ cells -> c ∈ pre ++ rest) -> cells.map (setScore d.addr q) = cells := by
    intro cells hsub
    refine (map_congr_left ?_).trans (map_id cells)
    intro c hc
    apply if_neg
    intro haddr
    apply hnodup.left
    rw [← haddr]
    exact mem_map_of_mem (hsub c hc)
  have hown : setScore d.addr q d = { d with item := q } := if_pos rfl
  rw [map_append, map_cons, hown, hkeep pre (fun c hc => mem_append_left _ hc),
    hkeep rest (fun c hc => mem_append_right _ hc)]

end SetScore

section UpdateScore

variable {zsl : Zskiplist score ele} {pre rest : List (Cell (score × ele))} {d : Cell (score × ele)}

section

variable (h : Linked (pre ++ d :: rest) zsl)
include h

theorem nullOr_backward (hsorted : (items pre).Pairwise PairLt) (newscore : score) :
    exists b, zsl.nullOr (lastAddr pre) (fun s => decide (s < newscore)) = .ok b ∧
      (b = true -> forall c, c ∈ pre -> c.item.1 < newscore) := by
  rcases eq_nil_or_concat pre with rfl | ⟨front, last, rfl⟩
  · exact ⟨true, rfl, fun _ c hc => nomatch hc⟩
  rw [concat_eq_append] at h hsorted ⊢
  have hsplit : front ++ [last] ++ d :: rest = front ++ last :: (d :: rest) := by
    rw [append_assoc]
    rfl
  refine ⟨decide (last.item.1 < newscore), ?_, ?_⟩
  · rw [lastAddr_concat, nullOr_cell h hsplit]
  intro htrue c hc
  rw [decide_eq_true_eq] at htrue
  rw [mem_append, mem_singleton] at hc
  rcases hc with hc | rfl
  · rw [items_append, pairwise_append] at hsorted
    have hlt := hsorted.right.right c.item (mem_map_of_mem hc) last.item (by simp [items])
    exact lt_of_le_of_lt hlt.score_le htrue
  · exact htrue

theorem nullOr_forward (hsorted : (items rest).Pairwise PairLt) (newscore : score) :
    exists b, zsl.nullOr (headAddr rest) (fun s => decide (s > newscore)) = .ok b ∧
      (b = true -> forall c, c ∈ rest -> newscore < c.item.1) := by
  cases rest with
  | nil => exact ⟨true, rfl, fun _ c hc => nomatch hc⟩
  | cons f tail =>
    have hsplit : pre ++ d :: f :: tail = (pre ++ [d]) ++ f :: tail := by
      rw [append_assoc]
      rfl
    refine ⟨decide (f.item.1 > newscore), ?_, ?_⟩
    · exact nullOr_cell h hsplit _
    intro htrue c hc
    rw [decide_eq_true_eq] at htrue
    rw [mem_cons] at hc
    rcases hc with rfl | hc
    · exact htrue
    · unfold items at hsorted
      rw [map_cons, pairwise_cons] at hsorted
      exact lt_of_lt_of_le htrue (hsorted.left _ (mem_map_of_mem hc)).score_le

theorem inPlace_spec (hsorted : (items (pre ++ d :: rest)).Pairwise PairLt)
    {n : ZskiplistNode score ele} (hback : n.backward = lastAddr pre) (newscore : score) :
    exists b, zsl.inPlace n (headAddr rest) newscore = .ok b ∧
      (b = true -> (forall c, c ∈ pre -> c.item.1 < newscore) ∧
        forall c, c ∈ rest -> newscore < c.item.1) := by
  rw [items_append, pairwise_append] at hsorted
  have hrest := hsorted.right.left
  unfold items at hrest
  rw [map_cons, pairwise_cons] at hrest
  rcases nullOr_backward h hsorted.left newscore with ⟨after, hafter, hbefore⟩
  rcases nullOr_forward h hrest.right newscore with ⟨b, hforward, hbehind⟩
  cases after with
  | false =>
    refine ⟨false, ?_, fun hfalse => nomatch hfalse⟩
    simp only [inPlace, ok_bind, hback, hafter]
    rfl
  | true =>
    refine ⟨b, ?_, fun hb => ⟨hbefore rfl, hbehind hb⟩⟩
    simp only [inPlace, ok_bind, hback, hafter, hforward, if_true]

end

theorem insertPair_between (hfront : forall r, r ∈ front -> r.1 < q.1)
    (hback : forall r, r ∈ back -> q.1 < r.1) :
    insertPair q (front ++ back) = front ++ q :: back := by
  have hfilter := filter_split (P := fun r => decide (PairLt r q))
    (fun r hr => decide_eq_true (Or.inl (hfront r hr)))
    (fun r hr => decide_eq_false (by
      rintro (hlt | ⟨heq, _⟩)
      · exact lt_asymm hlt (hback r hr)
      · exact absurd (hback r hr) (by rw [heq]; exact lt_irrefl _)))
  unfold insertPair
  rw [hfilter.left, hfilter.right]

theorem zslUpdateScore_cells (h : Linked cells zsl) (hsorted : (items cells).Pairwise PairLt)
    {level : Nat} (hlevel : 1 ≤ level ∧ level ≤ ZSKIPLIST_MAXLEVEL) {curscore : score} {e : ele}
    (hmem : (curscore, e) ∈ items cells) (newscore : score) :
    exists zsl' x cells', zsl.zslUpdateScore level curscore e newscore = .ok (zsl', x) ∧
      Linked cells' zsl' ∧
      items cells' = insertPair (newscore, e) (removePair (curscore, e) (items cells)) ∧
      exists c', c'.addr = x ∧ c'.item = (newscore, e) ∧
        forall c, c ∈ cells' <-> (c ∈ cells ∧ c.item ≠ (curscore, e)) ∨ c = c' := by
  rcases search_pair h hsorted curscore e with
    ⟨pre, post, found, hsplit, hsearch, hstops, hfirst, hpre, hpost⟩
  subst hsplit
  rcases (found_iff hsorted hpre hpost).mp hmem with ⟨d, rest, rfl, hitem⟩
  have hremove := removePair_beside hsorted
  have hothers := mem_beside hsorted
  rw [hitem] at hremove hothers
  rcases h.nodeAt rfl with ⟨levels, hnodeAt⟩
  rw [hitem] at hnodeAt
  rw [headAddr_cons] at hfirst
  rcases h.lane_zero rfl with ⟨hlane0, hforward⟩
  rcases inPlace_spec (n := ⟨e, curscore, lastAddr pre, d.height, levels⟩) h hsorted
    rfl newscore with ⟨b, hinPlace, hstay⟩
  cases b with
  | true =>
    rcases hstay rfl with ⟨hbefore, hbehind⟩
    have hnodes : zsl.nodes d.addr = some ⟨e, curscore, lastAddr pre, d.height, levels⟩ := by
      unfold nodeAt at hnodeAt
      cases hn : zsl.nodes d.addr with
      | none =>
        rw [hn] at hnodeAt
        cases hnodeAt
      | some n =>
        rw [hn] at hnodeAt
        injection hnodeAt with heq
        rw [heq]
    refine ⟨_, d.addr, _, ?_, h.setScore hnodes newscore, ?_,
      { d with item := (newscore, e) }, rfl, rfl, ?_⟩
    · simp only [zslUpdateScore, ok_bind, hsearch, hfirst, hnodeAt, and_self,
        if_true, hlane0, toLevel, hforward, hinPlace]
    · rw [map_setScore h.nodup, hremove, items_append, items_append]
      refine (insertPair_between ?_ ?_).symm
      · intro r hr
        rcases mem_map.mp hr with ⟨c, hc, rfl⟩
        exact hbefore c hc
      · intro r hr
        rcases mem_map.mp hr with ⟨c, hc, rfl⟩
        exact hbehind c hc
    · intro c
      rw [map_setScore h.nodup, ← hothers]
      simp only [mem_append, mem_cons]
      tauto
  | false =>
    rcases deleteFirst_linked h hstops with ⟨z1, hdelete, hlinked1, hgone, _, hnext⟩
    have hsmall := h.small
    rw [length_append, length_cons] at hsmall
    have hsorted1 : (items (pre ++ rest)).Pairwise PairLt := by
      rw [← hremove]
      exact hsorted.filter _
    rcases zslInsert_cells hlinked1 hsorted1 (by rw [length_append]; lia) hlevel
      newscore e with ⟨z2, cells2, hinsert, hlinked2, hitems2, hmem2, _⟩
    refine ⟨z2.zslFreeNode d.addr, z1.next, cells2, ?_, hlinked2.free ?_, ?_,
      newCell z1 level newscore e, rfl, rfl, ?_⟩
    · simp only [zslUpdateScore, ok_bind, hsearch, hfirst, hnodeAt, and_self,
        if_true, hlane0, toLevel, hforward, hinPlace, hdelete, hinsert]
      rfl
    · intro hin
      rcases mem_map.mp hin with ⟨c, hc, haddr⟩
      rcases (hmem2 c).mp hc with hold | rfl
      · exact hgone (haddr ▸ mem_map_of_mem hold)
      have hlt := h.fresh d (by simp)
      change z1.next = d.addr at haddr
      rw [← haddr, hnext] at hlt
      exact absurd hlt (Nat.lt_irrefl _)
    · rw [hitems2, hremove]
    · intro c
      rw [hmem2, hothers]

end UpdateScore

end Zskiplist
end Redisoo
