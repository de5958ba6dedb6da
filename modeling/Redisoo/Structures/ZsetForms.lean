import Redisoo.Structures.ZsetMap

/-!
# Both encodings of a sorted set hold the same map
-/

namespace Redisoo

open Foundation Zskiplist Zobj Dict Option
open Foundation.Lanes List Function
open Zskiplist (insertPair removePair items Linked inRange headAddr newCell)

variable {score ele : Type} [LinearOrder score] [LinearOrder ele] {T : ZsetTypes score ele}
  {zsl' zsl : Zskiplist score ele} {l' done l : List (score × ele)} {len i n fuel : Nat}

def Indexes (T : ZsetTypes score ele) (d : Dict ele Nat) (cells : List (Cell (score × ele))) :
    Prop :=
  forall e a, d.toMap T.hash e = some a <-> exists c, c ∈ cells ∧ c.item.2 = e ∧ c.addr = a

structure Zset.Holds (T : ZsetTypes score ele) (zs : Zset score ele)
    (l : List (score × ele)) : Prop where
  inv : zs.dict.Inv T.hash
  count : zs.dict.dictSize = l.length
  shape : exists cells, Linked cells zs.zsl ∧ items cells = l ∧ Indexes T zs.dict cells

def Zobj.Holds (T : ZsetTypes score ele) (l : List (score × ele)) : Zobj score ele -> Prop
  | .ziplist zl => zl = l ∧ l.length < 2 ^ 32
  | .skiplist zs => zs.Holds T l

namespace Zset

variable {zs : Zset score ele} {l : List (score × ele)} {s : score} {e : ele} {d : Dict ele Nat}

section Dictionary

omit [LinearOrder score]

section

variable (h : zs.Holds T l)
include h

theorem Holds.withDict (hinv : d.Inv T.hash) (hmap : d.toMap T.hash = zs.dict.toMap T.hash)
    (hcount : d.dictSize = zs.dict.dictSize) :
    (Zset.mk d zs.zsl).Holds T l := by
  rcases h.shape with ⟨cells, hlinked, hitems, hindex⟩
  refine ⟨hinv, hcount.trans h.count, cells, hlinked, hitems, ?_⟩
  intro e a
  change d.toMap T.hash e = some a <-> _
  rw [hmap]
  exact hindex e a

theorem Holds.setCanResize (b : Bool) :
    (Zset.mk { zs.dict with canResize := b } zs.zsl).Holds T l :=
  h.withDict ⟨h.inv.exact0, h.inv.exact1, h.inv.apart, h.inv.idle, h.inv.moving⟩ rfl rfl

theorem Holds.small : l.length < 2 ^ 32 := by
  rcases h.shape with ⟨cells, hlinked, rfl, _⟩
  unfold items
  rw [length_map]
  exact hlinked.small

theorem Holds.length : zs.zsl.length = l.length := by
  rcases h.shape with ⟨cells, hlinked, rfl, _⟩
  unfold items
  rw [length_map]
  exact hlinked.length

theorem Holds.find_absent (habsent : e ∉ l.map Prod.snd) : zs.dict.toMap T.hash e = none := by
  rcases h.shape with ⟨cells, _, rfl, hindex⟩
  cases hfind : zs.dict.toMap T.hash e with
  | none => rfl
  | some a =>
    rcases (hindex e a).mp hfind with ⟨c, hc, hele, _⟩
    exact absurd (mem_map.mpr ⟨c.item, mem_map_of_mem hc, hele⟩) habsent

theorem Holds.find_at (hmem : (s, e) ∈ l) :
    exists node, zs.dict.toMap T.hash e = some node ∧
      forall d, scoreAt (Zset.mk d zs.zsl) node = .ok s := by
  rcases h.shape with ⟨cells, hlinked, rfl, hindex⟩
  rcases mem_map.mp hmem with ⟨c, hc, hitem⟩
  rcases append_of_mem hc with ⟨pre, post, hsplit⟩
  rcases hlinked.nodeAt hsplit with ⟨level, hnode⟩
  refine ⟨c.addr, (hindex e c.addr).mpr ⟨c, hc, by rw [hitem], rfl⟩, ?_⟩
  intro d
  simp only [scoreAt, ok_bind, hnode, ofZsl, hitem]

end

theorem holds_create (b : Bool) :
    (Zset.mk { Dict.create with canResize := b } zslCreate : Zset score ele).Holds T [] := by
  have hinv : (Dict.create : Dict ele Nat).Inv T.hash := Dict.inv_create T.hash
  refine ⟨⟨hinv.exact0, hinv.exact1, hinv.apart, hinv.idle, hinv.moving⟩, rfl, [],
    linked_create, rfl, ?_⟩
  intro e a
  constructor
  · intro h
    cases h
  · rintro ⟨c, hc, _⟩
    cases hc

omit [LinearOrder ele] in
theorem other_pair {c : Cell (score × ele)} {cur : score} {e' : ele} (hele : c.item.2 = e')
    (hne : e' ≠ e) : c.item ≠ (cur, e) := by
  intro hitem
  rw [hitem] at hele
  exact hne hele.symm

theorem dictDeleteAll_spec (h : d.Inv T.hash) (removed : List ele) :
    exists d', dictDeleteAll T removed d = .ok d' ∧ d'.Inv T.hash ∧
      (forall e, d'.toMap T.hash e = if e ∈ removed then none else d.toMap T.hash e) ∧
      (removed.Nodup -> (forall e, e ∈ removed -> (d.toMap T.hash e).isSome = true) ->
        d'.dictSize + removed.length = d.dictSize) := by
  induction removed generalizing d with
  | nil => exact ⟨d, rfl, h, fun e => by simp, fun _ _ => rfl⟩
  | cons e rest ih =>
    rcases dictGenericDelete_spec h e with ⟨d1, hdelete, hinv1, hmap1, hcount1⟩
    rcases ih hinv1 with ⟨d', hrun, hinv', hmap', hcount'⟩
    refine ⟨d', ?_, hinv', ?_, ?_⟩
    · simp only [dictDeleteAll, ok_bind, dictDelete, hdelete, ofDict, hrun]
    · intro e'
      rw [hmap', hmap1]
      by_cases heq : e' = e
      · subst heq
        rw [update_self, if_pos mem_cons_self, ite_self]
      · rw [update_of_ne heq]
        simp only [mem_cons, heq, false_or]
    · intro hnodup hall
      rw [nodup_cons] at hnodup
      have hrest : forall e', e' ∈ rest -> (d1.toMap T.hash e').isSome = true := by
        intro e' he'
        have hne : e' ≠ e := by
          rintro rfl
          exact hnodup.left he'
        rw [hmap1, update_of_ne hne]
        exact hall e' (mem_cons_of_mem e he')
      have hsize := hcount' hnodup.right hrest
      rw [hall e mem_cons_self, if_pos rfl] at hcount1
      rw [length_cons]
      lia

end Dictionary

section

variable (h : zs.Holds T l) (ho : Ordered l)
include h ho

theorem Holds.represents : zs.zsl.Represents l := by
  rcases h.shape with ⟨cells, hlinked, hitems, _⟩
  exact ⟨⟨cells, hlinked, hitems⟩, ho.sorted⟩

theorem Holds.find (e : ele) :
    exists d, (Zset.mk d zs.zsl).Holds T l ∧
      ((e ∉ l.map Prod.snd ∧ mapScore e l = none ∧
          zs.dict.dictFind T.hash e = .ok (d, none)) ∨
        exists s node, (s, e) ∈ l ∧ mapScore e l = some s ∧
          zs.dict.dictFind T.hash e = .ok (d, some node) ∧
          scoreAt (Zset.mk d zs.zsl) node = .ok s) := by
  rcases dictFind_spec h.inv e with ⟨d, hfind, hkeeps⟩
  refine ⟨d, h.withDict hkeeps.inv hkeeps.map hkeeps.count, ?_⟩
  rcases member_cases l e with habsent | ⟨front, s, back, hsplit⟩
  · left
    rw [h.find_absent habsent] at hfind
    exact ⟨habsent, mapScore_absent habsent, hfind⟩
  right
  have hmem : (s, e) ∈ l := by
    rw [hsplit]
    simp
  rcases h.find_at hmem with ⟨node, hnode, hscore⟩
  rw [hnode] at hfind
  refine ⟨s, node, hmem, ?_, hfind, hscore d⟩
  rw [hsplit]
  exact mapScore_at (hsplit ▸ ho.distinct)

theorem Holds.insert (hnew : e ∉ l.map Prod.snd) (hlen : l.length + 1 < 2 ^ 32) (draws : Nat)
    (s : score) :
    exists zsl' d', zs.zsl.zslInsert (zslRandomLevel draws) s e =
        .ok (zsl', zs.zsl.next) ∧
      zs.dict.dictAdd T.hash e zs.zsl.next 0 = .ok (d', true) ∧
      (Zset.mk d' zsl').Holds T (insertPair (s, e) l) ∧
      zsl'.level = max zs.zsl.level (zslRandomLevel draws) := by
  rcases h.shape with ⟨cells, hlinked, rfl, hindex⟩
  have hcells : cells.length + 1 < 2 ^ 32 := by
    unfold items at hlen
    rw [length_map] at hlen
    exact hlen
  have hcount : zs.dict.dictSize < 2 ^ 59 := by
    rw [h.count]
    lia
  rcases zslInsert_cells hlinked ho.sorted hcells (zslRandomLevel_bounds draws) s e
    with ⟨zsl', cells', hrun, hlinked', hitems', hmem, hlevel⟩
  rcases dictAdd_new h.inv hcount (h.find_absent hnew) zs.zsl.next 0 with
    ⟨d', hadd, hinv', hmap', hcount'⟩
  refine ⟨zsl', d', hrun, hadd, ⟨hinv', ?_, cells', hlinked', hitems', ?_⟩, hlevel⟩
  · change d'.dictSize = _
    rw [hcount', h.count, (insertPair_perm _ _).length_eq, length_cons]
  intro e' a
  change d'.toMap T.hash e' = some a <-> _
  rw [hmap']
  by_cases heq : e' = e
  · subst heq
    rw [update_self]
    constructor
    · intro hsome
      cases hsome
      exact ⟨newCell zs.zsl _ s e', (hmem _).mpr (Or.inr rfl), rfl, rfl⟩
    rintro ⟨c, hc, hele, rfl⟩
    rcases (hmem c).mp hc with hold | rfl
    · exact absurd (mem_map.mpr ⟨c.item, mem_map_of_mem hold, hele⟩) hnew
    · rfl
  · rw [update_of_ne heq, hindex e' a]
    constructor
    · rintro ⟨c, hc, hrest⟩
      exact ⟨c, (hmem c).mpr (Or.inl hc), hrest⟩
    rintro ⟨c, hc, hele, haddr⟩
    rcases (hmem c).mp hc with hold | rfl
    · exact ⟨c, hold, hele, haddr⟩
    · exact absurd hele.symm heq

theorem Holds.update {cur : score} (hmem : (cur, e) ∈ l) (draws : Nat) (s : score) :
    exists zsl' node, zs.zsl.zslUpdateScore (zslRandomLevel draws) cur e s =
        .ok (zsl', node) ∧
      (Zset.mk (zs.dict.dictSetVal e node) zsl').Holds T
        (insertPair (s, e) (removePair (cur, e) l)) := by
  rcases h.shape with ⟨cells, hlinked, rfl, hindex⟩
  rcases zslUpdateScore_cells hlinked ho.sorted (zslRandomLevel_bounds draws) hmem s
    with ⟨zsl', x, cells', hrun, hlinked', hitems', c', haddr', hitem', hcells⟩
  have hset := dictSetVal_spec h.inv e x
  refine ⟨zsl', x, hrun, hset.left, ?_, cells', hlinked', hitems', ?_⟩
  · rcases append_of_mem hmem with ⟨front, back, hsplit⟩
    change zs.dict.dictSize = _
    have hsorted := ho.sorted
    rw [hsplit] at hsorted
    rw [h.count, (insertPair_perm _ _).length_eq, hsplit,
      removePair_middle hsorted, length_cons, length_append,
      length_append, length_cons]
    lia
  · intro e' a
    change (zs.dict.dictSetVal e x).toMap T.hash e' = some a <-> _
    rw [hset.right]
    by_cases heq : e = e'
    · subst heq
      rcases h.find_at hmem with ⟨node, hnode, _⟩
      rw [if_pos rfl, hnode, map_some]
      constructor
      · intro hsome
        cases hsome
        exact ⟨c', (hcells c').mpr (Or.inr rfl), by rw [hitem'], haddr'⟩
      rintro ⟨c, hc, hele, rfl⟩
      rcases (hcells c).mp hc with ⟨hold, hne⟩ | rfl
      · exfalso
        apply hne
        exact inj_on_of_nodup_map ho.distinct (mem_map_of_mem hold) hmem hele
      · rw [haddr']
    · rw [if_neg heq, hindex e' a]
      constructor
      · rintro ⟨c, hc, hele, haddr⟩
        exact ⟨c, (hcells c).mpr (Or.inl ⟨hc, other_pair hele (Ne.symm heq)⟩), hele, haddr⟩
      rintro ⟨c, hc, hele, haddr⟩
      rcases (hcells c).mp hc with ⟨hold, _⟩ | rfl
      · exact ⟨c, hold, hele, haddr⟩
      · rw [hitem'] at hele
        exact absurd hele heq

theorem Holds.delete (hmem : (s, e) ∈ l) :
    exists node d zsl', zs.dict.dictUnlink T.hash e = .ok (d, some node) ∧
      scoreAt (Zset.mk d zs.zsl) node = .ok s ∧
      zs.zsl.zslDelete s e = .ok (zsl', true) ∧
      (Zset.mk d.resizeIfNeeded zsl').Holds T (removePair (s, e) l) := by
  have hsmall := h.small
  rcases h.find_at hmem with ⟨node, hnode, hscore⟩
  rcases dictGenericDelete_spec h.inv e with ⟨d, hdelete, hinv', hmap', hcount'⟩
  rw [hnode] at hdelete
  rw [hnode, isSome_some, if_pos rfl, h.count] at hcount'
  rcases h.shape with ⟨cells, hlinked, rfl, hindex⟩
  rcases zslDelete_cells hlinked ho.sorted s e with
    ⟨zsl', cells', hrun, hlinked', hitems', hcells⟩
  rw [decide_eq_true hmem] at hrun
  have hkeeps := Dict.resizeIfNeeded_keeps hinv' (by lia)
  refine ⟨node, d, zsl', hdelete, hscore d, hrun, hkeeps.inv, ?_, cells', hlinked', hitems', ?_⟩
  · rcases append_of_mem hmem with ⟨front, back, hsplit⟩
    have hsorted := ho.sorted
    rw [hsplit] at hsorted
    rw [hsplit, length_append, length_cons] at hcount'
    rw [hkeeps.count, hsplit, removePair_middle hsorted, length_append]
    lia
  · intro e' a
    change d.resizeIfNeeded.toMap T.hash e' = some a <-> _
    rw [hkeeps.map, hmap']
    by_cases heq : e' = e
    · subst heq
      rw [update_self]
      constructor
      · intro hnone
        cases hnone
      rintro ⟨c, hc, hele, _⟩
      exfalso
      have hc' := (hcells c).mp hc
      apply hc'.right
      exact inj_on_of_nodup_map ho.distinct (mem_map_of_mem hc'.left) hmem hele
    · rw [update_of_ne heq, hindex e' a]
      constructor
      · rintro ⟨c, hc, hele, haddr⟩
        exact ⟨c, (hcells c).mpr ⟨hc, other_pair hele heq⟩, hele, haddr⟩
      · rintro ⟨c, hc, hrest⟩
        exact ⟨c, ((hcells c).mp hc).left, hrest⟩

theorem Holds.remove {go cond : Nat -> score -> ele -> Bool} {removed : List ele}
    (hrun : zs.zsl.zslDeleteRange go cond = .ok (zsl', removed)) (hrep : zsl'.Represents l') :
    exists zs', zslRemrange T zs (fun zsl => zsl.zslDeleteRange go cond) =
        .ok (.skiplist zs', removed.length) ∧ zs'.Holds T l' := by
  rcases h.shape with ⟨cells, hlinked, rfl, hindex⟩
  rcases zslDeleteRange_cells hlinked ho.sorted go cond with
    ⟨zsl1, cells', front, mid, back, hsplit, hrun1, hlinked', hitems', hcells⟩
  rw [hrun] at hrun1
  cases hrun1
  have hrep' : zsl'.Represents (front ++ back) := by
    have hsub : (front ++ back).Sublist (items cells) := by
      rw [hsplit]
      exact List.Sublist.append (sublist_append_left _ _) (List.Sublist.refl _)
    exact ⟨⟨cells', hlinked', hitems'⟩, ho.sorted.sublist hsub⟩
  have hl' : l' = front ++ back := by
    rw [← hrep.pairs_eq, hrep'.pairs_eq]
  have hdistinct := ho.distinct
  rw [hsplit, map_append, map_append] at hdistinct
  have hnodup : (mid.map Prod.snd).Nodup :=
    (nodup_append.mp (nodup_append.mp hdistinct).left).right.left
  have hmid : forall q, q ∈ mid -> q ∈ items cells := by
    intro q hq
    rw [hsplit]
    exact mem_append_left _ (mem_append_right _ hq)
  have hfound : forall e, e ∈ mid.map Prod.snd -> (zs.dict.toMap T.hash e).isSome = true := by
    intro e he
    rcases mem_map.mp he with ⟨q, hq, rfl⟩
    rcases h.find_at (hmid q hq) with ⟨node, hnode, _⟩
    rw [hnode]
    rfl
  rcases dictDeleteAll_spec h.inv (mid.map Prod.snd) with ⟨d', hdict, hinv', hmap', hcount'⟩
  have hsize := hcount' hnodup hfound
  rw [h.count, hsplit, length_map] at hsize
  have hsmall := h.small
  rw [hsplit] at hsmall
  simp only [length_append] at hsize hsmall
  have hkeeps := Dict.resizeIfNeeded_keeps hinv' (by lia)
  refine ⟨⟨d'.resizeIfNeeded, zsl'⟩, ?_, ?_⟩
  · simp only [zslRemrange, ok_bind, hrun, ofZsl, hdict]
  refine ⟨hkeeps.inv, ?_, cells', hlinked', hitems'.trans hl'.symm, ?_⟩
  · rw [hkeeps.count, hl', length_append]
    lia
  intro e a
  change d'.resizeIfNeeded.toMap T.hash e = some a <-> _
  rw [hkeeps.map, hmap']
  by_cases hin : e ∈ mid.map Prod.snd
  · rw [if_pos hin]
    constructor
    · intro hnone
      cases hnone
    rintro ⟨c, hc, rfl, _⟩
    exfalso
    rcases mem_map.mp hin with ⟨q, hq, heq⟩
    have hc' := (hcells c).mp hc
    have hsame := inj_on_of_nodup_map ho.distinct (hmid q hq) (mem_map_of_mem hc'.left) heq
    exact hc'.right (hsame ▸ hq)
  · rw [if_neg hin, hindex e a]
    constructor
    · rintro ⟨c, hc, hele, haddr⟩
      refine ⟨c, (hcells c).mpr ⟨hc, ?_⟩, hele, haddr⟩
      intro hcmid
      exact hin (mem_map.mpr ⟨c.item, hcmid, hele⟩)
    · rintro ⟨c, hc, hrest⟩
      exact ⟨c, ((hcells c).mp hc).left, hrest⟩

end

end Zset

/-!
# The operations
-/

namespace Zobj

variable {zobj : Zobj score ele} {l : List (score × ele)} {e : ele}

section Forms

omit [LinearOrder score]

theorem Holds.setPolicy (h : zobj.Holds T l) (server : ZsetServer) :
    (zobj.setPolicy server).Holds T l := by
  cases zobj with
  | ziplist zl => exact h
  | skiplist zs => exact Zset.Holds.setCanResize h server.canResize

theorem Holds.length (h : zobj.Holds T l) : zobj.zsetLength = l.length := by
  cases zobj with
  | ziplist zl => exact congrArg List.length h.left
  | skiplist zs => exact Zset.Holds.length h

theorem Holds.small (h : zobj.Holds T l) : l.length < 2 ^ 32 := by
  cases zobj with
  | ziplist zl => exact h.right
  | skiplist zs => exact Zset.Holds.small h

end Forms

def Seeks (T : ZsetTypes score ele) (e : ele) : Zobj score ele -> Prop
  | .ziplist _ => T.sdslen e < 2 ^ 32
  | .skiplist _ => True

theorem zsetScore_spec (h : zobj.Holds T l) (ho : Ordered l) (hlen : zobj.Seeks T e) :
    exists zobj', zobj.zsetScore T e = .ok (zobj', mapScore e l) ∧ zobj'.Holds T l := by
  cases zobj with
  | ziplist zl =>
    cases h.left
    refine ⟨.ziplist l, ?_, h⟩
    dsimp only [zsetScore]
    rcases member_cases l e with habsent | ⟨front, s, back, rfl⟩
    · rw [mapScore_absent habsent, zzlFind_absent hlen habsent]
      rfl
    · rw [mapScore_at ho.distinct, zzlFind_at hlen ho.distinct]
      rfl
  | skiplist zs =>
    have hz : zs.Holds T l := h
    rcases hz.find ho e with ⟨d, hd, ⟨_, hmap, hfind⟩ | ⟨s, node, _, hmap, hfind, hscore⟩⟩
    · refine ⟨.skiplist ⟨d, zs.zsl⟩, ?_, hd⟩
      simp only [zsetScore, ok_bind, hfind, ofDict, hmap]
    · refine ⟨.skiplist ⟨d, zs.zsl⟩, ?_, hd⟩
      simp only [zsetScore, ok_bind, hfind, ofDict, hscore, hmap]

theorem direct_eq {reverse : Bool} (hi : i < len) (hlen : len < 2 ^ 32) :
    direct reverse len (i + 1) = if reverse then len - 1 - i else i := by
  unfold direct
  cases reverse with
  | true =>
    rw [if_pos rfl, if_pos rfl, ulSub_eq (by lia) (by lia)]
    lia
  | false =>
    rw [if_neg Bool.false_ne_true, if_neg Bool.false_ne_true]
    exact Nat.add_sub_cancel i 1

section

variable (h : zobj.Holds T l) (ho : Ordered l)
include h ho

theorem zsetRank_spec (hlen : zobj.Seeks T e) (reverse : Bool) (hne : zobj ≠ .ziplist []) :
    exists zobj', zobj.zsetRank T e reverse = .ok (zobj', mapRank e reverse l) ∧
      zobj'.Holds T l := by
  have hsmall := h.small
  cases zobj with
  | ziplist zl =>
    cases h.left
    have hcons : (!l.isEmpty) = true := by
      cases l with
      | nil => exact absurd rfl hne
      | cons q rest => rfl
    refine ⟨.ziplist l, ?_, h⟩
    simp only [zsetRank, zassert, hcons, if_true, ok_bind]
    unfold mapRank
    rcases member_cases l e with habsent | ⟨front, s, back, rfl⟩
    · rw [findIdx_absent habsent, zzlFind_absent hlen habsent]
      rfl
    rw [findIdx_at ho.distinct, zzlFind_at hlen ho.distinct, map_some, map_some,
      direct_eq _ hsmall]
    rw [length_append, length_cons]
    lia
  | skiplist zs =>
    have hz : zs.Holds T l := h
    rcases hz.find ho e with ⟨d, hd, ⟨habsent, _, hfind⟩ | ⟨s, node, hmem, _, hfind, hscore⟩⟩
    · refine ⟨.skiplist ⟨d, zs.zsl⟩, ?_, hd⟩
      unfold mapRank
      rw [findIdx_absent habsent]
      simp only [zsetRank, ok_bind, hfind, ofDict, map_none]
    · refine ⟨.skiplist ⟨d, zs.zsl⟩, ?_, hd⟩
      rcases hz.shape with ⟨cells, hlinked, rfl, _⟩
      rcases mem_map.mp hmem with ⟨c, hc, hitem⟩
      rcases append_of_mem hc with ⟨pre, post, hsplit⟩
      have hrank := zslGetRank_place hlinked ho.sorted ho.distinct hsplit
      rw [hitem] at hrank
      have hitems : items cells = items pre ++ (s, e) :: items post := by
        rw [hsplit, items_append, ← hitem]
        rfl
      have hidx : (items cells).findIdx? (fun q => decide (q.2 = e)) = some pre.length := by
        rw [hitems, findIdx_at (hitems ▸ ho.distinct)]
        exact congrArg some (length_map _)
      have hlt : pre.length < (items cells).length := by
        rw [hitems, length_append, length_cons]
        unfold items
        rw [length_map]
        lia
      have hzero : (pre.length + 1 != 0) = true := by simp
      unfold mapRank
      rw [hidx]
      simp only [zsetRank, ok_bind, hfind, ofDict, hscore, hrank, ofZsl, zassert,
        hzero, if_true, map_some, hz.length, direct_eq hlt hsmall]

theorem zsetDel_spec (hlen : zobj.Seeks T e) :
    exists zobj', zobj.zsetDel T e = .ok (zobj', (mapScore e l).isSome) ∧
      zobj'.Holds T (l.filter (fun q => decide (q.2 ≠ e))) := by
  have hsmall := h.small
  cases zobj with
  | ziplist zl =>
    cases h.left
    rcases member_cases l e with habsent | ⟨front, s, back, rfl⟩
    · refine ⟨.ziplist l, ?_, ?_⟩
      · rw [mapScore_absent habsent]
        simp only [zsetDel, zzlFind_absent hlen habsent, isSome_none]
      · rw [filter_element_absent habsent]
        exact h
    · refine ⟨.ziplist (front ++ back), ?_, ?_⟩
      · rw [mapScore_at ho.distinct]
        simp only [zsetDel, zzlFind_at hlen ho.distinct, zzlDelete_at, isSome_some]
      rw [filter_element ho]
      refine ⟨rfl, ?_⟩
      rw [length_append, length_cons] at hsmall
      rw [length_append]
      lia
  | skiplist zs =>
    have hz : zs.Holds T l := h
    rcases dictGenericDelete_spec hz.inv e with ⟨d, hdelete, hinv', hmap', hcount'⟩
    rcases member_cases l e with habsent | ⟨front, s, back, hsplit⟩
    · have hnone := hz.find_absent habsent
      rw [hnone] at hdelete hcount'
      refine ⟨.skiplist ⟨d, zs.zsl⟩, ?_, ?_⟩
      · rw [mapScore_absent habsent]
        simp only [zsetDel, ok_bind, dictUnlink, hdelete, ofDict, isSome_none]
      · rw [filter_element_absent habsent]
        refine hz.withDict hinv' ?_ hcount'
        rw [hmap', ← hnone, update_eq_self]
    · have hmem : (s, e) ∈ l := by
        rw [hsplit]
        simp
      rcases hz.delete ho hmem with ⟨node, d1, zsl', hunlink, hscore, hrun, hholds⟩
      have hl : l.filter (fun q => decide (q.2 ≠ e)) = removePair (s, e) l := by
        rw [hsplit, filter_element (hsplit ▸ ho), removePair_middle (hsplit ▸ ho.sorted)]
      have hmap : mapScore e l = some s := by
        rw [hsplit]
        exact mapScore_at (hsplit ▸ ho.distinct)
      refine ⟨.skiplist ⟨d1.resizeIfNeeded, zsl'⟩, ?_, ?_⟩
      · rw [hmap]
        simp only [zsetDel, ok_bind, hunlink, ofDict, hscore, hrun, ofZsl, zassert,
          if_true, isSome_some]
      · rw [hl]
        exact hholds

theorem zcount_spec (range : Zrangespec score) :
    zobj.zcount range = .ok (l.filter (inRange range)).length := by
  cases zobj with
  | ziplist zl =>
    cases h.left
    exact zcount_ziplist ho.sorted range
  | skiplist zs =>
    rcases (h : zs.Holds T l).shape with ⟨cells, hlinked, rfl, _⟩
    exact zcount_skiplist hlinked ho.sorted ho.distinct zs.dict range

theorem zremrangebyscore_spec (range : Zrangespec score) :
    exists zobj', zobj.zremrangebyscore T range =
        .ok (zobj', (l.filter (inRange range)).length) ∧
      zobj'.Holds T (l.filter (fun q => !inRange range q)) := by
  have hsmall := h.small
  cases zobj with
  | ziplist zl =>
    cases h.left
    refine ⟨.ziplist (l.filter (fun q => !inRange range q)), ?_, rfl, ?_⟩
    · simp only [zremrangebyscore, zzlDeleteRangeByScore_eq ho.sorted range]
    · exact lt_of_le_of_lt (length_filter_le _ _) hsmall
  | skiplist zs =>
    have hz : zs.Holds T l := h
    rcases zslDeleteRangeByScore_represents (hz.represents ho) range with
      ⟨zsl', hrun, hrep⟩
    rcases hz.remove ho hrun hrep with ⟨zs', hrem, hholds⟩
    rw [length_map] at hrem
    exact ⟨.skiplist zs', hrem, hholds⟩

theorem zremrangebylex_spec (range : Zlexrangespec ele)
    (hscores : forall a, a ∈ l -> forall b, b ∈ l -> a.1 = b.1) :
    exists zobj', zobj.zremrangebylex T range =
        .ok (zobj', (l.filter (inLexRange range)).length) ∧
      zobj'.Holds T (l.filter (fun q => !inLexRange range q)) := by
  have hsmall := h.small
  cases zobj with
  | ziplist zl =>
    cases h.left
    refine ⟨.ziplist (l.filter (fun q => !inLexRange range q)), ?_, rfl, ?_⟩
    · simp only [zremrangebylex, zzlDeleteRangeByLex_eq ho.sorted range hscores]
    · exact lt_of_le_of_lt (length_filter_le _ _) hsmall
  | skiplist zs =>
    have hz : zs.Holds T l := h
    rcases zslDeleteRangeByLex_represents (hz.represents ho) range
      (fun a b ha hb => hscores a ha b hb) with ⟨zsl', hrun, hrep⟩
    rcases hz.remove ho hrun hrep with ⟨zs', hrem, hholds⟩
    rw [length_map] at hrem
    exact ⟨.skiplist zs', hrem, hholds⟩

theorem zremrangebyrank_spec (start stop : Int) :
    exists zobj', zobj.zremrangebyrank T start stop =
        .ok (zobj', uptoRank l.length stop - fromRank l.length start) ∧
      zobj'.Holds T (l.take (fromRank l.length start) ++
        l.drop (max (fromRank l.length start) (uptoRank l.length stop))) := by
  have hsmall := h.small
  rcases sanitize_spec l.length start stop with
    ⟨hnone, hempty⟩ | ⟨first, last, hsome, hfirst, hlast, hle, hlt⟩
  · refine ⟨zobj, ?_, ?_⟩
    · have hzero : uptoRank l.length stop - fromRank l.length start = 0 := by
        have hmax : uptoRank l.length stop ≤ l.length := Nat.min_le_left _ _
        lia
      rw [hzero]
      unfold zremrangebyrank
      rw [h.length, hnone]
    · rw [take_drop_all hempty]
      exact h
  · rw [← hfirst, ← hlast, Nat.max_eq_right (by lia)]
    have hmodFirst : (first + 1) % 2 ^ 32 = first + 1 := Nat.mod_eq_of_lt (by lia)
    have hmodLast : (last + 1) % 2 ^ 32 = last + 1 := Nat.mod_eq_of_lt (by lia)
    cases zobj with
    | ziplist zl =>
      cases h.left
      have hnum : last + 1 - (first + 1) + 1 = last + 1 - first := by lia
      have hdrop : first + (last + 1 - first) = last + 1 := by lia
      refine ⟨.ziplist (l.take first ++ l.drop (last + 1)), ?_, rfl, ?_⟩
      · simp only [zremrangebyrank, zsetLength, hsome, hmodFirst, hmodLast,
          zzlDeleteRangeByRank, hnum, Nat.add_sub_cancel, hdrop]
      · rw [length_append, length_take, length_drop]
        lia
    | skiplist zs =>
      have hz : zs.Holds T l := h
      rcases zslDeleteRangeByRank_represents (hz.represents ho) (first + 1)
        (last + 1) with ⟨zsl', hrun, hrep⟩
      rcases hz.remove ho hrun hrep with ⟨zs', hrem, hholds⟩
      refine ⟨.skiplist zs', ?_, ?_⟩
      · have hlength : (((l.drop (first + 1 - 1)).take (last + 1 - (first + 1 - 1))).map
            Prod.snd).length = last + 1 - first := by
          rw [length_map, length_take, length_drop]
          lia
        rw [hlength] at hrem
        simp only [zremrangebyrank, zsetLength, hz.length, hsome, hmodFirst, hmodLast]
        exact hrem
      · unfold removeRanks at hholds
        rw [Nat.add_sub_cancel, Nat.max_eq_right (by lia)] at hholds
        exact hholds

end

/-!
# Conversions
-/

omit [LinearOrder score] in
theorem zlbytes_append_le (T : ZsetTypes score ele) (a b : List (score × ele)) :
    zlbytes T a ≤ zlbytes T (a ++ b) := by
  unfold zlbytes
  rw [map_append, sum_append]
  lia

omit [LinearOrder score] in
theorem length_lt_of_zlbytes (h : zlbytes T l < n) : l.length < n := by
  have hle : forall l : List (score × ele), l.length ≤
      (l.map fun q => 20 + T.sdslen q.2 + T.scorelen q.1).sum := by
    intro l
    induction l with
    | nil => exact Nat.le_refl _
    | cons q rest ih =>
      rw [length_cons, map_cons, sum_cons]
      lia
  unfold zlbytes at h
  have hlen := hle l
  lia

omit [LinearOrder score] in
theorem sdslen_lt_of_zlbytes {q : score × ele} (h : zlbytes T l < n) (hq : q ∈ l) :
    T.sdslen q.2 < n := by
  have hle := List.le_sum_of_mem (mem_map_of_mem (f := fun q =>
    20 + T.sdslen q.2 + T.scorelen q.1) hq)
  unfold zlbytes at h
  lia

variable {zs : Zset score ele}

theorem zslFill_spec (draws : Nat -> Nat) (rest : List (score × ele)) (i : Nat)
    (h : zs.Holds T done) (ho : Ordered (done ++ rest)) (hlen : (done ++ rest).length < 2 ^ 32) :
    exists zs', zslFill T draws rest i zs = .ok zs' ∧ zs'.Holds T (done ++ rest) := by
  induction rest generalizing done zs i with
  | nil =>
    refine ⟨zs, rfl, ?_⟩
    rw [append_nil]
    exact h
  | cons q rest ih =>
    rcases q with ⟨s, e⟩
    have hdone : Ordered done := ho.sublist (sublist_append_left _ _)
    have hnew : e ∉ done.map Prod.snd := by
      have habsent := not_mem_around ho.distinct
      rw [map_append, mem_append, not_or] at habsent
      exact habsent.left
    have hcount : done.length + 1 < 2 ^ 32 := by
      rw [length_append, length_cons] at hlen
      lia
    have hlast : insertPair (s, e) done = done ++ [(s, e)] := by
      have hsorted := ho.sorted
      rw [pairwise_append] at hsorted
      have hsplit : insertPair (s, e) (done ++ []) = done ++ [(s, e)] :=
        insertPair_split
          (fun r hr => hsorted.right.right r hr (s, e) mem_cons_self)
          (fun r hr => absurd hr not_mem_nil)
      rw [append_nil] at hsplit
      exact hsplit
    have hassoc : done ++ [(s, e)] ++ rest = done ++ (s, e) :: rest := by
      rw [append_assoc]
      rfl
    rcases h.insert hdone hnew hcount (draws i) s with ⟨zsl', d', hinsert, hadd, hholds, _⟩
    rw [hlast] at hholds
    rcases ih (i + 1) hholds (hassoc ▸ ho) (hassoc ▸ hlen) with ⟨zs', hrun, hholds'⟩
    rw [hassoc] at hholds'
    refine ⟨zs', ?_, hholds'⟩
    simp only [zslFill, ok_bind, hinsert, ofZsl, hadd, ofDict, zassert, if_true, hrun]

theorem convertToSkiplist_spec (h : zobj.Holds T l) (ho : Ordered l) (server : ZsetServer)
    (hne : zobj ≠ .ziplist []) :
    exists zobj', zobj.convertToSkiplist T server = .ok zobj' ∧ zobj'.Holds T l := by
  cases zobj with
  | skiplist zs => exact ⟨.skiplist zs, rfl, h⟩
  | ziplist zl =>
    cases h.left
    have hcons : (!l.isEmpty) = true := by
      cases l with
      | nil => exact absurd rfl hne
      | cons q rest => rfl
    rcases zslFill_spec server.draws l 0 (Zset.holds_create server.canResize) ho h.right with
      ⟨zs', hrun, hholds⟩
    refine ⟨.skiplist zs', ?_, hholds⟩
    simp only [convertToSkiplist, zassert, hcons, if_true, ok_bind, hrun]

omit [LinearOrder score] in
theorem zzlFill_spec {cells pre post : List (Cell (score × ele))} (h : Linked cells zsl)
    (hsplit : cells = pre ++ post) (hfuel : post.length < fuel) (zl : List (score × ele))
    (hbytes : zlbytes T (zl ++ items post) < 2 ^ 32) :
    zzlFill T zsl fuel (headAddr post) zl = .ok (zl ++ items post) := by
  induction post generalizing pre zl fuel with
  | nil =>
    rw [show zl ++ items ([] : List (Cell (score × ele))) = zl from append_nil zl]
    cases fuel with
    | zero => rfl
    | succ fuel => rfl
  | cons c rest ih =>
    cases fuel with
    | zero => exact absurd hfuel (Nat.not_lt_zero _)
    | succ fuel =>
      have hsplit' : cells = (pre ++ [c]) ++ rest := hsplit.trans (append_cons _ _ _)
      rcases h.nodeAt hsplit with ⟨level, hnode⟩
      rcases h.lane_zero hsplit with ⟨hlane, hforward⟩
      have hassoc : zl ++ [c.item] ++ items rest = zl ++ items (c :: rest) := by
        rw [append_assoc]
        rfl
      have hpush : zzlInsertAt T zl none c.item.2 c.item.1 = .ok (zl ++ [c.item]) := by
        have hfits : zlbytes T (zl ++ [c.item]) < 2 ^ 32 := by
          apply lt_of_le_of_lt (zlbytes_append_le T _ (items rest))
          rw [hassoc]
          exact hbytes
        unfold zzlInsertAt
        rw [T.asUint_of_lt _ (sdslen_lt_of_zlbytes hfits (mem_append_right _ mem_cons_self))]
        exact if_pos hfits
      have hrest := ih hsplit' (Nat.lt_of_succ_lt_succ hfuel) (zl ++ [c.item]) (hassoc ▸ hbytes)
      rw [headAddr_cons]
      simp only [zzlFill, ok_bind, hnode, ofZsl, hpush, hlane, toLevel, hforward, hrest]
      rw [hassoc]

omit [LinearOrder score] in
theorem convertToZiplist_spec (h : zobj.Holds T l) (hbytes : zlbytes T l < 2 ^ 32) :
    exists zobj', zobj.convertToZiplist T = .ok zobj' ∧ zobj'.Holds T l := by
  cases zobj with
  | ziplist zl => exact ⟨.ziplist zl, rfl, h⟩
  | skiplist zs =>
    rcases (h : zs.Holds T l).shape with ⟨cells, hlinked, rfl, _⟩
    rcases hlinked.first with ⟨span, hheader⟩
    have hstart : cells = [] ++ cells := rfl
    have hfill := zzlFill_spec hlinked hstart (Nat.lt_succ_self _) [] hbytes
    rw [← hlinked.length] at hfill
    refine ⟨.ziplist (items cells), ?_, rfl, length_lt_of_zlbytes hbytes⟩
    simp only [convertToZiplist, ok_bind, hheader, ofZsl]
    rw [show zs.zsl.length + 1 = zs.zsl.length.succ from rfl, hfill]
    rfl

/-!
# Additions
-/

theorem zzlAdd_spec (ho : Ordered l) (hsmall : l.length < 2 ^ 32) (server : ZsetServer)
    (flags : ZaddFlags) (s : score) {e : ele} (hlen : T.sdslen e < 2 ^ 31)
    (hshort : forall q, q ∈ l -> T.sdslen q.2 < 2 ^ 31)
    (hbytes : zlbytes T (mapAdd T flags s e l).1 < 2 ^ 32) :
    exists zobj', zzlAdd T server flags s e l = .ok (zobj', (mapAdd T flags s e l).2) ∧
      zobj'.Holds T (mapAdd T flags s e l).1 := by
  have hseek : T.sdslen e < 2 ^ 32 := by lia
  unfold mapAdd at hbytes ⊢
  unfold zzlAdd
  rcases member_cases l e with habsent | ⟨front, old, back, hsplit⟩
  · rw [mapScore_absent habsent] at hbytes ⊢
    rw [zzlFind_absent hseek habsent]
    cases hxx : flags.xx with
    | true => exact ⟨.ziplist l, rfl, rfl, hsmall⟩
    | false =>
      simp only [hxx, Bool.false_eq_true, if_false] at hbytes ⊢
      have hinsert := zzlInsert_eq ho habsent hlen hshort hbytes
      have hholds : (ziplist (insertPair (s, e) l)).Holds T (insertPair (s, e) l) :=
        ⟨rfl, length_lt_of_zlbytes hbytes⟩
      simp only [bind, Except.bind, hinsert]
      split
      · have hne : (ziplist (insertPair (s, e) l) : Zobj score ele) ≠ .ziplist [] := by
          intro hnil
          have hlength := (insertPair_perm (s, e) l).length_eq
          injection hnil with hnil
          rw [hnil] at hlength
          cases hlength
        rcases convertToSkiplist_spec hholds (ho.insert habsent s) server hne with
          ⟨zobj', hrun, hholds'⟩
        exact ⟨zobj', by rw [hrun], hholds'⟩
      · exact ⟨_, rfl, hholds⟩
  · subst hsplit
    rw [mapScore_at ho.distinct] at hbytes ⊢
    rw [zzlFind_at hseek ho.distinct]
    dsimp only at hbytes ⊢
    cases hnx : flags.nx with
    | true => exact ⟨.ziplist _, rfl, rfl, hsmall⟩
    | false =>
      simp only [hnx, Bool.false_eq_true, if_false] at hbytes ⊢
      cases hnew : newScore T flags s old with
      | none => exact ⟨.ziplist _, rfl, rfl, hsmall⟩
      | some p =>
        rcases p with ⟨s', newscore⟩
        rw [hnew] at hbytes
        dsimp only at hbytes ⊢
        by_cases hsame : s' = old
        · rw [if_pos hsame, if_pos hsame]
          exact ⟨.ziplist _, rfl, rfl, hsmall⟩
        rw [if_neg hsame] at hbytes
        rw [if_neg hsame, if_neg hsame]
        dsimp only at hbytes ⊢
        rw [removePair_middle ho.sorted] at hbytes ⊢
        have hshort' : forall q, q ∈ front ++ back -> T.sdslen q.2 < 2 ^ 31 := by
          intro q hq
          rw [mem_append] at hq
          apply hshort q
          rw [mem_append, mem_cons]
          exact hq.imp_right Or.inr
        have hinsert := zzlInsert_eq ho.append_right (not_mem_around ho.distinct) hlen hshort' hbytes
        refine ⟨.ziplist (insertPair (s', e) (front ++ back)), ?_, rfl, length_lt_of_zlbytes hbytes⟩
        simp only [ok_bind, zzlDelete_at, hinsert]

theorem zslAdd_new (h : zs.Holds T l) (ho : Ordered l) (habsent : e ∉ l.map Prod.snd)
    (hlen : l.length + 1 < 2 ^ 32) (server : ZsetServer) {flags : ZaddFlags}
    (hxx : flags.xx = false) (s : score) :
    exists zs', zslAdd T server flags s e zs = .ok (.skiplist zs', .added (some s)) ∧
      zs'.Holds T (insertPair (s, e) l) ∧
      zs'.zsl.level = max zs.zsl.level (zslRandomLevel (server.draws 0)) := by
  rcases h.find ho e with ⟨d, hd, ⟨_, _, hfind⟩ | ⟨old, node, hmem, _, _, _⟩⟩
  · rcases hd.insert ho habsent hlen (server.draws 0) s with
      ⟨zsl', d', hinsert, hadd, hholds, hlevel⟩
    dsimp only at hinsert hadd hlevel
    refine ⟨⟨d', zsl'⟩, ?_, hholds, hlevel⟩
    simp only [zslAdd, ok_bind, hfind, ofDict, hxx, Bool.false_eq_true, if_false,
      hinsert, ofZsl, hadd, zassert, if_true]
  · exact absurd (mem_map_of_mem hmem) habsent

theorem zslAdd_spec (h : zs.Holds T l) (ho : Ordered l) (hlen : l.length + 1 < 2 ^ 32)
    (server : ZsetServer) (flags : ZaddFlags) (s : score) (e : ele) :
    exists zobj', zslAdd T server flags s e zs = .ok (zobj', (mapAdd T flags s e l).2) ∧
      zobj'.Holds T (mapAdd T flags s e l).1 := by
  rcases h.find ho e with ⟨d, hd, ⟨habsent, hmap, hfind⟩ | ⟨old, node, hmem, hmap, hfind, hscore⟩⟩
  · unfold mapAdd
    rw [hmap]
    cases hxx : flags.xx with
    | true =>
      refine ⟨.skiplist ⟨d, zs.zsl⟩, ?_, hd⟩
      simp only [zslAdd, ok_bind, hfind, ofDict, hxx, if_true]
    | false =>
      rcases zslAdd_new h ho habsent hlen server hxx s with ⟨zs', hrun, hholds, _⟩
      exact ⟨.skiplist zs', hrun, hholds⟩
  · unfold mapAdd
    rw [hmap]
    dsimp only
    cases hnx : flags.nx with
    | true =>
      refine ⟨.skiplist ⟨d, zs.zsl⟩, ?_, hd⟩
      simp only [zslAdd, ok_bind, hfind, ofDict, hnx, if_true]
    | false =>
      rw [if_neg Bool.false_ne_true]
      cases hnew : newScore T flags s old with
      | none =>
        refine ⟨.skiplist ⟨d, zs.zsl⟩, ?_, hd⟩
        simp only [zslAdd, ok_bind, hfind, ofDict, hnx, Bool.false_eq_true, if_false, hscore, hnew]
      | some p =>
        rcases p with ⟨s', newscore⟩
        dsimp only
        by_cases hsame : s' = old
        · rw [if_pos hsame]
          refine ⟨.skiplist ⟨d, zs.zsl⟩, ?_, hd⟩
          simp only [zslAdd, ok_bind, hfind, ofDict, hnx, Bool.false_eq_true,
            if_false, hscore, hnew, if_pos hsame]
        · rw [if_neg hsame]
          rcases hd.update ho hmem (server.draws 0) s' with ⟨zsl', x, hrun, hholds⟩
          dsimp only at hrun
          refine ⟨.skiplist ⟨d.dictSetVal e x, zsl'⟩, ?_, hholds⟩
          simp only [zslAdd, ok_bind, hfind, ofDict, hnx, Bool.false_eq_true,
            if_false, hscore, hnew, if_neg hsame, hrun, ofZsl]

end Zobj

/-!
# Sequences of operations
-/

def LexProper (op : ZsetOp score ele) (st : Zobj score ele × List (ZsetResult score)) : Prop :=
  match op.call with
  | .remrangebylex _ => forall a, a ∈ st.1.pairs -> forall b, b ∈ st.1.pairs -> a.1 = b.1
  | _ => True

instance (op : ZsetOp score ele) (st : Zobj score ele × List (ZsetResult score)) :
    Decidable (LexProper op st) := by
  unfold LexProper
  cases op.call <;> infer_instance

/-- A skip list gets fewer than `2 ^ 32` nodes, and a ziplist fewer than `2 ^ 32` bytes.
The elements of a ziplist that gets another and this one have fewer than `2 ^ 31` bytes, and
one that is looked for in a ziplist fewer than `2 ^ 32`.  `zsetRank` and `zsetConvert` are
not called on an empty ziplist. -/
def ZsetFits (T : ZsetTypes score ele) (op : ZsetOp score ele)
    (st : Zobj score ele × List (ZsetResult score)) : Prop :=
  match op.call, st.1 with
  | .add flags s e, .ziplist zl => T.sdslen e < 2 ^ 31 ∧
    (forall q, q ∈ zl -> T.sdslen q.2 < 2 ^ 31) ∧ zlbytes T (mapAdd T flags s e zl).1 < 2 ^ 32
  | .add _ _ _, .skiplist zs => zs.zsl.length + 1 < 2 ^ 32
  | .del e, .ziplist _ => T.sdslen e < 2 ^ 32
  | .score e, .ziplist _ => T.sdslen e < 2 ^ 32
  | .rank e _, .ziplist zl => T.sdslen e < 2 ^ 32 ∧ zl.length ≠ 0
  | .toSkiplist, .ziplist zl => zl.length ≠ 0
  | .toZiplist, .skiplist zs => zlbytes T zs.zsl.pairs < 2 ^ 32
  | .toZiplistIfNeeded _, .skiplist zs => zlbytes T zs.zsl.pairs < 2 ^ 32
  | _, _ => True

instance (op : ZsetOp score ele) (st : Zobj score ele × List (ZsetResult score)) :
    Decidable (ZsetFits T op st) := by
  unfold ZsetFits
  cases op.call <;> cases st.1 <;> infer_instance

theorem Zobj.Holds.pairs_eq {zobj : Zobj score ele} (h : zobj.Holds T l) (ho : Ordered l) :
    zobj.pairs = l := by
  cases zobj with
  | ziplist zl => exact h.left
  | skiplist zs => exact (Zset.Holds.represents h ho).pairs_eq

structure Agrees (T : ZsetTypes score ele) (st : Zobj score ele × List (ZsetResult score))
    (a : List (score × ele) × List (ZsetResult score)) : Prop where
  holds : st.1.Holds T a.1
  ordered : Ordered a.1
  results : st.2 = a.2

theorem zsetStep_agrees {op : ZsetOp score ele} {st : Zobj score ele × List (ZsetResult score)}
    {a : List (score × ele) × List (ZsetResult score)} (h : Agrees T st a)
    (hlex : LexProper op st) (hfits : ZsetFits T op st) :
    exists st', zsetStep T op st = .ok st' ∧ Agrees T st' (zsetMapStep T op a) := by
  rcases st with ⟨zobj, results⟩
  rcases a with ⟨l, results'⟩
  rcases h with ⟨hholds, ho, hresults⟩
  change zobj.Holds T l at hholds
  change Ordered l at ho
  change results = results' at hresults
  subst hresults
  rcases op with ⟨server, call⟩
  have hpolicy := hholds.setPolicy server
  have hpairs := hholds.pairs_eq ho
  have hordered : Ordered (zsetMapStep T ⟨server, call⟩ (l, results)).1 :=
    zsetMapStep_ordered T _ ho
  cases call with
  | add flags s e =>
    have hadd : exists zobj', (zobj.setPolicy server).zsetAdd T server flags s e =
        .ok (zobj', (mapAdd T flags s e l).2) ∧ zobj'.Holds T (mapAdd T flags s e l).1 := by
      cases zobj with
      | ziplist zl =>
        cases hholds.left
        exact zzlAdd_spec ho hholds.right server flags s hfits.left hfits.right.left hfits.right.right
      | skiplist zs =>
        have hlen : l.length + 1 < 2 ^ 32 := by
          rw [← Zset.Holds.length hholds]
          exact hfits
        exact zslAdd_spec hpolicy ho hlen server flags s e
    exact map_succeeds rfl hadd fun _ hholds' => ⟨hholds', hordered, rfl⟩
  | del e =>
    have hseek : (zobj.setPolicy server).Seeks T e := by
      cases zobj with
      | ziplist zl => exact hfits
      | skiplist zs => trivial
    exact map_succeeds rfl (zsetDel_spec hpolicy ho hseek)
      fun _ hholds' => ⟨hholds', hordered, rfl⟩
  | score e =>
    have hseek : (zobj.setPolicy server).Seeks T e := by
      cases zobj with
      | ziplist zl => exact hfits
      | skiplist zs => trivial
    exact map_succeeds rfl (zsetScore_spec hpolicy ho hseek)
      fun _ hholds' => ⟨hholds', hordered, rfl⟩
  | rank e reverse =>
    have hseek : (zobj.setPolicy server).Seeks T e := by
      cases zobj with
      | ziplist zl => exact hfits.left
      | skiplist zs => trivial
    have hne : zobj.setPolicy server ≠ .ziplist [] := by
      intro hnil
      cases zobj with
      | ziplist zl =>
        cases hnil
        exact hfits.right rfl
      | skiplist zs => cases hnil
    exact map_succeeds rfl (zsetRank_spec hpolicy ho hseek reverse hne)
      fun _ hholds' => ⟨hholds', hordered, rfl⟩
  | count range =>
    have hrun : exists n, _ = Except.ok n ∧ n = _ := ⟨_, zcount_spec hpolicy ho range, rfl⟩
    exact map_succeeds rfl hrun fun _ hn => ⟨hpolicy, hordered, hn ▸ rfl⟩
  | remrangebyscore range =>
    exact map_succeeds rfl (zremrangebyscore_spec hpolicy ho range)
      fun _ hholds' => ⟨hholds', hordered, rfl⟩
  | remrangebylex range =>
    have hscores : forall a, a ∈ l -> forall b, b ∈ l -> a.1 = b.1 := by
      rw [← hpairs]
      exact hlex
    exact map_succeeds rfl (zremrangebylex_spec hpolicy ho range hscores)
      fun _ hholds' => ⟨hholds', hordered, rfl⟩
  | remrangebyrank start stop =>
    exact map_succeeds rfl (zremrangebyrank_spec hpolicy ho start stop)
      fun _ hholds' => ⟨hholds', hordered, rfl⟩
  | toSkiplist =>
    have hne : zobj.setPolicy server ≠ .ziplist [] := by
      intro hnil
      cases zobj with
      | ziplist zl =>
        cases hnil
        exact hfits rfl
      | skiplist zs => cases hnil
    exact map_succeeds rfl (convertToSkiplist_spec hpolicy ho server hne)
      fun _ hholds' => ⟨hholds', hordered, rfl⟩
  | toZiplist =>
    have hconvert : exists zobj', (zobj.setPolicy server).convertToZiplist T = .ok zobj' ∧
        zobj'.Holds T l := by
      cases zobj with
      | ziplist zl => exact ⟨.ziplist zl, rfl, hholds⟩
      | skiplist zs =>
        apply convertToZiplist_spec hpolicy
        rw [← hpairs]
        exact hfits
    exact map_succeeds rfl hconvert fun _ hholds' => ⟨hholds', hordered, rfl⟩
  | toZiplistIfNeeded maxelelen =>
    have hconvert : exists zobj', (zobj.setPolicy server).zsetConvertToZiplistIfNeeded T
        server maxelelen = .ok zobj' ∧ zobj'.Holds T l := by
      cases zobj with
      | ziplist zl => exact ⟨.ziplist zl, rfl, hholds⟩
      | skiplist zs =>
        dsimp only [setPolicy, zsetConvertToZiplistIfNeeded]
        split
        · apply convertToZiplist_spec hpolicy
          rw [← hpairs]
          exact hfits
        · exact ⟨_, rfl, hpolicy⟩
    exact map_succeeds rfl hconvert fun _ hholds' => ⟨hholds', hordered, rfl⟩

theorem agrees_create (T : ZsetTypes score ele) (skip : Bool) :
    Agrees T (create skip, []) ([], []) := by
  refine ⟨?_, ⟨List.Pairwise.nil, nodup_nil⟩, rfl⟩
  cases skip with
  | false => exact ⟨rfl, Nat.two_pow_pos 32⟩
  | true => exact Zset.holds_create true

/-- In both encodings, however the limits change and the levels are drawn: as long as
the counts fit, every sequence of calls succeeds and returns what the finite map in
order returns; the object, and in a skip list the dictionary as well as the list, holds
that map at the end. -/
theorem zset_encoding_transparent (T : ZsetTypes score ele) (skip : Bool)
    (ops : List (ZsetOp score ele))
    (hall : AllSteps (zsetStep T) (fun op st => LexProper op st ∧ ZsetFits T op st) ops
      (Zobj.create skip, [])) :
    exists zobj l results,
      runSteps (zsetStep T) ops (Zobj.create skip, []) = .ok (zobj, results) ∧
      (l, results) = ops.foldl (fun a op => zsetMapStep T op a) ([], []) ∧
      Ordered l ∧ zobj.Holds T l := by
  have hstep : forall (op : ZsetOp score ele) st a, Agrees T st a ->
      (LexProper op st ∧ ZsetFits T op st) ->
      exists st', zsetStep T op st = .ok st' ∧ Agrees T st' (zsetMapStep T op a) :=
    fun _ _ _ h hop => zsetStep_agrees h hop.left hop.right
  rcases runSteps_simulates hstep (agrees_create T skip) hall with ⟨⟨zobj, results⟩, hrun, h⟩
  exact ⟨zobj, _, results, hrun, Prod.ext rfl h.results, h.ordered, h.holds⟩

/-- `memcmp` of the bytes both strings have. -/
def commonCmp : List (Fin 256) -> List (Fin 256) -> Int
  | [], _ => 0
  | _, [] => 0
  | a :: v, b :: c => if a = b then commonCmp v c else (a.val : Int) - b.val

theorem lt_iff_commonCmp (v c : List (Fin 256)) :
    c < v <-> 0 < commonCmp v c ∨ commonCmp v c = 0 ∧ c.length < v.length := by
  induction v generalizing c with
  | nil => simp [commonCmp]
  | cons a v ih =>
    cases c with
    | nil => simp [commonCmp]
    | cons b c =>
      rw [cons_lt_cons_iff, ih, commonCmp, length_cons, length_cons]
      split
      · rename_i heq
        subst heq
        simp
      · simp only [Fin.lt_def, Fin.ext_iff] at *
        lia

def stringTypes : ZsetTypes Nat (List (Fin 256)) where
  hash := List.length
  sdslen := List.length
  memcmp := commonCmp
  asUint e := e.take (e.length % 2 ^ 32)
  scorelen s := (Nat.toDigits 10 s).length
  add a b := some (a + b)
  sdscmp_pos := lt_iff_commonCmp
  asUint_of_lt e h := by rw [Nat.mod_eq_of_lt h, take_length]

def natTypes : ZsetTypes Nat Nat where
  hash e := e
  sdslen _ := 8
  memcmp a b := (a : Int) - b
  asUint e := e
  scorelen s := (Nat.toDigits 10 s).length
  add a b := some (a + b)
  sdscmp_pos a b := by lia
  asUint_of_lt _ _ := rfl

def natServer (maxEntries draws : Nat) : ZsetServer where
  maxEntries := maxEntries
  maxValue := 64
  canResize := true
  draws := fun _ => draws

theorem zset_encoding_transparent_converted :
    exists (zobj : Zobj Nat (List (Fin 256))) (l : List (Nat × List (Fin 256))),
      runSteps (zsetStep stringTypes)
        [⟨natServer 2 0, .add ⟨false, false, false⟩ 10 [97]⟩,
          ⟨natServer 2 0, .add ⟨false, true, false⟩ 20 [97, 98]⟩,
          ⟨natServer 2 1, .add ⟨true, false, false⟩ 15 [99]⟩,
          ⟨natServer 2 1, .add ⟨true, false, true⟩ 10 [97]⟩,
          ⟨natServer 2 0, .rank [97] true⟩,
          ⟨natServer 9 0, .toZiplistIfNeeded 2⟩,
          ⟨natServer 9 0, .add ⟨false, false, false⟩ 20 []⟩,
          ⟨natServer 9 0, .count ⟨15, 20, false, true⟩⟩] (Zobj.create false, []) =
        .ok (zobj, [.number 1, .added (.added (some 20)), .done, .rank (some 1),
          .added (.updated (some 20)), .added (.added (some 15)), .added (.added (some 20)),
          .added (.added (some 10))]) ∧
      l = [(15, [99]), (20, []), (20, [97]), (20, [97, 98])] ∧ zobj.Holds stringTypes l := by
  apply (zset_encoding_transparent stringTypes false _ (allSteps_of_check _)).elim
  · rintro zobj ⟨l, results, hrun, hmap, _, hholds⟩
    refine ⟨zobj, l, hrun.trans ?_, (congrArg Prod.fst hmap).trans ?_, hholds⟩
    · rw [show results = _ from congrArg Prod.snd hmap]
      exact congrArg (fun r => Except.ok (zobj, r)) (by decide +kernel)
    · decide +kernel
  · decide +kernel

/-!
# A set that is too large
-/

theorem zslGetRank_zero {x length : Nat} {s : score} {e : ele}
    (h : Zskiplist.LastOfTwo zsl x s e (length + 1) 0) :
    (exists n, zsl.nodeAt x = .ok n ∧ n.score = s) ∧ zsl.zslGetRank s e = .ok 0 := by
  rcases h.node with ⟨backward, hdata⟩
  rcases nodes_of_dataAt hdata with ⟨levels, hnode⟩
  rcases h.forward with ⟨span, hforward⟩
  have hnodeAt : zsl.nodeAt x = .ok ⟨e, s, backward, 2, levels⟩ := by
    unfold nodeAt
    rw [hnode]
  have hheader : zsl.levelAt .header 1 = .ok ⟨some x, 0⟩ := by
    rw [← h.header]
    rfl
  have hgo : forall n, upTo s e n s e = true :=
    fun n => decide_eq_true (Or.inr ⟨rfl, le_refl e⟩)
  have hadd : ulAdd 0 0 = 0 := rfl
  have hwalk : zsl.walk (upTo s e) 1 (zsl.length + 1) .header 0 = .ok (.node x, 0) := by
    rw [h.length]
    simp only [walk, ok_bind, hheader, hnodeAt, hgo, if_true, hadd, hforward]
  have hele : zsl.isEle (.node x) e = .ok true := by
    simp only [isEle, ok_bind, hnodeAt, decide_true]
  refine ⟨⟨_, hnodeAt, rfl⟩, ?_⟩
  unfold zslGetRank
  rw [h.level]
  simp only [getRankFrom, ok_bind, hwalk, hele, if_true]

def fillAdds (n : Nat) : List (ZsetOp Nat Nat) :=
  (List.range n).map fun i => ⟨natServer 0 0, .add ⟨false, false, false⟩ i i⟩

theorem fillAdds_holds (n : Nat) (hn : n < 2 ^ 32) :
    Ordered (fillPairs n) ∧ exists zs results,
      runSteps (zsetStep natTypes) (fillAdds n) (create true, []) =
        .ok (.skiplist zs, results) ∧
      zs.Holds natTypes (fillPairs n) ∧ zs.zsl.level = 1 := by
  induction n with
  | zero =>
    exact ⟨⟨List.Pairwise.nil, nodup_nil⟩, _, [], rfl, Zset.holds_create true, rfl⟩
  | succ n ih =>
    rcases ih (by lia) with ⟨ho, zs, results, hrun, hholds, hlevel⟩
    have hops : fillAdds (n + 1) =
        fillAdds n ++ [⟨natServer 0 0, .add ⟨false, false, false⟩ n n⟩] := by
      unfold fillAdds
      rw [range_succ, map_append]
      rfl
    have hpolicy : (Zset.mk { zs.dict with canResize := true } zs.zsl).Holds natTypes
        (fillPairs n) :=
      hholds.setCanResize true
    have hlen : (fillPairs n).length + 1 < 2 ^ 32 := by
      rw [fillPairs_length]
      exact hn
    have hxx : (Zobj.ZaddFlags.mk false false false).xx = false := rfl
    rcases zslAdd_new hpolicy ho (fillPairs_new n) hlen (natServer 0 0) hxx n with
      ⟨zs', hadd, hholds', hlevel'⟩
    have horder := ho.insert (fillPairs_new n) n
    rw [fillPairs_succ] at hholds' horder
    refine ⟨horder, zs', .added (.added (some n)) :: results, ?_, hholds', ?_⟩
    · rw [hops, runSteps_append, hrun]
      apply runSteps_cons_ok
      change (zslAdd natTypes (natServer 0 0) ⟨false, false, false⟩ n n
        ⟨{ zs.dict with canResize := true }, zs.zsl⟩).map _ = _
      rw [hadd]
      rfl
    · rw [hlevel']
      change max zs.zsl.level 1 = 1
      rw [hlevel]
      rfl

theorem fillAdds_rank (hn : n + 1 = 2 ^ 32) :
    runSteps (zsetStep natTypes)
      (fillAdds n ++ [⟨natServer 0 1, .add ⟨false, false, false⟩ n n⟩,
        ⟨natServer 0 0, .rank n false⟩]) (create true, []) = .error .assertion := by
  rcases fillAdds_holds n (by lia) with ⟨ho, zs, results, hrun, hholds, hlevel⟩
  have hnew := fillPairs_new n
  -- The element is added.
  have hpolicy := hholds.setCanResize true
  rcases hpolicy.find ho n with ⟨d, hd, ⟨_, _, hfind⟩ | ⟨s, node, hmem, _, _, _⟩⟩
  swap
  · exact absurd (mem_map_of_mem hmem) hnew
  rcases hd.shape with ⟨cells, hlinked, hitems, _⟩
  rcases insert_wraps hn hlinked hitems ho.sorted hlevel with ⟨zsl', hinsert, hend⟩
  have hcount : d.dictSize < 2 ^ 59 := by
    have hsize := hd.count
    rw [fillPairs_length] at hsize
    change d.dictSize = n at hsize
    lia
  rcases dictAdd_new hd.inv hcount (hd.find_absent hnew) zs.zsl.next 0 with
    ⟨d', hadd, hinv', hmap', _⟩
  have hrandom : zslRandomLevel ((natServer 0 1).draws 0) = 2 := rfl
  have hstep1 : zsetStep natTypes ⟨natServer 0 1, .add ⟨false, false, false⟩ n n⟩
      (.skiplist zs, results) =
        .ok (.skiplist ⟨d', zsl'⟩, .added (.added (some n)) :: results) := by
    have hadd1 : zslAdd natTypes (natServer 0 1) ⟨false, false, false⟩ n n
        ⟨{ zs.dict with canResize := true }, zs.zsl⟩ =
          .ok (.skiplist ⟨d', zsl'⟩, .added (some n)) := by
      dsimp only at hfind hinsert hadd
      simp only [zslAdd, ok_bind, hfind, ofDict, Bool.false_eq_true, if_false,
        hrandom, hinsert, ofZsl, hadd, zassert, if_true]
    change (zslAdd natTypes (natServer 0 1) ⟨false, false, false⟩ n n
      ⟨{ zs.dict with canResize := true }, zs.zsl⟩).map _ = _
    rw [hadd1]
    rfl
  -- Its rank is 0.
  have hinv'' : ({ d' with canResize := true } : Dict Nat Nat).Inv natTypes.hash :=
    ⟨hinv'.exact0, hinv'.exact1, hinv'.apart, hinv'.idle, hinv'.moving⟩
  rcases dictFind_spec hinv'' n with ⟨d3, hfind3, _⟩
  have hnode : ({ d' with canResize := true } : Dict Nat Nat).toMap natTypes.hash n =
      some zs.zsl.next := by
    change d'.toMap natTypes.hash n = _
    rw [hmap', update_self]
  rw [hnode] at hfind3
  have hend' : Zskiplist.LastOfTwo zsl' zs.zsl.next n n (n + 1) 0 := by
    rw [hn]
    exact hend
  rcases zslGetRank_zero hend' with ⟨⟨node, hnodeAt, hscore⟩, hrank⟩
  have hstep2 : zsetStep natTypes ⟨natServer 0 0, .rank n false⟩
      (.skiplist ⟨d', zsl'⟩, .added (.added (some n)) :: results) = .error .assertion := by
    have hrank1 : zsetRank natTypes n false
        (.skiplist ⟨{ d' with canResize := true }, zsl'⟩) = .error .assertion := by
      simp only [zsetRank, ok_bind, hfind3, ofDict, scoreAt, hnodeAt, ofZsl, hscore, hrank, zassert]
      rfl
    change (zsetRank natTypes n false (.skiplist ⟨{ d' with canResize := true }, zsl'⟩)).map _ = _
    rw [hrank1]
    rfl
  rw [runSteps_append, hrun]
  change runSteps (zsetStep natTypes) _ (.skiplist zs, results) = _
  rw [runSteps_cons_ok hstep1, runSteps_cons_error hstep2]

def longServer : ZsetServer :=
  { natServer 9 0 with maxValue := 2 ^ 32 }

def longAdds (long : List (Fin 256)) : List (ZsetOp Nat (List (Fin 256))) :=
  [⟨longServer, .add ⟨false, false, false⟩ 0 []⟩,
    ⟨longServer, .add ⟨false, false, false⟩ 0 long⟩, ⟨longServer, .rank [] false⟩]

theorem zzlInsert_long {long : List (Fin 256)} (hlen : long.length = 2 ^ 31 + 1)
    (hcut : stringTypes.asUint long = long) :
    zzlInsert stringTypes [(0, [])] long 0 = .ok [(0, long), (0, [])] := by
  have hcmp : zzlCompareElements stringTypes [] long > 0 := by
    have hsdslen : stringTypes.sdslen long = 2 ^ 31 + 1 := hlen
    unfold zzlCompareElements
    rw [hcut, hsdslen, show stringTypes.memcmp [] long = 0 from rfl]
    decide
  have hplace : zzlPlace stringTypes 0 long 0 [(0, [])] = some 0 := by
    simp [zzlPlace, hcmp]
  have hbytes : zlbytes stringTypes [(0, long), (0, [])] < 2 ^ 32 := by
    simp [zlbytes, stringTypes, hlen]
  unfold zzlInsert zzlInsertAt
  rw [hplace, hcut]
  exact if_pos hbytes

theorem longAdds_rank {long : List (Fin 256)} (hlen : long.length = 2 ^ 31 + 1) :
    runSteps (zsetStep stringTypes) (longAdds long) (create false, []) =
      .ok (.ziplist [(0, long), (0, [])],
        [.rank (some 1), .added (.added (some 0)), .added (.added (some 0))]) := by
  have hcut : stringTypes.asUint long = long :=
    stringTypes.asUint_of_lt long (by change long.length < _; lia)
  have hne : [] ≠ long := by
    rintro rfl
    cases hlen
  have hfind : zzlFind stringTypes [(0, [])] long = none := by
    simp [zzlFind, zzlFindFrom, hcut, hne]
  have hkept : Not (2 > 9 ∨ stringTypes.sdslen long > 2 ^ 32) := by
    change Not (_ ∨ long.length > _)
    lia
  have hadd : zzlAdd stringTypes longServer ⟨false, false, false⟩ 0 long [(0, [])] =
      .ok (.ziplist [(0, long), (0, [])], .added (some 0)) := by
    unfold zzlAdd
    rw [hfind]
    simp only [Bool.false_eq_true, if_false, zzlInsert_long hlen hcut, ok_bind]
    exact if_neg hkept
  have hstep1 : zsetStep stringTypes ⟨longServer, .add ⟨false, false, false⟩ 0 []⟩
      (create false, []) = .ok (.ziplist [(0, [])], [.added (.added (some 0))]) := rfl
  have hstep2 : zsetStep stringTypes ⟨longServer,
      .add ⟨false, false, false⟩ 0 long⟩ (.ziplist [(0, [])], [.added (.added (some 0))]) =
        .ok (.ziplist [(0, long), (0, [])],
          [.added (.added (some 0)), .added (.added (some 0))]) := by
    change (zzlAdd _ _ _ _ _ _).map _ = _
    rw [hadd]
    rfl
  have hrank : zzlFind stringTypes [(0, long), (0, [])] [] = some (1, 0) := by
    have hnil : stringTypes.asUint [] = [] := rfl
    simp [zzlFind, zzlFindFrom, hnil, hne.symm]
  unfold longAdds
  rw [runSteps_cons_ok hstep1, runSteps_cons_ok hstep2]
  apply runSteps_cons_ok
  simp only [zsetStep, setPolicy, zsetRank, hrank]
  rfl

/-- With `2 ^ 32` elements `zsetRank` of the last fails an assertion, and it fails one on
an empty ziplist, where the same call on an empty skip list finds nothing.  In a ziplist an
element of `2 ^ 31 + 1` bytes is placed before the empty one. -/
theorem zset_rank_asserts :
    (exists ops : List (ZsetOp Nat Nat),
      AllSteps (zsetStep natTypes) LexProper ops (Zobj.create true, []) ∧
      runSteps (zsetStep natTypes) ops (Zobj.create true, []) = .error .assertion) ∧
    runSteps (zsetStep natTypes) [⟨natServer 9 0, .rank 1 false⟩] (Zobj.create false, []) =
      .error .assertion ∧
    (exists zobj, runSteps (zsetStep natTypes) [⟨natServer 9 0, .rank 1 false⟩]
      (Zobj.create true, []) = .ok (zobj, [.rank none])) ∧
    exists long zobj,
      runSteps (zsetStep stringTypes) (longAdds long) (Zobj.create false, []) =
        .ok (zobj, [.rank (some 1), .added (.added (some 0)), .added (.added (some 0))]) ∧
      mapRank [] false ((longAdds long).foldl (fun a op => zsetMapStep stringTypes op a)
        ([], [])).1 = some 0 := by
  have hn : exists n, n + 1 = 2 ^ 32 := ⟨4294967295, by decide⟩
  rcases hn with ⟨n, hn⟩
  refine ⟨⟨_, ?_, fillAdds_rank hn⟩, rfl, ⟨_, rfl⟩, 97 :: replicate (2 ^ 31) 97, _,
    longAdds_rank (by rw [length_cons, length_replicate]), rfl⟩
  apply allSteps_mono (P := fun op _ => forall st, LexProper op st) (fun _ st h => h st)
  apply allSteps_of_mem
  intro op hop st
  rw [mem_append] at hop
  rcases hop with hop | hop
  · rcases mem_map.mp hop with ⟨i, _, rfl⟩
    trivial
  rw [mem_cons, mem_singleton] at hop
  rcases hop with rfl | rfl
  · trivial
  · trivial

end Redisoo
