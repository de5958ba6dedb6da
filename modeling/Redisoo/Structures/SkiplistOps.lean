import Redisoo.Foundation.Run
import Redisoo.Structures.SkiplistSearch

/-!
# The operations of a skip list
-/

namespace Redisoo
namespace Zskiplist

open Foundation Function List.Sublist
open Foundation.Lanes List

variable {score ele : Type}

/-!
# Inserting a node
-/

variable {cells post : List (Cell (score × ele))} {zsl : Zskiplist score ele} {level : Nat}
  {pre : List (Cell (score × ele))} {found : Found}

theorem raise_stop (h : Linked cells zsl) (hsplit : cells = pre ++ post)
    (hstops : forall j, j < zsl.level -> exists p s, Stop j pre found p s) :
    forall j, j < (zsl.raise level found).1.level ->
      exists p s, Stop j pre (zsl.raise level found).2 p s := by
  intro j hj
  unfold raise at hj ⊢
  split at hj
  · rename_i hlevel
    rw [if_pos hlevel]
    by_cases hnew : zsl.level ≤ j ∧ j < level
    · refine ⟨[], pre, rfl, Or.inl rfl, ?_, ?_, ?_⟩
      · intro c hc
        have hle := (h.heights c (by rw [hsplit]; exact mem_append_left _ hc)).right
        lia
      · exact if_pos (decide_eq_true hnew)
      · exact if_pos (decide_eq_true hnew)
    · change j < level at hj
      rcases hstops j (by lia) with ⟨p, s, hstop⟩
      have hfalse : Not (decide (zsl.level ≤ j ∧ j < level) = true) := by
        rw [decide_eq_true_eq]
        exact hnew
      exact ⟨p, s, hstop.split, hstop.reaches, hstop.low,
        (if_neg hfalse).trans hstop.update, (if_neg hfalse).trans hstop.rank⟩
  · rename_i hlevel
    rw [if_neg hlevel]
    exact hstops j hj

structure Raised (zsl zsl' : Zskiplist score ele) (level : Nat) : Prop where
  nodes : zsl'.nodes = zsl.nodes
  next : zsl'.next = zsl.next
  tail : zsl'.tail = zsl.tail
  length : zsl'.length = zsl.length
  level : zsl'.level = max zsl.level level

theorem raise_raised (zsl : Zskiplist score ele) (level : Nat) (found : Found) :
    Raised zsl (zsl.raise level found).1 level := by
  unfold raise
  split
  · exact ⟨rfl, rfl, rfl, rfl, by dsimp only; lia⟩
  · exact ⟨rfl, rfl, rfl, rfl, by dsimp only; lia⟩

theorem raise_header (zsl : Zskiplist score ele) (level : Nat) (found : Found) (i : Nat) :
    (zsl.raise level found).1.header i =
      if zsl.level ≤ i ∧ i < level then ⟨(zsl.header i).forward, zsl.length⟩
      else zsl.header i := by
  unfold raise
  by_cases hlevel : level > zsl.level
  · rw [if_pos hlevel]
    simp only [decide_eq_true_eq]
  · rw [if_neg hlevel, if_neg (by lia)]

variable {a i : Nat} {c : Cell (score × ele)} {s mid mid' : List (Cell (score × ele))}

theorem raise_lane (h : Linked cells zsl) (hlevel : level ≤ ZSKIPLIST_MAXLEVEL)
    (hi : i < (zsl.raise level found).1.level) : Lane i cells (zsl.raise level found).1 := by
  have hraised := raise_raised zsl level found
  have hnode : forall a, (zsl.raise level found).1.levelAt (.node a) i =
      zsl.levelAt (.node a) i := by
    intro a
    unfold levelAt
    dsimp only
    rw [hraised.nodes]
  by_cases hold : i < zsl.level
  · have hheader : (zsl.raise level found).1.levelAt .header i = zsl.levelAt .header i := by
      have hkeep := raise_header zsl level found i
      rw [if_neg (by lia)] at hkeep
      unfold levelAt
      dsimp only
      rw [hkeep]
    apply (h.lanes i hold).congr
    intro y
    cases y with
    | header => exact hheader
    | node a => exact hnode a
  · have hlow : Low i cells := by
      intro c hc
      have hle := (h.heights c hc).right
      lia
    intro p s hsplit hreach
    have hp : p = [] := by
      apply nil_of_reaches (i := i) (r := []) hreach
      intro c hc
      exact hlow c (by rw [hsplit]; exact mem_append_left _ hc)
    subst hp
    rw [nil_append] at hsplit
    subst hsplit
    rw [hraised.level] at hi
    have hadded := raise_header zsl level found i
    rw [if_pos (by lia), h.length, h.above i (by lia) (by lia)] at hadded
    rw [jump_of_low hlow, lastPlace_nil]
    unfold levelAt
    dsimp only
    rw [hadded, if_pos (by lia)]
    rfl

theorem raise_above (h : Linked cells zsl) (found : Found)
    (hi : (zsl.raise level found).1.level ≤ i) (hmax : i < ZSKIPLIST_MAXLEVEL) :
    ((zsl.raise level found).1.header i).forward = none := by
  have hraised := raise_raised zsl level found
  rw [hraised.level] at hi
  have hnone := h.above i (by lia) hmax
  rw [raise_header, if_neg (by lia)]
  exact hnone

section Create

variable (zsl : Zskiplist score ele) (level : Nat) (s : score) (e : ele)

theorem dataAt_create_same :
    (zsl.zslCreateNode level s e).1.dataAt zsl.next = some ((s, e), level, none) := by
  simp [dataAt, zslCreateNode]

theorem dataAt_create_other (ha : a ≠ zsl.next) :
    (zsl.zslCreateNode level s e).1.dataAt a = zsl.dataAt a := by
  simp [dataAt, zslCreateNode, update_of_ne ha]

theorem levelAt_create_other {y : ZslPlace} (hy : y ≠ .node zsl.next) (i : Nat) :
    (zsl.zslCreateNode level s e).1.levelAt y i = zsl.levelAt y i := by
  cases y with
  | header => rfl
  | node a =>
    have ha : a ≠ zsl.next := fun heq => hy (by rw [heq])
    simp [levelAt, zslCreateNode, update_of_ne ha]

end Create

theorem Lane.create (h : Lane i cells zsl) (hfresh : forall c, c ∈ cells -> c.addr < zsl.next)
    (level : Nat) (s : score) (e : ele) : Lane i cells (zsl.zslCreateNode level s e).1 := by
  intro front back hsplit hreach
  rw [levelAt_create_other]
  · exact h front back hsplit hreach
  intro heq
  rcases lastPlace_node heq with ⟨c, hc, haddr⟩
  have hlt := hfresh c (by rw [hsplit]; exact mem_append_left _ hc)
  lia

/-!
# Back pointers
-/

def headAddr (cells : List (Cell (score × ele))) : Option Nat :=
  cells.head?.map Cell.addr

theorem headAddr_cons (c : Cell (score × ele)) (rest : List (Cell (score × ele))) :
    headAddr (c :: rest) = some c.addr := rfl

theorem jump_zero (h : forall c, c ∈ cells -> 1 ≤ c.height) :
    (jump 0 cells).1 = headAddr cells := by
  cases cells with
  | nil => rfl
  | cons c rest =>
    rw [jump_cons_of_lt (h c mem_cons_self)]
    rfl

theorem setBackward_levelAt {n : ZskiplistNode score ele} (hn : zsl.nodes a = some n)
    (b : Option Nat) (y : ZslPlace) (i : Nat) : ({ zsl with
        nodes := update zsl.nodes a (some { n with backward := b }) } :
        Zskiplist score ele).levelAt y i =
      zsl.levelAt y i := by
  cases y with
  | header => rfl
  | node a' =>
    by_cases ha : a' = a
    · subst ha
      simp [levelAt, hn]
    · simp [levelAt, update_of_ne ha]

structure Rebacked (a : Nat) (b : Option Nat) (zsl zsl' : Zskiplist score ele) : Prop where
  levels : forall y i, zsl'.levelAt y i = zsl.levelAt y i
  own : zsl'.dataAt a = (zsl.dataAt a).map fun d => (d.1, d.2.1, b)
  others : forall a', a' ≠ a -> zsl'.dataAt a' = zsl.dataAt a'
  header : zsl'.header = zsl.header
  next : zsl'.next = zsl.next
  tail : zsl'.tail = zsl.tail
  length : zsl'.length = zsl.length
  level : zsl'.level = zsl.level

theorem setBackward_spec {height : Nat} {se : score × ele} {b0 : Option Nat}
    (hdata : zsl.dataAt a = some (se, height, b0)) (b : Option Nat) :
    exists zsl', zsl.setBackward a b = .ok zsl' ∧ Rebacked a b zsl zsl' := by
  rcases se with ⟨s, e⟩
  rcases nodes_of_dataAt hdata with ⟨level, hn⟩
  refine ⟨{ zsl with
    nodes := update zsl.nodes a (some ⟨e, s, b, height, level⟩) }, ?_,
    setBackward_levelAt hn b, ?_, ?_, rfl, rfl,
    rfl, rfl, rfl⟩
  · simp [setBackward, hn]
  · simp [dataAt, hn]
  · intro a' ha
    simp [dataAt, update_of_ne ha]

structure PointedBack (post : List (Cell (score × ele))) (b : Option Nat)
    (zsl zsl' : Zskiplist score ele) : Prop where
  levels : forall y i, zsl'.levelAt y i = zsl.levelAt y i
  own : forall c rest, post = c :: rest ->
    zsl'.dataAt c.addr = (zsl.dataAt c.addr).map fun d => (d.1, d.2.1, b)
  others : forall a, headAddr post ≠ some a -> zsl'.dataAt a = zsl.dataAt a
  header : zsl'.header = zsl.header
  next : zsl'.next = zsl.next
  tail : zsl'.tail = if post = [] then b else zsl.tail
  length : zsl'.length = zsl.length
  level : zsl'.level = zsl.level

theorem pointBack_spec (b : Option Nat) (hdata : forall c rest, post = c :: rest ->
      exists b0, zsl.dataAt c.addr = some (c.item, c.height, b0)) :
    exists zsl', pointBack (headAddr post) b zsl = .ok zsl' ∧ PointedBack post b zsl zsl' := by
  cases post with
  | nil =>
    refine ⟨{ zsl with tail := b }, rfl, fun _ _ => rfl, ?_, fun _ _ => rfl, rfl, rfl,
      (if_pos rfl).symm, rfl, rfl⟩
    intro c rest hnil
    cases hnil
  | cons c rest =>
    rcases hdata c rest rfl with ⟨b0, hc⟩
    rcases setBackward_spec hc b with ⟨zsl', hset, hback⟩
    refine ⟨zsl', hset, hback.levels, ?_, ?_, hback.header, hback.next, ?_,
      hback.length, hback.level⟩
    · intro d rest' hcons
      cases hcons
      exact hback.own
    · intro a ha
      apply hback.others
      rintro rfl
      exact ha rfl
    · rw [if_neg (cons_ne_nil c rest)]
      exact hback.tail

theorem headAddr_mem (h : headAddr post = some a) : exists c, c ∈ post ∧ c.addr = a := by
  cases post with
  | nil => cases h
  | cons c rest =>
    injection h with haddr
    exact ⟨c, mem_cons_self, haddr⟩

theorem headAddr_ne (hnodup : ((pre ++ post).map Cell.addr).Nodup) (hc : c ∈ pre ++ post.tail) :
    headAddr post ≠ some c.addr := by
  cases post with
  | nil => exact fun h => nomatch h
  | cons d rest =>
    intro heq
    injection heq with haddr
    rcases mem_append.mp hc with hpre | hrest
    · exact addr_ne hnodup hpre mem_cons_self haddr.symm
    rw [map_append] at hnodup
    have htail := (nodup_append.mp hnodup).right.left
    rw [map_cons, nodup_cons] at htail
    apply htail.left
    rw [haddr]
    exact mem_map_of_mem hrest

def DataOk (cells : List (Cell (score × ele))) (zsl : Zskiplist score ele) : Prop :=
  forall p c s, cells = p ++ c :: s ->
    zsl.dataAt c.addr = some (c.item, c.height, lastAddr p)

theorem lastAddr_append (p : List (Cell (score × ele))) (hs : s ≠ []) :
    lastAddr (p ++ s) = lastAddr s := by
  rcases eq_nil_or_concat s with rfl | ⟨front, c, rfl⟩
  · exact absurd rfl hs
  · rw [concat_eq_append, ← append_assoc, lastAddr_concat, lastAddr_concat]

theorem DataOk.replace {zsl' : Zskiplist score ele} (h : DataOk (pre ++ mid ++ post) zsl)
    (hother : forall c, c ∈ pre ++ post.tail -> zsl'.dataAt c.addr = zsl.dataAt c.addr)
    (hmid : forall q c r, mid' = q ++ c :: r ->
      zsl'.dataAt c.addr = some (c.item, c.height, lastAddr (pre ++ q)))
    (hhead : forall c r, post = c :: r ->
      zsl'.dataAt c.addr = some (c.item, c.height, lastAddr (pre ++ mid'))) :
    DataOk (pre ++ mid' ++ post) zsl' := by
  intro p c s hsplit
  rw [append_assoc] at hsplit
  rcases append_eq_append_iff.mp hsplit with ⟨b, hpb, hrest⟩ | ⟨a, hpa, hrest⟩
  · subst hpb
    rcases append_eq_append_iff.mp hrest with ⟨q, hbq, hpost⟩ | ⟨r, hmr, hcr⟩
    · subst hbq
      rw [← append_assoc]
      cases q with
      | nil =>
        rw [append_nil]
        exact hhead c s hpost
      | cons d q =>
        have hold := h (pre ++ mid ++ d :: q) c s (by rw [hpost]; simp)
        rw [lastAddr_append _ (cons_ne_nil d q)] at hold ⊢
        rw [hother c, hold]
        rw [hpost]
        simp
    · cases r with
      | nil =>
        rw [append_nil] at hmr
        rw [nil_append] at hcr
        rw [← hmr]
        exact hhead c s hcr.symm
      | cons d r =>
        rw [cons_append, List.cons.injEq] at hcr
        rw [← hcr.left] at hmr
        exact hmid b c r hmr
  · cases a with
    | nil =>
      rw [append_nil] at hpa
      rw [nil_append] at hrest
      rw [← hpa]
      cases mid' with
      | nil =>
        rw [nil_append] at hrest
        have hown := hhead c s hrest.symm
        rw [append_nil] at hown
        exact hown
      | cons d r =>
        rw [cons_append, List.cons.injEq] at hrest
        have hown := hmid [] d r rfl
        rw [append_nil] at hown
        rw [hrest.left]
        exact hown
    | cons d a =>
      rw [cons_append, List.cons.injEq] at hrest
      rw [← hrest.left] at hpa
      have hold := h p c (a ++ (mid ++ post)) (by rw [hpa]; simp)
      rw [hother c, hold]
      rw [hpa]
      simp

/-!
# Insertion and deletion of a node
-/

section Change

variable {cells pre post : List (Cell (score × ele))} {zsl : Zskiplist score ele}

theorem Linked.heights_part (h : Linked cells zsl) (hsplit : cells = pre ++ post) :
    forall c, c ∈ post -> 1 ≤ c.height := by
  intro c hc
  exact (h.heights c (by rw [hsplit]; exact mem_append_right _ hc)).left

theorem Linked.first (h : Linked cells zsl) :
    exists span, zsl.levelAt .header 0 = .ok ⟨headAddr cells, span⟩ := by
  have hlane := h.lanes 0 h.level.left [] cells rfl (Or.inl rfl)
  refine ⟨(jump 0 cells).2, ?_⟩
  rw [← jump_zero (fun c hc => (h.heights c hc).left)]
  exact hlane

theorem Linked.lane_zero {c : Cell (score × ele)} (h : Linked cells zsl)
    (hsplit : cells = pre ++ c :: post) :
    zsl.levelAt (.node c.addr) 0 = .ok (toLevel (jump 0 post)) ∧
      (jump 0 post).1 = headAddr post := by
  have hsplit' : cells = (pre ++ [c]) ++ post := hsplit.trans (append_cons _ _ _)
  have hheight := h.heights_part hsplit c mem_cons_self
  have hlane := h.lanes 0 h.level.left (pre ++ [c]) post hsplit' (Or.inr ⟨pre, c, rfl, hheight⟩)
  rw [lastPlace_concat] at hlane
  exact ⟨hlane, jump_zero (h.heights_part hsplit')⟩

theorem nodup_insert (hnodup : ((pre ++ post).map Cell.addr).Nodup)
    (hfresh : forall d, d ∈ pre ++ post -> d.addr < c.addr) :
    ((pre ++ [c] ++ post).map Cell.addr).Nodup := by
  have hperm : ((pre ++ [c] ++ post).map Cell.addr).Perm ((c :: (pre ++ post)).map Cell.addr) := by
    apply List.Perm.map
    rw [append_assoc]
    exact perm_middle
  rw [hperm.nodup_iff, map_cons, nodup_cons]
  refine ⟨?_, hnodup⟩
  intro hmem
  rcases mem_map.mp hmem with ⟨d, hd, haddr⟩
  have hlt := hfresh d hd
  lia

theorem insert_lanes (hlanes : forall i, i < zsl.level -> Lane i (pre ++ [] ++ post) zsl)
    (hstops : forall i, i < zsl.level -> exists p s, Stop i pre found p s)
    (hrank : found.rank 0 = pre.length) (hsmall : (pre ++ post).length + 1 < 2 ^ 32)
    (hnodup : ((pre ++ [c] ++ post).map Cell.addr).Nodup) {b : Option Nat}
    (hdata : zsl.dataAt c.addr = some (c.item, c.height, b)) (hheight : c.height ≤ zsl.level) :
    exists z1 z2, forLevels (link c.addr found) 0 c.height zsl = .ok z1 ∧
      forLevels (bump found) c.height (z1.level - c.height) z1 = .ok z2 ∧
      SameData zsl z2 ∧ (forall i, i < zsl.level -> Lane i (pre ++ [c] ++ post) z2) ∧
      forall i, zsl.level ≤ i -> SameLevel i zsl z2 := by
  have hlink : forall i, 0 ≤ i -> i < 0 + c.height -> forall z, SameData zsl z ->
      SameLevel i zsl z -> exists z', link c.addr found i z = .ok z' ∧ Frame i z z' ∧
        Lane i (pre ++ [c] ++ post) z' := by
    intro i _ hi z hsame hlevel
    rcases hstops i (by lia) with ⟨p, s, hstop⟩
    have hz : z.dataAt c.addr = some (c.item, c.height, b) := (hsame.data _).trans hdata
    exact link_lane hstop ((hlanes i (by lia)).congr hlevel) hrank hsmall hnodup (by lia)
      (levelAt_of_dataAt hz (by lia))
  have hstable : forall i (z z' : Zskiplist score ele), Lane i (pre ++ [c] ++ post) z ->
      SameLevel i z z' -> Lane i (pre ++ [c] ++ post) z' := fun _ _ _ h => h.congr
  rcases forLevels_rounds c.height hstable hlink with ⟨z1, hrun1, hsame1, hlanes1, hother1⟩
  have hbump : forall i, c.height ≤ i -> i < c.height + (z1.level - c.height) ->
      forall z, SameData z1 z -> SameLevel i z1 z -> exists z', bump found i z = .ok z' ∧
        Frame i z z' ∧ Lane i (pre ++ [c] ++ post) z' := by
    intro i hi hlt z _ hlevel
    rw [hsame1.level] at hlt
    rcases hstops i (by lia) with ⟨p, s, hstop⟩
    have hold := ((hlanes i (by lia)).congr (hother1 i (by lia))).congr hlevel
    exact bump_lane hstop hold hsmall hnodup hi
  rcases forLevels_rounds (z1.level - c.height) hstable hbump with
    ⟨z2, hrun2, hsame2, hlanes2, hother2⟩
  rw [hsame1.level] at hlanes2 hother2
  refine ⟨z1, z2, hrun1, hrun2, hsame1.trans hsame2, ?_, ?_⟩
  · intro i hi
    by_cases hlow : i < c.height
    · exact (hlanes1 i (Nat.zero_le i) (by lia)).congr (hother2 i (by lia))
    · exact hlanes2 i (by lia) (by lia)
  · intro i hi y
    rw [hother2 i (by lia) y]
    exact hother1 i (by lia) y

end Change

def newCell (zsl : Zskiplist score ele) (level : Nat) (s : score) (e : ele) : Cell (score × ele) :=
  ⟨zsl.next, level, (s, e)⟩

theorem orNull_lastPlace (pre : List (Cell (score × ele))) :
    (lastPlace pre).orNull = lastAddr pre := by
  unfold lastPlace
  cases lastAddr pre with
  | none => rfl
  | some a => rfl

section Insert

variable [LinearOrder score] [LinearOrder ele]
  {cells : List (Cell (score × ele))} {zsl : Zskiplist score ele}

theorem zslInsert_linked (h : Linked cells zsl) (hsmall : cells.length + 1 < 2 ^ 32)
    (hlevel : 1 ≤ level ∧ level ≤ ZSKIPLIST_MAXLEVEL) (s : score) (e : ele) :
    exists zsl' pre post found, cells = pre ++ post ∧
      zsl.zslInsert level s e = .ok (zsl', zsl.next) ∧
      Linked (pre ++ [newCell zsl level s e] ++ post) zsl' ∧
      zsl'.level = max zsl.level level ∧
      Searched (before s e) zsl.level [] pre post found := by
  rcases search_spec h (before s e) with ⟨pre, post, found, hsplit, hsearch, hfound⟩
  have hraised := raise_raised zsl level found
  have hstops : forall j, j < (zsl.raise level found).1.level ->
      exists p s, Stop j pre (zsl.raise level found).2 p s :=
    raise_stop h hsplit hfound.stops
  have hlanes : forall i, i < (zsl.raise level found).1.level ->
      Lane i cells (zsl.raise level found).1 := fun i => raise_lane h hlevel.right
  have habove : forall i, (zsl.raise level found).1.level ≤ i -> i < ZSKIPLIST_MAXLEVEL ->
      ((zsl.raise level found).1.header i).forward = none := fun i => raise_above h found
  cases hraise : zsl.raise level found with
  | mk z1 f1 =>
  rw [hraise] at hraised hstops hlanes habove
  dsimp only at hraised hstops hlanes habove
  have hpos : 0 < z1.level := by
    rw [hraised.level]
    lia
  have hnodup : ((pre ++ [newCell zsl level s e] ++ post).map Cell.addr).Nodup := by
    apply nodup_insert
    · rw [← hsplit]
      exact h.nodup
    · rw [← hsplit]
      exact h.fresh
  have hstop0 : f1.update 0 = lastPlace pre ∧ f1.rank 0 = pre.length := by
    rcases hstops 0 hpos with ⟨p, s', hstop⟩
    rcases h.stop_zero hsplit hstop with ⟨hp, _⟩
    rw [← hp]
    exact ⟨hstop.update, hstop.rank⟩
  -- The node is created and put on its lanes.
  generalize hz2 : (z1.zslCreateNode level s e).1 = z2
  have hcreate : z1.zslCreateNode level s e = (z2, zsl.next) := by
    rw [← hz2, ← hraised.next]
    rfl
  have hdata2 : z2.dataAt zsl.next = some ((s, e), level, none) := by
    rw [← hz2, ← hraised.next]
    exact dataAt_create_same z1 level s e
  have hlevel2 : z2.level = max zsl.level level := by
    rw [← hz2, ← hraised.level]
    rfl
  have hlanes2 : forall i, i < z2.level -> Lane i (pre ++ [] ++ post) z2 := by
    intro i hi
    rw [append_nil, ← hsplit, ← hz2]
    apply Lane.create (hlanes i (by rw [hraised.level]; lia))
    rw [hraised.next]
    exact h.fresh
  rcases insert_lanes hlanes2 (fun i hi => hstops i (by rw [hraised.level]; lia))
    hstop0.right (by rw [← hsplit]; exact hsmall) hnodup hdata2
    (by rw [hlevel2]; exact Nat.le_max_right _ _) with
    ⟨z3, z4, hrun3, hrun4, hsame4, hlanes4, hother4⟩
  -- Its back pointer, and the one to it.
  have hdata4 : z4.dataAt zsl.next = some ((s, e), level, none) := (hsame4.data _).trans hdata2
  rcases setBackward_spec hdata4 (lastAddr pre) with ⟨z5, hset, hback⟩
  have hlane0 := hlanes4 0 (by lia) (pre ++ [newCell zsl level s e]) post rfl
    (Or.inr ⟨pre, _, rfl, hlevel.left⟩)
  rw [lastPlace_concat] at hlane0
  have hold : forall a, a ≠ zsl.next -> z5.dataAt a = zsl.dataAt a := by
    intro a ha
    rw [hback.others a ha, hsame4.data, ← hz2, dataAt_create_other _ _ _ _
      (by rw [hraised.next]; exact ha)]
    unfold dataAt
    rw [hraised.nodes]
  have hne : forall d, d ∈ cells -> d.addr ≠ zsl.next := by
    intro d hd heq
    have hlt := h.fresh d hd
    lia
  have hpost5 : forall d rest, post = d :: rest ->
      exists b0, z5.dataAt d.addr = some (d.item, d.height, b0) := by
    intro d rest hcons
    have hsplit' : cells = pre ++ d :: rest := by rw [hsplit, hcons]
    refine ⟨lastAddr pre, ?_⟩
    rw [hold _ (hne d (by rw [hsplit']; simp))]
    exact h.data pre d rest hsplit'
  rcases pointBack_spec (some zsl.next) hpost5 with ⟨z6, hpoint, hpointed⟩
  have hlength6 : z6.length = cells.length := by
    rw [hpointed.length, hback.length, hsame4.length, ← hz2]
    exact hraised.length.trans h.length
  have hlevel6 : z6.level = max zsl.level level := by
    rw [hpointed.level, hback.level, hsame4.level, hlevel2]
  have hnext6 : z6.next = zsl.next + 1 := by
    rw [hpointed.next, hback.next, hsame4.next, ← hz2, ← hraised.next]
    rfl
  have hjump0 : (jump 0 post).1 = headAddr post := jump_zero (h.heights_part hsplit)
  have hrun : zsl.zslInsert level s e =
      .ok ({ z6 with length := ulAdd z6.length 1 }, zsl.next) := by
    have hset' : z4.setBackward zsl.next (f1.update 0).orNull = .ok z5 := by
      rw [hstop0.left, orNull_lastPlace]
      exact hset
    have hlane0' : z5.levelAt (.node zsl.next) 0 = .ok (toLevel (jump 0 post)) := by
      rw [hback.levels]
      exact hlane0
    simp only [newCell] at hrun3 hrun4
    simp only [zslInsert, ok_bind, hsearch, hraise, hcreate, hrun3, hrun4, hset', hlane0',
      toLevel, hjump0, hpoint]
  have hlevels6 : forall y i, z6.levelAt y i = z4.levelAt y i := by
    intro y i
    rw [hpointed.levels, hback.levels]
  have hcases : forall c, c ∈ pre ++ [newCell zsl level s e] ++ post ->
      c ∈ cells ∨ c = newCell zsl level s e := by
    intro c hc
    rw [hsplit]
    simp only [mem_append, mem_singleton] at hc ⊢
    tauto
  refine ⟨_, pre, post, found, hsplit, hrun, ?_, hlevel6, hfound⟩
  constructor
  · intro i hi
    change i < z6.level at hi
    refine (hlanes4 i (by lia)).congr ?_
    intro y
    exact hlevels6 y i
  · intro i hi hmax
    change z6.level ≤ i at hi
    change (z6.header i).forward = none
    have hsame := hother4 i (by lia) .header
    rw [← hlevels6] at hsame
    have hheader : z6.header i = z2.header i := by
      simp only [levelAt, if_pos hmax] at hsame
      injection hsame
    rw [hheader, ← hz2]
    exact habove i (by rw [hraised.level]; lia) hmax
  · have hdata : DataOk (pre ++ [] ++ post) zsl := by
      rw [append_nil, ← hsplit]
      exact h.data
    refine hdata.replace ?_ ?_ ?_
    · intro c hc
      change z6.dataAt c.addr = zsl.dataAt c.addr
      have hmem : c ∈ cells := by
        rw [hsplit]
        exact mem_append.mpr ((mem_append.mp hc).imp_right mem_of_mem_tail)
      rw [hpointed.others, hold _ (hne c hmem)]
      exact headAddr_ne (by rw [← hsplit]; exact h.nodup) hc
    · intro q c r hqc
      rcases append_eq_singleton_iff.mp hqc.symm with ⟨hq, hcr⟩ | ⟨_, hcr⟩
      · injection hcr with hc _
        rw [hq, append_nil, hc]
        change z6.dataAt zsl.next = some ((s, e), level, lastAddr pre)
        rw [hpointed.others, hback.own, hdata4]
        · rfl
        · intro heq
          rcases headAddr_mem heq with ⟨d, hd, haddr⟩
          exact hne d (by rw [hsplit]; exact mem_append_right _ hd) haddr
      · cases hcr
    · intro c r hcons
      rcases hpost5 c r hcons with ⟨b0, hb0⟩
      change z6.dataAt c.addr = _
      rw [hpointed.own c r hcons, hb0, lastAddr_concat]
      rfl
  · change z6.tail = _
    rw [hpointed.tail, hback.tail, hsame4.tail, ← hz2]
    change (if post = [] then some zsl.next else z1.tail) = _
    rw [hraised.tail, h.tail, hsplit]
    split
    · rename_i hnil
      rw [hnil, append_nil, lastAddr_concat]
      rfl
    · rename_i hnil
      rw [lastAddr_append _ hnil, lastAddr_append _ hnil]
  · change ulAdd z6.length 1 = _
    rw [hlength6, ulAdd_eq (by lia), hsplit]
    simp only [length_append, length_singleton]
    lia
  · intro c hc
    change 1 ≤ c.height ∧ c.height ≤ z6.level
    rw [hlevel6]
    rcases hcases c hc with hmem | rfl
    · exact ⟨(h.heights c hmem).left, Nat.le_trans (h.heights c hmem).right (Nat.le_max_left _ _)⟩
    · exact ⟨hlevel.left, Nat.le_max_right _ _⟩
  · change 1 ≤ z6.level ∧ z6.level ≤ ZSKIPLIST_MAXLEVEL
    rw [hlevel6]
    exact ⟨Nat.le_trans h.level.left (Nat.le_max_left _ _),
      Nat.max_le.mpr ⟨h.level.right, hlevel.right⟩⟩
  · change z6.level = 1 ∨ exists c, c ∈ pre ++ [newCell zsl level s e] ++ post ∧
      Cell.height c = z6.level
    rw [hlevel6]
    by_cases htall : zsl.level ≤ level
    · right
      refine ⟨newCell zsl level s e, by simp, ?_⟩
      exact (Nat.max_eq_right htall).symm
    rw [Nat.max_eq_left (by lia)]
    rcases h.top with hone | ⟨c, hc, hheight⟩
    · exact Or.inl hone
    right
    refine ⟨c, ?_, hheight⟩
    rw [hsplit] at hc
    simp only [mem_append, mem_singleton] at hc ⊢
    tauto
  · exact hnodup
  · intro c hc
    change c.addr < z6.next
    rw [hnext6]
    rcases hcases c hc with hmem | rfl
    · have hlt := h.fresh c hmem
      lia
    · exact Nat.lt_succ_self _
  · rw [hsplit] at hsmall
    simp only [length_append, length_singleton] at hsmall ⊢
    lia

end Insert

theorem lower_spec (header : Nat -> ZskiplistLevel) (hlevel : 1 ≤ level) :
    1 ≤ lower header level ∧ lower header level ≤ level ∧
      (lower header level = 1 ∨ (header (lower header level - 1)).forward ≠ none) ∧
      forall i, lower header level ≤ i -> i < level -> (header i).forward = none := by
  induction level using lower.induct header with
  | case1 => exact absurd hlevel (by decide)
  | case2 =>
    refine ⟨Nat.le_refl 1, Nat.le_refl 1, Or.inl rfl, ?_⟩
    intro i hi hlt
    exact absurd hlt (Nat.not_lt.mpr hi)
  | case3 level hnone ih =>
    rcases ih (by lia) with ⟨hpos, hle, hlast, habove⟩
    rw [lower, if_pos hnone]
    refine ⟨hpos, by lia, hlast, ?_⟩
    intro i hi hlt
    by_cases hi' : i = level + 1
    · rw [hi']
      exact hnone
    · exact habove i hi (by lia)
  | case4 level hsome =>
    rw [lower, if_neg hsome]
    refine ⟨by lia, Nat.le_refl _, Or.inr hsome, ?_⟩
    intro i hi hlt
    exact absurd hlt (Nat.not_lt.mpr hi)

theorem low_of_jump (h : (jump i cells).1 = none) : Low i cells := by
  rcases low_or_split i cells with hlow | ⟨front, c, rest, hsplit, hfront, hc⟩
  · exact hlow
  · rw [hsplit, jump_split hfront hc] at h
    cases h

section Delete

variable {pre post : List (Cell (score × ele))} {zsl : Zskiplist score ele}
  {found : Found} {c : Cell (score × ele)}

theorem zslDeleteNode_linked (h : Linked (pre ++ [c] ++ post) zsl)
    (hstops : forall j, j < zsl.level -> exists p s, Stop j pre found p s) :
    exists zsl', zsl.zslDeleteNode c.addr found = .ok zsl' ∧
      Linked (pre ++ [] ++ post) zsl' ∧ zsl'.level ≤ zsl.level ∧ zsl'.next = zsl.next := by
  have hround : forall i, 0 ≤ i -> i < 0 + zsl.level -> forall z, SameData zsl z ->
      SameLevel i zsl z -> exists z', unlink c.addr found i z = .ok z' ∧ Frame i z z' ∧
        (Lane i (pre ++ [] ++ post) z' ∧
          z'.levelAt (.node c.addr) i = zsl.levelAt (.node c.addr) i) := by
    intro i _ hi z _ hlevel
    rcases hstops i (by lia) with ⟨p, s, hstop⟩
    rcases unlink_lane hstop ((h.lanes i (by lia)).congr hlevel) h.small h.nodup with
      ⟨z', hrun, hframe, hlane, hown⟩
    exact ⟨z', hrun, hframe, hlane, hown.trans (hlevel _)⟩
  rcases forLevels_rounds zsl.level
    (fun i z z' hz hsame => ⟨hz.left.congr hsame, (hsame _).trans hz.right⟩) hround with
    ⟨z1, hrun1, hsame1, hlanes1, hother1⟩
  have hpos := h.level.left
  have hsplit : pre ++ [c] ++ post = pre ++ c :: post := by
    rw [append_assoc]
    rfl
  have hlane0 := h.lanes 0 hpos (pre ++ [c]) post rfl
    (Or.inr ⟨pre, c, rfl, (h.heights c (by simp)).left⟩)
  rw [lastPlace_concat] at hlane0
  have hlevel0 : z1.levelAt (.node c.addr) 0 = .ok (toLevel (jump 0 post)) :=
    (hlanes1 0 (Nat.le_refl 0) (by lia)).right.trans hlane0
  have hdata1 : z1.dataAt c.addr = some (c.item, c.height, lastAddr pre) :=
    (hsame1.data _).trans (h.data pre c post hsplit)
  rcases nodes_of_dataAt hdata1 with ⟨levels, hnode⟩
  have hpost1 : forall d rest, post = d :: rest ->
      exists b0, z1.dataAt d.addr = some (d.item, d.height, b0) := by
    intro d rest hcons
    refine ⟨some c.addr, ?_⟩
    rw [hsame1.data, h.data (pre ++ [c]) d rest (by rw [hcons]), lastAddr_concat]
  rcases pointBack_spec (lastAddr pre) hpost1 with ⟨z2, hpoint, hpointed⟩
  have hjump0 : (jump 0 post).1 = headAddr post := jump_zero (h.heights_part rfl)
  have hrun : exists z3, zsl.zslDeleteNode c.addr found = .ok z3 ∧
      z3.header = z2.header ∧ z3.nodes = z2.nodes ∧ z3.next = z2.next ∧
      z3.tail = z2.tail ∧ z3.length = ulSub z2.length 1 ∧
      z3.level = lower z2.header z2.level := by
    refine ⟨⟨z2.header, z2.nodes, z2.next, z2.tail, ulSub z2.length 1,
      lower z2.header z2.level⟩, ?_, rfl, rfl, rfl, rfl, rfl, rfl⟩
    unfold zslDeleteNode
    simp only [ok_bind, hrun1, hlevel0, nodeAt, hnode, toLevel, hjump0, hpoint]
  rcases hrun with ⟨z3, hrun, hheader3, hnodes3, hnext3, htail3, hlength3, hlevel3⟩
  have hlevel2 : z2.level = zsl.level := hpointed.level.trans hsame1.level
  have hlanes2 : forall i, i < zsl.level -> Lane i (pre ++ [] ++ post) z2 := by
    intro i hi
    refine (hlanes1 i (Nat.zero_le i) (by lia)).left.congr ?_
    intro y
    exact hpointed.levels y i
  have hheader : forall i, i < zsl.level -> z2.header i = toLevel (jump i (pre ++ [] ++ post)) := by
    intro i hi
    have hlane := hlanes2 i hi [] (pre ++ [] ++ post) rfl (Or.inl rfl)
    have hmax := h.level.right
    simp only [levelAt, lastPlace_nil, if_pos (by lia : i < ZSKIPLIST_MAXLEVEL)] at hlane
    injection hlane
  have hmem : forall d, d ∈ pre ++ [] ++ post -> d ∈ pre ++ [c] ++ post := by
    intro d hd
    simp only [append_nil, mem_append, mem_singleton] at hd ⊢
    tauto
  rcases lower_spec z2.header (by lia : 1 ≤ z2.level) with ⟨hpos', hle, hlast, habove⟩
  rw [hlevel2] at hpos' hle hlast habove
  have hheights : forall d, d ∈ pre ++ [] ++ post ->
      1 ≤ d.height ∧ d.height ≤ lower z2.header zsl.level := by
    intro d hd
    have hd' := h.heights d (hmem d hd)
    refine ⟨hd'.left, ?_⟩
    by_cases hsame : lower z2.header zsl.level = zsl.level
    · rw [hsame]
      exact hd'.right
    have hlt : lower z2.header zsl.level < zsl.level := by lia
    have hnone := habove _ (Nat.le_refl _) hlt
    rw [hheader _ hlt] at hnone
    exact low_of_jump hnone d hd
  have hnodup' : ((pre ++ [] ++ post).map Cell.addr).Nodup := by
    refine List.Nodup.sublist ?_ h.nodup
    apply List.Sublist.map
    exact append (append_left (nil_sublist _) pre) (refl post)
  rw [hlevel2] at hlevel3
  have hdata3 := dataAt_congr hnodes3
  refine ⟨z3, hrun, ?_, by rw [hlevel3]; exact hle, by rw [hnext3, hpointed.next, hsame1.next]⟩
  constructor
  · intro i hi
    rw [hlevel3] at hi
    exact (hlanes2 i (by lia)).congr (fun y => levelAt_congr hheader3 hnodes3 y i)
  · intro i hi hmax
    rw [hlevel3] at hi
    rw [hheader3]
    by_cases hlt : i < zsl.level
    · exact habove i hi hlt
    have hsame := hother1 i (by lia) .header
    simp only [levelAt, if_pos hmax] at hsame
    injection hsame with hsame
    rw [hpointed.header, hsame]
    exact h.above i (by lia) hmax
  · refine DataOk.replace h.data ?_ ?_ ?_
    · intro d hd
      rw [hdata3, hpointed.others, hsame1.data]
      rw [append_nil] at hnodup'
      exact headAddr_ne hnodup' hd
    · intro q d r hqd
      have hlen := congrArg List.length hqd
      simp at hlen
    · intro d r hcons
      rcases hpost1 d r hcons with ⟨b0, hb0⟩
      rw [hdata3, hpointed.own d r hcons, hb0, append_nil]
      rfl
  · rw [htail3, hpointed.tail, hsame1.tail, h.tail]
    split
    · rename_i hnil
      rw [hnil, append_nil, append_nil]
    · rename_i hnil
      rw [lastAddr_append _ hnil, lastAddr_append _ hnil]
  · have hsmall := h.small
    have hlength : z2.length = (pre ++ [c] ++ post).length := by
      rw [hpointed.length, hsame1.length, h.length]
    simp only [length_append, length_singleton] at hlength hsmall
    rw [hlength3, hlength, ulSub_eq (by lia) (by lia)]
    simp only [length_append, length_nil]
    lia
  · intro d hd
    rw [hlevel3]
    exact hheights d hd
  · rw [hlevel3]
    exact ⟨hpos', Nat.le_trans hle h.level.right⟩
  · rw [hlevel3]
    rcases hlast with hone | hsome
    · exact Or.inl hone
    right
    rw [hheader _ (by lia)] at hsome
    rcases low_or_split (lower z2.header zsl.level - 1) (pre ++ [] ++ post) with
      hlow | ⟨front, d, rest, hd, _, hgt⟩
    · rw [jump_of_low hlow] at hsome
      exact absurd rfl hsome
    have hd' : d ∈ pre ++ [] ++ post := by
      rw [hd]
      simp
    refine ⟨d, hd', ?_⟩
    have hbound := (hheights d hd').right
    lia
  · exact hnodup'
  · intro d hd
    rw [hnext3, hpointed.next, hsame1.next]
    exact h.fresh d (hmem d hd)
  · have hsmall := h.small
    simp only [length_append, length_singleton, length_nil] at hsmall ⊢
    lia

theorem Linked.free (h : Linked cells zsl) (ha : a ∉ cells.map Cell.addr) :
    Linked cells (zsl.zslFreeNode a) := by
  have hdata : forall d, d ∈ cells -> (zsl.zslFreeNode a).dataAt d.addr = zsl.dataAt d.addr := by
    intro d hd
    have hne : d.addr ≠ a := by
      rintro rfl
      exact ha (mem_map_of_mem hd)
    simp [dataAt, zslFreeNode, update_of_ne hne]
  refine ⟨?_, h.above, ?_, h.tail, h.length, h.heights, h.level, h.top, h.nodup, h.fresh, h.small⟩
  · intro i hi p s hsplit hreach
    rw [← h.lanes i hi p s hsplit hreach]
    by_cases hp : p = []
    · subst hp
      rfl
    rcases lastPlace_mem hp with ⟨d, hd, hplace⟩
    have hne : d.addr ≠ a := by
      rintro rfl
      exact ha (mem_map_of_mem (by rw [hsplit]; exact mem_append_left _ hd))
    rw [hplace]
    simp [levelAt, zslFreeNode, update_of_ne hne]
  · intro p d s hsplit
    rw [hdata d (by rw [hsplit]; simp)]
    exact h.data p d s hsplit

end Delete

end Zskiplist
end Redisoo
