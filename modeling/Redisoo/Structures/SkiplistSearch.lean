import Redisoo.Structures.SkiplistShape

/-!
# Searches in a skip list

The test of a search may be anything: the places a search stops at on the levels
always belong together.  What lies before them is known when the test fits the
order of the list.
-/

namespace Redisoo
namespace Zskiplist

open Foundation.Lanes List Function

variable {score ele : Type}

structure Linked (cells : List (Cell (score × ele))) (zsl : Zskiplist score ele) : Prop where
  lanes : forall i, i < zsl.level -> Lane i cells zsl
  above : forall i, zsl.level ≤ i -> i < ZSKIPLIST_MAXLEVEL ->
    (zsl.header i).forward = none
  data : forall p c s, cells = p ++ c :: s ->
    zsl.dataAt c.addr = some (c.item, c.height, lastAddr p)
  tail : zsl.tail = lastAddr cells
  length : zsl.length = cells.length
  heights : forall c, c ∈ cells -> 1 ≤ c.height ∧ c.height ≤ zsl.level
  level : 1 ≤ zsl.level ∧ zsl.level ≤ ZSKIPLIST_MAXLEVEL
  top : zsl.level = 1 ∨ exists c, c ∈ cells ∧ c.height = zsl.level
  nodup : (cells.map Cell.addr).Nodup
  fresh : forall c, c ∈ cells -> c.addr < zsl.next
  small : cells.length < 2 ^ 32

theorem linked_create : Linked [] (zslCreate : Zskiplist score ele) where
  lanes := by
    intro i hi p s hsplit _
    have hnil := append_eq_nil_iff.mp hsplit.symm
    have hzero : i = 0 := Nat.lt_one_iff.mp hi
    rw [hnil.left, hnil.right, hzero]
    rfl
  above := fun _ _ _ => rfl
  data := by
    intro p c s hsplit
    have hlen := congrArg List.length hsplit
    simp at hlen
  tail := rfl
  length := rfl
  heights := fun _ h => absurd h not_mem_nil
  level := ⟨Nat.le_refl 1, (by decide : 1 ≤ ZSKIPLIST_MAXLEVEL)⟩
  top := Or.inl rfl
  nodup := nodup_nil
  fresh := fun _ h => absurd h not_mem_nil
  small := Nat.two_pow_pos 32

def goes (go : Nat -> score -> ele -> Bool) (rank : Nat) (c : Cell (score × ele)) : Bool :=
  go rank c.item.1 c.item.2

variable {go : Nat -> score -> ele -> Bool} {cells pre post : List (Cell (score × ele))}
  {zsl : Zskiplist score ele} (rank : Nat)

def Passed (go : Nat -> score -> ele -> Bool) (height : Nat) :
    Nat -> List (Cell (score × ele)) -> Prop
  | _, [] => True
  | rank, c :: rest =>
    (height ≤ c.height -> goes go (rank + 1) c = true) ∧ Passed go height (rank + 1) rest

def Blocked (go : Nat -> score -> ele -> Bool) (i : Nat) : Nat -> List (Cell (score × ele)) -> Prop
  | _, [] => True
  | rank, c :: rest =>
    if i < c.height then goes go (rank + 1) c = false
    else Blocked go i (rank + 1) rest

theorem passed_append {height : Nat} (a b : List (Cell (score × ele))) :
    Passed go height rank (a ++ b) <->
      Passed go height rank a ∧ Passed go height (rank + a.length) b := by
  induction a generalizing rank with
  | nil => simp [Passed]
  | cons c rest ih =>
    have hrank : rank + (c :: rest).length = rank + 1 + rest.length := by
      rw [length_cons]
      lia
    rw [cons_append, Passed, Passed, ih, hrank, and_assoc]

variable {i : Nat} {a front rest m p s : List (Cell (score × ele))}

theorem passed_of_low (h : Low i a) : Passed go (i + 1) rank a := by
  induction a generalizing rank with
  | nil => trivial
  | cons c rest ih =>
    constructor
    · intro hge
      have hle := h c mem_cons_self
      exact absurd hge (by lia)
    · exact ih (rank + 1) (fun d hd => h d (mem_cons_of_mem c hd))

theorem blocked_of_low (h : Low i a) : Blocked go i rank a := by
  induction a generalizing rank with
  | nil => trivial
  | cons c rest ih =>
    rw [Blocked, if_neg (Nat.not_lt.mpr (h c mem_cons_self))]
    exact ih (rank + 1) (fun d hd => h d (mem_cons_of_mem c hd))

theorem blocked_split {c : Cell (score × ele)} (hfront : Low i front) (hc : i < c.height)
    (hstop : goes go (rank + front.length + 1) c = false) :
    Blocked go i rank (front ++ c :: rest) := by
  induction front generalizing rank with
  | nil =>
    rw [nil_append, Blocked, if_pos hc]
    exact hstop
  | cons d tail ih =>
    rw [cons_append, Blocked, if_neg (Nat.not_lt.mpr (hfront d mem_cons_self))]
    apply ih (rank + 1) (fun e he => hfront e (mem_cons_of_mem d he))
    rw [← hstop, length_cons]
    congr 1
    lia

theorem low_of_passed_of_blocked {rank : Nat} (hpassed : Passed go i rank m)
    (hblocked : Blocked go i rank (m ++ rest)) : Low i m := by
  induction m generalizing rank with
  | nil => exact low_nil i
  | cons c tail ih =>
    rw [cons_append, Blocked] at hblocked
    by_cases hc : i < c.height
    · rw [if_pos hc, hpassed.left (Nat.le_of_lt hc)] at hblocked
      cases hblocked
    · rw [if_neg hc] at hblocked
      exact low_append.mpr ⟨low_singleton (Nat.not_lt.mp hc), ih hpassed.right hblocked⟩

theorem Linked.nodeAt (h : Linked cells zsl) {c : Cell (score × ele)}
    (hsplit : cells = p ++ c :: s) :
    exists level, zsl.nodeAt c.addr = .ok ⟨c.item.2, c.item.1, lastAddr p, c.height, level⟩ := by
  rcases nodes_of_dataAt (h.data p c s hsplit) with ⟨level, hnode⟩
  refine ⟨level, ?_⟩
  unfold Zskiplist.nodeAt
  rw [hnode]

theorem walk_spec (h : Linked cells zsl) (go : Nat -> score -> ele -> Bool) (hi : i < zsl.level)
    (fuel : Nat) (hsplit : cells = pre ++ post) (hreach : Reaches i pre)
    (hfuel : post.length < fuel) :
    exists m rest, post = m ++ rest ∧
      zsl.walk go i fuel (lastPlace pre) pre.length =
        .ok (lastPlace (pre ++ m), (pre ++ m).length) ∧
      Reaches i (pre ++ m) ∧ Passed go (i + 1) pre.length m ∧
      Blocked go i (pre.length + m.length) rest := by
  induction fuel generalizing pre post with
  | zero => exact absurd hfuel (Nat.not_lt_zero _)
  | succ fuel ih =>
    have hlevel := h.lanes i hi pre post hsplit hreach
    have hlength : cells.length = pre.length + post.length := by
      rw [hsplit, length_append]
    have hsmall := h.small
    have hstay := append_nil pre
    rcases low_or_split i post with hlow | ⟨front, c, tail, hpost, hfront, hc⟩
    · refine ⟨[], post, rfl, ?_, hstay.symm ▸ hreach, trivial, blocked_of_low _ hlow⟩
      rw [jump_of_low hlow] at hlevel
      simp only [walk, bind, Except.bind, hlevel, toLevel, hstay]
    rw [hpost, jump_split hfront hc] at hlevel
    have hsplit' : cells = (pre ++ front) ++ c :: tail := by
      rw [hsplit, hpost, append_assoc]
    rcases h.nodeAt hsplit' with ⟨level, hnode⟩
    have hlen : post.length = front.length + (tail.length + 1) := by
      rw [hpost, length_append, length_cons]
    have hadd : ulAdd pre.length (front.length + 1) = pre.length + (front.length + 1) :=
      ulAdd_eq (by lia)
    have hwalk : zsl.walk go i (fuel + 1) (lastPlace pre) pre.length =
        if goes go (pre.length + front.length + 1) c then
          zsl.walk go i fuel (.node c.addr) (pre.length + (front.length + 1))
        else .ok (lastPlace pre, pre.length) := by
      simp only [walk, bind, Except.bind, hlevel, toLevel, hnode, hadd]
      rfl
    cases hgo : goes go (pre.length + front.length + 1) c with
    | false =>
      rw [hgo, if_neg Bool.false_ne_true] at hwalk
      refine ⟨[], post, rfl, hstay.symm ▸ hwalk, hstay.symm ▸ hreach, trivial, ?_⟩
      rw [hpost]
      exact blocked_split _ hfront hc hgo
    | true =>
      rw [hgo, if_pos rfl] at hwalk
      have hpre : pre ++ front ++ [c] ++ tail = cells := by
        rw [hsplit', append_assoc (pre ++ front)]
        rfl
      rcases ih hpre.symm (Or.inr ⟨pre ++ front, c, rfl, hc⟩) (by lia) with
        ⟨m, rest, htail, hrun, hreach', hpassed, hblocked⟩
      have happ : pre ++ (front ++ [c] ++ m) = pre ++ front ++ [c] ++ m := by
        simp only [append_assoc]
      have hcount : (pre ++ front ++ [c]).length = pre.length + (front.length + 1) := by
        simp only [length_append, length_singleton]
        lia
      refine ⟨front ++ [c] ++ m, rest, ?_, ?_, ?_, ?_, ?_⟩
      · rw [hpost, htail]
        rw [append_assoc, append_assoc]
        rfl
      · rw [happ, hwalk, ← hrun, lastPlace_concat, hcount]
      · rw [happ]
        exact hreach'
      · rw [passed_append, passed_append]
        refine ⟨⟨passed_of_low _ hfront, ?_, trivial⟩, ?_⟩
        · exact fun _ => hgo
        · rw [hcount] at hpassed
          rw [length_append, length_singleton]
          exact hpassed
      · rw [hcount] at hblocked
        rw [length_append, length_append, length_singleton, ← Nat.add_assoc]
        exact hblocked

structure Searched (go : Nat -> score -> ele -> Bool) (i : Nat)
    (pre m rest : List (Cell (score × ele))) (found : Found) : Prop where
  stops : forall j, j < i -> exists p s, Stop j (pre ++ m) found p s
  passed : Passed go i pre.length m
  last : m = [] ∨ exists front c, m = front ++ [c] ∧
    goes go (pre.length + m.length) c = true
  halts : 0 < i -> forall c tail, rest = c :: tail ->
    goes go (pre.length + m.length + 1) c = false

theorem last_of_passed (hreach : Reaches i (pre ++ m)) (hpassed : Passed go (i + 1) pre.length m) :
    m = [] ∨ exists front c, m = front ++ [c] ∧ goes go (pre.length + m.length) c = true := by
  rcases eq_nil_or_concat m with rfl | ⟨front, c, rfl⟩
  · exact Or.inl rfl
  right
  rw [concat_eq_append] at hreach hpassed ⊢
  refine ⟨front, c, rfl, ?_⟩
  rw [passed_append] at hpassed
  have hc : i < c.height := by
    by_contra hlow
    have hnil := nil_of_reaches (i := i) (r := pre ++ front) (a := [c])
      (by rw [append_assoc]; exact hreach) (low_singleton (Nat.not_lt.mp hlow))
    cases hnil
  rw [length_append, length_singleton, ← Nat.add_assoc]
  exact hpassed.right.left hc

theorem Linked.low_zero (h : Linked cells zsl) (hsub : m ⊆ cells)
    (hlow : forall d, d ∈ m -> d.height ≤ 0) : m = [] := by
  apply eq_nil_iff_forall_not_mem.mpr
  intro d hd
  have hd1 := (h.heights d (hsub hd)).left
  exact absurd (hlow d hd) (by lia)

theorem searchFrom_spec (h : Linked cells zsl) (go : Nat -> score -> ele -> Bool) (i : Nat)
    (hi : i ≤ zsl.level) (hsplit : cells = pre ++ post)
    (hreach : forall j, j < i -> Reaches j pre) :
    exists m rest found, post = m ++ rest ∧
      zsl.searchFrom go i (lastPlace pre) pre.length = .ok found ∧
      Searched go i pre m rest found := by
  induction i generalizing pre post with
  | zero =>
    refine ⟨[], post, _, rfl, rfl, ?_, trivial, Or.inl rfl, ?_⟩
    · exact fun j hj => absurd hj (Nat.not_lt_zero j)
    · exact fun hpos => absurd hpos (Nat.lt_irrefl 0)
  | succ i ih =>
    have hlength : post.length < zsl.length + 1 := by
      rw [h.length, hsplit, length_append]
      lia
    rcases walk_spec h go hi (zsl.length + 1) hsplit (hreach i (Nat.lt_succ_self i))
      hlength with ⟨m1, rest1, hpost, hwalk, hreach1, hpassed1, hblocked⟩
    have hsplit1 : cells = (pre ++ m1) ++ rest1 := by
      rw [hsplit, hpost, append_assoc]
    have hreach1' : forall j, j < i -> Reaches j (pre ++ m1) := by
      intro j hj
      rcases hreach1 with hnil | ⟨front, c, hfront, hc⟩
      · exact Or.inl hnil
      · exact Or.inr ⟨front, c, hfront, by lia⟩
    rcases ih (by lia) hsplit1 hreach1' with ⟨m2, rest, found, hrest1, hrun, hfound⟩
    rw [length_append] at hrun
    have hpassed2 := hfound.passed
    rw [length_append] at hpassed2
    rw [hrest1] at hblocked
    have hlow := low_of_passed_of_blocked hpassed2 hblocked
    have happ : pre ++ (m1 ++ m2) = pre ++ m1 ++ m2 := (append_assoc _ _ _).symm
    refine ⟨m1 ++ m2, rest, ⟨update found.update i (lastPlace (pre ++ m1)),
        update found.rank i (pre ++ m1).length⟩,
      by rw [hpost, hrest1, append_assoc], ?_, ?_, ?_, ?_, ?_⟩
    · simp only [searchFrom, bind, Except.bind, hwalk, length_append, hrun]
    · intro j hj
      by_cases hlast : j = i
      · subst hlast
        refine ⟨pre ++ m1, m2, happ, hreach1, hlow, ?_, ?_⟩
        · exact update_self j _ _
        · exact update_self j _ _
      · rcases hfound.stops j (by lia) with ⟨p, s, hstop⟩
        refine ⟨p, s, happ.trans hstop.split, hstop.reaches, hstop.low, ?_, ?_⟩
        · exact (update_of_ne hlast _ _).trans hstop.update
        · exact (update_of_ne hlast _ _).trans hstop.rank
    · rw [passed_append]
      exact ⟨hpassed1, passed_of_low _ hlow⟩
    · rcases hfound.last with hnil | ⟨front, c, hm2, hgo⟩
      · rw [hnil, append_nil]
        exact last_of_passed hreach1 hpassed1
      right
      refine ⟨m1 ++ front, c, by rw [hm2, append_assoc], ?_⟩
      rw [← hgo]
      congr 1
      simp only [length_append]
      lia
    · intro _ c tail hhead
      have hcount : pre.length + (m1 ++ m2).length + 1 = (pre ++ m1).length + m2.length + 1 := by
        simp only [length_append]
        lia
      rw [hcount]
      rcases Nat.eq_zero_or_pos i with hzero | hpos
      · -- On level 0 every cell is on the lane.
        subst hzero
        have hm2 : m2 = [] := h.low_zero (fun d hd => by rw [hsplit1, hrest1]; simp [hd]) hlow
        have hc1 := (h.heights c (by rw [hsplit1, hrest1, hhead]; simp)).left
        rw [hm2, nil_append, hhead, Blocked, if_pos (by lia)] at hblocked
        rw [hm2, length_nil, Nat.add_zero, length_append]
        exact hblocked
      · exact hfound.halts hpos c tail hhead

theorem search_spec (h : Linked cells zsl) (go : Nat -> score -> ele -> Bool) :
    exists pre post found, cells = pre ++ post ∧ zsl.search go = .ok found ∧
      Searched go zsl.level [] pre post found := by
  have hstart : cells = [] ++ cells := rfl
  rcases searchFrom_spec h go zsl.level (Nat.le_refl _) hstart
    (fun _ _ => Or.inl rfl) with ⟨m, rest, found, hsplit, hrun, hfound⟩
  exact ⟨m, rest, found, hsplit, hrun, hfound⟩

theorem Linked.stop_zero (h : Linked cells zsl) {found : Found} (hsplit : cells = pre ++ post)
    (hstop : Stop 0 pre found p s) : p = pre ∧ s = [] := by
  have hs : s = [] := h.low_zero (fun d hd => by rw [hsplit, hstop.split]; simp [hd]) hstop.low
  refine ⟨?_, hs⟩
  rw [hstop.split, hs, append_nil]

end Zskiplist
end Redisoo
