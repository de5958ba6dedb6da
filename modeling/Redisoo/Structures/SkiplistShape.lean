import Redisoo.Foundation.Lanes
import Redisoo.Structures.Skiplist

/-!
# The shape of a skip list

A list of cells, in order, describes a skip list: every level of every node
points to the next cell that is tall enough, over as many steps as its span says.
-/

namespace Redisoo
namespace Zskiplist

open Foundation.Lanes List Cell List.Sublist

variable {score ele : Type}

/-!
# Reading after writing
-/

variable {a b : Nat} {zsl' : Zskiplist score ele}

theorem ulAdd_eq (h : a + b < 2 ^ 64) : ulAdd a b = a + b := Nat.mod_eq_of_lt h

theorem ulSub_eq (hle : b ≤ a) (ha : a < 2 ^ 64) : ulSub a b = a - b := by
  unfold ulSub
  have hadd : a + 2 ^ 64 - b = (a - b) + 2 ^ 64 := by lia
  rw [hadd, Nat.add_mod_right]
  exact Nat.mod_eq_of_lt (by lia)

theorem ulAdd_ulSub_one (hpos : 1 ≤ a) (hlt : a + b < 2 ^ 64) :
    ulAdd a (ulSub b 1) = a + b - 1 := by
  unfold ulAdd ulSub
  rw [Nat.add_mod_mod]
  have hadd : a + (b + 2 ^ 64 - 1) = (a + b - 1) + 2 ^ 64 := by lia
  rw [hadd, Nat.add_mod_right]
  exact Nat.mod_eq_of_lt (by lia)

def dataAt (zsl : Zskiplist score ele) (a : Nat) : Option ((score × ele) × Nat × Option Nat) :=
  (zsl.nodes a).map fun n => ((n.score, n.ele), n.height, n.backward)

variable {zsl : Zskiplist score ele} {i : Nat}
  {cells pre mid mid' post p s : List (Cell (score × ele))} {z1 z2 z3 : Zskiplist score ele}

theorem levelAt_congr (hheader : zsl'.header = zsl.header) (hnodes : zsl'.nodes = zsl.nodes)
    (y : ZslPlace) (i : Nat) : zsl'.levelAt y i = zsl.levelAt y i := by
  unfold levelAt
  rw [hheader, hnodes]

theorem dataAt_congr (hnodes : zsl'.nodes = zsl.nodes) (a : Nat) :
    zsl'.dataAt a = zsl.dataAt a := by
  unfold dataAt
  rw [hnodes]

theorem nodes_of_dataAt {s : score} {e : ele} {height : Nat} {b : Option Nat}
    (h : zsl.dataAt a = some ((s, e), height, b)) :
    exists level, zsl.nodes a = some ⟨e, s, b, height, level⟩ := by
  unfold dataAt at h
  cases hn : zsl.nodes a with
  | none =>
    rw [hn] at h
    cases h
  | some n =>
    rw [hn] at h
    cases n
    cases h
    exact ⟨_, rfl⟩

theorem levelAt_of_dataAt {height : Nat} {se : score × ele} {b : Option Nat}
    (h : zsl.dataAt a = some (se, height, b)) (hi : i < height) :
    exists l, zsl.levelAt (.node a) i = .ok l := by
  rcases nodes_of_dataAt h with ⟨level, hn⟩
  refine ⟨level i, ?_⟩
  simp [levelAt, hn, hi]

section PutLevel

variable (zsl : Zskiplist score ele) (x : ZslPlace) (i : Nat) (l : ZskiplistLevel)

@[simp] theorem dataAt_putLevel (a : Nat) : (zsl.putLevel x i l).dataAt a = zsl.dataAt a := by
  cases x with
  | header => rfl
  | node b =>
    unfold dataAt putLevel
    by_cases hab : a = b
    · subst hab
      cases hn : zsl.nodes a <;> simp [hn]
    · simp [Function.update_of_ne hab]

theorem levelAt_putLevel_of_ne {y : ZslPlace} {j : Nat} (h : y ≠ x ∨ j ≠ i) :
    (zsl.putLevel x i l).levelAt y j = zsl.levelAt y j := by
  cases x with
  | header =>
    cases y with
    | header =>
      have hj : j ≠ i := h.resolve_left (fun hne => hne rfl)
      simp [levelAt, putLevel, Function.update_of_ne hj]
    | node b => rfl
  | node a =>
    cases y with
    | header => rfl
    | node b =>
      by_cases hab : b = a
      · subst hab
        have hj : j ≠ i := h.resolve_left (fun hne => hne rfl)
        cases hn : zsl.nodes b with
        | none => simp [levelAt, putLevel, hn]
        | some n => simp [levelAt, putLevel, hn, Function.update_of_ne hj]
      · simp [levelAt, putLevel, Function.update_of_ne hab]

variable {zsl x i}

theorem levelAt_putLevel_same {l0 : ZskiplistLevel} (h : zsl.levelAt x i = .ok l0) :
    (zsl.putLevel x i l).levelAt x i = .ok l := by
  cases x with
  | header =>
    unfold levelAt at h ⊢
    dsimp only at h ⊢
    split at h
    · rename_i hi
      rw [if_pos hi]
      simp [putLevel]
    · cases h
  | node a =>
    cases hn : zsl.nodes a with
    | none =>
      simp [levelAt, hn] at h
    | some n =>
      simp only [levelAt, hn] at h
      split at h
      · rename_i hi
        simp [levelAt, putLevel, hn, hi]
      · cases h

theorem setLevel_ok {l0 : ZskiplistLevel} (h : zsl.levelAt x i = .ok l0) :
    zsl.setLevel x i l = .ok (zsl.putLevel x i l) := by
  unfold setLevel
  rw [h]

end PutLevel

structure SameData (zsl zsl' : Zskiplist score ele) : Prop where
  data : forall a, zsl'.dataAt a = zsl.dataAt a
  next : zsl'.next = zsl.next
  tail : zsl'.tail = zsl.tail
  length : zsl'.length = zsl.length
  level : zsl'.level = zsl.level

theorem SameData.refl (zsl : Zskiplist score ele) : SameData zsl zsl :=
  ⟨fun _ => rfl, rfl, rfl, rfl, rfl⟩

theorem SameData.trans (h12 : SameData z1 z2) (h23 : SameData z2 z3) : SameData z1 z3 where
  data := fun a => (h23.data a).trans (h12.data a)
  next := h23.next.trans h12.next
  tail := h23.tail.trans h12.tail
  length := h23.length.trans h12.length
  level := h23.level.trans h12.level

def SameLevel (i : Nat) (zsl zsl' : Zskiplist score ele) : Prop :=
  forall y, zsl'.levelAt y i = zsl.levelAt y i

/-!
# Lanes
-/

def lastPlace (cells : List (Cell (score × ele))) : ZslPlace :=
  match lastAddr cells with
  | none => .header
  | some a => .node a

def toLevel (j : Option Nat × Nat) : ZskiplistLevel :=
  ⟨j.1, j.2⟩

def Lane (i : Nat) (cells : List (Cell (score × ele))) (zsl : Zskiplist score ele) : Prop :=
  forall p s, cells = p ++ s -> Reaches i p ->
    zsl.levelAt (lastPlace p) i = .ok (toLevel (jump i s))

theorem Lane.congr (h : Lane i cells zsl) (hsame : SameLevel i zsl zsl') : Lane i cells zsl' := by
  intro p s hsplit hp
  rw [hsame]
  exact h p s hsplit hp

section Places

variable {p s p' s' : List (Cell (score × ele))}

@[simp] theorem lastPlace_nil : lastPlace ([] : List (Cell (score × ele))) = .header := rfl

@[simp] theorem lastPlace_concat (cells : List (Cell (score × ele)))
    (c : Cell (score × ele)) : lastPlace (cells ++ [c]) = .node c.addr := by
  unfold lastPlace
  rw [lastAddr_concat]

theorem lastPlace_append (p : List (Cell (score × ele))) (hs : s ≠ []) :
    lastPlace (p ++ s) = lastPlace s := by
  rcases eq_nil_or_concat s with rfl | ⟨front, c, rfl⟩
  · exact absurd rfl hs
  · rw [concat_eq_append, ← append_assoc, lastPlace_concat, lastPlace_concat]

theorem lastPlace_mem (hp : p ≠ []) : exists c, c ∈ p ∧ lastPlace p = .node c.addr := by
  rcases eq_nil_or_concat p with rfl | ⟨front, c, rfl⟩
  · exact absurd rfl hp
  · rw [concat_eq_append]
    exact ⟨c, by simp, lastPlace_concat front c⟩

theorem lastPlace_node (h : lastPlace p = .node a) : exists c, c ∈ p ∧ c.addr = a := by
  have hne : p ≠ [] := by
    rintro rfl
    cases h
  rcases lastPlace_mem hne with ⟨c, hc, hplace⟩
  rw [hplace] at h
  injection h with haddr
  exact ⟨c, hc, haddr⟩

theorem eq_of_lastPlace (hsplit : p ++ s = p' ++ s')
    (hnodup : ((p ++ s).map addr).Nodup) (hlast : lastPlace p = lastPlace p') : p = p' := by
  apply eq_of_lastAddr hsplit hnodup
  unfold lastPlace at hlast
  cases hp : lastAddr p <;> cases hp' : lastAddr p' <;> rw [hp, hp'] at hlast
  · cases hlast
  · cases hlast
  · injection hlast with haddr
    rw [haddr]

theorem reaches_append (p : List (Cell (score × ele))) (hs : s ≠ []) :
    Reaches i (p ++ s) <-> Reaches i s := by
  rcases eq_nil_or_concat s with rfl | ⟨front, c, rfl⟩
  · exact absurd rfl hs
  rw [concat_eq_append]
  have hlast : forall q : List (Cell (score × ele)), Reaches i (q ++ [c]) <-> i < c.height := by
    intro q
    constructor
    · rintro (hnil | ⟨front', d, hd, hlt⟩)
      · simp at hnil
      have hcd := (append_inj' hd rfl).right
      rw [List.cons.injEq] at hcd
      rw [hcd.left]
      exact hlt
    · exact fun hlt => Or.inr ⟨q, c, rfl, hlt⟩
  rw [← append_assoc, hlast, hlast]

theorem addr_ne {c d : Cell (score × ele)}
    (hnodup : ((p ++ s).map addr).Nodup) (hc : c ∈ p) (hd : d ∈ s) : c.addr ≠ d.addr := by
  rw [map_append] at hnodup
  exact (nodup_append.mp hnodup).right.right _ (mem_map_of_mem hc) _ (mem_map_of_mem hd)

end Places

theorem Lane.replace (h : Lane i (pre ++ mid ++ post) zsl) (hpre : pre = p ++ s)
    (hp : Reaches i p) (hs : Low i s) (hnodup : ((pre ++ mid' ++ post).map addr).Nodup)
    (hframe : forall y, y ≠ lastPlace p -> (forall c, c ∈ mid' -> y ≠ .node c.addr) ->
      zsl'.levelAt y i = zsl.levelAt y i)
    (hupdate : zsl'.levelAt (lastPlace p) i = .ok (toLevel (jump i (s ++ mid' ++ post))))
    (hmid : forall q r, mid' = q ++ r -> q ≠ [] -> Reaches i q ->
      zsl'.levelAt (lastPlace q) i = .ok (toLevel (jump i (r ++ post)))) :
    Lane i (pre ++ mid' ++ post) zsl' := by
  intro front back hsplit hfront
  rw [append_assoc] at hsplit
  have hnodup1 : ((pre ++ (mid' ++ post)).map addr).Nodup := by
    rw [← append_assoc]
    exact hnodup
  rcases append_eq_append_iff.mp hsplit with ⟨b, hfb, hrest⟩ | ⟨a, hpa, hback⟩
  · by_cases hb : b = []
    · -- The place is the end of the first part.
      subst hb
      rw [append_nil] at hfb
      rw [nil_append] at hrest
      subst hfb
      have hps : p = front :=
        reaches_unique (by rw [append_nil]; exact hpre.symm) hp hs hfront (low_nil i)
      rw [← hps, hupdate]
      have hsnil : s = [] := by
        rw [← hps] at hpre
        exact self_eq_append_right.mp hpre
      rw [hsnil, nil_append, ← hrest]
    · have hreach : Reaches i b := (reaches_append pre hb).mp (hfb ▸ hfront)
      rw [hfb, lastPlace_append pre hb]
      rcases append_eq_append_iff.mp hrest with ⟨q, hbq, hpost⟩ | ⟨r, hmr, hbr⟩
      · by_cases hq : q = []
        · subst hq
          rw [append_nil] at hbq
          subst hbq
          have hown := hmid b [] (append_nil b).symm hb hreach
          rw [hown, hpost]
          rfl
        · -- A place in the last part.
          rw [hbq, lastPlace_append mid' hq]
          have hreachq : Reaches i q := (reaches_append mid' hq).mp (hbq ▸ hreach)
          rcases lastPlace_mem hq with ⟨c, hc, hplace⟩
          have hcpost : c ∈ post := by
            rw [hpost]
            exact mem_append_left _ hc
          have hold := h (pre ++ mid ++ q) back
            (by rw [hpost, append_assoc (pre ++ mid)])
            ((reaches_append (pre ++ mid) hq).mpr hreachq)
          rw [lastPlace_append (pre ++ mid) hq] at hold
          rw [← hold]
          apply hframe
          · rw [hplace]
            intro heq
            by_cases hpnil : p = []
            · rw [hpnil] at heq
              cases heq
            rcases lastPlace_mem hpnil with ⟨d, hd, hdplace⟩
            rw [hdplace] at heq
            injection heq with haddr
            refine addr_ne hnodup1 (c := d) (d := c) ?_ ?_ haddr.symm
            · rw [hpre]
              exact mem_append_left _ hd
            · exact mem_append_right _ hcpost
          · intro d hd heq
            rw [hplace] at heq
            injection heq with haddr
            have hnodup2 : ((mid' ++ post).map addr).Nodup := by
              rw [map_append] at hnodup1
              exact (nodup_append.mp hnodup1).right.left
            exact addr_ne hnodup2 hd hcpost haddr.symm
      · have hown := hmid b r hmr hb hreach
        rw [hown, hbr]
  · by_cases hlow : Low i a
    · have hps : p = front := reaches_unique (hpre.symm.trans hpa) hp hs hfront hlow
      have has : s = a := by
        rw [hpre, ← hps] at hpa
        exact append_cancel_left hpa
      rw [← hps, hupdate, hback, ← has, append_assoc]
    · have hold := h front (a ++ (mid ++ post)) (by rw [hpa, append_assoc, append_assoc]) hfront
      rw [hback, jump_append_of_not_low hlow (mid' ++ post) (mid ++ post), ← hold]
      apply hframe
      · intro heq
        apply hlow
        have hnodup2 : ((front ++ a).map addr).Nodup := by
          rw [← hpa]
          rw [map_append] at hnodup1
          exact (nodup_append.mp hnodup1).left
        have hfp := eq_of_lastPlace (hpa.symm.trans hpre) hnodup2 heq
        rw [hpre, hfp] at hpa
        rw [← append_cancel_left hpa]
        exact hs
      · intro c hc heq
        rcases lastPlace_node heq with ⟨d, hd, haddr⟩
        refine addr_ne hnodup1 (c := d) (d := c) ?_ ?_ haddr
        · rw [hpa]
          exact mem_append_left _ hd
        · exact mem_append_left _ hc

/-!
# The rounds of the loops over the levels
-/

structure Frame (i : Nat) (zsl zsl' : Zskiplist score ele) : Prop where
  same : SameData zsl zsl'
  other : forall j, j ≠ i -> SameLevel j zsl zsl'

theorem frame_putLevel (zsl : Zskiplist score ele) (x : ZslPlace) (i : Nat)
    (l : ZskiplistLevel) : Frame i zsl (zsl.putLevel x i l) := by
  constructor
  · refine ⟨dataAt_putLevel zsl x i l, ?_, ?_, ?_, ?_⟩ <;> cases x <;> rfl
  · exact fun _ hj y => levelAt_putLevel_of_ne zsl x i l (y := y) (Or.inr hj)

theorem Frame.trans (h12 : Frame i z1 z2) (h23 : Frame i z2 z3) : Frame i z1 z3 :=
  ⟨h12.same.trans h23.same, fun j hj y => (h23.other j hj y).trans (h12.other j hj y)⟩

structure Stop (i : Nat) (pre : List (Cell (score × ele))) (found : Found)
    (p s : List (Cell (score × ele))) : Prop where
  split : pre = p ++ s
  reaches : Reaches i p
  low : Low i s
  update : found.update i = lastPlace p
  rank : found.rank i = p.length

theorem forLevels_rounds {Q : Nat -> Zskiplist score ele -> Prop}
    {body : Nat -> Zskiplist score ele -> Except ZslCrash (Zskiplist score ele)} {start : Nat}
    (count : Nat) (hstable : forall i z z', Q i z -> SameLevel i z z' -> Q i z')
    (hbody : forall i, start ≤ i -> i < start + count -> forall z, SameData zsl z ->
      SameLevel i zsl z -> exists z', body i z = .ok z' ∧ Frame i z z' ∧ Q i z') :
    exists z', forLevels body start count zsl = .ok z' ∧ SameData zsl z' ∧
      (forall j, start ≤ j -> j < start + count -> Q j z') ∧
      forall j, j < start ∨ start + count ≤ j -> SameLevel j zsl z' := by
  induction count with
  | zero =>
    refine ⟨zsl, rfl, SameData.refl zsl, ?_, fun j _ y => rfl⟩
    intro j hj hlt
    exact absurd hlt (by lia)
  | succ count ih =>
    rcases ih (fun i hi hlt => hbody i hi (by lia)) with ⟨z, hrun, hsame, hdone, hother⟩
    rcases hbody (start + count) (by lia) (by lia) z hsame (hother _ (by lia)) with
      ⟨z', hround, hframe, hown⟩
    refine ⟨z', ?_, hsame.trans hframe.same, ?_, ?_⟩
    · simp only [forLevels, bind, Except.bind, hrun, hround]
    · intro j hj hlt
      by_cases hlast : j = start + count
      · rw [hlast]
        exact hown
      · exact hstable j z z' (hdone j hj (by lia)) (hframe.other j hlast)
    · intro j hj y
      rw [hframe.other j (by lia) y]
      exact hother j (by lia) y

section Rounds

variable {i : Nat} {pre post p s : List (Cell (score × ele))} {found : Found}
  {zsl : Zskiplist score ele} {c : Cell (score × ele)}

section

variable (hstop : Stop i pre found p s)
include hstop

theorem crossed_eq (hrank : found.rank 0 = pre.length) (hsmall : pre.length < 2 ^ 32) :
    crossed found i = s.length := by
  have hlength : pre.length = p.length + s.length := by
    rw [hstop.split, length_append]
  unfold crossed uiSub
  have hp : p.length % 2 ^ 32 = p.length := Nat.mod_eq_of_lt (by lia)
  rw [hrank, hstop.rank, Nat.mod_eq_of_lt hsmall, hp]
  have hadd : pre.length + 2 ^ 32 - p.length = s.length + 2 ^ 32 := by lia
  rw [hadd, Nat.add_mod_right]
  exact Nat.mod_eq_of_lt (by lia)

theorem Stop.rest_le : s.length ≤ pre.length := by
  rw [hstop.split, length_append]
  lia

theorem Stop.place_ne (hnodup : ((pre ++ [c] ++ post).map addr).Nodup) :
    lastPlace p ≠ .node c.addr := by
  intro heq
  rcases lastPlace_node heq with ⟨d, hd, haddr⟩
  rw [append_assoc] at hnodup
  refine addr_ne hnodup (c := d) (d := c) ?_ (by simp) haddr
  rw [hstop.split]
  exact mem_append_left _ hd

theorem Stop.levelAt (h : Lane i (pre ++ mid ++ post) zsl) :
    zsl.levelAt (found.update i) i =
      .ok ⟨(jump i (mid ++ post)).1, s.length + (jump i (mid ++ post)).2⟩ := by
  have hlane := h p (s ++ (mid ++ post))
    (by rw [hstop.split]; simp only [append_assoc]) hstop.reaches
  rw [hstop.update, hlane, jump_append_of_low hstop.low]
  rfl

theorem link_lane (h : Lane i (pre ++ [] ++ post) zsl) (hrank : found.rank 0 = pre.length)
    (hsmall : (pre ++ post).length + 1 < 2 ^ 32)
    (hnodup : ((pre ++ [c] ++ post).map addr).Nodup) (hi : i < c.height)
    (hnew : exists l, zsl.levelAt (.node c.addr) i = .ok l) :
    exists zsl', link c.addr found i zsl = .ok zsl' ∧ Frame i zsl zsl' ∧
      Lane i (pre ++ [c] ++ post) zsl' := by
  rcases hnew with ⟨l0, hl0⟩
  rw [length_append] at hsmall
  have hcrossed := crossed_eq hstop hrank (by lia)
  have hs := hstop.rest_le
  have hspan := jump_span_le i post
  have hlevel := hstop.levelAt h
  rw [nil_append] at hlevel
  have hne := hstop.place_ne hnodup
  have hsub : ulSub (s.length + (jump i post).2) s.length = (jump i post).2 := by
    rw [ulSub_eq (Nat.le_add_right _ _) (by lia), Nat.add_sub_cancel_left]
  have hmod : (s.length + 1) % 2 ^ 32 = s.length + 1 := Nat.mod_eq_of_lt (by lia)
  have hlevel' : (zsl.putLevel (.node c.addr) i (toLevel (jump i post))).levelAt
      (found.update i) i = .ok ⟨(jump i post).1, s.length + (jump i post).2⟩ := by
    rw [levelAt_putLevel_of_ne _ _ _ _ (Or.inl (by rw [hstop.update]; exact hne)), hlevel]
  refine ⟨(zsl.putLevel (.node c.addr) i (toLevel (jump i post))).putLevel
    (found.update i) i ⟨some c.addr, s.length + 1⟩, ?_, ?_, ?_⟩
  · unfold link
    rw [hlevel, hcrossed, hmod]
    dsimp only [bind, Except.bind]
    rw [hsub, setLevel_ok _ hl0]
    exact setLevel_ok _ hlevel'
  · exact (frame_putLevel zsl _ i _).trans (frame_putLevel _ _ i _)
  · refine h.replace hstop.split hstop.reaches hstop.low hnodup ?_ ?_ ?_
    · intro y hy hyc
      rw [levelAt_putLevel_of_ne _ _ _ _ (Or.inl (by rw [hstop.update]; exact hy)),
        levelAt_putLevel_of_ne _ _ _ _ (Or.inl (hyc c (by simp)))]
    · rw [← hstop.update, levelAt_putLevel_same _ hlevel', append_assoc,
        singleton_append, jump_split hstop.low hi]
      rfl
    · intro q r hqr hq hreach
      have hqc : q = [c] ∧ r = [] := by
        rcases append_eq_singleton_iff.mp hqr.symm with ⟨hnil, _⟩ | hsingle
        · exact absurd hnil hq
        · exact hsingle
      rw [hqc.left, hqc.right]
      rw [nil_append]
      have hplace : lastPlace [c] = .node c.addr := lastPlace_concat [] c
      rw [hplace, levelAt_putLevel_of_ne _ _ _ _ (Or.inl (by rw [hstop.update]; exact hne.symm))]
      exact levelAt_putLevel_same _ hl0

end

theorem low_singleton (hi : c.height ≤ i) : Low i [c] := by
  intro d hd
  rw [mem_singleton] at hd
  rw [hd]
  exact hi

theorem not_reaches_singleton (hi : c.height ≤ i) : Not (Reaches i [c]) := by
  intro h
  have hnil := nil_of_reaches (r := []) h (low_singleton hi)
  cases hnil

theorem bump_lane (hstop : Stop i pre found p s) (h : Lane i (pre ++ [] ++ post) zsl)
    (hsmall : (pre ++ post).length + 1 < 2 ^ 32)
    (hnodup : ((pre ++ [c] ++ post).map addr).Nodup) (hi : c.height ≤ i) :
    exists zsl', bump found i zsl = .ok zsl' ∧ Frame i zsl zsl' ∧
      Lane i (pre ++ [c] ++ post) zsl' := by
  rw [length_append] at hsmall
  have hs := hstop.rest_le
  have hspan := jump_span_le i post
  have hlevel := hstop.levelAt h
  rw [nil_append] at hlevel
  have hadd : ulAdd (s.length + (jump i post).2) 1 = s.length + (jump i post).2 + 1 :=
    ulAdd_eq (by lia)
  have hlow := low_singleton hi
  refine ⟨zsl.putLevel (found.update i) i
    ⟨(jump i post).1, s.length + (jump i post).2 + 1⟩, ?_, frame_putLevel zsl _ i _, ?_⟩
  · unfold bump
    rw [hlevel]
    dsimp only [bind, Except.bind]
    rw [hadd, setLevel_ok _ hlevel]
  · refine h.replace hstop.split hstop.reaches hstop.low hnodup ?_ ?_ ?_
    · intro y hy _
      exact levelAt_putLevel_of_ne _ _ _ _ (Or.inl (by rw [hstop.update]; exact hy))
    · rw [← hstop.update, levelAt_putLevel_same _ hlevel,
        jump_append_of_low (low_append.mpr ⟨hstop.low, hlow⟩), length_append,
        length_singleton]
      unfold toLevel
      congr 2
      lia
    · intro q r hqr hq hreach
      exfalso
      rcases append_eq_singleton_iff.mp hqr.symm with ⟨hnil, _⟩ | ⟨hqc, _⟩
      · exact hq hnil
      · rw [hqc] at hreach
        exact not_reaches_singleton hi hreach

theorem jump_ne_addr (hnodup : (([c] ++ post).map addr).Nodup) : (jump i post).1 ≠ some c.addr := by
  rcases low_or_split i post with hlow | ⟨front, d, rest, hsplit, hfront, hd⟩
  · rw [jump_of_low hlow]
    exact fun h => nomatch h
  rw [hsplit, jump_split hfront hd]
  intro heq
  injection heq with haddr
  refine addr_ne hnodup (c := c) (d := d) (by simp) ?_ haddr.symm
  rw [hsplit]
  simp

theorem unlink_lane (hstop : Stop i pre found p s) (h : Lane i (pre ++ [c] ++ post) zsl)
    (hsmall : (pre ++ [c] ++ post).length < 2 ^ 32)
    (hnodup : ((pre ++ [c] ++ post).map addr).Nodup) :
    exists zsl', unlink c.addr found i zsl = .ok zsl' ∧ Frame i zsl zsl' ∧
      Lane i (pre ++ [] ++ post) zsl' ∧
      zsl'.levelAt (.node c.addr) i = zsl.levelAt (.node c.addr) i := by
  rw [length_append, length_append, length_singleton] at hsmall
  have hs := hstop.rest_le
  have hspan := jump_span_le i post
  have hlevel := hstop.levelAt h
  have hnodup' : ((pre ++ [] ++ post).map addr).Nodup := by
    refine List.Nodup.sublist ?_ hnodup
    apply List.Sublist.map
    exact append (append_left (nil_sublist _) pre) (refl post)
  have hnodupc : (([c] ++ post).map addr).Nodup := by
    rw [append_assoc, map_append] at hnodup
    exact (nodup_append.mp hnodup).right.left
  -- In both branches the new link crosses what is left.
  have hround : unlink c.addr found i zsl = .ok (zsl.putLevel (found.update i) i
      ⟨(jump i post).1, s.length + (jump i post).2⟩) := by
    unfold unlink
    by_cases hi : i < c.height
    · rw [singleton_append, jump_cons_of_lt hi] at hlevel
      have hown := h (pre ++ [c]) post rfl (Or.inr ⟨pre, c, rfl, hi⟩)
      rw [lastPlace_concat] at hown
      rw [hlevel]
      dsimp only [bind, Except.bind]
      rw [if_pos rfl, hown]
      dsimp only [toLevel]
      rw [ulAdd_ulSub_one (by lia) (by lia), setLevel_ok _ hlevel]
      congr 3
      lia
    · have hlow := low_singleton (Nat.not_lt.mp hi)
      rw [jump_append_of_low hlow] at hlevel
      rw [hlevel]
      dsimp only [bind, Except.bind]
      rw [if_neg (jump_ne_addr hnodupc), length_singleton,
        ulSub_eq (by lia) (by lia), setLevel_ok _ hlevel]
      congr 3
      lia
  refine ⟨_, hround, frame_putLevel zsl _ i _, ?_, levelAt_putLevel_of_ne _ _ _ _
    (Or.inl (by rw [hstop.update]; exact (hstop.place_ne hnodup).symm))⟩
  refine h.replace hstop.split hstop.reaches hstop.low hnodup' ?_ ?_ ?_
  · intro y hy _
    exact levelAt_putLevel_of_ne _ _ _ _ (Or.inl (by rw [hstop.update]; exact hy))
  · rw [← hstop.update, levelAt_putLevel_same _ hlevel, append_nil, jump_append_of_low hstop.low]
    rfl
  · intro q r hqr hq
    exact absurd (append_eq_nil_iff.mp hqr.symm).left hq

end Rounds

end Zskiplist
end Redisoo
