import Redisoo.Streams.ConsumerGroup
import Mathlib.Data.List.Nodup

/-!
# Pending entries

The table of a group and the tables of its consumers share their records.  The invariant
follows the pointers in both directions: from a key of the group to the record, its owner
and the owner's table, and from a key of a consumer back to the group.
-/

namespace Redisoo
namespace Streams

open Foundation StreamCG
open Foundation.Table List

/-!
# Views of a group
-/

variable {x b owner i : Nat}

namespace StreamCG

def nameOf (cg : StreamCG) (consumer : Nat) : Option Sds :=
  (cg.consumerAt consumer).map (·.name)

def held (cg : StreamCG) (consumer key : Nat) : Option Nat :=
  (cg.consumerAt consumer).bind (·.pel[key]?)

structure Names (cg : StreamCG) : Prop where
  listed : forall (name : Sds) (c : Nat), cg.consumers[name]? = some c <-> cg.nameOf c = some name
  fresh : forall c, cg.next ≤ c -> cg.consumerAt c = none

structure Inv (cg : StreamCG) : Prop extends Names cg where
  owned : forall (key a : Nat), cg.pel[key]? = some a -> exists n c,
    cg.nackAt a = some n ∧ n.consumer = some c ∧ cg.held c key = some a
  back : forall (c key a : Nat), cg.held c key = some a ->
    cg.pel[key]? = some a ∧ exists n, cg.nackAt a = some n ∧ n.consumer = some c
  apart : forall (key key' a : Nat), cg.pel[key]? = some a -> cg.pel[key']? = some a -> key = key'
  freshNack : forall a, cg.next ≤ a -> cg.nackAt a = none

variable {cg cg' : StreamCG} {a c count key : Nat} {name : Sds} {time : Int}

theorem apply_eq_ite {domain value : Type} [DecidableEq domain] {f : domain -> value} {k : domain}
    {v : value} (h : f k = v) (x : domain) : f x = if x = k then v else f x := by
  by_cases hx : x = k
  · rw [if_pos hx, hx, h]
  · rw [if_neg hx]

theorem nameOf_of_held (h : cg.held c key = some a) : exists name, cg.nameOf c = some name := by
  unfold held at h
  rcases Option.bind_eq_some_iff.mp h with ⟨consumer, hc, _⟩
  exact ⟨consumer.name, by rw [nameOf, hc]; rfl⟩

theorem held_eq {consumer : StreamConsumer} (hc : cg.consumerAt c = some consumer) (key : Nat) :
    cg.held c key = consumer.pel[key]? := by
  rw [held, hc]
  rfl

theorem consumerAt_of_nameOf (h : cg.nameOf c = some name) :
    exists consumer, cg.consumerAt c = some consumer ∧ consumer.name = name :=
  Option.map_eq_some_iff.mp h

theorem nameOf_put (cg : StreamCG) {v : Option StreamConsumer}
    (h : cg'.consumerAt = put cg.consumerAt c v) (y : Nat) :
    cg'.nameOf y = if y = c then v.map (·.name) else cg.nameOf y := by
  unfold nameOf
  rw [h]
  exact apply_ite (Option.map _) _ _ _

theorem held_put (cg : StreamCG) {v : Option StreamConsumer}
    (h : cg'.consumerAt = put cg.consumerAt c v) (y x : Nat) :
    cg'.held y x = if y = c then v.bind (·.pel[x]?) else cg.held y x := by
  unfold held
  rw [h]
  exact apply_ite (Option.bind · _) _ _ _

structure Edited (cg cg' : StreamCG) (c key : Nat) (v : Option Nat) : Prop where
  lastId : cg'.lastId = cg.lastId
  pel : cg'.pel = cg.pel
  consumers : cg'.consumers = cg.consumers
  nackAt : cg'.nackAt = cg.nackAt
  next : cg'.next = cg.next
  name : forall y, cg'.nameOf y = cg.nameOf y
  held : forall y x, cg'.held y x = if y = c ∧ x = key then v else cg.held y x

theorem editPel_edited {v : Option Nat} {f : Std.TreeMap Nat Nat -> Std.TreeMap Nat Nat}
    (hlive : cg.nameOf c = some name)
    (hf : forall t x, t[key]? = cg.held c key -> (f t)[x]? = if x = key then v else t[x]?) :
    exists cg', cg.editPel c f = .ok cg' ∧ Edited cg cg' c key v := by
  rcases consumerAt_of_nameOf hlive with ⟨consumer, hc, hname⟩
  refine ⟨{ cg with
    consumerAt := put cg.consumerAt c (some { consumer with pel := f consumer.pel }) }, ?_, ?_⟩
  · unfold editPel
    rw [hc]
  refine ⟨rfl, rfl, rfl, rfl, rfl, ?_, ?_⟩
  · intro y
    rw [nameOf_put cg rfl]
    exact (apply_eq_ite (by rw [nameOf, hc]; rfl) y).symm
  · intro y x
    rw [held_put cg rfl]
    by_cases hy : y = c
    · rw [if_pos hy, hy, held_eq hc]
      change (f consumer.pel)[x]? = _
      rw [hf _ _ (held_eq hc key).symm]
      simp only [true_and]
    · rw [if_neg hy, if_neg (fun h => hy h.left)]

theorem editPel_erase (key : Nat) (hlive : cg.nameOf c = some name) :
    exists cg', cg.editPel c (·.erase key) = .ok cg' ∧ Edited cg cg' c key none :=
  editPel_edited hlive fun t x _ => get_erase t key x

theorem editPel_insert (key a : Nat) (hlive : cg.nameOf c = some name) :
    exists cg', cg.editPel c (·.insert key a) = .ok cg' ∧ Edited cg cg' c key (some a) :=
  editPel_edited hlive fun t x _ => get_insert t key x a

theorem editPel_insertIfNew (key a : Nat) (hlive : cg.nameOf c = some name) :
    exists cg', cg.editPel c (·.insertIfNew key a) = .ok cg' ∧
      Edited cg cg' c key (some ((cg.held c key).getD a)) :=
  editPel_edited hlive fun t x ht => by rw [get_insertIfNew, ht]

/-!
# Finding a consumer
-/

theorem Names.listed_update (hnames : cg.Names)
    (hconsumers : forall x : Sds, cg'.consumers[x]? = if x = name then some c else cg.consumers[x]?)
    (hnameOf : forall y, cg'.nameOf y = if y = c then some name else cg.nameOf y)
    (hconsumer : cg.consumers[name]? = some c ∨ cg.consumers[name]? = none ∧ cg.consumerAt c = none)
    (x : Sds) (y : Nat) : cg'.consumers[x]? = some y <-> cg'.nameOf y = some x := by
  rw [hconsumers, hnameOf]
  have hold : cg.nameOf c = some x -> x = name := by
    intro hc
    rcases hconsumer with hold | ⟨_, hnone⟩
    · rw [(hnames.listed name c).mp hold] at hc
      exact (Option.some.inj hc).symm
    · rw [nameOf, hnone] at hc
      cases hc
  have hname : cg.consumers[name]? = some y -> y = c := by
    intro hy
    rcases hconsumer with hold | ⟨hnone, _⟩
    · rw [hold] at hy
      exact (Option.some.inj hy).symm
    · rw [hnone] at hy
      cases hy
  by_cases hx : x = name
  · rw [if_pos hx]
    by_cases hy : y = c
    · rw [if_pos hy, hx, hy]
      exact ⟨fun _ => rfl, fun _ => rfl⟩
    rw [if_neg hy]
    constructor
    · intro heq
      exact absurd (Option.some.inj heq).symm hy
    · intro hyname
      rw [hx] at hyname
      exact absurd (hname ((hnames.listed name y).mpr hyname)) hy
  · rw [if_neg hx]
    by_cases hy : y = c
    · rw [if_pos hy]
      constructor
      · intro hc
        rw [hy] at hc
        exact absurd (hold ((hnames.listed x c).mp hc)) hx
      · intro heq
        exact absurd (Option.some.inj heq).symm hx
    · rw [if_neg hy]
      exact hnames.listed x y

structure Looked (cg cg' : StreamCG) (name : Sds) (c : Nat) : Prop where
  lastId : cg'.lastId = cg.lastId
  pel : cg'.pel = cg.pel
  nackAt : cg'.nackAt = cg.nackAt
  consumers : forall x : Sds, cg'.consumers[x]? = if x = name then some c else cg.consumers[x]?
  nameOf : forall y, cg'.nameOf y = if y = c then some name else cg.nameOf y
  held : forall y x, cg'.held y x = cg.held y x
  consumer : cg.consumers[name]? = some c ∨
    cg.consumers[name]? = none ∧ cg.consumerAt c = none
  fresh : forall y, cg'.next ≤ y -> cg'.consumerAt y = none
  next : cg.next ≤ cg'.next

theorem lookup_looked (hnames : cg.Names) (name : Sds) :
    Looked cg (streamLookupConsumer cg name).2 name (streamLookupConsumer cg name).1 := by
  unfold streamLookupConsumer
  cases hc : cg.consumers[name]? with
  | some c =>
    have hname := (hnames.listed name c).mp hc
    exact ⟨rfl, rfl, rfl, fun x => apply_eq_ite hc x, fun y => apply_eq_ite hname y,
      fun y x => rfl, .inl hc, hnames.fresh, Nat.le_refl _⟩
  | none =>
    dsimp only
    have hfree := hnames.fresh cg.next (Nat.le_refl _)
    refine ⟨rfl, rfl, rfl, fun x => get_insert _ _ _ _, ?_, ?_, .inr ⟨hc, hfree⟩, ?_, Nat.le_succ _⟩
    · intro y
      rw [nameOf_put cg rfl]
      rfl
    · intro y x
      rw [held_put cg rfl]
      by_cases hy : y = cg.next
      · rw [if_pos hy, hy, held, hfree]
        exact Std.TreeMap.getElem?_emptyc
      · rw [if_neg hy]
    · intro y hy
      change cg.next + 1 ≤ y at hy
      change put cg.consumerAt cg.next _ y = none
      rw [put_ne (by lia)]
      exact hnames.fresh y (by lia)

theorem Looked.live (h : Looked cg cg' name c) : cg'.nameOf c = some name := by
  rw [h.nameOf, if_pos rfl]

theorem Looked.inv (h : Looked cg cg' name c) (hinv : cg.Inv) : cg'.Inv := by
  refine ⟨⟨hinv.listed_update h.consumers h.nameOf h.consumer, h.fresh⟩, ?_, ?_, ?_, ?_⟩
  · intro key a ha
    rw [h.pel] at ha
    rcases hinv.owned key a ha with ⟨n, y, hn, hy, hheld⟩
    exact ⟨n, y, by rw [h.nackAt, hn], hy, by rw [h.held, hheld]⟩
  · intro y key a ha
    rw [h.held] at ha
    rw [h.pel, h.nackAt]
    exact hinv.back y key a ha
  · intro key key' a ha ha'
    rw [h.pel] at ha ha'
    exact hinv.apart key key' a ha ha'
  · intro a ha
    rw [h.nackAt]
    exact hinv.freshNack a (Nat.le_trans h.next ha)

/-!
# Assigning an entry
-/

structure Assigned (cg cg' : StreamCG) (key a c : Nat) (name : Sds) (time : Int)
    (count : Nat) : Prop where
  lastId : cg'.lastId = cg.lastId
  pel : forall x : Nat, cg'.pel[x]? = if x = key then some a else cg.pel[x]?
  consumers : forall x : Sds, cg'.consumers[x]? = if x = name then some c else cg.consumers[x]?
  nackAt : forall b, cg'.nackAt b = if b = a then some ⟨time, count, some c⟩ else cg.nackAt b
  nameOf : forall y, cg'.nameOf y = if y = c then some name else cg.nameOf y
  held : forall y x, cg'.held y x =
    if x = key then (if y = c then some a else none) else cg.held y x
  consumer : cg.consumers[name]? = some c ∨
    cg.consumers[name]? = none ∧ cg.consumerAt c = none
  record : cg.pel[key]? = some a ∨ cg.pel[key]? = none ∧ cg.nackAt a = none
  fresh : forall y, cg'.next ≤ y -> cg'.consumerAt y = none
  freshNack : forall b, cg'.next ≤ b -> cg'.nackAt b = none

theorem Assigned.other (h : Assigned cg cg' key a c name time count) (hinv : cg.Inv)
    (hx : x ≠ key) (hb : cg.pel[x]? = some b) : b ≠ a := by
  rintro rfl
  rcases h.record with hold | ⟨_, hnone⟩
  · exact hx (hinv.apart x key b hb hold)
  · rcases hinv.owned x b hb with ⟨n, _, hn, _⟩
    rw [hnone] at hn
    cases hn

theorem Assigned.inv (h : Assigned cg cg' key a c name time count) (hinv : cg.Inv) : cg'.Inv := by
  have hpel : forall x b, cg'.pel[x]? = some b ->
      x = key ∧ b = a ∨ x ≠ key ∧ b ≠ a ∧ cg.pel[x]? = some b := by
    intro x b hb
    rw [h.pel] at hb
    split at hb
    · next hx => exact .inl ⟨hx, (Option.some.inj hb).symm⟩
    · next hx => exact .inr ⟨hx, h.other hinv hx hb, hb⟩
  refine ⟨⟨hinv.listed_update h.consumers h.nameOf h.consumer, h.fresh⟩, ?_, ?_, ?_, h.freshNack⟩
  · intro x b hb
    rcases hpel x b hb with ⟨hx, rfl⟩ | ⟨hx, hne, hb⟩
    · exact ⟨_, c, by rw [h.nackAt, if_pos rfl], rfl, by rw [h.held, if_pos hx, if_pos rfl]⟩
    · rcases hinv.owned x b hb with ⟨n, y, hn, hy, hheld⟩
      exact ⟨n, y, by rw [h.nackAt, if_neg hne, hn], hy, by rw [h.held, if_neg hx, hheld]⟩
  · intro y x b hb
    rw [h.held] at hb
    by_cases hx : x = key
    · rw [if_pos hx] at hb
      by_cases hy : y = c
      · rw [if_pos hy] at hb
        cases hb
        exact ⟨by rw [h.pel, if_pos hx], _, by rw [h.nackAt, if_pos rfl], by rw [hy]⟩
      · rw [if_neg hy] at hb
        cases hb
    · rw [if_neg hx] at hb
      rcases hinv.back y x b hb with ⟨hold, n, hn, hy⟩
      exact ⟨by rw [h.pel, if_neg hx, hold], n,
        by rw [h.nackAt, if_neg (h.other hinv hx hold), hn], hy⟩
  · intro x x' b hb hb'
    rcases hpel x b hb with ⟨hx, hba⟩ | ⟨_, hne, hb⟩ <;>
      rcases hpel x' b hb' with ⟨hx', hba'⟩ | ⟨_, hne', hb'⟩
    · rw [hx, hx']
    · exact absurd hba hne'
    · exact absurd hba' hne
    · exact hinv.apart x x' b hb hb'

theorem Inv.held_none (hinv : cg.Inv) (h : cg.pel[key]? = none) (y : Nat) :
    cg.held y key = none := by
  cases hy : cg.held y key with
  | none => rfl
  | some a =>
    rw [(hinv.back y key a hy).left] at h
    cases h

variable {y : Nat} {n : StreamNACK}

theorem Inv.held_owner (hinv : cg.Inv) (h : cg.pel[key]? = some a) (hn : cg.nackAt a = some n)
    (howner : n.consumer = some owner) (hy : y ≠ owner) :
    cg.held y key = none := by
  cases hheld : cg.held y key with
  | none => rfl
  | some b =>
    rcases hinv.back y key b hheld with ⟨hb, n', hn', hc⟩
    rw [h] at hb
    cases hb
    rw [hn] at hn'
    cases hn'
    rw [howner] at hc
    exact absurd (Option.some.inj hc).symm hy

theorem Inv.held_erased (hinv : cg.Inv) (h : cg.pel[key]? = some a) (hn : cg.nackAt a = some n)
    (howner : n.consumer = some owner) (y x : Nat) :
    (if y = owner ∧ x = key then none else cg.held y x) =
      if x = key then none else cg.held y x := by
  by_cases hx : x = key
  · rw [if_pos hx]
    by_cases hy : y = owner
    · rw [if_pos ⟨hy, hx⟩]
    · rw [if_neg (fun h => hy h.left), hx]
      exact hinv.held_owner h hn howner hy
  · rw [if_neg (fun h => hx h.right), if_neg hx]

theorem consumerAt_none : cg.nameOf y = none <-> cg.consumerAt y = none := Option.map_eq_none_iff

theorem Edited.consumerAt_none {v : Option Nat} (h : Edited cg cg' c key v) :
    cg'.consumerAt y = none <-> cg.consumerAt y = none := by
  rw [← StreamCG.consumerAt_none, ← StreamCG.consumerAt_none, h.name]

theorem Inv.nack_lt (hinv : cg.Inv) (h : cg.nackAt a = some n) : a < cg.next := by
  rcases Nat.lt_or_ge a cg.next with hlt | hge
  · exact hlt
  · rw [hinv.freshNack a hge] at h
    cases h

theorem reassignPending_assigned {cg3 : StreamCG} (hinv : cg.Inv) (hlive : cg.nameOf c = some name)
    (hkey : cg.pel[key]? = some a) (now : Int) (hlast : cg3.lastId = cg.lastId)
    (hpel : forall x : Nat, cg3.pel[x]? = cg.pel[x]?) (hconsumers : cg3.consumers = cg.consumers)
    (hnack : cg3.nackAt = cg.nackAt) (hname : forall y, cg3.nameOf y = cg.nameOf y)
    (hheld : forall y x, x ≠ key ∨ y ≠ c -> cg3.held y x = cg.held y x) (hnext : cg.next ≤ cg3.next) :
    exists cg', reassignPending now c key cg3 = .ok (a, cg') ∧
      Assigned cg cg' key a c name now 1 := by
  rcases hinv.owned key a hkey with ⟨n, owner, hn, howner, hhas⟩
  rcases nameOf_of_held hhas with ⟨ownerName, hownerLive⟩
  rcases editPel_erase key ((hname owner).trans hownerLive) with ⟨cg4, h4, e4⟩
  have hlive5 : (cg4.setNack a ⟨now, 1, some c⟩).nameOf c = some name :=
    (e4.name c).trans ((hname c).trans hlive)
  rcases editPel_insert key a hlive5 with ⟨cg6, h6, e6⟩
  have hname6 : forall y, cg6.nameOf y = cg.nameOf y := fun y =>
    (e6.name y).trans ((e4.name y).trans (hname y))
  have hlisted := (hinv.listed name c).mpr hlive
  refine ⟨cg6, ?_, ?_⟩
  · unfold reassignPending nack removeFromOwner
    rw [hpel, hkey]
    simp only [hnack, hn, howner, h4, h6, ok_bind, pure_ok]
  have hnack6 : forall b, cg6.nackAt b = if b = a then some ⟨now, 1, some c⟩ else cg.nackAt b := by
    intro b
    rw [e6.nackAt]
    change put cg4.nackAt a _ b = _
    rw [e4.nackAt, hnack]
    rfl
  have hnext6 : cg6.next = cg3.next := e6.next.trans e4.next
  refine ⟨?_, ?_, ?_, hnack6, ?_, ?_, .inl hlisted, .inl hkey, ?_, ?_⟩
  · exact e6.lastId.trans (e4.lastId.trans hlast)
  · intro x
    rw [e6.pel]
    change cg4.pel[x]? = _
    rw [e4.pel, hpel]
    exact apply_eq_ite hkey x
  · intro x
    rw [e6.consumers]
    change cg4.consumers[x]? = _
    rw [e4.consumers, hconsumers]
    exact apply_eq_ite hlisted x
  · intro y
    rw [hname6]
    exact apply_eq_ite hlive y
  · intro y x
    rw [e6.held]
    change (if y = c ∧ x = key then some a else cg4.held y x) = _
    rw [e4.held]
    by_cases hx : x = key
    · by_cases hy : y = c
      · rw [if_pos ⟨hy, hx⟩, if_pos hx, if_pos hy]
      rw [if_neg (fun h => hy h.left), if_pos hx, if_neg hy]
      by_cases hyo : y = owner
      · rw [if_pos ⟨hyo, hx⟩]
      · rw [if_neg (fun h => hyo h.left), hheld y x (.inr hy), hx]
        exact hinv.held_owner hkey hn howner hyo
    · rw [if_neg (fun h => hx h.right), if_neg (fun h => hx h.right), if_neg hx]
      exact hheld y x (.inl hx)
  · intro y hy
    rw [← consumerAt_none, hname6, consumerAt_none]
    exact hinv.fresh y (by lia)
  · intro b hb
    have ha := hinv.nack_lt hn
    rw [hnack6, if_neg (by lia)]
    exact hinv.freshNack b (by lia)

theorem createPending_assigned (hinv : cg.Inv) (hlive : cg.nameOf c = some name) (now : Int)
    (key : Nat) :
    exists a cg', createPending now c key cg = .ok (a, cg') ∧
      Assigned cg cg' key a c name now 1 := by
  rcases consumerAt_of_nameOf hlive with ⟨consumer, hc, _⟩
  have hlive1 : ({ cg with
      pel := cg.pel.insertIfNew key cg.next
      nackAt := put cg.nackAt cg.next (some ⟨now, 1, some c⟩)
      next := cg.next + 1 } : StreamCG).nameOf c = some name := hlive
  rcases editPel_insertIfNew key cg.next hlive1 with ⟨cg2, h2, e2⟩
  unfold createPending
  simp only [streamCreateNACK, hc, h2, Std.TreeMap.contains_eq_isSome_getElem?, ok_bind]
  rcases Option.eq_none_or_eq_some cg.pel[key]? with hkey | ⟨a, hkey⟩
  · -- a new record, which the consumer cannot hold already
    rw [hkey, ← held_eq hc, hinv.held_none hkey c]
    refine ⟨cg.next, cg2, rfl, ?_⟩
    have hnack2 : forall b, cg2.nackAt b =
        if b = cg.next then some ⟨now, 1, some c⟩ else cg.nackAt b := by
      intro b
      rw [e2.nackAt]
      rfl
    have hlisted := (hinv.listed name c).mpr hlive
    refine ⟨e2.lastId, ?_, ?_, hnack2, ?_, ?_, .inl hlisted,
      .inr ⟨hkey, hinv.freshNack _ (Nat.le_refl _)⟩, ?_, ?_⟩
    · intro x
      rw [e2.pel]
      change (cg.pel.insertIfNew key cg.next)[x]? = _
      rw [get_insertIfNew, hkey]
      rfl
    · intro x
      rw [e2.consumers]
      change cg.consumers[x]? = _
      exact apply_eq_ite hlisted x
    · intro y
      rw [e2.name]
      change cg.nameOf y = _
      exact apply_eq_ite hlive y
    · intro y x
      rw [e2.held]
      change (if y = c ∧ x = key then some ((cg.held c key).getD cg.next) else cg.held y x) = _
      rw [hinv.held_none hkey c]
      by_cases hx : x = key
      · by_cases hy : y = c
        · rw [if_pos ⟨hy, hx⟩, if_pos hx, if_pos hy]
          rfl
        · rw [if_neg (fun h => hy h.left), if_pos hx, if_neg hy, hx]
          exact hinv.held_none hkey y
      · rw [if_neg (fun h => hx h.right), if_neg hx]
    · intro y hy
      rw [e2.consumerAt_none]
      rw [e2.next] at hy
      exact hinv.fresh y (Nat.le_of_succ_le hy)
    · intro b hb
      rw [e2.next] at hb
      change cg.next + 1 ≤ b at hb
      rw [hnack2, if_neg (by lia)]
      exact hinv.freshNack b (by lia)
  · -- the spare record is freed and the old one changes its owner
    have hspare : cg2.nackAt cg.next = some ⟨now, 1, some c⟩ := by
      rw [e2.nackAt]
      exact put_self _ _ _
    have hfree : cg2.freeNack cg.next = .ok { cg2 with nackAt := put cg2.nackAt cg.next none } := by
      unfold freeNack
      rw [hspare]
    rw [hkey]
    simp only [Option.isSome_some, Bool.not_true, Bool.not_false, if_true, hfree]
    obtain ⟨cg', hok, hassigned⟩ : exists cg', reassignPending now c key
        { cg2 with nackAt := put cg2.nackAt cg.next none } = .ok (a, cg') ∧
          Assigned cg cg' key a c name now 1 := reassignPending_assigned hinv hlive hkey now
      e2.lastId
      (by
        intro x
        change cg2.pel[x]? = _
        rw [e2.pel]
        change (cg.pel.insertIfNew key cg.next)[x]? = _
        rw [get_insertIfNew, hkey]
        by_cases hx : x = key
        · rw [if_pos hx, hx, hkey]
          rfl
        · rw [if_neg hx])
      e2.consumers
      (by
        funext b
        change put cg2.nackAt cg.next none b = _
        rw [e2.nackAt]
        by_cases hb : b = cg.next
        · rw [hb, put_self, hinv.freshNack _ (Nat.le_refl _)]
        · rw [put_ne hb]
          exact put_ne hb)
      e2.name
      (by
        intro y x hor
        change cg2.held y x = _
        rw [e2.held, if_neg (fun h => hor.elim (fun hx => hx h.right) (fun hy => hy h.left))]
        rfl)
      (by
        change cg.next ≤ cg2.next
        rw [e2.next]
        exact Nat.le_succ _)
    exact ⟨a, cg', hok, hassigned⟩

theorem Assigned.live (h : Assigned cg cg' key a c name time count) : cg'.nameOf c = some name := by
  rw [h.nameOf, if_pos rfl]

theorem Assigned.propagate (h : Assigned cg cg' key a c name time count) (group : Sds)
    (id : StreamID) :
    streamPropagateXCLAIM cg' group id a =
      .ok (propagatedClaim cg' group name id ⟨time, count, some c⟩) := by
  rcases consumerAt_of_nameOf h.live with ⟨consumer, hc, hname⟩
  unfold streamPropagateXCLAIM nack
  rw [h.nackAt, if_pos rfl]
  simp only [ok_bind, hc, hname]
  rfl

theorem Inv.setLastId (hinv : cg.Inv) (id : StreamID) : StreamCG.Inv { cg with lastId := id } :=
  ⟨⟨hinv.listed, hinv.fresh⟩, hinv.owned, hinv.back, hinv.apart, hinv.freshNack⟩

theorem Inv.raiseLastId (hinv : cg.Inv) (id : StreamID) : (cg.raiseLastId id).Inv := by
  unfold StreamCG.raiseLastId
  split
  · exact hinv.setLastId id
  · exact hinv

theorem nameOf_raiseLastId (cg : StreamCG) (id : StreamID) (y : Nat) :
    (cg.raiseLastId id).nameOf y = cg.nameOf y := by
  unfold raiseLastId
  split
  · rfl
  · rfl

end StreamCG

open StreamCG

/-!
# XREADGROUP
-/

variable {cg : StreamCG} {a c count : Nat} {consumer group name : Sds} {clock : Nat -> Int}
  {noack : Bool} {s : Stream}

theorem deliverEntry_ack (hinv : cg.Inv) (hlive : cg.nameOf c = some name) (now : Int) (group : Sds)
    (id : StreamID) :
    exists a cg', deliverEntry now group c false id cg =
        .ok (cg', [propagatedClaim cg' group name id ⟨now, 1, some c⟩], false) ∧
      Assigned (cg.raiseLastId id) cg' (streamEncodeID id) a c name now 1 := by
  have hlive' := (nameOf_raiseLastId cg id c).trans hlive
  rcases createPending_assigned (hinv.raiseLastId id) hlive' now (streamEncodeID id) with
    ⟨a, cg', hok, hassigned⟩
  refine ⟨a, cg', ?_, hassigned⟩
  unfold deliverEntry
  simp only [hok, hassigned.propagate, ok_bind]
  rfl

variable {ids : List StreamID} {now : Int} {o : ClaimOptions}

theorem deliverLoop_inv (clock : Nat -> Int) (group : Sds) (noack : Bool) (i : Nat)
    (ids : List StreamID) (hinv : cg.Inv) (hlive : cg.nameOf c = some name) :
    exists r, deliverLoop clock group c noack i ids cg = .ok r ∧ r.1.Inv := by
  induction ids generalizing i cg with
  | nil => exact ⟨_, rfl, hinv⟩
  | cons id rest ih =>
    rw [deliverLoop]
    cases noack with
    | true =>
      rcases ih (i + 1) (hinv.raiseLastId id)
        ((nameOf_raiseLastId cg id c).trans hlive) with ⟨r, hr, hrinv⟩
      refine ⟨(r.1, [] ++ r.2.1, decide (streamCompareID id cg.lastId = .gt) || r.2.2), ?_, hrinv⟩
      unfold deliverEntry
      simp only [if_true, ok_bind, pure_ok, hr]
    | false =>
      rcases deliverEntry_ack hinv hlive (clock i) group id with ⟨a, cg', hok, hassigned⟩
      rcases ih (i + 1) (hassigned.inv (hinv.raiseLastId id)) hassigned.live with
        ⟨r, hr, hrinv⟩
      refine ⟨(r.1, [propagatedClaim cg' group name id ⟨clock i, 1, some c⟩] ++ r.2.1,
        false || r.2.2), ?_, hrinv⟩
      simp only [hok, ok_bind, pure_ok, hr]

theorem streamReplyWithRange_inv {start : StreamID} (hinv : cg.Inv)
    (hlive : cg.nameOf c = some name) :
    exists r, streamReplyWithRange clock s start count group c noack cg = .ok r ∧ r.1.Inv := by
  unfold streamReplyWithRange
  rcases deliverLoop_inv clock group noack 0 (limited count (s.idsFrom start)) hinv hlive with
    ⟨r, hr, hrinv⟩
  simp only [hr, ok_bind, pure_ok]
  exact ⟨_, rfl, hrinv⟩

theorem StreamCG.Inv.setNack (hinv : cg.Inv) {n n' : StreamNACK} (hn : cg.nackAt a = some n)
    (hsame : n'.consumer = n.consumer) : (cg.setNack a n').Inv := by
  have hrecord : forall b m, cg.nackAt b = some m ->
      exists m', (cg.setNack a n').nackAt b = some m' ∧ m'.consumer = m.consumer := by
    intro b m hb
    by_cases hba : b = a
    · rw [hba, hn] at hb
      cases hb
      exact ⟨n', by rw [hba]; exact put_self _ _ _, hsame⟩
    · exact ⟨m, (put_ne hba).trans hb, rfl⟩
  refine ⟨⟨hinv.listed, hinv.fresh⟩, ?_, ?_, hinv.apart, ?_⟩
  · intro key b hb
    rcases hinv.owned key b hb with ⟨m, c, hm, hc, hheld⟩
    rcases hrecord b m hm with ⟨m', hm', hcons⟩
    exact ⟨m', c, hm', hcons.trans hc, hheld⟩
  · intro c key b hb
    rcases hinv.back c key b hb with ⟨hpel, m, hm, hc⟩
    rcases hrecord b m hm with ⟨m', hm', hcons⟩
    exact ⟨hpel, m', hm', hcons.trans hc⟩
  · intro b hb
    have ha := hinv.nack_lt hn
    change cg.next ≤ b at hb
    exact (put_ne (by lia)).trans (hinv.freshNack b hb)

theorem historyLoop_inv {l : List (Nat × Nat)} (hinv : cg.Inv)
    (hl : forall key a, (key, a) ∈ l -> exists n, cg.nackAt a = some n) :
    exists cg', historyLoop clock s i l cg = .ok cg' ∧ cg'.Inv := by
  induction l generalizing i cg with
  | nil => exact ⟨cg, rfl, hinv⟩
  | cons e rest ih =>
    rcases e with ⟨key, a⟩
    have hrest : forall key' b, (key', b) ∈ rest -> exists n, cg.nackAt b = some n :=
      fun key' b hb => hl key' b (mem_cons_of_mem _ hb)
    rw [historyLoop]
    split
    · rcases hl key a mem_cons_self with ⟨n, hn⟩
      have hinv1 : (cg.setNack a ⟨clock i, (n.deliveryCount + 1) % 2 ^ 64, n.consumer⟩).Inv :=
        hinv.setNack hn rfl
      have hrest1 : forall key' b, (key', b) ∈ rest -> exists m, (cg.setNack a
          ⟨clock i, (n.deliveryCount + 1) % 2 ^ 64, n.consumer⟩).nackAt b = some m := by
        intro key' b hb
        by_cases hba : b = a
        · exact ⟨_, by rw [hba]; exact put_self _ _ _⟩
        · rcases hrest key' b hb with ⟨m, hm⟩
          exact ⟨m, (put_ne hba).trans hm⟩
      rcases ih (i := i + 1) hinv1 hrest1 with ⟨cg', hok, hinv'⟩
      refine ⟨cg', ?_, hinv'⟩
      unfold nack
      rw [hn]
      exact hok
    · exact ih hinv hrest

theorem mem_limited {A : Type} {xs : List A} {x : A} (h : x ∈ limited count xs) : x ∈ xs := by
  unfold limited at h
  split at h
  · exact h
  · exact mem_of_mem_take h

theorem history_inv (clock : Nat -> Int) (s : Stream) (start : StreamID) (count : Nat)
    (hinv : cg.Inv) (hlive : cg.nameOf c = some name) :
    exists cg', streamReplyWithRangeFromConsumerPEL clock s start count c cg = .ok cg' ∧
      cg'.Inv := by
  rcases consumerAt_of_nameOf hlive with ⟨consumer, hc, _⟩
  unfold streamReplyWithRangeFromConsumerPEL
  rw [hc]
  apply historyLoop_inv hinv
  intro key a hmem
  have hlist := (mem_filter.mp (mem_limited hmem)).left
  rw [Std.TreeMap.mem_toList_iff_getElem?_eq_some] at hlist
  rcases (hinv.back c key a ((held_eq hc key).trans hlist)).right with ⟨n, hn, _⟩
  exact ⟨n, hn⟩

theorem xreadgroup_inv {gt : StreamID} (hinv : cg.Inv) :
    exists r, xreadgroup clock s group consumer gt count noack cg = .ok r ∧ r.1.Inv := by
  have hlooked := lookup_looked hinv.toNames consumer
  unfold xreadgroup
  split
  · rcases history_inv clock s (streamIncrID gt) count (hlooked.inv hinv) hlooked.live with
      ⟨cg', hok, hinv'⟩
    simp only [hok, ok_bind, pure_ok]
    exact ⟨_, rfl, hinv'⟩
  · split
    · exact ⟨_, rfl, hinv⟩
    · split
      · exact streamReplyWithRange_inv (hlooked.inv hinv) hlooked.live
      · exact ⟨_, rfl, hinv⟩

theorem serveBlocked_inv (hinv : cg.Inv) :
    exists r, serveBlocked clock s group consumer count noack cg = .ok r ∧ r.1.Inv := by
  have hlooked := lookup_looked hinv.toNames consumer
  unfold serveBlocked
  split
  · exact streamReplyWithRange_inv (hlooked.inv hinv) hlooked.live
  · exact ⟨_, rfl, hinv⟩

/-!
# XACK
-/

structure StreamCG.Removed (cg cg' : StreamCG) (key a : Nat) : Prop where
  lastId : cg'.lastId = cg.lastId
  pel : forall x : Nat, cg'.pel[x]? = if x = key then none else cg.pel[x]?
  consumers : cg'.consumers = cg.consumers
  nackAt : forall b, cg'.nackAt b = if b = a then none else cg.nackAt b
  nameOf : forall y, cg'.nameOf y = cg.nameOf y
  held : forall y x, cg'.held y x = if x = key then none else cg.held y x
  next : cg'.next = cg.next
  record : cg.pel[key]? = some a

variable {cg' : StreamCG} {key : Nat}

theorem StreamCG.Removed.inv (h : Removed cg cg' key a) (hinv : cg.Inv) : cg'.Inv := by
  have hpel : forall x b, cg'.pel[x]? = some b -> x ≠ key ∧ cg.pel[x]? = some b := by
    intro x b hb
    rw [h.pel] at hb
    split at hb
    · cases hb
    · next hx => exact ⟨hx, hb⟩
  have hother : forall x b, x ≠ key -> cg.pel[x]? = some b -> b ≠ a := by
    rintro x b hx hb rfl
    exact hx (hinv.apart x key b hb h.record)
  refine ⟨⟨?_, ?_⟩, ?_, ?_, ?_, ?_⟩
  · intro x y
    rw [h.consumers, h.nameOf]
    exact hinv.listed x y
  · intro y hy
    rw [← consumerAt_none, h.nameOf, consumerAt_none]
    exact hinv.fresh y (by rw [h.next] at hy; exact hy)
  · intro x b hb
    rcases hpel x b hb with ⟨hx, hb⟩
    rcases hinv.owned x b hb with ⟨n, y, hn, hy, hheld⟩
    exact ⟨n, y, by rw [h.nackAt, if_neg (hother x b hx hb), hn], hy,
      by rw [h.held, if_neg hx, hheld]⟩
  · intro y x b hb
    rw [h.held] at hb
    by_cases hx : x = key
    · rw [if_pos hx] at hb
      cases hb
    rw [if_neg hx] at hb
    rcases hinv.back y x b hb with ⟨hold, n, hn, hy⟩
    exact ⟨by rw [h.pel, if_neg hx, hold], n, by rw [h.nackAt, if_neg (hother x b hx hold), hn], hy⟩
  · intro x x' b hb hb'
    exact hinv.apart x x' b (hpel x b hb).right (hpel x' b hb').right
  · intro b hb
    rw [h.nackAt, hinv.freshNack b (by rw [h.next] at hb; exact hb)]
    split
    · rfl
    · rfl

theorem ackOne_removed (hinv : cg.Inv) (hkey : cg.pel[key]? = some a) :
    exists cg', ackOne cg key = .ok (cg', true) ∧ Removed cg cg' key a := by
  rcases hinv.owned key a hkey with ⟨n, owner, hn, howner, hheld⟩
  rcases nameOf_of_held hheld with ⟨name, hname⟩
  have hlive : ({ cg with pel := cg.pel.erase key } : StreamCG).nameOf owner = some name := hname
  rcases editPel_erase key hlive with ⟨cg2, h2, e2⟩
  have hn2 : cg2.nackAt a = some n := by
    rw [e2.nackAt]
    exact hn
  refine ⟨{ cg2 with nackAt := put cg2.nackAt a none }, ?_, ?_⟩
  · unfold ackOne nack removeFromOwner freeNack
    rw [hkey]
    simp only [hn, howner, h2, hn2, ok_bind, pure_ok]
  refine ⟨e2.lastId, ?_, e2.consumers, ?_, e2.name, ?_, e2.next, hkey⟩
  · intro x
    change cg2.pel[x]? = _
    rw [e2.pel]
    exact get_erase _ _ _
  · intro b
    change put cg2.nackAt a none b = _
    rw [e2.nackAt]
    rfl
  · intro y x
    change cg2.held y x = _
    rw [e2.held]
    exact hinv.held_erased hkey hn howner y x

theorem ackOne_inv (hinv : cg.Inv) (key : Nat) : exists r, ackOne cg key = .ok r ∧ r.1.Inv := by
  rcases Option.eq_none_or_eq_some cg.pel[key]? with hkey | ⟨a, hkey⟩
  · refine ⟨(cg, false), ?_, hinv⟩
    unfold ackOne
    rw [hkey]
  · rcases ackOne_removed hinv hkey with ⟨cg', hok, hremoved⟩
    exact ⟨_, hok, hremoved.inv hinv⟩

theorem ackLoop_inv (ids : List StreamID) (hinv : cg.Inv) :
    exists r, ackLoop ids cg = .ok r ∧ r.1.Inv := by
  induction ids generalizing cg with
  | nil => exact ⟨_, rfl, hinv⟩
  | cons id rest ih =>
    rcases ackOne_inv hinv (streamEncodeID id) with ⟨r, hr, hrinv⟩
    rcases ih hrinv with ⟨r', hr', hrinv'⟩
    refine ⟨(r'.1, r.2 || r'.2), ?_, hrinv'⟩
    rw [ackLoop]
    simp only [hr, hr', ok_bind, pure_ok]

/-!
# XGROUP DELCONSUMER
-/

theorem delLoop_ok {l : List (Nat × Nat)} (hdistinct : (l.map Prod.snd).Nodup)
    (hl : forall key a, (key, a) ∈ l -> exists n, cg.nackAt a = some n) :
    exists cg', delLoop l cg = .ok cg' ∧ cg'.lastId = cg.lastId ∧
      cg'.consumers = cg.consumers ∧ cg'.consumerAt = cg.consumerAt ∧ cg'.next = cg.next ∧
      (forall x : Nat, cg'.pel[x]? = if x ∈ l.map Prod.fst then none else cg.pel[x]?) ∧
      forall b, cg'.nackAt b = if b ∈ l.map Prod.snd then none else cg.nackAt b := by
  induction l generalizing cg with
  | nil => exact ⟨cg, rfl, rfl, rfl, rfl, rfl, fun x => rfl, fun b => rfl⟩
  | cons e rest ih =>
    rcases e with ⟨key, a⟩
    rw [map_cons, nodup_cons] at hdistinct
    rcases hl key a mem_cons_self with ⟨n, hn⟩
    have hl1 : forall key' b, (key', b) ∈ rest -> exists m,
        ({ cg with pel := cg.pel.erase key, nackAt := put cg.nackAt a none } :
          StreamCG).nackAt b = some m := by
      intro key' b hb
      have hba : b ≠ a := by
        rintro rfl
        exact hdistinct.left (mem_map.mpr ⟨(key', b), hb, rfl⟩)
      rcases hl key' b (mem_cons_of_mem _ hb) with ⟨m, hm⟩
      exact ⟨m, (put_ne hba).trans hm⟩
    rcases ih hdistinct.right hl1 with ⟨cg', hok, hlast, hconsumers, hcells, hnext, hpel, hnack⟩
    refine ⟨cg', ?_, hlast, hconsumers, hcells, hnext, ?_, ?_⟩
    · rw [delLoop]
      unfold freeNack
      simp only [hn, ok_bind]
      exact hok
    · intro x
      rw [hpel, map_cons]
      by_cases hx : x = key
      · rw [hx, if_pos mem_cons_self]
        split
        · rfl
        · exact (get_erase _ _ _).trans (if_pos rfl)
      · have hiff : x ∈ key :: rest.map Prod.fst <-> x ∈ rest.map Prod.fst := by
          rw [mem_cons]
          exact ⟨fun h => h.resolve_left hx, .inr⟩
        simp only [hiff, get_erase, if_neg hx]
    · intro b
      rw [hnack, map_cons]
      by_cases hb : b = a
      · rw [hb, if_pos mem_cons_self]
        split
        · rfl
        · exact put_self _ _ _
      · have hiff : b ∈ a :: rest.map Prod.snd <-> b ∈ rest.map Prod.snd := by
          rw [mem_cons]
          exact ⟨fun h => h.resolve_left hb, .inr⟩
        simp only [hiff, put_ne hb]

structure StreamCG.Dropped (cg cg' : StreamCG) (name : Sds) (c : Nat) : Prop where
  lastId : cg'.lastId = cg.lastId
  pel : forall x : Nat, cg'.pel[x]? = if (cg.held c x).isSome then none else cg.pel[x]?
  consumers : forall x : Sds, cg'.consumers[x]? = if x = name then none else cg.consumers[x]?
  nackAt : forall b, (forall x, cg.held c x ≠ some b) -> cg'.nackAt b = cg.nackAt b
  freed : forall b, cg.nackAt b = none -> cg'.nackAt b = none
  nameOf : forall y, cg'.nameOf y = if y = c then none else cg.nameOf y
  held : forall y x, cg'.held y x = if y = c then none else cg.held y x
  next : cg'.next = cg.next
  listed : cg.consumers[name]? = some c

theorem StreamCG.Dropped.inv (h : Dropped cg cg' name c) (hinv : cg.Inv) : cg'.Inv := by
  have hname := (hinv.listed name c).mp h.listed
  -- an entry of another consumer is none of the dropped ones
  have hkeep : forall y x b, y ≠ c -> cg.held y x = some b -> cg.held c x = none ∧
      forall x', cg.held c x' ≠ some b := by
    intro y x b hy hb
    rcases hinv.back y x b hb with ⟨hpel, n, hn, hown⟩
    refine ⟨hinv.held_owner hpel hn hown (Ne.symm hy), ?_⟩
    intro x' hx'
    rcases hinv.back c x' b hx' with ⟨_, n', hn', hown'⟩
    rw [hn] at hn'
    cases hn'
    rw [hown] at hown'
    exact hy (Option.some.inj hown')
  have hpelKeep : forall x b, cg'.pel[x]? = some b -> cg.held c x = none ∧ cg.pel[x]? = some b := by
    intro x b hb
    rw [h.pel] at hb
    split at hb
    · cases hb
    · next hnone => exact ⟨Option.not_isSome_iff_eq_none.mp hnone, hb⟩
  refine ⟨⟨?_, ?_⟩, ?_, ?_, ?_, ?_⟩
  · intro x y
    rw [h.consumers, h.nameOf]
    by_cases hx : x = name
    · rw [if_pos hx]
      by_cases hy : y = c
      · rw [if_pos hy]
        exact ⟨nofun, nofun⟩
      rw [if_neg hy, hx]
      constructor
      · nofun
      intro hyname
      have hlisted := (hinv.listed name y).mpr hyname
      rw [h.listed] at hlisted
      exact absurd (Option.some.inj hlisted).symm hy
    · rw [if_neg hx]
      by_cases hy : y = c
      · rw [if_pos hy, hy]
        constructor
        · intro hc
          rw [(hinv.listed x c).mp hc] at hname
          exact absurd (Option.some.inj hname) hx
        · nofun
      · rw [if_neg hy]
        exact hinv.listed x y
  · intro y hy
    rw [h.next] at hy
    rw [← consumerAt_none, h.nameOf]
    split
    · rfl
    · exact consumerAt_none.mpr (hinv.fresh y hy)
  · intro x b hb
    rcases hpelKeep x b hb with ⟨hnone, hpel⟩
    rcases hinv.owned x b hpel with ⟨n, y, hn, hy, hheld⟩
    have hyc : y ≠ c := by
      rintro rfl
      rw [hnone] at hheld
      cases hheld
    exact ⟨n, y, by rw [h.nackAt b (hkeep y x b hyc hheld).right, hn], hy,
      by rw [h.held, if_neg hyc, hheld]⟩
  · intro y x b hb
    rw [h.held] at hb
    split at hb
    · cases hb
    · next hyc =>
      rcases hkeep y x b hyc hb with ⟨hnone, hother⟩
      rcases hinv.back y x b hb with ⟨hpel, n, hn, hy⟩
      exact ⟨by rw [h.pel, hnone, hpel]; rfl, n, by rw [h.nackAt b hother, hn], hy⟩
  · intro x x' b hb hb'
    exact hinv.apart x x' b (hpelKeep x b hb).right (hpelKeep x' b hb').right
  · intro b hb
    rw [h.next] at hb
    exact h.freed b (hinv.freshNack b hb)

theorem streamDelConsumer_dropped (hinv : cg.Inv) (hlisted : cg.consumers[name]? = some c) :
    exists cg', streamDelConsumer cg name = .ok cg' ∧ Dropped cg cg' name c := by
  rcases consumerAt_of_nameOf ((hinv.listed name c).mp hlisted) with ⟨consumer, hc, _⟩
  have hmem : forall x b, (x, b) ∈ consumer.pel.toList <-> cg.held c x = some b := by
    intro x b
    rw [Std.TreeMap.mem_toList_iff_getElem?_eq_some, held_eq hc]
  have hdistinct : (consumer.pel.toList.map Prod.snd).Nodup := by
    refine List.Pairwise.map _ (fun _ _ h => h)
      (List.Pairwise.imp_of_mem ?_ (Std.TreeMap.distinct_keys_toList (t := consumer.pel)))
    intro e e' he he' hne heq
    apply hne
    rw [Std.compare_eq_iff_eq]
    have hpel := (hinv.back c e.1 e.2 ((hmem e.1 e.2).mp he)).left
    have hpel' := (hinv.back c e'.1 e'.2 ((hmem e'.1 e'.2).mp he')).left
    rw [heq] at hpel
    exact hinv.apart e.1 e'.1 e'.2 hpel hpel'
  have halloc : forall key a, (key, a) ∈ consumer.pel.toList -> exists n, cg.nackAt a = some n := by
    intro key a hka
    rcases (hinv.back c key a ((hmem key a).mp hka)).right with ⟨n, hn, _⟩
    exact ⟨n, hn⟩
  rcases delLoop_ok hdistinct halloc with ⟨cg1, hok, hlast, hconsumers, hcells, hnext, hpel, hnack⟩
  refine ⟨{ cg1 with
    consumers := cg1.consumers.erase name, consumerAt := put cg1.consumerAt c none }, ?_, ?_⟩
  · unfold streamDelConsumer
    rw [hlisted]
    simp only [hc, hok, ok_bind, pure_ok]
  · refine ⟨hlast, ?_, ?_, ?_, ?_, ?_, ?_, hnext, hlisted⟩
    · intro x
      have hiff : x ∈ consumer.pel.toList.map Prod.fst <-> (cg.held c x).isSome = true := by
        rw [mem_map, Option.isSome_iff_exists]
        constructor
        · rintro ⟨⟨_, b⟩, hb, rfl⟩
          exact ⟨b, (hmem _ b).mp hb⟩
        · rintro ⟨b, hb⟩
          exact ⟨(x, b), (hmem x b).mpr hb, rfl⟩
      change cg1.pel[x]? = _
      rw [hpel]
      simp only [hiff]
    · intro x
      change (cg1.consumers.erase name)[x]? = _
      rw [hconsumers]
      exact get_erase _ _ _
    · intro b hb
      change cg1.nackAt b = _
      rw [hnack, if_neg]
      intro hin
      rcases mem_map.mp hin with ⟨⟨x, _⟩, hx, rfl⟩
      exact hb x ((hmem x _).mp hx)
    · intro b hb
      change cg1.nackAt b = none
      rw [hnack, hb]
      split
      · rfl
      · rfl
    · intro y
      rw [nameOf_put cg1 rfl]
      unfold nameOf
      rw [hcells]
      rfl
    · intro y x
      rw [held_put cg1 rfl]
      unfold held
      rw [hcells]
      rfl

theorem streamDelConsumer_inv (hinv : cg.Inv) (name : Sds) :
    exists cg', streamDelConsumer cg name = .ok cg' ∧ cg'.Inv := by
  rcases Option.eq_none_or_eq_some cg.consumers[name]? with hnone | ⟨c, hlisted⟩
  · refine ⟨cg, ?_, hinv⟩
    unfold streamDelConsumer
    rw [hnone]
  · rcases streamDelConsumer_dropped hinv hlisted with ⟨cg', hok, hdropped⟩
    exact ⟨cg', hok, hdropped.inv hinv⟩

/-!
# XCLAIM
-/

theorem giveTo_assigned {cg0 : StreamCG} (hinv : cg.Inv) (hlast : cg0.lastId = cg.lastId)
    (hpel : forall x : Nat, cg0.pel[x]? = if x = key then some a else cg.pel[x]?)
    (hconsumers : cg0.consumers = cg.consumers)
    (hnack : forall b, b ≠ a -> cg0.nackAt b = cg.nackAt b)
    (hname : forall y, cg0.nameOf y = cg.nameOf y)
    (hheld : forall y x, cg0.held y x = if x = key then none else cg.held y x)
    (hnext : cg.next ≤ cg0.next) (ha : a < cg0.next)
    (hrecord : cg.pel[key]? = some a ∨ cg.pel[key]? = none ∧ cg.nackAt a = none) (name : Sds)
    (time : Int) (count : Nat) :
    exists c cg', giveTo name key a time count cg0 = .ok cg' ∧
      Assigned cg cg' key a c name time count := by
  have hfree : forall y, cg0.consumerAt y = none <-> cg.consumerAt y = none := by
    intro y
    rw [← consumerAt_none, ← consumerAt_none, hname]
  have hnames : cg0.Names := by
    refine ⟨?_, ?_⟩
    · intro x y
      rw [hconsumers, hname]
      exact hinv.listed x y
    · intro y hy
      rw [hfree]
      exact hinv.fresh y (Nat.le_trans hnext hy)
  have hlooked := lookup_looked hnames name
  unfold giveTo
  generalize streamLookupConsumer cg0 name = found at hlooked
  rcases found with ⟨c, cg1⟩
  have hlive : (cg1.setNack a ⟨time, count, some c⟩).nameOf c = some name := hlooked.live
  rcases editPel_insert key a hlive with ⟨cg', hok, e⟩
  refine ⟨c, cg', hok, ?_⟩
  have hnack' : forall b, cg'.nackAt b = if b = a then some ⟨time, count, some c⟩ else cg.nackAt b := by
    intro b
    rw [e.nackAt]
    change put cg1.nackAt a _ b = _
    by_cases hb : b = a
    · rw [hb, put_self, if_pos rfl]
    · rw [put_ne hb, if_neg hb, hlooked.nackAt]
      exact hnack b hb
  refine ⟨?_, ?_, ?_, hnack', ?_, ?_, ?_, hrecord, ?_, ?_⟩
  · exact e.lastId.trans (hlooked.lastId.trans hlast)
  · intro x
    rw [e.pel]
    change cg1.pel[x]? = _
    rw [hlooked.pel, hpel]
  · intro x
    rw [e.consumers]
    change cg1.consumers[x]? = _
    rw [hlooked.consumers, hconsumers]
  · intro y
    rw [e.name]
    change cg1.nameOf y = _
    rw [hlooked.nameOf, hname]
  · intro y x
    rw [e.held]
    change (if y = c ∧ x = key then some a else cg1.held y x) = _
    rw [hlooked.held, hheld]
    by_cases hx : x = key
    · by_cases hy : y = c
      · rw [if_pos ⟨hy, hx⟩, if_pos hx, if_pos hy]
      · rw [if_neg (fun h => hy h.left), if_pos hx, if_pos hx, if_neg hy]
    · rw [if_neg (fun h => hx h.right), if_neg hx, if_neg hx]
  · have hconsumer := hlooked.consumer
    rw [hconsumers] at hconsumer
    exact hconsumer.imp_right fun h => ⟨h.left, (hfree c).mp h.right⟩
  · intro y hy
    rw [e.consumerAt_none]
    rw [e.next] at hy
    exact hlooked.fresh y hy
  · intro b hb
    rw [e.next] at hb
    change cg1.next ≤ b at hb
    have hle := hlooked.next
    rw [hnack', if_neg (by lia)]
    exact hinv.freshNack b (by lia)

inductive Claimed (now : Int) (s : Stream) (group consumer : Sds) (o : ClaimOptions)
    (id : StreamID) (cg : StreamCG) : StreamCG -> List StreamOp -> Prop
  | absent : cg.pel[streamEncodeID id]? = none ->
      (o.force && s.hasEntry (streamEncodeID id)) = false ->
      Claimed now s group consumer o id cg cg []
  | young {a : Nat} {n : StreamNACK} : cg.pel[streamEncodeID id]? = some a ->
      cg.nackAt a = some n -> o.tooYoung now n = true ->
      Claimed now s group consumer o id cg cg []
  | forced {cg' : StreamCG} {a c : Nat} : cg.pel[streamEncodeID id]? = none ->
      o.force = true -> s.hasEntry (streamEncodeID id) = true ->
      Assigned cg cg' (streamEncodeID id) a c consumer (o.deliverytime now) (o.newCount 1) ->
      Claimed now s group consumer o id cg cg'
        [propagatedClaim cg' group consumer id
          ⟨o.deliverytime now, o.newCount 1, some c⟩]
  | claimed {cg' : StreamCG} {a c : Nat} {n : StreamNACK} :
      cg.pel[streamEncodeID id]? = some a -> cg.nackAt a = some n ->
      o.tooYoung now n = false ->
      Assigned cg cg' (streamEncodeID id) a c consumer (o.deliverytime now)
        (o.newCount n.deliveryCount) ->
      Claimed now s group consumer o id cg cg'
        [propagatedClaim cg' group consumer id
          ⟨o.deliverytime now, o.newCount n.deliveryCount, some c⟩]

theorem claimOne_claimed (hinv : cg.Inv) (now : Int) (s : Stream) (group consumer : Sds)
    (o : ClaimOptions) (id : StreamID) :
    exists cg' sent, claimOne now s group consumer o id cg = .ok (cg', sent) ∧
      Claimed now s group consumer o id cg cg' sent := by
  unfold claimOne claimRecord
  dsimp only
  rcases Option.eq_none_or_eq_some cg.pel[streamEncodeID id]? with hkey | ⟨a, hkey⟩
  · rw [hkey]
    cases hforce : o.force && s.hasEntry (streamEncodeID id) with
    | false => exact ⟨cg, [], rfl, .absent hkey hforce⟩
    | true =>
      rw [Bool.and_eq_true] at hforce
      have hgive : exists c cg', giveTo consumer (streamEncodeID id) cg.next
          (o.deliverytime now) (o.newCount 1)
          { cg with
            nackAt := put cg.nackAt cg.next (some ⟨now, 1, none⟩)
            next := cg.next + 1
            pel := cg.pel.insert (streamEncodeID id) cg.next } = .ok cg' ∧
          Assigned cg cg' (streamEncodeID id) cg.next c consumer (o.deliverytime now)
            (o.newCount 1) := by
        apply giveTo_assigned hinv
        · rfl
        · exact fun x => get_insert _ _ _ _
        · rfl
        · exact fun b hb => put_ne hb
        · exact fun y => rfl
        · intro y x
          exact apply_eq_ite (hinv.held_none hkey y) x
        · exact Nat.le_succ _
        · exact Nat.lt_succ_self _
        · exact .inr ⟨hkey, hinv.freshNack _ (Nat.le_refl _)⟩
      rcases hgive with ⟨c, cg', hok, hassigned⟩
      refine ⟨cg', _, ?_, .forced hkey hforce.left hforce.right hassigned⟩
      simp only [streamCreateNACK, nack, put_self, if_true, bind, Except.bind,
        ClaimOptions.tooYoung, Option.isSome_none, Bool.false_and, Bool.false_eq_true,
        if_false, hok, hassigned.propagate]
      rfl
  · rcases hinv.owned _ a hkey with ⟨n, owner, hn, howner, hheld⟩
    rw [hkey]
    simp only [nack, hn, bind, Except.bind]
    cases hyoung : o.tooYoung now n with
    | true => exact ⟨cg, [], rfl, .young hkey hn hyoung⟩
    | false =>
      rcases nameOf_of_held hheld with ⟨name, hname⟩
      rcases editPel_erase (streamEncodeID id) hname with ⟨cg0, h0, e0⟩
      have hgive : exists c cg', giveTo consumer (streamEncodeID id) a (o.deliverytime now)
          (o.newCount n.deliveryCount) cg0 = .ok cg' ∧
          Assigned cg cg' (streamEncodeID id) a c consumer (o.deliverytime now)
            (o.newCount n.deliveryCount) := by
        refine giveTo_assigned hinv e0.lastId ?_ e0.consumers
          (fun b _ => by rw [e0.nackAt]) e0.name ?_ (Nat.le_of_eq e0.next.symm)
          (by rw [e0.next]; exact hinv.nack_lt hn) (.inl hkey) consumer _ _
        · intro x
          rw [e0.pel]
          exact apply_eq_ite hkey x
        · intro y x
          rw [e0.held]
          exact hinv.held_erased hkey hn howner y x
      rcases hgive with ⟨c, cg', hok, hassigned⟩
      refine ⟨cg', _, ?_, .claimed hkey hn hyoung hassigned⟩
      simp only [Bool.false_eq_true, if_false, howner, Option.isSome_some, if_true,
        removeFromOwner, h0, hok, hassigned.propagate]
      rfl

theorem Claimed.inv {id : StreamID} {sent : List StreamOp}
    (h : Claimed now s group consumer o id cg cg' sent) (hinv : cg.Inv) : cg'.Inv := by
  cases h with
  | absent _ _ => exact hinv
  | young _ _ _ => exact hinv
  | forced _ _ _ hassigned => exact hassigned.inv hinv
  | claimed _ _ _ hassigned => exact hassigned.inv hinv

theorem claimLoop_inv (now : Int) (s : Stream) (group consumer : Sds) (o : ClaimOptions)
    (ids : List StreamID) (hinv : cg.Inv) :
    exists r, claimLoop now s group consumer o ids cg = .ok r ∧ r.1.Inv := by
  induction ids generalizing cg with
  | nil => exact ⟨_, rfl, hinv⟩
  | cons id rest ih =>
    rcases claimOne_claimed hinv now s group consumer o id with ⟨cg1, sent, hok, hclaimed⟩
    rcases ih (hclaimed.inv hinv) with ⟨r, hr, hrinv⟩
    refine ⟨(r.1, sent ++ r.2), ?_, hrinv⟩
    rw [claimLoop]
    simp only [hok, hr, ok_bind, pure_ok]

theorem xclaim_inv (hinv : cg.Inv) :
    exists r, xclaim now s group consumer o cg = .ok r ∧ r.1.Inv := by
  rcases claimLoop_inv now s group consumer o o.ids (hinv.raiseLastId o.lastId) with ⟨r, hr, hrinv⟩
  unfold xclaim
  simp only [hr, ok_bind, pure_ok]
  exact ⟨_, rfl, hrinv⟩

/-!
# Runs
-/

def Stream.Inv (s : Stream) : Prop :=
  forall (group : Sds) (cg : StreamCG), s.cgroups[group]? = some cg -> cg.Inv

theorem createCG_inv (id : StreamID) : (streamCreateCG id).Inv := by
  have hpel : forall key : Nat, (streamCreateCG id).pel[key]? = none :=
    fun _ => Std.TreeMap.getElem?_emptyc
  refine ⟨⟨?_, fun _ _ => rfl⟩, ?_, ?_, ?_, fun _ _ => rfl⟩
  · intro name c
    constructor
    · intro h
      rw [show (streamCreateCG id).consumers[name]? = none from Std.TreeMap.getElem?_emptyc] at h
      cases h
    · nofun
  · intro key a h
    rw [hpel] at h
    cases h
  · nofun
  · intro key key' a h
    rw [hpel] at h
    cases h

theorem Stream.Inv.insert (hinv : s.Inv) (group : Sds) (hcg : cg.Inv) :
    Stream.Inv { s with cgroups := s.cgroups.insert group cg } := by
  intro group' cg' hg'
  change (s.cgroups.insert group cg)[group']? = some cg' at hg'
  rw [get_insert] at hg'
  split at hg'
  · cases hg'
    exact hcg
  · exact hinv group' cg' hg'

theorem Stream.Inv.erase (hinv : s.Inv) (group : Sds) :
    Stream.Inv { s with cgroups := s.cgroups.erase group } := by
  intro group' cg' hg'
  change (s.cgroups.erase group)[group']? = some cg' at hg'
  rw [get_erase] at hg'
  split at hg'
  · cases hg'
  · exact hinv group' cg' hg'

theorem onGroup_inv (hinv : s.Inv) {f : StreamCG -> Except Fault (StreamCG × List StreamOp)}
    (hf : forall cg, cg.Inv -> exists r, f cg = .ok r ∧ r.1.Inv) :
    exists r, onGroup s group f = .ok r ∧ r.1.Inv := by
  unfold onGroup
  cases hg : s.cgroups[group]? with
  | none => exact ⟨_, rfl, hinv⟩
  | some cg =>
    rcases hf cg (hinv group cg hg) with ⟨r, hr, hrinv⟩
    simp only [hr, ok_bind, pure_ok]
    exact ⟨_, rfl, hinv.insert group hrinv⟩

theorem xadd_cgroups (wall : UInt64) (trim : Option Trim) (id : Option StreamID)
    (fields : List (Sds × Sds)) (s : Stream) :
    (xadd wall trim id fields s).1.cgroups = s.cgroups := by
  unfold xadd
  dsimp only
  split
  · split
    · rfl
    · rfl
  · rfl

theorem xsetid_cgroups (id : StreamID) (s : Stream) : (xsetid id s).1.cgroups = s.cgroups := by
  unfold xsetid
  split
  · split
    · rfl
    · rfl
  · rfl

theorem exec_inv (c : Clock) (op : StreamOp) (hinv : s.Inv) :
    exists r, exec c op s = .ok r ∧ r.1.Inv := by
  have hsame : forall s' : Stream, s'.cgroups = s.cgroups -> s'.Inv := by
    intro s' heq group cg hg
    rw [heq] at hg
    exact hinv group cg hg
  cases op with
  | xadd trim id fields => exact ⟨_, rfl, hsame _ (xadd_cgroups c.wall trim id fields s)⟩
  | xdel ids | xtrim trim => exact ⟨_, rfl, hsame _ rfl⟩
  | xsetid id => exact ⟨_, rfl, hsame _ (xsetid_cgroups id s)⟩
  | xgroupCreate group id =>
    simp only [exec]
    cases hg : s.cgroups[group]? with
    | some cg => exact ⟨(s, []), rfl, hinv⟩
    | none => exact ⟨_, rfl, hinv.insert group (createCG_inv _)⟩
  | xgroupSetid group id =>
    refine onGroup_inv hinv ?_
    intro cg hcg
    exact ⟨_, rfl, hcg.setLastId _⟩
  | xgroupDestroy group =>
    simp only [exec]
    cases hg : s.cgroups[group]? with
    | none => exact ⟨(s, []), rfl, hinv⟩
    | some cg => exact ⟨_, rfl, hinv.erase group⟩
  | xgroupDelconsumer group consumer =>
    refine onGroup_inv hinv ?_
    intro cg hcg
    rcases streamDelConsumer_inv hcg consumer with ⟨cg', hok, hinv'⟩
    refine ⟨(cg', [StreamOp.xgroupDelconsumer group consumer]), ?_, hinv'⟩
    simp only [hok, ok_bind, pure_ok]
  | xreadgroup group consumer gt count noack =>
    exact onGroup_inv hinv fun cg hcg => xreadgroup_inv hcg
  | serveBlocked group consumer count noack =>
    exact onGroup_inv hinv fun cg hcg => serveBlocked_inv hcg
  | xack group ids =>
    refine onGroup_inv hinv ?_
    intro cg hcg
    rcases ackLoop_inv ids hcg with ⟨r, hr, hrinv⟩
    refine ⟨(r.1, if r.2 then [StreamOp.xack group ids] else []), ?_, hrinv⟩
    simp only [hr, ok_bind, pure_ok]
  | xclaim group consumer o => exact onGroup_inv hinv fun cg hcg => xclaim_inv hcg

/-- The table of a group is the disjoint union of the tables of its consumers, and the owner
of a record is the consumer that holds it. -/
structure StreamCG.Partition (cg : StreamCG) : Prop where
  union : forall key a : Nat, cg.pel[key]? = some a <->
    exists (name : Sds) (c : Nat) (consumer : StreamConsumer), cg.consumers[name]? = some c ∧
      cg.consumerAt c = some consumer ∧ consumer.pel[key]? = some a
  disjoint : forall (name name' : Sds) (c c' : Nat) (consumer consumer' : StreamConsumer)
    (key : Nat), cg.consumers[name]? = some c -> cg.consumers[name']? = some c' ->
    cg.consumerAt c = some consumer -> cg.consumerAt c' = some consumer' ->
    key ∈ consumer.pel -> key ∈ consumer'.pel -> name = name'
  owner : forall (name : Sds) (c : Nat) (consumer : StreamConsumer) (key a : Nat),
    cg.consumers[name]? = some c -> cg.consumerAt c = some consumer ->
    consumer.pel[key]? = some a ->
    consumer.name = name ∧ exists n, cg.nackAt a = some n ∧ n.consumer = some c

theorem StreamCG.Inv.partition (hinv : cg.Inv) : cg.Partition := by
  have hheld : forall (c key : Nat) (consumer : StreamConsumer), cg.consumerAt c = some consumer ->
      cg.held c key = consumer.pel[key]? := by
    intro c key consumer hc
    rw [held, hc]
    rfl
  refine ⟨?_, ?_, ?_⟩
  · intro key a
    constructor
    · intro hkey
      rcases hinv.owned key a hkey with ⟨n, c, _, _, hhas⟩
      rcases nameOf_of_held hhas with ⟨name, hname⟩
      rcases consumerAt_of_nameOf hname with ⟨consumer, hc, _⟩
      rw [hheld c key consumer hc] at hhas
      exact ⟨name, c, consumer, (hinv.listed name c).mpr hname, hc, hhas⟩
    · rintro ⟨name, c, consumer, _, hc, hhas⟩
      exact (hinv.back c key a ((hheld c key consumer hc).trans hhas)).left
  · intro name name' c c' consumer consumer' key hlisted hlisted' hc hc' hmem hmem'
    rw [Std.TreeMap.mem_iff_isSome_getElem?] at hmem hmem'
    rcases Option.isSome_iff_exists.mp hmem with ⟨a, ha⟩
    rcases Option.isSome_iff_exists.mp hmem' with ⟨a', ha'⟩
    rcases hinv.back c key a ((hheld c key consumer hc).trans ha) with ⟨hpel, n, hn, hown⟩
    by_cases hsame : c' = c
    · have hname := (hinv.listed name' c').mp hlisted'
      rw [hsame, (hinv.listed name c).mp hlisted] at hname
      exact Option.some.inj hname
    · have hnone := hinv.held_owner hpel hn hown hsame
      rw [hheld c' key consumer' hc', ha'] at hnone
      cases hnone
  · intro name c consumer key a hlisted hc hhas
    rcases hinv.back c key a ((hheld c key consumer hc).trans hhas) with ⟨_, n, hn, hown⟩
    have hname := (hinv.listed name c).mp hlisted
    rw [nameOf, hc] at hname
    exact ⟨Option.some.inj hname, n, hn, hown⟩

theorem streamNew_inv : streamNew.Inv := by
  intro group cg hg
  rw [show streamNew.cgroups[group]? = none from Std.TreeMap.getElem?_emptyc] at hg
  cases hg

/-- Whatever the commands and their order, no run faults, and in every state it reaches the
pending entries of every group are partitioned among its consumers. -/
theorem pending_entries_partition (labels : List (Clock × StreamOp)) :
    exists s, runSteps step labels streamNew = .ok s ∧
      forall (group : Sds) (cg : StreamCG), s.cgroups[group]? = some cg -> cg.Partition := by
  have hrun : exists s, runSteps step labels streamNew = .ok s ∧ s.Inv := by
    have hnew := streamNew_inv
    generalize streamNew = s at hnew
    induction labels generalizing s with
    | nil => exact ⟨s, rfl, hnew⟩
    | cons label rest ih =>
      rcases exec_inv label.1 label.2 hnew with ⟨r, hr, hrinv⟩
      have hstep : step label s = .ok r.1 := by
        unfold step
        rw [hr]
        rfl
      rw [runSteps_cons_ok hstep]
      exact ih r.1 hrinv
  rcases hrun with ⟨s, hok, hinv⟩
  exact ⟨s, hok, fun group cg hg => (hinv group cg hg).partition⟩

end Streams
end Redisoo
