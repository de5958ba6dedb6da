import Redisoo.Streams.PendingEntries

/-!
# Replication of consumer groups

A group as it is seen from outside: its last id, the names of its consumers and its pending
entries.  Every command acts on this view, and reads are propagated as commands that a
replica executes with its own clock.
-/

namespace Redisoo
namespace Streams

open Foundation ClaimOptions StreamCG Option
open Foundation.Table
open StreamCG List Option

/-!
# The view of a group
-/

structure Pending where
  owner : Sds
  time : Int
  count : Nat
  deriving DecidableEq

@[ext] structure GroupView where
  lastId : StreamID
  named : Sds -> Bool
  pending : Nat -> Option Pending

def raised (lastId id : StreamID) : StreamID :=
  if streamCompareID id lastId = .gt then id else lastId

namespace GroupView

def raise (v : GroupView) (id : StreamID) : GroupView :=
  { v with lastId := raised v.lastId id }

def look (v : GroupView) (name : Sds) : GroupView :=
  { v with named := fun x => decide (x = name) || v.named x }

def assign (v : GroupView) (key : Nat) (name : Sds) (time : Int) (count : Nat) : GroupView :=
  { v.look name with pending := fun x => if x = key then some ⟨name, time, count⟩ else v.pending x }

def remove (v : GroupView) (key : Nat) : GroupView :=
  { v with pending := fun x => if x = key then none else v.pending x }

def drop (v : GroupView) (name : Sds) : GroupView :=
  { v with
    named := fun x => !decide (x = name) && v.named x
    pending := fun x => (v.pending x).filter fun p => p.owner ≠ name }

theorem look_of_named {v : GroupView} {name : Sds} (h : v.named name = true) : v.look name = v := by
  apply GroupView.ext
  · rfl
  · funext x
    change (decide (x = name) || v.named x) = v.named x
    by_cases hx : x = name
    · rw [hx, h, Bool.or_true]
    · rw [decide_eq_false hx, Bool.false_or]
  · rfl

theorem look_named (v : GroupView) (name : Sds) : (v.look name).named name = true := by
  change (decide (name = name) || v.named name) = true
  rw [decide_eq_true rfl, Bool.true_or]

theorem assign_look (v : GroupView) (key : Nat) (name : Sds) (time : Int) (count : Nat) :
    (v.look name).assign key name time count = v.assign key name time count := by
  unfold assign
  rw [look_of_named (look_named v name)]
  rfl

end GroupView

theorem streamCompareID_self (id : StreamID) : streamCompareID id id = .eq := by
  unfold streamCompareID
  rw [if_neg (UInt64.lt_irrefl _), if_neg (UInt64.lt_irrefl _), if_neg (UInt64.lt_irrefl _),
    if_neg (UInt64.lt_irrefl _)]

theorem raised_raised (l id : StreamID) : raised (raised l id) id = raised l id := by
  unfold raised
  by_cases h : streamCompareID id l = .gt
  · rw [if_pos h, streamCompareID_self]
    rfl
  · rw [if_neg h, if_neg h]

theorem raised_of_raised (l id : StreamID) : raised l (raised l id) = raised l id := by
  unfold raised
  by_cases h : streamCompareID id l = .gt
  · rw [if_pos h, if_pos h]
  · rw [if_neg h, streamCompareID_self]
    rfl

variable {owner count c j key a : Nat}

namespace StreamCG

def pendingAt (cg : StreamCG) (key : Nat) : Option Pending :=
  (cg.pel[key]?).bind fun a => (cg.nackAt a).bind fun n => n.consumer.bind fun c =>
    (cg.nameOf c).map fun name => ⟨name, n.deliveryTime, n.deliveryCount⟩

def view (cg : StreamCG) : GroupView :=
  { lastId := cg.lastId
    named := fun name => (cg.consumers[name]?).isSome
    pending := cg.pendingAt }

structure Entry (cg : StreamCG) (key a : Nat) (n : StreamNACK) (c : Nat) (name : Sds) : Prop where
  pel : cg.pel[key]? = some a
  nack : cg.nackAt a = some n
  owner : n.consumer = some c
  name : cg.nameOf c = some name
  held : cg.held c key = some a

variable {cg cg' : StreamCG} {a c key : Nat} {name : Sds}

theorem pendingAt_some {n : StreamNACK} (hpel : cg.pel[key]? = some a)
    (hnack : cg.nackAt a = some n) (howner : n.consumer = some c) (hname : cg.nameOf c = some name) :
    cg.pendingAt key = some ⟨name, n.deliveryTime, n.deliveryCount⟩ := by
  unfold pendingAt
  simp only [hpel, hnack, howner, hname, bind_some, map_some]

theorem pendingAt_none (hpel : cg.pel[key]? = none) : cg.pendingAt key = none := by
  unfold pendingAt
  rw [hpel]
  rfl

theorem Entry.pendingAt {n : StreamNACK} (h : cg.Entry key a n c name) :
    cg.pendingAt key = some ⟨name, n.deliveryTime, n.deliveryCount⟩ :=
  pendingAt_some h.pel h.nack h.owner h.name

theorem Inv.entry (hinv : cg.Inv) (h : cg.pel[key]? = some a) :
    exists n c name, cg.Entry key a n c name := by
  rcases hinv.owned key a h with ⟨n, c, hn, hc, hheld⟩
  rcases nameOf_of_held hheld with ⟨name, hname⟩
  exact ⟨n, c, name, h, hn, hc, hname, hheld⟩

theorem Inv.pending_cases (hinv : cg.Inv) (key : Nat) :
    cg.pel[key]? = none ∨ exists a n c name, cg.Entry key a n c name := by
  rcases eq_none_or_eq_some cg.pel[key]? with h | ⟨a, h⟩
  · exact .inl h
  · rcases hinv.entry h with ⟨n, c, name, hentry⟩
    exact .inr ⟨a, n, c, name, hentry⟩

theorem pendingAt_same (hinv : cg.Inv) (hpel : cg'.pel[key]? = cg.pel[key]?)
    (hentry : forall a n c name, cg.Entry key a n c name ->
      cg'.nackAt a = some n ∧ cg'.nameOf c = some name) :
    cg'.pendingAt key = cg.pendingAt key := by
  rcases hinv.pending_cases key with hnone | ⟨a, n, c, name, h⟩
  · rw [pendingAt_none hnone, pendingAt_none (hpel.trans hnone)]
  · rcases hentry a n c name h with ⟨hnack, hname⟩
    rw [h.pendingAt]
    exact pendingAt_some (hpel.trans h.pel) hnack h.owner hname

theorem view_raiseLastId (cg : StreamCG) (id : StreamID) :
    (cg.raiseLastId id).view = cg.view.raise id := by
  unfold raiseLastId GroupView.raise raised
  change _ = GroupView.mk (if streamCompareID id cg.lastId = .gt then id else cg.lastId) _ _
  split
  · rfl
  · rfl

theorem named_insert {t t' : Std.TreeMap Sds Nat}
    (h : forall x : Sds, t'[x]? = if x = name then some c else t[x]?) (x : Sds) :
    (t'[x]?).isSome = (decide (x = name) || (t[x]?).isSome) := by
  rw [h]
  by_cases hx : x = name
  · rw [if_pos hx, decide_eq_true hx]
    rfl
  · rw [if_neg hx, decide_eq_false hx, Bool.false_or]

theorem name_kept (hinv : cg.Inv)
    (hconsumer : cg.consumers[name]? = some c ∨ cg.consumers[name]? = none ∧ cg.consumerAt c = none)
    (hnames : forall y, cg'.nameOf y = if y = c then some name else cg.nameOf y) {x : Sds}
    (hname : cg.nameOf owner = some x) : cg'.nameOf owner = some x := by
  rw [hnames]
  by_cases ho : owner = c
  · rw [if_pos ho]
    rw [ho] at hname
    rcases hconsumer with hlisted | ⟨_, hfree⟩
    · rw [(hinv.listed name c).mp hlisted] at hname
      exact hname
    · rw [nameOf, hfree] at hname
      cases hname
  · rw [if_neg ho]
    exact hname

theorem Looked.view (h : Looked cg cg' name c) (hinv : cg.Inv) : cg'.view = cg.view.look name := by
  apply GroupView.ext
  · exact h.lastId
  · funext x
    exact named_insert h.consumers x
  · funext key
    refine pendingAt_same hinv (by rw [h.pel]) ?_
    intro a n owner ownerName hentry
    rw [h.nackAt]
    exact ⟨hentry.nack, name_kept hinv h.consumer h.nameOf hentry.name⟩

theorem Assigned.view {time : Int} (h : Assigned cg cg' key a c name time count) (hinv : cg.Inv) :
    cg'.view = cg.view.assign key name time count := by
  apply GroupView.ext
  · exact h.lastId
  · funext x
    exact named_insert h.consumers x
  · funext x
    change cg'.pendingAt x = if x = key then some ⟨name, time, count⟩ else cg.pendingAt x
    by_cases hx : x = key
    · rw [if_pos hx]
      exact pendingAt_some (n := ⟨time, count, some c⟩) (by rw [h.pel, if_pos hx])
        (by rw [h.nackAt, if_pos rfl]) rfl h.live
    rw [if_neg hx]
    refine pendingAt_same hinv (by rw [h.pel, if_neg hx]) ?_
    intro b n owner ownerName hentry
    rw [h.nackAt, if_neg (h.other hinv hx hentry.pel)]
    exact ⟨hentry.nack, name_kept hinv h.consumer h.nameOf hentry.name⟩

theorem Removed.view (h : Removed cg cg' key a) (hinv : cg.Inv) :
    cg'.view = cg.view.remove key := by
  apply GroupView.ext
  · exact h.lastId
  · funext x
    change (cg'.consumers[x]?).isSome = (cg.consumers[x]?).isSome
    rw [h.consumers]
  · funext x
    change cg'.pendingAt x = if x = key then none else cg.pendingAt x
    by_cases hx : x = key
    · rw [if_pos hx]
      exact pendingAt_none (by rw [h.pel, if_pos hx])
    rw [if_neg hx]
    refine pendingAt_same hinv (by rw [h.pel, if_neg hx]) ?_
    intro b n owner ownerName hentry
    have hb : b ≠ a := by
      rintro rfl
      exact hx (hinv.apart x key b hentry.pel h.record)
    rw [h.nackAt, if_neg hb, h.nameOf]
    exact ⟨hentry.nack, hentry.name⟩

theorem Dropped.view (h : Dropped cg cg' name c) (hinv : cg.Inv) :
    cg'.view = cg.view.drop name := by
  have hname := (hinv.listed name c).mp h.listed
  apply GroupView.ext
  · exact h.lastId
  · funext x
    change (cg'.consumers[x]?).isSome = (!decide (x = name) && (cg.consumers[x]?).isSome)
    rw [h.consumers]
    by_cases hx : x = name
    · rw [if_pos hx, decide_eq_true hx]
      rfl
    · rw [if_neg hx, decide_eq_false hx]
      rfl
  · funext x
    change cg'.pendingAt x = (cg.pendingAt x).filter fun p => p.owner ≠ name
    rcases hinv.pending_cases x with hnone | ⟨a, n, owner, ownerName, hentry⟩
    · rw [pendingAt_none hnone, pendingAt_none]
      · rfl
      · rw [h.pel, hnone, ite_self]
    rw [hentry.pendingAt]
    by_cases ho : owner = c
    · -- an entry of the consumer that goes
      have hgone : cg'.pel[x]? = none := by
        rw [h.pel, ← ho, hentry.held]
        rfl
      have hown : ownerName = name := by
        have hc := hentry.name
        rw [ho, hname] at hc
        exact (some.inj hc).symm
      rw [pendingAt_none hgone, hown, filter_some_neg (by simp)]
    · have hother : forall y, cg.held c y ≠ some a := by
        intro y hy
        rcases hinv.back c y a hy with ⟨_, m, hm, hmc⟩
        rw [hentry.nack] at hm
        cases hm
        rw [hentry.owner] at hmc
        exact ho (some.inj hmc)
      have hnot : cg.held c x = none :=
        hinv.held_owner hentry.pel hentry.nack hentry.owner (Ne.symm ho)
      have hown : ownerName ≠ name := by
        intro heq
        have hlisted := (hinv.listed ownerName owner).mpr hentry.name
        rw [heq, h.listed] at hlisted
        exact ho (some.inj hlisted).symm
      rw [filter_some_pos (by simpa using hown)]
      exact pendingAt_some (by rw [h.pel, hnot]; exact hentry.pel)
        (by rw [h.nackAt a hother]; exact hentry.nack) hentry.owner
        (by rw [h.nameOf, if_neg ho]; exact hentry.name)

theorem Dropped.absent (hinv : cg.Inv) (h : cg.consumers[name]? = none) :
    cg.view.drop name = cg.view := by
  apply GroupView.ext
  · rfl
  · funext x
    change (!decide (x = name) && (cg.consumers[x]?).isSome) = (cg.consumers[x]?).isSome
    by_cases hx : x = name
    · rw [hx, h]
      exact Bool.and_false _
    · rw [decide_eq_false hx]
      rfl
  · funext x
    change (cg.pendingAt x).filter (fun p => p.owner ≠ name) = cg.pendingAt x
    rcases hinv.pending_cases x with hnone | ⟨a, n, owner, ownerName, hentry⟩
    · rw [pendingAt_none hnone]
      rfl
    rw [hentry.pendingAt]
    apply filter_some_pos
    have hown : ownerName ≠ name := by
      intro heq
      have hlisted := (hinv.listed ownerName owner).mpr hentry.name
      rw [heq, h] at hlisted
      cases hlisted
    simpa using hown

end StreamCG

/-!
# The order of ids
-/

theorem streamCompareID_eq (a b : StreamID) :
    streamCompareID a b = compare (streamEncodeID a) (streamEncodeID b) := by
  have ha := a.seq.toNat_lt
  have hb := b.seq.toNat_lt
  unfold streamCompareID streamEncodeID
  simp only [gt_iff_lt, UInt64.lt_iff_toNat_lt]
  split
  · exact (Nat.compare_eq_gt.mpr (by omega)).symm
  split
  · exact (Nat.compare_eq_lt.mpr (by omega)).symm
  split
  · exact (Nat.compare_eq_gt.mpr (by omega)).symm
  split
  · exact (Nat.compare_eq_lt.mpr (by omega)).symm
  · exact (Nat.compare_eq_eq.mpr (by omega)).symm

theorem streamCompareID_gt (a b : StreamID) :
    streamCompareID a b = .gt <-> streamEncodeID b < streamEncodeID a := by
  rw [streamCompareID_eq]
  exact Nat.compare_eq_gt

theorem toNat_ne_max {x : UInt64} (h : x ≠ UINT64_MAX) : x.toNat + 1 < 2 ^ 64 := by
  have hx := x.toNat_lt
  have hne : x.toNat ≠ 18446744073709551615 := fun heq => h (UInt64.toNat_inj.mp heq)
  omega

theorem streamEncodeID_incr {a b : StreamID} (h : streamEncodeID b < streamEncodeID a) :
    streamEncodeID (streamIncrID b) = streamEncodeID b + 1 := by
  have has := a.seq.toNat_lt
  have ham := a.ms.toNat_lt
  unfold streamEncodeID at h
  unfold streamIncrID
  split
  · next hseq =>
    have hseq' : b.seq.toNat = 18446744073709551615 := congrArg UInt64.toNat hseq
    split
    · next hms =>
      have hms' : b.ms.toNat = 18446744073709551615 := congrArg UInt64.toNat hms
      omega
    · next hms =>
      have hms' := toNat_ne_max hms
      have hnext : (b.ms + 1).toNat = b.ms.toNat + 1 := by
        rw [UInt64.toNat_add]
        exact Nat.mod_eq_of_lt hms'
      change (b.ms + 1).toNat * 2 ^ 64 + 0 = b.ms.toNat * 2 ^ 64 + b.seq.toNat + 1
      rw [hnext, hseq']
      omega
  · next hseq =>
    have hnext : (b.seq + 1).toNat = b.seq.toNat + 1 := by
      rw [UInt64.toNat_add]
      exact Nat.mod_eq_of_lt (toNat_ne_max hseq)
    change b.ms.toNat * 2 ^ 64 + (b.seq + 1).toNat = b.ms.toNat * 2 ^ 64 + b.seq.toNat + 1
    rw [hnext]
    omega

variable {m r s : Stream} {id : StreamID} {count n : Nat} {cg : StreamCG} {now : Int}
  {clock : Nat -> Int} {ids : List StreamID} {o : ClaimOptions} {consumer : Sds}
  {top gt start : StreamID}

theorem mem_idsFrom (h : streamCompareID top gt = .gt) :
    id ∈ s.idsFrom (streamIncrID gt) <->
      id ∈ s.entries.map Prod.fst ∧ streamCompareID id gt = .gt := by
  have hincr := streamEncodeID_incr ((streamCompareID_gt _ _).mp h)
  unfold Stream.idsFrom
  rw [mem_filter, bne_iff_ne, Ne, streamCompareID_eq, Nat.compare_eq_lt, streamCompareID_gt,
    hincr, Nat.not_lt]
  rfl

/-!
# What a replica does with a propagated claim
-/

theorem asLongLong_small (h : count < 2 ^ 63) : asLongLong count = count := by
  unfold asLongLong
  exact Int.bmod_eq_of_le (by omega) (by omega)

def claimOptions (id : StreamID) (time : Int) (count : Nat) (lastId : StreamID) : ClaimOptions :=
  { minidle := 0, ids := [id], force := true, justid := true, delivery := .time time,
    retrycount := asLongLong count, lastId := lastId }

theorem pel_raiseLastId (cg : StreamCG) (id : StreamID) : (cg.raiseLastId id).pel = cg.pel := by
  unfold raiseLastId
  split
  · rfl
  · rfl

variable {last : StreamID} {time : Int} {later : Nat -> Clock} {i : Nat} {v : GroupView} {g : Sds}
  {noack : Bool} {f : StreamCG -> Except Fault (StreamCG × List StreamOp)} {t m' r' s' : Stream}
  {cg' rg : StreamCG}

theorem xclaim_replayed (hinv : cg.Inv) (group name : Sds) (lastId : StreamID)
    (htime : 0 ≤ time ∧ time ≤ now) (hcount : count < 2 ^ 63)
    (hhas : cg.view.pending (streamEncodeID id) ≠ none ∨ s.hasEntry (streamEncodeID id) = true) :
    exists r, xclaim now s group name (claimOptions id time count lastId) cg = .ok r ∧
      r.1.Inv ∧
      r.1.view = (cg.view.raise lastId).assign (streamEncodeID id) name time count := by
  have hraised := hinv.raiseLastId lastId
  rcases claimOne_claimed hraised now s group name (claimOptions id time count lastId) id with
    ⟨cg', sent, hok, hclaimed⟩
  have hdelivery : (claimOptions id time count lastId).deliverytime now = time := by
    unfold deliverytime
    exact if_neg (by simp only [asked, claimOptions]; lia)
  have hnew : forall old, (claimOptions id time count lastId).newCount old = count := by
    intro old
    unfold newCount
    simp only [claimOptions, asLongLong_small hcount]
    rw [if_pos (by lia)]
    exact Int.toNat_natCast count
  have hassigned : exists a c, Assigned (cg.raiseLastId lastId) cg' (streamEncodeID id) a c name
      time count := by
    cases hclaimed with
    | absent hnone hforce =>
      rcases hhas with hpending | hentry
      · rw [pel_raiseLastId] at hnone
        exact absurd (pendingAt_none hnone) hpending
      · rw [hentry] at hforce
        cases hforce
    | young _ _ hyoung =>
      unfold tooYoung at hyoung
      simp [claimOptions] at hyoung
    | forced _ _ _ hassigned | claimed _ _ _ hassigned =>
      rw [hdelivery, hnew] at hassigned
      exact ⟨_, _, hassigned⟩
  rcases hassigned with ⟨a, c, hassigned⟩
  have hloop : claimLoop now s group name (claimOptions id time count lastId)
      (claimOptions id time count lastId).ids
      (cg.raiseLastId (claimOptions id time count lastId).lastId) = .ok (cg', sent ++ []) := by
    change claimLoop now s group name _ [id] (cg.raiseLastId lastId) = _
    rw [claimLoop]
    simp only [hok, claimLoop, ok_bind, pure_ok]
  unfold xclaim
  simp only [hloop, ok_bind, pure_ok]
  refine ⟨_, rfl, hassigned.inv hraised, ?_⟩
  rw [← view_raiseLastId]
  exact hassigned.view hraised

/-!
# Replaying on the replica
-/

def replay (later : Nat -> Clock) : Nat -> List StreamOp -> Stream -> Except Fault Stream
  | _, [], s => .ok s
  | j, op :: rest, s => do
      let s <- step (later j, op) s
      replay later (j + 1) rest s

structure Focus (r s : Stream) (group : Sds) (cg : StreamCG) : Prop where
  entries : s.entries = r.entries
  lastId : s.lastId = r.lastId
  here : s.cgroups[group]? = some cg
  elsewhere : forall g : Sds, g ≠ group -> s.cgroups[g]? = r.cgroups[g]?

section Focus

variable {group : Sds} {m : StreamCG}

theorem Focus.refl (h : r.cgroups[group]? = some cg) : Focus r r group cg :=
  ⟨rfl, rfl, h, fun _ _ => rfl⟩

section

variable (h : Focus r s group cg)
include h

theorem Focus.insert (cg' : StreamCG) :
    Focus r { s with cgroups := s.cgroups.insert group cg' } group cg' := by
  refine ⟨h.entries, h.lastId, ?_, ?_⟩
  · change (s.cgroups.insert group cg')[group]? = some cg'
    rw [get_insert, if_pos rfl]
  intro g hg
  change (s.cgroups.insert group cg')[g]? = _
  rw [get_insert, if_neg hg]
  exact h.elsewhere g hg

theorem Focus.hasEntry (key : Nat) : s.hasEntry key = r.hasEntry key := by
  unfold Stream.hasEntry
  rw [h.entries]

theorem Focus.step (label : Clock × StreamOp) {sent : List StreamOp}
    (hexec : exec label.1 label.2 s = onGroup s group f) (hf : f cg = .ok (cg', sent)) :
    exists s', Streams.step label s = .ok s' ∧ Focus r s' group cg' := by
  refine ⟨_, ?_, h.insert cg'⟩
  unfold Streams.step onGroup at *
  rw [hexec, h.here]
  simp only [hf, ok_bind, pure_ok]
  rfl

theorem Focus.claim (hinv : cg.Inv) (clock : Clock) (name : Sds) (lastId : StreamID)
    (htime : 0 ≤ time ∧ time ≤ clock.clock 0) (hcount : count < 2 ^ 63)
    (hhas : cg.view.pending (streamEncodeID id) ≠ none ∨ r.hasEntry (streamEncodeID id) = true) :
    exists s' cg', Streams.step (clock, .xclaim group name (claimOptions id time count lastId)) s =
        .ok s' ∧ Focus r s' group cg' ∧ cg'.Inv ∧
      cg'.view = (cg.view.raise lastId).assign (streamEncodeID id) name time count := by
  rw [← h.hasEntry] at hhas
  rcases xclaim_replayed hinv group name lastId htime hcount hhas with
    ⟨⟨cg', sent⟩, hok, hinv', hview⟩
  rcases h.step (clock, .xclaim group name (claimOptions id time count lastId)) rfl hok with
    ⟨s', hstep, hfocus⟩
  exact ⟨s', cg', hstep, hfocus, hinv', hview⟩

theorem Focus.setid (hinv : cg.Inv) (clock : Clock) (id : StreamID) :
    exists s' cg', Streams.step (clock, .xgroupSetid group (some id)) s = .ok s' ∧
      Focus r s' group cg' ∧ cg'.Inv ∧ cg'.view = { cg.view with lastId := id } := by
  rcases h.step (clock, .xgroupSetid group (some id))
    (f := fun cg => .ok ({ cg with lastId := id }, [.xgroupSetid group (some id)])) rfl rfl with
    ⟨s', hstep, hfocus⟩
  exact ⟨s', _, hstep, hfocus, hinv.setLastId id, rfl⟩

end

def ClockAhead (clock : Nat -> Int) (later : Nat -> Clock) : Prop :=
  forall i j k, 0 ≤ clock i ∧ clock i ≤ (later j).clock k

theorem deliver_replayed (hclock : ClockAhead clock later) {group name : Sds}
    (hids : forall id, id ∈ ids -> r.hasEntry (streamEncodeID id) = true) (hm : m.Inv)
    (hlive : m.nameOf c = some name) (hfocus : Focus r s group cg) (hcg : cg.Inv)
    (hview : m.view = cg.view.look name) :
    exists m' sent s' cg', deliverLoop clock group c false i ids m = .ok (m', sent, false) ∧
      m'.Inv ∧ replay later j sent s = .ok s' ∧ Focus r s' group cg' ∧ cg'.Inv ∧
      m'.view = cg'.view.look name ∧
      ((ids ≠ [] ∨ cg.view.named name = true) -> cg'.view.named name = true) := by
  induction ids generalizing i j m cg s with
  | nil =>
    refine ⟨m, [], s, cg, rfl, hm, rfl, hfocus, hcg, hview, ?_⟩
    intro h
    exact h.resolve_left (fun hne => hne rfl)
  | cons id rest ih =>
    rcases deliverEntry_ack hm hlive (clock i) group id with ⟨a, m1, hok, hassigned⟩
    have hlast : m1.lastId = raised cg.view.lastId id := by
      have hlook : m.lastId = cg.view.lastId := congrArg GroupView.lastId hview
      rw [hassigned.lastId, ← hlook]
      exact congrArg GroupView.lastId (view_raiseLastId m id)
    rcases hfocus.claim hcg (later j) name m1.lastId
      (hclock i j 0) (by decide : 1 < 2 ^ 63) (.inr (hids id mem_cons_self)) with
      ⟨s1, cg1, hstep, hfocus1, hcg1, hview1⟩
    have hsame : m1.view = cg1.view := by
      rw [hassigned.view (hm.raiseLastId id), view_raiseLastId, hview, hview1, hlast]
      change ((cg.view.raise id).look name).assign _ _ _ _ = _
      rw [GroupView.assign_look]
      unfold GroupView.raise
      rw [raised_of_raised]
    have hnamed : cg1.view.named name = true := by
      rw [hview1]
      exact GroupView.look_named _ name
    have hview1' : m1.view = cg1.view.look name := by
      rw [GroupView.look_of_named hnamed]
      exact hsame
    rcases ih (i := i + 1) (j := j + 1) (fun id' hid' => hids id' (mem_cons_of_mem _ hid'))
      (hassigned.inv (hm.raiseLastId id)) hassigned.live hfocus1 hcg1 hview1' with
      ⟨m', sent, s', cg', hloop, hm', hreplay, hfocus', hcg', hview', hnamed'⟩
    refine ⟨m', [propagatedClaim m1 group name id ⟨clock i, 1, some c⟩] ++ sent, s', cg', ?_, hm', ?_,
      hfocus', hcg', hview', fun _ => hnamed' (.inr hnamed)⟩
    · rw [deliverLoop]
      simp only [hok, hloop, ok_bind, pure_ok]
      rfl
    · change replay later j (StreamOp.xclaim group name
        (claimOptions id (clock i) 1 m1.lastId) :: sent) s = _
      rw [replay]
      simp only [hstep, ok_bind]
      exact hreplay

theorem deliver_noack (clock : Nat -> Int) (group : Sds) (c i : Nat) (ids : List StreamID)
    (hm : m.Inv) :
    exists m' newer, deliverLoop clock group c true i ids m = .ok (m', [], newer) ∧ m'.Inv ∧
      m'.view = { m.view with lastId := m'.lastId } ∧ (newer = false -> m'.lastId = m.lastId) := by
  induction ids generalizing i m with
  | nil => exact ⟨m, false, rfl, hm, rfl, fun _ => rfl⟩
  | cons id rest ih =>
    rcases ih (i + 1) (hm.raiseLastId id) with ⟨m', newer, hloop, hm', hview, hlast⟩
    refine ⟨m', decide (streamCompareID id m.lastId = .gt) || newer, ?_, hm', ?_, ?_⟩
    · rw [deliverLoop]
      unfold deliverEntry
      simp only [if_true, hloop, ok_bind, pure_ok]
      rfl
    · rw [hview, view_raiseLastId]
      rfl
    · intro hnone
      rw [Bool.or_eq_false_iff] at hnone
      rw [hlast hnone.right]
      unfold raiseLastId
      rw [if_neg (of_decide_eq_false hnone.left)]

/-!
# XCLAIM
-/

theorem deliverytime_range (h : 0 ≤ now) : 0 ≤ o.deliverytime now ∧ o.deliverytime now ≤ now := by
  unfold deliverytime
  split
  · exact ⟨h, Int.le_refl now⟩
  · lia

def CountsLow (o : ClaimOptions) (n : Nat) (v : GroupView) : Prop :=
  o.retrycount < 2 ^ 63 ∧ (o.retrycount < 0 -> 1 + n < 2 ^ 63 ∧
    forall key p, v.pending key = some p -> p.count + n < 2 ^ 63)

theorem newCount_low (hlow : CountsLow o (n + 1) v) (count : Nat)
    (hcount : o.retrycount < 0 -> count + (n + 1) < 2 ^ 63) :
    o.newCount count < 2 ^ 63 ∧ (o.retrycount < 0 -> o.newCount count + n < 2 ^ 63) := by
  have hretry := hlow.left
  unfold newCount
  by_cases hneg : o.retrycount < 0
  · have hc := hcount hneg
    rw [if_neg (by lia)]
    split
    · exact ⟨by lia, fun _ => by lia⟩
    · rw [Nat.mod_eq_of_lt (by lia)]
      exact ⟨by lia, fun _ => by lia⟩
  · rw [if_pos (by lia)]
    exact ⟨by lia, fun h => absurd h hneg⟩

theorem CountsLow.weaken (h : CountsLow o (n + 1) v) : CountsLow o n v := by
  refine ⟨h.left, fun hneg => ⟨?_, ?_⟩⟩
  · have hone := (h.right hneg).left
    lia
  · intro key p hp
    have hcount := (h.right hneg).right key p hp
    lia

theorem CountsLow.assign {name : Sds} (h : CountsLow o (n + 1) v)
    (hcount : o.retrycount < 0 -> count + n < 2 ^ 63) :
    CountsLow o n (v.assign key name time count) := by
  refine ⟨h.left, fun hneg => ⟨(h.weaken.right hneg).left, ?_⟩⟩
  intro x p hp
  change (if x = key then some ⟨name, time, count⟩ else v.pending x) = some p at hp
  split at hp
  · cases hp
    exact hcount hneg
  · exact (h.weaken.right hneg).right x p hp

inductive ClaimStep (later : Clock) (r : Stream) (group : Sds) (o : ClaimOptions) (n : Nat)
    (last : StreamID) (m m1 : StreamCG) (s : Stream) : List StreamOp -> Prop
  | skip : m1 = m -> ClaimStep later r group o n last m m1 s []
  | send {op : StreamOp} {s1 : Stream} {cg1 : StreamCG} : m1.Inv ->
      step (later, op) s = .ok s1 -> Focus r s1 group cg1 -> cg1.Inv -> m1.view = cg1.view ->
      m1.view = cg1.view.raise last -> CountsLow o n m1.view ->
      ClaimStep later r group o n last m m1 s [op]

theorem claimStep_send {later : Clock} (hnow : 0 ≤ now) (hclock : now ≤ later.clock 0)
    {m m1 : StreamCG} (hm : m.Inv) (hlow : CountsLow o (n + 1) m.view)
    (hfocus : Focus r s group cg) (hcg : cg.Inv) (hview : m.view = cg.view.raise last)
    (hcount : count < 2 ^ 63) (hafter : o.retrycount < 0 -> count + n < 2 ^ 63)
    (hhas : m.view.pending (streamEncodeID id) ≠ none ∨ r.hasEntry (streamEncodeID id) = true)
    (hassigned : Assigned m m1 (streamEncodeID id) a c consumer (o.deliverytime now) count) :
    ClaimStep later r group o n last m m1 s
      [propagatedClaim m1 group consumer id ⟨o.deliverytime now, count, some c⟩] := by
  have htime := deliverytime_range (o := o) hnow
  have hpending : cg.view.pending (streamEncodeID id) = m.view.pending (streamEncodeID id) := by
    rw [hview]
    rfl
  rw [← hpending] at hhas
  rcases hfocus.claim hcg later consumer m1.lastId
    ⟨htime.left, Int.le_trans htime.right hclock⟩ hcount hhas with
    ⟨s1, cg1, hstep, hfocus1, hcg1, hview1⟩
  have hlast : m1.lastId = raised cg.view.lastId last := by
    rw [hassigned.lastId]
    exact congrArg GroupView.lastId hview
  have hsame : m1.view = cg1.view := by
    rw [hassigned.view hm, hview, hview1, hlast]
    unfold GroupView.raise
    rw [raised_of_raised]
  have hidem : cg1.view.raise last = cg1.view := by
    rw [hview1, hlast]
    apply GroupView.ext
    · change raised (raised cg.view.lastId (raised cg.view.lastId last)) last =
        raised cg.view.lastId (raised cg.view.lastId last)
      rw [raised_of_raised, raised_raised]
    · rfl
    · rfl
  refine .send (hassigned.inv hm) hstep hfocus1 hcg1 hsame ?_ ?_
  · rw [hidem]
    exact hsame
  · rw [hassigned.view hm]
    exact hlow.assign hafter

theorem claimStep_replayed {later : Clock} (hnow : 0 ≤ now) (hclock : now ≤ later.clock 0)
    (group consumer : Sds) (hentries : forall key, t.hasEntry key = r.hasEntry key)
    (id : StreamID) (hm : m.Inv) (hlow : CountsLow o (n + 1) m.view) (hfocus : Focus r s group cg)
    (hcg : cg.Inv) (hview : m.view = cg.view.raise last) :
    exists m1 sent, claimOne now t group consumer o id m = .ok (m1, sent) ∧
      ClaimStep later r group o n last m m1 s sent := by
  rcases claimOne_claimed hm now t group consumer o id with ⟨m1, sent, hok, hclaimed⟩
  refine ⟨m1, sent, hok, ?_⟩
  cases hclaimed with
  | absent _ _ => exact .skip rfl
  | young _ _ _ => exact .skip rfl
  | forced hnone hforce hentry hassigned =>
    have hcount := newCount_low hlow 1 (fun hneg => (hlow.right hneg).left)
    exact claimStep_send hnow hclock hm hlow hfocus hcg hview hcount.left hcount.right
      (.inr (by rw [← hentries]; exact hentry)) hassigned
  | @claimed _ a c n' hkey hn hyoung hassigned =>
    rcases hm.entry hkey with ⟨n'', owner, ownerName, hentry⟩
    have hsame : n'' = n' := by
      have heq := hentry.nack
      rw [hn] at heq
      exact (some.inj heq).symm
    have hpending := hentry.pendingAt
    rw [hsame] at hpending
    have hcount := newCount_low hlow n'.deliveryCount
      (fun hneg => (hlow.right hneg).right _ _ hpending)
    refine claimStep_send hnow hclock hm hlow hfocus hcg hview hcount.left hcount.right (.inl ?_)
      hassigned
    change m.pendingAt _ ≠ none
    rw [hpending]
    nofun

theorem claim_replayed (hnow : 0 ≤ now) (hclock : forall j, now ≤ (later j).clock 0)
    (consumer : Sds) (hentries : forall key, t.hasEntry key = r.hasEntry key) (hm : m.Inv)
    (hlow : CountsLow o ids.length m.view) (hfocus : Focus r s group cg) (hcg : cg.Inv)
    (hview : m.view = cg.view.raise last) :
    exists m' sent s' cg', claimLoop now t group consumer o ids m = .ok (m', sent) ∧
      m'.Inv ∧ replay later j sent s = .ok s' ∧ Focus r s' group cg' ∧ cg'.Inv ∧
      m'.view = cg'.view.raise last ∧
      ((sent ≠ [] ∨ m.view = cg.view) -> m'.view = cg'.view) := by
  induction ids generalizing j m cg s with
  | nil =>
    refine ⟨m, [], s, cg, rfl, hm, rfl, hfocus, hcg, hview, ?_⟩
    intro h
    exact h.resolve_left (fun hne => hne rfl)
  | cons id rest ih =>
    rcases claimStep_replayed hnow (hclock j) group consumer hentries id hm hlow hfocus hcg hview
      with ⟨m1, sent1, hok, hstep⟩
    cases hstep with
    | skip heq =>
      subst heq
      rcases ih (j := j) hm hlow.weaken hfocus hcg hview with
        ⟨m', sent, s', cg', hloop, hm', hreplay, hfocus', hcg', hview', hsame⟩
      refine ⟨m', sent, s', cg', ?_, hm', hreplay, hfocus', hcg', hview', hsame⟩
      rw [claimLoop]
      simp only [hok, hloop, ok_bind, pure_ok, nil_append]
    | @send op s1 cg1 hm1 hstep hfocus1 hcg1 hsame1 hview1 hlow1 =>
      rcases ih (j := j + 1) hm1 hlow1 hfocus1 hcg1 hview1 with
        ⟨m', sent, s', cg', hloop, hm', hreplay, hfocus', hcg', hview', hsame⟩
      refine ⟨m', [op] ++ sent, s', cg', ?_, hm', ?_, hfocus', hcg', hview',
        fun _ => hsame (.inr hsame1)⟩
      · rw [claimLoop]
        simp only [hok, hloop, ok_bind, pure_ok]
      change replay later j (op :: sent) s = _
      rw [replay]
      simp only [hstep, ok_bind]
      exact hreplay

end Focus

/-!
# XACK and XGROUP DELCONSUMER
-/

theorem remove_absent (h : cg.pel[key]? = none) : cg.view.remove key = cg.view := by
  apply GroupView.ext
  · rfl
  · rfl
  · funext x
    change (if x = key then none else cg.pendingAt x) = cg.pendingAt x
    by_cases hx : x = key
    · rw [if_pos hx, hx, pendingAt_none h]
    · rw [if_neg hx]

theorem ackLoop_view (ids : List StreamID) (hinv : cg.Inv) :
    exists cg' acked, ackLoop ids cg = .ok (cg', acked) ∧ cg'.Inv ∧
      cg'.view = ids.foldl (fun v id => v.remove (streamEncodeID id)) cg.view ∧
      (acked = false -> cg' = cg) := by
  induction ids generalizing cg with
  | nil => exact ⟨cg, false, rfl, hinv, rfl, fun _ => rfl⟩
  | cons id rest ih =>
    rcases eq_none_or_eq_some cg.pel[streamEncodeID id]? with hkey | ⟨a, hkey⟩
    · have hone : ackOne cg (streamEncodeID id) = .ok (cg, false) := by
        unfold ackOne
        rw [hkey]
      rcases ih hinv with ⟨cg', acked, hok, hinv', hview, hsame⟩
      refine ⟨cg', acked, ?_, hinv', ?_, hsame⟩
      · rw [ackLoop]
        simp only [hone, hok, ok_bind, pure_ok, Bool.false_or]
      · rw [foldl_cons, remove_absent hkey]
        exact hview
    · rcases ackOne_removed hinv hkey with ⟨cg1, hone, hremoved⟩
      rcases ih (hremoved.inv hinv) with ⟨cg', acked, hok, hinv', hview, _⟩
      refine ⟨cg', true, ?_, hinv', ?_, fun h => absurd h Bool.noConfusion⟩
      · rw [ackLoop]
        simp only [hone, hok, ok_bind, pure_ok, Bool.true_or]
      · rw [foldl_cons, ← hremoved.view hinv]
        exact hview

theorem streamDelConsumer_view (hinv : cg.Inv) (name : Sds) :
    exists cg', streamDelConsumer cg name = .ok cg' ∧ cg'.Inv ∧ cg'.view = cg.view.drop name := by
  rcases eq_none_or_eq_some cg.consumers[name]? with hnone | ⟨c, hlisted⟩
  · refine ⟨cg, ?_, hinv, (Dropped.absent hinv hnone).symm⟩
    unfold streamDelConsumer
    rw [hnone]
  · rcases streamDelConsumer_dropped hinv hlisted with ⟨cg', hok, hdropped⟩
    exact ⟨cg', hok, hdropped.inv hinv, hdropped.view hinv⟩

/-!
# Streams
-/

structure Same (m r : Stream) : Prop where
  entries : m.entries = r.entries
  lastId : m.lastId = r.lastId
  groups : forall g : Sds, (m.cgroups[g]?).map StreamCG.view = (r.cgroups[g]?).map StreamCG.view

structure Mirrored (m r : Stream) : Prop extends Same m r where
  master : m.Inv
  replica : r.Inv

section

variable (h : Mirrored m r)
include h

theorem Mirrored.group (hg : m.cgroups[g]? = some cg) :
    exists rg, r.cgroups[g]? = some rg ∧ rg.view = cg.view ∧ cg.Inv ∧ rg.Inv := by
  have hview := h.groups g
  rw [hg] at hview
  rcases map_eq_some_iff.mp hview.symm with ⟨rg, hrg, heq⟩
  exact ⟨rg, hrg, heq, h.master g cg hg, h.replica g rg hrg⟩

theorem Mirrored.group_none (hg : m.cgroups[g]? = none) : r.cgroups[g]? = none := by
  have hview := h.groups g
  rw [hg] at hview
  exact map_eq_none_iff.mp hview.symm

theorem Mirrored.hasEntry (key : Nat) : m.hasEntry key = r.hasEntry key := by
  unfold Stream.hasEntry
  rw [h.entries]

theorem Mirrored.update (hfocus : Focus r s g rg) (hcg : cg.Inv) (hrg : rg.Inv)
    (hview : cg.view = rg.view) :
    Mirrored { m with cgroups := m.cgroups.insert g cg } s := by
  refine ⟨⟨?_, ?_, ?_⟩, h.master.insert g hcg, ?_⟩
  · exact h.entries.trans hfocus.entries.symm
  · exact h.lastId.trans hfocus.lastId.symm
  · intro g'
    change ((m.cgroups.insert g cg)[g']?).map view = _
    rw [get_insert]
    by_cases hg : g' = g
    · rw [if_pos hg, hg, hfocus.here, map_some, map_some, hview]
    · rw [if_neg hg, hfocus.elsewhere g' hg]
      exact h.groups g'
  · intro g' rg' hg'
    by_cases hg : g' = g
    · rw [hg, hfocus.here] at hg'
      cases hg'
      exact hrg
    · rw [hfocus.elsewhere g' hg] at hg'
      exact h.replica g' rg' hg'

end

structure Exchange where
  clock : Clock
  op : StreamOp
  later : Nat -> Clock

def exchange (e : Exchange) (p : Stream × Stream) : Except Fault (Stream × Stream) := do
  let (m, sent) <- exec e.clock e.op p.1
  let r <- replay e.later 0 sent p.2
  return (m, r)

theorem onGroup_some {group : Sds} {sent : List StreamOp} (hg : s.cgroups[group]? = some cg)
    (hf : f cg = .ok (cg', sent)) :
    onGroup s group f = .ok ({ s with cgroups := s.cgroups.insert group cg' }, sent) := by
  unfold onGroup
  rw [hg]
  simp only [hf, ok_bind, pure_ok]

variable {e : Exchange} {group : Sds}

abbrev Echoed (e : Exchange) (m r : Stream) : Prop :=
  exists p, exchange e (m, r) = .ok p ∧ Mirrored p.1 p.2

theorem exchange_group (h : Mirrored m r) (group : Sds)
    (f : StreamCG -> Except Fault (StreamCG × List StreamOp))
    (hexec : exec e.clock e.op m = onGroup m group f)
    (hf : forall cg rg, m.cgroups[group]? = some cg -> r.cgroups[group]? = some rg ->
      cg.Inv -> rg.Inv -> cg.view = rg.view ->
      exists cg' sent s rg', f cg = .ok (cg', sent) ∧ cg'.Inv ∧
        replay e.later 0 sent r = .ok s ∧ Focus r s group rg' ∧ rg'.Inv ∧
        cg'.view = rg'.view) : Echoed e m r := by
  unfold Echoed exchange
  rw [hexec]
  rcases eq_none_or_eq_some m.cgroups[group]? with hnone | ⟨cg, hg⟩
  · refine ⟨(m, r), ?_, h⟩
    unfold onGroup
    rw [hnone]
    rfl
  · rcases h.group hg with ⟨rg, hrg, hview, hcg, hrgInv⟩
    rcases hf cg rg hg hrg hcg hrgInv hview.symm with
      ⟨cg', sent, s, rg', hok, hcg', hreplay, hfocus, hrg', hview'⟩
    refine ⟨({ m with cgroups := m.cgroups.insert group cg' }, s), ?_,
      h.update hfocus hcg' hrg' hview'⟩
    rw [onGroup_some hg hok]
    simp only [hreplay, ok_bind, pure_ok]

/-!
# Reads
-/

theorem range_replayed (h : Mirrored m r) (hclock : ClockAhead clock later)
    (hrg : r.cgroups[group]? = some rg) (hcg : cg.Inv) (hrgInv : rg.Inv)
    (hview : cg.view = rg.view)
    (hknown : cg.view.named consumer = true ∨ noack = false ∧ limited count (m.idsFrom start) ≠ []) :
    exists cg' sent s rg', streamReplyWithRange clock m start count group
        (streamLookupConsumer cg consumer).1 noack (streamLookupConsumer cg consumer).2 =
          .ok (cg', sent) ∧ cg'.Inv ∧
      replay later 0 sent r = .ok s ∧ Focus r s group rg' ∧ rg'.Inv ∧ cg'.view = rg'.view := by
  have hlooked := lookup_looked hcg.toNames consumer
  have hinv1 := hlooked.inv hcg
  have hview1 : (streamLookupConsumer cg consumer).2.view = rg.view.look consumer := by
    rw [hlooked.view hcg, hview]
  generalize streamLookupConsumer cg consumer = found at hlooked hinv1 hview1
  rcases found with ⟨c, cg1⟩
  unfold streamReplyWithRange
  cases noack with
  | false =>
    have hids : forall id, id ∈ limited count (m.idsFrom start) ->
        r.hasEntry (streamEncodeID id) = true := by
      intro id hid
      rcases mem_map.mp (mem_filter.mp (mem_limited hid)).left with ⟨e, he, rfl⟩
      rw [← h.hasEntry]
      exact any_eq_true.mpr ⟨e, he, by simp⟩
    rcases deliver_replayed hclock hids (i := 0) (j := 0) hinv1 hlooked.live (Focus.refl hrg)
      hrgInv hview1 with ⟨cg', sent, s, rg', hloop, hinv', hreplay, hfocus, hrg', hview', hnamed⟩
    have hknown' : limited count (m.idsFrom start) ≠ [] ∨ rg.view.named consumer = true := by
      rw [← hview]
      exact hknown.symm.imp_left And.right
    refine ⟨cg', sent, s, rg', ?_, hinv', hreplay, hfocus, hrg', ?_⟩
    · simp only [hloop, ok_bind, pure_ok]
      rfl
    · rw [hview', GroupView.look_of_named (hnamed hknown')]
  | true =>
    have hnamed : rg.view.named consumer = true := by
      rw [← hview]
      exact hknown.resolve_right (fun hno => nomatch hno.left)
    rw [GroupView.look_of_named hnamed] at hview1
    rcases deliver_noack clock group c 0 (limited count (m.idsFrom start)) hinv1 with
      ⟨cg', newer, hloop, hinv', hview', hlast⟩
    simp only [hloop, ok_bind, pure_ok]
    cases newer with
    | true =>
      rcases (Focus.refl hrg).setid hrgInv (later 0) cg'.lastId with
        ⟨s, rg', hstep, hfocus, hrg', hview2⟩
      refine ⟨cg', _, s, rg', rfl, hinv', ?_, hfocus, hrg', ?_⟩
      · simp only [if_true, nil_append, replay, hstep, ok_bind]
      · rw [hview', hview2, hview1]
    | false =>
      refine ⟨cg', _, r, rg, rfl, hinv', rfl, Focus.refl hrg, hrgInv, ?_⟩
      have hsame : { cg1.view with lastId := cg'.lastId } = cg1.view := by
        rw [hlast rfl]
        rfl
      rw [hview', hsame]
      exact hview1

theorem historyLoop_idle {l : List (Nat × Nat)}
    (h : forall key a, (key, a) ∈ l -> s.hasEntry key = false) :
    historyLoop clock s i l cg = .ok cg := by
  induction l generalizing i with
  | nil => rfl
  | cons e rest ih =>
    rcases e with ⟨key, a⟩
    rw [historyLoop, h key a mem_cons_self]
    exact ih fun key' a' hmem => h key' a' (mem_cons_of_mem _ hmem)

def NoHistory (s : Stream) (v : GroupView) (consumer : Sds) (start : StreamID) : Prop :=
  forall key p, v.pending key = some p -> p.owner = consumer ->
    streamEncodeID start ≤ key -> s.hasEntry key = false

theorem history_idle (clock : Nat -> Int) (hinv : cg.Inv) (count : Nat)
    (hnamed : cg.view.named consumer = true) (hno : NoHistory s cg.view consumer start) :
    (streamLookupConsumer cg consumer).2 = cg ∧
      streamReplyWithRangeFromConsumerPEL clock s start count
        (streamLookupConsumer cg consumer).1 cg = .ok cg := by
  rcases isSome_iff_exists.mp hnamed with ⟨c, hc⟩
  have hfound : streamLookupConsumer cg consumer = (c, cg) := by
    unfold streamLookupConsumer
    rw [hc]
  have hname := (hinv.listed consumer c).mp hc
  rcases consumerAt_of_nameOf hname with ⟨cons, hcell, _⟩
  rw [hfound]
  refine ⟨rfl, ?_⟩
  unfold streamReplyWithRangeFromConsumerPEL
  rw [hcell]
  apply historyLoop_idle
  intro key a hmem
  rcases mem_filter.mp (mem_limited hmem) with ⟨hlist, hstart⟩
  rw [Std.TreeMap.mem_toList_iff_getElem?_eq_some] at hlist
  have hheld : cg.held c key = some a := by
    rw [held, hcell]
    exact hlist
  rcases hinv.back c key a hheld with ⟨hpel, n, hn, howner⟩
  exact hno key _ (pendingAt_some hpel hn howner hname) rfl (of_decide_eq_true hstart)

/-!
# The condition
-/

/-- What a command needs so that the replica can follow: its clock is not behind, a reader
is known to the replica or becomes known to it by a claim, a read of the history changes
nothing, and the counters fit a signed number. -/
def Followed (e : Exchange) (m : Stream) : Prop :=
  ClockAhead e.clock.clock e.later ∧
    match e.op with
    | .xreadgroup group consumer gt _ noack =>
      forall cg : StreamCG, m.cgroups[group]? = some cg ->
        if gt ≠ ⟨UINT64_MAX, UINT64_MAX⟩ then
          cg.view.named consumer = true ∧ NoHistory m cg.view consumer (streamIncrID gt)
        else noack = true -> cg.view.named consumer = true
    | .serveBlocked group consumer _ noack =>
      forall cg : StreamCG, m.cgroups[group]? = some cg ->
        cg.view.named consumer = true ∨
          noack = false ∧ m.idsFrom (streamIncrID cg.lastId) ≠ []
    | .xclaim group _ o =>
      forall cg : StreamCG, m.cgroups[group]? = some cg -> CountsLow o o.ids.length cg.view
    | _ => True

theorem limited_ne_nil {A : Type} {xs : List A} (h : xs ≠ []) : limited count xs ≠ [] := by
  unfold limited
  split
  · exact h
  · next hcount =>
    intro hnil
    rcases take_eq_nil_iff.mp hnil with h0 | h0
    · exact hcount h0
    · exact h h0

section

variable (h : Mirrored m r)
include h

theorem exchange_xreadgroup (hop : e.op = .xreadgroup group consumer gt count noack)
    (hfollowed : Followed e m) :
    Echoed e m r := by
  rcases hfollowed with ⟨hclock, hcond⟩
  rw [hop] at hcond
  apply exchange_group h group (xreadgroup e.clock.clock m group consumer gt count noack)
    (by rw [hop]; rfl)
  intro cg rg hg hrg hcg hrgInv hview
  have hcond := hcond cg hg
  unfold xreadgroup
  by_cases hgt : gt ≠ ⟨UINT64_MAX, UINT64_MAX⟩
  · rw [if_pos hgt] at hcond ⊢
    have hidle := history_idle e.clock.clock hcg count hcond.left hcond.right
    refine ⟨cg, [], r, rg, ?_, hcg, rfl, Focus.refl hrg, hrgInv, hview⟩
    simp only [hidle.left, hidle.right, ok_bind, pure_ok]
  · rw [if_neg hgt] at hcond ⊢
    cases hlast : m.entries.getLast? with
    | none => exact ⟨cg, [], r, rg, rfl, hcg, rfl, Focus.refl hrg, hrgInv, hview⟩
    | some last =>
      dsimp only
      by_cases hnew : streamCompareID last.1 cg.lastId = .gt
      · rw [if_pos hnew]
        apply range_replayed h hclock hrg hcg hrgInv hview
        cases noack with
        | true => exact .inl (hcond rfl)
        | false =>
          have hmem := (mem_idsFrom hnew).mpr ⟨mem_map_of_mem (mem_of_getLast? hlast), hnew⟩
          exact .inr ⟨rfl, limited_ne_nil (ne_nil_of_mem hmem)⟩
      · rw [if_neg hnew]
        exact ⟨cg, [], r, rg, rfl, hcg, rfl, Focus.refl hrg, hrgInv, hview⟩

theorem exchange_serveBlocked (hop : e.op = .serveBlocked group consumer count noack)
    (hfollowed : Followed e m) :
    Echoed e m r := by
  rcases hfollowed with ⟨hclock, hcond⟩
  rw [hop] at hcond
  apply exchange_group h group (serveBlocked e.clock.clock m group consumer count noack)
    (by rw [hop]; rfl)
  intro cg rg hg hrg hcg hrgInv hview
  unfold serveBlocked
  by_cases hnew : streamCompareID m.lastId cg.lastId = .gt
  · rw [if_pos hnew]
    apply range_replayed h hclock hrg hcg hrgInv hview
    exact (hcond cg hg).imp_right fun hno => ⟨hno.left, limited_ne_nil hno.right⟩
  · rw [if_neg hnew]
    exact ⟨cg, [], r, rg, rfl, hcg, rfl, Focus.refl hrg, hrgInv, hview⟩

theorem exchange_xclaim (hop : e.op = .xclaim group consumer o) (hfollowed : Followed e m) :
    Echoed e m r := by
  rcases hfollowed with ⟨hclock, hcond⟩
  rw [hop] at hcond
  apply exchange_group h group (xclaim (e.clock.clock 0) m group consumer o) (by rw [hop]; rfl)
  intro cg rg hg hrg hcg hrgInv hview
  have hlow : CountsLow o o.ids.length (cg.raiseLastId o.lastId).view := by
    rw [view_raiseLastId]
    exact hcond cg hg
  have hraise : (cg.raiseLastId o.lastId).view = rg.view.raise o.lastId := by
    rw [view_raiseLastId, hview]
  rcases claim_replayed (j := 0) (hclock 0 0 0).left
    (fun j => (hclock 0 j 0).right) consumer h.hasEntry (hcg.raiseLastId o.lastId) hlow (Focus.refl hrg)
    hrgInv hraise with ⟨cg', sent, s, rg', hloop, hinv', hreplay, hfocus, hrg', hview', hsame⟩
  unfold xclaim
  simp only [hloop, ok_bind, pure_ok]
  cases sent with
  | cons op rest =>
    refine ⟨cg', _, s, rg', rfl, hinv', ?_, hfocus, hrg', hsame (.inl nofun)⟩
    rw [isEmpty_cons, Bool.and_false]
    exact hreplay
  | nil =>
    -- no claim was sent, so the replica has not moved yet
    cases hreplay
    by_cases hnew : streamCompareID o.lastId cg.lastId = .gt
    · rcases hfocus.setid hrg' (e.later 0) cg'.lastId with ⟨s', rg2, hstep, hfocus2, hrg2, hview2⟩
      refine ⟨cg', _, s', rg2, rfl, hinv', ?_, hfocus2, hrg2, ?_⟩
      · rw [decide_eq_true hnew]
        simp only [isEmpty_nil, Bool.and_self, if_true, replay, hstep, ok_bind]
      rw [hview2]
      apply GroupView.ext
      · rfl
      · rw [hview']
        rfl
      · rw [hview']
        rfl
    · have hold : cg.raiseLastId o.lastId = cg := if_neg hnew
      refine ⟨cg', _, r, rg', rfl, hinv', ?_, hfocus, hrg', hsame (.inr ?_)⟩
      · rw [decide_eq_false hnew]
        rfl
      · rw [hold]
        exact hview

/-!
# Commands that are propagated as they are
-/

theorem Mirrored.entries_update (hm : m'.cgroups = m.cgroups) (hr : r'.cgroups = r.cgroups)
    (hentries : m'.entries = r'.entries) (hlast : m'.lastId = r'.lastId) : Mirrored m' r' := by
  refine ⟨⟨hentries, hlast, ?_⟩, ?_, ?_⟩
  · intro g
    rw [hm, hr]
    exact h.groups g
  · intro g cg hg
    rw [hm] at hg
    exact h.master g cg hg
  · intro g cg hg
    rw [hr] at hg
    exact h.replica g cg hg

end

theorem trim_rewritten {trim : Trim} (h : s'.entries = s.entries) :
    (streamTrimByLength (trim.rewritten (streamTrimByLength trim s)) s').entries =
      (streamTrimByLength trim s).entries := by
  rcases trim with ⟨maxlen, approx⟩
  unfold streamTrimByLength Trim.rewritten
  rw [h]
  cases approx with
  | none => rfl
  | some removed =>
    simp only [isSome_some, if_true, getD_none, getD_some, length_drop]
    congr 1
    lia

section

variable (h : Mirrored m r)
include h

theorem exchange_xadd {trim : Option Trim} {id : Option StreamID} {fields : List (Sds × Sds)}
    (hop : e.op = .xadd trim id fields) : Echoed e m r := by
  unfold Echoed exchange
  rw [hop]
  simp only [exec, xadd, ok_bind, pure_ok]
  by_cases hnew : streamCompareID (id.getD (streamNextID m.lastId e.clock.wall)) m.lastId = .gt
  · have hnew' : streamCompareID (id.getD (streamNextID m.lastId e.clock.wall)) r.lastId = .gt := by
      rw [← h.lastId]
      exact hnew
    simp only [if_pos hnew]
    cases trim with
    | none =>
      simp only [replay, step, exec, xadd, getD_some, if_pos hnew', ok_bind, Except.map]
      exact ⟨_, rfl, h.entries_update rfl rfl (by rw [h.entries]) rfl⟩
    | some trim =>
      simp only [replay, step, exec, xadd, getD_some, if_pos hnew', ok_bind, Except.map]
      refine ⟨_, rfl, h.entries_update rfl rfl ?_ rfl⟩
      symm
      apply trim_rewritten
      rw [h.entries]
  · simp only [if_neg hnew]
    exact ⟨_, rfl, h⟩

theorem exchange_xdel (hop : e.op = .xdel ids) : Echoed e m r := by
  unfold Echoed exchange
  rw [hop]
  simp only [exec, xdel, ok_bind, pure_ok]
  by_cases hless : (m.entries.filter fun e => e.1 ∉ ids).length < m.entries.length
  · simp only [if_pos hless, replay, step, exec, xdel, ok_bind, Except.map]
    exact ⟨_, rfl, h.entries_update rfl rfl (by rw [h.entries]) h.lastId⟩
  simp only [if_neg hless, replay]
  refine ⟨_, rfl, h.entries_update rfl rfl ?_ h.lastId⟩
  have hsub := filter_sublist (p := fun e : StreamID × List (Sds × Sds) => e.1 ∉ ids)
    (l := m.entries)
  change m.entries.filter _ = r.entries
  rw [hsub.eq_of_length_le (Nat.not_lt.mp hless), h.entries]

theorem exchange_xtrim {trim : Trim} (hop : e.op = .xtrim trim) : Echoed e m r := by
  unfold Echoed exchange
  rw [hop]
  simp only [exec, xtrim, ok_bind, pure_ok]
  by_cases hless : (streamTrimByLength trim m).entries.length < m.entries.length
  · simp only [if_pos hless, replay, step, exec, xtrim, ok_bind, Except.map]
    refine ⟨_, rfl, h.entries_update rfl rfl ?_ h.lastId⟩
    exact (trim_rewritten h.entries.symm).symm
  simp only [if_neg hless, replay]
  refine ⟨_, rfl, h.entries_update rfl rfl ?_ h.lastId⟩
  have hsub : (streamTrimByLength trim m).entries.Sublist m.entries := drop_sublist _ _
  rw [hsub.eq_of_length_le (Nat.not_lt.mp hless), h.entries]

theorem exchange_xsetid (hop : e.op = .xsetid id) : Echoed e m r := by
  have hset : forall later : Nat -> Clock, (xsetid id m).2 = [.xsetid id] ->
      (xsetid id m).1 = { m with lastId := id } ->
      (xsetid id r).1 = { r with lastId := id } ->
      exists p, (do
        let r <- replay later 0 (xsetid id m).2 r
        return ((xsetid id m).1, r) : Except Fault (Stream × Stream)) = .ok p ∧
        Mirrored p.1 p.2 := by
    intro later hsent hm hr
    rw [hsent, hm]
    simp only [replay, step, exec, ok_bind, Except.map, pure, Except.pure, hr]
    exact ⟨_, rfl, h.entries_update rfl rfl h.entries rfl⟩
  unfold Echoed exchange
  rw [hop]
  simp only [exec, bind, Except.bind]
  cases hlast : m.entries.getLast? with
  | none =>
    apply hset e.later
    · simp only [xsetid, hlast]
    · simp only [xsetid, hlast]
    · simp only [xsetid, ← h.entries, hlast]
  | some last =>
    by_cases hbelow : streamCompareID id last.1 = .lt
    · refine ⟨(m, r), ?_, h⟩
      simp only [xsetid, hlast, if_pos hbelow, replay, pure, Except.pure]
    apply hset e.later
    · simp only [xsetid, hlast, if_neg hbelow]
    · simp only [xsetid, hlast, if_neg hbelow]
    · simp only [xsetid, ← h.entries, hlast, if_neg hbelow]

theorem exchange_xgroupCreate {id : Option StreamID} (hop : e.op = .xgroupCreate group id) :
    Echoed e m r := by
  unfold Echoed exchange
  rw [hop]
  cases hg : m.cgroups[group]? with
  | some cg =>
    refine ⟨(m, r), ?_, h⟩
    simp only [exec, hg, replay, ok_bind, pure_ok]
  | none =>
    have hr := h.group_none hg
    have hfocus : Focus r { r with
        cgroups := r.cgroups.insert group (streamCreateCG (id.getD r.lastId)) } group
        (streamCreateCG (id.getD r.lastId)) := by
      refine ⟨rfl, rfl, ?_, ?_⟩
      · exact (get_insert _ _ _ _).trans (if_pos rfl)
      · intro g hne
        exact (get_insert _ _ _ _).trans (if_neg hne)
    simp only [exec, hg, hr, replay, step, ok_bind, Except.map, pure, Except.pure]
    refine ⟨_, rfl, h.update hfocus (createCG_inv _) (createCG_inv _) ?_⟩
    rw [h.lastId]

theorem exchange_xgroupSetid {id : Option StreamID} (hop : e.op = .xgroupSetid group id) :
    Echoed e m r := by
  apply exchange_group h group
    (fun cg => .ok ({ cg with lastId := id.getD m.lastId }, [.xgroupSetid group id]))
    (by rw [hop]; rfl)
  intro cg rg _ hrg hcg hrgInv hview
  have hfocus := (Focus.refl hrg).insert { rg with lastId := id.getD r.lastId }
  refine ⟨_, _, _, _, rfl, hcg.setLastId _, ?_, hfocus, hrgInv.setLastId _, ?_⟩
  · simp only [replay, step, exec, onGroup, hrg, ok_bind, Except.map, pure, Except.pure]
  · rw [← h.lastId]
    exact congrArg (fun v : GroupView => { v with lastId := id.getD m.lastId }) hview

theorem exchange_xgroupDestroy (hop : e.op = .xgroupDestroy group) : Echoed e m r := by
  unfold Echoed exchange
  rw [hop]
  cases hg : m.cgroups[group]? with
  | none =>
    refine ⟨(m, r), ?_, h⟩
    simp only [exec, hg, replay, ok_bind, pure_ok]
  | some cg =>
    rcases h.group hg with ⟨rg, hrg, _⟩
    simp only [exec, hg, hrg, replay, step, ok_bind, Except.map, pure, Except.pure]
    refine ⟨_, rfl, ⟨h.entries, h.lastId, ?_⟩, h.master.erase group, h.replica.erase group⟩
    intro g
    change ((m.cgroups.erase group)[g]?).map _ = ((r.cgroups.erase group)[g]?).map _
    rw [get_erase, get_erase]
    split
    · rfl
    · exact h.groups g

theorem exchange_xgroupDelconsumer (hop : e.op = .xgroupDelconsumer group consumer) :
    Echoed e m r := by
  apply exchange_group h group (fun cg => do
    let cg <- streamDelConsumer cg consumer
    return (cg, [.xgroupDelconsumer group consumer])) (by rw [hop]; rfl)
  intro cg rg _ hrg hcg hrgInv hview
  rcases streamDelConsumer_view hcg consumer with ⟨cg', hok, hcg', hview'⟩
  rcases streamDelConsumer_view hrgInv consumer with ⟨rg', hrok, hrg', hrview'⟩
  refine ⟨cg', [.xgroupDelconsumer group consumer], _, rg', ?_, hcg', ?_,
    (Focus.refl hrg).insert rg', hrg', ?_⟩
  · simp only [hok, ok_bind, pure_ok]
  · simp only [replay, step, exec, onGroup, hrg, hrok, ok_bind, Except.map, pure, Except.pure]
  · rw [hview', hrview', hview]

theorem exchange_xack (hop : e.op = .xack group ids) : Echoed e m r := by
  apply exchange_group h group (fun cg => do
    let done <- ackLoop ids cg
    return (done.1, if done.2 then [.xack group ids] else [])) (by rw [hop]; rfl)
  intro cg rg _ hrg hcg hrgInv hview
  rcases ackLoop_view ids hcg with ⟨cg', acked, hok, hcg', hview', hsame⟩
  rcases ackLoop_view ids hrgInv with ⟨rg', racked, hrok, hrg', hrview', _⟩
  simp only [hok, ok_bind, pure_ok]
  cases acked with
  | true =>
    refine ⟨cg', _, _, rg', rfl, hcg', ?_, (Focus.refl hrg).insert rg', hrg', ?_⟩
    · simp only [if_true, replay, step, exec, onGroup, hrg, hrok, ok_bind, Except.map,
        pure, Except.pure]
    · rw [hview', hrview', hview]
  | false =>
    refine ⟨cg', _, r, rg, rfl, hcg', rfl, Focus.refl hrg, hrgInv, ?_⟩
    rw [hsame rfl]
    exact hview

/-!
# Runs
-/

theorem exchange_mirrored (hfollowed : Followed e m) : Echoed e m r := by
  cases hop : e.op with
  | xadd trim id fields => exact exchange_xadd h hop
  | xdel ids => exact exchange_xdel h hop
  | xtrim trim => exact exchange_xtrim h hop
  | xsetid id => exact exchange_xsetid h hop
  | xgroupCreate group id => exact exchange_xgroupCreate h hop
  | xgroupSetid group id => exact exchange_xgroupSetid h hop
  | xgroupDestroy group => exact exchange_xgroupDestroy h hop
  | xgroupDelconsumer group consumer => exact exchange_xgroupDelconsumer h hop
  | xreadgroup group consumer gt count noack => exact exchange_xreadgroup h hop hfollowed
  | serveBlocked group consumer count noack => exact exchange_serveBlocked h hop hfollowed
  | xack group ids => exact exchange_xack h hop
  | xclaim group consumer o => exact exchange_xclaim h hop hfollowed

end

/-- While every command can be followed, no run faults and the replica always looks like the
master. -/
theorem group_replication_follows (exchanges : List Exchange) (m r : Stream) (hm : m.Inv)
    (hr : r.Inv) (hstart : Same m r)
    (hall : AllSteps exchange (fun e p => Followed e p.1) exchanges (m, r)) :
    exists m' r', runSteps exchange exchanges (m, r) = .ok (m', r') ∧ Same m' r' := by
  have hrun : exists p, runSteps exchange exchanges (m, r) = .ok p ∧ Mirrored p.1 p.2 := by
    have hmirrored : Mirrored m r := ⟨hstart, hm, hr⟩
    induction exchanges generalizing m r with
    | nil => exact ⟨(m, r), rfl, hmirrored⟩
    | cons e rest ih =>
      rcases exchange_mirrored hmirrored hall.left with ⟨⟨m1, r1⟩, hok, h1⟩
      rw [runSteps_cons_ok hok]
      exact ih m1 r1 h1.master h1.replica h1.toSame (hall.right _ hok) h1
  rcases hrun with ⟨⟨m', r'⟩, hok, h⟩
  exact ⟨m', r', hok, h.toSame⟩

/-- Both systems at the time `now`. -/
def atTime (now : Int) (op : StreamOp) : Exchange :=
  { clock := ⟨fun _ => now, 0⟩, op := op, later := fun _ => ⟨fun _ => now, 0⟩ }

theorem group_replication_follows_delivery :
    exists m' r', runSteps exchange
      [atTime 5 (.xadd none (some ⟨1, 1⟩) []), atTime 6 (.xgroupCreate [103] (some ⟨0, 0⟩)),
        atTime 7 (.xreadgroup [103] [99] ⟨UINT64_MAX, UINT64_MAX⟩ 0 false),
        atTime 8 (.xack [103] [⟨1, 1⟩])] (streamNew, streamNew) = .ok (m', r') ∧ Same m' r' := by
  apply group_replication_follows _ _ _ streamNew_inv streamNew_inv ⟨rfl, rfl, fun _ => rfl⟩
  have hahead : forall now : Int, 0 ≤ now -> ClockAhead (fun _ => now) fun _ => ⟨fun _ => now, 0⟩ :=
    fun now hnow _ _ _ => ⟨hnow, le_rfl⟩
  refine ⟨⟨hahead 5 (by decide), trivial⟩, fun _ _ => ⟨⟨hahead 6 (by decide), trivial⟩,
    fun _ _ => ⟨⟨hahead 7 (by decide), ?_⟩,
    fun _ _ => ⟨⟨hahead 8 (by decide), trivial⟩, fun _ _ => trivial⟩⟩⟩⟩
  intro cg _
  rw [if_neg (fun h => h rfl)]
  nofun

/-- A read of the history makes a consumer on the master and propagates nothing. -/
theorem history_read_not_propagated :
    exists m r, runSteps exchange
      [atTime 5 (.xadd none (some ⟨1, 1⟩) []), atTime 6 (.xgroupCreate [103] (some ⟨0, 0⟩)),
        atTime 7 (.xreadgroup [103] [99] ⟨0, 0⟩ 0 false)] (streamNew, streamNew) = .ok (m, r) ∧
      ((m.cgroups[([103] : Sds)]?).map fun cg => cg.view.named [99]) = some true ∧
      ((r.cgroups[([103] : Sds)]?).map fun cg => cg.view.named [99]) = some false ∧
      ¬ Same m r := by
  apply (@exists_run_of_reaches _ _ _ exchange
    (fun p => ((p.1.cgroups[([103] : Sds)]?).map fun cg => cg.view.named [99]) = some true ∧
      ((p.2.cgroups[([103] : Sds)]?).map fun cg => cg.view.named [99]) = some false) _ _ _ _).elim
  · rintro ⟨m, r⟩ ⟨hok, hm, hr⟩
    refine ⟨m, r, hok, hm, hr, ?_⟩
    intro hsame
    have hgroup := congrArg (Option.map fun v : GroupView => v.named [99]) (hsame.groups [103])
    rw [Option.map_map, Option.map_map] at hgroup
    have hknown : some true = some false := hm.symm.trans (hgroup.trans hr)
    cases hknown
  · decide +kernel

end Streams
end Redisoo
