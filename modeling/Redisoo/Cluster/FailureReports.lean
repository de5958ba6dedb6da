import Mathlib.Data.Finset.Powerset
import Redisoo.Foundation.Run

/-!
# Failure reports

One node of `cluster.c` collects what the masters say about the other nodes, and marks a node
as failing when it has enough reports.  Gossip, the clock, the table of the nodes and the
local flags change in any order.
-/

namespace Redisoo
namespace Cluster

open Foundation List Function

/-- What a node knows of the others: masters, nodes with slots, the nodes counted in
`server.cluster->size`, the flags, and the reports with the time of the last one. -/
structure Watcher where
  now : Int
  nodeTimeout : Int
  masters : Finset Nat
  serving : Finset Nat
  counted : Finset Nat
  pfail : Finset Nat
  fail : Finset Nat
  reports : Nat -> List (Nat × Int)

namespace Watcher

def voting (s : Watcher) : Finset Nat :=
  s.masters ∩ s.serving

def setReports (s : Watcher) (node : Nat) (l : List (Nat × Int)) : Watcher :=
  { s with reports := Function.update s.reports node l }

def clusterNodeAddFailureReport (failing sender : Nat) (s : Watcher) : Watcher :=
  let l := s.reports failing
  s.setReports failing (if l.any (fun fr => fr.1 == sender) then
      l.map fun fr => if fr.1 = sender then (fr.1, s.now) else fr
    else l ++ [(sender, s.now)])

def valid (s : Watcher) (l : List (Nat × Int)) : List (Nat × Int) :=
  l.filter fun fr => !decide (s.now - fr.2 > s.nodeTimeout * 2)

def clusterNodeCleanupFailureReports (node : Nat) (s : Watcher) : Watcher :=
  s.setReports node (s.valid (s.reports node))

def clusterNodeDelFailureReport (node sender : Nat) (s : Watcher) : Watcher :=
  let l := s.reports node
  s.setReports node (if l.any (fun fr => fr.1 == sender) then
      s.valid (l.eraseP fun fr => fr.1 == sender)
    else l)

def failures (me node : Nat) (s : Watcher) : Nat :=
  let n := (s.reports node).length
  if me ∈ s.masters then n + 1 else n

def markNodeAsFailingIfNeeded (me node : Nat) (s : Watcher) : Watcher :=
  let neededQuorum := s.counted.card / 2 + 1
  if node ∉ s.pfail then s
  else if node ∈ s.fail then s
  else
    let s := s.clusterNodeCleanupFailureReports node
    if s.failures me node < neededQuorum then s
    else { s with pfail := s.pfail.erase node, fail := insert node s.fail }

def gossip (me sender node : Nat) (failing pinged : Bool) (s : Watcher) : Watcher :=
  let s :=
    if sender ∈ s.masters ∧ node ≠ me then
      if failing then (s.clusterNodeAddFailureReport node sender).markNodeAsFailingIfNeeded me node
      else s.clusterNodeDelFailureReport node sender
    else s
  if !failing && !pinged then s.clusterNodeCleanupFailureReports node else s

def clusterDelNode (n : Nat) (s : Watcher) : Watcher :=
  { s with
    masters := s.masters.erase n
    serving := s.serving.erase n
    pfail := s.pfail.erase n
    fail := s.fail.erase n
    reports := fun node =>
      if node = n then [] else (s.clusterNodeDelFailureReport node n).reports node }

inductive Event where
  | gossip (sender node : Nat) (failing pinged : Bool)
  | tick (now : Int)
  | table (masters serving : Finset Nat)
  | updateState
  /-- `clusterCron` sets a flag, or a packet sets or clears one. -/
  | flags (pfail fail : Finset Nat)
  | delNode (n : Nat)

/-- A node gets packets from other nodes only. -/
def step (me : Nat) (l : Event) (s : Watcher) : Except Unit Watcher :=
  match l with
  | .gossip sender node failing pinged =>
    if sender = me then .error () else .ok (s.gossip me sender node failing pinged)
  | .tick now => .ok { s with now }
  | .table masters serving => .ok { s with masters, serving }
  | .updateState => .ok { s with counted := s.voting }
  | .flags pfail fail => .ok { s with pfail, fail }
  | .delNode n => if n = me then .error () else .ok (s.clusterDelNode n)

/-!
# Reports come from different voters
-/

variable {me node sender : Nat} {s s' : Watcher} {l : Event} {fs gs : List (Nat × Int)}

def Distinct (me : Nat) (s : Watcher) (fs : List (Nat × Int)) : Prop :=
  (fs.map Prod.fst).Nodup ∧ forall v, v ∈ fs.map Prod.fst -> v ∈ s.voting ∧ v ≠ me

theorem Distinct.sublist (h : Distinct me s fs) (hsub : gs.Sublist fs) : Distinct me s gs := by
  have hmap := hsub.map Prod.fst
  exact ⟨h.left.sublist hmap, fun v hv => h.right v (hmap.subset hv)⟩

def Reported (me : Nat) (s : Watcher) : Prop :=
  forall node, Distinct me s (s.reports node)

section

variable (h : Reported me s)
include h

theorem Reported.set (hl : Distinct me s fs) : Reported me (s.setReports node fs) := by
  intro k
  change Distinct me s (update s.reports node fs k)
  by_cases hk : k = node
  · rw [hk, update_self]
    exact hl
  · rw [update_of_ne hk]
    exact h k

theorem Reported.cleanup (node : Nat) : Reported me (s.clusterNodeCleanupFailureReports node) :=
  h.set ((h node).sublist filter_sublist)

theorem Reported.add (hsender : sender ∈ s.voting) (hme : sender ≠ me) :
    Reported me (s.clusterNodeAddFailureReport node sender) := by
  rcases h node with ⟨hnodup, hall⟩
  refine h.set ?_
  split
  · have hmap : ((s.reports node).map fun fr => if fr.1 = sender then (fr.1, s.now) else fr).map
        Prod.fst = (s.reports node).map Prod.fst := by
      rw [map_map]
      refine map_congr_left fun fr _ => ?_
      dsimp only [comp]
      split
      · rfl
      · rfl
    unfold Distinct
    rw [hmap]
    exact ⟨hnodup, hall⟩
  · next hnew =>
    refine ⟨?_, ?_⟩
    · rw [map_append, map_singleton]
      refine nodup_append_comm.mp (nodup_cons.mpr ⟨fun hin => hnew ?_, hnodup⟩)
      rcases mem_map.mp hin with ⟨fr, hfr, heq⟩
      exact any_eq_true.mpr ⟨fr, hfr, beq_iff_eq.mpr heq⟩
    · intro v hv
      rw [map_append, mem_append] at hv
      rcases hv with hv | hv
      · exact hall v hv
      · rw [mem_singleton.mp hv]
        exact ⟨hsender, hme⟩

theorem Reported.del (node sender : Nat) :
    Reported me (s.clusterNodeDelFailureReport node sender) := by
  refine h.set ?_
  split
  · exact (h node).sublist (filter_sublist.trans eraseP_sublist)
  · exact h node

end

theorem not_reported_of_del (hnodup : ((s.reports node).map Prod.fst).Nodup) :
    sender ∉ ((s.clusterNodeDelFailureReport node sender).reports node).map Prod.fst := by
  change sender ∉ (update s.reports node _ node).map Prod.fst
  rw [update_self]
  split
  · have hmap : ((s.reports node).eraseP fun fr => fr.1 == sender).map Prod.fst =
        ((s.reports node).map Prod.fst).erase sender := by
      rw [erase_eq_eraseP', eraseP_map]
      rfl
    intro hin
    have herase := (filter_sublist.map Prod.fst).subset hin
    rw [hmap] at herase
    exact hnodup.not_mem_erase herase
  · next hnone =>
    intro hin
    rcases mem_map.mp hin with ⟨fr, hfr, heq⟩
    exact hnone (any_eq_true.mpr ⟨fr, hfr, beq_iff_eq.mpr heq⟩)

theorem markNodeAsFailingIfNeeded_cases (me node : Nat) (s : Watcher) :
    s.markNodeAsFailingIfNeeded me node = s ∨
      s.markNodeAsFailingIfNeeded me node = s.clusterNodeCleanupFailureReports node ∨
      node ∈ s.pfail ∧ s.markNodeAsFailingIfNeeded me node =
        { s.clusterNodeCleanupFailureReports node with
          pfail := s.pfail.erase node, fail := insert node s.fail } ∧
        s.counted.card / 2 + 1 ≤ (s.clusterNodeCleanupFailureReports node).failures me node := by
  unfold markNodeAsFailingIfNeeded
  dsimp only
  split
  · exact .inl rfl
  · next hpfail =>
    split
    · exact .inl rfl
    · split
      · exact .inr (.inl rfl)
      · next hmany => exact .inr (.inr ⟨not_not.mp hpfail, rfl, Nat.not_lt.mp hmany⟩)

theorem Reported.gossip (h : Reported me s) (hsender : sender ∈ s.masters -> sender ∈ s.serving)
    (hme : sender ≠ me) (failing pinged : Bool) :
    Reported me (s.gossip me sender node failing pinged) := by
  have hreport : Reported me (if sender ∈ s.masters ∧ node ≠ me then
      if failing then (s.clusterNodeAddFailureReport node sender).markNodeAsFailingIfNeeded me node
      else s.clusterNodeDelFailureReport node sender
    else s) := by
    split
    · next hmaster =>
      have hadd : Reported me (s.clusterNodeAddFailureReport node sender) :=
        h.add (Finset.mem_inter.mpr ⟨hmaster.left, hsender hmaster.left⟩) hme
      split
      · rcases markNodeAsFailingIfNeeded_cases me node (s.clusterNodeAddFailureReport node sender)
          with heq | heq | ⟨_, heq, _⟩
        · rw [heq]
          exact hadd
        · rw [heq]
          exact hadd.cleanup node
        · rw [heq]
          exact hadd.cleanup node
      · exact h.del node sender
    · exact h
  unfold Watcher.gossip
  dsimp only
  split
  · exact hreport.cleanup node
  · exact hreport

/-- Whoever reports is a master with slots and stays one, the node itself has slots if it is a
master, and the size is up to date. -/
def Sound (me : Nat) (l : Event) (s : Watcher) : Prop :=
  match l with
  | .gossip sender _ _ _ => (sender ∈ s.masters -> sender ∈ s.serving) ∧
      (me ∈ s.masters -> me ∈ s.serving) ∧ s.counted = s.voting
  | .table masters serving => forall node fr, fr ∈ s.reports node -> fr.1 ∈ masters ∩ serving
  | _ => True

theorem step_reported (h : Reported me s) (hsound : Sound me l s)
    (hstep : step me l s = .ok s') : Reported me s' := by
  unfold step at hstep
  cases l with
  | gossip sender node failing pinged =>
    dsimp only at hstep
    split at hstep
    · cases hstep
    · next hme =>
      cases hstep
      exact h.gossip hsound.left hme failing pinged
  | table masters serving =>
    cases hstep
    refine fun node => ⟨(h node).left, fun v hv => ⟨?_, ((h node).right v hv).right⟩⟩
    rcases mem_map.mp hv with ⟨fr, hfr, rfl⟩
    exact hsound node fr hfr
  | delNode n =>
    dsimp only at hstep
    split at hstep
    · cases hstep
    cases hstep
    intro node
    change Distinct me _ (if node = n then [] else _)
    split
    · exact ⟨nodup_nil, nofun⟩
    have hdel : Distinct me s ((s.clusterNodeDelFailureReport node n).reports node) :=
      h.del node n node
    refine ⟨hdel.left, fun v hv => ⟨?_, (hdel.right v hv).right⟩⟩
    have hne : v ≠ n := fun heq => not_reported_of_del (h node).left (heq ▸ hv)
    have hvoting := Finset.mem_inter.mp (hdel.right v hv).left
    exact Finset.mem_inter.mpr ⟨Finset.mem_erase.mpr ⟨hne, hvoting.left⟩,
      Finset.mem_erase.mpr ⟨hne, hvoting.right⟩⟩
  | _ =>
    cases hstep
    exact h

theorem gossip_marks {pinged : Bool} (heq : s.gossip me sender node true pinged = s')
    (hnot : node ∉ s.fail) (hmarked : node ∈ s'.fail) :
    node ∈ s.pfail ∧ s.counted.card / 2 + 1 ≤ s'.failures me node ∧
      s'.masters = s.masters ∧ s'.serving = s.serving ∧
      forall fr, fr ∈ s'.reports node -> s'.now - fr.2 ≤ s'.nodeTimeout * 2 := by
  subst heq
  simp only [gossip, Bool.not_true, Bool.false_and, Bool.false_eq_true, if_false, if_true]
    at hmarked ⊢
  split at hmarked
  · next hif =>
    rw [if_pos hif]
    rcases markNodeAsFailingIfNeeded_cases me node (s.clusterNodeAddFailureReport node sender)
      with heq | heq | ⟨hpfail, heq, hquorum⟩
    · rw [heq] at hmarked
      exact absurd hmarked hnot
    · rw [heq] at hmarked
      exact absurd hmarked hnot
    · rw [heq]
      refine ⟨hpfail, hquorum, rfl, rfl, fun fr hfr => ?_⟩
      have hself : (clusterNodeCleanupFailureReports node
          (s.clusterNodeAddFailureReport node sender)).reports node = _ :=
        update_self ..
      rw [hself] at hfr
      have hvalid := (mem_filter.mp hfr).right
      rw [Bool.not_eq_true', decide_eq_false_iff_not] at hvalid
      exact Int.not_lt.mp hvalid
  · exact absurd hmarked hnot

theorem Reported.voters (h : Reported me s) (hme : me ∈ s.masters -> me ∈ s.serving) (node : Nat) :
    exists M, M ⊆ s.voting ∧ s.failures me node = M.card ∧
      forall v, v ∈ M -> v = me ∨ v ∈ (s.reports node).map Prod.fst := by
  rcases h node with ⟨hnodup, hall⟩
  have hcard : ((s.reports node).map Prod.fst).toFinset.card = (s.reports node).length := by
    rw [toFinset_card_of_nodup hnodup, length_map]
  have hsub : ((s.reports node).map Prod.fst).toFinset ⊆ s.voting :=
    fun v hv => (hall v (mem_toFinset.mp hv)).left
  unfold failures
  dsimp only
  split
  · next hmaster =>
    have hvoter : me ∈ s.voting := Finset.mem_inter.mpr ⟨hmaster, hme hmaster⟩
    have hother : me ∉ ((s.reports node).map Prod.fst).toFinset :=
      fun hin => (hall me (mem_toFinset.mp hin)).right rfl
    refine ⟨insert me ((s.reports node).map Prod.fst).toFinset,
      Finset.insert_subset hvoter hsub, ?_, fun v hv => ?_⟩
    · rw [Finset.card_insert_of_notMem hother, hcard]
    · rcases Finset.mem_insert.mp hv with heq | hv
      · exact .inl heq
      · exact .inr (mem_toFinset.mp hv)
  · exact ⟨_, hsub, hcard.symm, fun v hv => .inr (mem_toFinset.mp hv)⟩

/-- A node that is marked has been reported by a majority of the masters with slots, in reports
that are still valid. -/
theorem fail_needs_majority {s0 s s' : Watcher} {ls : List Event} {pinged : Bool}
    (h0 : forall node, s0.reports node = []) (hall : AllSteps (step me) (Sound me) ls s0)
    (hrun : runSteps (step me) ls s0 = .ok s) (hsound : Sound me (.gossip sender node true pinged) s)
    (hstep : step me (.gossip sender node true pinged) s = .ok s') (hnot : node ∉ s.fail)
    (hmarked : node ∈ s'.fail) :
    exists M, M ⊆ s'.voting ∧ s'.voting.card / 2 + 1 ≤ M.card ∧ forall v, v ∈ M ->
      v = me ∧ node ∈ s.pfail ∨
        exists t, (v, t) ∈ s'.reports node ∧ s'.now - t ≤ s'.nodeTimeout * 2 := by
  have hstart : Reported me s0 := by
    intro node
    rw [h0]
    exact ⟨nodup_nil, nofun⟩
  have hreported : Reported me s :=
    runSteps_invariant (fun l s s' h hcond hstep => step_reported h hcond hstep) hstart hall hrun
  have hreported' := step_reported hreported hsound hstep
  simp only [step] at hstep
  split at hstep
  · cases hstep
  rcases gossip_marks (Except.ok.inj hstep) hnot hmarked with
    ⟨hpfail, hquorum, hmasters, hserving, hvalid⟩
  rcases hsound with ⟨_, hme, hcounted⟩
  have hvoting : s'.voting = s.voting := by
    unfold voting
    rw [hmasters, hserving]
  rw [← hmasters, ← hserving] at hme
  rcases hreported'.voters hme node with ⟨M, hsub, hcard, hsource⟩
  rw [hcounted, ← hvoting, hcard] at hquorum
  refine ⟨M, hsub, hquorum, fun v hv => ?_⟩
  rcases hsource v hv with heq | hreport
  · exact .inl ⟨heq, hpfail⟩
  · rcases mem_map.mp hreport with ⟨⟨_, t⟩, hfr, rfl⟩
    exact .inr ⟨t, hfr, hvalid _ hfr⟩

def suspicious : Watcher :=
  { now := 0, nodeTimeout := 1000, masters := {0, 1, 2, 3}, serving := {0, 1, 2},
    counted := {0, 1, 2}, pfail := {2}, fail := ∅, reports := fun _ => [] }

def fiveVoters : Watcher :=
  { suspicious with masters := {0, 1, 2, 3, 4}, serving := {0, 1, 2, 3, 4} }

/-- Of five voters two report the node; the second report, a second later, marks it. -/
theorem fail_needs_majority_of_five : exists s s' M,
    runSteps (step 0) [.updateState, .gossip 1 2 true false, .tick 1000] fiveVoters = .ok s ∧
    2 ∉ s.fail ∧ step 0 (.gossip 3 2 true false) s = .ok s' ∧ 2 ∈ s'.fail ∧
      M ⊆ s'.voting ∧ 3 ≤ Finset.card M := by
  have hall : AllSteps (step 0) (Sound 0) [.updateState, .gossip 1 2 true false, .tick 1000]
      fiveVoters := by
    refine ⟨trivial, fun s1 h1 => ?_⟩
    cases h1
    refine ⟨⟨by decide, by decide, rfl⟩, fun s2 h2 => ?_⟩
    cases h2
    exact ⟨trivial, fun _ _ => trivial⟩
  have hsound : forall s, runSteps (step 0) [.updateState, .gossip 1 2 true false, .tick 1000]
      fiveVoters = .ok s -> Sound 0 (.gossip 3 2 true false) s := by
    intro s hrun
    cases hrun
    exact ⟨by decide, by decide, by decide⟩
  rcases fail_needs_majority (fun _ => rfl) hall rfl (hsound _ rfl) rfl (by decide) (by decide)
    with ⟨M, hsub, hcard, _⟩
  exact ⟨_, _, M, rfl, by decide, rfl, by decide, hsub, hcard⟩

/-- The master without slots reports it, and node 0 is the only voter that suspects it. -/
theorem fail_by_idle_master : exists s',
    step 0 (.gossip 3 2 true false) suspicious = .ok s' ∧ 2 ∈ s'.fail ∧
      forall M, M ∈ s'.voting.powerset ->
        (forall v, v ∈ M -> v = 0 ∨ v ∈ (s'.reports 2).map Prod.fst) ->
        M.card < s'.voting.card / 2 + 1 :=
  ⟨_, rfl, by decide, by decide⟩

end Watcher
end Cluster
end Redisoo
