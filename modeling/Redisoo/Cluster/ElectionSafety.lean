import Mathlib.Data.List.Pairwise
import Redisoo.Cluster.Election

/-!
# Votes and promotions

The acknowledgements a replica has counted since its request come from different voters, each
of which has voted for it in the epoch of the request.  This needs that no acknowledgement
arrives while the replica waits to send its next request.
-/

namespace Redisoo
namespace Cluster

open Foundation List World List.Pairwise

variable {w w' : World} {i : Nat} {n n' : Node} {K : Finset Nat -> Nat -> Prop} {V : Finset Nat}
  {l : Label} {m : Msg} {heard : List Nat}

def OneVote (votes : List Ballot) : Prop :=
  votes.Pairwise fun b b' => b.voter = b'.voter -> b.epoch ≠ b'.epoch

def Apart (m m' : Msg) : Prop :=
  m.type = .authAck -> m'.type = .authAck -> m.sender = m'.sender ->
    m.currentEpoch ≠ m'.currentEpoch

def Used (w : World) (i : Nat) (n : Node) : Prop :=
  ⟨i, n.failoverAuthEpoch⟩ ∈ w.promotions

structure Heard (K : Finset Nat -> Nat -> Prop) (w : World) (i : Nat) (n : Node)
    (heard : List Nat) : Prop where
  length : heard.length = n.failoverAuthCount
  nodup : heard.Nodup
  known : forall v, v ∈ heard -> Used w i n ∨ K n.counted v
  voted : forall v, v ∈ heard -> ⟨v, n.failoverAuthEpoch, i⟩ ∈ w.votes
  arrived : forall m, m ∈ w.net -> m.type = .authAck -> m.receiver = i ->
    m.currentEpoch = n.failoverAuthEpoch -> m.sender ∉ heard

structure Sane (n : Node) : Prop where
  ahead : n.failoverAuthEpoch ≤ n.currentEpoch
  waiting : n.failoverAuthSent = false -> n.failoverAuthCount = 0

structure Ballots (w : World) : Prop where
  last : forall i, (w.nodes i).lastVoteEpoch ≤ (w.nodes i).currentEpoch
  cast : forall b, b ∈ w.votes -> b.epoch ≤ (w.nodes b.voter).lastVoteEpoch
  one : OneVote w.votes

structure Inv (K : Finset Nat -> Nat -> Prop) (w : World) : Prop where
  sane : forall i, Sane (w.nodes i)
  request : forall m force, m ∈ w.net -> m.type = .authRequest force ->
    m.receiver ≠ m.sender ∧ m.currentEpoch ≤ (w.nodes m.sender).failoverAuthEpoch
  ack : forall m, m ∈ w.net -> m.type = .authAck -> m.sender ≠ m.receiver ∧
    ⟨m.sender, m.currentEpoch, m.receiver⟩ ∈ w.votes ∧
    m.currentEpoch ≤ (w.nodes m.receiver).failoverAuthEpoch
  apart : w.net.Pairwise Apart
  heard : forall i, exists heard, Heard K w i (w.nodes i) heard

structure Calm (n n' : Node) : Prop where
  epoch : n.currentEpoch ≤ n'.currentEpoch
  last : n'.lastVoteEpoch = n.lastVoteEpoch
  auth : n'.failoverAuthEpoch = n.failoverAuthEpoch
  count : n'.failoverAuthSent = n.failoverAuthSent ∧ n'.failoverAuthCount = n.failoverAuthCount ∨
    n'.failoverAuthSent = false ∧ n'.failoverAuthCount = 0

theorem forall_setNode {P : Nat -> Node -> Prop} (hn : P i n')
    (h : forall j, P j (w.nodes j)) (j : Nat) : P j ((w.setNode i n').nodes j) := by
  change P j (Function.update w.nodes i n' j)
  rw [Function.update_apply]
  split
  · next heq =>
    rw [heq]
    exact hn
  · exact h j

theorem Heard.nil (hcount : n.failoverAuthCount = 0) : Heard K w i n [] :=
  ⟨hcount.symm, nodup_nil, nofun, nofun, fun _ _ _ _ _ => not_mem_nil⟩

theorem Heard.setNode {j : Nat} (h : Heard K w j n heard) : Heard K (w.setNode i n') j n heard :=
  ⟨h.length, h.nodup, h.known, h.voted, h.arrived⟩

section

variable (h : Inv K w)
include h

theorem Inv.set (hn : Sane n')
    (hauth : (w.nodes i).failoverAuthEpoch ≤ n'.failoverAuthEpoch)
    (hheard : exists heard, Heard K w i n' heard) : Inv K (w.setNode i n') := by
  have hauth' := forall_setNode
    (P := fun j n => (w.nodes j).failoverAuthEpoch ≤ n.failoverAuthEpoch)
    hauth fun _ => Nat.le_refl _
  refine ⟨forall_setNode (P := fun _ n => Sane n) hn h.sane, ?_, ?_, h.apart, ?_⟩
  · intro m force hm htype
    exact (h.request m force hm htype).imp_right fun hle => hle.trans (hauth' _)
  · intro m hm htype
    exact (h.ack m hm htype).imp_right fun hack => hack.imp_right fun hle => hle.trans (hauth' _)
  · exact forall_setNode (P := fun j n => exists heard, Heard K (w.setNode i n') j n heard)
      (hheard.imp fun _ hi => hi.setNode) fun j => (h.heard j).imp fun _ hj => hj.setNode

theorem Inv.node (hn : Calm (w.nodes i) n')
    (hK : n'.failoverAuthSent = true -> Used w i n' ∨
      forall v, K (w.nodes i).counted v -> K n'.counted v) : Inv K (w.setNode i n') := by
  have hwait : n'.failoverAuthSent = false -> n'.failoverAuthCount = 0 := by
    intro hsent
    rcases hn.count with ⟨hs, hc⟩ | ⟨_, hc⟩
    · rw [hc, (h.sane i).waiting (hs ▸ hsent)]
    · exact hc
  have hsane := h.sane i
  refine h.set ⟨hn.auth ▸ hsane.ahead.trans hn.epoch, hwait⟩ hn.auth.ge ?_
  rcases h.heard i with ⟨heard, hi⟩
  cases hsent : n'.failoverAuthSent with
  | false => exact ⟨[], Heard.nil (hwait hsent)⟩
  | true =>
    rcases hn.count with ⟨_, hc⟩ | ⟨hs, _⟩
    · refine ⟨heard, by rw [hc, hi.length], hi.nodup, ?_, by rw [hn.auth]; exact hi.voted,
        by rw [hn.auth]; exact hi.arrived⟩
      intro v hv
      rcases hK hsent with hused | hkeep
      · exact .inl hused
      refine (hi.known v hv).imp ?_ (hkeep v)
      unfold Used
      rw [hn.auth]
      exact id
    · rw [hs] at hsent
      cases hsent

theorem Inv.lose {net : List Msg} (hsub : net.Sublist w.net) : Inv K { w with net := net } := by
  have hmem : forall {m}, m ∈ net -> m ∈ w.net := fun hm => hsub.subset hm
  refine ⟨h.sane, fun m force hm => h.request m force (hmem hm),
    fun m hm => h.ack m (hmem hm), h.apart.sublist hsub, fun i => ?_⟩
  rcases h.heard i with ⟨heard, hi⟩
  exact ⟨heard, hi.length, hi.nodup, hi.known, hi.voted, fun m hm => hi.arrived m (hmem hm)⟩

theorem Inv.send {sent : List Msg} (hack : forall m, m ∈ sent -> m.type ≠ .authAck)
    (hrequest : forall m force, m ∈ sent -> m.type = .authRequest force ->
      m.receiver ≠ m.sender ∧ m.currentEpoch ≤ (w.nodes m.sender).failoverAuthEpoch) :
    Inv K { w with net := sent ++ w.net } := by
  have hmem : forall {m}, m ∈ sent ++ w.net -> m.type = .authAck -> m ∈ w.net := by
    intro m hm htype
    exact (mem_append.mp hm).resolve_left fun hsent => hack m hsent htype
  refine ⟨h.sane, fun m force hm htype => ?_,
    fun m hm htype => h.ack m (hmem hm htype) htype, ?_, fun i => ?_⟩
  · rcases mem_append.mp hm with hsent | hold
    · exact hrequest m force hsent htype
    · exact h.request m force hold htype
  · refine pairwise_append.mpr ⟨?_, h.apart, ?_⟩
    · exact pairwise_of_forall_mem_list fun m hm _ _ htype => absurd htype (hack m hm)
    · exact fun m hm _ _ htype => absurd htype (hack m hm)
  · rcases h.heard i with ⟨heard, hi⟩
    exact ⟨heard, hi.length, hi.nodup, hi.known, hi.voted,
      fun m hm htype => hi.arrived m (hmem hm htype) htype⟩

theorem Inv.vote {c e : Nat} {acks : List Msg}
    (hnew : forall b, b ∈ w.votes -> b.voter = i -> b.epoch ≠ e)
    (hother : i ≠ c) (hle : e ≤ (w.nodes c).failoverAuthEpoch)
    (hacks : forall m, m ∈ acks -> m.sender = i ∧ m.receiver = c ∧ m.type = .authAck ∧
      m.currentEpoch = e) (hlen : acks.length ≤ 1) :
    Inv K { w with votes := ⟨i, e, c⟩ :: w.votes, net := acks ++ w.net } := by
  refine ⟨h.sane, ?_, ?_, ?_, ?_⟩
  · intro m force hm htype
    rcases mem_append.mp hm with hm | hm
    · rw [(hacks m hm).2.2.1] at htype
      cases htype
    · exact h.request m force hm htype
  · intro m hm htype
    rcases mem_append.mp hm with hm | hm
    · rcases hacks m hm with ⟨hs, hr, _, he⟩
      rw [hs, hr, he]
      exact ⟨hother, mem_cons_self, hle⟩
    · exact (h.ack m hm htype).imp_right fun hack => hack.imp_left (mem_cons_of_mem _)
  · refine pairwise_append.mpr ⟨?_, h.apart, ?_⟩
    · match acks, hlen with
      | [], _ => exact nil
      | [_], _ => exact pairwise_singleton _ _
    · intro m hm m' hm' _ htype hsender hepoch
      rcases hacks m hm with ⟨hs, _, _, he⟩
      exact hnew _ (h.ack m' hm' htype).right.left (hsender ▸ hs) (hepoch ▸ he)
  · intro j
    rcases h.heard j with ⟨heard, hj⟩
    refine ⟨heard, hj.length, hj.nodup, hj.known, fun v hv => mem_cons_of_mem _ (hj.voted v hv), ?_⟩
    intro m hm htype hto heq
    rcases mem_append.mp hm with hm | hm
    · rcases hacks m hm with ⟨hs, _, _, he⟩
      exact fun hin => hnew _ (hj.voted _ hin) hs (heq.symm.trans he)
    · exact hj.arrived m hm htype hto heq

theorem Inv.count (hm : m ∈ w.net) (htype : m.type = .authAck)
    (hepoch : (w.nodes m.receiver).failoverAuthEpoch ≤ m.currentEpoch)
    (hsent : (w.nodes m.receiver).failoverAuthSent = true)
    (hK : Used w m.receiver (w.nodes m.receiver) ∨ K (w.nodes m.receiver).counted m.sender)
    (hn : n' = { w.nodes m.receiver with
      currentEpoch := max (w.nodes m.receiver).currentEpoch m.currentEpoch
      failoverAuthCount := (w.nodes m.receiver).failoverAuthCount + 1 }) :
    Inv K (setNode { w with net := w.net.erase m } m.receiver n') := by
  rcases h.ack m hm htype with ⟨_, hvote, hle⟩
  replace hepoch := Nat.le_antisymm hle hepoch
  have hsub : (w.net.erase m).Sublist w.net := erase_sublist
  have hrest : forall m', m' ∈ w.net.erase m -> Apart m m' := by
    have hperm := (perm_cons_erase hm).pairwise_iff (R := Apart)
      fun hab ha hb heq hne => hab hb ha heq.symm hne.symm
    exact (pairwise_cons.mp (hperm.mp h.apart)).left
  have hsane := h.sane m.receiver
  subst hn
  refine (h.lose hsub).set ⟨?_, ?_⟩ (Nat.le_refl _) ?_
  · exact hsane.ahead.trans (Nat.le_max_left _ _)
  · intro hwait
    exact absurd (hsent.symm.trans hwait) (by decide)
  · rcases h.heard m.receiver with ⟨heard, hi⟩
    refine ⟨m.sender :: heard, ?_, ?_, ?_, ?_, ?_⟩
    · rw [length_cons, hi.length]
    · exact nodup_cons.mpr ⟨hi.arrived m hm htype rfl hepoch, hi.nodup⟩
    · exact forall_mem_cons.mpr ⟨hK, hi.known⟩
    · exact forall_mem_cons.mpr ⟨hepoch ▸ hvote, hi.voted⟩
    · intro m' hm' htype' hto heq hin
      rcases mem_cons.mp hin with hsame | hin
      · exact hrest m' hm' htype htype' hsame.symm (hepoch.trans heq.symm)
      · exact hi.arrived m' (hsub.subset hm') htype' hto heq hin

end

/-!
# Steps
-/

structure SameTable (n n' : Node) : Prop where
  slaveof : n'.slaveof = n.slaveof
  voting : n'.voting = n.voting
  counted : n'.counted = n.counted

inductive Handled (i : Nat) (n : Node) : Node -> Outcome -> Prop where
  | nothing {n' : Node} (h : Calm n n') (hs : SameTable n n') : Handled i n n' .nothing
  | requested {n' : Node} (hsent : n.failoverAuthSent = false) (hs : SameTable n n')
      (hepoch : n'.currentEpoch = (n.currentEpoch + 1) % 2 ^ 64)
      (hauth : n'.failoverAuthEpoch = n'.currentEpoch) (hlast : n'.lastVoteEpoch = n.lastVoteEpoch)
      (hsent' : n'.failoverAuthSent = true)
      (hcount : n'.failoverAuthCount = n.failoverAuthCount) : Handled i n n' .requested
  | promoted {n' : Node} {master : Nat} (h : Calm n n') (hmaster : n.slaveof = some master)
      (hsent : n.failoverAuthSent = true) (hquorum : n.counted.card / 2 + 1 ≤ n.failoverAuthCount)
      (hslave : n'.slaveof = none)
      (hvoting : n'.voting = insert i n.masters ∩ insert i (n.serving.erase master))
      (hcounted : n'.counted = n.counted ∨ n'.counted = n'.voting) : Handled i n n' .promoted

theorem updateRank_eq (env : FailoverEnv) (n : Node) : exists time rank, updateRank env n =
    { n with failoverAuthTime := time, failoverAuthRank := rank } := by
  unfold updateRank
  split
  · exact ⟨_, _, rfl⟩
  · exact ⟨_, _, rfl⟩

theorem clusterHandleSlaveFailover_handled (i : Nat) (env : FailoverEnv) (n : Node) :
    Handled i n (clusterHandleSlaveFailover i env n).1 (clusterHandleSlaveFailover i env n).2 := by
  have hnone : forall time rank, Handled i n
      { n with failoverAuthTime := time, failoverAuthRank := rank } .nothing :=
    fun _ _ => .nothing ⟨Nat.le_refl _, rfl, rfl, .inl ⟨rfl, rfl⟩⟩ ⟨rfl, rfl, rfl⟩
  rcases updateRank_eq env n with ⟨time, rank, hrank⟩
  unfold clusterHandleSlaveFailover
  rw [hrank]
  dsimp only
  split
  · exact hnone _ _
  · next master hmaster =>
    split
    · exact hnone _ _
    split
    · exact hnone _ _
    split
    · exact .nothing ⟨Nat.le_refl _, rfl, rfl, .inr ⟨rfl, rfl⟩⟩ ⟨rfl, rfl, rfl⟩
    split
    · exact hnone _ _
    split
    · exact hnone _ _
    split
    · next hnot =>
      exact .requested (Bool.not_eq_true' _ ▸ hnot) ⟨rfl, rfl, rfl⟩ rfl rfl rfl rfl rfl
    · next hyes =>
      rw [Bool.not_eq_true', Bool.not_eq_false] at hyes
      split
      · next hquorum =>
        unfold clusterFailoverReplaceYourMaster
        dsimp only
        split
        · exact .promoted ⟨Nat.le_refl _, rfl, rfl, .inl ⟨rfl, rfl⟩⟩ hmaster hyes hquorum
            rfl rfl (.inl rfl)
        · exact .promoted ⟨Nat.le_refl _, rfl, rfl, .inl ⟨rfl, rfl⟩⟩ hmaster hyes hquorum
            rfl rfl (.inr rfl)
      · exact hnone _ _

def Timely (l : Label) (w : World) : Prop :=
  match l with
  | .deliver m _ => m.type = .authAck -> (w.nodes m.receiver).failoverAuthSent = true
  | .failover i _ => (w.nodes i).currentEpoch + 1 < 2 ^ 64
  | .bump i => (w.nodes i).currentEpoch + 1 < 2 ^ 64
  | _ => True

def Keeps (K : Finset Nat -> Nat -> Prop) (l : Label) (w : World) : Prop :=
  match l with
  | .deliver m _ => m.type = .authAck -> m.sender ∈ (w.nodes m.receiver).voting ->
      Used w m.receiver (w.nodes m.receiver) ∨ K (w.nodes m.receiver).counted m.sender
  | .updateState i => Used w i (w.nodes i) ∨
      forall v, K (w.nodes i).counted v -> K (w.nodes i).voting v
  | _ => True

theorem Inv.promote (h : Inv K w) (p : Promotion) :
    Inv K { w with promotions := p :: w.promotions } :=
  ⟨h.sane, h.request, h.ack, h.apart, fun i =>
    (h.heard i).imp fun _ hi => ⟨hi.length, hi.nodup,
      fun v hv => (hi.known v hv).imp_left (mem_cons_of_mem _), hi.voted, hi.arrived⟩⟩

theorem granted {view : VoteView} {force : Bool}
    (h : clusterSendFailoverAuthIfNeeded i view m force n = some n') :
    (exists voted, n' = { n with lastVoteEpoch := n.currentEpoch, votedTime := voted }) ∧
      n.lastVoteEpoch ≠ n.currentEpoch ∧ n.currentEpoch ≤ m.currentEpoch := by
  unfold clusterSendFailoverAuthIfNeeded at h
  simp only [Option.ite_none_left_eq_some] at h
  rcases h with ⟨_, hepoch, hlast, _, h⟩
  split at h
  · cases h
  · simp only [Option.ite_none_left_eq_some, Option.some.injEq] at h
    exact ⟨⟨_, h.2.2.2.symm⟩, hlast, Nat.not_lt.mp hepoch⟩

theorem Ballots.unvoted (h : Ballots w) (hlast : (w.nodes i).lastVoteEpoch ≠
      max (w.nodes i).currentEpoch m.currentEpoch) :
    forall b, b ∈ w.votes -> b.voter = i -> b.epoch ≠
      max (w.nodes i).currentEpoch m.currentEpoch := by
  intro b hb hvoter
  have hcast := h.cast b hb
  have hle := h.last i
  rw [hvoter] at hcast
  lia

theorem Inv.receive (h : Inv K w) (hballots : Ballots w) (hm : m ∈ w.net) (view : VoteView)
    (htimely : Timely (.deliver m view) w) (hkeeps : Keeps K (.deliver m view) w) :
    Inv K (clusterProcessPacket m view { w with net := w.net.erase m }) := by
  have hraise : Inv K (setNode { w with net := w.net.erase m } m.receiver
      { w.nodes m.receiver with
        currentEpoch := max (w.nodes m.receiver).currentEpoch m.currentEpoch }) :=
    (h.lose erase_sublist).node ⟨Nat.le_max_left _ _, rfl, rfl, .inl ⟨rfl, rfl⟩⟩
      fun _ => .inr fun _ hk => hk
  unfold clusterProcessPacket
  dsimp only
  split
  · next force htype =>
    split
    · exact hraise
    · next n' hvote =>
      rcases granted hvote with ⟨⟨voted, rfl⟩, hlast, hepoch⟩
      rcases h.request m force hm htype with ⟨hother, hle⟩
      dsimp only at hlast hepoch
      have hsane := h.sane m.receiver
      have hmax := Nat.le_max_left (w.nodes m.receiver).currentEpoch m.currentEpoch
      have hlost : Inv K { w with net := w.net.erase m } := h.lose erase_sublist
      have hset : Inv K (setNode { w with net := w.net.erase m } m.receiver
          { w.nodes m.receiver with
            currentEpoch := max (w.nodes m.receiver).currentEpoch m.currentEpoch
            lastVoteEpoch := max (w.nodes m.receiver).currentEpoch m.currentEpoch
            votedTime := voted }) :=
        hlost.set ⟨hsane.ahead.trans hmax, hsane.waiting⟩
          (Nat.le_refl _) ((hlost.heard _).imp fun _ hi =>
            ⟨hi.length, hi.nodup, hi.known, hi.voted, hi.arrived⟩)
      refine hset.vote (i := m.receiver) (hballots.unvoted hlast) hother ?_ ?_ ?_
      · simpa [setNode, Function.update_of_ne hother.symm] using hepoch.trans hle
      · split
        · exact forall_mem_singleton.mpr ⟨rfl, rfl, rfl, rfl⟩
        · exact nofun
      · split
        · exact Nat.le_refl 1
        · exact Nat.zero_le 1
  · next htype =>
    split
    · next hcounted =>
      exact h.count hm htype hcounted.right (htimely htype) (hkeeps htype hcounted.left) rfl
    · exact hraise
  · exact hraise

theorem failover_cases {env : FailoverEnv} (hstep : step (.failover i env) w = .ok w') :
    exists n' o, Handled i (w.nodes i) n' o ∧ w' = match o with
      | .nothing => w.setNode i n'
      | .requested => { w.setNode i n' with net := clusterRequestFailoverAuth i env n' ++ w.net }
      | .promoted => { w.setNode i n' with
          promotions := ⟨i, n'.failoverAuthEpoch⟩ :: w.promotions } := by
  have hhandled := clusterHandleSlaveFailover_handled i env (w.nodes i)
  unfold step at hstep
  dsimp only at hstep
  split at hstep
  all_goals
    next n' heq =>
      rw [heq] at hhandled
      cases hstep
      exact ⟨n', _, hhandled, rfl⟩

theorem step_inv (h : Inv K w) (hballots : Ballots w) (htimely : Timely l w) (hkeeps : Keeps K l w)
    (hstep : step l w = .ok w') : Inv K w' := by
  cases l with
  | ping i j =>
    cases hstep
    change Inv K { w with net := [_] ++ w.net }
    refine h.send ?_ ?_
    · exact forall_mem_singleton.mpr nofun
    · rintro m force hm htype
      rw [mem_singleton.mp hm] at htype
      cases htype
  | deliver m view =>
    unfold step at hstep
    dsimp only at hstep
    split at hstep
    · next hm =>
      cases hstep
      exact h.receive hballots hm view htimely hkeeps
    · cases hstep
  | lose m =>
    cases hstep
    exact h.lose erase_sublist
  | failover i env =>
    rcases failover_cases hstep with ⟨n', o, hhandled, rfl⟩
    cases hhandled with
    | nothing hcalm hs => exact h.node hcalm fun _ => .inr fun v hk => hs.counted.symm ▸ hk
    | requested hsent hs hepoch hauth hlast hsent' hcount =>
      rw [Nat.mod_eq_of_lt htimely] at hepoch
      have hsane := h.sane i
      have hzero := hcount.trans (hsane.waiting hsent)
      have hnew : Inv K (w.setNode i n') := by
        refine h.set ⟨hauth.le, fun _ => hzero⟩ ?_ ⟨[], Heard.nil hzero⟩
        rw [hauth, hepoch]
        exact hsane.ahead.trans (Nat.le_succ _)
      refine hnew.send ?_ ?_
      · intro m hm
        rcases mem_map.mp hm with ⟨j, _, rfl⟩
        exact nofun
      intro m force hm _
      rcases mem_map.mp hm with ⟨j, hj, rfl⟩
      have hself : (w.setNode i n').nodes i = n' := Function.update_self ..
      refine ⟨by simpa using (mem_filter.mp hj).right, ?_⟩
      dsimp only
      rw [hself, hauth]
    | promoted hcalm hmaster hsent hquorum hslave hvoting hcounted =>
      exact (h.promote ⟨i, n'.failoverAuthEpoch⟩).node hcalm fun _ => .inl mem_cons_self
  | bump i =>
    cases hstep
    refine h.node ⟨?_, rfl, rfl, .inl ⟨rfl, rfl⟩⟩ fun _ => .inr fun _ hk => hk
    have hlt : (w.nodes i).currentEpoch + 1 < 2 ^ 64 := htimely
    rw [Nat.mod_eq_of_lt hlt]
    exact Nat.le_succ _
  | table i slaveof masters serving =>
    cases hstep
    exact h.node ⟨Nat.le_refl _, rfl, rfl, .inl ⟨rfl, rfl⟩⟩ fun _ => .inr fun _ hk => hk
  | updateState i =>
    cases hstep
    exact h.node ⟨Nat.le_refl _, rfl, rfl, .inl ⟨rfl, rfl⟩⟩ fun _ => hkeeps

/-!
# Ballots
-/

def NoWrap (l : Label) (w : World) : Prop :=
  match l with
  | .failover i _ => (w.nodes i).currentEpoch + 1 < 2 ^ 64
  | .bump i => (w.nodes i).currentEpoch + 1 < 2 ^ 64
  | _ => True

theorem Timely.noWrap (h : Timely l w) : NoWrap l w := by
  cases l with
  | failover i env | bump i => exact h
  | _ => trivial

theorem Ballots.set (h : Ballots w) (hlast : (w.nodes i).lastVoteEpoch ≤ n'.lastVoteEpoch)
    (hn : n'.lastVoteEpoch ≤ n'.currentEpoch) : Ballots (w.setNode i n') := by
  refine ⟨forall_setNode (P := fun _ n => n.lastVoteEpoch ≤ n.currentEpoch) hn h.last, ?_, h.one⟩
  intro b hb
  exact (h.cast b hb).trans (forall_setNode
    (P := fun j n => (w.nodes j).lastVoteEpoch ≤ n.lastVoteEpoch) hlast (fun _ => Nat.le_refl _) _)

theorem Ballots.calm (h : Ballots w) (hn : Calm (w.nodes i) n') : Ballots (w.setNode i n') := by
  refine h.set hn.last.ge ?_
  rw [hn.last]
  exact (h.last i).trans hn.epoch

theorem Ballots.receive (h : Ballots w) (m : Msg) (view : VoteView) :
    Ballots (clusterProcessPacket m view w) := by
  have hmax := Nat.le_max_left (w.nodes m.receiver).currentEpoch m.currentEpoch
  unfold clusterProcessPacket
  dsimp only
  split
  · split
    · exact h.calm ⟨hmax, rfl, rfl, .inl ⟨rfl, rfl⟩⟩
    · next n' hvote =>
      rcases granted hvote with ⟨⟨voted, rfl⟩, hlast, _⟩
      have hset : Ballots (w.setNode m.receiver
          { w.nodes m.receiver with
            currentEpoch := max (w.nodes m.receiver).currentEpoch m.currentEpoch
            lastVoteEpoch := max (w.nodes m.receiver).currentEpoch m.currentEpoch
            votedTime := voted }) :=
        h.set ((h.last m.receiver).trans hmax) (Nat.le_refl _)
      refine ⟨hset.last, forall_mem_cons.mpr ⟨?_, hset.cast⟩, ?_⟩
      · simp [setNode]
      · exact pairwise_cons.mpr ⟨fun b hb heq => (h.unvoted hlast b hb heq.symm).symm, h.one⟩
  · split
    · exact h.set (Nat.le_refl _) ((h.last m.receiver).trans hmax)
    · exact h.calm ⟨hmax, rfl, rfl, .inl ⟨rfl, rfl⟩⟩
  · exact h.calm ⟨hmax, rfl, rfl, .inl ⟨rfl, rfl⟩⟩

theorem step_ballots (h : Ballots w) (hwrap : NoWrap l w) (hstep : step l w = .ok w') :
    Ballots w' := by
  cases l with
  | ping i j | lose m =>
    cases hstep
    exact ⟨h.last, h.cast, h.one⟩
  | deliver m view =>
    unfold step at hstep
    dsimp only at hstep
    split at hstep
    · cases hstep
      have hlost : Ballots { w with net := w.net.erase m } := ⟨h.last, h.cast, h.one⟩
      exact hlost.receive m view
    · cases hstep
  | failover i env =>
    rcases failover_cases hstep with ⟨n', o, hhandled, rfl⟩
    cases hhandled with
    | nothing hcalm _ => exact h.calm hcalm
    | requested _ _ hepoch _ hlast _ _ =>
      have hnext : n'.lastVoteEpoch ≤ n'.currentEpoch := by
        rw [hlast, hepoch, Nat.mod_eq_of_lt hwrap]
        exact (h.last i).trans (Nat.le_succ _)
      have hset := h.set hlast.ge hnext
      exact ⟨hset.last, hset.cast, hset.one⟩
    | promoted hcalm _ _ _ _ _ _ =>
      have hset := h.calm hcalm
      exact ⟨hset.last, hset.cast, hset.one⟩
  | bump i =>
    cases hstep
    have hlt : (w.nodes i).currentEpoch + 1 < 2 ^ 64 := hwrap
    refine h.set (Nat.le_refl _) ?_
    dsimp only
    rw [Nat.mod_eq_of_lt hlt]
    exact (h.last i).trans (Nat.le_succ _)
  | table i slaveof masters serving | updateState i =>
    cases hstep
    exact h.set (Nat.le_refl _) (h.last i)

/-!
# Runs
-/

structure Initial (w : World) : Prop where
  net : w.net = []
  votes : w.votes = []
  promotions : w.promotions = []
  node : forall i, (w.nodes i).failoverAuthEpoch ≤ (w.nodes i).currentEpoch ∧
    (w.nodes i).lastVoteEpoch ≤ (w.nodes i).currentEpoch ∧ (w.nodes i).failoverAuthCount = 0

theorem Initial.inv (h : Initial w) : Inv K w := by
  refine ⟨fun i => ⟨(h.node i).1, fun _ => (h.node i).2.2⟩, ?_, ?_, ?_,
    fun i => ⟨[], Heard.nil (h.node i).2.2⟩⟩
  · rw [h.net]
    exact nofun
  · rw [h.net]
    exact nofun
  · rw [h.net]
    exact nil

theorem Initial.ballots (h : Initial w) : Ballots w := by
  refine ⟨fun i => (h.node i).2.1, ?_, ?_⟩
  · rw [h.votes]
    exact nofun
  · rw [h.votes]
    exact nil

theorem Inv.majority (h : Inv K w) (hhandled : Handled i (w.nodes i) n' .promoted) :
    exists M : Finset Nat, (w.nodes i).counted.card / 2 + 1 ≤ M.card ∧
      forall v, v ∈ M -> ⟨v, (w.nodes i).failoverAuthEpoch, i⟩ ∈ w.votes ∧
        (Used w i (w.nodes i) ∨ K (w.nodes i).counted v) := by
  rcases h.heard i with ⟨heard, hi⟩
  cases hhandled with
  | promoted _ _ _ hquorum _ _ _ =>
    refine ⟨heard.toFinset, ?_, fun v hv => ?_⟩
    · rw [toFinset_card_of_nodup hi.nodup, hi.length]
      exact hquorum
    · rw [mem_toFinset] at hv
      exact ⟨hi.voted v hv, hi.known v hv⟩

/-- The votes come in time and from masters that are counted in the size, and a node that
has won is not a replica again before its election has run out. -/
def Paid (l : Label) (w : World) : Prop :=
  Timely l w ∧
    match l with
    | .deliver m _ => m.type = .authAck -> m.sender ∈ (w.nodes m.receiver).voting ->
        Used w m.receiver (w.nodes m.receiver) ∨ m.sender ∈ (w.nodes m.receiver).counted
    | .updateState i => Used w i (w.nodes i) ∨ (w.nodes i).counted ⊆ (w.nodes i).voting
    | .failover i env => Used w i (w.nodes i) -> (w.nodes i).slaveof = none ∨
        max (env.nodeTimeout * 2) 2000 < env.now - (w.nodes i).failoverAuthTime
    | _ => True

instance (l : Label) (w : World) : Decidable (Timely l w) := by
  unfold Timely
  split <;> infer_instance

instance (l : Label) (w : World) : Decidable (Paid l w) := by
  unfold Paid Used
  split <;> infer_instance

theorem Paid.keeps (h : Paid l w) : Keeps (fun counted v => v ∈ counted) l w := by
  cases l with
  | deliver m view => exact h.right
  | updateState i => exact h.right.imp_right fun hsub v hv => hsub hv
  | _ => trivial

theorem promoted_in_time {env : FailoverEnv}
    (h : (clusterHandleSlaveFailover i env n).2 = .promoted) :
    n.slaveof ≠ none ∧ env.now - n.failoverAuthTime ≤ max (env.nodeTimeout * 2) 2000 := by
  unfold clusterHandleSlaveFailover at h
  dsimp only at h
  split at h
  · cases h
  · next master hmaster =>
    refine ⟨by rw [hmaster]; exact Option.some_ne_none master, ?_⟩
    by_contra hlate
    rw [not_le] at hlate
    -- the calls that come later return before the quorum is tested
    split at h
    · cases h
    split at h
    · cases h
    split at h
    · cases h
    split at h
    · cases h
    · cases h

def trio : World :=
  { nodes := fun i =>
      { slaveof := if i < 3 then none else some 0
        masters := {0, 1, 2}
        serving := {0, 1, 2}
        counted := {0, 1, 2} }
    net := [], votes := [], promotions := [] }

theorem trio_initial : Initial trio := ⟨rfl, rfl, rfl, fun _ => ⟨Nat.le_refl _, Nat.le_refl _, rfl⟩⟩

def vote (i c epoch : Nat) (now : Int) : Label :=
  .deliver ⟨c, i, epoch, 0, .authRequest false⟩ ⟨now, 1000, false, some 0, true, [], true⟩

def acknowledge (i c epoch : Nat) : Label :=
  .deliver ⟨i, c, epoch, 0, .authAck⟩ ⟨0, 1000, true, none, false, [], true⟩

def ask (c : Nat) (now : Int) : List Label :=
  [.failover c { now := now - 500 }, .failover c { now := now, links := [1, 2] }]

def elected : List Label :=
  ask 3 10500 ++ [vote 1 3 1 10500, vote 2 3 1 10500, acknowledge 1 3 1, acknowledge 2 3 1]

structure Known (V : Finset Nat) (i : Nat) (n : Node) : Prop where
  voting : forall v, v ∈ n.voting -> v ∈ V ∨ v = i
  size : V.card ≤ n.counted.card
  next : V.card ≤ n.voting.card
  slave : forall m, n.slaveof = some m -> n.voting = V ∧ i ∉ V

def Fixed (V : Finset Nat) (l : Label) : Prop :=
  match l with
  | .table i slaveof masters serving => masters ∩ serving = V ∧ (slaveof ≠ none -> i ∉ V)
  | _ => True

def Won (V : Finset Nat) (w : World) : Prop :=
  forall p, p ∈ w.promotions -> exists M, M ⊆ V ∧ V.card / 2 + 1 ≤ M.card ∧
    forall v, v ∈ M -> ⟨v, p.epoch, p.node⟩ ∈ w.votes

theorem Known.same (h : Known V i n) (hs : SameTable n n') : Known V i n' := by
  refine ⟨?_, ?_, ?_, ?_⟩
  · rw [hs.voting]
    exact h.voting
  · rw [hs.counted]
    exact h.size
  · rw [hs.voting]
    exact h.next
  · rw [hs.slaveof, hs.voting]
    exact h.slave

theorem Known.promoted (h : Known V i n) {master : Nat} (hmaster : n.slaveof = some master)
    (hslave : n'.slaveof = none)
    (hvoting : n'.voting = insert i n.masters ∩ insert i (n.serving.erase master))
    (hcounted : n'.counted = n.counted ∨ n'.counted = n'.voting) : Known V i n' := by
  rcases h.slave master hmaster with ⟨hV, hi⟩
  unfold Node.voting at hV
  have hnext : V.card ≤ n'.voting.card := by
    have hsub : insert i (V.erase master) ⊆ n'.voting := by
      intro v
      rw [hvoting, ← hV]
      simp
      tauto
    have hcard := Finset.card_le_card hsub
    rw [Finset.card_insert_of_notMem fun hin => hi (Finset.mem_of_mem_erase hin)] at hcard
    have hpred := Finset.pred_card_le_card_erase (s := V) (a := master)
    lia
  refine ⟨?_, ?_, hnext, ?_⟩
  · intro v hv
    rw [hvoting] at hv
    rw [← hV]
    simp at hv ⊢
    tauto
  · rcases hcounted with hc | hc
    · rw [hc]
      exact h.size
    · rw [hc]
      exact hnext
  · intro m hm
    rw [hslave] at hm
    cases hm

theorem packet_table (m : Msg) (view : VoteView) (w : World) (j : Nat) :
    SameTable (w.nodes j) ((clusterProcessPacket m view w).nodes j) ∧
      (clusterProcessPacket m view w).promotions = w.promotions ∧
      forall b, b ∈ w.votes -> b ∈ (clusterProcessPacket m view w).votes := by
  have hset : forall n', SameTable (w.nodes m.receiver) n' ->
      SameTable (w.nodes j) ((w.setNode m.receiver n').nodes j) := by
    intro n' hn
    exact forall_setNode (P := fun j n => SameTable (w.nodes j) n) hn (fun _ => ⟨rfl, rfl, rfl⟩) j
  unfold clusterProcessPacket
  dsimp only
  split
  · split
    · exact ⟨hset _ ⟨rfl, rfl, rfl⟩, rfl, fun _ hb => hb⟩
    · next hvote =>
      rcases granted hvote with ⟨⟨voted, rfl⟩, _, _⟩
      exact ⟨hset _ ⟨rfl, rfl, rfl⟩, rfl, fun _ hb => mem_cons_of_mem _ hb⟩
  · refine ⟨hset _ ?_, rfl, fun _ hb => hb⟩
    split
    · exact ⟨rfl, rfl, rfl⟩
    · exact ⟨rfl, rfl, rfl⟩
  · exact ⟨hset _ ⟨rfl, rfl, rfl⟩, rfl, fun _ hb => hb⟩

structure Safe (V : Finset Nat) (w : World) : Prop where
  ballots : Ballots w
  inv : Inv (fun _ v => v ∈ V) w
  known : forall i, Known V i (w.nodes i)
  won : Won V w

theorem step_safe (h : Safe V w) (hfixed : Fixed V l) (htimely : Timely l w)
    (hstep : step l w = .ok w') : Safe V w' := by
  have hkeeps : Keeps (fun _ v => v ∈ V) l w := by
    cases l with
    | deliver m view =>
      intro htype hsender
      have hm : m ∈ w.net := by
        by_contra hm
        simp [step, hm] at hstep
      exact .inr ((h.known _).voting _ hsender |>.resolve_right (h.inv.ack m hm htype).left)
    | updateState i => exact .inr fun _ hv => hv
    | _ => trivial
  have hballots := step_ballots h.ballots htimely.noWrap hstep
  have hinv := step_inv h.inv h.ballots htimely hkeeps hstep
  cases l with
  | ping i j | lose m =>
    cases hstep
    exact ⟨hballots, hinv, h.known, h.won⟩
  | deliver m view =>
    unfold step at hstep
    dsimp only at hstep
    split at hstep
    · cases hstep
      have hsame := packet_table m view { w with net := w.net.erase m }
      refine ⟨hballots, hinv, fun j => (h.known j).same (hsame j).left, ?_⟩
      intro p hp
      rw [(hsame 0).right.left] at hp
      rcases h.won p hp with ⟨M, hsub, hcard, hM⟩
      exact ⟨M, hsub, hcard, fun v hv => (hsame 0).right.right _ (hM v hv)⟩
    · cases hstep
  | failover i env =>
    rcases failover_cases hstep with ⟨n', o, hhandled, rfl⟩
    have hset : Known V i n' -> forall j, Known V j ((w.setNode i n').nodes j) :=
      fun hn => forall_setNode hn h.known
    cases hhandled with
    | nothing _ hs | requested _ hs _ _ _ _ _ =>
      exact ⟨hballots, hinv, hset ((h.known i).same hs), h.won⟩
    | promoted hcalm hmaster hsent hquorum hslave hvoting hcounted =>
      refine ⟨hballots, hinv, hset ((h.known i).promoted hmaster hslave hvoting hcounted), ?_⟩
      intro p hp
      rcases mem_cons.mp hp with rfl | hp
      · dsimp only
        rw [hcalm.auth]
        by_cases hused : Used w i (w.nodes i)
        · exact h.won _ hused
        rcases h.inv.majority (.promoted hcalm hmaster hsent hquorum hslave hvoting hcounted) with
          ⟨M, hcard, hM⟩
        refine ⟨M, fun v hv => (hM v hv).right.resolve_left hused, ?_, fun v hv => (hM v hv).left⟩
        have hsize := (h.known i).size
        lia
      · exact h.won p hp
  | bump i =>
    cases hstep
    exact ⟨hballots, hinv, forall_setNode ((h.known i).same ⟨rfl, rfl, rfl⟩) h.known, h.won⟩
  | table i slaveof masters serving =>
    cases hstep
    refine ⟨hballots, hinv, forall_setNode ⟨?_, (h.known i).size, ?_, ?_⟩ h.known, h.won⟩
    · exact fun v hv => .inl (hfixed.left ▸ hv)
    · exact (congrArg Finset.card hfixed.left).ge
    · intro m hm
      refine ⟨hfixed.left, hfixed.right ?_⟩
      dsimp only at hm
      rw [hm]
      exact Option.some_ne_none m
  | updateState i =>
    cases hstep
    have hi := h.known i
    exact ⟨hballots, hinv, forall_setNode ⟨hi.voting, hi.next, hi.next, hi.slave⟩ h.known, h.won⟩

/-- Every voter votes at most once in an epoch, and while the voters are fixed and
acknowledgements come in time every epoch has at most one winner. -/
theorem one_winner_of_timely {w0 w : World} {ls : List Label} (h0 : Initial w0)
    (hrun : runSteps World.step ls w0 = .ok w) :
    (AllSteps World.step NoWrap ls w0 -> OneVote w.votes) ∧
      forall V : Finset Nat, (forall i, (w0.nodes i).voting = V ∧ (w0.nodes i).counted = V ∧
          ((w0.nodes i).slaveof ≠ none -> i ∉ V)) ->
        AllSteps World.step (fun l w => Fixed V l ∧ Timely l w) ls w0 ->
        forall p q, p ∈ w.promotions -> q ∈ w.promotions -> p.epoch = q.epoch ->
          p.node = q.node := by
  constructor
  · intro hall
    exact (runSteps_invariant (fun _ _ _ h hwrap hstep => step_ballots h hwrap hstep)
      h0.ballots hall hrun).one
  intro V hknown hall
  have hstart : Safe V w0 := by
    refine ⟨h0.ballots, h0.inv, fun i => ?_, ?_⟩
    · rcases hknown i with ⟨hvoting, hcounted, hslave⟩
      exact ⟨fun v hv => .inl (hvoting ▸ hv), by rw [hcounted], by rw [hvoting],
        fun m hm => ⟨hvoting, hslave (by rw [hm]; exact Option.some_ne_none m)⟩⟩
    · intro p hp
      rw [h0.promotions] at hp
      cases hp
  have hsafe : Safe V w := by
    refine runSteps_invariant (fun l s s' h hcond hstep => ?_) hstart hall hrun
    exact step_safe h hcond.left hcond.right hstep
  intro p q hp hq hepoch
  rcases hsafe.won p hp with ⟨M, hM, hcard, hvotes⟩
  rcases hsafe.won q hq with ⟨M', hM', hcard', hvotes'⟩
  -- two majorities share a voter, who has voted once
  have hmeet : (M ∩ M').Nonempty :=
    Finset.inter_nonempty_of_card_lt_card_add_card hM hM' (by lia)
  rcases hmeet with ⟨v, hv⟩
  rw [Finset.mem_inter] at hv
  have hb := hvotes v hv.left
  have hb' := hvotes' v hv.right
  by_contra hne
  have hsymm : Std.Symm fun b b' : Ballot => b.voter = b'.voter -> b.epoch ≠ b'.epoch :=
    ⟨fun _ _ h heq hsame => h heq.symm hsame.symm⟩
  refine hsafe.ballots.one.forall hb hb' (fun heq => hne ?_) rfl hepoch
  exact congrArg Ballot.candidate heq

instance (V : Finset Nat) (l : Label) : Decidable (Fixed V l) := by
  unfold Fixed
  split <;> infer_instance

instance (l : Label) (w : World) : Decidable (NoWrap l w) := by
  unfold NoWrap
  split <;> infer_instance

theorem one_winner_of_timely_elected : exists w,
    runSteps World.step (elected ++ [.failover 3 { now := 10501 }]) trio = .ok w ∧
    OneVote w.votes ∧ ⟨3, 1⟩ ∈ w.promotions ∧
    forall p, p ∈ w.promotions -> p.epoch = 1 -> p.node = 3 := by
  have hrun : exists w, runSteps step (elected ++ [.failover 3 { now := 10501 }]) trio = .ok w ∧
      ⟨3, 1⟩ ∈ w.promotions := exists_run_of_reaches (by decide)
  rcases hrun with ⟨w, hrun, hwon⟩
  rcases one_winner_of_timely trio_initial hrun with ⟨hone, hwinner⟩
  refine ⟨w, hrun, hone (allSteps_of_check (by decide)), hwon, fun p hp hepoch => ?_⟩
  refine hwinner {0, 1, 2} ?_ (allSteps_of_check (by decide)) p ⟨3, 1⟩ hp hwon hepoch
  have hvoting : ({0, 1, 2} : Finset Nat) ∩ {0, 1, 2} = {0, 1, 2} := Finset.inter_self _
  refine fun i => ⟨hvoting, rfl, fun hslave hin => hslave (if_pos ?_)⟩
  simp only [Finset.mem_insert, Finset.mem_singleton] at hin
  lia

/-- The acknowledgements of the first request of replica 3 arrive while it waits to send the
second one.  They elect it in the second epoch, in which the voters elect replica 4. -/
theorem two_winners : Initial trio ∧ exists ls w, (forall l, l ∈ ls -> Fixed {0, 1, 2} l) ∧
    runSteps World.step ls trio = .ok w ∧ ⟨3, 2⟩ ∈ w.promotions ∧ ⟨4, 2⟩ ∈ w.promotions := by
  have hrun : exists w, runSteps step
      (ask 3 10500 ++ [vote 1 3 1 10500, vote 2 3 1 10500, .failover 3 { now := 14501 },
        acknowledge 1 3 1, acknowledge 2 3 1, .failover 3 { now := 15001 }, .ping 1 4,
        .deliver ⟨1, 4, 1, 0, .other⟩ ⟨0, 1000, true, none, false, [], true⟩] ++ ask 4 15500 ++
        [vote 1 4 2 15500, vote 2 4 2 15500, acknowledge 1 4 2, acknowledge 2 4 2,
        .failover 4 { now := 15501 }, .failover 3 { now := 15502 }]) trio = .ok w ∧
      ⟨3, 2⟩ ∈ w.promotions ∧ ⟨4, 2⟩ ∈ w.promotions := exists_run_of_reaches (by decide)
  rcases hrun with ⟨w, hrun, hwon⟩
  exact ⟨trio_initial, _, w, by decide, hrun, hwon⟩

end Cluster
end Redisoo
