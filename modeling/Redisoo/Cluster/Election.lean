import Mathlib.Algebra.Order.Ring.Int
import Mathlib.Data.Finset.Card
import Redisoo.Foundation.Run

/-!
# Elections of the cluster

The nodes of `cluster.c` that take part in a failover: replicas ask the masters for their
vote, masters grant one vote in each epoch, and a replica with a majority replaces its
master.  Packets are delivered at most once, in any order, or lost.  What a function reads
and other parts of the node maintain (clocks, failure flags, links) comes with the step.
-/

namespace Redisoo
namespace Cluster

open Foundation

/-- The fields of `clusterState` and of `myself`, and the node table as far as it is read:
the nodes flagged as masters and the nodes with slots.  `counted` are the nodes that
`server.cluster->size` has counted. -/
structure Node where
  currentEpoch : Nat := 0
  configEpoch : Nat := 0
  lastVoteEpoch : Nat := 0
  votedTime : Nat -> Int := fun _ => 0
  slaveof : Option Nat
  masters : Finset Nat
  serving : Finset Nat
  counted : Finset Nat
  failoverAuthTime : Int := 0
  failoverAuthCount : Nat := 0
  failoverAuthSent : Bool := false
  failoverAuthRank : Nat := 0
  failoverAuthEpoch : Nat := 0

def Node.voting (n : Node) : Finset Nat :=
  n.masters ∩ n.serving

def Node.clusterUpdateState (n : Node) : Node :=
  { n with counted := n.voting }

inductive MsgType where
  /-- `CLUSTERMSG_TYPE_FAILOVER_AUTH_REQUEST`. -/
  | authRequest (forceAck : Bool)
  /-- `CLUSTERMSG_TYPE_FAILOVER_AUTH_ACK`. -/
  | authAck
  | other
  deriving DecidableEq

structure Msg where
  sender : Nat
  receiver : Nat
  currentEpoch : Nat
  configEpoch : Nat
  type : MsgType
  deriving DecidableEq

/-- What a voter knows about the replica that asks: `slotEpochs` are the configuration epochs
of the owners of the claimed slots. -/
structure VoteView where
  now : Int
  nodeTimeout : Int
  isMaster : Bool
  slaveof : Option Nat
  masterFailed : Bool
  slotEpochs : List Nat
  linked : Bool

def clusterSendFailoverAuthIfNeeded (i : Nat) (view : VoteView) (request : Msg) (forceAck : Bool)
    (n : Node) : Option Node :=
  if i ∉ n.voting then none
  else if request.currentEpoch < n.currentEpoch then none
  else if n.lastVoteEpoch = n.currentEpoch then none
  else if view.isMaster then none
  else
    match view.slaveof with
    | none => none
    | some master =>
      if !view.masterFailed && !forceAck then none
      else if view.now - n.votedTime master < view.nodeTimeout * 2 then none
      else if view.slotEpochs.any (fun e => request.configEpoch < e) then none
      else some { n with
        lastVoteEpoch := n.currentEpoch
        votedTime := Function.update n.votedTime master view.now }

/-- What `clusterHandleSlaveFailover` reads.  `updateReturns` says that `clusterUpdateState`
returns before it computes the size. -/
structure FailoverEnv where
  now : Int
  nodeTimeout : Int := 1000
  masterFailed : Bool := true
  mfEnd : Bool := false
  mfCanStart : Bool := false
  slaveNoFailover : Bool := false
  dataTooOld : Bool := false
  random : Nat := 0
  rank : Nat := 0
  updateReturns : Bool := false
  links : List Nat := []
  masterConfigEpoch : Nat := 0

inductive Outcome where
  | nothing
  | requested
  | promoted
  deriving DecidableEq

def clusterFailoverReplaceYourMaster (i oldmaster : Nat) (updateReturns : Bool) (n : Node) : Node :=
  let n := { n with
    slaveof := none
    masters := insert i n.masters
    serving := insert i (n.serving.erase oldmaster) }
  if updateReturns then n else n.clusterUpdateState

def updateRank (env : FailoverEnv) (n : Node) : Node :=
  if !n.failoverAuthSent && !env.mfEnd && n.failoverAuthRank < env.rank then
    { n with
      failoverAuthTime := n.failoverAuthTime + (env.rank - n.failoverAuthRank : Nat) * 1000
      failoverAuthRank := env.rank }
  else n

def clusterHandleSlaveFailover (i : Nat) (env : FailoverEnv) (n : Node) : Node × Outcome :=
  let authAge := env.now - n.failoverAuthTime
  let neededQuorum := n.counted.card / 2 + 1
  let manualFailover := env.mfEnd && env.mfCanStart
  let authTimeout := max (env.nodeTimeout * 2) 2000
  let authRetryTime := authTimeout * 2
  match n.slaveof with
  | none => (n, .nothing)
  | some master =>
    if !env.masterFailed && !manualFailover || env.slaveNoFailover && !manualFailover ||
        decide (master ∉ n.serving) then (n, .nothing)
    else if env.dataTooOld && !manualFailover then (n, .nothing)
    else if authAge > authRetryTime then
      ({ n with
        failoverAuthTime := if env.mfEnd then env.now
          else env.now + 500 + (env.random % 500 : Nat) + env.rank * 1000
        failoverAuthCount := 0
        failoverAuthSent := false
        failoverAuthRank := if env.mfEnd then 0 else env.rank }, .nothing)
    else
      let n := updateRank env n
      if env.now < n.failoverAuthTime then (n, .nothing)
      else if authAge > authTimeout then (n, .nothing)
      else if !n.failoverAuthSent then
        let epoch := (n.currentEpoch + 1) % 2 ^ 64
        ({ n with
          currentEpoch := epoch
          failoverAuthEpoch := epoch
          failoverAuthSent := true }, .requested)
      else if neededQuorum ≤ n.failoverAuthCount then
        (clusterFailoverReplaceYourMaster i master env.updateReturns
          { n with configEpoch := max n.configEpoch n.failoverAuthEpoch }, .promoted)
      else (n, .nothing)

/-!
# The cluster
-/

structure Ballot where
  voter : Nat
  epoch : Nat
  candidate : Nat
  deriving DecidableEq

structure Promotion where
  node : Nat
  epoch : Nat
  deriving DecidableEq

structure World where
  nodes : Nat -> Node
  net : List Msg
  votes : List Ballot
  promotions : List Promotion

def World.setNode (w : World) (i : Nat) (n : Node) : World :=
  { w with nodes := Function.update w.nodes i n }

def clusterProcessPacket (m : Msg) (view : VoteView) (w : World) : World :=
  let i := m.receiver
  let n := { w.nodes i with currentEpoch := max (w.nodes i).currentEpoch m.currentEpoch }
  match m.type with
  | .authRequest forceAck =>
    match clusterSendFailoverAuthIfNeeded i view m forceAck n with
    | none => w.setNode i n
    | some n =>
      { w.setNode i n with
        votes := ⟨i, n.currentEpoch, m.sender⟩ :: w.votes
        net := (if view.linked then
          [⟨i, m.sender, n.currentEpoch, n.configEpoch, .authAck⟩] else []) ++ w.net }
  | .authAck =>
    w.setNode i (if m.sender ∈ n.voting ∧ n.failoverAuthEpoch ≤ m.currentEpoch then
      { n with failoverAuthCount := n.failoverAuthCount + 1 } else n)
  | .other => w.setNode i n

inductive Label where
  /-- Any other packet of one node to another. -/
  | ping (i j : Nat)
  | deliver (m : Msg) (view : VoteView)
  | lose (m : Msg)
  /-- `clusterHandleSlaveFailover`. -/
  | failover (i : Nat) (env : FailoverEnv)
  /-- A new configuration epoch without agreement. -/
  | bump (i : Nat)
  /-- The roles and the slots a node knows change. -/
  | table (i : Nat) (slaveof : Option Nat) (masters serving : Finset Nat)
  | updateState (i : Nat)

/-- The requests of `clusterRequestFailoverAuth`; a node has no link to itself. -/
def clusterRequestFailoverAuth (i : Nat) (env : FailoverEnv) (n : Node) : List Msg :=
  (env.links.filter (· ≠ i)).map fun j =>
    ⟨i, j, n.currentEpoch, env.masterConfigEpoch, .authRequest env.mfEnd⟩

def World.step (l : Label) (w : World) : Except Unit World :=
  match l with
  | .ping i j =>
    let n := w.nodes i
    .ok { w with net := ⟨i, j, n.currentEpoch, n.configEpoch, .other⟩ :: w.net }
  | .deliver m view =>
    if m ∈ w.net then .ok (clusterProcessPacket m view { w with net := w.net.erase m })
    else .error ()
  | .lose m => .ok { w with net := w.net.erase m }
  | .failover i env =>
    match clusterHandleSlaveFailover i env (w.nodes i) with
    | (n, .nothing) => .ok (w.setNode i n)
    | (n, .requested) =>
      .ok { w.setNode i n with net := clusterRequestFailoverAuth i env n ++ w.net }
    | (n, .promoted) =>
      .ok { w.setNode i n with promotions := ⟨i, n.failoverAuthEpoch⟩ :: w.promotions }
  | .bump i =>
    let n := w.nodes i
    let epoch := (n.currentEpoch + 1) % 2 ^ 64
    .ok (w.setNode i { n with currentEpoch := epoch, configEpoch := epoch })
  | .table i slaveof masters serving =>
    .ok (w.setNode i { w.nodes i with slaveof, masters, serving })
  | .updateState i => .ok (w.setNode i (w.nodes i).clusterUpdateState)

end Cluster
end Redisoo
