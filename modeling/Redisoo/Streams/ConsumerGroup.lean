import Redisoo.Object
import Redisoo.Foundation.Run
import Redisoo.Foundation.Table

/-!
# Streams and consumer groups

A stream as its entries in the order of their ids, with its consumer groups.  A pending
record is shared by the table of the group and the table of its owner, so records and
consumers are cells at addresses of the group, and a table holds addresses.  Reading a
freed cell is a fault.
-/

namespace Redisoo
namespace Streams

open Foundation
open Foundation.Table

/-!
# Ids
-/

structure StreamID where
  ms : UInt64
  seq : UInt64
  deriving DecidableEq

def streamEncodeID (id : StreamID) : Nat :=
  id.ms.toNat * 2 ^ 64 + id.seq.toNat

def streamCompareID (a b : StreamID) : Ordering :=
  if a.ms > b.ms then .gt
  else if a.ms < b.ms then .lt
  else if a.seq > b.seq then .gt
  else if a.seq < b.seq then .lt
  else .eq

def UINT64_MAX : UInt64 := 18446744073709551615

def streamIncrID (id : StreamID) : StreamID :=
  if id.seq = UINT64_MAX then
    if id.ms = UINT64_MAX then ⟨0, 0⟩ else ⟨id.ms + 1, 0⟩
  else ⟨id.ms, id.seq + 1⟩

def streamNextID (lastId : StreamID) (ms : UInt64) : StreamID :=
  if ms > lastId.ms then ⟨ms, 0⟩ else streamIncrID lastId

/-!
# Cells
-/

/-- `delivery_count` is an unsigned 64-bit counter. -/
structure StreamNACK where
  deliveryTime : Int
  deliveryCount : Nat
  consumer : Option Nat
  deriving DecidableEq

structure StreamConsumer where
  name : Sds
  pel : Std.TreeMap Nat Nat

structure StreamCG where
  lastId : StreamID
  pel : Std.TreeMap Nat Nat
  consumers : Std.TreeMap Sds Nat
  nackAt : Nat -> Option StreamNACK
  consumerAt : Nat -> Option StreamConsumer
  next : Nat

structure Stream where
  entries : List (StreamID × List (Sds × Sds))
  lastId : StreamID
  cgroups : Std.TreeMap Sds StreamCG

inductive Fault where
  | dangling
  | assertion
  | halfCreated
  deriving DecidableEq

namespace StreamCG

def nack (cg : StreamCG) (a : Nat) : Except Fault StreamNACK :=
  match cg.nackAt a with
  | some n => .ok n
  | none => .error .dangling

def setNack (cg : StreamCG) (a : Nat) (n : StreamNACK) : StreamCG :=
  { cg with nackAt := put cg.nackAt a (some n) }

def freeNack (cg : StreamCG) (a : Nat) : Except Fault StreamCG :=
  match cg.nackAt a with
  | some _ => .ok { cg with nackAt := put cg.nackAt a none }
  | none => .error .dangling

def editPel (cg : StreamCG) (consumer : Nat) (f : Std.TreeMap Nat Nat -> Std.TreeMap Nat Nat) :
    Except Fault StreamCG :=
  match cg.consumerAt consumer with
  | some c =>
    .ok { cg with consumerAt := put cg.consumerAt consumer (some { c with pel := f c.pel }) }
  | none => .error .dangling

def removeFromOwner (cg : StreamCG) (n : StreamNACK) (key : Nat) : Except Fault StreamCG :=
  match n.consumer with
  | some consumer => cg.editPel consumer (·.erase key)
  | none => .error .dangling

end StreamCG

def streamCreateNACK (cg : StreamCG) (now : Int) (consumer : Option Nat) : Nat × StreamCG :=
  (cg.next,
    { cg with
      nackAt := put cg.nackAt cg.next (some ⟨now, 1, consumer⟩)
      next := cg.next + 1 })

def streamCreateCG (id : StreamID) : StreamCG :=
  { lastId := id, pel := ∅, consumers := ∅, nackAt := fun _ => none,
    consumerAt := fun _ => none, next := 0 }

def streamLookupConsumer (cg : StreamCG) (name : Sds) : Nat × StreamCG :=
  match cg.consumers[name]? with
  | some consumer => (consumer, cg)
  | none =>
    (cg.next,
      { cg with
        consumers := cg.consumers.insert name cg.next
        consumerAt := put cg.consumerAt cg.next (some ⟨name, ∅⟩)
        next := cg.next + 1 })

/-!
# Delivery
-/

def reassignPending (now : Int) (consumer key : Nat) (cg : StreamCG) :
    Except Fault (Nat × StreamCG) := do
  let some nack := cg.pel[key]? | .error .assertion
  let n <- cg.nack nack
  let cg <- cg.removeFromOwner n key
  let cg := cg.setNack nack ⟨now, 1, some consumer⟩
  let cg <- cg.editPel consumer (·.insert key nack)
  return (nack, cg)

def createPending (now : Int) (consumer key : Nat) (cg : StreamCG) :
    Except Fault (Nat × StreamCG) := do
  let (nack, cg) := streamCreateNACK cg now (some consumer)
  let groupInserted := !cg.pel.contains key
  let cg := { cg with pel := cg.pel.insertIfNew key nack }
  let some c := cg.consumerAt consumer | .error .dangling
  let consumerInserted := !c.pel.contains key
  let cg <- cg.editPel consumer (·.insertIfNew key nack)
  if !groupInserted then
    let cg <- cg.freeNack nack
    reassignPending now consumer key cg
  else if !consumerInserted then .error .halfCreated
  else return (nack, cg)

inductive Delivery where
  | unset
  | idle (ms : Int)
  | time (ms : Int)
  deriving DecidableEq

structure ClaimOptions where
  minidle : Int
  ids : List StreamID
  force : Bool
  justid : Bool
  delivery : Delivery
  retrycount : Int
  lastId : StreamID
  deriving DecidableEq

/-- MAXLEN: a length, and for an approximate trimming the number of entries in the whole
nodes that may go. -/
structure Trim where
  maxlen : Nat
  approx : Option Nat
  deriving DecidableEq

/-- The commands on a stream.  The id of a group is `none` for `$`.  An XREADGROUP reads
behind `gt`, where the greatest id stands for the special one; `serveBlocked` serves a client
that is blocked in an XREADGROUP. -/
inductive StreamOp where
  | xadd (trim : Option Trim) (id : Option StreamID) (fields : List (Sds × Sds))
  | xdel (ids : List StreamID)
  | xtrim (trim : Trim)
  | xsetid (id : StreamID)
  | xgroupCreate (group : Sds) (id : Option StreamID)
  | xgroupSetid (group : Sds) (id : Option StreamID)
  | xgroupDestroy (group : Sds)
  | xgroupDelconsumer (group consumer : Sds)
  | xreadgroup (group consumer : Sds) (gt : StreamID) (count : Nat) (noack : Bool)
  | serveBlocked (group consumer : Sds) (count : Nat) (noack : Bool)
  | xack (group : Sds) (ids : List StreamID)
  | xclaim (group consumer : Sds) (options : ClaimOptions)

def asLongLong (n : Nat) : Int := Int.bmod n (2 ^ 64)

def propagatedClaim (cg : StreamCG) (group owner : Sds) (id : StreamID) (n : StreamNACK) :
    StreamOp :=
  .xclaim group owner
    { minidle := 0, ids := [id], force := true, justid := true,
      delivery := .time n.deliveryTime, retrycount := asLongLong n.deliveryCount,
      lastId := cg.lastId }

def streamPropagateXCLAIM (cg : StreamCG) (group : Sds) (id : StreamID) (nack : Nat) :
    Except Fault StreamOp := do
  let n <- cg.nack nack
  let some consumer := n.consumer | .error .dangling
  let some c := cg.consumerAt consumer | .error .dangling
  return propagatedClaim cg group c.name id n

def StreamCG.raiseLastId (cg : StreamCG) (id : StreamID) : StreamCG :=
  if streamCompareID id cg.lastId = .gt then { cg with lastId := id } else cg

/-- One entry of `streamReplyWithRange` with a group: the group, the propagated commands and
whether its last id has to be propagated. -/
def deliverEntry (now : Int) (group : Sds) (consumer : Nat) (noack : Bool) (id : StreamID)
    (cg : StreamCG) : Except Fault (StreamCG × List StreamOp × Bool) := do
  let newer := streamCompareID id cg.lastId = .gt
  let cg := cg.raiseLastId id
  if noack then return (cg, [], newer)
  else
    let (nack, cg) <- createPending now consumer (streamEncodeID id) cg
    let claim <- streamPropagateXCLAIM cg group id nack
    return (cg, [claim], false)

def deliverLoop (clock : Nat -> Int) (group : Sds) (consumer : Nat) (noack : Bool) :
    Nat -> List StreamID -> StreamCG -> Except Fault (StreamCG × List StreamOp × Bool)
  | _, [], cg => .ok (cg, [], false)
  | i, id :: rest, cg => do
      let (cg, sent, newer) <- deliverEntry (clock i) group consumer noack id cg
      let (cg, later, newer') <- deliverLoop clock group consumer noack (i + 1) rest cg
      return (cg, sent ++ later, newer || newer')

def limited {A : Type} (count : Nat) (xs : List A) : List A :=
  if count = 0 then xs else xs.take count

def Stream.idsFrom (s : Stream) (start : StreamID) : List StreamID :=
  (s.entries.map Prod.fst).filter fun id => streamCompareID id start != .lt

def Stream.hasEntry (s : Stream) (key : Nat) : Bool :=
  s.entries.any fun e => streamEncodeID e.1 == key

def streamReplyWithRange (clock : Nat -> Int) (s : Stream) (start : StreamID) (count : Nat)
    (group : Sds) (consumer : Nat) (noack : Bool) (cg : StreamCG) :
    Except Fault (StreamCG × List StreamOp) := do
  let (cg, sent, propagateLastId) <-
    deliverLoop clock group consumer noack 0 (limited count (s.idsFrom start)) cg
  return (cg, if propagateLastId then sent ++ [.xgroupSetid group (some cg.lastId)] else sent)

def historyLoop (clock : Nat -> Int) (s : Stream) :
    Nat -> List (Nat × Nat) -> StreamCG -> Except Fault StreamCG
  | _, [], cg => .ok cg
  | i, (key, nack) :: rest, cg =>
    if s.hasEntry key then do
      let n <- cg.nack nack
      historyLoop clock s (i + 1) rest (cg.setNack nack
        { n with
          deliveryTime := clock i
          deliveryCount := (n.deliveryCount + 1) % 2 ^ 64 })
    else historyLoop clock s (i + 1) rest cg

def streamReplyWithRangeFromConsumerPEL (clock : Nat -> Int) (s : Stream) (start : StreamID)
    (count : Nat) (consumer : Nat) (cg : StreamCG) : Except Fault StreamCG :=
  match cg.consumerAt consumer with
  | none => .error .dangling
  | some c =>
    historyLoop clock s 0
      (limited count (c.pel.toList.filter fun e => streamEncodeID start ≤ e.1)) cg

/-!
# Commands on a group
-/

def xreadgroup (clock : Nat -> Int) (s : Stream) (group consumer : Sds) (gt : StreamID)
    (count : Nat) (noack : Bool) (cg : StreamCG) : Except Fault (StreamCG × List StreamOp) :=
  if gt ≠ ⟨UINT64_MAX, UINT64_MAX⟩ then do
    let (c, cg) := streamLookupConsumer cg consumer
    let cg <- streamReplyWithRangeFromConsumerPEL clock s (streamIncrID gt) count c cg
    return (cg, [])
  else
    match s.entries.getLast? with
    | none => .ok (cg, [])
    | some (maxid, _) =>
      if streamCompareID maxid cg.lastId = .gt then
        let start := streamIncrID cg.lastId
        let (c, cg) := streamLookupConsumer cg consumer
        streamReplyWithRange clock s start count group c noack cg
      else .ok (cg, [])

def XREAD_BLOCKED_DEFAULT_COUNT : Nat := 1000

def serveBlocked (clock : Nat -> Int) (s : Stream) (group consumer : Sds) (count : Nat)
    (noack : Bool) (cg : StreamCG) : Except Fault (StreamCG × List StreamOp) :=
  if streamCompareID s.lastId cg.lastId = .gt then
    let start := streamIncrID cg.lastId
    let (c, cg) := streamLookupConsumer cg consumer
    streamReplyWithRange clock s start
      (if count = 0 then XREAD_BLOCKED_DEFAULT_COUNT else count) group c noack cg
  else .ok (cg, [])

def ackOne (cg : StreamCG) (key : Nat) : Except Fault (StreamCG × Bool) :=
  match cg.pel[key]? with
  | none => .ok (cg, false)
  | some nack => do
      let n <- cg.nack nack
      let cg := { cg with pel := cg.pel.erase key }
      let cg <- cg.removeFromOwner n key
      let cg <- cg.freeNack nack
      return (cg, true)

def ackLoop : List StreamID -> StreamCG -> Except Fault (StreamCG × Bool)
  | [], cg => .ok (cg, false)
  | id :: rest, cg => do
      let (cg, acked) <- ackOne cg (streamEncodeID id)
      let (cg, later) <- ackLoop rest cg
      return (cg, acked || later)

def delLoop : List (Nat × Nat) -> StreamCG -> Except Fault StreamCG
  | [], cg => .ok cg
  | (key, nack) :: rest, cg => do
      let cg <- ({ cg with pel := cg.pel.erase key } : StreamCG).freeNack nack
      delLoop rest cg

def streamDelConsumer (cg : StreamCG) (name : Sds) : Except Fault StreamCG :=
  match cg.consumers[name]? with
  | none => .ok cg
  | some consumer =>
    match cg.consumerAt consumer with
    | none => .error .dangling
    | some c => do
        let cg <- delLoop c.pel.toList cg
        return { cg with
          consumers := cg.consumers.erase name
          consumerAt := put cg.consumerAt consumer none }

def ClaimOptions.asked (o : ClaimOptions) (now : Int) : Int :=
  match o.delivery with
  | .unset => -1
  | .idle ms => now - ms
  | .time ms => ms

def ClaimOptions.deliverytime (o : ClaimOptions) (now : Int) : Int :=
  if o.asked now < 0 ∨ o.asked now > now then now else o.asked now

def claimRecord (now : Int) (s : Stream) (force : Bool) (key : Nat) (cg : StreamCG) :
    StreamCG × Option Nat :=
  match cg.pel[key]? with
  | some nack => (cg, some nack)
  | none =>
    if force && s.hasEntry key then
      let (nack, cg) := streamCreateNACK cg now none
      ({ cg with pel := cg.pel.insert key nack }, some nack)
    else (cg, none)

def giveTo (name : Sds) (key nack : Nat) (time : Int) (count : Nat) (cg : StreamCG) :
    Except Fault StreamCG :=
  let (c, cg) := streamLookupConsumer cg name
  (cg.setNack nack ⟨time, count, some c⟩).editPel c (·.insert key nack)

def ClaimOptions.newCount (o : ClaimOptions) (count : Nat) : Nat :=
  if o.retrycount ≥ 0 then o.retrycount.toNat
  else if o.justid then count
  else (count + 1) % 2 ^ 64

def ClaimOptions.tooYoung (o : ClaimOptions) (now : Int) (n : StreamNACK) : Bool :=
  let minidle := max o.minidle 0
  n.consumer.isSome && minidle != 0 && decide (now - n.deliveryTime < minidle)

def claimOne (now : Int) (s : Stream) (group consumer : Sds) (o : ClaimOptions)
    (id : StreamID) (cg : StreamCG) : Except Fault (StreamCG × List StreamOp) :=
  let key := streamEncodeID id
  match claimRecord now s o.force key cg with
  | (cg, none) => .ok (cg, [])
  | (cg, some nack) => do
      let n <- cg.nack nack
      if o.tooYoung now n then return (cg, [])
      else
        let cg <- if n.consumer.isSome then cg.removeFromOwner n key else .ok cg
        let cg <- giveTo consumer key nack (o.deliverytime now) (o.newCount n.deliveryCount) cg
        let claim <- streamPropagateXCLAIM cg group id nack
        return (cg, [claim])

def claimLoop (now : Int) (s : Stream) (group consumer : Sds) (o : ClaimOptions) :
    List StreamID -> StreamCG -> Except Fault (StreamCG × List StreamOp)
  | [], cg => .ok (cg, [])
  | id :: rest, cg => do
      let (cg, sent) <- claimOne now s group consumer o id cg
      let (cg, later) <- claimLoop now s group consumer o rest cg
      return (cg, sent ++ later)

def xclaim (now : Int) (s : Stream) (group consumer : Sds) (o : ClaimOptions)
    (cg : StreamCG) : Except Fault (StreamCG × List StreamOp) := do
  let newer := streamCompareID o.lastId cg.lastId = .gt
  let cg := cg.raiseLastId o.lastId
  let (cg, sent) <- claimLoop now s group consumer o o.ids cg
  return (cg, if newer && sent.isEmpty then [.xgroupSetid group (some cg.lastId)] else sent)

/-!
# The stream
-/

def onGroup (s : Stream) (group : Sds) (f : StreamCG -> Except Fault (StreamCG × List StreamOp)) :
    Except Fault (Stream × List StreamOp) :=
  match s.cgroups[group]? with
  | none => .ok (s, [])
  | some cg => do
      let (cg, sent) <- f cg
      return ({ s with cgroups := s.cgroups.insert group cg }, sent)

/-- `clock` gives the readings of `mstime` during the command, and `wall` the milliseconds
that an XADD without an id takes its id from. -/
structure Clock where
  clock : Nat -> Int
  wall : UInt64

def streamTrimByLength (trim : Trim) (s : Stream) : Stream :=
  let excess := s.entries.length - trim.maxlen
  { s with entries := s.entries.drop (min excess (trim.approx.getD excess)) }

/-- `streamRewriteApproxMaxlen`: the length that was reached replaces an approximate one. -/
def Trim.rewritten (trim : Trim) (s : Stream) : Trim :=
  if trim.approx.isSome then ⟨s.entries.length, none⟩ else trim

def xadd (wall : UInt64) (trim : Option Trim) (id : Option StreamID)
    (fields : List (Sds × Sds)) (s : Stream) : Stream × List StreamOp :=
  let id := id.getD (streamNextID s.lastId wall)
  if streamCompareID id s.lastId = .gt then
    let s := { s with entries := s.entries ++ [(id, fields)], lastId := id }
    match trim with
    | none => (s, [.xadd none (some id) fields])
    | some trim =>
      let s := streamTrimByLength trim s
      (s, [.xadd (some (trim.rewritten s)) (some id) fields])
  else (s, [])

def xdel (ids : List StreamID) (s : Stream) : Stream × List StreamOp :=
  let s' := { s with entries := s.entries.filter fun e => e.1 ∉ ids }
  (s', if s'.entries.length < s.entries.length then [.xdel ids] else [])

def xtrim (trim : Trim) (s : Stream) : Stream × List StreamOp :=
  let s' := streamTrimByLength trim s
  (s', if s'.entries.length < s.entries.length then [.xtrim (trim.rewritten s')] else [])

def xsetid (id : StreamID) (s : Stream) : Stream × List StreamOp :=
  match s.entries.getLast? with
  | some (maxid, _) =>
    if streamCompareID id maxid = .lt then (s, [])
    else ({ s with lastId := id }, [.xsetid id])
  | none => ({ s with lastId := id }, [.xsetid id])

def exec (c : Clock) (op : StreamOp) (s : Stream) : Except Fault (Stream × List StreamOp) :=
  match op with
  | .xadd trim id fields => .ok (xadd c.wall trim id fields s)
  | .xdel ids => .ok (xdel ids s)
  | .xtrim trim => .ok (xtrim trim s)
  | .xsetid id => .ok (xsetid id s)
  | .xgroupCreate group id =>
    match s.cgroups[group]? with
    | some _ => .ok (s, [])
    | none =>
      .ok ({ s with
        cgroups := s.cgroups.insert group (streamCreateCG (id.getD s.lastId)) }, [op])
  | .xgroupSetid group id =>
    onGroup s group fun cg => .ok ({ cg with lastId := id.getD s.lastId }, [op])
  | .xgroupDestroy group =>
    match s.cgroups[group]? with
    | none => .ok (s, [])
    | some _ => .ok ({ s with cgroups := s.cgroups.erase group }, [op])
  | .xgroupDelconsumer group consumer =>
    onGroup s group fun cg => do
      let cg <- streamDelConsumer cg consumer
      return (cg, [op])
  | .xreadgroup group consumer gt count noack =>
    onGroup s group (xreadgroup c.clock s group consumer gt count noack)
  | .serveBlocked group consumer count noack =>
    onGroup s group (serveBlocked c.clock s group consumer count noack)
  | .xack group ids =>
    onGroup s group fun cg => do
      let (cg, acked) <- ackLoop ids cg
      return (cg, if acked then [op] else [])
  | .xclaim group consumer o =>
    onGroup s group (xclaim (c.clock 0) s group consumer o)

def streamNew : Stream :=
  { entries := [], lastId := ⟨0, 0⟩, cgroups := ∅ }

def step (label : Clock × StreamOp) (s : Stream) : Except Fault Stream :=
  (exec label.1 label.2 s).map Prod.fst

end Streams
end Redisoo
