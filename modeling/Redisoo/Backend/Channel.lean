import Mathlib.Data.List.AList
import Mathlib.Data.List.FinRange
import Redisoo.Commands

/-!
# The candidate tables, the job slots and the working threads

`backend.c` keeps, for each of the modes GET, SET and DEL, one candidate table
per database, one job slot shared with a working thread and one pipe on which
the thread reports.  This module models one mode: its data and the functions
that touch nothing else.
-/

namespace Redisoo

variable {n : Nat}

inductive Mode where
  | get
  | set
  | del
  deriving DecidableEq, Repr

abbrev ClientId := Nat

/-- The value of a candidate table.  GET and DEL candidates have only the list
of waiting clients; their `setValue` is empty and their `setTtl` is 0. -/
structure BackendInfo where
  setValue : Sds
  setTtl : Int
  clients : List ClientId
  deriving DecidableEq

abbrev Candidates (n : Nat) := AList (fun _ : Fin n × Sds => BackendInfo)

structure KeyPtr where
  addr : Nat
  bytes : Sds
  deriving DecidableEq

/-- `server.getJob`, `server.setJob` or `server.delJob`.  `val` is the value
from the backend for GET and the value to the backend for SET. -/
structure Job (n : Nat) where
  dbid : Option (Fin n)
  key : Option KeyPtr
  returnKey : Option KeyPtr
  val : Option Sds
  syncResult : Bool
  setTtl : Int
  deriving DecidableEq

def Job.zero : Job n where
  dbid := none
  key := none
  returnKey := none
  val := none
  syncResult := false
  setTtl := 0

/-- The point of `_haveJobThenDoJobInWorkingThread` a working thread is at. -/
inductive WorkerPc (n : Nat) where
  | polling
  | running (dbid : Fin n) (key : KeyPtr)
  | executed (dbid : Fin n) (key : KeyPtr) (val : Option Sds) (result : Bool)
  | signalling

structure Channel (n : Nat) where
  candidates : Candidates n
  job : Job n
  worker : WorkerPc n
  pipe : Nat
  nextAddr : Nat

def Channel.init : Channel n where
  candidates := ∅
  job := Job.zero
  worker := .polling
  pipe := 0
  nextAddr := 0

/-- The ways the process dies: a failed `serverAssert` or an access through a
pointer that is not valid. -/
inductive Crash where
  | slotAssert (m : Mode)
  | noWaitingList (m : Mode)
  | setValueAssert
  | emptyValueAssert
  | intPointer
  | useAfterFree (c : ClientId)
  | nullCommand (c : ClientId)
  | stateAssert
  deriving DecidableEq

/-!
# Candidates
-/

/-- `_hasAvailableCandidate`: the first database with a candidate, and whichever
of its keys the hash table yields first. -/
def hasAvailableCandidate (t : Candidates n) (pick : Nat) : Option (Fin n × Sds) :=
  match (List.finRange n).find? (fun d => t.keys.any (fun dk => dk.1 == d)) with
  | none => none
  | some d =>
    let keys := t.keys.filter (fun dk => dk.1 == d)
    keys[pick % keys.length]?

def addKeyToBackendKeys (m : Mode) (d : Fin n) (k value : Sds) (ttl : Int)
    (waiter : Option ClientId) (ch : Channel n) : Except Crash (Channel n) :=
  match ch.candidates.lookup (d, k) with
  | none =>
    .ok { ch with
      candidates := ch.candidates.insert (d, k)
        { setValue := value, setTtl := ttl, clients := waiter.toList } }
  | some info =>
    if m = .set ∧ info.setValue ≠ value then .error .setValueAssert
    else
      .ok { ch with
        candidates := ch.candidates.insert (d, k)
          { info with setTtl := ttl, clients := info.clients ++ waiter.toList } }

def Job.create (m : Mode) (d : Fin n) (key : KeyPtr) (info : BackendInfo) (job : Job n) : Job n :=
  match m with
  | .get => { job with dbid := some d, key := some key }
  | .set =>
    { job with dbid := some d, key := some key, syncResult := false,
               val := some info.setValue, setTtl := info.setTtl }
  | .del => { job with dbid := some d, key := some key, syncResult := false }

/-- What `_createNewJobIfHasMoreCandidates` asserts of the slot it fills. -/
def Job.vacant (m : Mode) (job : Job n) : Bool :=
  job.key.isNone && job.returnKey.isNone && (m != .set || job.val.isNone)

def createNewJobIfHasMoreCandidates (m : Mode) (needCheckKeyFirst : Bool)
    (pick : Nat) (ch : Channel n) : Except Crash (Channel n) :=
  if needCheckKeyFirst && !(ch.job.key.isNone && ch.job.returnKey.isNone) then
    .ok ch
  else
    match hasAvailableCandidate ch.candidates pick with
    | none => .ok ch
    | some (d, k) =>
      match ch.candidates.lookup (d, k) with
      | none => .error (.noWaitingList m)
      | some info =>
        if ch.job.vacant m then
          .ok { ch with
            job := ch.job.create m d { addr := ch.nextAddr, bytes := k } info,
            nextAddr := ch.nextAddr + 1 }
        else .error (.slotAssert m)

/-!
# The working thread

The thread takes the lock three times: to poll the slot, to read the value of a
SET job, and to post the result.  Reading that value and running the backend
operation are one step here.
-/

def getJobInWorkingThread (m : Mode) (ch : Channel n) : Except Crash (Channel n) :=
  match ch.job.returnKey, ch.job.key with
  | none, some key =>
    match ch.job.dbid with
    | some d => .ok { ch with worker := .running d key }
    | none => .error (.slotAssert m)
  | _, _ => .ok ch

/-- The three `_implement...JobByBackendInWorkingThread` functions: the backend
afterwards, the value read or written, and the result.  `ok` is whether the
backend executes the statement. -/
def implementJobByBackend (m : Mode) (ok : Bool) (key : Sds) (job : Job n)
    (backend : Sds -> Option Sds) : Except Crash ((Sds -> Option Sds) × Option Sds × Bool) :=
  match m with
  | .get =>
    let val := if ok then backend key else none
    if val = some [] then .error .emptyValueAssert
    else .ok (backend, val, ok)
  | .set =>
    match job.val with
    | none => .error (.slotAssert .set)
    | some v =>
      if ok then .ok (Function.update backend key (some v), some v, true)
      else .ok (backend, some v, false)
  | .del =>
    if ok then .ok (Function.update backend key none, none, true)
    else .ok (backend, none, false)

def Job.post (m : Mode) (key : KeyPtr) (val : Option Sds) (result : Bool) (job : Job n) : Job n :=
  match m with
  | .get => { job with returnKey := some key, val := val }
  | .set => { job with returnKey := some key, syncResult := result }
  | .del => { job with returnKey := some key, syncResult := result }

def postResult (m : Mode) (key : KeyPtr) (val : Option Sds) (result : Bool)
    (ch : Channel n) : Except Crash (Channel n) :=
  if ch.job.key = some key ∧ ch.job.returnKey = none then
    .ok { ch with job := ch.job.post m key val result, worker := .signalling }
  else .error (.slotAssert m)

/-!
# Completion
-/

structure Finished (n : Nat) where
  dbid : Fin n
  key : KeyPtr
  val : Option Sds
  result : Bool
  setTtl : Int

def readFinished (m : Mode) (ch : Channel n) : Except Crash (Finished n) :=
  match ch.job.dbid, ch.job.key, ch.job.returnKey with
  | some d, some key, some returnKey =>
    if key = returnKey then
      .ok { dbid := d, key := returnKey, val := ch.job.val,
            result := ch.job.syncResult, setTtl := ch.job.setTtl }
    else .error (.slotAssert m)
  | _, _, _ => .error (.slotAssert m)

def takeWaiters (m : Mode) (d : Fin n) (k : Sds) (ch : Channel n) :
    Except Crash (Channel n × List ClientId) :=
  match ch.candidates.lookup (d, k) with
  | none => .error (.noWaitingList m)
  | some info =>
    .ok ({ ch with candidates := ch.candidates.erase (d, k) }, info.clients)

def clearJob (m : Mode) (pick : Nat) (ch : Channel n) : Except Crash (Channel n) :=
  if ch.job.returnKey ≠ none ∧ ch.job.key = ch.job.returnKey then
    createNewJobIfHasMoreCandidates m false pick { ch with job := Job.zero }
  else .error (.slotAssert m)

def BackendInfo.release (c : ClientId) (info : BackendInfo) : BackendInfo :=
  { info with clients := info.clients.filter (· != c) }

def releaseWhenFreeClient (c : ClientId) (ch : Channel n) : Channel n :=
  { ch with
    candidates :=
      { entries := ch.candidates.entries.map fun e => ⟨e.1, e.2.release c⟩
        nodupKeys := List.NodupKeys.map₂ (fun _ info => info.release c)
          ch.candidates.entries ch.candidates.nodupKeys } }

end Redisoo
