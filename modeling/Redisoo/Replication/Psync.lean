import Redisoo.Commands
import Redisoo.Foundation.Run
import Redisoo.Persistence.Aof
import Redisoo.Replication.Backlog

/-!
# Partial resynchronization

The fields of the server that decide about a PSYNC request, and the events that change
them: commands and pings that are fed to the backlog, changes of its size, and changes of
role.  A promotion and the loss of the master discard the pings at the end of the stream.

The number of attached replicas is not part of the state, so that events that depend on it
can happen at any time.
-/

namespace Redisoo

open Foundation Backlog

/-- The states of a replica that matter here; every state of the handshake is `connect`. -/
inductive ReplState where
  | none
  | connect
  | transfer
  | connected
  deriving DecidableEq

structure History where
  base : Int
  bytes : List UInt8

def History.from (h : History) (o : Int) : List UInt8 :=
  h.bytes.drop (o - h.base - 1).toNat

structure ReplServer extends Backlog where
  replid : Sds
  replid2 : Sds
  secondReplidOffset : Int
  masterhost : Bool
  master : Option Sds
  cachedMaster : Option Sds
  replState : ReplState
  slaveseldb : Int
  history : History

namespace ReplServer

/-!
# Primitives
-/

def create (s : ReplServer) (fresh : Nat -> UInt8) : ReplServer :=
  { s with
    toBacklog := s.toBacklog.createReplicationBacklog fresh
    history := { base := s.masterReplOffset, bytes := [] } }

def createIfNull (s : ReplServer) (fresh : Nat -> UInt8) : ReplServer :=
  if s.replBacklog.isNone then s.create fresh else s

def feed (s : ReplServer) (p : List UInt8) : ReplServer :=
  { s with
    toBacklog := s.toBacklog.feedReplicationBacklog p
    history :=
      if s.replBacklog.isSome then { s.history with bytes := s.history.bytes ++ p }
      else s.history }

def adjustMeaningfulReplOffset (s : ReplServer) : ReplServer :=
  if s.masterReplOffset > s.masterReplMeaningfulOffset then
    let delta := s.masterReplOffset - s.masterReplMeaningfulOffset
    let s :=
      { s with
        masterReplOffset := s.masterReplMeaningfulOffset
        history :=
          { s.history with
            bytes := s.history.bytes.take (s.masterReplMeaningfulOffset - s.history.base).toNat } }
    if s.replBacklogHistlen ≤ delta then
      { s with replBacklogHistlen := 0, replBacklogIdx := 0 }
    else
      { s with
        replBacklogHistlen := s.replBacklogHistlen - delta.toNat
        replBacklogIdx :=
          (s.replBacklogIdx + (s.replBacklogSize - delta.toNat)) % s.replBacklogSize }
  else s

def noReplid : Sds := List.replicate 40 48

def clearReplicationId2 (s : ReplServer) : ReplServer :=
  { s with replid2 := noReplid, secondReplidOffset := -1 }

/-- `newid` is the random id. -/
def changeReplicationId (s : ReplServer) (newid : Sds) : ReplServer :=
  { s with replid := newid }

def shiftReplicationId (s : ReplServer) (newid : Sds) : ReplServer :=
  { s with
    replid2 := s.replid
    secondReplidOffset := s.masterReplOffset + 1
    replid := newid }

/-!
# Feeding
-/

/-- `"SELECT"`. -/
def selectText : Sds := [83, 69, 76, 69, 67, 84]

/-- `"PING"`. -/
def pingText : Sds := [80, 73, 78, 71]

/-- `"*1\r\n$4\r\nEXEC\r\n"`. -/
def execcmd : List UInt8 := [42, 49, 13, 10, 36, 52, 13, 10, 69, 88, 69, 67, 13, 10]

def replicationFeedSlaves (s : ReplServer) (dictid : Int) (argv : List Sds) : ReplServer :=
  if s.masterhost then s
  else if s.replBacklog.isNone then s
  else
    let s :=
      if s.slaveseldb ≠ dictid then
        s.feed (Aof.catAppendOnlyGenericCommand [selectText, Util.ll2string dictid])
      else s
    let s := { s with slaveseldb := dictid }
    let s := s.feed (42 :: (Util.ll2string argv.length ++ Aof.crlf))
    argv.foldl (fun s arg =>
      ((s.feed (36 :: (Util.ll2string arg.length ++ Aof.crlf))).feed arg).feed Aof.crlf) s

def pingSlaves (s : ReplServer) : ReplServer :=
  { s.replicationFeedSlaves s.slaveseldb [pingText] with
    masterReplMeaningfulOffset := s.masterReplMeaningfulOffset }

def commandProcessed (s : ReplServer) (applied : List UInt8) (cmdIsPing : Bool) : ReplServer :=
  let s' := s.feed applied
  if cmdIsPing then { s' with masterReplMeaningfulOffset := s.masterReplMeaningfulOffset }
  else s'

/-!
# Roles
-/

/-- `freeClient` of the master, which is cached unless it is blocked or made a protocol
error. -/
def freeMaster (s : ReplServer) (cached : Bool) : ReplServer :=
  match s.master with
  | none => s
  | some id =>
    if cached then
      { s.adjustMeaningfulReplOffset with
        cachedMaster := some id, master := none, replState := .connect }
    else { s with master := none, replState := .connect }

def replicationCacheMasterUsingMyself (s : ReplServer) : ReplServer :=
  { s.adjustMeaningfulReplOffset with cachedMaster := some s.replid, master := none }

def replicationSetMaster (s : ReplServer) (cached : Bool) : ReplServer :=
  let wasMaster := !s.masterhost
  let s := { s with masterhost := true }.freeMaster cached
  let s := if wasMaster then s.replicationCacheMasterUsingMyself else s
  { s with replState := .connect }

def replicationUnsetMaster (s : ReplServer) (cached : Bool) (newid : Sds) : ReplServer :=
  if s.masterhost then
    let s := ({ s with masterhost := false }.shiftReplicationId newid).freeMaster cached
    { s with cachedMaster := none, replState := .none, slaveseldb := -1 }
  else s

inductive ReplEvent where
  /-- a command of a master is propagated -/
  | command (dictid : Int) (argv : List Sds)
  | ping
  /-- a replica has executed a command of its master -/
  | applied (bytes : List UInt8) (cmdIsPing : Bool)
  /-- a transaction has turned the master into a replica -/
  | exec
  | resize (newsize : Int) (fresh : Nat -> UInt8)
  /-- a replica attaches with a full resync -/
  | attach (newid : Sds) (fresh : Nat -> UInt8)
  /-- `replicationCron` frees the backlog of a master without replicas -/
  | expireBacklog (newid : Sds)
  | linkLost (cached : Bool)
  | replicaof (cached : Bool)
  | replicaofNoOne (cached : Bool) (newid : Sds)
  /-- our master answers `+CONTINUE`, perhaps with a new id -/
  | psyncContinue (newid : Option Sds) (fresh : Nat -> UInt8)
  /-- our master does not continue -/
  | psyncFull
  /-- the dataset of our master is loaded -/
  | syncDone (replid : Sds) (reploff : Int) (fresh : Nat -> UInt8)

def step (ev : ReplEvent) (s : ReplServer) : Except Unit ReplServer :=
  match ev with
  | .command dictid argv => .ok (s.replicationFeedSlaves dictid argv)
  | .ping => .ok s.pingSlaves
  | .applied bytes cmdIsPing =>
    if s.master.isSome then .ok (s.commandProcessed bytes cmdIsPing) else .error ()
  | .exec => if s.masterhost then .ok (s.feed execcmd) else .error ()
  | .resize newsize fresh =>
    .ok { s with toBacklog := s.toBacklog.resizeReplicationBacklog newsize fresh }
  | .attach newid fresh =>
    if s.masterhost && s.replState ≠ .connected then .error ()
    else if s.replBacklog.isNone then
      .ok (((s.changeReplicationId newid).clearReplicationId2).create fresh)
    else .ok s
  | .expireBacklog newid =>
    if s.masterhost || s.replBacklog.isNone then .error ()
    else
      let s := (s.changeReplicationId newid).clearReplicationId2
      .ok { s with toBacklog := s.toBacklog.freeReplicationBacklog }
  | .linkLost cached => if s.master.isSome then .ok (s.freeMaster cached) else .error ()
  | .replicaof cached => .ok (s.replicationSetMaster cached)
  | .replicaofNoOne cached newid => .ok (s.replicationUnsetMaster cached newid)
  | .psyncContinue newid fresh =>
    match s.cachedMaster with
    | none => .error ()
    | some id =>
      if s.masterhost && s.replState = .connect then
        let new := newid.getD id
        let s :=
          if new ≠ id then
            { s with
              replid2 := id, secondReplidOffset := s.masterReplOffset + 1, replid := new }
          else s
        .ok ({ s with
          master := some new, cachedMaster := none, replState := .connected }.createIfNull fresh)
      else .error ()
  | .psyncFull =>
    if s.masterhost && s.replState = .connect then
      .ok { s with
        cachedMaster := none
        toBacklog := s.toBacklog.freeReplicationBacklog
        replState := .transfer }
    else .error ()
  | .syncDone replid reploff fresh =>
    if s.replState = .transfer then
      let s :=
        { s with
          master := some replid
          replState := .connected
          replid := replid
          masterReplOffset := reploff
          masterReplMeaningfulOffset := reploff }.clearReplicationId2
      .ok (s.createIfNull fresh)
    else .error ()

/-!
# Requests
-/

/-- `"+CONTINUE"`. -/
def continueText : List UInt8 := [43, 67, 79, 78, 84, 73, 78, 85, 69]

def masterTryPartialResynchronization (s : ReplServer) (masterReplid offset : Sds)
    (psync2 : Bool) : Option (List UInt8 × List UInt8) :=
  match Util.string2ll offset with
  | none => none
  | some psyncOffset =>
    if !strcasecmpEq masterReplid s.replid &&
        (!strcasecmpEq masterReplid s.replid2 || psyncOffset > s.secondReplidOffset) then none
    else if s.replBacklog.isNone || psyncOffset < s.replBacklogOff ||
        psyncOffset > s.replBacklogOff + s.replBacklogHistlen then none
    else
      let line :=
        if psync2 then continueText ++ 32 :: (s.replid ++ Aof.crlf)
        else continueText ++ Aof.crlf
      some (line, (s.toBacklog.addReplyReplicationBacklog psyncOffset).1)

/-!
# The backlog follows the stream
-/

structure Tracks (b : Backlog) (h : History) : Prop where
  size : 0 < b.replBacklogSize
  follows : b.replBacklog.isSome = true -> b.Follows h.base h.bytes

variable {b : Backlog} {s : ReplServer} {cached : Bool}

theorem Tracks.meaningful {h : History} (htracks : Tracks b h) (offset : Int) :
    Tracks { b with masterReplMeaningfulOffset := offset } h where
  size := htracks.size
  follows := fun hsome =>
    { offset := (htracks.follows hsome).offset
      first := (htracks.follows hsome).first
      fits := (htracks.follows hsome).fits
      known := (htracks.follows hsome).known
      held := (htracks.follows hsome).held }

theorem tracks_null (h : History) (hsize : 0 < b.replBacklogSize) (hnull : b.replBacklog = none) :
    Tracks b h where
  size := hsize
  follows := by
    intro hsome
    rw [hnull] at hsome
    cases hsome

theorem tracks_create (hsize : 0 < s.replBacklogSize) (fresh : Nat -> UInt8) :
    Tracks (s.create fresh).toBacklog (s.create fresh).history where
  size := hsize
  follows := fun _ => follows_create s.toBacklog hsize fresh

theorem feed_size (b : Backlog) (p : List UInt8) :
    (b.feedReplicationBacklog p).replBacklogSize = b.replBacklogSize := by
  unfold feedReplicationBacklog
  split
  · rfl
  · rfl

theorem feed_null (h : b.replBacklog = none) (p : List UInt8) : b.feedReplicationBacklog p = b := by
  unfold feedReplicationBacklog
  rw [h]

theorem tracks_feed (h : Tracks s.toBacklog s.history) (p : List UInt8) :
    Tracks (s.feed p).toBacklog (s.feed p).history := by
  constructor
  · change 0 < (s.toBacklog.feedReplicationBacklog p).replBacklogSize
    rw [feed_size]
    exact h.size
  intro hsome
  cases hbuf : s.replBacklog with
  | none =>
    change (s.toBacklog.feedReplicationBacklog p).replBacklog.isSome = true at hsome
    rw [feed_null hbuf, hbuf] at hsome
    cases hsome
  | some buf =>
    have hs : s.replBacklog.isSome = true := by
      rw [hbuf]
      rfl
    simp only [feed, if_pos hs]
    exact follows_feed (h.follows hs) p

theorem resize_null (h : b.replBacklog = none) (hsize : 0 < b.replBacklogSize) (newsize : Int)
    (fresh : Nat -> UInt8) :
    exists size, 0 < size ∧
      b.resizeReplicationBacklog newsize fresh = { b with replBacklogSize := size } := by
  unfold resizeReplicationBacklog
  generalize hnew : (if newsize < (Backlog.CONFIG_REPL_BACKLOG_MIN_SIZE : Int) then
    Backlog.CONFIG_REPL_BACKLOG_MIN_SIZE else newsize.toNat) = size
  have hpos : 0 < size := by
    unfold Backlog.CONFIG_REPL_BACKLOG_MIN_SIZE at hnew
    split at hnew
    · lia
    · lia
  simp only [h]
  split
  · exact ⟨b.replBacklogSize, hsize, by rw [← h]⟩
  · exact ⟨size, hpos, rfl⟩

theorem tracks_resize {h : History} (htracks : Tracks b h) (newsize : Int) (fresh : Nat -> UInt8) :
    Tracks (b.resizeReplicationBacklog newsize fresh) h := by
  rcases Option.eq_none_or_eq_some b.replBacklog with hbuf | ⟨buf, hbuf⟩
  · rcases resize_null hbuf htracks.size newsize fresh with ⟨size, hpos, hresize⟩
    rw [hresize]
    exact tracks_null h hpos hbuf
  have hfollows := follows_resize (htracks.follows (by rw [hbuf]; rfl)) newsize fresh
  constructor
  · rcases hfollows.held with ⟨_, _, hholds⟩
    exact Nat.lt_of_le_of_lt (Nat.zero_le _) hholds.bound
  · exact fun _ => hfollows

def TrimHeld (b : Backlog) : Prop :=
  b.replBacklog.isSome = true ->
    b.masterReplOffset - b.masterReplMeaningfulOffset ≤ b.replBacklogHistlen

theorem tracks_adjust (h : Tracks s.toBacklog s.history) (hheld : TrimHeld s.toBacklog) :
    Tracks s.adjustMeaningfulReplOffset.toBacklog s.adjustMeaningfulReplOffset.history := by
  unfold adjustMeaningfulReplOffset
  split
  · next htrim =>
    rcases Option.eq_none_or_eq_some s.replBacklog with hbuf | ⟨buf, hbuf⟩
    · simp only []
      split
      · exact tracks_null _ h.size hbuf
      · exact tracks_null _ h.size hbuf
    · have hs : s.replBacklog.isSome = true := by
        rw [hbuf]
        rfl
      have hfollows := h.follows hs
      have hdelta := hheld hs
      have hoffset := hfollows.offset
      have hfirst := hfollows.first
      have hfits := hfollows.fits
      have hknown := hfollows.known
      obtain ⟨delta, hd⟩ : exists delta : Nat,
          (delta : Int) = s.masterReplOffset - s.masterReplMeaningfulOffset :=
        ⟨(s.masterReplOffset - s.masterReplMeaningfulOffset).toNat, by lia⟩
      have htake : (s.masterReplMeaningfulOffset - s.history.base).toNat =
          s.history.bytes.length - delta := by lia
      have hlength : (s.history.bytes.take (s.history.bytes.length - delta)).length =
          s.history.bytes.length - delta := by
        rw [List.length_take]
        lia
      rcases hfollows.held with ⟨buf', hbuf', hholds⟩
      simp only [htake, ← hd]
      split
      · next hall =>
        refine ⟨h.size, fun _ => ⟨?_, ?_, Nat.zero_le _, Nat.zero_le _, ?_⟩⟩
        · change s.masterReplMeaningfulOffset = s.history.base + _
          rw [hlength]
          lia
        · change s.replBacklogOff = s.masterReplMeaningfulOffset - (0 : Nat) + 1
          lia
        · exact ⟨buf', hbuf', Ring.Holds.start buf' h.size _⟩
      · next hsome =>
        refine ⟨h.size, fun _ => ⟨?_, ?_, ?_, ?_, ?_⟩⟩
        · change s.masterReplMeaningfulOffset = s.history.base + _
          rw [hlength]
          lia
        · change s.replBacklogOff =
            s.masterReplMeaningfulOffset - (s.replBacklogHistlen - (delta : Int).toNat : Nat) + 1
          lia
        · change s.replBacklogHistlen - _ ≤ s.replBacklogSize
          lia
        · change s.replBacklogHistlen - (delta : Int).toNat ≤ _
          rw [hlength]
          lia
        · refine ⟨buf', hbuf', ?_⟩
          change Ring.Holds s.replBacklogSize buf'
            ((s.replBacklogIdx + (s.replBacklogSize - (delta : Int).toNat)) %
              s.replBacklogSize) (s.replBacklogHistlen - (delta : Int).toNat)
            (s.history.bytes.take (s.history.bytes.length - delta)).reverse
          rw [List.reverse_take, Nat.sub_sub_self (by lia), Int.toNat_natCast]
          exact hholds.rewind (by lia) hfits
  · exact h

/-!
# Runs
-/

def Waits (s : ReplServer) : Prop :=
  s.replState = .transfer -> s.masterhost = true ∧ s.replBacklog = none

structure Inv (s : ReplServer) : Prop where
  tracks : Tracks s.toBacklog s.history
  waits : Waits s

theorem Inv.feed (h : Inv s) (p : List UInt8) : Inv (s.feed p) where
  tracks := tracks_feed h.tracks p
  waits := by
    intro hstate
    rcases h.waits hstate with ⟨hhost, hnull⟩
    refine ⟨hhost, ?_⟩
    change (s.toBacklog.feedReplicationBacklog p).replBacklog = none
    rw [feed_null hnull]
    exact hnull

theorem Inv.meaningful (h : Inv s) (offset : Int) :
    Inv { s with masterReplMeaningfulOffset := offset } where
  tracks := h.tracks.meaningful offset
  waits := h.waits

theorem Inv.feed_args (h : Inv s) (argv : List Sds) :
    Inv (argv.foldl (fun s arg =>
      ((s.feed (36 :: (Util.ll2string arg.length ++ Aof.crlf))).feed arg).feed Aof.crlf) s) := by
  induction argv generalizing s with
  | nil => exact h
  | cons arg argv ih => exact ih (((h.feed _).feed _).feed _)

theorem Inv.feedSlaves (h : Inv s) (dictid : Int) (argv : List Sds) :
    Inv (s.replicationFeedSlaves dictid argv) := by
  unfold replicationFeedSlaves
  split
  · exact h
  split
  · exact h
  apply Inv.feed_args
  apply Inv.feed
  split
  · have hselect := h.feed (Aof.catAppendOnlyGenericCommand [selectText, Util.ll2string dictid])
    exact ⟨hselect.tracks, hselect.waits⟩
  · exact ⟨h.tracks, h.waits⟩

theorem trimHeld_adjust (s : ReplServer) : TrimHeld s.adjustMeaningfulReplOffset.toBacklog := by
  intro _
  unfold adjustMeaningfulReplOffset
  split
  · simp only []
    split
    · change s.masterReplMeaningfulOffset - s.masterReplMeaningfulOffset ≤ _
      lia
    · change s.masterReplMeaningfulOffset - s.masterReplMeaningfulOffset ≤ _
      lia
  · lia

def adjusts (ev : ReplEvent) (s : ReplServer) : Bool :=
  match ev with
  | .linkLost cached => cached
  | .replicaof cached => (s.master.isSome && cached) || !s.masterhost
  | .replicaofNoOne cached _ => s.masterhost && s.master.isSome && cached
  | _ => false

def TrimsHeld (ev : ReplEvent) (s : ReplServer) : Prop :=
  adjusts ev s = true -> TrimHeld s.toBacklog

instance (b : Backlog) : Decidable (TrimHeld b) :=
  inferInstanceAs (Decidable (_ -> _))

instance (ev : ReplEvent) (s : ReplServer) : Decidable (TrimsHeld ev s) :=
  inferInstanceAs (Decidable (_ -> _))

theorem tracks_freeMaster {s : ReplServer} (h : Tracks s.toBacklog s.history) {cached : Bool}
    (hheld : (s.master.isSome && cached) = true -> TrimHeld s.toBacklog) :
    Tracks (s.freeMaster cached).toBacklog (s.freeMaster cached).history := by
  unfold freeMaster
  cases hmaster : s.master with
  | none => exact h
  | some id =>
    cases cached with
    | false => exact h
    | true => exact tracks_adjust h (hheld (by rw [hmaster]; rfl))

theorem trimHeld_freeMaster (hheld : TrimHeld s.toBacklog) :
    TrimHeld (s.freeMaster cached).toBacklog := by
  unfold freeMaster
  cases s.master with
  | none => exact hheld
  | some id =>
    cases cached with
    | false => exact hheld
    | true => exact trimHeld_adjust s

theorem Inv.setMaster (h : Inv s) (hheld : TrimsHeld (.replicaof cached) s) :
    Inv (s.replicationSetMaster cached) := by
  have hfree := @tracks_freeMaster { s with masterhost := true } h.tracks cached (by
    intro hcached
    exact hheld (by unfold adjusts; rw [Bool.or_eq_true]; exact .inl hcached))
  refine ⟨?_, fun hstate => by cases hstate⟩
  unfold replicationSetMaster
  cases hhost : s.masterhost with
  | true => exact hfree
  | false =>
    apply tracks_adjust hfree
    apply trimHeld_freeMaster
    exact hheld (by unfold adjusts; rw [Bool.or_eq_true, hhost]; exact .inr rfl)

theorem Inv.unsetMaster (h : Inv s) {newid : Sds}
    (hheld : TrimsHeld (.replicaofNoOne cached newid) s) :
    Inv (s.replicationUnsetMaster cached newid) := by
  unfold replicationUnsetMaster
  split
  · next hhost =>
    have hfree := @tracks_freeMaster ({ s with masterhost := false }.shiftReplicationId newid)
      h.tracks cached (by
        intro hcached
        exact hheld (by unfold adjusts; rw [hhost]; exact hcached))
    exact ⟨hfree, fun hstate => by cases hstate⟩
  · exact h

theorem Inv.linkLost (h : Inv s) (hmaster : s.master.isSome = true)
    (hheld : TrimsHeld (.linkLost cached) s) : Inv (s.freeMaster cached) := by
  constructor
  · apply tracks_freeMaster h.tracks
    intro hcached
    rw [hmaster] at hcached
    exact hheld hcached
  · unfold freeMaster
    rcases Option.isSome_iff_exists.mp hmaster with ⟨id, hid⟩
    rw [hid]
    cases cached with
    | false | true =>
      intro hstate
      cases hstate

theorem Inv.createIfNull (h : Tracks s.toBacklog s.history) (hstate : s.replState = .connected)
    (fresh : Nat -> UInt8) : Inv (s.createIfNull fresh) := by
  unfold ReplServer.createIfNull
  split
  · refine ⟨tracks_create h.size fresh, ?_⟩
    intro htransfer
    change s.replState = .transfer at htransfer
    rw [hstate] at htransfer
    cases htransfer
  · refine ⟨h, ?_⟩
    intro htransfer
    rw [hstate] at htransfer
    cases htransfer

theorem step_inv {ev : ReplEvent} {s' : ReplServer} (h : Inv s) (hheld : TrimsHeld ev s)
    (hstep : step ev s = .ok s') : Inv s' := by
  cases ev with
  | command dictid argv =>
    cases hstep
    exact h.feedSlaves dictid argv
  | ping =>
    cases hstep
    exact (h.feedSlaves _ _).meaningful _
  | applied bytes cmdIsPing =>
    simp only [step] at hstep
    split at hstep
    · cases hstep
      cases cmdIsPing with
      | false => exact h.feed bytes
      | true => exact (h.feed bytes).meaningful _
    · cases hstep
  | exec =>
    simp only [step] at hstep
    split at hstep
    · cases hstep
      exact h.feed execcmd
    · cases hstep
  | resize newsize fresh =>
    cases hstep
    refine ⟨tracks_resize h.tracks newsize fresh, ?_⟩
    intro hstate
    rcases h.waits hstate with ⟨hhost, hnull⟩
    refine ⟨hhost, ?_⟩
    rcases resize_null hnull h.tracks.size newsize fresh with ⟨_, _, hresize⟩
    change (s.toBacklog.resizeReplicationBacklog newsize fresh).replBacklog = none
    rw [hresize]
    exact hnull
  | attach newid fresh =>
    simp only [step] at hstep
    split at hstep
    · cases hstep
    · next hgate =>
      split at hstep
      · cases hstep
        refine ⟨@tracks_create ((s.changeReplicationId newid).clearReplicationId2)
          h.tracks.size fresh, ?_⟩
        intro hstate
        change s.replState = .transfer at hstate
        rw [(h.waits hstate).left, hstate] at hgate
        exact absurd rfl hgate
      · cases hstep
        exact h
  | expireBacklog newid =>
    simp only [step] at hstep
    split at hstep
    · cases hstep
    · next hgate =>
      cases hstep
      refine ⟨tracks_null _ h.tracks.size rfl, ?_⟩
      intro hstate
      change s.replState = .transfer at hstate
      rw [(h.waits hstate).left] at hgate
      exact absurd rfl hgate
  | linkLost cached =>
    simp only [step] at hstep
    split at hstep
    · next hmaster =>
      cases hstep
      exact h.linkLost hmaster hheld
    · cases hstep
  | replicaof cached =>
    cases hstep
    exact h.setMaster hheld
  | replicaofNoOne cached newid =>
    cases hstep
    exact h.unsetMaster hheld
  | psyncContinue newid fresh =>
    simp only [step] at hstep
    split at hstep
    · cases hstep
    split at hstep
    · cases hstep
      apply Inv.createIfNull _ rfl
      split
      · exact h.tracks
      · exact h.tracks
    · cases hstep
  | psyncFull =>
    simp only [step] at hstep
    split at hstep
    · next hgate =>
      cases hstep
      rw [Bool.and_eq_true] at hgate
      exact ⟨tracks_null _ h.tracks.size rfl, fun _ => ⟨hgate.left, rfl⟩⟩
    · cases hstep
  | syncDone replid reploff fresh =>
    simp only [step] at hstep
    split at hstep
    · next hstate =>
      cases hstep
      have hnull := (h.waits hstate).right
      apply Inv.createIfNull _ rfl fresh
      exact tracks_null _ h.tracks.size hnull
    · cases hstep

theorem Inv.continues (h : Inv s) {masterReplid offset : Sds} {psync2 : Bool}
    {line bytes : List UInt8}
    (hcont : s.masterTryPartialResynchronization masterReplid offset psync2 = some (line, bytes)) :
    exists o, Util.string2ll offset = some o ∧
      s.replBacklogOff = s.masterReplOffset - s.replBacklogHistlen + 1 ∧
      s.replBacklogOff ≤ o ∧ o ≤ s.masterReplOffset + 1 ∧ bytes = s.history.from o := by
  unfold masterTryPartialResynchronization at hcont
  cases hparse : Util.string2ll offset with
  | none =>
    rw [hparse] at hcont
    cases hcont
  | some o =>
    simp only [hparse] at hcont
    split at hcont
    · cases hcont
    split at hcont
    · cases hcont
    · next hrange =>
      injection hcont with hpair
      have hbytes : (s.toBacklog.addReplyReplicationBacklog o).1 = bytes := congrArg Prod.snd hpair
      simp only [Bool.or_eq_true, decide_eq_true_eq, not_or] at hrange
      have hsome : s.replBacklog.isSome = true := by
        cases hbuf : s.replBacklog with
        | none =>
          rw [hbuf] at hrange
          exact absurd rfl hrange.left.left
        | some buf => rfl
      have hfollows := h.tracks.follows hsome
      have hfirst := hfollows.first
      have hlow : s.replBacklogOff ≤ o := by lia
      have hhigh : o ≤ s.masterReplOffset + 1 := by lia
      refine ⟨o, rfl, hfirst, hlow, hhigh, ?_⟩
      rw [← hbytes, follows_send hfollows hlow hhigh]
      rfl

structure Started (s : ReplServer) : Prop where
  size : 0 < s.replBacklogSize
  null : s.replBacklog = none
  idle : s.replState ≠ .transfer

theorem Started.inv (h : Started s) : Inv s where
  tracks := tracks_null _ h.size h.null
  waits := fun hstate => absurd hstate h.idle

/-- In every run that only discards pings the backlog still has, a request that is
continued is in range and gets exactly the stream from its offset on. -/
theorem psync_continue_exact {evs : List ReplEvent} {s0 s : ReplServer} (hstart : Started s0)
    (hheld : AllSteps step TrimsHeld evs s0) (hrun : runSteps step evs s0 = .ok s)
    {masterReplid offset : Sds} {psync2 : Bool} {line bytes : List UInt8}
    (hcont : s.masterTryPartialResynchronization masterReplid offset psync2 = some (line, bytes)) :
    exists o, Util.string2ll offset = some o ∧
      s.replBacklogOff = s.masterReplOffset - s.replBacklogHistlen + 1 ∧
      s.replBacklogOff ≤ o ∧ o ≤ s.masterReplOffset + 1 ∧ bytes = s.history.from o := by
  have hinv : Inv s :=
    runSteps_invariant (fun _ _ _ h hP hs => step_inv h hP hs) hstart.inv hheld hrun
  exact hinv.continues hcont

/-!
# A failover

A replica gets a command and a ping, its backlog is resized, and it gets one more ping
before it is promoted: the backlog has one ping, and two are discarded.
-/

def failoverStart : ReplServer :=
  { replBacklog := none, replBacklogSize := 1048576, replBacklogHistlen := 0, replBacklogIdx := 0,
    replBacklogOff := 0, masterReplOffset := 0, masterReplMeaningfulOffset := 0,
    replid := noReplid, replid2 := noReplid, secondReplidOffset := -1, masterhost := true,
    master := none, cachedMaster := none, replState := .connect, slaveseldb := -1,
    history := { base := 0, bytes := [] } }

/-- `"*1\r\n$4\r\nPING\r\n"`. -/
def pingcmd : List UInt8 := [42, 49, 13, 10, 36, 52, 13, 10, 80, 73, 78, 71, 13, 10]

def failover : List ReplEvent :=
  [.psyncFull, .syncDone [97] 100 (fun _ => 0), .applied [1, 2, 3] false, .applied pingcmd true,
    .resize 20000 (fun _ => 0), .applied pingcmd true, .replicaofNoOne true [98]]

/-- The stream ends at 103, and a request for 118 is continued. -/
theorem psync_continues_beyond_stream :
    exists s, runSteps step failover failoverStart = .ok s ∧
      Util.string2ll [49, 49, 56] = some 118 ∧ s.masterReplOffset = 103 ∧
      s.masterTryPartialResynchronization [97] [49, 49, 56] false =
        some (continueText ++ Aof.crlf, []) := by
  apply exists_run_of_reaches
  decide +kernel

theorem psync_continue_exact_after_failover :
    let evs : List ReplEvent :=
      [.psyncFull, .syncDone [97] 100 (fun _ => 0), .applied [1, 2, 3] false,
        .applied pingcmd true, .applied pingcmd true, .replicaofNoOne true [98]]
    exists s, runSteps step evs failoverStart = .ok s ∧
      s.masterTryPartialResynchronization [97] [49, 48, 50] false =
        some (continueText ++ Aof.crlf, [2, 3]) ∧
      s.replBacklogOff ≤ 102 ∧ (102 : Int) ≤ s.masterReplOffset + 1 ∧
      [2, 3] = s.history.from 102 := by
  intro evs
  obtain ⟨s, hrun, hcont⟩ : exists s, runSteps step evs failoverStart = .ok s ∧
      s.masterTryPartialResynchronization [97] [49, 48, 50] false =
        some (continueText ++ Aof.crlf, [2, 3]) := by
    apply exists_run_of_reaches
    decide +kernel
  have hstart : Started failoverStart := ⟨by decide, rfl, by decide⟩
  have hheld : AllSteps step TrimsHeld evs failoverStart := by
    apply allSteps_of_check
    decide +kernel
  rcases psync_continue_exact hstart hheld hrun hcont with ⟨o, ho, _, hlow, hhigh, hbytes⟩
  have h102 : o = 102 := by
    have hparse : Util.string2ll [49, 48, 50] = some 102 := by decide
    rw [hparse] at ho
    exact (Option.some.inj ho).symm
  subst h102
  exact ⟨s, hrun, hcont, hlow, hhigh, hbytes⟩

end ReplServer
end Redisoo
