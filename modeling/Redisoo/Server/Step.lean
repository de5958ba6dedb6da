import Redisoo.Server.World

/-!
# The steps of the server

One step of the main thread advances its innermost call; one step of a working
thread is one of its critical sections, a backend operation or a write to the
pipe.  A step that is not enabled leaves the state alone.
-/

namespace Redisoo

variable {n : Nat}

namespace World

/-!
# Freeing clients
-/

/-- A protected client is closed later; the master client is cached by
`replicationCacheMaster` before `releaseWhenFreeClient` is reached. -/
def freeClient (w : World n) (c : ClientId) : World n :=
  let cl := w.clients c
  if w.inScript c then w.setClient c { cl with closing := true }
  else if cl.master then
    (w.setClient c
      { cl.discardTransaction with
        status := .cached, querybuf := [], cmd := none, closing := false }).log
      (.freed c)
  else
    ({ w with hub := fun m => releaseWhenFreeClient c (w.hub m) }.setClient c
      { cl with status := .freed }).log (.freed c)

/-!
# Executing commands
-/

def callData (w : World n) (c : ClientId) (cmd : DataCommand n) : World n × Reply :=
  let cl := w.clients c
  let r := cmd.call w.env (cl.caller cmd) w.store cl.db cl.syncReply
  ((w.setStore r.store).setClient c { cl with syncReply := r.flags }, r.reply)

/-- A command a script of the client `c` runs.  The script's own client never
has a sync reply flag, and a read only replica refuses writes. -/
def callFromScript (w : World n) (c : ClientId) (cmd : DataCommand n) : World n :=
  let cl := w.clients c
  if w.cfg.masterhost && w.cfg.replSlaveRo && !cl.master && cmd.isWrite then w
  else
    w.setStore
      (cmd.call w.env { master := cl.master, readonly := false } w.store cl.db
        SyncReply.clear).store

def clientKill (w : World n) (c target : ClientId) : World n × Reply :=
  if (w.clients target).status = .connected then
    if target = c then
      (w.setClient c { w.clients c with closing := true }, .ok)
    else (w.freeClient target, .ok)
  else (w, .error "No such client")

def callSimple (w : World n) (c : ClientId) : Simple n -> World n × Reply
  | .data cmd => w.callData c cmd
  | .select d => (w.setClient c { w.clients c with db := d }, .ok)
  | .clientKill target => w.clientKill c target
  | .eval body => (body.foldl (fun w cmd => w.callFromScript c cmd) w, .null)

def callQueued (c : ClientId) : List (Simple n) -> World n -> World n × List Reply
  | [], w => (w, [])
  | s :: rest, w =>
    let (w1, r) := w.callSimple c s
    let (w2, rs) := callQueued c rest w1
    (w2, r :: rs)

def execCommand (w : World n) (c : ClientId) : World n × Reply :=
  let cl := w.clients c
  match cl.multi with
  | none => (w, .error "EXEC without MULTI")
  | some queue =>
    if cl.dirtyExec then
      (w.setClient c cl.discardTransaction,
        .error "EXECABORT Transaction discarded because of previous errors.")
    else
      let (w', rs) := callQueued c queue w
      (w'.setClient c (w'.clients c).discardTransaction, .array rs)

def multiCommand (w : World n) (c : ClientId) : World n × Reply :=
  let cl := w.clients c
  if cl.multi.isSome then (w, .error "MULTI calls can not be nested")
  else (w.setClient c { cl with multi := some [] }, .ok)

def discardCommand (w : World n) (c : ClientId) : World n × Reply :=
  let cl := w.clients c
  if cl.multi.isSome then (w.setClient c cl.discardTransaction, .ok)
  else (w, .error "DISCARD without MULTI")

/-!
# Admission to the backend
-/

def checkGetCommandForBackendState (w : World n) (cl : Client n) (k : Sds) : Store n × Bool :=
  if w.cfg.redisooDbType ≠ .grpc && !w.cfg.redisooGet then (w.store, false)
  else
    let (st, o) := w.store.lookupKeyRead w.env (cl.caller (.get k)) cl.db k
    let job := (w.hub .get).job
    let reentry := job.val.isNone && job.returnKey.map KeyPtr.bytes == some k
    (st, o.isNone && !reentry)

def isSameKeyWithDifferentValForSet (w : World n) (cl : Client n) (sc : SetCommand) : Bool :=
  match (w.hub .set).candidates.lookup (cl.db, sc.key) with
  | none => false
  | some info => info.setValue != sc.argv2

/-- `_isSameValueInDbForSet` on the object found; `sdscmp` follows the pointer
of any string object, also when the pointer is an integer. -/
def isSameValueInDbForSet (sc : SetCommand) : Option Robj -> Except Crash Bool
  | none => .ok false
  | some (.raw s) => .ok (s == sc.argv2)
  | some (.embstr s) => .ok (s == sc.argv2)
  | some (.int _) => .error .intPointer
  | some (.aggregate _ _) => .ok false

def lookupForSet (w : World n) (cl : Client n) (sc : SetCommand) : Store n × Option Robj :=
  w.store.lookupKeyRead w.env (cl.caller (.setlike sc)) cl.db sc.key

/-- `_checkSetCommandForBackendState`.  SETNX looks the key up a second time in
the last check, with nothing in between that could change the answer. -/
def checkSetCommandForBackendState (w : World n) (cl : Client n)
    (sc : SetCommand) : Except Crash (Store n × Bool) :=
  if !w.cfg.redisooSet then .ok (w.store, false)
  else
    let (st, o) := w.lookupForSet cl sc
    if sc.isSetnx && o.isSome then .ok (st, false)
    else if w.isSameKeyWithDifferentValForSet cl sc then
      .ok (if sc.isSetnx then st else w.store, false)
    else
      match isSameValueInDbForSet sc o with
      | .error e => .error e
      | .ok same => .ok (st, !same)

def checkDelCommandForBackendState (w : World n) (cl : Client n) (k : Sds)
    (more : List Sds) : Bool :=
  w.cfg.redisooDel && more.isEmpty && (w.store.ks.dict cl.db k).isSome

structure Admission where
  mode : Mode
  key : Sds
  value : Sds
  ttl : Int

def checkCommand (w : World n) (cl : Client n) :
    DataCommand n -> Except Crash (Store n × Option Admission)
  | .get k =>
    let (st, need) := w.checkGetCommandForBackendState cl k
    .ok (st, if need then
      some { mode := .get, key := k, value := [], ttl := 0 } else none)
  | .setlike sc =>
    match w.checkSetCommandForBackendState cl sc with
    | .error e => .error e
    | .ok (st, need) =>
      .ok (st, if need then
        some { mode := .set, key := sc.key,
               value := sc.getValueFromSetCommand,
               ttl := sc.getTtlForSetCommand } else none)
  | .del k more =>
    .ok (w.store, if w.checkDelCommandForBackendState cl k more then
      some { mode := .del, key := k, value := [], ttl := 0 } else none)
  | .ordinary _ => .ok (w.store, none)

def enqueue (w : World n) (d : Fin n) (a : Admission) (waiter : Option ClientId)
    (pick : Nat) : Except Crash (Channel n) :=
  match addKeyToBackendKeys a.mode d a.key a.value a.ttl waiter (w.hub a.mode) with
  | .error e => .error e
  | .ok ch => createNewJobIfHasMoreCandidates a.mode true pick ch

def admitted (w : World n) (d : Fin n) (a : Admission) (ch : Channel n) : World n :=
  match (w.hub a.mode).candidates.lookup (d, a.key) with
  | none => (w.setChannel a.mode ch).log (.enter a.mode d a.key)
  | some _ => w.setChannel a.mode ch

def suspended (w : World n) (c : ClientId) (cmd : DataCommand n) (a : Admission) : World n :=
  let cl := w.clients c
  (w.setClient c { cl with backendState := some a.mode, cmd := some cmd }).log
    (.suspend c a.mode cl.db a.key)

def serveData (w : World n) (c : ClientId) (cmd : DataCommand n) : World n :=
  let (w', r) := w.callData c cmd
  w'.log (.reply c (.data cmd) r)

/-- `checkNeedToBackendState` and, unless it suspends the client, `call()`. -/
def processData (w : World n) (c : ClientId) (cmd : DataCommand n)
    (pick : Nat) : Except Crash (World n) :=
  let cl := w.clients c
  if w.cfg.redisooDbType = .disabled then .ok (w.serveData c cmd)
  else
    match w.checkCommand cl cmd with
    | .error e => .error e
    | .ok (st, none) => .ok ((w.setStore st).serveData c cmd)
    | .ok (st, some a) =>
      let sync := w.cfg.sync a.mode
      match w.enqueue cl.db a (if sync then some c else none) pick with
      | .error e => .error e
      | .ok ch =>
        let w' := (w.setStore st).admitted cl.db a ch
        if sync then .ok (w'.suspended c cmd a)
        else .ok (w'.serveData c cmd)

/-!
# Processing input
-/

/-- The rejections of `processCommand` that depend on the modelled state: a
write to a read only replica, and nearly any command during a slow script. -/
def rejects (w : World n) (cl : Client n) (cmd : Command n) : Bool :=
  (w.cfg.masterhost && w.cfg.replSlaveRo && !cl.master && cmd.isWrite) ||
    (w.luaTimedout && !cmd.isTransactional)

def replied (c : ClientId) (cmd : Command n) (result : World n × Reply) : World n :=
  result.1.log (.reply c cmd result.2)

/-- `deny` stands for the rejections that depend on what is not modelled: authentication,
permissions, memory, disk errors and so on. -/
def processCommand (w : World n) (c : ClientId) (cmd : Command n) (pick : Nat)
    (deny : Bool) : Except Crash (World n) :=
  let cl := w.clients c
  if deny || w.rejects cl cmd then
    .ok (replied c cmd
      (w.setClient c cl.flagTransaction, .error "command rejected"))
  else
    match cmd with
    | .multi => .ok (replied c cmd (w.multiCommand c))
    | .exec => .ok (replied c cmd (w.execCommand c))
    | .discard => .ok (replied c cmd (w.discardCommand c))
    | .simple s =>
      match cl.multi with
      | some queue =>
        .ok (replied c cmd
          (w.setClient c { cl with multi := some (queue ++ [s]) }, .queued))
      | none =>
        match s with
        | .data dc => w.processData c dc pick
        | .eval body => .ok (w.setStack (.script c body body :: w.stack))
        | .select _ => .ok (replied c cmd (w.callSimple c s))
        | .clientKill _ => .ok (replied c cmd (w.callSimple c s))

def heldBy (w : World n) (cl : Client n) : Command n -> Option Sds
  | .simple (.data (.setlike sc)) =>
    (w.lookupForSet cl sc).2.bind Robj.decoded
  | _ => none

def Ready (w : World n) (c : ClientId) : Prop :=
  let cl := w.clients c
  cl.status = .connected ∧ cl.backendState = none ∧ cl.closing = false ∧
    Not (w.luaTimedout = true ∧ cl.master = true)

instance (w : World n) (c : ClientId) : Decidable (w.Ready c) := by
  unfold Ready
  infer_instance

def received (w : World n) (c : ClientId) (cmd : Command n) (more : List (Command n)) : World n :=
  (w.setClient c { w.clients c with querybuf := more }).log
    (.arrive c cmd (w.heldBy (w.clients c) cmd))

def inputStep (w : World n) (c : ClientId) (rest : List (Frame n)) (pick : Nat)
    (deny : Bool) : Except Crash (World n) :=
  if w.Ready c then
    match (w.clients c).querybuf with
    | [] => .ok (w.setStack rest)
    | cmd :: more => (w.received c cmd more).processCommand c cmd pick deny
  else .ok (w.setStack rest)

/-!
# Completion handlers
-/

/-- What `_clearFinishKey` does to the keyspace before it resumes clients. -/
def installValue (w : World n) (m : Mode) (f : Finished n) : Except Crash (Store n) :=
  let install (val : Sds) (ttl : Int) : Store n :=
    let st := w.store.genericSetKey w.env f.dbid f.key.bytes
      (createStringObject val) true
    if 0 < ttl then st.setExpire f.dbid f.key.bytes (wrap64 (w.now + ttl)) else st
  match m with
  | .get =>
    match f.val with
    | none => .ok w.store
    | some val => .ok (install val w.cfg.redisooGetTtl)
  | .set =>
    if f.result then
      match f.val with
      | none => .error (.slotAssert .set)
      | some val => .ok (install val f.setTtl)
    else .ok w.store
  | .del => .ok w.store

/-- `_getPipeMainThreadHandler` and its two siblings, up to the point where
`_clearFinishKey` starts to resume clients. -/
def pipeHandler (w : World n) (m : Mode) : Except Crash (World n) :=
  match readFinished m (w.hub m) with
  | .error e => .error e
  | .ok f =>
    match w.installValue m f with
    | .error e => .error e
    | .ok st =>
      match takeWaiters m f.dbid f.key.bytes (w.hub m) with
      | .error e => .error e
      | .ok (ch, clients) =>
        .ok ((((w.setStore st).setChannel m ch).setStack
          (.clear m f.dbid f.key.bytes f.result clients :: w.stack)).log
          (.complete m f.dbid f.key.bytes f.key.addr))

def syncReplyAfter (m : Mode) (result : Bool) (flags : SyncReply) : SyncReply :=
  match m with
  | .get => flags
  | .set => if result then flags else { flags with set := true }
  | .del => if result then flags else { flags with del := true }

def resumeBackendClient (w : World n) (m : Mode) (d : Fin n) (k : Sds)
    (result : Bool) (c : ClientId) : Except Crash (World n) :=
  let cl := w.clients c
  if cl.status = .freed then .error (.useAfterFree c)
  else if cl.backendState = none then .error .stateAssert
  else
    match cl.cmd with
    | none => .error (.nullCommand c)
    | some cmd =>
      .ok (((w.setClient c
        { cl with
          backendState := none, cmd := none,
          syncReply := syncReplyAfter m result cl.syncReply }).log
        (.resume c m d k)).serveData c cmd)

/-- One round of the resume loop of `_clearFinishKey`, or its end. -/
def clearStep (w : World n) (m : Mode) (d : Fin n) (k : Sds) (result : Bool)
    (clients : List ClientId) (rest : List (Frame n)) (pick : Nat) : Except Crash (World n) :=
  match clients with
  | c :: more =>
    match w.resumeBackendClient m d k result c with
    | .error e => .error e
    | .ok w' => .ok (w'.setStack (.input c :: .clear m d k result more :: rest))
  | [] =>
    match clearJob m pick (w.hub m) with
    | .error e => .error e
    | .ok ch => .ok ((w.setChannel m ch).setStack (.read m :: rest))

def readStep (w : World n) (m : Mode) (rest : List (Frame n)) : World n :=
  let ch := w.hub m
  if 0 < ch.pipe then (w.setChannel m { ch with pipe := ch.pipe - 1 }).setStack rest
  else w

def scriptStep (w : World n) (c : ClientId) (body todo : List (DataCommand n))
    (rest : List (Frame n)) : World n :=
  match todo with
  | cmd :: more => (w.callFromScript c cmd).setStack (.script c body more :: rest)
  | [] =>
    ({ w with luaTimedout := false }.setStack rest).log
      (.reply c (.simple (.eval body)) .null)

def mainStep (w : World n) (pick : Nat) (deny : Bool) : Except Crash (World n) :=
  match w.stack with
  | [] => .ok w
  | .input c :: rest => w.inputStep c rest pick deny
  | .clear m d k result clients :: rest =>
    w.clearStep m d k result clients rest pick
  | .read m :: rest => .ok (w.readStep m rest)
  | .script c body todo :: rest => .ok (w.scriptStep c body todo rest)

/-!
# Working threads
-/

def workStep (w : World n) (m : Mode) (ok : Bool) : Except Crash (World n) :=
  let ch := w.hub m
  match ch.worker with
  | .polling =>
    match getJobInWorkingThread m ch with
    | .error e => .error e
    | .ok ch' => .ok (w.setChannel m ch')
  | .running d key =>
    match implementJobByBackend m ok key.bytes ch.job w.backend with
    | .error e => .error e
    | .ok (backend, val, result) =>
      .ok (({ w with backend := backend }.setChannel m
        { ch with worker := .executed d key val result }).log
        (.executed m d key.bytes val result))
  | .executed _ key val result =>
    match postResult m key val result ch with
    | .error e => .error e
    | .ok ch' => .ok ((w.setChannel m ch').log (.posted m key.addr))
  | .signalling =>
    .ok (w.setChannel m { ch with worker := .polling, pipe := ch.pipe + 1 })

end World

/-!
# Labels
-/

inductive External (n : Nat) where
  | recv (c : ClientId) (cmds : List (Command n))
  | pipe (m : Mode)
  | free (c : ClientId)

/-- `env` is a change of the backend by someone else, `evict` an eviction by the
maxmemory policy, `expire` one deletion of the active expire cycle, `timeout` a
script reaching its time limit. -/
inductive Label (n : Nat) where
  | main (pick : Nat) (deny : Bool)
  | external (x : External n)
  | work (m : Mode) (ok : Bool)
  | timeout
  | tick (ms : Nat)
  | env (k : Sds) (v : Option Sds)
  | evict (d : Fin n) (k : Sds)
  | expire (d : Fin n) (k : Sds)

namespace World

def externalStep (w : World n) : External n -> Except Crash (World n)
  | .recv c cmds =>
    let cl := w.clients c
    if cl.status = .connected ∧ w.inScript c = false then
      .ok ((w.setClient c { cl with querybuf := cl.querybuf ++ cmds }).setStack
        (.input c :: w.stack))
    else .ok w
  | .pipe m => if 0 < (w.hub m).pipe then w.pipeHandler m else .ok w
  | .free c =>
    if (w.clients c).status = .connected then .ok (w.freeClient c) else .ok w

def timeoutStep (w : World n) : World n :=
  match w.stack with
  | .script _ _ _ :: _ => { w with luaTimedout := true }
  | _ => w

/-- `freeMemoryIfNeeded` runs before a command is executed, never while a slow
script holds the server. -/
def canEvict (w : World n) : Bool :=
  match w.stack with
  | .input _ :: _ => !w.luaTimedout
  | _ => false

def evictStep (w : World n) (d : Fin n) (k : Sds) : World n :=
  if w.canEvict && (w.store.ks.dict d k).isSome then
    w.setStore (w.store.deleteAndPropagate d k)
  else w

/-- `activeExpireCycle` runs between events, on a master only. -/
def expireStep (w : World n) (d : Fin n) (k : Sds) : World n :=
  match w.stack with
  | [] =>
    if w.cfg.masterhost then w
    else w.setStore (w.store.activeExpireCycleTryExpire w.now d k)
  | _ => w

def step : Label n -> World n -> Except Crash (World n)
  | .main pick deny, w => w.mainStep pick deny
  | .external x, w => if w.acceptsEvents then w.externalStep x else .ok w
  | .work m ok, w => w.workStep m ok
  | .timeout, w => .ok w.timeoutStep
  | .tick ms, w => .ok { w with now := w.now + ms }
  | .env k v, w => .ok { w with backend := Function.update w.backend k v }
  | .evict d k, w => .ok (w.evictStep d k)
  | .expire d k, w => .ok (w.expireStep d k)

section

variable (w : World n) (c : ClientId) (cmd : DataCommand n)

include w

/-!
# What the functions leave alone
-/

@[simp] theorem received_cfg (cmd : Command n) (more : List (Command n)) :
    (w.received c cmd more).cfg = w.cfg := rfl

@[simp] theorem received_client (cmd : Command n) (more : List (Command n)) :
    (w.received c cmd more).clients c = { w.clients c with querybuf := more } := by
  simp [received]

@[simp] theorem serveData_cfg : (w.serveData c cmd).cfg = w.cfg := rfl

@[simp] theorem serveData_hub : (w.serveData c cmd).hub = w.hub := rfl

@[simp] theorem serveData_stack : (w.serveData c cmd).stack = w.stack := rfl

theorem serveData_clients :
    (w.serveData c cmd).clients =
      Function.update w.clients c
        { w.clients c with
          syncReply := (cmd.call w.env ((w.clients c).caller cmd) w.store
            (w.clients c).db (w.clients c).syncReply).flags } := rfl

theorem callFromScript_frame :
    w.callFromScript c cmd = w.setStore (w.callFromScript c cmd).store := by
  unfold callFromScript
  dsimp only
  split
  · rfl
  · rfl

theorem timeoutStep_frame :
    w.timeoutStep = { w with luaTimedout := w.timeoutStep.luaTimedout } := by
  unfold timeoutStep
  split
  · rfl
  · rfl

theorem admitted_frame (d : Fin n) (a : Admission) (ch : Channel n) :
    exists tr, w.admitted d a ch = { w.setChannel a.mode ch with trace := tr } := by
  unfold admitted
  split
  · exact ⟨_, rfl⟩
  · exact ⟨_, rfl⟩

theorem freeClient_hub : (w.freeClient c).hub = w.hub ∨
      (w.freeClient c).hub = fun m => releaseWhenFreeClient c (w.hub m) := by
  unfold freeClient
  dsimp only
  split
  · exact Or.inl rfl
  · split
    · exact Or.inl rfl
    · exact Or.inr rfl

theorem freeClient_frame :
    (w.freeClient c).cfg = w.cfg ∧ (w.freeClient c).now = w.now ∧
      (w.freeClient c).store = w.store ∧ (w.freeClient c).stack = w.stack ∧
      (w.freeClient c).luaTimedout = w.luaTimedout ∧
      (w.freeClient c).backend = w.backend := by
  unfold freeClient
  dsimp only
  split
  · exact ⟨rfl, rfl, rfl, rfl, rfl, rfl⟩
  · split <;> exact ⟨rfl, rfl, rfl, rfl, rfl, rfl⟩

@[simp] theorem freeClient_stack : (w.freeClient c).stack = w.stack :=
  (freeClient_frame w c).right.right.right.left

end

end World

end Redisoo
