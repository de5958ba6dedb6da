import Redisoo.Backend.Channel

/-!
# The state of the server

Clients, the nesting of the main thread's calls, the backend database and the
record of what has happened so far.
-/

namespace Redisoo

variable {n : Nat}

inductive Simple (n : Nat) where
  | data (cmd : DataCommand n)
  | select (dbid : Fin n)
  | clientKill (target : ClientId)
  | eval (body : List (DataCommand n))

inductive Command (n : Nat) where
  | simple (s : Simple n)
  | multi
  | exec
  | discard

inductive Status where
  | connected
  | cached
  | freed
  deriving DecidableEq

/-- `backendState` is `none` for `CLIENT_BACKEND_NORMAL`.  `cmd` is the command
a suspended client keeps in `c->cmd` and `c->argv`. -/
structure Client (n : Nat) where
  db : Fin n
  backendState : Option Mode
  syncReply : SyncReply
  cmd : Option (DataCommand n)
  querybuf : List (Command n)
  multi : Option (List (Simple n))
  dirtyExec : Bool
  master : Bool
  status : Status
  closing : Bool

inductive DbType where
  | disabled
  | grpc
  | sql
  deriving DecidableEq

/-- The configuration the cache-through path reads.  A statement counts as
configured when it is neither absent nor empty. -/
structure Config where
  redisooDbType : DbType
  redisooGet : Bool
  redisooSet : Bool
  redisooDel : Bool
  redisooGetSync : Bool
  redisooSetSync : Bool
  redisooDelSync : Bool
  redisooGetTtl : Int
  masterhost : Bool
  replSlaveRo : Bool

def Config.sync (cfg : Config) : Mode -> Bool
  | .get => cfg.redisooGetSync
  | .set => cfg.redisooSetSync
  | .del => cfg.redisooDelSync

def Config.synchronous : Config where
  redisooDbType := .sql
  redisooGet := true
  redisooSet := true
  redisooDel := true
  redisooGetSync := true
  redisooSetSync := true
  redisooDelSync := true
  redisooGetTtl := 0
  masterhost := false
  replSlaveRo := true

inductive Frame (n : Nat) where
  /-- `processInputBuffer` of a client. -/
  | input (c : ClientId)
  /-- `_clearFinishKey`, with the rest of the copied client list. -/
  | clear (m : Mode) (dbid : Fin n) (key : Sds) (result : Bool)
      (clients : List ClientId)
  /-- The end of a pipe handler, which reads the byte that triggered it. -/
  | read (m : Mode)
  /-- A script, with the commands it has still to run. -/
  | script (c : ClientId) (body todo : List (DataCommand n))

inductive Observation (n : Nat) where
  | arrive (c : ClientId) (cmd : Command n) (held : Option Sds)
  | enter (m : Mode) (d : Fin n) (k : Sds)
  | suspend (c : ClientId) (m : Mode) (d : Fin n) (k : Sds)
  | executed (m : Mode) (d : Fin n) (k : Sds) (val : Option Sds) (result : Bool)
  | posted (m : Mode) (addr : Nat)
  | complete (m : Mode) (d : Fin n) (k : Sds) (addr : Nat)
  | resume (c : ClientId) (m : Mode) (d : Fin n) (k : Sds)
  | reply (c : ClientId) (cmd : Command n) (r : Reply)
  | freed (c : ClientId)

/-- The main thread's nesting has its innermost call first and the trace its
newest observation first. -/
structure World (n : Nat) where
  cfg : Config
  now : Int
  store : Store n
  hub : Mode -> Channel n
  clients : ClientId -> Client n
  stack : List (Frame n)
  luaTimedout : Bool
  backend : Sds -> Option Sds
  trace : List (Observation n)

def Frame.isScriptOf (c : ClientId) : Frame n -> Bool
  | .script c' _ _ => c' == c
  | _ => false

def Command.data (cmd : DataCommand n) : Command n :=
  .simple (.data cmd)

def Command.isWrite : Command n -> Bool
  | .simple (.data cmd) => cmd.isWrite
  | _ => false

def Command.isTransactional : Command n -> Bool
  | .simple _ => false
  | _ => true

namespace DataCommand

def isReadonly (cmd : DataCommand n) : Bool :=
  !cmd.isWrite

end DataCommand

namespace Client

def fresh (db : Fin n) (master : Bool) : Client n where
  db := db
  backendState := none
  syncReply := SyncReply.clear
  cmd := none
  querybuf := []
  multi := none
  dirtyExec := false
  master := master
  status := .connected
  closing := false

def caller (cl : Client n) (cmd : DataCommand n) : Caller where
  master := cl.master
  readonly := cmd.isReadonly

def flagTransaction (cl : Client n) : Client n :=
  if cl.multi.isSome then { cl with dirtyExec := true } else cl

def discardTransaction (cl : Client n) : Client n :=
  { cl with multi := none, dirtyExec := false }

end Client

namespace World

def env (w : World n) : Env where
  now := w.now
  masterhost := w.cfg.masterhost
  loading := false

@[simps] def setStore (w : World n) (st : Store n) : World n :=
  { w with store := st }

@[simps] def setClient (w : World n) (c : ClientId) (cl : Client n) : World n :=
  { w with clients := Function.update w.clients c cl }

@[simps] def setChannel (w : World n) (m : Mode) (ch : Channel n) : World n :=
  { w with hub := Function.update w.hub m ch }

@[simps] def setStack (w : World n) (stack : List (Frame n)) : World n :=
  { w with stack := stack }

@[simps] def log (w : World n) (o : Observation n) : World n :=
  { w with trace := o :: w.trace }

def inScript (w : World n) (c : ClientId) : Bool :=
  w.stack.any (Frame.isScriptOf c)

def acceptsEvents (w : World n) : Bool :=
  match w.stack with
  | [] => true
  | .script _ _ _ :: _ => w.luaTimedout
  | _ => false

def start (cfg : Config) (backend : Sds -> Option Sds) (db : Fin n)
    (master : Option ClientId) : World n where
  cfg := cfg
  now := 0
  store := { ks := Keyspace.empty, fed := [] }
  hub := fun _ => Channel.init
  clients := fun c => Client.fresh db (master == some c)
  stack := []
  luaTimedout := false
  backend := backend
  trace := []

end World

end Redisoo
