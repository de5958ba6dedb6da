import Redisoo.Commands
import Redisoo.Persistence.Aof

/-!
# Feeding the append only file

`feedAppendOnlyFile` for the commands that set a value or an expire time, and the
execution of a command of the file.  A relative expire time becomes a `PEXPIREAT`; the
feeder finds it with a scan of its own over the arguments of `SET`.
-/

namespace Redisoo

open Foundation.Stdio

variable {n : Nat}

namespace Aof

/-!
# Commands
-/

inductive CommandName where
  | set
  | setex
  | psetex
  | expire
  | pexpire
  | expireat
  | pexpireat
  | del
  | unlink
  | select
deriving DecidableEq

def lookupCommand (name : Sds) : Option CommandName :=
  let name := name.map tolower
  if name = [115, 101, 116] then some .set
  else if name = [115, 101, 116, 101, 120] then some .setex
  else if name = [112, 115, 101, 116, 101, 120] then some .psetex
  else if name = [101, 120, 112, 105, 114, 101] then some .expire
  else if name = [112, 101, 120, 112, 105, 114, 101] then some .pexpire
  else if name = [101, 120, 112, 105, 114, 101, 97, 116] then some .expireat
  else if name = [112, 101, 120, 112, 105, 114, 101, 97, 116] then some .pexpireat
  else if name = [100, 101, 108] then some .del
  else if name = [117, 110, 108, 105, 110, 107] then some .unlink
  else if name = [115, 101, 108, 101, 99, 116] then some .select
  else none

inductive AofCommand where
  | setlike (sc : SetCommand)
  /-- the four commands of `expireGenericCommand` -/
  | expire (unit : TimeUnit) (relative : Bool) (key param : Sds)
  | del (key : Sds)
  | select (index : Sds)
deriving DecidableEq

def parseArgv (argv : List Sds) : Option AofCommand :=
  match argv with
  | [] => none
  | name :: args =>
    match lookupCommand name, args with
    | some .set, key :: val :: options => some (.setlike (.set key val options))
    | some .setex, [key, seconds, val] => some (.setlike (.setex key seconds val))
    | some .psetex, [key, ms, val] => some (.setlike (.psetex key ms val))
    | some .expire, [key, param] => some (.expire .seconds true key param)
    | some .pexpire, [key, param] => some (.expire .milliseconds true key param)
    | some .expireat, [key, param] => some (.expire .seconds false key param)
    | some .pexpireat, [key, param] => some (.expire .milliseconds false key param)
    | some .del, [key] => some (.del key)
    | some .unlink, [key] => some (.del key)
    | some .select, [index] => some (.select index)
    | _, _ => none

structure Executed (n : Nat) where
  db : Fin n
  store : Store n
  dirty : Nat
  rewritten : Option (List Sds)

/-- `"DEL"` and `"UNLINK"`. -/
def deletion (lazyExpire : Bool) (key : Sds) : List Sds :=
  [if lazyExpire then [85, 78, 76, 73, 78, 75] else [68, 69, 76], key]

def expireTime (unit : TimeUnit) (basetime value : Int) : Int :=
  let value := match unit with
    | .seconds => wrap64 (value * 1000)
    | .milliseconds => value
  wrap64 (value + basetime)

def expireGenericCommand (e : Env) (lazyExpire : Bool) (st : Store n) (d : Fin n)
    (unit : TimeUnit) (relative : Bool) (key param : Sds) : Executed n :=
  match Util.string2ll param with
  | none => { db := d, store := st, dirty := 0, rewritten := none }
  | some value =>
    let time := expireTime unit (if relative then e.now else 0) value
    let looked := st.lookupKeyWrite e d key
    match looked.2 with
    | none => { db := d, store := looked.1, dirty := 0, rewritten := none }
    | some _ =>
      if time ≤ e.now ∧ e.loading = false ∧ e.masterhost = false then
        { db := d
          store := { looked.1 with ks := (looked.1.ks.dbSyncDelete d key).1 }
          dirty := 1
          rewritten := some (deletion lazyExpire key) }
      else
        { db := d
          store := looked.1.setExpire d key time
          dirty := 1
          rewritten := none }

def selectDb (d : Fin n) (index : Sds) : Fin n :=
  match Util.string2ll index with
  | none => d
  | some i => if h : 0 ≤ i ∧ i < n then ⟨i.toNat, by lia⟩ else d

theorem selectDb_ll2string (d0 d : Fin n) (hn : n < 2 ^ 31) :
    selectDb d0 (Util.ll2string (d.val : Int)) = d := by
  have hd := d.isLt
  have hparse : Util.string2ll (Util.ll2string (d.val : Int)) = some (d.val : Int) := by
    apply Util.string2ll_ll2string
    unfold Util.LLONG_MIN Util.LLONG_MAX
    lia
  simp only [selectDb, hparse]
  rw [dif_pos (by lia)]
  simp

def execute (e : Env) (lazyExpire : Bool) (flags : SyncReply) (d : Fin n) (st : Store n) :
    AofCommand -> Executed n
  | .setlike sc =>
    let r := setProc e st d flags sc
    { db := d, store := r.store, dirty := r.dirty, rewritten := none }
  | .expire unit relative key param =>
    expireGenericCommand e lazyExpire st d unit relative key param
  | .del key =>
    let r := delProc e st d flags [key]
    { db := d, store := r.store, dirty := r.dirty, rewritten := none }
  | .select index => { db := selectDb d index, store := st, dirty := 0, rewritten := none }

/-!
# The feeder
-/

/-- `"PEXPIREAT"`. -/
def pexpireatName : Sds := [80, 69, 88, 80, 73, 82, 69, 65, 84]

/-- `"SET"`. -/
def setName : Sds := [83, 69, 84]

/-- `"SELECT"`. -/
def selectName : Sds := [83, 69, 76, 69, 67, 84]

def catAppendOnlyExpireAtCommand (now : Int) (unit : TimeUnit) (relative : Bool)
    (key seconds : Sds) : List Sds :=
  [pexpireatName, key,
    Util.ll2string (expireTime unit (if relative then now else 0) (strtol seconds))]

/-- The scan for `exarg` and `pxarg`; no result is a read behind the last argument. -/
def scanExpire : List Sds -> Option Sds -> Option Sds -> Option (Option Sds × Option Sds)
  | [], exarg, pxarg => some (exarg, pxarg)
  | a :: rest, exarg, pxarg =>
    if strcasecmpEq a [101, 120] then
      match rest with
      | [] => none
      | next :: _ => scanExpire rest (some next) pxarg
    else if strcasecmpEq a [112, 120] then
      match rest with
      | [] => none
      | next :: _ => scanExpire rest exarg (some next)
    else scanExpire rest exarg pxarg

/-- The commands `feedAppendOnlyFile` appends for a command; no result is the failed
assertion that `EX` and `PX` are not both given. -/
def translate (now : Int) (argv : List Sds) : Option (List (List Sds)) :=
  match parseArgv argv with
  | some (.expire unit relative key param) =>
    if unit = .milliseconds ∧ relative = false then some [argv]
    else some [catAppendOnlyExpireAtCommand now unit relative key param]
  | some (.setlike (.setex key seconds val)) =>
    some [[setName, key, val], catAppendOnlyExpireAtCommand now .seconds true key seconds]
  | some (.setlike (.psetex key ms val)) =>
    some [[setName, key, val], catAppendOnlyExpireAtCommand now .milliseconds true key ms]
  | some (.setlike (.set key _ (a :: options))) =>
    match scanExpire (a :: options) none none with
    | none => none
    | some (some _, some _) => none
    | some (exarg, pxarg) =>
      some (argv.take 3 ::
        ((exarg.map (catAppendOnlyExpireAtCommand now .seconds true key)).toList ++
          (pxarg.map (catAppendOnlyExpireAtCommand now .milliseconds true key)).toList))
  | _ => some [argv]

def feedAppendOnlyFile (now : Int) (selected : Option (Fin n)) (dictid : Fin n)
    (argv : List Sds) : Option (List UInt8) :=
  (translate now argv).map fun cmds =>
    (if selected = some dictid then cmds
      else [selectName, Util.ll2string (dictid.val : Int)] :: cmds).flatMap
        catAppendOnlyGenericCommand

/-!
# Replay
-/

def aofTable : CommandTable := fun name =>
  (lookupCommand name).map fun _ => .other

def replayOne (e : Env) (lazyExpire : Bool) (st : Fin n × Store n) (argv : List Sds) :
    Fin n × Store n :=
  match parseArgv argv with
  | none => st
  | some cmd =>
    let r := execute { e with loading := true } lazyExpire SyncReply.clear st.1 st.2 cmd
    (r.db, r.store)

def replay (e : Env) (lazyExpire : Bool) (d : Fin n) (st : Store n) (file : List UInt8) :
    Option (Store n) :=
  match loadAppendOnlyFile aofTable file with
  | .error _ => none
  | .ok loaded => some (loaded.executed.foldl (replayOne e lazyExpire) (d, st)).2

end Aof
end Redisoo
