import Redisoo.Keyspace

/-!
# The commands of the cache-through path

GET, the four SET commands and DEL as `t_string.c` and `db.c` execute them, with
the two per-client flags through which a failed backend operation reaches the
command that is executed again, and `call()`, which feeds a command that changed
the dataset to the append only file.
-/

namespace Redisoo

variable {n : Nat}

/-!
# Options of SET

`setCommand` and `_getTtlForSetCommand` run the same loop over the arguments
from the fourth on.  An argument is compared as a C string.
-/

def byteAt (a : Sds) (i : Nat) : UInt8 :=
  a.getD i 0

def tolower (b : UInt8) : UInt8 :=
  if 65 ≤ b.toNat && b.toNat ≤ 90 then b + 32 else b

def strcasecmpEq (a b : Sds) : Bool :=
  (a.takeWhile (· != 0)).map tolower == (b.takeWhile (· != 0)).map tolower

def isOption (lower1 lower2 : UInt8) (a : Sds) : Bool :=
  tolower (byteAt a 0) == lower1 && tolower (byteAt a 1) == lower2 &&
    byteAt a 2 == 0

def isNx (a : Sds) : Bool := isOption 110 120 a
def isXx (a : Sds) : Bool := isOption 120 120 a
def isEx (a : Sds) : Bool := isOption 101 120 a
def isPx (a : Sds) : Bool := isOption 112 120 a
def isKeepttl (a : Sds) : Bool := strcasecmpEq a [75, 69, 69, 80, 84, 84, 76]

inductive TimeUnit where
  | seconds
  | milliseconds
  deriving DecidableEq

structure SetOptions where
  nx : Bool
  xx : Bool
  ex : Bool
  px : Bool
  keepttl : Bool
  expire : Option Sds
  unit : TimeUnit
  deriving DecidableEq

def SetOptions.none : SetOptions where
  nx := false
  xx := false
  ex := false
  px := false
  keepttl := false
  expire := Option.none
  unit := .seconds

def parseSetOptions : List Sds -> SetOptions -> Option SetOptions
  | [], o => some o
  | a :: rest, o =>
    if isNx a && !o.xx then parseSetOptions rest { o with nx := true }
    else if isXx a && !o.nx then parseSetOptions rest { o with xx := true }
    else if isKeepttl a && !o.ex && !o.px then
      parseSetOptions rest { o with keepttl := true }
    else
      match rest with
      | [] => Option.none
      | next :: rest' =>
        if isEx a && !o.keepttl && !o.px then
          parseSetOptions rest'
            { o with ex := true, unit := .seconds, expire := some next }
        else if isPx a && !o.keepttl && !o.ex then
          parseSetOptions rest'
            { o with px := true, unit := .milliseconds, expire := some next }
        else Option.none

def wrap64 (x : Int) : Int :=
  Int.bmod x (2 ^ 64)

theorem wrap64_range (x : Int) : Util.LLONG_MIN ≤ wrap64 x ∧ wrap64 x ≤ Util.LLONG_MAX := by
  unfold wrap64 Util.LLONG_MIN Util.LLONG_MAX
  lia

theorem wrap64_of_range {x : Int} (h : Util.LLONG_MIN ≤ x ∧ x ≤ Util.LLONG_MAX) : wrap64 x = x := by
  unfold Util.LLONG_MIN Util.LLONG_MAX at h
  unfold wrap64
  rw [Int.bmod_eq_of_le (by lia) (by lia)]

namespace SetCommand

def name : SetCommand -> String
  | set _ _ _ => "set"
  | setnx _ _ => "setnx"
  | setex _ _ _ => "setex"
  | psetex _ _ _ => "psetex"

def key : SetCommand -> Sds
  | set k _ _ => k
  | setnx k _ => k
  | setex k _ _ => k
  | psetex k _ _ => k

def isSetnx : SetCommand -> Bool
  | .setnx _ _ => true
  | _ => false

def argv2 : SetCommand -> Sds
  | set _ v _ => v
  | setnx _ v => v
  | setex _ t _ => t
  | psetex _ t _ => t

def getValueFromSetCommand : SetCommand -> Sds
  | set _ v _ => v
  | setnx _ v => v
  | setex _ _ v => v
  | psetex _ _ v => v

def getTtlForSetCommand : SetCommand -> Int
  | set _ _ options =>
    match parseSetOptions options SetOptions.none with
    | none => 0
    | some o =>
      match o.expire with
      | none => 0
      | some arg =>
        match Util.string2ll arg with
        | none => 0
        | some val =>
          match o.unit with
          | .seconds => wrap64 (1000 * val)
          | .milliseconds => val
  | setex _ t _ =>
    match Util.string2ll t with
    | none => 0
    | some val => wrap64 (val * 1000)
  | psetex _ t _ =>
    match Util.string2ll t with
    | none => 0
    | some val => val
  | setnx _ _ => 0

end SetCommand

structure SyncReply where
  set : Bool
  del : Bool
  deriving DecidableEq

def SyncReply.clear : SyncReply where
  set := false
  del := false

structure Outcome (n : Nat) where
  store : Store n
  reply : Reply
  dirty : Nat
  flags : SyncReply

structure SetArgs where
  name : String
  nx : Bool
  xx : Bool
  keepttl : Bool
  key : Sds
  val : Sds
  expire : Option Sds
  unit : TimeUnit
  okReply : Reply
  abortReply : Reply

def SetArgs.milliseconds (a : SetArgs) : Except Reply (Option Int) :=
  match a.expire with
  | none => .ok none
  | some arg =>
    match Util.string2ll arg with
    | none => .error (.error "value is not an integer or out of range")
    | some ms =>
      if ms ≤ 0 then .error (.error ("invalid expire time in " ++ a.name))
      else
        match a.unit with
        | .seconds => .ok (some (wrap64 (ms * 1000)))
        | .milliseconds => .ok (some ms)

def SetArgs.write (a : SetArgs) (e : Env) (st : Store n) (d : Fin n) (ms : Option Int) : Store n :=
  let st' := st.genericSetKey e d a.key (tryObjectEncoding a.val) a.keepttl
  match ms with
  | none => st'
  | some ms => st'.setExpire d a.key (wrap64 (e.now + ms))

def setGenericCommand (e : Env) (st : Store n) (d : Fin n) (flags : SyncReply)
    (a : SetArgs) : Outcome n :=
  match a.milliseconds with
  | .error r => { store := st, reply := r, dirty := 0, flags := flags }
  | .ok ms =>
    if flags.set then
      { store := st, reply := .null, dirty := 0,
        flags := { flags with set := false } }
    else
      -- NX and XX look the key up for writing, which may expire it.
      let looked := if a.nx || a.xx then (st.lookupKeyWrite e d a.key).1 else st
      let found := (looked.ks.dict d a.key).isSome
      if (a.nx && found) || (a.xx && !found) then
        { store := looked, reply := a.abortReply, dirty := 0, flags := flags }
      else
        { store := a.write e looked d ms, reply := a.okReply, dirty := 1,
          flags := flags }

def SetCommand.args : SetCommand -> Option SetArgs
  | .set k v options =>
    match parseSetOptions options SetOptions.none with
    | none => none
    | some o =>
      some
        { name := "set", nx := o.nx, xx := o.xx, keepttl := o.keepttl,
          key := k, val := v, expire := o.expire, unit := o.unit,
          okReply := .ok, abortReply := .null }
  | .setnx k v =>
    some
      { name := "setnx", nx := true, xx := false, keepttl := false,
        key := k, val := v, expire := none, unit := .seconds,
        okReply := .integer 1, abortReply := .integer 0 }
  | .setex k t v =>
    some
      { name := "setex", nx := false, xx := false, keepttl := false,
        key := k, val := v, expire := some t, unit := .seconds,
        okReply := .ok, abortReply := .null }
  | .psetex k t v =>
    some
      { name := "psetex", nx := false, xx := false, keepttl := false,
        key := k, val := v, expire := some t, unit := .milliseconds,
        okReply := .ok, abortReply := .null }

def setProc (e : Env) (st : Store n) (d : Fin n) (flags : SyncReply)
    (sc : SetCommand) : Outcome n :=
  match sc.args with
  | none =>
    { store := st, reply := .error "syntax error", dirty := 0, flags := flags }
  | some a => setGenericCommand e st d flags a

/-!
# What a SET command answers
-/

theorem milliseconds_error {a : SetArgs} {r : Reply}
    (h : a.milliseconds = .error r) : exists msg, r = .error msg := by
  unfold SetArgs.milliseconds at h
  split at h
  · cases h
  split at h
  · cases h
    exact ⟨_, rfl⟩
  split at h
  · cases h
    exact ⟨_, rfl⟩
  · split at h
    · cases h
    · cases h

theorem setGenericCommand_reply (e : Env) (st : Store n) (d : Fin n)
    (flags : SyncReply) (a : SetArgs) :
    (exists msg, (setGenericCommand e st d flags a).reply = .error msg) ∨
      (setGenericCommand e st d flags a).reply = .null ∨
      (setGenericCommand e st d flags a).reply = a.abortReply ∨
      ((setGenericCommand e st d flags a).reply = a.okReply ∧ flags.set = false) := by
  unfold setGenericCommand
  split
  · rename_i r hms
    rcases milliseconds_error hms with ⟨msg, hr⟩
    exact Or.inl ⟨msg, hr⟩
  split
  · exact Or.inr (Or.inl rfl)
  · rename_i hflag
    dsimp only
    generalize (if (a.nx || a.xx) = true then (st.lookupKeyWrite e d a.key).1
      else st) = looked
    split
    · exact Or.inr (Or.inr (Or.inl rfl))
    · exact Or.inr (Or.inr (Or.inr ⟨rfl, by simpa using hflag⟩))

theorem SetCommand.args_replies {sc : SetCommand} {a : SetArgs} (h : sc.args = some a) :
    (a.okReply = .ok ∨ a.okReply = .integer 1) ∧
      (a.abortReply = .null ∨ a.abortReply = .integer 0) := by
  cases sc with
  | set k v options =>
    unfold SetCommand.args at h
    dsimp only at h
    split at h
    · cases h
    · cases h
      exact ⟨Or.inl rfl, Or.inl rfl⟩
  | setnx k v =>
    cases h
    exact ⟨Or.inr rfl, Or.inr rfl⟩
  | setex k t v | psetex k t v =>
    cases h
    exact ⟨Or.inl rfl, Or.inl rfl⟩

theorem setProc_reply (e : Env) (st : Store n) (d : Fin n) (flags : SyncReply) (sc : SetCommand) :
    ((exists msg, (setProc e st d flags sc).reply = .error msg) ∨
        (setProc e st d flags sc).reply = .null ∨
        (setProc e st d flags sc).reply = .integer 0) ∨
      (((setProc e st d flags sc).reply = .ok ∨
        (setProc e st d flags sc).reply = .integer 1) ∧ flags.set = false) := by
  unfold setProc
  cases hargs : sc.args with
  | none => exact Or.inl (Or.inl ⟨_, rfl⟩)
  | some a =>
    rcases SetCommand.args_replies hargs with ⟨hok, habort⟩
    dsimp only
    rcases setGenericCommand_reply e st d flags a with herror | hnull | habort' | ⟨hok', hflag⟩
    · exact Or.inl (Or.inl herror)
    · exact Or.inl (Or.inr (Or.inl hnull))
    · rw [habort']
      rcases habort with hr | hr
      · exact Or.inl (Or.inr (Or.inl hr))
      · exact Or.inl (Or.inr (Or.inr hr))
    · rw [hok']
      exact Or.inr ⟨hok, hflag⟩

theorem setProc_setnx_found {e : Env} {st : Store n} {d : Fin n} {flags : SyncReply} {k v : Sds}
    (hfound : ((st.lookupKeyWrite e d k).2).isSome = true) :
    (setProc e st d flags (.setnx k v)).reply = .null ∨
      (setProc e st d flags (.setnx k v)).reply = .integer 0 := by
  rw [Store.lookupKeyWrite_snd] at hfound
  unfold setProc setGenericCommand
  simp only [SetCommand.args, SetArgs.milliseconds]
  split
  · exact Or.inl rfl
  · right
    simp [hfound]

def getProc (e : Env) (caller : Caller) (st : Store n) (d : Fin n)
    (flags : SyncReply) (k : Sds) : Outcome n :=
  let (st', o) := st.lookupKeyRead e caller d k
  let reply :=
    match o with
    | none => .null
    | some o =>
      match o.decoded with
      | some s => .bulk s
      | none =>
        .error "WRONGTYPE Operation against a key holding the wrong kind of value"
  { store := st', reply := reply, dirty := 0, flags := flags }

def delOne (e : Env) (d : Fin n) (acc : Store n × Nat) (k : Sds) : Store n × Nat :=
  let st := (acc.1.expireIfNeeded e d k).1
  let (ks, deleted) := st.ks.dbSyncDelete d k
  ({ st with ks := ks }, if deleted then acc.2 + 1 else acc.2)

def delProc (e : Env) (st : Store n) (d : Fin n) (flags : SyncReply)
    (keys : List Sds) : Outcome n :=
  if flags.del then
    { store := st, reply := .integer 0, dirty := 0,
      flags := { flags with del := false } }
  else
    let (st', numdel) := keys.foldl (delOne e d) (st, 0)
    { store := st', reply := .integer numdel, dirty := numdel, flags := flags }

def ordinaryProc (e : Env) (st : Store n) (d : Fin n) (flags : SyncReply)
    (o : Ordinary n) : Outcome n :=
  let st' := o.keys.foldl (fun st k => (st.expireIfNeeded e d k).1) st
  { store := { st' with ks := o.effect d st'.ks },
    reply := o.reply d st'.ks,
    dirty := o.dirty d st'.ks,
    flags := flags }

namespace DataCommand

def proc (e : Env) (caller : Caller) (st : Store n) (d : Fin n)
    (flags : SyncReply) : DataCommand n -> Outcome n
  | get k => getProc e caller st d flags k
  | setlike sc => setProc e st d flags sc
  | del k more => delProc e st d flags (k :: more)
  | ordinary o => ordinaryProc e st d flags o

def call (e : Env) (caller : Caller) (st : Store n) (d : Fin n)
    (flags : SyncReply) (cmd : DataCommand n) : Outcome n :=
  let r := cmd.proc e caller st d flags
  if 0 < r.dirty then { r with store := r.store.feed d cmd } else r

theorem call_reply (e : Env) (caller : Caller) (st : Store n) (d : Fin n)
    (flags : SyncReply) (cmd : DataCommand n) :
    (cmd.call e caller st d flags).reply = (cmd.proc e caller st d flags).reply := by
  unfold call
  dsimp only
  split
  · rfl
  · rfl

def isWrite : DataCommand n -> Bool
  | get _ => false
  | setlike _ => true
  | del _ _ => true
  | ordinary o => o.write

end DataCommand

end Redisoo
