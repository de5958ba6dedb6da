import Mathlib.Data.Fin.Basic
import Redisoo.Object

/-!
# The keyspace

The main and the expires table of every database, the commands fed to the
append only file, and the lookup, deletion and overwrite functions of `db.c`
that the cache-through path uses.
-/

namespace Redisoo

variable {n : Nat}

/-!
# Tables indexed by database and key
-/

def updateAt {α : Type _} (f : Fin n -> Sds -> α) (d : Fin n) (k : Sds)
    (v : α) : Fin n -> Sds -> α :=
  fun d' k' => if d' = d ∧ k' = k then v else f d' k'

@[simp] theorem updateAt_same {α : Type _} (f : Fin n -> Sds -> α)
    (d : Fin n) (k : Sds) (v : α) : updateAt f d k v d k = v := by
  simp [updateAt]

theorem updateAt_other {α : Type _} (f : Fin n -> Sds -> α)
    {d d' : Fin n} {k k' : Sds} (v : α) (h : Not (d' = d ∧ k' = k)) :
    updateAt f d k v d' k' = f d' k' := by
  simp [updateAt, h]

structure Keyspace (n : Nat) where
  dict : Fin n -> Sds -> Option Robj
  expires : Fin n -> Sds -> Option Int

namespace Keyspace

def empty : Keyspace n where
  dict := fun _ _ => none
  expires := fun _ _ => none

def SameValues (ks ks' : Keyspace n) : Prop :=
  forall d k, (ks.dict d k).map Robj.value = (ks'.dict d k).map Robj.value

theorem sameValues_refl (ks : Keyspace n) : SameValues ks ks :=
  fun _ _ => rfl

def dbSyncDelete (ks : Keyspace n) (d : Fin n) (k : Sds) : Keyspace n × Bool :=
  ({ dict := updateAt ks.dict d k none,
     expires := updateAt ks.expires d k none },
    (ks.dict d k).isSome)

/-- `dbAdd` or `dbOverwrite`: the key holds the new object, its expire time is
left alone. -/
def dbSet (ks : Keyspace n) (d : Fin n) (k : Sds) (o : Robj) : Keyspace n :=
  { ks with dict := updateAt ks.dict d k (some o) }

theorem dbSet_sameValues {ks ks' : Keyspace n} (h : SameValues ks ks')
    (d : Fin n) (k : Sds) {o o' : Robj} (ho : o.value = o'.value) :
    SameValues (ks.dbSet d k o) (ks'.dbSet d k o') := by
  intro d' k'
  by_cases hkey : d' = d ∧ k' = k
  · simp [dbSet, updateAt, hkey, ho]
  · simpa [dbSet, updateAt_other _ _ hkey] using h d' k'

end Keyspace

/-- What the lookup functions read besides the tables: the clock, whether this
instance is a replica and whether a dump or log is being loaded. -/
structure Env where
  now : Int
  masterhost : Bool
  loading : Bool

structure Caller where
  master : Bool
  readonly : Bool

/-- A command other than the ones the cache-through path intercepts: its keys,
its effect on the keyspace given the selected database, its reply and the
number by which it increments `server.dirty`.  Commands look at values and
types, and a command that leaves `server.dirty` alone changes none. -/
structure Ordinary (n : Nat) where
  keys : List Sds
  write : Bool
  effect : Fin n -> Keyspace n -> Keyspace n
  reply : Fin n -> Keyspace n -> Reply
  dirty : Fin n -> Keyspace n -> Nat
  clean : forall d ks, dirty d ks = 0 -> Keyspace.SameValues (effect d ks) ks
  respects : forall d ks ks', Keyspace.SameValues ks ks' ->
    Keyspace.SameValues (effect d ks) (effect d ks')

inductive SetCommand where
  | set (key val : Sds) (options : List Sds)
  | setnx (key val : Sds)
  | setex (key seconds val : Sds)
  | psetex (key milliseconds val : Sds)
  deriving DecidableEq

inductive DataCommand (n : Nat) where
  | get (key : Sds)
  | setlike (sc : SetCommand)
  | del (key : Sds) (more : List Sds)
  | ordinary (o : Ordinary n)

structure Propagated (n : Nat) where
  dbid : Fin n
  cmd : DataCommand n

structure Store (n : Nat) where
  ks : Keyspace n
  fed : List (Propagated n)

namespace Store

def feed (st : Store n) (d : Fin n) (cmd : DataCommand n) : Store n :=
  { st with fed := st.fed ++ [{ dbid := d, cmd := cmd }] }

def keyIsExpired (e : Env) (ks : Keyspace n) (d : Fin n) (k : Sds) : Bool :=
  match ks.expires d k with
  | none => false
  | some expireAt =>
    if expireAt < 0 then false
    else if e.loading then false
    else decide (e.now > expireAt)

def deleteAndPropagate (st : Store n) (d : Fin n) (k : Sds) : Store n :=
  { (st.feed d (.del k [])) with ks := (st.ks.dbSyncDelete d k).1 }

def expireIfNeeded (e : Env) (st : Store n) (d : Fin n) (k : Sds) : Store n × Bool :=
  if keyIsExpired e st.ks d k then
    if e.masterhost then (st, true)
    else (st.deleteAndPropagate d k, (st.ks.dict d k).isSome)
  else (st, false)

/-- Unlike `keyIsExpired`, it takes a negative time for one that has passed. -/
def activeExpireCycleTryExpire (st : Store n) (now : Int) (d : Fin n) (k : Sds) : Store n :=
  match st.ks.expires d k with
  | none => st
  | some t => if now > t then st.deleteAndPropagate d k else st

def lookupKeyRead (e : Env) (caller : Caller) (st : Store n) (d : Fin n)
    (k : Sds) : Store n × Option Robj :=
  let (st', expired) := st.expireIfNeeded e d k
  if expired && (!e.masterhost || (!caller.master && caller.readonly)) then
    (st', none)
  else (st', st'.ks.dict d k)

def lookupKeyWrite (e : Env) (st : Store n) (d : Fin n) (k : Sds) : Store n × Option Robj :=
  let st' := (st.expireIfNeeded e d k).1
  (st', st'.ks.dict d k)

def removeExpire (st : Store n) (d : Fin n) (k : Sds) : Store n :=
  { st with ks := { st.ks with expires := updateAt st.ks.expires d k none } }

def setExpire (st : Store n) (d : Fin n) (k : Sds) (expireAt : Int) : Store n :=
  { st with
    ks := { st.ks with expires := updateAt st.ks.expires d k (some expireAt) } }

def genericSetKey (e : Env) (st : Store n) (d : Fin n) (k : Sds) (o : Robj)
    (keepttl : Bool) : Store n :=
  let st' := (st.lookupKeyWrite e d k).1
  let st'' := { st' with ks := st'.ks.dbSet d k o }
  if keepttl then st'' else st''.removeExpire d k

/-!
# What the operations do to the main table

Lookups can only drop the key they look at, and only because it has expired;
an overwrite changes the one cell it names.
-/

@[simp] theorem deleteAndPropagate_dict (st : Store n) (d : Fin n) (k : Sds) :
    (st.deleteAndPropagate d k).ks.dict = updateAt st.ks.dict d k none := rfl

@[simp] theorem setExpire_dict (st : Store n) (d : Fin n) (k : Sds)
    (expireAt : Int) : (st.setExpire d k expireAt).ks.dict = st.ks.dict := rfl

variable (e : Env)

theorem expireIfNeeded_dict_other (st : Store n) {d d' : Fin n} {k k' : Sds}
    (h : Not (d' = d ∧ k' = k)) :
    (st.expireIfNeeded e d k).1.ks.dict d' k' = st.ks.dict d' k' := by
  unfold expireIfNeeded
  split
  · split
    · rfl
    · simp [updateAt_other _ _ h]
  · rfl

theorem expireIfNeeded_dict_same (st : Store n) (d : Fin n) (k : Sds) :
    (st.expireIfNeeded e d k).1.ks.dict d k = st.ks.dict d k ∨
      (st.expireIfNeeded e d k).1.ks.dict d k = none := by
  unfold expireIfNeeded
  split
  · split
    · exact Or.inl rfl
    · right
      simp
  · exact Or.inl rfl

theorem expireIfNeeded_idem (st : Store n) (d : Fin n) (k : Sds) :
    ((st.expireIfNeeded e d k).1.expireIfNeeded e d k).1 = (st.expireIfNeeded e d k).1 := by
  by_cases hexpired : keyIsExpired e st.ks d k = true
  · by_cases hreplica : e.masterhost = true
    · simp [expireIfNeeded, hexpired, hreplica]
    · have hgone : keyIsExpired e (st.deleteAndPropagate d k).ks d k = false := by
        simp [keyIsExpired, deleteAndPropagate, Keyspace.dbSyncDelete]
      simp [expireIfNeeded, hexpired, hreplica, hgone]
  · simp [expireIfNeeded, hexpired]

@[simp] theorem lookupKeyRead_fst (caller : Caller) (st : Store n) (d : Fin n) (k : Sds) :
    (st.lookupKeyRead e caller d k).1 = (st.expireIfNeeded e d k).1 := by
  unfold lookupKeyRead
  dsimp only
  split <;> rfl

@[simp] theorem lookupKeyWrite_fst (st : Store n) (d : Fin n) (k : Sds) :
    (st.lookupKeyWrite e d k).1 = (st.expireIfNeeded e d k).1 := rfl

@[simp] theorem lookupKeyWrite_snd (st : Store n) (d : Fin n) (k : Sds) :
    (st.lookupKeyWrite e d k).2 = (st.expireIfNeeded e d k).1.ks.dict d k := rfl

theorem lookupKeyRead_some {e : Env} {caller : Caller} {st : Store n}
    {d : Fin n} {k : Sds} {o : Robj} (h : (st.lookupKeyRead e caller d k).2 = some o) :
    (st.expireIfNeeded e d k).1.ks.dict d k = some o := by
  unfold lookupKeyRead at h
  dsimp only at h
  split at h
  · cases h
  · exact h

theorem genericSetKey_dict (st : Store n) (d : Fin n) (k : Sds) (o : Robj) (keepttl : Bool) :
    (st.genericSetKey e d k o keepttl).ks.dict = updateAt st.ks.dict d k (some o) := by
  have hdict : (st.genericSetKey e d k o keepttl).ks.dict =
      updateAt (st.expireIfNeeded e d k).1.ks.dict d k (some o) := by
    unfold genericSetKey
    dsimp only
    split <;> rfl
  rw [hdict]
  funext d' k'
  by_cases hkey : d' = d ∧ k' = k
  · simp [updateAt, hkey]
  · rw [updateAt_other _ _ hkey, updateAt_other _ _ hkey, expireIfNeeded_dict_other e st hkey]

end Store

end Redisoo
