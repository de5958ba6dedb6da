import Redisoo.Persistence.AofFeed
import Redisoo.Structures.IntsetRun
import Redisoo.Structures.Ziplist

/-!
# Rewriting the append only file

`rewriteAppendOnlyFileRio` walks the dataset in its encodings and writes commands that
rebuild it.  The header of a command is written before its items, from the number of items
that are left.  Streams and modules are not part of the dataset here.
-/

namespace Redisoo

open Foundation.Bytes

structure Scores where
  Score : Type
  /-- `"%.17g"` -/
  format : Score -> Sds
  /-- `getDoubleFromObject` -/
  parse : Sds -> Option Score
  strtod : Sds -> Score
  /-- the cast of a `long long` -/
  ofInt : Int -> Score
  /-- `+`, unless it is NaN -/
  add : Score -> Score -> Option Score
  /-- `!=` -/
  ne : Score -> Score -> Bool
  roundTrip : forall x, parse (format x) = some x
  formatSize : forall x, (format x).length < 128
  /-- no option of ZADD is a number -/
  optionNoScore : forall s, (strcasecmpEq s [110, 120] || strcasecmpEq s [120, 120] ||
    strcasecmpEq s [99, 104] || strcasecmpEq s [105, 110, 99, 114]) = true -> parse s = none

namespace Aof

/-!
# Objects
-/

inductive StringObject where
  | sds (s : Sds)
  | int (v : Int)

structure ListObject where
  count : Nat
  nodes : List (List ZlEntry)

inductive SetObject where
  | intset (is : Intset)
  | ht (used : Nat) (keys : List Sds)

/-- `zllen` is the 16-bit count of entries in the header of a ziplist. -/
inductive ZsetObject (S : Scores) where
  | ziplist (zllen : Nat) (zl : List (ZlEntry × ZlEntry))
  | skiplist (length : Nat) (dict : List (Sds × S.Score))

inductive HashObject where
  | ziplist (zllen : Nat) (zl : List (ZlEntry × ZlEntry))
  | ht (used : Nat) (dict : List (Sds × Sds))

inductive Object (S : Scores) where
  | string (o : StringObject)
  | list (o : ListObject)
  | set (o : SetObject)
  | zset (o : ZsetObject S)
  | hash (o : HashObject)

/-!
# Writing
-/

def rioWriteBulkCount (mark : UInt8) (count : Int) : List UInt8 :=
  mark :: (Util.ll2string count ++ crlf)

def rioWriteBulkString (buf : Sds) : List UInt8 :=
  rioWriteBulkCount 36 buf.length ++ buf ++ crlf

def rioWriteBulkLongLong (l : Int) : List UInt8 :=
  rioWriteBulkString (Util.ll2string l)

def rioWriteBulkDouble (S : Scores) (d : S.Score) : List UInt8 :=
  rioWriteBulkString (S.format d)

def rioWriteBulkObject : StringObject -> List UInt8
  | .sds s => rioWriteBulkString s
  | .int v => rioWriteBulkLongLong v

def rioWriteZlEntry : ZlEntry -> List UInt8
  | .str s => rioWriteBulkString s
  | .int v => rioWriteBulkLongLong v

def AOF_REWRITE_ITEMS_PER_CMD : Nat := 64

/-- The loop the four functions share: `count` items of the current command are written,
`items` are left, and an item is `width` arguments. -/
def rewriteItems {item : Type} (name key : Sds) (width : Nat) (emit : item -> List UInt8) :
    Nat -> Int -> List item -> List UInt8
  | _, _, [] => []
  | count, items, x :: xs =>
    let cmdItems : Int :=
      if items > AOF_REWRITE_ITEMS_PER_CMD then AOF_REWRITE_ITEMS_PER_CMD else items
    (if count = 0 then
        rioWriteBulkCount 42 (2 + cmdItems * width) ++ rioWriteBulkString name ++
          rioWriteBulkString key
      else []) ++
      emit x ++
      rewriteItems name key width emit
        (if count + 1 = AOF_REWRITE_ITEMS_PER_CMD then 0 else count + 1) (items - 1) xs

/-- `"RPUSH"`. -/
def rpushName : Sds := [82, 80, 85, 83, 72]

/-- `"SADD"`. -/
def saddName : Sds := [83, 65, 68, 68]

/-- `"ZADD"`. -/
def zaddName : Sds := [90, 65, 68, 68]

/-- `"HMSET"`. -/
def hmsetName : Sds := [72, 77, 83, 69, 84]

/-- Half of `ziplistLen`, which walks a ziplist whose header count is full. -/
def ziplistPairs (zllen : Nat) (zl : List (ZlEntry × ZlEntry)) : Nat :=
  (if zllen < 65535 then zllen else zl.length * 2) / 2

def rewriteListObject (key : Sds) (o : ListObject) : List UInt8 :=
  rewriteItems rpushName key 1 rioWriteZlEntry 0 o.count o.nodes.flatten

def rewriteSetObject (key : Sds) : SetObject -> Option (List UInt8)
  | .intset is =>
    (Intset.intsetWalk is (Intset.intsetLen is + 1) 0).map
      (rewriteItems saddName key 1 rioWriteBulkLongLong 0 (Intset.intsetLen is))
  | .ht used keys => some (rewriteItems saddName key 1 rioWriteBulkString 0 used keys)

def zzlGetScore (S : Scores) : ZlEntry -> S.Score
  | .str s => S.strtod s
  | .int v => S.ofInt v

def rewriteSortedSetObject (S : Scores) (key : Sds) : ZsetObject S -> Option (List UInt8)
  | .ziplist _ [] => none
  | .ziplist zllen (e :: zl) =>
    some (rewriteItems zaddName key 2
      (fun (x : ZlEntry × ZlEntry) =>
        rioWriteBulkDouble S (zzlGetScore S x.2) ++ rioWriteZlEntry x.1)
      0 (ziplistPairs zllen (e :: zl)) (e :: zl))
  | .skiplist length dict =>
    some (rewriteItems zaddName key 2
      (fun (x : Sds × S.Score) => rioWriteBulkDouble S x.2 ++ rioWriteBulkString x.1)
      0 length dict)

def rewriteHashObject (key : Sds) : HashObject -> List UInt8
  | .ziplist zllen zl =>
    rewriteItems hmsetName key 2
      (fun (x : ZlEntry × ZlEntry) => rioWriteZlEntry x.1 ++ rioWriteZlEntry x.2)
      0 (ziplistPairs zllen zl) zl
  | .ht used dict =>
    rewriteItems hmsetName key 2
      (fun (x : Sds × Sds) => rioWriteBulkString x.1 ++ rioWriteBulkString x.2)
      0 used dict

/-- `"*3\r\n$3\r\nSET\r\n"`. -/
def setCmd : List UInt8 := [42, 51, 13, 10, 36, 51, 13, 10, 83, 69, 84, 13, 10]

/-- `"*3\r\n$9\r\nPEXPIREAT\r\n"`. -/
def pexpireatCmd : List UInt8 :=
  [42, 51, 13, 10, 36, 57, 13, 10, 80, 69, 88, 80, 73, 82, 69, 65, 84, 13, 10]

/-- `"*2\r\n$6\r\nSELECT\r\n"`. -/
def selectCmd : List UInt8 :=
  [42, 50, 13, 10, 36, 54, 13, 10, 83, 69, 76, 69, 67, 84, 13, 10]

def rewriteObject (S : Scores) (key : Sds) : Object S -> Option (List UInt8)
  | .string o => some (setCmd ++ rioWriteBulkString key ++ rioWriteBulkObject o)
  | .list o => some (rewriteListObject key o)
  | .set o => rewriteSetObject key o
  | .zset o => rewriteSortedSetObject S key o
  | .hash o => some (rewriteHashObject key o)

def rewriteExpire (key : Sds) (expiretime : Int) : List UInt8 :=
  if expiretime ≠ -1 then
    pexpireatCmd ++ rioWriteBulkString key ++ rioWriteBulkLongLong expiretime
  else []

/-!
# The dataset

The invariants of the encodings are fields, so that a dataset is one a server can hold: no
collection is empty, its own count is that of its items, the keys of a table are distinct,
and sizes and integers are those of the machine.
-/

def StringObject.Wf : StringObject -> Prop
  | .sds s => s.length < 2 ^ 63
  | .int v => SignedIn 8 v

structure ListObject.Wf (o : ListObject) : Prop where
  count : o.count = o.nodes.flatten.length
  fits : forall e, e ∈ o.nodes.flatten -> ZlEntry.Fits e
  nonempty : o.nodes.flatten ≠ []

def SetObject.Wf : SetObject -> Prop
  | .intset is => exists xs, Intset.Holds is xs ∧ xs ≠ []
  | .ht used keys => used = keys.length ∧ keys.Nodup ∧
    (forall k, k ∈ keys -> k.length < 2 ^ 63) ∧ keys ≠ []

structure Pairs {item : Type} (name : item -> Sds) (fits : item -> Prop) (xs : List item) :
    Prop where
  nodup : (xs.map name).Nodup
  fits : forall x, x ∈ xs -> fits x
  nonempty : xs ≠ []

def ZsetObject.Wf {S : Scores} : ZsetObject S -> Prop
  | .ziplist zllen zl => zllen = min (zl.length * 2) 65535 ∧
    Pairs (fun x => ZlEntry.text x.1) (fun x => ZlEntry.Fits x.1) zl
  | .skiplist length dict => length = dict.length ∧
    Pairs Prod.fst (fun x => x.1.length < 2 ^ 63) dict

def HashObject.Wf : HashObject -> Prop
  | .ziplist zllen zl => zllen = min (zl.length * 2) 65535 ∧
    Pairs (fun x => ZlEntry.text x.1) (fun x => ZlEntry.Fits x.1 ∧ ZlEntry.Fits x.2) zl
  | .ht used dict => used = dict.length ∧
    Pairs Prod.fst (fun x => x.1.length < 2 ^ 63 ∧ x.2.length < 2 ^ 63) dict

def Object.Wf {S : Scores} : Object S -> Prop
  | .string o => o.Wf
  | .list o => o.Wf
  | .set o => o.Wf
  | .zset o => o.Wf
  | .hash o => o.Wf

structure AofEntry (S : Scores) where
  key : Sds
  val : Object S
  keySize : key.length < 2 ^ 63
  wf : val.Wf

structure AofDb (S : Scores) where
  dict : List (AofEntry S)
  expires : Sds -> Option Int
  nodup : (dict.map AofEntry.key).Nodup
  expiresKey : forall k t, expires k = some t -> exists e, e ∈ dict ∧ e.key = k
  isLongLong : forall k t, expires k = some t -> SignedIn 8 t

/-- The databases at a time `mstime` before all expires. -/
structure AofDataset (S : Scores) (dbnum : Nat) where
  dbs : Fin dbnum -> AofDb S
  isInt : dbnum < 2 ^ 31
  mstime : Nat
  future : forall j k t, (dbs j).expires k = some t -> mstime < t

def AofDb.getExpire {S : Scores} (db : AofDb S) (key : Sds) : Int :=
  (db.expires key).getD (-1)

def writeAll (parts : List (Option (List UInt8))) : Option (List UInt8) :=
  parts.foldr (fun part rest => part.bind fun bytes => rest.map (bytes ++ ·)) (some [])

def rewriteEntry {S : Scores} (db : AofDb S) (e : AofEntry S) : Option (List UInt8) :=
  (rewriteObject S e.key e.val).map (· ++ rewriteExpire e.key (db.getExpire e.key))

def rewriteDb {S : Scores} (j : Nat) (db : AofDb S) : Option (List UInt8) :=
  if db.dict.length = 0 then some []
  else
    (writeAll (db.dict.map (rewriteEntry db))).map
      ((selectCmd ++ rioWriteBulkLongLong j) ++ ·)

def rewriteAppendOnlyFileRio {S : Scores} {dbnum : Nat} (ds : AofDataset S dbnum) :
    Option (List UInt8) :=
  writeAll ((List.finRange dbnum).map fun j => rewriteDb j.val (ds.dbs j))

/-!
# Replay

The commands of a rewritten file on typed logical values; a server that loads a file does
not expire keys.
-/

inductive Typed (S : Scores) where
  | string (s : Sds)
  | list (xs : List Sds)
  | set (isMember : Sds -> Bool)
  | zset (score : Sds -> Option S.Score)
  | hash (field : Sds -> Option Sds)

@[ext]
structure TypedDb (S : Scores) where
  dict : Sds -> Option (Typed S)
  expires : Sds -> Option Int

def TypedDb.empty (S : Scores) : TypedDb S :=
  { dict := fun _ => none, expires := fun _ => none }

def TypedDb.set {S : Scores} (db : TypedDb S) (key : Sds) (o : Typed S) : TypedDb S :=
  { db with dict := fun k => if k = key then some o else db.dict k }

section Commands

variable {S : Scores}

def setPlain (db : TypedDb S) (key val : Sds) : TypedDb S :=
  { db.set key (.string val) with expires := fun k => if k = key then none else db.expires k }

def rpushCommand (db : TypedDb S) (key : Sds) (vals : List Sds) : TypedDb S :=
  match db.dict key with
  | none => if vals = [] then db else db.set key (.list vals)
  | some (.list xs) => db.set key (.list (xs ++ vals))
  | some _ => db

def setAdd (isMember : Sds -> Bool) (ele : Sds) : Sds -> Bool :=
  fun s => if s = ele then true else isMember s

def saddCommand (db : TypedDb S) (key : Sds) (eles : List Sds) : TypedDb S :=
  match db.dict key with
  | none => db.set key (.set (eles.foldl setAdd fun _ => false))
  | some (.set isMember) => db.set key (.set (eles.foldl setAdd isMember))
  | some _ => db

def argPairs : List Sds -> Option (List (Sds × Sds))
  | [] => some []
  | [_] => none
  | a :: b :: rest => (argPairs rest).map ((a, b) :: ·)

def hashSet (field : Sds -> Option Sds) (x : Sds × Sds) : Sds -> Option Sds :=
  fun f => if f = x.1 then some x.2 else field f

def hsetCommand (db : TypedDb S) (key : Sds) (args : List Sds) : TypedDb S :=
  match argPairs args with
  | none => db
  | some xs =>
    match db.dict key with
    | none => db.set key (.hash (xs.foldl hashSet fun _ => none))
    | some (.hash field) => db.set key (.hash (xs.foldl hashSet field))
    | some _ => db

structure ZaddFlags where
  nx : Bool
  xx : Bool
  ch : Bool
  incr : Bool

def ZADD_NONE : ZaddFlags :=
  { nx := false, xx := false, ch := false, incr := false }

def zaddOptions : List Sds -> ZaddFlags -> ZaddFlags × List Sds
  | [], flags => (flags, [])
  | opt :: rest, flags =>
    if strcasecmpEq opt [110, 120] then zaddOptions rest { flags with nx := true }
    else if strcasecmpEq opt [120, 120] then zaddOptions rest { flags with xx := true }
    else if strcasecmpEq opt [99, 104] then zaddOptions rest { flags with ch := true }
    else if strcasecmpEq opt [105, 110, 99, 114] then
      zaddOptions rest { flags with incr := true }
    else (flags, opt :: rest)

def zaddScores (S : Scores) (xs : List (Sds × Sds)) : Option (List (S.Score × Sds)) :=
  xs.mapM fun x => (S.parse x.1).map fun score => (score, x.2)

def zsetAdd (flags : ZaddFlags) (z : Sds -> Option S.Score) (x : S.Score × Sds) :
    Option (Sds -> Option S.Score) :=
  match z x.2 with
  | some curscore =>
    if flags.nx then some z
    else
      match if flags.incr then S.add x.1 curscore else some x.1 with
      | none => none
      | some score =>
        if S.ne score curscore then
          some fun m => if m = x.2 then some score else z m
        else some z
  | none => if flags.xx then some z else some fun m => if m = x.2 then some x.1 else z m

def zaddElements (flags : ZaddFlags) :
    (Sds -> Option S.Score) -> List (S.Score × Sds) -> Sds -> Option S.Score
  | z, [] => z
  | z, x :: xs =>
    match zsetAdd flags z x with
    | none => z
    | some z => zaddElements flags z xs

def zaddCommand (db : TypedDb S) (key : Sds) (args : List Sds) : TypedDb S :=
  let (flags, args) := zaddOptions args ZADD_NONE
  match argPairs args with
  | none => db
  | some [] => db
  | some xs =>
    if flags.nx && flags.xx then db
    else if flags.incr && 1 < xs.length then db
    else
      match zaddScores S xs with
      | none => db
      | some eles =>
        match db.dict key with
        | none =>
          if flags.xx then db
          else db.set key (.zset (zaddElements flags (fun _ => none) eles))
        | some (.zset z) => db.set key (.zset (zaddElements flags z eles))
        | some _ => db

def pexpireatCommand (db : TypedDb S) (key param : Sds) : TypedDb S :=
  match Util.string2ll param, db.dict key with
  | some when_, some _ =>
    { db with expires := fun k => if k = key then some when_ else db.expires k }
  | _, _ => db

end Commands

inductive RewriteCommand where
  | select
  | set
  | rpush
  | sadd
  | zadd
  | hmset
  | pexpireat

def lookupRewrite (name : Sds) : Option RewriteCommand :=
  let name := name.map tolower
  if name = [115, 101, 108, 101, 99, 116] then some .select
  else if name = [115, 101, 116] then some .set
  else if name = [114, 112, 117, 115, 104] then some .rpush
  else if name = [115, 97, 100, 100] then some .sadd
  else if name = [122, 97, 100, 100] then some .zadd
  else if name = [104, 109, 115, 101, 116] then some .hmset
  else if name = [112, 101, 120, 112, 105, 114, 101, 97, 116] then some .pexpireat
  else none

structure Replaying (S : Scores) (dbnum : Nat) where
  db : Fin dbnum
  dbs : Fin dbnum -> TypedDb S

def Replaying.update {S : Scores} {dbnum : Nat} (st : Replaying S dbnum)
    (f : TypedDb S -> TypedDb S) : Replaying S dbnum :=
  { st with dbs := fun j => if j = st.db then f (st.dbs j) else st.dbs j }

def replayCommand {S : Scores} {dbnum : Nat} (st : Replaying S dbnum) (argv : List Sds) :
    Replaying S dbnum :=
  match argv with
  | [] => st
  | name :: args =>
    match lookupRewrite name, args with
    | some .select, [index] => { st with db := selectDb st.db index }
    | some .set, [key, val] => st.update fun db => setPlain db key val
    | some .rpush, key :: vals => st.update fun db => rpushCommand db key vals
    | some .sadd, key :: ele :: eles => st.update fun db => saddCommand db key (ele :: eles)
    | some .zadd, key :: args => st.update fun db => zaddCommand db key args
    | some .hmset, key :: args => st.update fun db => hsetCommand db key args
    | some .pexpireat, [key, param] => st.update fun db => pexpireatCommand db key param
    | _, _ => st

def rewriteTable : CommandTable := fun name =>
  (lookupRewrite name).map fun _ => .other

def replayRewritten (S : Scores) {dbnum : Nat} (d : Fin dbnum) (file : List UInt8) :
    Option (Fin dbnum -> TypedDb S) :=
  match loadAppendOnlyFile rewriteTable file with
  | .error _ => none
  | .ok loaded =>
    some (loaded.executed.foldl replayCommand ⟨d, fun _ => TypedDb.empty S⟩).dbs

end Aof
end Redisoo
