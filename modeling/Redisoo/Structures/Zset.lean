import Redisoo.Structures.DictIter
import Redisoo.Structures.Skiplist

/-!
# Sorted sets in two encodings

`t_zset.c`: a sorted set is a ziplist of pairs in order, or a skip list together with
a dictionary from the elements to the nodes.  The ziplist is taken as the list of its
pairs; the score that is read back is the one that was written.
-/

namespace Redisoo

/-- What the code needs to know of strings and scores.  `memcmp` compares the bytes that
both strings have, and `asUint` cuts a string to its length as an `unsigned int`.
`scorelen` is the length `d2string` gives a score, and `add` the sum of two scores, `none`
for NaN. -/
structure ZsetTypes (score ele : Type) [LinearOrder ele] where
  hash : ele -> Nat
  sdslen : ele -> Nat
  memcmp : ele -> ele -> Int
  asUint : ele -> ele
  scorelen : score -> Nat
  add : score -> score -> Option score
  /-- The order of the elements is that of `sdscmp`. -/
  sdscmp_pos : forall a b, b < a <-> 0 < memcmp a b ∨ memcmp a b = 0 ∧ sdslen b < sdslen a
  asUint_of_lt : forall e, sdslen e < 2 ^ 32 -> asUint e = e

/-- What the server gives to a call: `zset_max_ziplist_entries`,
`zset_max_ziplist_value`, `dict_can_resize` and the draws of the random levels. -/
structure ZsetServer where
  maxEntries : Nat
  maxValue : Nat
  canResize : Bool
  draws : Nat -> Nat

structure Zset (score ele : Type) where
  dict : Dict ele Nat
  zsl : Zskiplist score ele

inductive Zobj (score ele : Type) where
  | ziplist (zl : List (score × ele))
  | skiplist (zs : Zset score ele)

inductive ZsetCrash where
  | zsl (c : ZslCrash)
  | dict (c : DictCrash)
  | assertion
  /-- The bytes of a ziplist are counted in 32 bits. -/
  | ziplistBytes
deriving DecidableEq

def ofZsl {result : Type} : Except ZslCrash result -> Except ZsetCrash result
  | .error c => .error (.zsl c)
  | .ok r => .ok r

def ofDict {result : Type} : Except DictCrash result -> Except ZsetCrash result
  | .error c => .error (.dict c)
  | .ok r => .ok r

def zassert (b : Bool) : Except ZsetCrash Unit :=
  if b then .ok () else .error .assertion

/-!
# Ranks and ranges of the skip list
-/

namespace Zskiplist

variable {score ele : Type} [LinearOrder score] [LinearOrder ele]

def upTo (s : score) (e : ele) (_ : Nat) (s' : score) (e' : ele) : Bool :=
  decide (s' < s ∨ s' = s ∧ e' ≤ e)

def isEle (zsl : Zskiplist score ele) (x : ZslPlace) (e : ele) : Except ZslCrash Bool :=
  match x with
  | .header => .ok false
  | .node a => do
      let n ← zsl.nodeAt a
      .ok (decide (n.ele = e))

def getRankFrom (zsl : Zskiplist score ele) (s : score) (e : ele) :
    Nat -> ZslPlace -> Nat -> Except ZslCrash Nat
  | 0, _, _ => .ok 0
  | i + 1, x, rank => do
      let (x, rank) ← zsl.walk (upTo s e) i (zsl.length + 1) x rank
      if ← zsl.isEle x e then .ok rank else getRankFrom zsl s e i x rank

def zslGetRank (zsl : Zskiplist score ele) (s : score) (e : ele) : Except ZslCrash Nat :=
  zsl.getRankFrom s e zsl.level .header 0

def emptyRange (range : Zrangespec score) : Bool :=
  decide (range.min > range.max) ||
    decide (range.min = range.max) && (range.minex || range.maxex)

def zslIsInRange (zsl : Zskiplist score ele) (range : Zrangespec score) : Except ZslCrash Bool :=
  if emptyRange range then .ok false
  else
    match zsl.tail with
    | none => .ok false
    | some x => do
        let last ← zsl.nodeAt x
        if zslValueGteMin last.score range then do
          let l ← zsl.levelAt .header 0
          match l.forward with
          | none => .ok false
          | some x => do
              let first ← zsl.nodeAt x
              .ok (zslValueLteMax first.score range)
        else .ok false

def zslFirstInRange (zsl : Zskiplist score ele) (range : Zrangespec score) :
    Except ZslCrash (Option (ZskiplistNode score ele)) := do
  if ← zsl.zslIsInRange range then do
    let found ← zsl.search (fun _ s _ => !zslValueGteMin s range)
    let l ← zsl.levelAt (found.update 0) 0
    match l.forward with
    | none => .error .assertion
    | some x => do
        let n ← zsl.nodeAt x
        .ok (if zslValueLteMax n.score range then some n else none)
  else .ok none

def zslLastInRange (zsl : Zskiplist score ele) (range : Zrangespec score) :
    Except ZslCrash (Option (ZskiplistNode score ele)) := do
  if ← zsl.zslIsInRange range then do
    let found ← zsl.search (fun _ s _ => zslValueLteMax s range)
    match found.update 0 with
    | .header => .error .dangling
    | .node x => do
        let n ← zsl.nodeAt x
        .ok (if zslValueGteMin n.score range then some n else none)
  else .ok none

end Zskiplist

/-!
# Ziplists of pairs
-/

section Ziplist

variable {score ele : Type} [LinearOrder score] [LinearOrder ele]

/-- The bytes of a ziplist whose entries all have the widest headers: five bytes for
the length of the entry before and five for the encoding. -/
def zlbytes (T : ZsetTypes score ele) (zl : List (score × ele)) : Nat :=
  11 + (zl.map fun q => 20 + T.sdslen q.2 + T.scorelen q.1).sum

def zzlFindFrom (e : ele) : Nat -> List (score × ele) -> Option (Nat × score)
  | _, [] => none
  | i, (s', e') :: rest => if e' = e then some (i, s') else zzlFindFrom e (i + 1) rest

def zzlFind (T : ZsetTypes score ele) (zl : List (score × ele)) (e : ele) :
    Option (Nat × score) :=
  zzlFindFrom (T.asUint e) 0 zl

def zzlDelete (zl : List (score × ele)) (eptr : Nat) : List (score × ele) :=
  zl.eraseIdx eptr

def zzlInsertAt (T : ZsetTypes score ele) (zl : List (score × ele)) (eptr : Option Nat)
    (e : ele) (s : score) : Except ZsetCrash (List (score × ele)) :=
  let zl' :=
    match eptr with
    | none => zl ++ [(s, T.asUint e)]
    | some i => zl.take i ++ (s, T.asUint e) :: zl.drop i
  if zlbytes T zl' < 2 ^ 32 then .ok zl' else .error .ziplistBytes

/-- The difference of two `unsigned int` lengths is returned as an `int`. -/
def zzlCompareElements (T : ZsetTypes score ele) (v c : ele) : Int :=
  let cmp := T.memcmp v (T.asUint c)
  if cmp = 0 then
    Int.bmod ((T.sdslen v % 2 ^ 32 : Nat) - (T.sdslen c % 2 ^ 32 : Nat)) (2 ^ 32)
  else cmp

/-- The loop of `zzlInsert`: the first pair that comes after the new one. -/
def zzlPlace (T : ZsetTypes score ele) (s : score) (e : ele) :
    Nat -> List (score × ele) -> Option Nat
  | _, [] => none
  | i, (s', e') :: rest =>
    if s' > s then some i
    else if s' = s ∧ zzlCompareElements T e' e > 0 then some i
    else zzlPlace T s e (i + 1) rest

def zzlInsert (T : ZsetTypes score ele) (zl : List (score × ele)) (e : ele) (s : score) :
    Except ZsetCrash (List (score × ele)) :=
  zzlInsertAt T zl (zzlPlace T s e 0 zl) e s

/-- The loops of `zzlFirstInRange` and `zzlFirstInLexRange`: the first pair that is not
below the range, if it is not above. -/
def zzlFirst (gteMin lteMax : score × ele -> Bool) : Nat -> List (score × ele) -> Option Nat
  | _, [] => none
  | i, q :: rest =>
    if gteMin q then if lteMax q then some i else none
    else zzlFirst gteMin lteMax (i + 1) rest

def zzlIsInRange (zl : List (score × ele)) (range : Zrangespec score) : Bool :=
  if Zskiplist.emptyRange range then false
  else
    match zl.getLast?, zl.head? with
    | some last, some first => zslValueGteMin last.1 range && zslValueLteMax first.1 range
    | _, _ => false

def zzlFirstInRange (zl : List (score × ele)) (range : Zrangespec score) : Option Nat :=
  if zzlIsInRange zl range then
    zzlFirst (fun q => zslValueGteMin q.1 range) (fun q => zslValueLteMax q.1 range) 0 zl
  else none

def cmpBounds : LexBound ele -> LexBound ele -> Ordering
  | .minstring, .minstring => .eq
  | .maxstring, .maxstring => .eq
  | .minstring, _ => .lt
  | _, .maxstring => .lt
  | .maxstring, _ => .gt
  | _, .minstring => .gt
  | .str a, .str b => compare a b

def emptyLexRange (range : Zlexrangespec ele) : Bool :=
  cmpBounds range.min range.max == .gt ||
    cmpBounds range.min range.max == .eq && (range.minex || range.maxex)

def zzlIsInLexRange (zl : List (score × ele)) (range : Zlexrangespec ele) : Bool :=
  if emptyLexRange range then false
  else
    match zl.getLast?, zl.head? with
    | some last, some first =>
      zslLexValueGteMin last.2 range && zslLexValueLteMax first.2 range
    | _, _ => false

def zzlFirstInLexRange (zl : List (score × ele)) (range : Zlexrangespec ele) : Option Nat :=
  if zzlIsInLexRange zl range then
    zzlFirst (fun q => zslLexValueGteMin q.2 range) (fun q => zslLexValueLteMax q.2 range) 0 zl
  else none

def zzlDeleteFrom (lteMax : score × ele -> Bool) (zl : List (score × ele)) :
    Option Nat -> List (score × ele) × Nat
  | none => (zl, 0)
  | some i =>
    (zl.take i ++ (zl.drop i).dropWhile lteMax, ((zl.drop i).takeWhile lteMax).length)

def zzlDeleteRangeByScore (zl : List (score × ele)) (range : Zrangespec score) :
    List (score × ele) × Nat :=
  zzlDeleteFrom (fun q => zslValueLteMax q.1 range) zl (zzlFirstInRange zl range)

def zzlDeleteRangeByLex (zl : List (score × ele)) (range : Zlexrangespec ele) :
    List (score × ele) × Nat :=
  zzlDeleteFrom (fun q => zslLexValueLteMax q.2 range) zl (zzlFirstInLexRange zl range)

def zzlDeleteRangeByRank (zl : List (score × ele)) (start stop : Nat) : List (score × ele) × Nat :=
  let num := stop - start + 1
  (zl.take (start - 1) ++ zl.drop (start - 1 + num), num)

end Ziplist

/-!
# The common interface
-/

namespace Zobj

variable {score ele : Type} [LinearOrder score] [LinearOrder ele]

def create (skip : Bool) : Zobj score ele :=
  if skip then .skiplist ⟨Dict.create, Zskiplist.zslCreate⟩ else .ziplist []

def zsetLength : Zobj score ele -> Nat
  | .ziplist zl => zl.length
  | .skiplist zs => zs.zsl.length

def zslFill (T : ZsetTypes score ele) (draws : Nat -> Nat) :
    List (score × ele) -> Nat -> Zset score ele -> Except ZsetCrash (Zset score ele)
  | [], _, zs => .ok zs
  | (s, e) :: rest, i, zs => do
      let (zsl, node) ← ofZsl (zs.zsl.zslInsert (Zskiplist.zslRandomLevel (draws i)) s e)
      let (d, ok) ← ofDict (zs.dict.dictAdd T.hash e node 0)
      zassert ok
      zslFill T draws rest (i + 1) ⟨d, zsl⟩

def zzlFill (T : ZsetTypes score ele) (zsl : Zskiplist score ele) :
    Nat -> Option Nat -> List (score × ele) -> Except ZsetCrash (List (score × ele))
  | 0, _, zl => .ok zl
  | _ + 1, none, zl => .ok zl
  | fuel + 1, some a, zl => do
      let node ← ofZsl (zsl.nodeAt a)
      let zl ← zzlInsertAt T zl none node.ele node.score
      let l ← ofZsl (zsl.levelAt (.node a) 0)
      zzlFill T zsl fuel l.forward zl

def convertToSkiplist (T : ZsetTypes score ele) (server : ZsetServer) :
    Zobj score ele -> Except ZsetCrash (Zobj score ele)
  | .skiplist zs => .ok (.skiplist zs)
  | .ziplist zl => do
      zassert (!zl.isEmpty)
      let zs ← zslFill T server.draws zl 0
        ⟨{ Dict.create with canResize := server.canResize }, Zskiplist.zslCreate⟩
      .ok (.skiplist zs)

def convertToZiplist (T : ZsetTypes score ele) : Zobj score ele -> Except ZsetCrash (Zobj score ele)
  | .ziplist zl => .ok (.ziplist zl)
  | .skiplist zs => do
      let l ← ofZsl (zs.zsl.levelAt .header 0)
      let zl ← zzlFill T zs.zsl (zs.zsl.length + 1) l.forward []
      .ok (.ziplist zl)

def zsetConvertToZiplistIfNeeded (T : ZsetTypes score ele) (server : ZsetServer)
    (maxelelen : Nat) : Zobj score ele -> Except ZsetCrash (Zobj score ele)
  | .ziplist zl => .ok (.ziplist zl)
  | .skiplist zs =>
    if zs.zsl.length ≤ server.maxEntries ∧ maxelelen ≤ server.maxValue then
      convertToZiplist T (.skiplist zs)
    else .ok (.skiplist zs)

def scoreAt (zs : Zset score ele) (node : Nat) : Except ZsetCrash score := do
  let n ← ofZsl (zs.zsl.nodeAt node)
  .ok n.score

def zsetScore (T : ZsetTypes score ele) (e : ele) :
    Zobj score ele -> Except ZsetCrash (Zobj score ele × Option score)
  | .ziplist zl => .ok (.ziplist zl, (zzlFind T zl e).map Prod.snd)
  | .skiplist zs => do
      let (d, de) ← ofDict (zs.dict.dictFind T.hash e)
      match de with
      | none => .ok (.skiplist ⟨d, zs.zsl⟩, none)
      | some node => do
          let s ← scoreAt ⟨d, zs.zsl⟩ node
          .ok (.skiplist ⟨d, zs.zsl⟩, some s)

structure ZaddFlags where
  incr : Bool
  nx : Bool
  xx : Bool

/-- The output flags of `zsetAdd`, with `*newscore` where it is written.  It returns 0
for NaN only. -/
inductive ZaddResult (score : Type) where
  | nop
  | nan
  | same (newscore : Option score)
  | updated (newscore : Option score)
  | added (newscore : Option score)
deriving DecidableEq

def newScore (T : ZsetTypes score ele) (flags : ZaddFlags) (s curscore : score) :
    Option (score × Option score) :=
  if flags.incr then (T.add s curscore).map fun s => (s, some s)
  else some (s, none)

def zzlAdd (T : ZsetTypes score ele) (server : ZsetServer) (flags : ZaddFlags)
    (s : score) (e : ele) (zl : List (score × ele)) :
    Except ZsetCrash (Zobj score ele × ZaddResult score) :=
  match zzlFind T zl e with
  | some (eptr, curscore) =>
    if flags.nx then .ok (.ziplist zl, .nop)
    else
      match newScore T flags s curscore with
      | none => .ok (.ziplist zl, .nan)
      | some (s, newscore) =>
        if s = curscore then .ok (.ziplist zl, .same newscore)
        else do
          let zl ← zzlInsert T (zzlDelete zl eptr) e s
          .ok (.ziplist zl, .updated newscore)
  | none =>
    if flags.xx then .ok (.ziplist zl, .nop)
    else do
      let zl ← zzlInsert T zl e s
      if zl.length > server.maxEntries ∨ T.sdslen e > server.maxValue then do
        let zobj ← convertToSkiplist T server (.ziplist zl)
        .ok (zobj, .added (some s))
      else .ok (.ziplist zl, .added (some s))

def zslAdd (T : ZsetTypes score ele) (server : ZsetServer) (flags : ZaddFlags)
    (s : score) (e : ele) (zs : Zset score ele) :
    Except ZsetCrash (Zobj score ele × ZaddResult score) := do
  let (d, de) ← ofDict (zs.dict.dictFind T.hash e)
  match de with
  | some node =>
    if flags.nx then .ok (.skiplist ⟨d, zs.zsl⟩, .nop)
    else do
      let curscore ← scoreAt ⟨d, zs.zsl⟩ node
      match newScore T flags s curscore with
      | none => .ok (.skiplist ⟨d, zs.zsl⟩, .nan)
      | some (s, newscore) =>
        if s = curscore then .ok (.skiplist ⟨d, zs.zsl⟩, .same newscore)
        else do
          let (zsl, znode) ← ofZsl (zs.zsl.zslUpdateScore
            (Zskiplist.zslRandomLevel (server.draws 0)) curscore e s)
          .ok (.skiplist ⟨d.dictSetVal e znode, zsl⟩, .updated newscore)
  | none =>
    if flags.xx then .ok (.skiplist ⟨d, zs.zsl⟩, .nop)
    else do
      let (zsl, znode) ← ofZsl (zs.zsl.zslInsert
        (Zskiplist.zslRandomLevel (server.draws 0)) s e)
      let (d, ok) ← ofDict (d.dictAdd T.hash e znode 0)
      zassert ok
      .ok (.skiplist ⟨d, zsl⟩, .added (some s))

def zsetAdd (T : ZsetTypes score ele) (server : ZsetServer) (flags : ZaddFlags)
    (s : score) (e : ele) : Zobj score ele -> Except ZsetCrash (Zobj score ele × ZaddResult score)
  | .ziplist zl => zzlAdd T server flags s e zl
  | .skiplist zs => zslAdd T server flags s e zs

def zsetDel (T : ZsetTypes score ele) (e : ele) :
    Zobj score ele -> Except ZsetCrash (Zobj score ele × Bool)
  | .ziplist zl =>
    match zzlFind T zl e with
    | some (eptr, _) => .ok (.ziplist (zzlDelete zl eptr), true)
    | none => .ok (.ziplist zl, false)
  | .skiplist zs => do
      let (d, de) ← ofDict (zs.dict.dictUnlink T.hash e)
      match de with
      | none => .ok (.skiplist ⟨d, zs.zsl⟩, false)
      | some node => do
          let s ← scoreAt ⟨d, zs.zsl⟩ node
          let (zsl, retval) ← ofZsl (zs.zsl.zslDelete s e)
          zassert retval
          .ok (.skiplist ⟨d.resizeIfNeeded, zsl⟩, true)

def direct (reverse : Bool) (llen rank : Nat) : Nat :=
  if reverse then ulSub llen rank else rank - 1

def zsetRank (T : ZsetTypes score ele) (e : ele) (reverse : Bool) :
    Zobj score ele -> Except ZsetCrash (Zobj score ele × Option Nat)
  | .ziplist zl => do
      zassert (!zl.isEmpty)
      .ok (.ziplist zl, (zzlFind T zl e).map fun (i, _) => direct reverse zl.length (i + 1))
  | .skiplist zs => do
      let (d, de) ← ofDict (zs.dict.dictFind T.hash e)
      match de with
      | none => .ok (.skiplist ⟨d, zs.zsl⟩, none)
      | some node => do
          let s ← scoreAt ⟨d, zs.zsl⟩ node
          let rank ← ofZsl (zs.zsl.zslGetRank s e)
          zassert (rank != 0)
          .ok (.skiplist ⟨d, zs.zsl⟩, some (direct reverse zs.zsl.length rank))

def zcount (range : Zrangespec score) : Zobj score ele -> Except ZsetCrash Nat
  | .ziplist zl =>
    .ok (match zzlFirstInRange zl range with
      | none => 0
      | some i => ((zl.drop i).takeWhile fun q => zslValueLteMax q.1 range).length)
  | .skiplist zs => do
      match ← ofZsl (zs.zsl.zslFirstInRange range) with
      | none => .ok 0
      | some zn => do
          let rank ← ofZsl (zs.zsl.zslGetRank zn.score zn.ele)
          let count := ulSub zs.zsl.length (ulSub rank 1)
          match ← ofZsl (zs.zsl.zslLastInRange range) with
          | none => .ok count
          | some zn => do
              let rank ← ofZsl (zs.zsl.zslGetRank zn.score zn.ele)
              .ok (ulSub count (ulSub zs.zsl.length rank))

def dictDeleteAll (T : ZsetTypes score ele) :
    List ele -> Dict ele Nat -> Except ZsetCrash (Dict ele Nat)
  | [], d => .ok d
  | e :: rest, d => do
      let (d, _) ← ofDict (d.dictDelete T.hash e)
      dictDeleteAll T rest d

def zslRemrange (T : ZsetTypes score ele) (zs : Zset score ele)
    (delete : Zskiplist score ele -> Except ZslCrash (Zskiplist score ele × List ele)) :
    Except ZsetCrash (Zobj score ele × Nat) := do
  let (zsl, removed) ← ofZsl (delete zs.zsl)
  let d ← dictDeleteAll T removed zs.dict
  .ok (.skiplist ⟨d.resizeIfNeeded, zsl⟩, removed.length)

def zremrangebyscore (T : ZsetTypes score ele) (range : Zrangespec score) :
    Zobj score ele -> Except ZsetCrash (Zobj score ele × Nat)
  | .ziplist zl =>
    let (zl, deleted) := zzlDeleteRangeByScore zl range
    .ok (.ziplist zl, deleted)
  | .skiplist zs => zslRemrange T zs (fun zsl => zsl.zslDeleteRangeByScore range)

def zremrangebylex (T : ZsetTypes score ele) (range : Zlexrangespec ele) :
    Zobj score ele -> Except ZsetCrash (Zobj score ele × Nat)
  | .ziplist zl =>
    let (zl, deleted) := zzlDeleteRangeByLex zl range
    .ok (.ziplist zl, deleted)
  | .skiplist zs => zslRemrange T zs (fun zsl => zsl.zslDeleteRangeByLex range)

def sanitize (llen start stop : Int) : Option (Nat × Nat) :=
  let start := if start < 0 then llen + start else start
  let stop := if stop < 0 then llen + stop else stop
  let start := if start < 0 then 0 else start
  if start > stop ∨ start ≥ llen then none
  else some (start.toNat, (if stop ≥ llen then llen - 1 else stop).toNat)

/-- `zremrangebyrankCommand`; the ranks are passed on as `unsigned int`. -/
def zremrangebyrank (T : ZsetTypes score ele) (start stop : Int) (zobj : Zobj score ele) :
    Except ZsetCrash (Zobj score ele × Nat) :=
  match sanitize zobj.zsetLength start stop with
  | none => .ok (zobj, 0)
  | some (start, stop) =>
    match zobj with
    | .ziplist zl =>
      let (zl, deleted) :=
        zzlDeleteRangeByRank zl ((start + 1) % 2 ^ 32) ((stop + 1) % 2 ^ 32)
      .ok (.ziplist zl, deleted)
    | .skiplist zs =>
      zslRemrange T zs fun zsl =>
        zsl.zslDeleteRangeByRank ((start + 1) % 2 ^ 32) ((stop + 1) % 2 ^ 32)

/-- The global `dict_can_resize` at the time of a call. -/
def setPolicy (server : ZsetServer) : Zobj score ele -> Zobj score ele
  | .ziplist zl => .ziplist zl
  | .skiplist zs => .skiplist ⟨{ zs.dict with canResize := server.canResize }, zs.zsl⟩

end Zobj

/-!
# Operations
-/

variable {score ele : Type}

inductive ZsetCall (score ele : Type) where
  | add (flags : Zobj.ZaddFlags) (s : score) (e : ele)
  | del (e : ele)
  | score (e : ele)
  | rank (e : ele) (reverse : Bool)
  | count (range : Zrangespec score)
  | remrangebyscore (range : Zrangespec score)
  | remrangebylex (range : Zlexrangespec ele)
  | remrangebyrank (start stop : Int)
  | toSkiplist
  | toZiplist
  | toZiplistIfNeeded (maxelelen : Nat)

structure ZsetOp (score ele : Type) where
  server : ZsetServer
  call : ZsetCall score ele

inductive ZsetResult (score : Type) where
  | added (r : Zobj.ZaddResult score)
  | deleted (b : Bool)
  | score (s : Option score)
  | rank (r : Option Nat)
  | number (n : Nat)
  | done
deriving DecidableEq

def zsetStep [LinearOrder score] [LinearOrder ele] (T : ZsetTypes score ele)
    (op : ZsetOp score ele) (st : Zobj score ele × List (ZsetResult score)) :
    Except ZsetCrash (Zobj score ele × List (ZsetResult score)) :=
  let zobj := st.1.setPolicy op.server
  let results := st.2
  match op.call with
  | .add flags s e =>
    (zobj.zsetAdd T op.server flags s e).map fun (zobj, r) => (zobj, .added r :: results)
  | .del e => (zobj.zsetDel T e).map fun (zobj, b) => (zobj, .deleted b :: results)
  | .score e => (zobj.zsetScore T e).map fun (zobj, s) => (zobj, .score s :: results)
  | .rank e reverse =>
    (zobj.zsetRank T e reverse).map fun (zobj, r) => (zobj, .rank r :: results)
  | .count range => (zobj.zcount range).map fun n => (zobj, .number n :: results)
  | .remrangebyscore range =>
    (zobj.zremrangebyscore T range).map fun (zobj, n) => (zobj, .number n :: results)
  | .remrangebylex range =>
    (zobj.zremrangebylex T range).map fun (zobj, n) => (zobj, .number n :: results)
  | .remrangebyrank start stop =>
    (zobj.zremrangebyrank T start stop).map fun (zobj, n) => (zobj, .number n :: results)
  | .toSkiplist =>
    (zobj.convertToSkiplist T op.server).map fun zobj => (zobj, .done :: results)
  | .toZiplist => (zobj.convertToZiplist T).map fun zobj => (zobj, .done :: results)
  | .toZiplistIfNeeded maxelelen =>
    (zobj.zsetConvertToZiplistIfNeeded T op.server maxelelen).map fun zobj =>
      (zobj, .done :: results)

end Redisoo
