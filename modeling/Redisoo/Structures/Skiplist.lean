import Mathlib.Algebra.Order.Ring.Int
import Mathlib.Data.List.Basic

/-!
# The skip list of t_zset.c

Nodes live at addresses; a pointer is an address, or the header.  Reading a node
that is not allocated, or a level a node was not allocated with, stops the program.
Scores and elements are any linear orders.
-/

namespace Redisoo

def ZSKIPLIST_MAXLEVEL : Nat := 32

def ulAdd (a b : Nat) : Nat :=
  (a + b) % 2 ^ 64

def ulSub (a b : Nat) : Nat :=
  (a + 2 ^ 64 - b) % 2 ^ 64

def uiSub (a b : Nat) : Nat :=
  (a + 2 ^ 32 - b) % 2 ^ 32

structure ZskiplistLevel where
  forward : Option Nat
  span : Nat
deriving DecidableEq

structure ZskiplistNode (score ele : Type) where
  ele : ele
  score : score
  backward : Option Nat
  height : Nat
  level : Nat -> ZskiplistLevel

structure Zskiplist (score ele : Type) where
  header : Nat -> ZskiplistLevel
  nodes : Nat -> Option (ZskiplistNode score ele)
  next : Nat
  tail : Option Nat
  length : Nat
  level : Nat

inductive ZslPlace where
  | header
  | node (addr : Nat)
deriving DecidableEq

def ZslPlace.orNull : ZslPlace -> Option Nat
  | .header => none
  | .node a => some a

inductive ZslCrash where
  | dangling
  | outOfLevels
  | assertion
deriving DecidableEq

structure Zrangespec (score : Type) where
  min : score
  max : score
  minex : Bool
  maxex : Bool

inductive LexBound (ele : Type) where
  | minstring
  | maxstring
  | str (e : ele)

structure Zlexrangespec (ele : Type) where
  min : LexBound ele
  max : LexBound ele
  minex : Bool
  maxex : Bool

namespace Zskiplist

variable {score ele : Type}

def zslCreate : Zskiplist score ele where
  header := fun _ => ⟨none, 0⟩
  nodes := fun _ => none
  next := 0
  tail := none
  length := 0
  level := 1

def zslRandomLevel (draws : Nat) : Nat :=
  let level := 1 + draws
  if level < ZSKIPLIST_MAXLEVEL then level else ZSKIPLIST_MAXLEVEL

def nodeAt (zsl : Zskiplist score ele) (a : Nat) : Except ZslCrash (ZskiplistNode score ele) :=
  match zsl.nodes a with
  | none => .error .dangling
  | some n => .ok n

def levelAt (zsl : Zskiplist score ele) (x : ZslPlace) (i : Nat) : Except ZslCrash ZskiplistLevel :=
  match x with
  | .header =>
    if i < ZSKIPLIST_MAXLEVEL then .ok (zsl.header i) else .error .outOfLevels
  | .node a =>
    match zsl.nodes a with
    | none => .error .dangling
    | some n => if i < n.height then .ok (n.level i) else .error .outOfLevels

def putLevel (zsl : Zskiplist score ele) (x : ZslPlace) (i : Nat) (l : ZskiplistLevel) :
    Zskiplist score ele :=
  match x with
  | .header => { zsl with header := Function.update zsl.header i l }
  | .node a =>
    { zsl with
      nodes := Function.update zsl.nodes a
        ((zsl.nodes a).map fun n => { n with level := Function.update n.level i l }) }

def setLevel (zsl : Zskiplist score ele) (x : ZslPlace) (i : Nat) (l : ZskiplistLevel) :
    Except ZslCrash (Zskiplist score ele) :=
  match zsl.levelAt x i with
  | .error c => .error c
  | .ok _ => .ok (zsl.putLevel x i l)

def setBackward (zsl : Zskiplist score ele) (a : Nat) (b : Option Nat) :
    Except ZslCrash (Zskiplist score ele) :=
  match zsl.nodes a with
  | none => .error .dangling
  | some n =>
    .ok { zsl with nodes := Function.update zsl.nodes a (some { n with backward := b }) }

def zslFreeNode (zsl : Zskiplist score ele) (a : Nat) : Zskiplist score ele :=
  { zsl with nodes := Function.update zsl.nodes a none }

/-- The inner loop of a search: go forward on one level as long as the test says so
of the next node and the rank it has.  Every step passes a node, so the length
bounds the steps. -/
def walk (zsl : Zskiplist score ele) (go : Nat -> score -> ele -> Bool) (i : Nat) :
    Nat -> ZslPlace -> Nat -> Except ZslCrash (ZslPlace × Nat)
  | 0, x, traversed => .ok (x, traversed)
  | fuel + 1, x, traversed => do
      let l ← zsl.levelAt x i
      match l.forward with
      | none => .ok (x, traversed)
      | some a => do
          let n ← zsl.nodeAt a
          if go (ulAdd traversed l.span) n.score n.ele then
            walk zsl go i fuel (.node a) (ulAdd traversed l.span)
          else .ok (x, traversed)

structure Found where
  update : Nat -> ZslPlace
  rank : Nat -> Nat

def searchFrom (zsl : Zskiplist score ele) (go : Nat -> score -> ele -> Bool) :
    Nat -> ZslPlace -> Nat -> Except ZslCrash Found
  | 0, _, _ => .ok ⟨fun _ => .header, fun _ => 0⟩
  | i + 1, x, traversed => do
      let (x, traversed) ← zsl.walk go i (zsl.length + 1) x traversed
      let found ← searchFrom zsl go i x traversed
      .ok ⟨Function.update found.update i x, Function.update found.rank i traversed⟩

def search (zsl : Zskiplist score ele) (go : Nat -> score -> ele -> Bool) : Except ZslCrash Found :=
  zsl.searchFrom go zsl.level .header 0

def raise (zsl : Zskiplist score ele) (level : Nat) (found : Found) : Zskiplist score ele × Found :=
  if level > zsl.level then
    let added i := decide (zsl.level ≤ i ∧ i < level)
    ({ zsl with
        header := fun i =>
          if added i then { zsl.header i with span := zsl.length } else zsl.header i,
        level := level },
      ⟨fun i => if added i then .header else found.update i,
        fun i => if added i then 0 else found.rank i⟩)
  else (zsl, found)

def zslCreateNode (zsl : Zskiplist score ele) (level : Nat) (s : score) (e : ele) :
    Zskiplist score ele × Nat :=
  ({ zsl with
      nodes := Function.update zsl.nodes zsl.next
        (some ⟨e, s, none, level, fun _ => ⟨none, 0⟩⟩),
      next := zsl.next + 1 }, zsl.next)

def crossed (found : Found) (i : Nat) : Nat :=
  uiSub (found.rank 0 % 2 ^ 32) (found.rank i % 2 ^ 32)

def link (x : Nat) (found : Found) (i : Nat) (zsl : Zskiplist score ele) :
    Except ZslCrash (Zskiplist score ele) := do
  let l ← zsl.levelAt (found.update i) i
  let zsl ← zsl.setLevel (.node x) i ⟨l.forward, ulSub l.span (crossed found i)⟩
  zsl.setLevel (found.update i) i ⟨some x, (crossed found i + 1) % 2 ^ 32⟩

def bump (found : Found) (i : Nat) (zsl : Zskiplist score ele) :
    Except ZslCrash (Zskiplist score ele) := do
  let l ← zsl.levelAt (found.update i) i
  zsl.setLevel (found.update i) i ⟨l.forward, ulAdd l.span 1⟩

def forLevels (body : Nat -> Zskiplist score ele -> Except ZslCrash (Zskiplist score ele))
    (start : Nat) : Nat -> Zskiplist score ele -> Except ZslCrash (Zskiplist score ele)
  | 0, zsl => .ok zsl
  | count + 1, zsl => do
      let zsl ← forLevels body start count zsl
      body (start + count) zsl

def pointBack (next : Option Nat) (b : Option Nat) (zsl : Zskiplist score ele) :
    Except ZslCrash (Zskiplist score ele) :=
  match next with
  | some a => zsl.setBackward a b
  | none => .ok { zsl with tail := b }

variable [LinearOrder score] [LinearOrder ele]

def before (s : score) (e : ele) (_ : Nat) (s' : score) (e' : ele) : Bool :=
  decide (s' < s ∨ s' = s ∧ e' < e)

def zslInsert (zsl : Zskiplist score ele) (level : Nat) (s : score) (e : ele) :
    Except ZslCrash (Zskiplist score ele × Nat) := do
  let found ← zsl.search (before s e)
  let (zsl, found) := zsl.raise level found
  let (zsl, x) := zsl.zslCreateNode level s e
  let zsl ← forLevels (link x found) 0 level zsl
  let zsl ← forLevels (bump found) level (zsl.level - level) zsl
  let zsl ← zsl.setBackward x (found.update 0).orNull
  let l ← zsl.levelAt (.node x) 0
  let zsl ← pointBack l.forward (some x) zsl
  .ok ({ zsl with length := ulAdd zsl.length 1 }, x)

def unlink (x : Nat) (found : Found) (i : Nat) (zsl : Zskiplist score ele) :
    Except ZslCrash (Zskiplist score ele) := do
  let l ← zsl.levelAt (found.update i) i
  if l.forward = some x then do
    let lx ← zsl.levelAt (.node x) i
    zsl.setLevel (found.update i) i ⟨lx.forward, ulAdd l.span (ulSub lx.span 1)⟩
  else zsl.setLevel (found.update i) i ⟨l.forward, ulSub l.span 1⟩

def lower (header : Nat -> ZskiplistLevel) : Nat -> Nat
  | 0 => 0
  | 1 => 1
  | level + 2 =>
    if (header (level + 1)).forward = none then lower header (level + 1)
    else level + 2

def zslDeleteNode (zsl : Zskiplist score ele) (x : Nat) (found : Found) :
    Except ZslCrash (Zskiplist score ele) := do
  let zsl ← forLevels (unlink x found) 0 zsl.level zsl
  let l ← zsl.levelAt (.node x) 0
  let n ← zsl.nodeAt x
  let zsl ← pointBack l.forward n.backward zsl
  .ok { zsl with
    level := lower zsl.header zsl.level, length := ulSub zsl.length 1 }

def zslDelete (zsl : Zskiplist score ele) (s : score) (e : ele) :
    Except ZslCrash (Zskiplist score ele × Bool) := do
  let found ← zsl.search (before s e)
  let l ← zsl.levelAt (found.update 0) 0
  match l.forward with
  | none => .ok (zsl, false)
  | some x => do
      let n ← zsl.nodeAt x
      if s = n.score ∧ n.ele = e then do
        let zsl ← zsl.zslDeleteNode x found
        .ok (zsl.zslFreeNode x, true)
      else .ok (zsl, false)

def nullOr (zsl : Zskiplist score ele) (p : Option Nat) (test : score -> Bool) :
    Except ZslCrash Bool :=
  match p with
  | none => .ok true
  | some a => do
      let n ← zsl.nodeAt a
      .ok (test n.score)

def inPlace (zsl : Zskiplist score ele) (n : ZskiplistNode score ele)
    (forward : Option Nat) (newscore : score) : Except ZslCrash Bool := do
  let after ← zsl.nullOr n.backward (fun s => decide (s < newscore))
  if after then zsl.nullOr forward (fun s => decide (s > newscore))
  else .ok false

def zslUpdateScore (zsl : Zskiplist score ele) (level : Nat) (curscore : score)
    (e : ele) (newscore : score) : Except ZslCrash (Zskiplist score ele × Nat) := do
  let found ← zsl.search (before curscore e)
  let l ← zsl.levelAt (found.update 0) 0
  match l.forward with
  | none => .error .assertion
  | some x => do
      let n ← zsl.nodeAt x
      if curscore = n.score ∧ n.ele = e then do
        let lx ← zsl.levelAt (.node x) 0
        if ← zsl.inPlace n lx.forward newscore then
          .ok ({ zsl with
            nodes := Function.update zsl.nodes x (some { n with score := newscore }) }, x)
        else do
          let zsl ← zsl.zslDeleteNode x found
          let (zsl, newnode) ← zsl.zslInsert level newscore n.ele
          .ok (zsl.zslFreeNode x, newnode)
      else .error .assertion

/-- Delete nodes, and free them, as long as the test says so of the node and its
rank.  Every round frees a node, so the length bounds the rounds. -/
def deleteWhile (cond : Nat -> score -> ele -> Bool) (found : Found) :
    Nat -> Option Nat -> Nat -> Zskiplist score ele ->
      Except ZslCrash (Zskiplist score ele × List ele)
  | 0, _, _, zsl => .ok (zsl, [])
  | _ + 1, none, _, zsl => .ok (zsl, [])
  | fuel + 1, some x, traversed, zsl => do
      let n ← zsl.nodeAt x
      if cond traversed n.score n.ele then do
        let l ← zsl.levelAt (.node x) 0
        let zsl ← zsl.zslDeleteNode x found
        let (zsl, removed) ← deleteWhile cond found fuel l.forward (ulAdd traversed 1)
          (zsl.zslFreeNode x)
        .ok (zsl, n.ele :: removed)
      else .ok (zsl, [])

/-- The range deletions: a search, and the nodes after it as long as a test holds.
The elements that were removed are also deleted from the dictionary. -/
def zslDeleteRange (zsl : Zskiplist score ele) (go cond : Nat -> score -> ele -> Bool) :
    Except ZslCrash (Zskiplist score ele × List ele) := do
  let found ← zsl.search go
  let l ← zsl.levelAt (found.update 0) 0
  deleteWhile cond found (zsl.length + 1) l.forward (ulAdd (found.rank 0) 1) zsl

end Zskiplist

variable {score ele : Type} [LinearOrder score] [LinearOrder ele]

def zslValueGteMin (value : score) (spec : Zrangespec score) : Bool :=
  if spec.minex then decide (value > spec.min) else decide (value ≥ spec.min)

def zslValueLteMax (value : score) (spec : Zrangespec score) : Bool :=
  if spec.maxex then decide (value < spec.max) else decide (value ≤ spec.max)

def sdscmplex (a : ele) : LexBound ele -> Ordering
  | .maxstring => .lt
  | .minstring => .gt
  | .str b => compare a b

def zslLexValueGteMin (value : ele) (spec : Zlexrangespec ele) : Bool :=
  if spec.minex then sdscmplex value spec.min == .gt
  else sdscmplex value spec.min != .lt

def zslLexValueLteMax (value : ele) (spec : Zlexrangespec ele) : Bool :=
  if spec.maxex then sdscmplex value spec.max == .lt
  else sdscmplex value spec.max != .gt

namespace Zskiplist

def zslDeleteRangeByScore (zsl : Zskiplist score ele) (range : Zrangespec score) :
    Except ZslCrash (Zskiplist score ele × List ele) :=
  zsl.zslDeleteRange
    (fun _ s _ => if range.minex then decide (s ≤ range.min) else decide (s < range.min))
    (fun _ s _ => if range.maxex then decide (s < range.max) else decide (s ≤ range.max))

def zslDeleteRangeByLex (zsl : Zskiplist score ele) (range : Zlexrangespec ele) :
    Except ZslCrash (Zskiplist score ele × List ele) :=
  zsl.zslDeleteRange
    (fun _ _ e => !zslLexValueGteMin e range)
    (fun _ _ e => zslLexValueLteMax e range)

def zslDeleteRangeByRank (zsl : Zskiplist score ele) (start stop : Nat) :
    Except ZslCrash (Zskiplist score ele × List ele) :=
  zsl.zslDeleteRange
    (fun traversed _ _ => decide (traversed < start))
    (fun traversed _ _ => decide (traversed ≤ stop))

end Zskiplist

end Redisoo
