import Redisoo.Foundation.Bytes

/-!
# Intsets

`intset.c`: the members in increasing order, each in two, four or eight bytes.  The
allocation behind the header is `contents`; an access beyond it has no result.  An `int`
is an integer, since it holds the positions of fewer than 2^31 elements.
-/

namespace Redisoo

open Foundation.Bytes

structure Intset where
  encoding : Nat
  length : Nat
  contents : List UInt8
deriving DecidableEq

namespace Intset

def INTSET_ENC_INT16 : Nat := 2

def INTSET_ENC_INT32 : Nat := 4

def INTSET_ENC_INT64 : Nat := 8

def intsetValueEncoding (v : Int) : Nat :=
  if v < -2147483648 ∨ v > 2147483647 then INTSET_ENC_INT64
  else if v < -32768 ∨ v > 32767 then INTSET_ENC_INT32
  else INTSET_ENC_INT16

def load (is : Intset) (k pos : Nat) : Option Int :=
  readLeInt k (is.contents.drop (k * pos))

def store (is : Intset) (k pos : Nat) (value : Int) : Option Intset :=
  (memcpy is.contents (k * pos) (leInt k value)).map fun contents => { is with contents }

def intsetGetEncoded (is : Intset) (pos enc : Nat) : Option Int :=
  if enc = INTSET_ENC_INT64 then is.load 8 pos
  else if enc = INTSET_ENC_INT32 then is.load 4 pos
  else is.load 2 pos

def intsetGetPos (is : Intset) (pos : Nat) : Option Int :=
  intsetGetEncoded is pos is.encoding

def intsetSetPos (is : Intset) (pos : Nat) (value : Int) : Option Intset :=
  if is.encoding = INTSET_ENC_INT64 then is.store 8 pos value
  else if is.encoding = INTSET_ENC_INT32 then is.store 4 pos value
  else is.store 2 pos value

def intsetNew : Intset :=
  { encoding := INTSET_ENC_INT16, length := 0, contents := [] }

def intsetResize (junk : UInt8) (is : Intset) (len : Nat) : Intset :=
  { is with contents := realloc junk is.contents (len * is.encoding % 2 ^ 32) }

def searchFrom (is : Intset) (value : Int) :
    Nat -> Int -> Int -> Int -> Int -> Option (Int × Int × Int)
  | 0, _, _, _, _ => none
  | fuel + 1, min, max, mid, cur =>
    if max ≥ min then
      let mid := (min + max) / 2
      match intsetGetPos is mid.toNat with
      | none => none
      | some cur =>
        if value > cur then searchFrom is value fuel (mid + 1) max mid cur
        else if value < cur then searchFrom is value fuel min (mid - 1) mid cur
        else some (min, mid, cur)
    else some (min, mid, cur)

/-- `intsetSearch` with `*pos`.  Every round of the loop leaves fewer positions, so there
are no more rounds than elements. -/
def intsetSearch (is : Intset) (value : Int) : Option (Bool × Nat) :=
  if is.length = 0 then some (false, 0)
  else do
    let last ← intsetGetPos is (is.length - 1)
    if value > last then some (false, is.length)
    else do
      let first ← intsetGetPos is 0
      if value < first then some (false, 0)
      else do
        let (min, mid, cur) ← searchFrom is value (is.length + 1) 0 (is.length - 1) (-1) (-1)
        if value = cur then some (true, mid.toNat) else some (false, min.toNat)

def upgradeFrom (prepend curenc : Nat) : Nat -> Intset -> Option Intset
  | 0, is => some is
  | length + 1, is => do
      let v ← intsetGetEncoded is length curenc
      let is ← intsetSetPos is (length + prepend) v
      upgradeFrom prepend curenc length is

def intsetUpgradeAndAdd (junk : UInt8) (is : Intset) (value : Int) : Option Intset := do
  let curenc := is.encoding
  let newenc := intsetValueEncoding value
  let length := is.length
  let prepend := if value < 0 then 1 else 0
  let is := intsetResize junk { is with encoding := newenc } ((length + 1) % 2 ^ 32)
  let is ← upgradeFrom prepend curenc length is
  let is ← intsetSetPos is (if prepend = 1 then 0 else is.length) value
  some { is with length := (is.length + 1) % 2 ^ 32 }

def intsetMoveTail (is : Intset) (src dst : Nat) : Option Intset :=
  let bytes := (2 ^ 32 + is.length - src) % 2 ^ 32
  let k :=
    if is.encoding = INTSET_ENC_INT64 then 8
    else if is.encoding = INTSET_ENC_INT32 then 4
    else 2
  (memmove is.contents (k * dst) (k * src) (bytes * k % 2 ^ 32)).map fun contents =>
    { is with contents }

def intsetAddAt (junk : UInt8) (is : Intset) (pos : Nat) (value : Int) : Option Intset := do
  let is := intsetResize junk is ((is.length + 1) % 2 ^ 32)
  let is ← (if pos < is.length then intsetMoveTail is pos (pos + 1) else some is)
  let is ← intsetSetPos is pos value
  some { is with length := (is.length + 1) % 2 ^ 32 }

def intsetAdd (junk : UInt8) (is : Intset) (value : Int) : Option (Intset × Bool) :=
  if intsetValueEncoding value > is.encoding then
    (intsetUpgradeAndAdd junk is value).map fun is => (is, true)
  else do
    let (found, pos) ← intsetSearch is value
    if found then some (is, false)
    else (intsetAddAt junk is pos value).map fun is => (is, true)

def intsetRemoveAt (junk : UInt8) (is : Intset) (pos : Nat) : Option Intset := do
  let len := is.length
  let is ← (if pos < len - 1 then intsetMoveTail is (pos + 1) pos else some is)
  some { intsetResize junk is (len - 1) with length := len - 1 }

def intsetRemove (junk : UInt8) (is : Intset) (value : Int) : Option (Intset × Bool) :=
  if intsetValueEncoding value ≤ is.encoding then do
    let (found, pos) ← intsetSearch is value
    if found then (intsetRemoveAt junk is pos).map fun is => (is, true)
    else some (is, false)
  else some (is, false)

def intsetFind (is : Intset) (value : Int) : Option Bool :=
  if intsetValueEncoding value ≤ is.encoding then (intsetSearch is value).map Prod.fst
  else some false

def intsetGet (is : Intset) (pos : Nat) : Option (Option Int) :=
  if pos < is.length then (intsetGetPos is pos).map some else some none

def intsetLen (is : Intset) : Nat :=
  is.length

def intsetWalk (is : Intset) : Nat -> Nat -> Option (List Int)
  | 0, _ => none
  | fuel + 1, ii =>
    match intsetGet is ii with
    | none => none
    | some none => some []
    | some (some llval) => (intsetWalk is fuel (ii + 1)).map (llval :: ·)

end Intset

/-!
# Calls
-/

inductive IntsetOp where
  | add (value : Int64)
  | remove (value : Int64)
  | find (value : Int64)
  | get (pos : UInt32)
deriving DecidableEq

inductive IntsetResult where
  /-- `*success`, or what `intsetFind` returns -/
  | flag (b : Bool)
  | value (v : Option Int)
deriving DecidableEq

inductive IntsetCrash where
  | outOfBounds
deriving DecidableEq

namespace Intset

def finish {α β : Type} (results : List IntsetResult) (r : Option α)
    (next : α -> β × IntsetResult) : Except IntsetCrash (β × List IntsetResult) :=
  match r with
  | none => .error .outOfBounds
  | some a => .ok ((next a).1, (next a).2 :: results)

end Intset

open Intset

def intsetStep (junk : UInt8) (op : IntsetOp) (st : Intset × List IntsetResult) :
    Except IntsetCrash (Intset × List IntsetResult) :=
  let (is, results) := st
  match op with
  | .add value =>
    Intset.finish results (intsetAdd junk is value.toInt) fun r => (r.1, .flag r.2)
  | .remove value =>
    Intset.finish results (intsetRemove junk is value.toInt) fun r => (r.1, .flag r.2)
  | .find value => Intset.finish results (intsetFind is value.toInt) fun r => (is, .flag r)
  | .get pos => Intset.finish results (intsetGet is pos.toNat) fun r => (is, .value r)

end Redisoo
