import Redisoo.Structures.DictIter
import Redisoo.Structures.Intset
import Redisoo.Util.Decimal

/-!
# Sets

The set type of `t_set.c` in its two encodings.  A member that is a canonical decimal lives
as a number in an intset and as a string in a hash table.
-/

namespace Redisoo

inductive TypeCrash where
  | dict (c : DictCrash)
  /-- an access outside of the intset -/
  | intset
  /-- the bytes of a ziplist can not be counted -/
  | ziplist
  | assertion
  /-- `serverPanic("Ziplist corruption detected")` -/
  | corruption

def TypeCrash.ofDict {result : Type} : Except DictCrash result -> Except TypeCrash result
  | .error c => .error (.dict c)
  | .ok r => .ok r

/-- `dictAdd` of each entry into a new table; `bad` is what happens to a duplicate. -/
def fillDict {val : Type} (hash : Sds -> Nat) (bad : TypeCrash) :
    List (Sds × val) -> Dict Sds val -> Except TypeCrash (Dict Sds val)
  | [], d => .ok d
  | (k, v) :: rest, d =>
    match TypeCrash.ofDict (d.dictAdd hash k v v) with
    | .error c => .error c
    | .ok (d, true) => fillDict hash bad rest d
    | .ok (_, false) => .error bad

/-- What the server gives to a call: `set_max_intset_entries`, `dict_can_resize` and what
`zrealloc` leaves in new memory. -/
structure SetServer where
  maxIntsetEntries : Nat
  canResize : Bool
  junk : UInt8

inductive SetType where
  | intset (is : Intset)
  | ht (d : Dict Sds Unit)

namespace SetType

open Intset

def setTypeCreate (value : Sds) : SetType :=
  match Util.string2ll value with
  | some _ => .intset intsetNew
  | none => .ht Dict.create

def setTypeConvert (hash : Sds -> Nat) (server : SetServer) (is : Intset) :
    Except TypeCrash (Dict Sds Unit) :=
  -- presize the dict to avoid rehashing
  let d := (Dict.dictExpand { Dict.create with canResize := server.canResize } (intsetLen is)).1
  match intsetWalk is (intsetLen is + 1) 0 with
  | none => .error .intset
  | some intele => fillDict hash .assertion (intele.map fun v => (Util.ll2string v, ())) d

def setTypeAdd (hash : Sds -> Nat) (server : SetServer) (value : Sds) :
    SetType -> Except TypeCrash (SetType × Bool)
  | .ht d =>
    match TypeCrash.ofDict (d.dictAddRaw hash value ()) with
    | .error c => .error c
    | .ok (d, existing) => .ok (.ht d, existing.isNone)
  | .intset is =>
    match Util.string2ll value with
    | some llval =>
      match intsetAdd server.junk is llval with
      | none => .error .intset
      | some (is, false) => .ok (.intset is, false)
      | some (is, true) =>
        if intsetLen is > server.maxIntsetEntries then
          match setTypeConvert hash server is with
          | .error c => .error c
          | .ok d => .ok (.ht d, true)
        else .ok (.intset is, true)
    | none =>
      match setTypeConvert hash server is with
      | .error c => .error c
      | .ok d =>
        match TypeCrash.ofDict (d.dictAdd hash value () ()) with
        | .error c => .error c
        | .ok (_, false) => .error .assertion
        | .ok (d, true) => .ok (.ht d, true)

def setTypeRemove (hash : Sds -> Nat) (server : SetServer) (value : Sds) :
    SetType -> Except TypeCrash (SetType × Bool)
  | .ht d =>
    match TypeCrash.ofDict (d.dictDelete hash value) with
    | .error c => .error c
    | .ok (d, true) => .ok (.ht d.resizeIfNeeded, true)
    | .ok (d, false) => .ok (.ht d, false)
  | .intset is =>
    match Util.string2ll value with
    | none => .ok (.intset is, false)
    | some llval =>
      match intsetRemove server.junk is llval with
      | none => .error .intset
      | some (is, success) => .ok (.intset is, success)

def setTypeIsMember (hash : Sds -> Nat) (value : Sds) : SetType -> Except TypeCrash (SetType × Bool)
  | .ht d =>
    match TypeCrash.ofDict (d.dictFind hash value) with
    | .error c => .error c
    | .ok (d, de) => .ok (.ht d, de.isSome)
  | .intset is =>
    match Util.string2ll value with
    | none => .ok (.intset is, false)
    | some llval =>
      match intsetFind is llval with
      | none => .error .intset
      | some found => .ok (.intset is, found)

def setTypeSize : SetType -> Nat
  | .ht d => d.dictSize
  | .intset is => intsetLen is

def setTypeElements : SetType -> Except TypeCrash (List Sds)
  | .ht d => (TypeCrash.ofDict d.dictEntries).map fun es => es.map Prod.fst
  | .intset is =>
    match intsetWalk is (intsetLen is + 1) 0 with
    | none => .error .intset
    | some intele => .ok (intele.map Util.ll2string)

/-- `dict_can_resize` is a global that may change between calls. -/
def under (server : SetServer) : SetType -> SetType
  | .intset is => .intset is
  | .ht d => .ht { d with canResize := server.canResize }

end SetType

/-!
# Calls
-/

inductive SetOp where
  | add (value : Sds)
  | remove (value : Sds)
  | isMember (value : Sds)
  | size
  | elements

inductive SetResult where
  | flag (b : Bool)
  | size (n : Nat)
  | elements (xs : List Sds)

open SetType in
def setTypeStep (hash : Sds -> Nat) (call : SetServer × SetOp) (st : SetType × List SetResult) :
    Except TypeCrash (SetType × List SetResult) :=
  let (server, op) := call
  let o := st.1.under server
  match op with
  | .add value => (setTypeAdd hash server value o).map fun r => (r.1, .flag r.2 :: st.2)
  | .remove value => (setTypeRemove hash server value o).map fun r => (r.1, .flag r.2 :: st.2)
  | .isMember value => (setTypeIsMember hash value o).map fun r => (r.1, .flag r.2 :: st.2)
  | .size => .ok (o, .size (setTypeSize o) :: st.2)
  | .elements => (setTypeElements o).map fun xs => (o, .elements xs :: st.2)

end Redisoo
