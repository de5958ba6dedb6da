import Redisoo.Foundation.Chaining

/-!
# Dictionaries with incremental rehashing

`dict.c`: two hash tables with chaining, of which the second is in use while the
entries of the first migrate to it bucket by bucket.  An entry is named by its
key, so that keys that compare equal are one key here.  Allocations succeed;
the number of bytes an allocation asks for is a machine integer.
-/

namespace Redisoo

open Foundation

variable {key val : Type}

inductive DictCrash where
  /-- A bucket of a table that was never allocated. -/
  | nullTable
  /-- A bucket outside the memory allocated for the table. -/
  | outOfBounds
  /-- The assertion of `dictRehash`. -/
  | rehashAssert
  /-- `dictReplace` follows the pointer to an entry that was not found. -/
  | nullEntry
  deriving DecidableEq

/-- `dictht`.  `allocated` is the number of buckets that fit the memory `table`
points to, `none` for a null pointer. -/
structure Dictht (key val : Type) where
  table : Nat -> List (key × val)
  allocated : Option Nat
  size : Nat
  sizemask : Nat
  used : Nat

def Dictht.reset : Dictht key val where
  table := fun _ => []
  allocated := none
  size := 0
  sizemask := 0
  used := 0

/-- `rehashidx` is `none` for -1.  `canResize` is the global `dict_can_resize`. -/
structure Dict (key val : Type) where
  ht0 : Dictht key val
  ht1 : Dictht key val
  rehashidx : Option Nat
  iterators : Nat
  canResize : Bool

def Dict.create : Dict key val where
  ht0 := Dictht.reset
  ht1 := Dictht.reset
  rehashidx := none
  iterators := 0
  canResize := true

namespace Dictht

def bucket (ht : Dictht key val) (i : Nat) : Except DictCrash (List (key × val)) :=
  match ht.allocated with
  | none => .error .nullTable
  | some slots => if i < slots then .ok (ht.table i) else .error .outOfBounds

@[simps] def setBucket (ht : Dictht key val) (i : Nat)
    (chain : List (key × val)) : Dictht key val :=
  { ht with table := Function.update ht.table i chain }

def index (hash : key -> Nat) (ht : Dictht key val) (k : key) : Nat :=
  hash k &&& ht.sizemask

end Dictht

namespace Dict

def isRehashing (d : Dict key val) : Bool :=
  d.rehashidx.isSome

/-!
# Resizing
-/

def DICT_HT_INITIAL_SIZE : Nat := 4

def LONG_MAX : Nat := 2 ^ 63 - 1

def dict_force_resize_ratio : Nat := 5

/-- The loop of `_dictNextPower`.  The counter reaches any `unsigned long` below
`LONG_MAX` within 63 rounds. -/
def nextPowerFrom (size : Nat) : Nat -> Nat -> Nat
  | 0, i => i
  | fuel + 1, i => if size ≤ i then i else nextPowerFrom size fuel (i * 2)

def nextPower (size : Nat) : Nat :=
  if LONG_MAX ≤ size then LONG_MAX + 1
  else nextPowerFrom size 63 DICT_HT_INITIAL_SIZE

/-- The new table of `dictExpand`.  The byte count given to `zcalloc` wraps. -/
def allocate (realsize : Nat) : Dictht key val where
  table := fun _ => []
  allocated := some (realsize * 8 % 2 ^ 64 / 8)
  size := realsize
  sizemask := realsize - 1
  used := 0

/-- The result is whether it returns `DICT_OK`. -/
def dictExpand (d : Dict key val) (size : Nat) : Dict key val × Bool :=
  if d.isRehashing || d.ht0.used > size then (d, false)
  else if nextPower size = d.ht0.size then (d, false)
  else
    match d.ht0.allocated with
    | none => ({ d with ht0 := allocate (nextPower size) }, true)
    | some _ =>
      ({ d with ht1 := allocate (nextPower size), rehashidx := some 0 }, true)

def dictResize (d : Dict key val) : Dict key val × Bool :=
  if !d.canResize || d.isRehashing then (d, false)
  else d.dictExpand (max d.ht0.used DICT_HT_INITIAL_SIZE)

def dictExpandIfNeeded (d : Dict key val) : Dict key val × Bool :=
  if d.isRehashing then (d, true)
  else if d.ht0.size = 0 then d.dictExpand DICT_HT_INITIAL_SIZE
  else if d.ht0.used ≥ d.ht0.size &&
      (d.canResize || d.ht0.used / d.ht0.size > dict_force_resize_ratio) then
    d.dictExpand (d.ht0.used * 2 % 2 ^ 64)
  else (d, true)

/-!
# Rehashing
-/

def moveEntry (hash : key -> Nat) (d : Dict key val) (e : key × val) :
    Except DictCrash (Dict key val) :=
  let h := d.ht1.index hash e.1
  match d.ht1.bucket h with
  | .error c => .error c
  | .ok chain =>
    .ok { d with
      ht0 := { d.ht0 with used := d.ht0.used - 1 },
      ht1 := { d.ht1.setBucket h (e :: chain) with used := d.ht1.used + 1 } }

def moveBucket (hash : key -> Nat) : List (key × val) -> Dict key val ->
    Except DictCrash (Dict key val)
  | [], d => .ok d
  | e :: rest, d =>
    match moveEntry hash d e with
    | .error c => .error c
    | .ok d' => moveBucket hash rest d'

inductive Skipped where
  | found (idx : Nat)
  | limit (idx : Nat)

/-- The loop over empty buckets.  `left` is the number of buckets from `idx` to
the end of the allocated table. -/
def skipEmpty (table : Nat -> List (key × val)) :
    Nat -> Nat -> Int -> Except DictCrash (Skipped × Int)
  | 0, _, _ => .error .outOfBounds
  | left + 1, idx, emptyVisits =>
    match table idx with
    | _ :: _ => .ok (.found idx, emptyVisits)
    | [] =>
      if emptyVisits - 1 = 0 then .ok (.limit (idx + 1), 0)
      else skipEmpty table left (idx + 1) (emptyVisits - 1)

def finishRehash (d : Dict key val) : Dict key val × Bool :=
  if d.ht0.used = 0 then
    ({ d with ht0 := d.ht1, ht1 := Dictht.reset, rehashidx := none }, false)
  else (d, true)

def rehashLoop (hash : key -> Nat) : Nat -> Int -> Nat -> Dict key val ->
    Except DictCrash (Dict key val × Bool)
  | 0, _, _, d => .ok (finishRehash d)
  | n + 1, emptyVisits, idx, d =>
    if d.ht0.used = 0 then .ok (finishRehash d)
    else if d.ht0.size ≤ idx then .error .rehashAssert
    else
      match skipEmpty d.ht0.table (d.ht0.allocated.getD 0 - idx) idx emptyVisits with
      | .error c => .error c
      | .ok (.limit idx', _) => .ok ({ d with rehashidx := some idx' }, true)
      | .ok (.found idx', emptyVisits') =>
        match moveBucket hash (d.ht0.table idx') d with
        | .error c => .error c
        | .ok d' =>
          rehashLoop hash n emptyVisits' (idx' + 1)
            { d' with
              ht0 := d'.ht0.setBucket idx' [], rehashidx := some (idx' + 1) }

/-- The limit of empty visits is an `int`. -/
def dictRehash (hash : key -> Nat) (d : Dict key val) (n : Nat) :
    Except DictCrash (Dict key val × Bool) :=
  match d.rehashidx with
  | none => .ok (d, false)
  | some idx => rehashLoop hash n (Int.bmod (n * 10) (2 ^ 32)) idx d

def rehashStep (hash : key -> Nat) (d : Dict key val) : Except DictCrash (Dict key val) :=
  if d.isRehashing && d.iterators == 0 then
    match dictRehash hash d 1 with
    | .error c => .error c
    | .ok (d', _) => .ok d'
  else .ok d

/-!
# Lookup, insertion and deletion
-/

variable [DecidableEq key]

def searchTable (hash : key -> Nat) (ht : Dictht key val) (k : key) :
    Except DictCrash (Option val) :=
  match ht.bucket (ht.index hash k) with
  | .error c => .error c
  | .ok chain => .ok (Chaining.lookup chain k)

def search (hash : key -> Nat) (d : Dict key val) (k : key) : Except DictCrash (Option val) :=
  match searchTable hash d.ht0 k with
  | .error c => .error c
  | .ok (some v) => .ok (some v)
  | .ok none =>
    if d.isRehashing then searchTable hash d.ht1 k else .ok none

def dictFind (hash : key -> Nat) (d : Dict key val) (k : key) :
    Except DictCrash (Dict key val × Option val) :=
  if d.ht0.used + d.ht1.used = 0 then .ok (d, none)
  else
    match rehashStep hash d with
    | .error c => .error c
    | .ok d =>
      match search hash d k with
      | .error c => .error c
      | .ok v => .ok (d, v)

/-- What `_dictKeyIndex` returns: the index of the bucket for a new entry, or -1
together with `*existing`. -/
inductive KeyIndex (val : Type) where
  | free (index : Nat)
  | taken (existing : Option val)

def dictKeyIndex (hash : key -> Nat) (d : Dict key val) (k : key) :
    Except DictCrash (Dict key val × KeyIndex val) :=
  match d.dictExpandIfNeeded with
  | (d, false) => .ok (d, .taken none)
  | (d, true) =>
    match search hash d k with
    | .error c => .error c
    | .ok (some v) => .ok (d, .taken (some v))
    | .ok none =>
      .ok (d, .free (if d.isRehashing then d.ht1.index hash k
        else d.ht0.index hash k))

/-- A new entry in front of a bucket; `_dictKeyIndex` has just read the bucket. -/
def addEntry (ht : Dictht key val) (i : Nat) (k : key) (v : val) : Dictht key val :=
  { ht.setBucket i ((k, v) :: ht.table i) with used := ht.used + 1 }

/-- The result is `none` when an entry was added, and `*existing` otherwise. `junk` is what
the memory of a new entry happens to hold in the place of the value. -/
def dictAddRaw (hash : key -> Nat) (d : Dict key val) (k : key) (junk : val) :
    Except DictCrash (Dict key val × Option (Option val)) :=
  match rehashStep hash d with
  | .error c => .error c
  | .ok d =>
    match dictKeyIndex hash d k with
    | .error c => .error c
    | .ok (d, .taken existing) => .ok (d, some existing)
    | .ok (d, .free i) =>
      if d.isRehashing then .ok ({ d with ht1 := addEntry d.ht1 i k junk }, none)
      else .ok ({ d with ht0 := addEntry d.ht0 i k junk }, none)

def dictSetVal (d : Dict key val) (k : key) (v : val) : Dict key val :=
  { d with
    ht0 := { d.ht0 with table := fun i => Chaining.assign (d.ht0.table i) k v },
    ht1 := { d.ht1 with table := fun i => Chaining.assign (d.ht1.table i) k v } }

def dictAdd (hash : key -> Nat) (d : Dict key val) (k : key) (v junk : val) :
    Except DictCrash (Dict key val × Bool) :=
  match dictAddRaw hash d k junk with
  | .error c => .error c
  | .ok (d, some _) => .ok (d, false)
  | .ok (d, none) => .ok (dictSetVal d k v, true)

def dictReplace (hash : key -> Nat) (d : Dict key val) (k : key) (v junk : val) :
    Except DictCrash (Dict key val × Bool) :=
  match dictAddRaw hash d k junk with
  | .error c => .error c
  | .ok (d, none) => .ok (dictSetVal d k v, true)
  | .ok (_, some none) => .error .nullEntry
  | .ok (d, some (some _)) => .ok (dictSetVal d k v, false)

def unlinkEntry (hash : key -> Nat) (ht : Dictht key val) (k : key) : Dictht key val :=
  { ht.setBucket (ht.index hash k)
      (Chaining.erase (ht.table (ht.index hash k)) k) with
    used := ht.used - 1 }

def dictGenericDelete (hash : key -> Nat) (d : Dict key val) (k : key) :
    Except DictCrash (Dict key val × Option val) :=
  if d.ht0.used = 0 ∧ d.ht1.used = 0 then .ok (d, none)
  else
    match rehashStep hash d with
    | .error c => .error c
    | .ok d =>
      match searchTable hash d.ht0 k with
      | .error c => .error c
      | .ok (some v) => .ok ({ d with ht0 := unlinkEntry hash d.ht0 k }, some v)
      | .ok none =>
        if d.isRehashing then
          match searchTable hash d.ht1 k with
          | .error c => .error c
          | .ok (some v) =>
            .ok ({ d with ht1 := unlinkEntry hash d.ht1 k }, some v)
          | .ok none => .ok (d, none)
        else .ok (d, none)

def dictDelete (hash : key -> Nat) (d : Dict key val) (k : key) :
    Except DictCrash (Dict key val × Bool) :=
  match dictGenericDelete hash d k with
  | .error c => .error c
  | .ok (d, v) => .ok (d, v.isSome)

def dictUnlink (hash : key -> Nat) (d : Dict key val) (k : key) :
    Except DictCrash (Dict key val × Option val) :=
  dictGenericDelete hash d k

end Dict

/-!
# Operations
-/

/-- A call.  `iterate` is the start or the end of safe iterators, `setResize` a
call of `dictEnableResize` or `dictDisableResize`. -/
inductive DictOp (key val : Type) where
  | add (k : key) (v junk : val)
  | addRaw (k : key) (junk : val)
  | replace (k : key) (v junk : val)
  | delete (k : key)
  | unlink (k : key)
  | find (k : key)
  | expand (size : Nat)
  | resize
  | rehash (n : Nat)
  | iterate (iterators : Nat)
  | setResize (on : Bool)

inductive DictResult (val : Type) where
  | status (ok : Bool)
  | entry (v : Option val)
  | added (existing : Option (Option val))
  | done

def dictStep [DecidableEq key] (hash : key -> Nat) (op : DictOp key val)
    (s : Dict key val × List (DictResult val)) :
    Except DictCrash (Dict key val × List (DictResult val)) :=
  let (d, results) := s
  match op with
  | .add k v junk => (d.dictAdd hash k v junk).map fun (d, ok) => (d, .status ok :: results)
  | .addRaw k junk => (d.dictAddRaw hash k junk).map fun (d, r) => (d, .added r :: results)
  | .replace k v junk =>
    (d.dictReplace hash k v junk).map fun (d, ok) => (d, .status ok :: results)
  | .delete k => (d.dictDelete hash k).map fun (d, ok) => (d, .status ok :: results)
  | .unlink k => (d.dictUnlink hash k).map fun (d, v) => (d, .entry v :: results)
  | .find k => (d.dictFind hash k).map fun (d, v) => (d, .entry v :: results)
  | .expand size => .ok ((d.dictExpand size).1, .done :: results)
  | .resize => .ok (d.dictResize.1, .done :: results)
  | .rehash n => (d.dictRehash hash n).map fun (d, _) => (d, .done :: results)
  | .iterate iterators => .ok ({ d with iterators := iterators }, .done :: results)
  | .setResize on => .ok ({ d with canResize := on }, .done :: results)

end Redisoo
