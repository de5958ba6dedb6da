import Redisoo.Structures.SetType
import Redisoo.Structures.Ziplist
import Redisoo.Util.Digits

/-!
# Hashes

The hash type of `t_hash.c` in its two encodings.  In a ziplist a field is followed by its
value, and the search for a field skips the values by their position.
-/

namespace Redisoo

/-- What the server gives to a call: `hash_max_ziplist_entries`, `hash_max_ziplist_value`
and `dict_can_resize`. -/
structure HashServer where
  maxZiplistEntries : Nat
  maxZiplistValue : Nat
  canResize : Bool

inductive HashType where
  | ziplist (zl : List ZlEntry)
  | ht (d : Dict Sds Sds)

namespace HashType

def createHashObject : HashType :=
  .ziplist []

def hashTypeGetFromZiplist (zl : List ZlEntry) (field : Sds) : Except TypeCrash (Option ZlEntry) :=
  match (ziplistIndex zl 0).bind fun fptr => ziplistFind zl fptr field 1 with
  | none => .ok none
  | some fptr =>
    match (ziplistNext zl fptr).bind (ziplistGet zl) with
    | none => .error .assertion
    | some value => .ok (some value)

def hashTypeGetFromHashTable (hash : Sds -> Nat) (d : Dict Sds Sds) (field : Sds) :
    Except TypeCrash (Dict Sds Sds × Option Sds) :=
  TypeCrash.ofDict (d.dictFind hash field)

def hashTypeGetValue (hash : Sds -> Nat) (field : Sds) :
    HashType -> Except TypeCrash (HashType × Option Sds)
  | .ziplist zl =>
    (hashTypeGetFromZiplist zl field).map fun value => (.ziplist zl, value.map ZlEntry.text)
  | .ht d =>
    (hashTypeGetFromHashTable hash d field).map fun r => (.ht r.1, r.2.map asUint)

def entryLength : ZlEntry -> Nat
  | .str s => s.length
  | .int vll => Util.sdigits10 vll

def hashTypeGetValueLength (hash : Sds -> Nat) (field : Sds) :
    HashType -> Except TypeCrash (HashType × Nat)
  | .ziplist zl =>
    (hashTypeGetFromZiplist zl field).map fun value =>
      (.ziplist zl, (value.map entryLength).getD 0)
  | .ht d =>
    (hashTypeGetFromHashTable hash d field).map fun r =>
      (.ht r.1, (r.2.map List.length).getD 0)

def hashTypeExists (hash : Sds -> Nat) (field : Sds) :
    HashType -> Except TypeCrash (HashType × Bool)
  | .ziplist zl =>
    (hashTypeGetFromZiplist zl field).map fun value => (.ziplist zl, value.isSome)
  | .ht d => (hashTypeGetFromHashTable hash d field).map fun r => (.ht r.1, r.2.isSome)

def hashTypeLength : HashType -> Nat
  | .ziplist zl => ziplistLen zl / 2
  | .ht d => d.dictSize

/-- The pairs `hashTypeNext` stops at, from a field on. -/
def ziplistPairs (zl : List ZlEntry) : Nat -> Option Nat -> Except TypeCrash (List (Sds × Sds))
  | 0, _ => .ok []
  | _ + 1, none => .ok []
  | fuel + 1, some fptr =>
    match ziplistNext zl fptr with
    | none => .error .assertion
    | some vptr =>
      match ziplistGet zl fptr, ziplistGet zl vptr with
      | some field, some value =>
        (ziplistPairs zl fuel (ziplistNext zl vptr)).map
          ((field.text, value.text) :: ·)
      | _, _ => .error .assertion

def hashTypeEntries : HashType -> Except TypeCrash (List (Sds × Sds))
  | .ziplist zl => ziplistPairs zl (zl.length + 1) (ziplistIndex zl 0)
  | .ht d =>
    (TypeCrash.ofDict d.dictEntries).map fun es => es.map fun e => (asUint e.1, asUint e.2)

def hashTypeConvertZiplist (hash : Sds -> Nat) (server : HashServer) (zl : List ZlEntry) :
    Except TypeCrash HashType :=
  match ziplistPairs zl (zl.length + 1) (ziplistIndex zl 0) with
  | .error c => .error c
  | .ok pairs =>
    (fillDict hash .corruption pairs { Dict.create with canResize := server.canResize }).map .ht

def hashTypeTryConversion (hash : Sds -> Nat) (server : HashServer) (argv : List Sds) :
    HashType -> Except TypeCrash HashType
  | .ziplist zl =>
    if argv.any fun arg => server.maxZiplistValue < arg.length then
      hashTypeConvertZiplist hash server zl
    else .ok (.ziplist zl)
  | .ht d => .ok (.ht d)

def hashTypeSetZiplist (zl : List ZlEntry) (field value : Sds) :
    Except TypeCrash (List ZlEntry × Bool) :=
  match (ziplistIndex zl 0).bind fun fptr => ziplistFind zl fptr field 1 with
  | some fptr =>
    match ziplistNext zl fptr with
    | none => .error .assertion
    | some vptr =>
      match ziplistInsert (ziplistDelete zl vptr) vptr value with
      | none => .error .ziplist
      | some zl => .ok (zl, true)
  | none =>
    match (ziplistPush zl field).bind fun zl => ziplistPush zl value with
    | none => .error .ziplist
    | some zl => .ok (zl, false)

def hashTypeSet (hash : Sds -> Nat) (server : HashServer) (field value : Sds) :
    HashType -> Except TypeCrash (HashType × Bool)
  | .ziplist zl =>
    match hashTypeSetZiplist zl field value with
    | .error c => .error c
    | .ok (zl, update) =>
      if hashTypeLength (.ziplist zl) > server.maxZiplistEntries then
        (hashTypeConvertZiplist hash server zl).map fun o => (o, update)
      else .ok (.ziplist zl, update)
  | .ht d =>
    match TypeCrash.ofDict (d.dictFind hash field) with
    | .error c => .error c
    | .ok (d, some _) => .ok (.ht (d.dictSetVal field value), true)
    | .ok (d, none) =>
      (TypeCrash.ofDict (d.dictAdd hash field value value)).map fun r => (.ht r.1, false)

def hashTypeDelete (hash : Sds -> Nat) (field : Sds) :
    HashType -> Except TypeCrash (HashType × Bool)
  | .ziplist zl =>
    match (ziplistIndex zl 0).bind fun fptr => ziplistFind zl fptr field 1 with
    | none => .ok (.ziplist zl, false)
    | some fptr => .ok (.ziplist (ziplistDelete (ziplistDelete zl fptr) fptr), true)
  | .ht d =>
    match TypeCrash.ofDict (d.dictDelete hash field) with
    | .error c => .error c
    | .ok (d, true) => .ok (.ht d.resizeIfNeeded, true)
    | .ok (d, false) => .ok (.ht d, false)

/-- `dict_can_resize` is a global that may change between calls. -/
def under (server : HashServer) : HashType -> HashType
  | .ziplist zl => .ziplist zl
  | .ht d => .ht { d with canResize := server.canResize }

end HashType

/-!
# Calls
-/

inductive HashOp where
  | tryConversion (argv : List Sds)
  | set (field value : Sds)
  | delete (field : Sds)
  | get (field : Sds)
  | valueLength (field : Sds)
  | exists_ (field : Sds)
  | length
  | entries

inductive HashResult where
  | done
  | flag (b : Bool)
  | value (v : Option Sds)
  | size (n : Nat)
  | entries (xs : List (Sds × Sds))

open HashType in
def hashTypeStep (hash : Sds -> Nat) (call : HashServer × HashOp)
    (st : HashType × List HashResult) : Except TypeCrash (HashType × List HashResult) :=
  let (server, op) := call
  let o := st.1.under server
  match op with
  | .tryConversion argv =>
    (hashTypeTryConversion hash server argv o).map fun o => (o, .done :: st.2)
  | .set field value =>
    (hashTypeSet hash server field value o).map fun r => (r.1, .flag r.2 :: st.2)
  | .delete field => (hashTypeDelete hash field o).map fun r => (r.1, .flag r.2 :: st.2)
  | .get field => (hashTypeGetValue hash field o).map fun r => (r.1, .value r.2 :: st.2)
  | .valueLength field =>
    (hashTypeGetValueLength hash field o).map fun r => (r.1, .size r.2 :: st.2)
  | .exists_ field => (hashTypeExists hash field o).map fun r => (r.1, .flag r.2 :: st.2)
  | .length => .ok (o, .size (hashTypeLength o) :: st.2)
  | .entries => (hashTypeEntries o).map fun xs => (o, .entries xs :: st.2)

end Redisoo
