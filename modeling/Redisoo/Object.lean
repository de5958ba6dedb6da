import Redisoo.Util.Decimal

/-!
# Objects and replies

The values of the keyspace, in the encodings the string commands create, and
the replies a command sends.
-/

namespace Redisoo

inductive AggregateType where
  | list
  | set
  | zset
  | hash
  | stream
  deriving DecidableEq, Repr

/-- A value of the keyspace.  `raw`, `embstr` and `int` are the three encodings
of a string object; the pointer of an `int` object is the integer itself. -/
inductive Robj where
  | raw (s : Sds)
  | embstr (s : Sds)
  | int (value : Int)
  | aggregate (type : AggregateType) (elems : List Sds)
  deriving DecidableEq, Repr

inductive Value where
  | string (s : Sds)
  | aggregate (type : AggregateType) (elems : List Sds)
  deriving DecidableEq, Repr

namespace Robj

def value : Robj -> Value
  | raw s => .string s
  | embstr s => .string s
  | int v => .string (Util.ll2string v)
  | aggregate type elems => .aggregate type elems

def decoded (o : Robj) : Option Sds :=
  match o.value with
  | .string s => some s
  | .aggregate _ _ => none

end Robj

def OBJ_ENCODING_EMBSTR_SIZE_LIMIT : Nat := 44

def createStringObject (s : Sds) : Robj :=
  if s.length ≤ OBJ_ENCODING_EMBSTR_SIZE_LIMIT then .embstr s else .raw s

def tryObjectEncoding (s : Sds) : Robj :=
  if s.length ≤ 20 then
    match Util.string2ll s with
    | some value => .int value
    | none => .embstr s
  else if s.length ≤ OBJ_ENCODING_EMBSTR_SIZE_LIMIT then .embstr s
  else .raw s

@[simp] theorem value_createStringObject (s : Sds) : (createStringObject s).value = .string s := by
  unfold createStringObject
  split <;> rfl

/-- What a client receives.  `null` is the nil reply, `integer 1` and
`integer 0` are the replies `shared.cone` and `shared.czero`. -/
inductive Reply where
  | ok
  | null
  | integer (i : Int)
  | bulk (s : Sds)
  | error (msg : String)
  | queued
  | array (rs : List Reply)

end Redisoo
