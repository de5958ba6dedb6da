import Redisoo.Foundation.Bytes
import Redisoo.Util.Decimal

/-!
# Listpacks

`listpack.c`: a header of six bytes, the entries and an end byte.  An entry is an
encoded element followed by the length of the encoding, which is read backwards.  A
pointer into a listpack is an offset; what is read beyond the allocation has no value.
-/

namespace Redisoo

open Foundation.Bytes

namespace Listpack

def LP_HDR_SIZE : Nat := 6

def LP_HDR_NUMELE_UNKNOWN : Nat := 65535

def LP_EOF : UInt8 := 0xFF

def UINT32_MAX : Nat := 4294967295

def UINT64_MAX : Nat := 18446744073709551615

/-!
# Encodings
-/

def is7BitUint (b : UInt8) : Bool := b &&& 0x80 == 0x00

def is6BitStr (b : UInt8) : Bool := b &&& 0xC0 == 0x80

def is13BitInt (b : UInt8) : Bool := b &&& 0xE0 == 0xC0

def is12BitStr (b : UInt8) : Bool := b &&& 0xF0 == 0xE0

def LP_ENCODING_16BIT_INT : UInt8 := 0xF1

def LP_ENCODING_24BIT_INT : UInt8 := 0xF2

def LP_ENCODING_32BIT_INT : UInt8 := 0xF3

def LP_ENCODING_64BIT_INT : UInt8 := 0xF4

def LP_ENCODING_32BIT_STR : UInt8 := 0xF0

/-- `lpStringToInt64` is the function `string2ll` of util.c. -/
def lpStringToInt64 (s : Sds) : Option Int :=
  Util.string2ll s

def wrap (bits : Nat) (v : Int) : Nat :=
  (if v < 0 then 2 ^ bits + v else v).toNat

def lpEncodeInt (v : Int) : List UInt8 :=
  if 0 ≤ v ∧ v ≤ 127 then [UInt8.ofNat v.toNat]
  else if -4096 ≤ v ∧ v ≤ 4095 then
    [UInt8.ofNat (wrap 13 v / 256 ||| 0xC0), UInt8.ofNat (wrap 13 v)]
  else if -32768 ≤ v ∧ v ≤ 32767 then LP_ENCODING_16BIT_INT :: le 2 (wrap 16 v)
  else if -8388608 ≤ v ∧ v ≤ 8388607 then LP_ENCODING_24BIT_INT :: le 3 (wrap 24 v)
  else if -2147483648 ≤ v ∧ v ≤ 2147483647 then LP_ENCODING_32BIT_INT :: le 4 (wrap 32 v)
  else LP_ENCODING_64BIT_INT :: le 8 (wrap 64 v)

/-- What `lpEncodeGetType` returns: an integer with its encoding, or a string. -/
inductive LpEncoding where
  | int (intenc : List UInt8)
  | string

def lpEncodeGetType (ele : Sds) : LpEncoding × Nat :=
  match lpStringToInt64 ele with
  | some v => (.int (lpEncodeInt v), (lpEncodeInt v).length)
  | none =>
    (.string,
      if ele.length < 64 then 1 + ele.length
      else if ele.length < 4096 then 2 + ele.length
      else (5 + ele.length) % 2 ^ 32)

def more (l : Nat) : UInt8 :=
  UInt8.ofNat (l % 128 ||| 128)

def lpEncodeBacklen (l : Nat) : List UInt8 :=
  if l ≤ 127 then [UInt8.ofNat l]
  else if l < 16383 then [UInt8.ofNat (l / 2 ^ 7), more l]
  else if l < 2097151 then [UInt8.ofNat (l / 2 ^ 14), more (l / 2 ^ 7), more l]
  else if l < 268435455 then
    [UInt8.ofNat (l / 2 ^ 21), more (l / 2 ^ 14), more (l / 2 ^ 7), more l]
  else
    [UInt8.ofNat (l / 2 ^ 28), more (l / 2 ^ 21), more (l / 2 ^ 14), more (l / 2 ^ 7), more l]

/-- The loop of `lpDecodeBacklen`.  The bytes are those before the pointer, the nearest
first; five rounds have the shifts up to 28. -/
def decodeBacklenFrom : Nat -> Nat -> Nat -> List UInt8 -> Option Nat
  | 0, _, _, _ => some UINT64_MAX
  | _ + 1, _, _, [] => none
  | rounds + 1, shift, val, b :: rest =>
    let val := val + b.toNat % 128 * 2 ^ shift
    if b.toNat < 128 then some val else decodeBacklenFrom rounds (shift + 7) val rest

def lpDecodeBacklen (before : List UInt8) : Option Nat :=
  decodeBacklenFrom 5 0 0 before

def lpEncodeString (s : Sds) : List UInt8 :=
  if s.length < 64 then UInt8.ofNat (s.length ||| 0x80) :: s
  else if s.length < 4096 then
    UInt8.ofNat (s.length / 256 ||| 0xE0) :: UInt8.ofNat s.length :: s
  else LP_ENCODING_32BIT_STR :: (le 4 s.length ++ s)

def strLen6 (b : UInt8) : Nat :=
  (b &&& 0x3F).toNat

def strLen12 (b b1 : UInt8) : Nat :=
  (b &&& 0xF).toNat * 256 + b1.toNat

def lpCurrentEncodedSize : List UInt8 -> Option Nat
  | [] => none
  | b :: rest =>
    if is7BitUint b then some 1
    else if is6BitStr b then some (1 + strLen6 b)
    else if is13BitInt b then some 2
    else if b = LP_ENCODING_16BIT_INT then some 3
    else if b = LP_ENCODING_24BIT_INT then some 4
    else if b = LP_ENCODING_32BIT_INT then some 5
    else if b = LP_ENCODING_64BIT_INT then some 9
    else if is12BitStr b then rest.head?.map fun b1 => 2 + strLen12 b b1
    else if b = LP_ENCODING_32BIT_STR then (readLe 4 rest).map fun n => (5 + n) % 2 ^ 32
    else if b = LP_EOF then some 1
    else some 0

def signed (uval negstart negmax : Nat) : Int :=
  if uval ≥ negstart then -((negmax - uval : Nat) : Int) - 1 else uval

inductive LpValue where
  | str (s : Sds)
  | int (v : Int)
deriving DecidableEq

def slice (n : Nat) (p : List UInt8) : Option LpValue :=
  if n ≤ p.length then some (.str (p.take n)) else none

def lpGet : List UInt8 -> Option LpValue
  | [] => none
  | b :: rest =>
    if is7BitUint b then some (.int (signed (b &&& 0x7F).toNat UINT64_MAX 0))
    else if is6BitStr b then slice (strLen6 b) rest
    else if is13BitInt b then
      rest.head?.map fun b1 =>
        .int (signed ((b &&& 0x1F).toNat * 256 + b1.toNat) (2 ^ 12) 8191)
    else if b = LP_ENCODING_16BIT_INT then
      (readLe 2 rest).map fun uval => .int (signed uval (2 ^ 15) (2 ^ 16 - 1))
    else if b = LP_ENCODING_24BIT_INT then
      (readLe 3 rest).map fun uval => .int (signed uval (2 ^ 23) (2 ^ 24 - 1))
    else if b = LP_ENCODING_32BIT_INT then
      (readLe 4 rest).map fun uval => .int (signed uval (2 ^ 31) (2 ^ 32 - 1))
    else if b = LP_ENCODING_64BIT_INT then
      (readLe 8 rest).map fun uval => .int (signed uval (2 ^ 63) (2 ^ 64 - 1))
    else if is12BitStr b then
      match rest with
      | [] => none
      | b1 :: rest => slice (strLen12 b b1) rest
    else if b = LP_ENCODING_32BIT_STR then
      match readLe 4 rest with
      | none => none
      | some n => slice n (rest.drop 4)
    else some (.int (signed (12345678900000000 + b.toNat) UINT64_MAX 0))

def LpValue.string : LpValue -> Sds
  | .str s => s
  | .int v => Util.ll2string v

/-!
# Navigation
-/

def lpGetTotalBytes (lp : List UInt8) : Option Nat :=
  readLe 4 lp

def lpGetNumElements (lp : List UInt8) : Option Nat :=
  readLe 2 (lp.drop 4)

def lpSetTotalBytes (lp : List UInt8) (v : Nat) : List UInt8 :=
  le 4 v ++ lp.drop 4

def lpSetNumElements (lp : List UInt8) (v : Nat) : List UInt8 :=
  lp.take 4 ++ le 2 v ++ lp.drop 6

def lpNew : List UInt8 :=
  le 4 (LP_HDR_SIZE + 1) ++ le 2 0 ++ [LP_EOF]

def lpSkip (lp : List UInt8) (p : Nat) : Option Nat := do
  let entrylen ← lpCurrentEncodedSize (lp.drop p)
  some (p + (entrylen + (lpEncodeBacklen entrylen).length))

/-- `NULL` at the end byte. -/
def orEnd (lp : List UInt8) (p : Nat) : Option (Option Nat) := do
  let b ← lp[p]?
  some (if b = LP_EOF then none else some p)

def lpNext (lp : List UInt8) (p : Nat) : Option (Option Nat) := do
  let p ← lpSkip lp p
  orEnd lp p

def lpPrev (lp : List UInt8) (p : Nat) : Option (Option Nat) :=
  if p = LP_HDR_SIZE then some none
  else do
    let prevlen ← lpDecodeBacklen (lp.take p).reverse
    some (some (p - (prevlen + (lpEncodeBacklen prevlen).length)))

def lpFirst (lp : List UInt8) : Option (Option Nat) :=
  orEnd lp LP_HDR_SIZE

def lpLast (lp : List UInt8) : Option (Option Nat) := do
  let total ← lpGetTotalBytes lp
  lpPrev lp (total - 1)

/-- The elements from a pointer on, in the direction of `move`.  The fuel bounds the
number of elements. -/
def traverse (move : List UInt8 -> Nat -> Option (Option Nat)) (lp : List UInt8) :
    Nat -> Option Nat -> Option (List Sds)
  | _, none => some []
  | 0, some _ => none
  | fuel + 1, some p => do
      let v ← lpGet (lp.drop p)
      let next ← move lp p
      let rest ← traverse move lp fuel next
      some (v.string :: rest)

def decode (lp : List UInt8) : Option (List Sds) := do
  let first ← lpFirst lp
  traverse lpNext lp lp.length first

def decodeBack (lp : List UInt8) : Option (List Sds) := do
  let last ← lpLast lp
  traverse lpPrev lp lp.length last

def countFrom (lp : List UInt8) : Nat -> Nat -> Option Nat -> Option Nat
  | _, count, none => some count
  | 0, _, some _ => none
  | fuel + 1, count, some p => do
      let next ← lpNext lp p
      countFrom lp fuel ((count + 1) % 2 ^ 32) next

def lpLength (lp : List UInt8) : Option (List UInt8 × Nat) := do
  let numele ← lpGetNumElements lp
  if numele ≠ LP_HDR_NUMELE_UNKNOWN then some (lp, numele)
  else do
    let first ← lpFirst lp
    let count ← countFrom lp lp.length 0 first
    some (if count < LP_HDR_NUMELE_UNKNOWN then lpSetNumElements lp count else lp, count)

/-!
# Insertion, replacement and deletion
-/

inductive LpWhere where
  | before
  | after
  | replace
deriving DecidableEq

/-- Resize the allocation and move the bytes after the replaced ones, before the
allocation shrinks or after it has grown.  `dst+replaced_len+lendiff` is
`dst+enclen+backlen_size`, and before an element nothing is replaced. -/
def makeRoom (junk : UInt8) (lp : List UInt8) (old new poff width replaced : Nat) :
    Option (List UInt8) := do
  let lp := if new > old then realloc junk lp new else lp
  let lp ← memmove lp (poff + width) (poff + replaced) (old - poff - replaced)
  some (if new < old then realloc junk lp new else lp)

def LpEncoding.stored (ele : Sds) : LpEncoding -> List UInt8
  | .int intenc => intenc
  | .string => lpEncodeString ele

def storeEntry (lp : List UInt8) (poff : Nat) (ele : Sds) : Option (List UInt8) := do
  let lp ← memcpy lp poff ((lpEncodeGetType ele).1.stored ele)
  memcpy lp (poff + (lpEncodeGetType ele).2) (lpEncodeBacklen (lpEncodeGetType ele).2)

def adjustCount (lp : List UInt8) (add : Bool) : Option (List UInt8) := do
  let num ← lpGetNumElements lp
  if num ≠ LP_HDR_NUMELE_UNKNOWN then
    some (lpSetNumElements lp (if add then num + 1 else num - 1))
  else some lp

def replacedLen (lp : List UInt8) (poff : Nat) : Option Nat := do
  let size ← lpCurrentEncodedSize (lp.drop poff)
  some ((size + (lpEncodeBacklen size).length) % 2 ^ 32)

/-- `lpInsert` of an element before an entry, or in its place.  The result is `none`
for `NULL`, and else the listpack and `*newp`. -/
def insertAt (junk : UInt8) (lp : List UInt8) (ele : Sds) (poff : Nat) (replace : Bool) :
    Option (Option (List UInt8 × Option Nat)) := do
  let enclen := (lpEncodeGetType ele).2
  let width := enclen + (lpEncodeBacklen enclen).length
  let old ← lpGetTotalBytes lp
  let replaced ← (if replace then replacedLen lp poff else some 0)
  let new := old + width - replaced
  if new > UINT32_MAX then some none
  else do
    let lp ← makeRoom junk lp old new poff width replaced
    let lp ← storeEntry lp poff ele
    let lp ← (if replace then some lp else adjustCount lp true)
    some (some (lpSetTotalBytes lp new, some poff))

def deleteAt (junk : UInt8) (lp : List UInt8) (poff : Nat) :
    Option (Option (List UInt8 × Option Nat)) := do
  let old ← lpGetTotalBytes lp
  let replaced ← replacedLen lp poff
  let new := old - replaced
  if new > UINT32_MAX then some none
  else do
    let lp ← makeRoom junk lp old new poff 0 replaced
    let newp ← orEnd lp poff
    let lp ← adjustCount lp false
    some (some (lpSetTotalBytes lp new, newp))

def lpInsert (junk : UInt8) (lp : List UInt8) (ele : Option Sds) (p : Nat) (wh : LpWhere) :
    Option (Option (List UInt8 × Option Nat)) :=
  match ele with
  | none => deleteAt junk lp p
  | some ele =>
    match wh with
    | .before => insertAt junk lp ele p false
    | .after => do
        let p ← lpSkip lp p
        insertAt junk lp ele p false
    | .replace => insertAt junk lp ele p true

def lpAppend (junk : UInt8) (lp : List UInt8) (ele : Sds) : Option (Option (List UInt8)) := do
  let total ← lpGetTotalBytes lp
  let r ← lpInsert junk lp (some ele) (total - 1) .before
  some (r.map Prod.fst)

def lpDelete (junk : UInt8) (lp : List UInt8) (p : Nat) :
    Option (Option (List UInt8 × Option Nat)) :=
  lpInsert junk lp none p .replace

end Listpack

/-!
# Operations
-/

open Listpack

inductive LpOp where
  | insert (i : Nat) (wh : LpWhere) (ele : Sds)
  | append (ele : Sds)
  | delete (i : Nat)
  | length

inductive LpResult where
  /-- there is no such element, and no call -/
  | noElement
  /-- `NULL` -/
  | null
  | done
  /-- `*newp` -/
  | pointer (newp : Option Nat)
  | number (n : Nat)
deriving DecidableEq

inductive LpCrash where
  | outOfBounds
deriving DecidableEq

def lpElement (lp : List UInt8) : Nat -> Option (Option Nat)
  | 0 => lpFirst lp
  | i + 1 => do
      match ← lpElement lp i with
      | none => some none
      | some p => lpNext lp p

def lpFinish (lp : List UInt8) (results : List LpResult)
    (r : Option (Option (List UInt8 × Option Nat))) : Except LpCrash (List UInt8 × List LpResult) :=
  match r with
  | none => .error .outOfBounds
  | some none => .ok (lp, .null :: results)
  | some (some (lp', newp)) => .ok (lp', .pointer newp :: results)

def lpAt (lp : List UInt8) (results : List LpResult) (i : Nat)
    (call : Nat -> Option (Option (List UInt8 × Option Nat))) :
    Except LpCrash (List UInt8 × List LpResult) :=
  match lpElement lp i with
  | none => .error .outOfBounds
  | some none => .ok (lp, .noElement :: results)
  | some (some p) => lpFinish lp results (call p)

def lpStep (junk : UInt8) (op : LpOp) (st : List UInt8 × List LpResult) :
    Except LpCrash (List UInt8 × List LpResult) :=
  let (lp, results) := st
  match op with
  | .insert i wh ele => lpAt lp results i fun p => lpInsert junk lp (some ele) p wh
  | .append ele =>
    match lpAppend junk lp ele with
    | none => .error .outOfBounds
    | some none => .ok (lp, .null :: results)
    | some (some lp) => .ok (lp, .done :: results)
  | .delete i => lpAt lp results i fun p => lpDelete junk lp p
  | .length =>
    match lpLength lp with
    | none => .error .outOfBounds
    | some (lp, n) => .ok (lp, .number n :: results)

end Redisoo
