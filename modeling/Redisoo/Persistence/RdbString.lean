import Redisoo.Foundation.Bytes
import Redisoo.Foundation.Stdio
import Redisoo.Util.Decimal

/-!
# Lengths and strings in an RDB file

The codes of `rdb.c` that every value is made of: a length in one, two, five or nine
bytes, and a string that is saved as an integer, compressed, or as it is.  A writer is
the bytes it writes; a reader takes the bytes that are left of the file.
-/

namespace Redisoo

open Foundation.Bytes Foundation.Stdio List

namespace Rdb

inductive RdbError where
  /-- `goto eoferr` -/
  | shortRead
  | corrupt (text : String)
  | wrongSignature
  | wrongVersion
  | tooManyDatabases
  | duplicatedKey
  /-- a value of a module or in the form of an older version, which are not modelled -/
  | module
  | fuel
deriving DecidableEq

abbrev Reader (α : Type) := List UInt8 -> Except RdbError (α × List UInt8)

def rioRead (n : Nat) : Reader (List UInt8) := fun p =>
  if n ≤ p.length then .ok (p.take n, p.drop n) else .error .shortRead

/-!
# Lengths
-/

def RDB_LENERR : Nat := 18446744073709551615

def rdbSaveLen (len : Nat) : List UInt8 :=
  if len < 2 ^ 6 then [UInt8.ofNat len]
  else if len < 2 ^ 14 then [UInt8.ofNat (len / 256 ||| 0x40), UInt8.ofNat len]
  else if len ≤ 4294967295 then 0x80 :: be 4 len
  else 0x81 :: be 8 len

def readBeOrFail (k : Nat) (p : List UInt8) : Except RdbError ((Bool × Nat) × List UInt8) :=
  match readBe k p with
  | none => .error .shortRead
  | some len => .ok ((false, len), p.drop k)

def rdbLoadLenByRef : Reader (Bool × Nat)
  | [] => .error .shortRead
  | b :: p =>
    let type := b.toNat / 64
    if type = 3 then .ok ((true, b.toNat % 64), p)
    else if type = 0 then .ok ((false, b.toNat % 64), p)
    else if type = 1 then
      match p with
      | [] => .error .shortRead
      | b1 :: p => .ok ((false, b.toNat % 64 * 256 + b1.toNat), p)
    else if b = 0x80 then readBeOrFail 4 p
    else if b = 0x81 then readBeOrFail 8 p
    else .error (.corrupt ("Unknown length encoding " ++ toString type ++ " in rdbLoadLen()"))

/-- `rdbLoadLen` whose result is compared with `RDB_LENERR`. -/
def rdbLoadLen : Reader Nat := fun p => do
  let ((_, len), p) ← rdbLoadLenByRef p
  if len = RDB_LENERR then .error .shortRead else .ok (len, p)

/-!
# Integers
-/

def RDB_ENC_INT8 : Nat := 0

def RDB_ENC_INT16 : Nat := 1

def RDB_ENC_INT32 : Nat := 2

def RDB_ENC_LZF : Nat := 3

def encval (enc : Nat) : UInt8 :=
  UInt8.ofNat (192 ||| enc)

def rdbEncodeInteger (value : Int) : Option (List UInt8) :=
  if value ≥ -128 ∧ value ≤ 127 then some (encval RDB_ENC_INT8 :: leInt 1 value)
  else if value ≥ -32768 ∧ value ≤ 32767 then some (encval RDB_ENC_INT16 :: leInt 2 value)
  else if value ≥ -2147483648 ∧ value ≤ 2147483647 then
    some (encval RDB_ENC_INT32 :: leInt 4 value)
  else none

def rdbLoadIntegerObject (enctype : Nat) : Reader Sds := fun p =>
  let load (k : Nat) : Except RdbError (Sds × List UInt8) :=
    match readLeInt k p with
    | none => .error .shortRead
    | some val => .ok (Util.ll2string val, p.drop k)
  if enctype = RDB_ENC_INT8 then load 1
  else if enctype = RDB_ENC_INT16 then load 2
  else if enctype = RDB_ENC_INT32 then load 4
  else .error (.corrupt ("Unknown RDB integer encoding type " ++ toString enctype))

/-- A string that is the decimal of its value ends where `strtoll` stops, so the test of
`endptr` adds nothing. -/
def rdbTryIntegerEncoding (s : Sds) : Option (List UInt8) :=
  if Util.ll2string (strtol s) ≠ s then none else rdbEncodeInteger (strtol s)

/-!
# Strings
-/

/-- `lzf_compress` with the room for its output and `lzf_decompress` with the length of
its output; zero is no result.  Both take lengths as `unsigned int`. -/
structure Lzf where
  compress : List UInt8 -> Nat -> Option (List UInt8)
  decompress : List UInt8 -> Nat -> Option (List UInt8)
  fits : forall {s out : List UInt8} {n : Nat}, compress s n = some out -> out.length ≤ n
  inverts : forall {s out : List UInt8} {n : Nat}, s.length < 2 ^ 32 ->
    compress s n = some out -> decompress out s.length = some s

def Lzf.never : Lzf where
  compress := fun _ _ => none
  decompress := fun _ _ => none
  fits := fun h => nomatch h
  inverts := fun _ h => nomatch h

section Strings

variable (lzf : Lzf) (rdbCompression : Bool)

def rdbSaveLzfBlob (data : List UInt8) (originalLen : Nat) : List UInt8 :=
  encval RDB_ENC_LZF :: (rdbSaveLen data.length ++ (rdbSaveLen originalLen ++ data))

def rdbSaveLzfStringObject (s : Sds) : Option (List UInt8) :=
  if s.length ≤ 4 then none
  else
    (lzf.compress (s.take (s.length % 2 ^ 32)) ((s.length - 4) % 2 ^ 32)).map fun out =>
      rdbSaveLzfBlob out s.length

def rdbLoadLzfStringObject : Reader Sds := fun p => do
  let (clen, p) ← rdbLoadLen p
  let (len, p) ← rdbLoadLen p
  let (c, p) ← rioRead clen p
  match lzf.decompress (c.take (clen % 2 ^ 32)) (len % 2 ^ 32) with
  | none => .error (.corrupt "Invalid LZF compressed string")
  | some val =>
    -- what is not written of the buffer stays as it was allocated
    .ok (val ++ replicate (len - val.length) 0, p)

def saveVerbatim (s : Sds) : List UInt8 :=
  rdbSaveLen s.length ++ s

def rdbSaveRawString (s : Sds) : List UInt8 :=
  match if s.length ≤ 11 then rdbTryIntegerEncoding s else none with
  | some enc => enc
  | none =>
    match if rdbCompression ∧ s.length > 20 then rdbSaveLzfStringObject lzf s else none with
    | some blob => blob
    | none => saveVerbatim s

def rdbSaveLongLongAsStringObject (value : Int) : List UInt8 :=
  match rdbEncodeInteger value with
  | some enc => enc
  | none => saveVerbatim (Util.ll2string value)

def rdbGenericLoadStringObject : Reader Sds := fun p => do
  let ((isencoded, len), p) ← rdbLoadLenByRef p
  if isencoded then
    if len = RDB_ENC_INT8 ∨ len = RDB_ENC_INT16 ∨ len = RDB_ENC_INT32 then
      rdbLoadIntegerObject len p
    else if len = RDB_ENC_LZF then rdbLoadLzfStringObject lzf p
    else .error (.corrupt ("Unknown RDB string encoding type " ++ toString len))
  else if len = RDB_LENERR then .error .shortRead
  else rioRead len p

end Strings

/-!
# Round trips
-/

def ReadsBack {α : Type} (read : Reader α) (bytes : List UInt8) (a : α) : Prop :=
  forall rest, read (bytes ++ rest) = .ok (a, rest)

theorem rioRead_append (s : List UInt8) : ReadsBack (rioRead s.length) s s := by
  intro rest
  unfold rioRead
  rw [if_pos (by rw [length_append]; lia), take_left, drop_left]

theorem or_64 (x : Fin 64) : x.val ||| 0x40 = 64 + x.val := by
  revert x
  decide

variable {len enc k : Nat}

theorem rdbLoadLenByRef_save (h : len < 2 ^ 64) :
    ReadsBack rdbLoadLenByRef (rdbSaveLen len) (false, len) := by
  intro rest
  unfold rdbSaveLen
  split
  · rename_i hlen
    have hbyte : (UInt8.ofNat len).toNat = len := by
      rw [UInt8.toNat_ofNat']
      lia
    simp only [cons_append, nil_append, rdbLoadLenByRef, hbyte]
    rw [if_neg (by lia), if_pos (by lia), Nat.mod_eq_of_lt (show len < 64 by lia)]
  · split
    · rename_i hlen
      have hfirst : (UInt8.ofNat (len / 256 ||| 0x40)).toNat = 64 + len / 256 := by
        rw [or_64 ⟨len / 256, by lia⟩, UInt8.toNat_ofNat']
        lia
      have hvalue : (64 + len / 256) % 64 * 256 + (UInt8.ofNat len).toNat = len := by
        rw [UInt8.toNat_ofNat']
        lia
      simp only [cons_append, nil_append, rdbLoadLenByRef, hfirst]
      rw [if_neg (by lia), if_neg (by lia), if_pos (by lia), hvalue]
    · split
      · rename_i hlen
        have hread : readBe 4 (be 4 len ++ rest) = some len := readBe_be (by lia) rest
        have hdrop : (be 4 len ++ rest).drop 4 = rest := drop_left' (be_length 4 len)
        simp only [cons_append, rdbLoadLenByRef, readBeOrFail, hread, hdrop]
        rfl
      · have hread : readBe 8 (be 8 len ++ rest) = some len := readBe_be (by lia) rest
        have hdrop : (be 8 len ++ rest).drop 8 = rest := drop_left' (be_length 8 len)
        simp only [cons_append, rdbLoadLenByRef, readBeOrFail, hread, hdrop]
        rfl

theorem rdbLoadLen_save (h : len < RDB_LENERR) : ReadsBack rdbLoadLen (rdbSaveLen len) len := by
  intro rest
  have hlt : len < 2 ^ 64 := by
    unfold RDB_LENERR at h
    lia
  simp only [rdbLoadLen, bind, Except.bind, rdbLoadLenByRef_save hlt rest]
  rw [if_neg (by lia)]

theorem rdbLoadLenByRef_encval (h : enc ≤ 3) :
    ReadsBack rdbLoadLenByRef [encval enc] (true, enc) := by
  intro rest
  have hcases : enc = 0 ∨ enc = 1 ∨ enc = 2 ∨ enc = 3 := by lia
  rcases hcases with rfl | rfl | rfl | rfl <;> rfl

variable (lzf : Lzf)

theorem load_integer {value : Int} (henc : enc ≤ 2)
    (hk : (enc = 0 ∧ k = 1) ∨ (enc = 1 ∧ k = 2) ∨ (enc = 2 ∧ k = 4)) (hv : SignedIn k value) :
    ReadsBack (rdbGenericLoadStringObject lzf) (encval enc :: leInt k value)
      (Util.ll2string value) := by
  intro rest
  have hlen : rdbLoadLenByRef (encval enc :: leInt k value ++ rest) =
      .ok ((true, enc), leInt k value ++ rest) :=
    rdbLoadLenByRef_encval (by lia) (leInt k value ++ rest)
  have hread : readLeInt k (leInt k value ++ rest) = some value := readLeInt_leInt hv rest
  have hdrop : (leInt k value ++ rest).drop k = rest := drop_left' (leInt_length k value)
  have hint : rdbLoadIntegerObject enc (leInt k value ++ rest) =
      .ok (Util.ll2string value, rest) := by
    rcases hk with ⟨rfl, rfl⟩ | ⟨rfl, rfl⟩ | ⟨rfl, rfl⟩ <;>
      simp [rdbLoadIntegerObject, RDB_ENC_INT8, RDB_ENC_INT16, RDB_ENC_INT32, hread, hdrop]
  have hcase : enc = RDB_ENC_INT8 ∨ enc = RDB_ENC_INT16 ∨ enc = RDB_ENC_INT32 := by
    unfold RDB_ENC_INT8 RDB_ENC_INT16 RDB_ENC_INT32
    lia
  simp only [rdbGenericLoadStringObject, bind, Except.bind, hlen, if_true]
  rw [if_pos hcase, hint]

theorem rdbEncodeInteger_load {value : Int} {enc : List UInt8}
    (h : rdbEncodeInteger value = some enc) :
    ReadsBack (rdbGenericLoadStringObject lzf) enc (Util.ll2string value) := by
  unfold rdbEncodeInteger at h
  split at h
  · injection h with h
    subst h
    exact load_integer lzf (by decide) (Or.inl ⟨rfl, rfl⟩) (by unfold SignedIn; lia)
  split at h
  · injection h with h
    subst h
    exact load_integer lzf (by decide) (Or.inr (Or.inl ⟨rfl, rfl⟩)) (by unfold SignedIn; lia)
  split at h
  · injection h with h
    subst h
    exact load_integer lzf (by decide) (Or.inr (Or.inr ⟨rfl, rfl⟩)) (by unfold SignedIn; lia)
  · cases h

theorem saveVerbatim_load {s : Sds} (hs : s.length < RDB_LENERR) :
    ReadsBack (rdbGenericLoadStringObject lzf) (saveVerbatim s) s := by
  intro rest
  have hlen : rdbLoadLenByRef (saveVerbatim s ++ rest) = .ok ((false, s.length), s ++ rest) := by
    unfold saveVerbatim
    rw [append_assoc]
    apply rdbLoadLenByRef_save
    unfold RDB_LENERR at hs
    lia
  simp only [rdbGenericLoadStringObject, bind, Except.bind, hlen, Bool.false_eq_true, if_false]
  rw [if_neg (by lia), rioRead_append]

theorem rdbSaveLzfBlob_load {lzf : Lzf} {s : Sds} {out : List UInt8} {n : Nat}
    (hs : s.length < 2 ^ 32) (hn : n < 2 ^ 32) (hc : lzf.compress s n = some out) :
    ReadsBack (rdbGenericLoadStringObject lzf) (rdbSaveLzfBlob out s.length) s := by
  intro rest
  have hout := lzf.fits hc
  have hencval : rdbLoadLenByRef (rdbSaveLzfBlob out s.length ++ rest) =
      .ok ((true, RDB_ENC_LZF), rdbSaveLen out.length ++ (rdbSaveLen s.length ++ (out ++ rest))) := by
    unfold rdbSaveLzfBlob
    rw [cons_append, append_assoc, append_assoc]
    exact rdbLoadLenByRef_encval (Nat.le_refl 3) _
  have hclen := rdbLoadLen_save (show out.length < RDB_LENERR by unfold RDB_LENERR; lia)
    (rdbSaveLen s.length ++ (out ++ rest))
  have hslen := rdbLoadLen_save (show s.length < RDB_LENERR by unfold RDB_LENERR; lia) (out ++ rest)
  have hload : rdbLoadLzfStringObject lzf
      (rdbSaveLen out.length ++ (rdbSaveLen s.length ++ (out ++ rest))) = .ok (s, rest) := by
    simp only [rdbLoadLzfStringObject, bind, Except.bind, hclen, hslen, rioRead_append out rest,
      Nat.mod_eq_of_lt hs, Nat.mod_eq_of_lt (show out.length < 2 ^ 32 by lia), take_length,
      lzf.inverts hs hc, Nat.sub_self, replicate_zero, append_nil]
  simp only [rdbGenericLoadStringObject, bind, Except.bind, hencval, if_true]
  rw [if_neg (by decide), hload]

theorem rdbSaveLzfStringObject_load {lzf : Lzf} {s : Sds} {blob : List UInt8}
    (hs : s.length < 2 ^ 32) (h : rdbSaveLzfStringObject lzf s = some blob) :
    ReadsBack (rdbGenericLoadStringObject lzf) blob s := by
  unfold rdbSaveLzfStringObject at h
  rw [Nat.mod_eq_of_lt hs, take_length] at h
  split at h
  · cases h
  rcases Option.map_eq_some_iff.mp h with ⟨out, hc, rfl⟩
  exact rdbSaveLzfBlob_load hs (Nat.mod_lt _ (by decide)) hc

theorem rdbSaveLongLongAsStringObject_load {value : Int} (h : SignedIn 8 value) :
    ReadsBack (rdbGenericLoadStringObject lzf) (rdbSaveLongLongAsStringObject value)
      (Util.ll2string value) := by
  unfold rdbSaveLongLongAsStringObject
  split
  · rename_i enc henc
    exact rdbEncodeInteger_load lzf henc
  · have hlen := Util.ll2string_length value (by
      unfold SignedIn at h
      unfold Util.LLONG_MIN Util.LLONG_MAX
      lia)
    exact saveVerbatim_load lzf (by unfold RDB_LENERR; lia)

theorem rdbSaveRawString_load (rdbCompression : Bool) {s : Sds} (hs : s.length < 2 ^ 32) :
    ReadsBack (rdbGenericLoadStringObject lzf) (rdbSaveRawString lzf rdbCompression s) s := by
  unfold rdbSaveRawString
  split
  · rename_i enc henc
    split at henc
    · unfold rdbTryIntegerEncoding at henc
      split at henc
      · cases henc
      · rename_i hsame
        have hload := rdbEncodeInteger_load lzf henc
        rw [not_not.mp hsame] at hload
        exact hload
    · cases henc
  · split
    · rename_i blob hblob
      split at hblob
      · exact rdbSaveLzfStringObject_load hs hblob
      · cases hblob
    · exact saveVerbatim_load lzf (by unfold RDB_LENERR; lia)

end Rdb

end Redisoo
