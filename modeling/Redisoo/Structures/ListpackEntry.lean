import Redisoo.Structures.Listpack

/-!
# Entries of a listpack

What an encoded element is read back as, wherever it stands in a listpack: its size,
its value and, from behind, its length.
-/

namespace Redisoo

open Foundation.Bytes List

namespace Listpack

def encode (e : Sds) : List UInt8 :=
  match lpStringToInt64 e with
  | some v => lpEncodeInt v
  | none => lpEncodeString e

def entry (e : Sds) : List UInt8 :=
  encode e ++ lpEncodeBacklen (encode e).length

structure Reads (enc : List UInt8) (v : LpValue) : Prop where
  size : forall rest, lpCurrentEncodedSize (enc ++ rest) = some enc.length
  get : forall rest, lpGet (enc ++ rest) = some v
  head : exists b tail, enc = b :: tail ∧ b ≠ LP_EOF

/-!
# First bytes
-/

theorem first7Bit : forall x : Fin 128,
    is7BitUint (UInt8.ofNat x) = true ∧ (UInt8.ofNat x &&& 0x7F).toNat = x ∧
      UInt8.ofNat x ≠ LP_EOF := by
  decide +kernel

theorem first6Bit : forall x : Fin 64, let b := UInt8.ofNat (x ||| 0x80)
    is7BitUint b = false ∧ is6BitStr b = true ∧ strLen6 b = x ∧ b ≠ LP_EOF := by
  decide +kernel

theorem first13Bit : forall x : Fin 32, let b := UInt8.ofNat (x ||| 0xC0)
    is7BitUint b = false ∧ is6BitStr b = false ∧ is13BitInt b = true ∧
      (b &&& 0x1F).toNat = x ∧ b ≠ LP_EOF := by
  decide +kernel

theorem first12Bit : forall x : Fin 16, let b := UInt8.ofNat (x ||| 0xE0)
    (is7BitUint b = false ∧ is6BitStr b = false ∧ is13BitInt b = false ∧
      b ≠ LP_ENCODING_16BIT_INT ∧ b ≠ LP_ENCODING_24BIT_INT ∧ b ≠ LP_ENCODING_32BIT_INT ∧
      b ≠ LP_ENCODING_64BIT_INT) ∧
      is12BitStr b = true ∧ (b &&& 0xF).toNat = x ∧ b ≠ LP_EOF := by
  decide +kernel

/-!
# Integers
-/

variable {v : Int} {e : Sds} {rounds shift val l x : Nat}

theorem wrap_lt (bits half : Nat) (hbits : 2 ^ bits = 2 * half) (hlow : -(half : Int) ≤ v)
    (hhigh : v < half) : wrap bits v < 2 ^ bits := by
  unfold wrap
  split
  · lia
  · lia

theorem signed_wrap (bits half : Nat) (hbits : 2 ^ bits = 2 * half) (hlow : -(half : Int) ≤ v)
    (hhigh : v < half) : signed (wrap bits v) half (2 ^ bits - 1) = v := by
  have hcast : (2 : Int) ^ bits = 2 * half := by exact_mod_cast hbits
  unfold signed wrap
  rw [hcast, hbits]
  by_cases hneg : v < 0
  · rw [if_pos hneg, if_pos (by lia)]
    lia
  · rw [if_neg hneg, if_neg (by lia)]
    lia

theorem reads_7bit (hlow : 0 ≤ v) (hhigh : v ≤ 127) : Reads [UInt8.ofNat v.toNat] (.int v) := by
  rcases first7Bit ⟨v.toNat, by lia⟩ with ⟨his, hval, hne⟩
  dsimp only at his hval hne
  constructor
  · intro rest
    simp only [cons_append, lpCurrentEncodedSize, his, if_true, length_cons, length_nil]
  · intro rest
    have hsigned : signed v.toNat UINT64_MAX 0 = v := by
      unfold signed UINT64_MAX
      rw [if_neg (by lia)]
      lia
    simp only [cons_append, lpGet, his, if_true, hval, hsigned]
  · exact ⟨_, _, rfl, hne⟩

theorem reads_13bit (hlow : -4096 ≤ v) (hhigh : v ≤ 4095) :
    Reads [UInt8.ofNat (wrap 13 v / 256 ||| 0xC0), UInt8.ofNat (wrap 13 v)] (.int v) := by
  have hlt : wrap 13 v < 2 ^ 13 := wrap_lt 13 4096 rfl hlow (by lia)
  rcases first13Bit ⟨wrap 13 v / 256, by lia⟩ with ⟨hno7, hno6, his, hval, hne⟩
  dsimp only at hno7 hno6 his hval hne
  constructor
  · intro rest
    simp only [cons_append, lpCurrentEncodedSize, hno7, hno6, his, if_true, if_false,
      Bool.false_eq_true, length_cons, length_nil]
  · intro rest
    have hsum : wrap 13 v / 256 * 256 + (UInt8.ofNat (wrap 13 v)).toNat = wrap 13 v := by
      rw [UInt8.toNat_ofNat']
      lia
    have hsigned : signed (wrap 13 v) (2 ^ 12) 8191 = v := signed_wrap 13 4096 rfl hlow (by lia)
    simp only [cons_append, lpGet, hno7, hno6, his, if_true, if_false,
      Bool.false_eq_true, hval, List.head?_cons, Option.map_some, hsum, hsigned]
  · exact ⟨_, _, rfl, hne⟩

theorem reads_bytes (k half : Nat) {b : UInt8} (hne : b ≠ LP_EOF)
    (hsize : forall rest, lpCurrentEncodedSize (b :: rest) = some (k + 1))
    (hget : forall rest, lpGet (b :: rest) =
      (readLe k rest).map fun uval => .int (signed uval half (2 ^ (8 * k) - 1)))
    (hbits : 2 ^ (8 * k) = 2 * half) (hlow : -(half : Int) ≤ v) (hhigh : v < half) :
    Reads (b :: le k (wrap (8 * k) v)) (.int v) := by
  have hlt : wrap (8 * k) v < 256 ^ k := by
    have hpow : 256 ^ k = 2 ^ (8 * k) := by
      rw [Nat.pow_mul]
    rw [hpow]
    exact wrap_lt _ half hbits hlow hhigh
  constructor
  · intro rest
    rw [cons_append, hsize, length_cons, le_length]
  · intro rest
    rw [cons_append, hget, readLe_le hlt, Option.map_some, signed_wrap _ half hbits hlow hhigh]
  · exact ⟨_, _, rfl, hne⟩

theorem reads_int (hrange : Util.LLONG_MIN ≤ v ∧ v ≤ Util.LLONG_MAX) :
    Reads (lpEncodeInt v) (.int v) := by
  unfold Util.LLONG_MIN Util.LLONG_MAX at hrange
  unfold lpEncodeInt
  split
  · rename_i h
    exact reads_7bit h.left h.right
  split
  · rename_i h
    exact reads_13bit h.left h.right
  split
  · rename_i h
    exact reads_bytes 2 (2 ^ 15) (by decide) (fun _ => rfl) (fun _ => rfl) rfl h.left (by lia)
  split
  · rename_i h
    exact reads_bytes 3 (2 ^ 23) (by decide) (fun _ => rfl) (fun _ => rfl) rfl h.left (by lia)
  split
  · rename_i h
    exact reads_bytes 4 (2 ^ 31) (by decide) (fun _ => rfl) (fun _ => rfl) rfl h.left (by lia)
  · exact reads_bytes 8 (2 ^ 63) (by decide) (fun _ => rfl) (fun _ => rfl) rfl hrange.left (by lia)

/-!
# Strings
-/

theorem slice_append (s rest : Sds) : slice s.length (s ++ rest) = some (.str s) := by
  unfold slice
  rw [if_pos (by rw [length_append]; lia), take_left]

theorem reads_string {s : Sds} (hlen : s.length + 5 < 2 ^ 32) :
    Reads (lpEncodeString s) (.str s) := by
  unfold lpEncodeString
  split
  · rename_i hsmall
    rcases first6Bit ⟨s.length, hsmall⟩ with ⟨hno7, his, hval, hne⟩
    dsimp only at hno7 his hval hne
    constructor
    · intro rest
      simp only [cons_append, lpCurrentEncodedSize, hno7, his, if_true, if_false,
        Bool.false_eq_true, hval, length_cons, Nat.add_comm]
    · intro rest
      simp only [cons_append, lpGet, hno7, his, if_true, if_false, Bool.false_eq_true,
        hval, slice_append]
    · exact ⟨_, _, rfl, hne⟩
  split
  · rename_i hsmall
    rcases first12Bit ⟨s.length / 256, by lia⟩ with
      ⟨⟨hno7, hno6, hno13, hno16, hno24, hno32, hno64⟩, his, hval, hne⟩
    dsimp only at hno7 hno6 hno13 hno16 hno24 hno32 hno64 his hval hne
    have hstr : strLen12 (UInt8.ofNat (s.length / 256 ||| 0xE0)) (UInt8.ofNat s.length) =
        s.length := by
      unfold strLen12
      rw [hval, UInt8.toNat_ofNat']
      lia
    constructor
    · intro rest
      simp only [cons_append, lpCurrentEncodedSize, hno7, hno6, hno13, hno16, hno24, hno32,
        hno64, his, if_true, if_false, Bool.false_eq_true, List.head?_cons, Option.map_some, hstr,
        length_cons]
      congr 1
      lia
    · intro rest
      simp only [cons_append, lpGet, hno7, hno6, hno13, hno16, hno24, hno32,
        hno64, his, if_true, if_false, Bool.false_eq_true, hstr, slice_append]
    · exact ⟨_, _, rfl, hne⟩
  · have hlt : s.length < 256 ^ 4 := by lia
    constructor
    · intro rest
      have hsize : forall tail, lpCurrentEncodedSize (LP_ENCODING_32BIT_STR :: tail) =
          (readLe 4 tail).map fun n => (5 + n) % 2 ^ 32 := fun _ => rfl
      rw [cons_append, hsize, append_assoc, readLe_le hlt, Option.map_some,
        Nat.mod_eq_of_lt (by lia), length_cons, length_append, le_length]
      congr 1
      lia
    · intro rest
      have hget : forall tail n, readLe 4 tail = some n ->
          lpGet (LP_ENCODING_32BIT_STR :: tail) = slice n (tail.drop 4) := by
        intro tail n h
        simp only [lpGet, h]
        rfl
      rw [cons_append, append_assoc, hget _ _ (readLe_le hlt _),
        drop_left' (le_length 4 s.length), slice_append]
    · exact ⟨_, _, rfl, by decide⟩

theorem reads_encode (hlen : e.length + 5 < 2 ^ 32) :
    exists v, Reads (encode e) v ∧ v.string = e := by
  unfold encode
  cases hint : lpStringToInt64 e with
  | some v => exact ⟨.int v, reads_int (Util.string2ll_range hint), Util.ll2string_string2ll hint⟩
  | none => exact ⟨.str e, reads_string hlen, rfl⟩

/-!
# Lengths
-/

theorem lpEncodeInt_length (v : Int) : (lpEncodeInt v).length ≤ 9 := by
  unfold lpEncodeInt
  (repeat' split) <;> simp

theorem lpEncodeString_length (s : Sds) : (lpEncodeString s).length =
      if s.length < 64 then 1 + s.length
      else if s.length < 4096 then 2 + s.length
      else 5 + s.length := by
  unfold lpEncodeString
  split
  · rw [length_cons, Nat.add_comm]
  split
  · rw [length_cons, length_cons]
    lia
  · rw [length_cons, length_append, le_length]
    lia

theorem encode_length_lt (hlen : e.length + 5 < 2 ^ 32) : (encode e).length < 2 ^ 32 := by
  unfold encode
  split
  · rename_i v _
    have h := lpEncodeInt_length v
    lia
  rw [lpEncodeString_length]
  split
  · lia
  split
  · lia
  · lia

theorem lpEncodeGetType_length (hlen : e.length + 5 < 2 ^ 32) :
    (lpEncodeGetType e).2 = (encode e).length := by
  unfold lpEncodeGetType encode
  cases lpStringToInt64 e with
  | some v => rfl
  | none =>
    dsimp only
    rw [lpEncodeString_length, Nat.mod_eq_of_lt (by lia)]

theorem more_toNat (l : Nat) : (more l).toNat = l % 128 + 128 := by
  have htable : forall x : Fin 128, (UInt8.ofNat (x ||| 128)).toNat = x + 128 := by
    decide +kernel
  exact htable ⟨l % 128, Nat.mod_lt _ (by lia)⟩

theorem lpEncodeBacklen_pos (l : Nat) : 0 < (lpEncodeBacklen l).length := by
  unfold lpEncodeBacklen
  (repeat' split) <;> simp

theorem decodeBacklen_last {rest : List UInt8} (h : l < 128) :
    decodeBacklenFrom (rounds + 1) shift val (UInt8.ofNat l :: rest) =
      some (val + l * 2 ^ shift) := by
  have hl : (UInt8.ofNat l).toNat = l := by
    rw [UInt8.toNat_ofNat']
    lia
  simp only [decodeBacklenFrom, hl, if_pos h, Nat.mod_eq_of_lt h]

theorem decodeBacklen_more {rest : List UInt8} :
    decodeBacklenFrom (rounds + 1) shift val (more l :: rest) =
      decodeBacklenFrom rounds (shift + 7) (val + l % 128 * 2 ^ shift) rest := by
  have hge : Not ((more l).toNat < 128) := by
    rw [more_toNat]
    lia
  have hmod : (more l).toNat % 128 = l % 128 := by
    rw [more_toNat]
    lia
  simp only [decodeBacklenFrom, if_neg hge, hmod]

theorem lpDecodeBacklen_encode (hl : l < 2 ^ 35) (before : List UInt8) :
    lpDecodeBacklen ((lpEncodeBacklen l).reverse ++ before) = some l := by
  unfold lpDecodeBacklen lpEncodeBacklen
  -- One case for each width; the first byte written is the last one read.
  split_ifs
  all_goals
    simp only [reverse_cons, reverse_nil, nil_append, cons_append, decodeBacklen_more]
    rw [decodeBacklen_last (by omega)]
    congr 1
    omega

theorem entry_length (e : Sds) :
    (entry e).length = (encode e).length + (lpEncodeBacklen (encode e).length).length := by
  rw [entry, length_append]

end Listpack
end Redisoo
