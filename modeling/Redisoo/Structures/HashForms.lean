import Mathlib.Data.Finmap
import Redisoo.Structures.HashType
import Redisoo.Structures.SetForms

/-!
# The encodings of hashes

Whatever its encoding, a hash is a finite map of byte strings, and the conversion of a
ziplist neither loses an entry nor finds a field twice.
-/

namespace Redisoo

open Foundation Foundation.Bytes List Function Finmap HashType Dict

variable {hash : Sds -> Nat}

/-!
# Pairs in a ziplist
-/

def flat (pairs : List (Sds × Sds)) : List ZlEntry :=
  pairs.flatMap fun x => [zipEntry x.1, zipEntry x.2]

theorem flat_nil : flat [] = [] := rfl

theorem flat_cons (x : Sds × Sds) (pairs : List (Sds × Sds)) :
    flat (x :: pairs) = zipEntry x.1 :: zipEntry x.2 :: flat pairs := rfl

theorem flat_append (a b : List (Sds × Sds)) : flat (a ++ b) = flat a ++ flat b := flatMap_append

theorem flat_length (pairs : List (Sds × Sds)) : (flat pairs).length = 2 * pairs.length := by
  induction pairs with
  | nil => rfl
  | cons x pairs ih =>
    rw [flat_cons, length_cons, length_cons, length_cons, ih]
    lia

variable {pairs : List (Sds × Sds)} {f : Sds} {a es : List (Sds × Sds)}

theorem findFrom_absent (h : f ∉ pairs.map Prod.fst) (p : Nat) :
    ziplistFindFrom f 1 0 p (flat pairs) = none := by
  induction pairs generalizing p with
  | nil => rfl
  | cons x pairs ih =>
    rw [map_cons, mem_cons, not_or] at h
    rw [flat_cons, ziplistFindFrom, zipEntry_equals, decide_eq_false (Ne.symm h.left),
      if_neg Bool.false_ne_true, ziplistFindFrom]
    exact ih h.right (p + 1 + 1)

theorem findFrom_at (h : f ∉ a.map Prod.fst) (v : Sds) (b : List (Sds × Sds)) (p : Nat) :
    ziplistFindFrom f 1 0 p (flat (a ++ (f, v) :: b)) = some (p + 2 * a.length) := by
  induction a generalizing p with
  | nil =>
    rw [nil_append, flat_cons, ziplistFindFrom, zipEntry_equals, decide_eq_true rfl, if_pos rfl]
    rfl
  | cons x a ih =>
    rw [map_cons, mem_cons, not_or] at h
    rw [cons_append, flat_cons, ziplistFindFrom, zipEntry_equals,
      decide_eq_false (Ne.symm h.left), if_neg Bool.false_ne_true, ziplistFindFrom,
      ih h.right (p + 1 + 1), length_cons]
    congr 1
    lia

theorem find_absent (hf : f.length < 2 ^ 32) (h : f ∉ pairs.map Prod.fst) :
    ((ziplistIndex (flat pairs) 0).bind fun fptr => ziplistFind (flat pairs) fptr f 1) = none := by
  unfold ziplistIndex
  split
  · rw [Option.bind_some, ziplistFind, asUint_of_small hf, drop_zero]
    exact findFrom_absent h 0
  · rfl

theorem find_at (hf : f.length < 2 ^ 32) (h : f ∉ a.map Prod.fst) (v : Sds) (b : List (Sds × Sds)) :
    ((ziplistIndex (flat (a ++ (f, v) :: b)) 0).bind fun fptr =>
      ziplistFind (flat (a ++ (f, v) :: b)) fptr f 1) = some (2 * a.length) := by
  have hpos : 0 < (flat (a ++ (f, v) :: b)).length := by
    rw [flat_length, length_append, length_cons]
    lia
  unfold ziplistIndex
  rw [if_pos hpos, Option.bind_some, ziplistFind, asUint_of_small hf, drop_zero,
    findFrom_at h v b 0, Nat.zero_add]

section At

variable (a b : List (Sds × Sds)) (f v : Sds)

theorem flat_at : flat (a ++ (f, v) :: b) = flat a ++ (zipEntry f :: zipEntry v :: flat b) := by
  rw [flat_append, flat_cons]

theorem next_at : ziplistNext (flat (a ++ (f, v) :: b)) (2 * a.length) = some (2 * a.length + 1) := by
  unfold ziplistNext
  rw [if_pos]
  rw [flat_length, length_append, length_cons]
  lia

theorem get_field : ziplistGet (flat (a ++ (f, v) :: b)) (2 * a.length) = some (zipEntry f) := by
  unfold ziplistGet
  rw [flat_at, List.getElem?_append_right (by rw [flat_length]), flat_length, Nat.sub_self]
  rfl

theorem get_value :
    ziplistGet (flat (a ++ (f, v) :: b)) (2 * a.length + 1) = some (zipEntry v) := by
  unfold ziplistGet
  rw [flat_at, List.getElem?_append_right (by rw [flat_length]; lia), flat_length,
    Nat.add_sub_cancel_left]
  rfl

theorem take_flat (rest : List ZlEntry) (n : Nat) :
    (flat a ++ rest).take (2 * a.length + n) = flat a ++ rest.take n := by
  rw [← flat_length, take_length_add_append]

theorem drop_flat (rest : List ZlEntry) (n : Nat) :
    (flat a ++ rest).drop (2 * a.length + n) = rest.drop n := by
  rw [← flat_length, drop_length_add_append]

theorem replace_value (v' : Sds) (hv' : v'.length < 2 ^ 32)
    (hbytes : widestBytes (flat (a ++ (f, v') :: b)) < 2 ^ 32) :
    ziplistInsert (ziplistDelete (flat (a ++ (f, v) :: b)) (2 * a.length + 1)) (2 * a.length + 1)
      v' = some (flat (a ++ (f, v') :: b)) := by
  have hdelete : ziplistDelete (flat (a ++ (f, v) :: b)) (2 * a.length + 1) =
      flat a ++ zipEntry f :: flat b := by
    unfold ziplistDelete
    rw [flat_at, take_flat, Nat.add_assoc, drop_flat]
    simp
  have hinsert : (flat a ++ zipEntry f :: flat b).take (2 * a.length + 1) ++
      zipEntry v' :: (flat a ++ zipEntry f :: flat b).drop (2 * a.length + 1) =
        flat (a ++ (f, v') :: b) := by
    rw [take_flat, drop_flat, flat_at]
    simp
  unfold ziplistInsert
  rw [hdelete, asUint_of_small hv', hinsert]
  exact if_pos hbytes

theorem delete_pair :
    ziplistDelete (ziplistDelete (flat (a ++ (f, v) :: b)) (2 * a.length)) (2 * a.length) =
      flat (a ++ b) := by
  have htake : forall rest, (flat a ++ rest).take (2 * a.length) = flat a := by
    intro rest
    have h := take_flat a rest 0
    rwa [Nat.add_zero, take_zero, append_nil] at h
  unfold ziplistDelete
  rw [flat_at, htake, drop_flat, htake, drop_flat, flat_append]
  rfl

end At

theorem push_pair {v : Sds} (hf : f.length < 2 ^ 32) (hv : v.length < 2 ^ 32)
    (hbytes : widestBytes (flat pairs) + (14 + f.length) + (14 + v.length) < 2 ^ 32) :
    ((ziplistPush (flat pairs) f).bind fun zl => ziplistPush zl v) =
      some (flat (pairs ++ [(f, v)])) := by
  have hwf := widest_le f
  have hwv := widest_le v
  have hfirst : ziplistPush (flat pairs) f = some (flat pairs ++ [zipEntry f]) := by
    unfold ziplistPush ziplistInsert
    rw [take_length, drop_length, asUint_of_small hf]
    refine if_pos ?_
    rw [widestBytes_append]
    simp only [map_cons, map_nil, sum_cons, sum_nil]
    lia
  rw [hfirst, Option.bind_some, flat_append]
  unfold ziplistPush ziplistInsert
  rw [take_length, drop_length, asUint_of_small hv, append_assoc]
  refine if_pos ?_
  rw [widestBytes_append]
  simp only [map_cons, map_nil, sum_cons, sum_nil, cons_append, nil_append]
  lia

theorem pairs_from (a b : List (Sds × Sds)) {fuel : Nat} (hfuel : b.length < fuel) :
    ziplistPairs (flat (a ++ b)) fuel (if b = [] then none else some (2 * a.length)) = .ok b := by
  induction b generalizing a fuel with
  | nil =>
    rw [if_pos rfl]
    cases fuel with
    | zero => rfl
    | succ fuel => rfl
  | cons x b ih =>
    rcases x with ⟨f, v⟩
    cases fuel with
    | zero => lia
    | succ fuel =>
      have hnext : ziplistNext (flat (a ++ (f, v) :: b)) (2 * a.length + 1) =
          if b = [] then none else some (2 * (a ++ [(f, v)]).length) := by
        unfold ziplistNext
        rw [flat_length, length_append, length_append, length_cons]
        by_cases hb : b = []
        · rw [if_pos hb, if_neg]
          rw [hb, length_nil]
          lia
        · have hpos := length_pos_of_ne_nil hb
          rw [if_neg hb, if_pos (by lia)]
          congr 1
      have hassoc : a ++ (f, v) :: b = (a ++ [(f, v)]) ++ b := by simp
      have hshort : b.length < fuel := by
        rw [length_cons] at hfuel
        lia
      have hrest := ih (a ++ [(f, v)]) hshort
      rw [if_neg (cons_ne_nil _ _)]
      simp only [ziplistPairs, next_at, get_field, get_value, hnext, zipEntry_text]
      rw [hassoc, hrest]
      rfl

theorem pairs_all (pairs : List (Sds × Sds)) :
    ziplistPairs (flat pairs) ((flat pairs).length + 1) (ziplistIndex (flat pairs) 0) =
      .ok pairs := by
  have hindex : ziplistIndex (flat pairs) 0 =
      if pairs = [] then none else some (2 * ([] : List (Sds × Sds)).length) := by
    unfold ziplistIndex
    rw [flat_length]
    by_cases hp : pairs = []
    · rw [if_pos hp, hp]
      rfl
    · have hpos := length_pos_of_ne_nil hp
      rw [if_neg hp, if_pos (by lia)]
      rfl
  rw [hindex]
  exact pairs_from [] pairs (by rw [flat_length]; lia)

/-!
# Hashes
-/

abbrev SdsMap := Finmap fun _ : Sds => Sds

namespace HashType

def valueMap (m : SdsMap) (f : Sds) : Option Sds :=
  m.lookup f

theorem valueMap_isSome (m : SdsMap) (f : Sds) : (valueMap m f).isSome = decide (f ∈ m) := by
  unfold valueMap
  by_cases hf : f ∈ m
  · rw [decide_eq_true hf]
    exact lookup_isSome.mpr hf
  · rw [decide_eq_false hf, lookup_eq_none.mpr hf]
    rfl

theorem valueMap_insert (m : SdsMap) (f v : Sds) :
    Function.update (valueMap m) f (some v) = valueMap (m.insert f v) := by
  funext g
  unfold valueMap
  by_cases hg : g = f
  · rw [hg, update_self, lookup_insert]
  · rw [update_of_ne hg, lookup_insert_of_ne m hg]

theorem valueMap_erase (m : SdsMap) (f : Sds) :
    Function.update (valueMap m) f none = valueMap (m.erase f) := by
  funext g
  unfold valueMap
  by_cases hg : g = f
  · rw [hg, update_self, lookup_erase]
  · rw [update_of_ne hg, lookup_erase_ne hg]

theorem card_keys {m : SdsMap} (h : Dict.Lists (valueMap m) es) : m.keys.card = es.length := by
  have hkeys : m.keys = (es.map Prod.fst).toFinset := by
    ext f
    rw [Finmap.mem_keys, mem_toFinset, mem_map]
    constructor
    · intro hf
      rcases mem_iff.mp hf with ⟨v, hv⟩
      exact ⟨(f, v), (h.mem_iff f v).mpr hv, rfl⟩
    · rintro ⟨⟨_, v⟩, hin, rfl⟩
      exact mem_iff.mpr ⟨v, (h.mem_iff _ v).mp hin⟩
  rw [hkeys, toFinset_card_of_nodup h.nodup, length_map]

def Small (m : SdsMap) : Prop :=
  forall f v, valueMap m f = some v -> f.length < 2 ^ 32 ∧ v.length < 2 ^ 32

def Holds (hash : Sds -> Nat) (m : SdsMap) (o : HashType) : Prop :=
  Small m ∧
    match o with
    | .ziplist zl => exists pairs, zl = flat pairs ∧ Dict.Lists (valueMap m) pairs ∧
        widestBytes zl < 2 ^ 32
    | .ht d => d.Inv hash ∧ d.toMap hash = valueMap m

section Calls

variable {m : SdsMap} {o : HashType} {f v : Sds}

theorem Small.insert (h : Small m) (hf : f.length < 2 ^ 32) (hv : v.length < 2 ^ 32) :
    Small (m.insert f v) := by
  intro g w hg
  rw [← valueMap_insert] at hg
  by_cases heq : g = f
  · subst heq
    rw [update_self, Option.some.injEq] at hg
    rw [← hg]
    exact ⟨hf, hv⟩
  · rw [update_of_ne heq] at hg
    exact h g w hg

theorem Small.erase (h : Small m) (f : Sds) : Small (m.erase f) := by
  intro g w hg
  rw [← valueMap_erase] at hg
  by_cases heq : g = f
  · subst heq
    rw [update_self] at hg
    cases hg
  · rw [update_of_ne heq] at hg
    exact h g w hg

theorem Holds.under (h : o.Holds hash m) (server : HashServer) : (o.under server).Holds hash m := by
  cases o with
  | ziplist zl => exact h
  | ht d => exact ⟨h.left, h.right.left.setCanResize server.canResize, h.right.right⟩

theorem valueMap_empty : valueMap ∅ = fun _ => none := funext fun f => lookup_empty f

theorem holds_create : createHashObject.Holds hash ∅ := by
  refine ⟨?_, [], rfl, ?_, by decide⟩
  · intro f v hf
    rw [valueMap_empty] at hf
    cases hf
  · rw [valueMap_empty]
    exact lists_empty

variable {pairs : List (Sds × Sds)}

theorem length_of_bytes (h : widestBytes (flat pairs) < 2 ^ 32) : pairs.length < 2 ^ 32 := by
  have hle : forall zl : List ZlEntry, zl.length ≤ (zl.map ZlEntry.widest).sum := by
    intro zl
    induction zl with
    | nil => rfl
    | cons e zl ih =>
      have hone : 1 ≤ e.widest := by
        cases e with
        | str s | int v =>
          simp only [ZlEntry.widest]
          lia
      rw [length_cons, map_cons, sum_cons]
      lia
  have hflat := hle (flat pairs)
  rw [flat_length] at hflat
  unfold widestBytes at h
  lia

theorem convert_spec (server : HashServer) (hsmall : Small m)
    (hlists : Dict.Lists (valueMap m) pairs) (hbytes : widestBytes (flat pairs) < 2 ^ 32) :
    exists o', hashTypeConvertZiplist hash server (flat pairs) = .ok o' ∧ o'.Holds hash m := by
  have hlen := length_of_bytes hbytes
  have hcreate : ({ create with canResize := server.canResize } : Dict Sds Sds).Inv hash :=
    (inv_create hash).setCanResize server.canResize
  have hnodup : (([] ++ pairs).map Prod.fst).Nodup := hlists.nodup
  have hcount : ([] ++ pairs).length < 2 ^ 59 := by
    rw [nil_append]
    lia
  have hempty : Dict.Lists (({ create with canResize := server.canResize } :
      Dict Sds Sds).toMap hash) [] := lists_empty
  rcases fillDict_spec .corruption hcreate hempty hnodup hcount with
    ⟨d, hrun, hinv, hlists'⟩
  refine ⟨.ht d, ?_, hsmall, hinv, ?_⟩
  · simp only [hashTypeConvertZiplist, pairs_all, hrun, Except.map]
  funext f
  apply Option.ext
  intro v
  rw [← hlists'.mem_iff, ← hlists.mem_iff, nil_append]

theorem Holds.tryConversion (h : o.Holds hash m) (server : HashServer) (argv : List Sds) :
    exists o', hashTypeTryConversion hash server argv o = .ok o' ∧ o'.Holds hash m := by
  cases o with
  | ht d => exact ⟨.ht d, rfl, h⟩
  | ziplist zl =>
    unfold hashTypeTryConversion
    dsimp only
    split
    · rcases h with ⟨hsmall, pairs, rfl, hlists, hbytes⟩
      exact convert_spec server hsmall hlists hbytes
    · exact ⟨_, rfl, h⟩

theorem getFromZiplist_spec (hlists : Dict.Lists (valueMap m) pairs) (hf : f.length < 2 ^ 32) :
    hashTypeGetFromZiplist (flat pairs) f = .ok ((valueMap m f).map zipEntry) := by
  unfold hashTypeGetFromZiplist
  cases hm : valueMap m f with
  | none =>
    rw [find_absent hf (hlists.none_iff.mp hm)]
    rfl
  | some v =>
    rcases hlists.split hm with ⟨a, b, rfl⟩
    rw [find_at hf hlists.middle.left]
    simp only [next_at, Option.bind_some, get_value, Option.map_some]

theorem Holds.getFromTable {d : Dict Sds Sds} (h : (ht d).Holds hash m) (f : Sds) :
    exists d', hashTypeGetFromHashTable hash d f = .ok (d', valueMap m f) ∧
      (ht d').Holds hash m := by
  rcases h with ⟨hsmall, hinv, hmap⟩
  rcases dictFind_spec hinv f with ⟨d', hfind, hkeeps⟩
  refine ⟨d', ?_, hsmall, hkeeps.inv, hkeeps.map.trans hmap⟩
  rw [hashTypeGetFromHashTable, hfind, hmap]
  rfl

theorem map_text (v : Option Sds) : (v.map zipEntry).map ZlEntry.text = v := by
  cases v with
  | none => rfl
  | some v => exact congrArg some (zipEntry_text v)

def FitsField (f : Sds) : HashType -> Prop
  | .ziplist _ => f.length < 2 ^ 32
  | .ht _ => True

instance (f : Sds) (o : HashType) : Decidable (o.FitsField f) := by
  cases o <;> unfold FitsField <;> infer_instance

theorem Holds.get (h : o.Holds hash m) (hf : o.FitsField f) :
    exists o', hashTypeGetValue hash f o = .ok (o', valueMap m f) ∧ o'.Holds hash m := by
  cases o with
  | ziplist zl =>
    refine ⟨.ziplist zl, ?_, h⟩
    rcases h with ⟨_, pairs, rfl, hlists, _⟩
    simp only [hashTypeGetValue, getFromZiplist_spec hlists hf, Except.map, map_text]
  | ht d =>
    rcases h.getFromTable f with ⟨d', hget, hholds⟩
    refine ⟨.ht d', ?_, hholds⟩
    have hvalue : (valueMap m f).map asUint = valueMap m f := by
      cases hm : valueMap m f with
      | none => rfl
      | some v => exact congrArg some (asUint_of_small (h.left f v hm).right)
    simp only [hashTypeGetValue, hget, Except.map, hvalue]

theorem entryLength_eq (s : Sds) : entryLength (zipEntry s) = s.length := by
  unfold zipEntry
  cases h : zipTryEncoding s with
  | none => rfl
  | some v =>
    have hparse : Util.string2ll s = some v := by
      unfold zipTryEncoding at h
      split at h
      · cases h
      · exact h
    exact (Util.sdigits10_eq (Util.string2ll_range hparse)).trans
      (congrArg List.length (Util.ll2string_string2ll hparse))

section

variable (h : o.Holds hash m)
include h

theorem Holds.valueLength (hf : o.FitsField f) :
    exists o', hashTypeGetValueLength hash f o = .ok (o', ((valueMap m f).map List.length).getD 0) ∧
      o'.Holds hash m := by
  cases o with
  | ziplist zl =>
    refine ⟨.ziplist zl, ?_, h⟩
    rcases h with ⟨_, pairs, rfl, hlists, _⟩
    have hlength : ((valueMap m f).map zipEntry).map entryLength =
        (valueMap m f).map List.length := by
      rw [Option.map_map]
      exact congrArg (fun g => (valueMap m f).map g) (funext entryLength_eq)
    simp only [hashTypeGetValueLength, getFromZiplist_spec hlists hf, Except.map, hlength]
  | ht d =>
    rcases h.getFromTable f with ⟨d', hget, hholds⟩
    refine ⟨.ht d', ?_, hholds⟩
    simp only [hashTypeGetValueLength, hget, Except.map]

theorem Holds.exists_ (hf : o.FitsField f) :
    exists o', hashTypeExists hash f o = .ok (o', decide (f ∈ m)) ∧ o'.Holds hash m := by
  cases o with
  | ziplist zl =>
    refine ⟨.ziplist zl, ?_, h⟩
    rcases h with ⟨_, pairs, rfl, hlists, _⟩
    simp only [hashTypeExists, getFromZiplist_spec hlists hf, Except.map, Option.isSome_map,
      valueMap_isSome]
  | ht d =>
    rcases h.getFromTable f with ⟨d', hget, hholds⟩
    refine ⟨.ht d', ?_, hholds⟩
    simp only [hashTypeExists, hget, Except.map, valueMap_isSome]

theorem Holds.length : hashTypeLength o = m.keys.card := by
  cases o with
  | ziplist zl =>
    rcases h with ⟨_, pairs, rfl, hlists, _⟩
    simp only [hashTypeLength, ziplistLen, flat_length, card_keys hlists]
    lia
  | ht d =>
    rcases h with ⟨_, hinv, hmap⟩
    rcases dictEntries_spec hinv with ⟨es, _, hes, hlen⟩
    rw [hmap] at hes
    exact hlen.symm.trans (card_keys hes).symm

theorem Holds.entries : exists es, hashTypeEntries o = .ok es ∧ Dict.Lists (valueMap m) es := by
  cases o with
  | ziplist zl =>
    rcases h with ⟨_, pairs, rfl, hlists, _⟩
    exact ⟨pairs, pairs_all pairs, hlists⟩
  | ht d =>
    rcases h with ⟨hsmall, hinv, hmap⟩
    rcases dictEntries_spec hinv with ⟨es, hrun, hes, _⟩
    rw [hmap] at hes
    have hmapped : (es.map fun e => (asUint e.1, asUint e.2)) = es := by
      conv_rhs => rw [← map_id es]
      refine map_congr_left ?_
      rintro ⟨f, v⟩ hin
      have hlen := hsmall f v ((hes.mem_iff f v).mp hin)
      exact Prod.ext (asUint_of_small hlen.left) (asUint_of_small hlen.right)
    refine ⟨es, ?_, hes⟩
    simp only [hashTypeEntries, hrun, TypeCrash.ofDict, Except.map, hmapped]

end

/-- The bytes of a ziplist after the call, counted with the widest headers, have 32 bits; a
table has fewer than 2^59 entries, and the lengths fit an `unsigned int`. -/
def FitsSet (f v : Sds) : HashType -> Prop
  | .ziplist zl => widestBytes zl + (14 + f.length) + (14 + v.length) < 2 ^ 32
  | .ht d => d.dictSize < 2 ^ 59 ∧ f.length < 2 ^ 32 ∧ v.length < 2 ^ 32

instance (f v : Sds) (o : HashType) : Decidable (o.FitsSet f v) := by
  cases o <;> unfold FitsSet <;> infer_instance

theorem setZiplist_spec (hlists : Dict.Lists (valueMap m) pairs)
    (hfits : widestBytes (flat pairs) + (14 + f.length) + (14 + v.length) < 2 ^ 32) :
    exists pairs', hashTypeSetZiplist (flat pairs) f v = .ok (flat pairs', decide (f ∈ m)) ∧
      Dict.Lists (valueMap (m.insert f v)) pairs' ∧ widestBytes (flat pairs') < 2 ^ 32 := by
  have hf : f.length < 2 ^ 32 := by lia
  have hv : v.length < 2 ^ 32 := by lia
  have hwf := widest_le f
  have hwv := widest_le v
  rw [← valueMap_insert]
  unfold hashTypeSetZiplist
  cases hm : valueMap m f with
  | none =>
    have hout : Not (f ∈ m) := lookup_eq_none.mp hm
    refine ⟨pairs ++ [(f, v)], ?_, hlists.snoc hm v, ?_⟩
    · rw [find_absent hf (hlists.none_iff.mp hm), push_pair hf hv hfits, decide_eq_false hout]
    · rw [flat_append, widestBytes_append]
      simp only [flat_cons, flat_nil, map_cons, map_nil, sum_cons, sum_nil]
      lia
  | some w =>
    have hin : f ∈ m := mem_iff.mpr ⟨w, hm⟩
    rcases hlists.split hm with ⟨a, b, rfl⟩
    have hbytes : widestBytes (flat (a ++ (f, v) :: b)) < 2 ^ 32 := by
      rw [flat_at, widestBytes_append] at hfits ⊢
      simp only [map_cons, sum_cons] at hfits ⊢
      lia
    refine ⟨a ++ (f, v) :: b, ?_, hlists.put (some v), hbytes⟩
    rw [find_at hf hlists.middle.left]
    simp only [next_at, replace_value a b f w v hv hbytes, decide_eq_true hin]

theorem Holds.set (h : o.Holds hash m) (server : HashServer) (hfits : o.FitsSet f v) :
    exists o', hashTypeSet hash server f v o = .ok (o', decide (f ∈ m)) ∧
      o'.Holds hash (m.insert f v) := by
  cases o with
  | ziplist zl =>
    rcases h with ⟨hsmall, pairs, rfl, hlists, _⟩
    have hroom : widestBytes (flat pairs) + (14 + f.length) + (14 + v.length) < 2 ^ 32 := hfits
    have hsmall' : Small (m.insert f v) := hsmall.insert (by lia) (by lia)
    rcases setZiplist_spec hlists hroom with ⟨pairs', hset, hlists', hbytes'⟩
    unfold hashTypeSet
    simp only [hset]
    by_cases hmany : hashTypeLength (.ziplist (flat pairs')) > server.maxZiplistEntries
    · rcases convert_spec server hsmall' hlists' hbytes' with ⟨o', hconvert, hholds⟩
      refine ⟨o', ?_, hholds⟩
      rw [if_pos hmany, hconvert]
      rfl
    · rw [if_neg hmany]
      exact ⟨_, rfl, hsmall', pairs', rfl, hlists', hbytes'⟩
  | ht d =>
    rcases h with ⟨hsmall, hinv, hmap⟩
    rcases hfits with ⟨hcount, hf, hv⟩
    have hsmall' : Small (m.insert f v) := hsmall.insert hf hv
    rcases dictFind_spec hinv f with ⟨d', hfind, hkeeps⟩
    have hmap' : d'.toMap hash = valueMap m := hkeeps.map.trans hmap
    unfold hashTypeSet
    simp only [hfind, TypeCrash.ofDict, hmap]
    cases hm : valueMap m f with
    | none =>
      have hout : Not (f ∈ m) := lookup_eq_none.mp hm
      rcases dictAdd_new hkeeps.inv (by rw [hkeeps.count]; exact hcount)
          (by rw [hmap']; exact hm) v v with ⟨d'', hadd, hinv'', hmap'', _⟩
      refine ⟨.ht d'', ?_, hsmall', hinv'', ?_⟩
      · simp only [hadd, Except.map, decide_eq_false hout]
      · rw [hmap'', hmap', valueMap_insert]
    | some w =>
      have hin : f ∈ m := mem_iff.mpr ⟨w, hm⟩
      rcases dictSetVal_spec hkeeps.inv f v with ⟨hinv'', hread⟩
      refine ⟨.ht (d'.dictSetVal f v), ?_, hsmall', hinv'', ?_⟩
      · simp only [decide_eq_true hin]
      rw [← valueMap_insert]
      funext g
      rw [hread, hmap']
      by_cases hg : f = g
      · rw [if_pos hg, ← hg, update_self, hm]
        rfl
      · rw [if_neg hg, update_of_ne (Ne.symm hg)]

theorem Holds.delete (h : o.Holds hash m) (hf : o.FitsField f) (hcount : m.keys.card < 2 ^ 59) :
    exists o', hashTypeDelete hash f o = .ok (o', decide (f ∈ m)) ∧ o'.Holds hash (m.erase f) := by
  cases o with
  | ziplist zl =>
    rcases h with ⟨hsmall, pairs, rfl, hlists, hbytes⟩
    unfold hashTypeDelete
    dsimp only
    cases hm : valueMap m f with
    | none =>
      have hout : Not (f ∈ m) := lookup_eq_none.mp hm
      have hsame : valueMap (m.erase f) = valueMap m := by
        rw [← valueMap_erase, update_eq_self_iff]
        exact hm.symm
      rw [find_absent hf (hlists.none_iff.mp hm), decide_eq_false hout]
      exact ⟨_, rfl, hsmall.erase f, pairs, rfl, by rw [hsame]; exact hlists, hbytes⟩
    | some w =>
      have hin : f ∈ m := mem_iff.mpr ⟨w, hm⟩
      rcases hlists.split hm with ⟨a, b, rfl⟩
      rw [find_at hf hlists.middle.left, decide_eq_true hin]
      refine ⟨_, rfl, hsmall.erase f, a ++ b, delete_pair a b f w, ?_, ?_⟩
      · rw [← valueMap_erase]
        exact hlists.put none
      rw [delete_pair, flat_append, widestBytes_append]
      rw [flat_at, widestBytes_append] at hbytes
      simp only [map_cons, sum_cons] at hbytes
      lia
  | ht d =>
    rcases h with ⟨hsmall, hinv, hmap⟩
    rcases dictGenericDelete_spec hinv f with ⟨d', hdelete, hinv', hmap', _⟩
    have hmap'' : d'.toMap hash = valueMap (m.erase f) := by
      rw [hmap', hmap, valueMap_erase]
    have hdel : d.dictDelete hash f = .ok (d', decide (f ∈ m)) := by
      simp only [dictDelete, hdelete, hmap, valueMap_isSome]
    by_cases hin : f ∈ m
    · rw [decide_eq_true hin] at hdel ⊢
      have hcount' : d'.dictSize < 2 ^ 59 := by
        rcases dictEntries_spec hinv' with ⟨es, _, hes, hlen⟩
        rw [hmap''] at hes
        have hle : (m.erase f).keys.card ≤ m.keys.card := by
          rw [keys_erase]
          exact Finset.card_erase_le
        rw [← hlen, ← card_keys hes]
        lia
      have hkeeps := resizeIfNeeded_keeps hinv' hcount'
      refine ⟨.ht d'.resizeIfNeeded, ?_, hsmall.erase f, hkeeps.inv, ?_⟩
      · simp only [hashTypeDelete, hdel, TypeCrash.ofDict]
      · rw [hkeeps.map, hmap'']
    · rw [decide_eq_false hin] at hdel ⊢
      refine ⟨.ht d', ?_, hsmall.erase f, hinv', hmap''⟩
      simp only [hashTypeDelete, hdel, TypeCrash.ofDict]

end Calls

end HashType

/-!
# Runs
-/

inductive HashAnswer where
  | done
  | flag (b : Bool)
  | value (v : Option Sds)
  | size (n : Nat)
  | entries (m : SdsMap)

def HashResult.Answers : HashResult -> HashAnswer -> Prop
  | .done, .done => True
  | .flag b, .flag b' => b = b'
  | .value v, .value v' => v = v'
  | .size n, .size n' => n = n'
  | .entries es, .entries m => Dict.Lists (fun f => m.lookup f) es
  | _, _ => False

def finmapStep (call : HashServer × HashOp) (abs : SdsMap × List HashAnswer) :
    SdsMap × List HashAnswer :=
  let (m, answers) := abs
  match call.2 with
  | .tryConversion _ => (m, .done :: answers)
  | .set field value => (m.insert field value, .flag (decide (field ∈ m)) :: answers)
  | .delete field => (m.erase field, .flag (decide (field ∈ m)) :: answers)
  | .get field => (m, .value (m.lookup field) :: answers)
  | .valueLength field => (m, .size (((m.lookup field).map List.length).getD 0) :: answers)
  | .exists_ field => (m, .flag (decide (field ∈ m)) :: answers)
  | .length => (m, .size m.keys.card :: answers)
  | .entries => (m, .entries m :: answers)

/-- An addition has room, lengths fit an `unsigned int`, and a table that may shrink has fewer
than 2^59 entries. -/
def HashFits (call : HashServer × HashOp) (st : HashType × List HashResult) : Prop :=
  match call.2 with
  | .set field value => st.1.FitsSet field value
  | .delete field => st.1.FitsField field ∧ HashType.hashTypeLength st.1 < 2 ^ 59
  | .get field => st.1.FitsField field
  | .valueLength field => st.1.FitsField field
  | .exists_ field => st.1.FitsField field
  | _ => True

instance (call : HashServer × HashOp) (st : HashType × List HashResult) :
    Decidable (HashFits call st) := by
  unfold HashFits
  cases call.2 <;> infer_instance

structure HashSimulates (hash : Sds -> Nat) (st : HashType × List HashResult)
    (abs : SdsMap × List HashAnswer) : Prop where
  holds : st.1.Holds hash abs.1
  answers : List.Forall₂ HashResult.Answers st.2 abs.2

theorem hashTypeStep_simulates (call : HashServer × HashOp) (st : HashType × List HashResult)
    (abs : SdsMap × List HashAnswer) (h : HashSimulates hash st abs) (hfits : HashFits call st) :
    exists st', hashTypeStep hash call st = .ok st' ∧
      HashSimulates hash st' (finmapStep call abs) := by
  rcases call with ⟨server, op⟩
  rcases st with ⟨o, results⟩
  rcases abs with ⟨m, answers⟩
  rcases h with ⟨hholds, hanswers⟩
  have hunder := hholds.under server
  have hfield : forall f, o.FitsField f -> (o.under server).FitsField f := by
    intro f hf
    cases o <;> exact hf
  cases op with
  | tryConversion argv =>
    exact map_succeeds rfl (hunder.tryConversion server argv)
      fun _ hholds' => ⟨hholds', .cons trivial hanswers⟩
  | set f v =>
    have hfits' : (o.under server).FitsSet f v := by cases o <;> exact hfits
    exact map_succeeds rfl (hunder.set server hfits') fun _ hholds' => ⟨hholds', .cons rfl hanswers⟩
  | delete f =>
    have hsmall : m.keys.card < 2 ^ 59 := by
      rw [← hholds.length]
      exact hfits.right
    exact map_succeeds rfl (hunder.delete (hfield f hfits.left) hsmall)
      fun _ hholds' => ⟨hholds', .cons rfl hanswers⟩
  | get f =>
    exact map_succeeds rfl (hunder.get (hfield f hfits)) fun _ hholds' => ⟨hholds', .cons rfl hanswers⟩
  | valueLength f =>
    exact map_succeeds rfl (hunder.valueLength (hfield f hfits))
      fun _ hholds' => ⟨hholds', .cons rfl hanswers⟩
  | exists_ f =>
    exact map_succeeds rfl (hunder.exists_ (hfield f hfits))
      fun _ hholds' => ⟨hholds', .cons rfl hanswers⟩
  | length => exact ⟨_, rfl, hunder, List.Forall₂.cons hunder.length hanswers⟩
  | entries =>
    exact map_succeeds rfl hunder.entries fun _ hlists => ⟨hunder, .cons hlists hanswers⟩

/-!
# Transparency
-/

/-- Calls on a set and on a hash that have room do not fail, and answer as a finite set and a
finite map do; the objects hold this set and this map. -/
theorem set_hash_encoding_transparent (hash : Sds -> Nat) (first : Sds)
    (sets : List (SetServer × SetOp)) (hashes : List (HashServer × HashOp))
    (hsets : AllSteps (setTypeStep hash) SetFits sets (SetType.setTypeCreate first, []))
    (hhashes : AllSteps (hashTypeStep hash) HashFits hashes (HashType.createHashObject, [])) :
    (exists o results,
      runSteps (setTypeStep hash) sets (SetType.setTypeCreate first, []) = .ok (o, results) ∧
      o.Holds hash (sets.foldl (fun abs call => finsetStep call abs) (∅, [])).1 ∧
      List.Forall₂ SetResult.Answers results
        (sets.foldl (fun abs call => finsetStep call abs) (∅, [])).2) ∧
    exists o results,
      runSteps (hashTypeStep hash) hashes (HashType.createHashObject, []) = .ok (o, results) ∧
      o.Holds hash (hashes.foldl (fun abs call => finmapStep call abs) (∅, [])).1 ∧
      List.Forall₂ HashResult.Answers results
        (hashes.foldl (fun abs call => finmapStep call abs) (∅, [])).2 := by
  have hset0 : SetSimulates hash (SetType.setTypeCreate first, []) (∅, []) :=
    ⟨SetType.holds_create first, List.Forall₂.nil⟩
  have hhash0 : HashSimulates hash (createHashObject, []) (∅, []) :=
    ⟨HashType.holds_create, List.Forall₂.nil⟩
  constructor
  · rcases runSteps_simulates setTypeStep_simulates hset0 hsets with ⟨⟨o, results⟩, hrun, hsim⟩
    exact ⟨o, results, hrun, hsim.holds, hsim.answers⟩
  · rcases runSteps_simulates hashTypeStep_simulates hhash0 hhashes with ⟨⟨o, results⟩, hrun, hsim⟩
    exact ⟨o, results, hrun, hsim.holds, hsim.answers⟩

def tightSets : SetServer :=
  { maxIntsetEntries := 1, canResize := true, junk := 0 }

def tightHashes : HashServer :=
  { maxZiplistEntries := 1, maxZiplistValue := 64, canResize := true }

theorem set_hash_encoding_transparent_converted :
    (exists o results,
      runSteps (setTypeStep fun _ => 0)
        [(tightSets, .add [49]), (tightSets, .add [50]), (tightSets, .isMember [49]),
          (tightSets, .remove [49]), (tightSets, .elements)]
        (SetType.setTypeCreate [49], []) = .ok (o, results) ∧
      o.Holds (fun _ => 0) ([(tightSets, SetOp.add [49]), (tightSets, .add [50]),
        (tightSets, .isMember [49]), (tightSets, .remove [49]), (tightSets, .elements)].foldl
          (fun abs call => finsetStep call abs) (∅, [])).1 ∧
      List.Forall₂ SetResult.Answers results ([(tightSets, SetOp.add [49]), (tightSets, .add [50]),
        (tightSets, .isMember [49]), (tightSets, .remove [49]), (tightSets, .elements)].foldl
          (fun abs call => finsetStep call abs) (∅, [])).2) ∧
    exists o results,
      runSteps (hashTypeStep fun _ => 0)
        [(tightHashes, .set [97] [49, 50]), (tightHashes, .valueLength [97]),
          (tightHashes, .set [98] []), (tightHashes, .get [97]), (tightHashes, .delete [97])]
        (HashType.createHashObject, []) = .ok (o, results) ∧
      o.Holds (fun _ => 0) ([(tightHashes, HashOp.set [97] [49, 50]),
        (tightHashes, .valueLength [97]), (tightHashes, .set [98] []), (tightHashes, .get [97]),
        (tightHashes, .delete [97])].foldl (fun abs call => finmapStep call abs) (∅, [])).1 ∧
      List.Forall₂ HashResult.Answers results ([(tightHashes, HashOp.set [97] [49, 50]),
        (tightHashes, .valueLength [97]), (tightHashes, .set [98] []), (tightHashes, .get [97]),
        (tightHashes, .delete [97])].foldl (fun abs call => finmapStep call abs) (∅, [])).2 :=
  set_hash_encoding_transparent (fun _ => 0) [49] _ _
    (allSteps_of_check (by decide +kernel)) (allSteps_of_check (by decide +kernel))

theorem get_wrapped {big : Sds} (hbig : asUint big = []) :
    runSteps (hashTypeStep fun _ => 0) [(tightHashes, .set [] [120]), (tightHashes, .get big)]
        (createHashObject, []) =
      .ok (.ziplist [.str [], .str [120]], [.value (some [120]), .flag false]) := by
  have hset : hashTypeStep (fun _ => 0) (tightHashes, .set [] [120])
      (createHashObject, []) = .ok (.ziplist [.str [], .str [120]], [.flag false]) := rfl
  have hfind : ziplistFind [.str [], .str [120]] 0 big 1 = some 0 := by
    unfold ziplistFind
    rw [hbig]
    rfl
  have hget : hashTypeGetFromZiplist [.str [], .str [120]] big = .ok (some (.str [120])) := by
    have hindex : ziplistIndex [ZlEntry.str [], .str [120]] 0 = some 0 := rfl
    unfold hashTypeGetFromZiplist
    rw [hindex, Option.bind_some, hfind]
    rfl
  have hstep : hashTypeStep (fun _ => 0) (tightHashes, .get big)
      (.ziplist [.str [], .str [120]], [.flag false]) =
        .ok (.ziplist [.str [], .str [120]], [.value (some [120]), .flag false]) := by
    simp only [hashTypeStep, under, hashTypeGetValue, hget, Except.map,
      Option.map_some, ZlEntry.text]
  rw [runSteps_cons_ok hset, runSteps_cons_ok hstep]
  rfl

/-- The value of the empty field is returned for a field of 2^32 bytes. -/
theorem hash_field_length_wraps :
    exists (big : Sds) (o : HashType), big.length = 2 ^ 32 ∧
      runSteps (hashTypeStep fun _ => 0) [(tightHashes, .set [] [120]), (tightHashes, .get big)]
        (HashType.createHashObject, []) = .ok (o, [.value (some [120]), .flag false]) ∧
      ([(tightHashes, HashOp.set [] [120]), (tightHashes, .get big)].foldl
        (fun abs call => finmapStep call abs) (∅, [])).2 = [.value none, .flag false] := by
  obtain ⟨n, hn⟩ : exists n, n = 2 ^ 32 := ⟨_, rfl⟩
  have hlen : (List.replicate n 0 : Sds).length = 2 ^ 32 := by
    rw [length_replicate, hn]
  generalize (List.replicate n 0 : Sds) = big at hlen
  have hbig : asUint big = [] := by
    unfold asUint
    rw [hlen, Nat.mod_self, take_zero]
  have hne : big ≠ [] := by
    intro hnil
    rw [hnil, length_nil] at hlen
    lia
  have hlookup : ((∅ : SdsMap).insert [] [120]).lookup big = none := by
    rw [lookup_insert_of_ne _ hne]
    exact lookup_empty _
  have hmem : decide (([] : Sds) ∈ (∅ : SdsMap)) = false := decide_eq_false notMem_empty
  refine ⟨big, _, hlen, get_wrapped hbig, ?_⟩
  simp only [foldl_cons, foldl_nil, finmapStep, hlookup, hmem]

end Redisoo
