import Redisoo.Structures.IntsetRun
import Redisoo.Structures.SetType

/-!
# The encodings of sets

Whatever its encoding, a set is a finite set of byte strings, and the conversion of an intset
neither loses a member nor finds one twice.
-/

namespace Redisoo

open Foundation Foundation.Bytes Util Dict

/-!
# Tables
-/

variable {hash : Sds -> Nat}

theorem fillDict_spec {val : Type} (bad : TypeCrash) {es0 es : List (Sds × val)}
    {d : Dict Sds val} (h : d.Inv hash) (hlists : Dict.Lists (d.toMap hash) es0)
    (hnodup : ((es0 ++ es).map Prod.fst).Nodup) (hcount : (es0 ++ es).length < 2 ^ 59) :
    exists d', fillDict hash bad es d = .ok d' ∧ d'.Inv hash ∧
      Dict.Lists (d'.toMap hash) (es0 ++ es) := by
  induction es generalizing es0 d with
  | nil => exact ⟨d, rfl, h, by rw [List.append_nil]; exact hlists⟩
  | cons e es ih =>
    rcases e with ⟨k, v⟩
    have hassoc : es0 ++ (k, v) :: es = (es0 ++ [(k, v)]) ++ es := by simp
    have hnew : d.toMap hash k = none := by
      rw [hlists.none_iff]
      rw [List.map_append, List.map_cons, List.nodup_append] at hnodup
      exact fun hin => hnodup.right.right k hin k List.mem_cons_self rfl
    have hsmall : d.dictSize < 2 ^ 59 := by
      rw [h.dictSize_eq hlists]
      rw [List.length_append, List.length_cons] at hcount
      lia
    rcases dictAdd_new h hsmall hnew v v with ⟨d1, hadd, hinv1, hmap1, _⟩
    have hlists1 : Dict.Lists (d1.toMap hash) (es0 ++ [(k, v)]) := by
      rw [hmap1]
      exact hlists.snoc hnew v
    rw [hassoc] at hnodup hcount ⊢
    rcases ih hinv1 hlists1 hnodup hcount with ⟨d', hrun, hinv', hlists'⟩
    refine ⟨d', ?_, hinv', hlists'⟩
    simp only [fillDict, hadd, TypeCrash.ofDict, hrun]

/-!
# Sets
-/

namespace SetType

open Intset List

def memberMap (s : Finset Sds) (v : Sds) : Option Unit :=
  if v ∈ s then some () else none

variable (s)

theorem memberMap_isSome (v : Sds) : (memberMap s v).isSome = decide (v ∈ s) := by
  unfold memberMap
  by_cases hv : v ∈ s <;> simp [hv]

theorem memberMap_insert (v : Sds) :
    Function.update (memberMap s) v (some ()) = memberMap (insert v s) := by
  funext w
  unfold memberMap
  by_cases hw : w = v
  · simp [hw]
  · rw [Function.update_of_ne hw]
    simp [hw]

theorem memberMap_erase (v : Sds) :
    Function.update (memberMap s) v none = memberMap (s.erase v) := by
  funext w
  unfold memberMap
  by_cases hw : w = v
  · simp [hw]
  · rw [Function.update_of_ne hw]
    simp [hw]

variable {s}

theorem elements_eq {s : Finset Sds} {es : List (Sds × Unit)} (h : Dict.Lists (memberMap s) es) :
    (es.map Prod.fst).toFinset = s := by
  ext v
  rw [mem_toFinset, mem_map]
  constructor
  · rintro ⟨⟨_, u⟩, hin, rfl⟩
    have hsome := (h.mem_iff _ u).mp hin
    unfold memberMap at hsome
    by_contra hv
    rw [if_neg hv] at hsome
    cases hsome
  · intro hv
    exact ⟨(v, ()), (h.mem_iff v ()).mpr (if_pos hv), rfl⟩

theorem card_eq {s : Finset Sds} {es : List (Sds × Unit)} (h : Dict.Lists (memberMap s) es) :
    es.length = s.card := by
  rw [← elements_eq h, toFinset_card_of_nodup h.nodup, length_map]

def Holds (hash : Sds -> Nat) (s : Finset Sds) : SetType -> Prop
  | .intset is => exists xs, Intset.Holds is xs ∧ (xs.map Util.ll2string).toFinset = s
  | .ht d => d.Inv hash ∧ d.toMap hash = memberMap s

/-!
The members of an intset as strings.
-/

theorem signed_of_range {v : Int} (h : Util.LLONG_MIN ≤ v ∧ v ≤ Util.LLONG_MAX) : SignedIn 8 v := by
  unfold Util.LLONG_MIN Util.LLONG_MAX at h
  unfold SignedIn
  lia

theorem range_of_signed {v : Int} (h : SignedIn 8 v) : Util.LLONG_MIN ≤ v ∧ v ≤ Util.LLONG_MAX := by
  unfold SignedIn at h
  unfold Util.LLONG_MIN Util.LLONG_MAX
  lia

variable (server : SetServer)

section Texts

variable {is : Intset} {xs : List Int}

section

variable (h : Intset.Holds is xs)

include h

variable {v : Int} {value : Sds}

theorem text_parses (hv : v ∈ xs) : string2ll (ll2string v) = some v :=
  string2ll_ll2string (range_of_signed (h.isLongLong hv))

theorem texts_nodup : (xs.map ll2string).Nodup := by
  have hnodup : xs.Nodup := h.sorted.imp fun hlt => Int.ne_of_lt hlt
  refine hnodup.map_on ?_
  intro v hv w hw heq
  have hparse := text_parses h hv
  rw [heq, text_parses h hw] at hparse
  exact (Option.some.inj hparse).symm

theorem mem_texts (hvalue : string2ll value = some v) : value ∈ xs.map ll2string <-> v ∈ xs := by
  constructor
  · intro hin
    rcases mem_map.mp hin with ⟨w, hw, rfl⟩
    rw [text_parses h hw] at hvalue
    rw [← Option.some.inj hvalue]
    exact hw
  · intro hin
    exact mem_map.mpr ⟨v, hin, ll2string_string2ll hvalue⟩

theorem not_mem_texts (hvalue : string2ll value = none) : value ∉ xs.map ll2string := by
  intro hin
  rcases mem_map.mp hin with ⟨w, hw, rfl⟩
  rw [text_parses h hw] at hvalue
  cases hvalue

end

variable {s : Finset Sds}

theorem mem_iff_of_texts (h : Intset.Holds is xs) (hs : (xs.map ll2string).toFinset = s)
    (hvalue : string2ll value = some v) : value ∈ s <-> v ∈ xs := by
  rw [← hs, mem_toFinset]
  exact mem_texts h hvalue

theorem not_mem_of_texts (h : Intset.Holds is xs) (hs : (xs.map ll2string).toFinset = s)
    (hvalue : string2ll value = none) : value ∉ s := by
  rw [← hs, mem_toFinset]
  exact not_mem_texts h hvalue

theorem texts_insert {ys : List Int} (hvalue : string2ll value = some v)
    (hs : (xs.map ll2string).toFinset = s) (hys : ys.toFinset = insert v xs.toFinset) :
    (ys.map ll2string).toFinset = insert value s := by
  have hmem : forall w, w ∈ ys <-> w = v ∨ w ∈ xs := by
    intro w
    rw [← mem_toFinset, hys, Finset.mem_insert, mem_toFinset]
  ext u
  rw [← hs, Finset.mem_insert, mem_toFinset, mem_toFinset, mem_map, mem_map]
  constructor
  · rintro ⟨w, hw, rfl⟩
    rcases (hmem w).mp hw with rfl | hin
    · exact Or.inl (ll2string_string2ll hvalue)
    · exact Or.inr ⟨w, hin, rfl⟩
  · rintro (rfl | ⟨w, hw, rfl⟩)
    · exact ⟨v, (hmem v).mpr (Or.inl rfl), ll2string_string2ll hvalue⟩
    · exact ⟨w, (hmem w).mpr (Or.inr hw), rfl⟩

theorem texts_erase (h : Intset.Holds is xs) {ys : List Int}
    (hvalue : string2ll value = some v) (hs : (xs.map ll2string).toFinset = s)
    (hys : ys.toFinset = xs.toFinset.erase v) :
    (ys.map ll2string).toFinset = s.erase value := by
  have hmem : forall w, w ∈ ys <-> w ≠ v ∧ w ∈ xs := by
    intro w
    rw [← mem_toFinset, hys, Finset.mem_erase, mem_toFinset]
  ext u
  rw [← hs, Finset.mem_erase, mem_toFinset, mem_toFinset]
  constructor
  · intro hin
    rcases mem_map.mp hin with ⟨w, hw, rfl⟩
    rcases (hmem w).mp hw with ⟨hne, hwx⟩
    refine ⟨?_, mem_map_of_mem hwx⟩
    intro heq
    rw [← heq, text_parses h hwx] at hvalue
    exact hne (Option.some.inj hvalue)
  · rintro ⟨hne, hin⟩
    rcases mem_map.mp hin with ⟨w, hw, rfl⟩
    refine mem_map_of_mem ((hmem w).mpr ⟨?_, hw⟩)
    intro heq
    exact hne (by rw [heq, ll2string_string2ll hvalue])

theorem length_small (h : Intset.Holds is xs) : xs.length < 2 ^ 32 := by
  have hpos := h.width.pos
  have hbytes := h.bytes
  have hle : xs.length * 1 ≤ xs.length * is.encoding := Nat.mul_le_mul_left _ hpos
  lia

theorem setTypeConvert_spec (h : Intset.Holds is xs) (hs : (xs.map ll2string).toFinset = s) :
    exists d, setTypeConvert hash server is = .ok d ∧ d.Inv hash ∧
      d.toMap hash = memberMap s ∧ d.dictSize < 2 ^ 32 := by
  have hlen : intsetLen is = xs.length := h.length
  have hsmall := length_small h
  have hcreate : ({ create with canResize := server.canResize } : Dict Sds Unit).Inv hash :=
    (inv_create hash).setCanResize server.canResize
  have hexpand : xs.length ≤ 2 ^ 60 := by lia
  have hkeeps := dictExpand_keeps hcreate hexpand
  have hempty : Dict.Lists ((dictExpand ({ create with canResize := server.canResize } :
      Dict Sds Unit) xs.length).1.toMap hash) [] := by
    rw [hkeeps.map]
    exact lists_empty
  have hkeys : (xs.map fun v => (ll2string v, ())).map Prod.fst = xs.map ll2string := by
    rw [map_map]
    rfl
  have hnodup : (([] ++ xs.map fun v => (ll2string v, ())).map Prod.fst).Nodup := by
    rw [nil_append, hkeys]
    exact texts_nodup h
  have hcount : ([] ++ xs.map fun v => (ll2string v, ())).length < 2 ^ 59 := by
    rw [nil_append, length_map]
    lia
  rcases fillDict_spec .assertion hkeeps.inv hempty hnodup hcount with
    ⟨d, hrun, hinv, hlists⟩
  rw [nil_append] at hlists
  refine ⟨d, ?_, hinv, ?_, ?_⟩
  · simp only [setTypeConvert, hlen, h.walk, hrun]
  · funext v
    unfold memberMap
    by_cases hv : v ∈ s
    · rw [if_pos hv, ← hlists.mem_iff]
      rw [← hs, mem_toFinset] at hv
      rcases mem_map.mp hv with ⟨w, hw, rfl⟩
      exact mem_map.mpr ⟨w, hw, rfl⟩
    · rw [if_neg hv, hlists.none_iff, hkeys]
      rw [← hs, mem_toFinset] at hv
      exact hv
  · rw [hinv.dictSize_eq hlists, length_map]
    exact hsmall

end Texts

/-!
What each call does to the set.
-/

section Calls

variable {s : Finset Sds} {o : SetType}

theorem Holds.under (h : o.Holds hash s) (server : SetServer) : (o.under server).Holds hash s := by
  cases o with
  | intset is => exact h
  | ht d => exact ⟨h.left.setCanResize server.canResize, h.right⟩

theorem holds_create (value : Sds) : (setTypeCreate value).Holds hash ∅ := by
  unfold setTypeCreate
  cases string2ll value with
  | some v => exact ⟨[], holds_new, rfl⟩
  | none => exact ⟨inv_create hash, rfl⟩

def FitsAdd (value : Sds) : SetType -> Prop
  | .intset is =>
    match Util.string2ll value with
    | none => True
    | some v => intsetFind is v = some true ∨ (is.length + 1) * widthWith is v < 2 ^ 32
  | .ht d => d.dictSize < 2 ^ 59

section

variable (h : o.Holds hash s)

include h

instance (value : Sds) (o : SetType) : Decidable (o.FitsAdd value) := by
  cases o with
  | intset is =>
    unfold FitsAdd
    cases Util.string2ll value <;> infer_instance
  | ht d =>
    unfold FitsAdd
    infer_instance

theorem Holds.add {value : Sds} (hfits : o.FitsAdd value) :
    exists o', setTypeAdd hash server value o = .ok (o', decide (value ∉ s)) ∧
      o'.Holds hash (insert value s) := by
  cases o with
  | ht d =>
    rcases h with ⟨hinv, hmap⟩
    rcases dictAddRaw_spec hinv hfits value () with
      ⟨d', r, hadd, hinv', ⟨hnone, rfl, hmap', _⟩ | ⟨v, hsome, rfl, hmap'⟩⟩
    · rw [hmap, ← Option.not_isSome_iff_eq_none, memberMap_isSome, decide_eq_true_eq] at hnone
      refine ⟨.ht d', ?_, hinv', ?_⟩
      · simp only [setTypeAdd, hadd, TypeCrash.ofDict, Option.isNone_none, hnone,
          not_false_eq_true, decide_true]
      · rw [hmap', hmap, memberMap_insert]
    · have hin : value ∈ s := by
        have hsome' := memberMap_isSome s value
        rw [← hmap, hsome, Option.isSome_some] at hsome'
        exact of_decide_eq_true hsome'.symm
      refine ⟨.ht d', ?_, hinv', ?_⟩
      · simp only [setTypeAdd, hadd, TypeCrash.ofDict, Option.isNone_some, hin, not_true_eq_false,
          decide_false]
      · rw [hmap', hmap, Finset.insert_eq_of_mem hin]
  | intset is =>
    rcases h with ⟨xs, hxs, hs⟩
    cases hvalue : string2ll value with
    | none =>
      have hout := not_mem_of_texts hxs hs hvalue
      rcases setTypeConvert_spec server hxs hs with ⟨d, hconvert, hinv, hmap, hsize⟩
      have hnone : d.toMap hash value = none := by
        rw [hmap, ← Option.not_isSome_iff_eq_none, memberMap_isSome, decide_eq_true_eq]
        exact hout
      rcases dictAdd_new hinv (by lia) hnone () () with ⟨d', hadd, hinv', hmap', _⟩
      refine ⟨.ht d', ?_, hinv', ?_⟩
      · simp only [setTypeAdd, hvalue, hconvert, hadd, TypeCrash.ofDict, hout,
          not_false_eq_true, decide_true]
      · rw [hmap', hmap, memberMap_insert]
    | some v =>
      have hv := signed_of_range (string2ll_range hvalue)
      have hmem := mem_iff_of_texts hxs hs hvalue
      have hfit : v ∈ xs ∨ (xs.length + 1) * widthWith is v < 2 ^ 32 := by
        simp only [FitsAdd, hvalue, hxs.find hv, hxs.length] at hfits
        exact hfits.imp (fun hfind => by simpa using hfind) id
      rcases hxs.add server.junk hv hfit with ⟨is', xs', hadd, hxs', hset⟩
      have hs' := texts_insert hvalue hs hset
      by_cases hin : v ∈ xs
      · have hflag : decide (v ∉ xs) = false := by simp [hin]
        rw [hflag] at hadd
        refine ⟨.intset is', ?_, xs', hxs', hs'⟩
        simp only [setTypeAdd, hvalue, hadd, hmem, hflag]
      · have hflag : decide (v ∉ xs) = true := by simp [hin]
        rw [hflag] at hadd
        by_cases hmany : intsetLen is' > server.maxIntsetEntries
        · rcases setTypeConvert_spec server hxs' hs' with ⟨d, hconvert, hinv, hmap, _⟩
          refine ⟨.ht d, ?_, hinv, hmap⟩
          simp only [setTypeAdd, hvalue, hadd, hmem, hflag, if_pos hmany, hconvert]
        · refine ⟨.intset is', ?_, xs', hxs', hs'⟩
          simp only [setTypeAdd, hvalue, hadd, hmem, hflag, if_neg hmany]

theorem Holds.remove (value : Sds) (hfits : s.card < 2 ^ 59) :
    exists o', setTypeRemove hash server value o = .ok (o', decide (value ∈ s)) ∧
      o'.Holds hash (s.erase value) := by
  cases o with
  | ht d =>
    rcases h with ⟨hinv, hmap⟩
    rcases dictGenericDelete_spec hinv value with ⟨d', hdelete, hinv', hmap', hcount⟩
    have hflag : (d.toMap hash value).isSome = decide (value ∈ s) := by
      rw [hmap, memberMap_isSome]
    have hholds : d'.toMap hash = memberMap (s.erase value) := by
      rw [hmap', hmap, memberMap_erase]
    have hdel : d.dictDelete hash value = .ok (d', decide (value ∈ s)) := by
      simp only [dictDelete, hdelete, hflag]
    by_cases hin : value ∈ s
    · rw [decide_eq_true hin] at hdel ⊢
      have hsmall : d'.dictSize < 2 ^ 59 := by
        rcases dictEntries_spec hinv' with ⟨es, _, hes, hlen⟩
        rw [hholds] at hes
        have hle := Finset.card_erase_le (s := s) (a := value)
        rw [← hlen, card_eq hes]
        lia
      have hkeeps := resizeIfNeeded_keeps hinv' hsmall
      refine ⟨.ht d'.resizeIfNeeded, ?_, hkeeps.inv, ?_⟩
      · simp only [setTypeRemove, hdel, TypeCrash.ofDict]
      · rw [hkeeps.map, hholds]
    · rw [decide_eq_false hin] at hdel ⊢
      refine ⟨.ht d', ?_, hinv', hholds⟩
      simp only [setTypeRemove, hdel, TypeCrash.ofDict]
  | intset is =>
    rcases h with ⟨xs, hxs, hs⟩
    cases hvalue : string2ll value with
    | none =>
      have hout := not_mem_of_texts hxs hs hvalue
      refine ⟨.intset is, ?_, xs, hxs, ?_⟩
      · simp only [setTypeRemove, hvalue, hout, decide_false]
      · rw [hs, Finset.erase_eq_of_notMem hout]
    | some v =>
      have hv := signed_of_range (string2ll_range hvalue)
      have hmem := mem_iff_of_texts hxs hs hvalue
      rcases hxs.remove server.junk hv with ⟨is', xs', hremove, hxs', hset⟩
      refine ⟨.intset is', ?_, xs', hxs', texts_erase hxs hvalue hs hset⟩
      simp only [setTypeRemove, hvalue, hremove, hmem]

theorem Holds.isMember (value : Sds) :
    exists o', setTypeIsMember hash value o = .ok (o', decide (value ∈ s)) ∧ o'.Holds hash s := by
  cases o with
  | ht d =>
    rcases h with ⟨hinv, hmap⟩
    rcases dictFind_spec hinv value with ⟨d', hfind, hkeeps⟩
    refine ⟨.ht d', ?_, hkeeps.inv, hkeeps.map.trans hmap⟩
    simp only [setTypeIsMember, hfind, TypeCrash.ofDict, hmap, memberMap_isSome]
  | intset is =>
    rcases h with ⟨xs, hxs, hs⟩
    refine ⟨.intset is, ?_, xs, hxs, hs⟩
    cases hvalue : string2ll value with
    | none =>
      have hout := not_mem_of_texts hxs hs hvalue
      simp only [setTypeIsMember, hvalue, hout, decide_false]
    | some v =>
      have hv := signed_of_range (string2ll_range hvalue)
      have hmem := mem_iff_of_texts hxs hs hvalue
      simp only [setTypeIsMember, hvalue, hxs.find hv, hmem]

theorem Holds.size : setTypeSize o = s.card := by
  cases o with
  | ht d =>
    rcases dictEntries_spec h.left with ⟨es, _, hes, hlen⟩
    rw [h.right] at hes
    exact hlen.symm.trans (card_eq hes)
  | intset is =>
    rcases h with ⟨xs, hxs, hs⟩
    rw [← hs, toFinset_card_of_nodup (texts_nodup hxs), length_map]
    exact hxs.length

theorem Holds.elements : exists xs, setTypeElements o = .ok xs ∧ xs.Nodup ∧ xs.toFinset = s := by
  cases o with
  | ht d =>
    rcases dictEntries_spec h.left with ⟨es, hrun, hes, _⟩
    rw [h.right] at hes
    refine ⟨es.map Prod.fst, ?_, hes.nodup, elements_eq hes⟩
    simp only [setTypeElements, hrun, TypeCrash.ofDict, Except.map]
  | intset is =>
    rcases h with ⟨xs, hxs, hs⟩
    have hlen : intsetLen is = xs.length := hxs.length
    refine ⟨xs.map ll2string, ?_, texts_nodup hxs, hs⟩
    simp only [setTypeElements, hlen, hxs.walk]

end

end Calls

end SetType

/-!
# Runs
-/

inductive SetAnswer where
  | flag (b : Bool)
  | size (n : Nat)
  | elements (s : Finset Sds)

def SetResult.Answers : SetResult -> SetAnswer -> Prop
  | .flag b, .flag b' => b = b'
  | .size n, .size n' => n = n'
  | .elements xs, .elements s => xs.Nodup ∧ xs.toFinset = s
  | _, _ => False

def finsetStep (call : SetServer × SetOp) (abs : Finset Sds × List SetAnswer) :
    Finset Sds × List SetAnswer :=
  let (s, answers) := abs
  match call.2 with
  | .add value => (insert value s, .flag (decide (value ∉ s)) :: answers)
  | .remove value => (s.erase value, .flag (decide (value ∈ s)) :: answers)
  | .isMember value => (s, .flag (decide (value ∈ s)) :: answers)
  | .size => (s, .size s.card :: answers)
  | .elements => (s, .elements s :: answers)

def SetFits (call : SetServer × SetOp) (st : SetType × List SetResult) : Prop :=
  match call.2 with
  | .add value => st.1.FitsAdd value
  | .remove _ => SetType.setTypeSize st.1 < 2 ^ 59
  | _ => True

instance (call : SetServer × SetOp) (st : SetType × List SetResult) :
    Decidable (SetFits call st) := by
  unfold SetFits
  cases call.2 <;> infer_instance

structure SetSimulates (hash : Sds -> Nat) (st : SetType × List SetResult)
    (abs : Finset Sds × List SetAnswer) : Prop where
  holds : st.1.Holds hash abs.1
  answers : List.Forall₂ SetResult.Answers st.2 abs.2

theorem setTypeStep_simulates (call : SetServer × SetOp) (st : SetType × List SetResult)
    (abs : Finset Sds × List SetAnswer) (h : SetSimulates hash st abs) (hfits : SetFits call st) :
    exists st', setTypeStep hash call st = .ok st' ∧
      SetSimulates hash st' (finsetStep call abs) := by
  rcases call with ⟨server, op⟩
  rcases st with ⟨o, results⟩
  rcases abs with ⟨s, answers⟩
  rcases h with ⟨hholds, hanswers⟩
  have hunder := hholds.under server
  cases op with
  | add value =>
    have hfits' : (o.under server).FitsAdd value := by cases o <;> exact hfits
    exact map_succeeds rfl (hunder.add server hfits') fun _ hholds' => ⟨hholds', .cons rfl hanswers⟩
  | remove value =>
    have hsmall : s.card < 2 ^ 59 := by
      rw [← hholds.size]
      exact hfits
    exact map_succeeds rfl (hunder.remove server value hsmall)
      fun _ hholds' => ⟨hholds', .cons rfl hanswers⟩
  | isMember value =>
    exact map_succeeds rfl (hunder.isMember value) fun _ hholds' => ⟨hholds', .cons rfl hanswers⟩
  | size => exact ⟨_, rfl, hunder, List.Forall₂.cons hunder.size hanswers⟩
  | elements =>
    exact map_succeeds rfl hunder.elements fun _ hlists => ⟨hunder, .cons hlists hanswers⟩

end Redisoo
