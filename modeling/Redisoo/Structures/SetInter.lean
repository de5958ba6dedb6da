import Mathlib.Data.Finset.Card
import Mathlib.Data.List.Sort
import Redisoo.Util.Decimal

/-!
# The intersection of sets

`sinterGenericCommand` on the keys of a database as the lookups find them: an
expired key is missing, and a set is its elements in no order, whatever its
encoding.  The first source key that is missing or of another type ends the
command, before the keys behind it are looked up.
-/

namespace Redisoo
namespace SetInter

open List

inductive Value where
  | set (members : Finset Sds)
  | other
deriving DecidableEq

abbrev Db := Sds -> Option Value

inductive Reply where
  | wrongtypeerr
  | elements (members : Finset Sds)
  | integer (n : Nat)
deriving DecidableEq

inductive Stop where
  | missing
  | wrongType

def lookupSets (db : Db) : List Sds -> Except Stop (List (Sds × Finset Sds))
  | [] => .ok []
  | key :: rest =>
    match db key with
    | none => .error .missing
    | some .other => .error .wrongType
    | some (.set members) => (lookupSets db rest).map ((key, members) :: ·)

def compareSetsByCardinality (s1 s2 : Sds × Finset Sds) : Bool :=
  decide (s1.2.card ≤ s2.2.card)

/-- The elements of the first set that every other set has; the same object is
passed over.  The arity of the commands gives at least one set. -/
def intersect : List (Sds × Finset Sds) -> Finset Sds
  | [] => ∅
  | first :: rest => first.2.filter fun ele => forall s, s ∈ rest -> s.1 = first.1 ∨ ele ∈ s.2

def dbDelete (db : Db) (key : Sds) : Db :=
  Function.update db key none

def dbAdd (db : Db) (key : Sds) (members : Finset Sds) : Db :=
  Function.update db key (some (.set members))

def sinterGenericCommand (db : Db) (setkeys : List Sds) (dstkey : Option Sds) : Db × Reply :=
  match lookupSets db setkeys with
  | .error .missing =>
    match dstkey with
    | some dst => (dbDelete db dst, .integer 0)
    | none => (db, .elements ∅)
  | .error .wrongType => (db, .wrongtypeerr)
  | .ok sets =>
    let dstset := intersect (sets.mergeSort compareSetsByCardinality)
    match dstkey with
    | some dst =>
      if dstset.card > 0 then (dbAdd (dbDelete db dst) dst dstset, .integer dstset.card)
      else (dbDelete db dst, .integer 0)
    | none => (db, .elements dstset)

def Stop.value : Stop -> Option Value
  | .missing => none
  | .wrongType => some .other

variable {db : Db} {sets sets' : List (Sds × Finset Sds)}

theorem lookupSets_spec (db : Db) (keys : List Sds) :
    match lookupSets db keys with
    | .error why => exists k, k ∈ keys ∧ db k = why.value
    | .ok sets => (forall k, k ∈ keys -> exists members, db k = some (.set members)) ∧
        forall s, s ∈ sets <-> s.1 ∈ keys ∧ db s.1 = some (.set s.2) := by
  induction keys with
  | nil => simp [lookupSets]
  | cons key rest ih =>
    unfold lookupSets
    match hdb : db key with
    | none => exact ⟨key, mem_cons_self, hdb⟩
    | some .other => exact ⟨key, mem_cons_self, hdb⟩
    | some (.set members) =>
      dsimp only
      cases hrest : lookupSets db rest with
      | error why =>
        rw [hrest] at ih
        rcases ih with ⟨k, hk, hvalue⟩
        exact ⟨k, mem_cons_of_mem _ hk, hvalue⟩
      | ok sets =>
        rw [hrest] at ih
        rcases ih with ⟨hall, hmem⟩
        refine ⟨forall_mem_cons.mpr ⟨⟨members, hdb⟩, hall⟩, ?_⟩
        rintro ⟨k, m⟩
        rw [mem_cons, mem_cons, hmem, Prod.mk.injEq, or_and_right]
        refine or_congr_left (and_congr_right fun hk => ?_)
        rw [hk, hdb]
        simp [eq_comm]

theorem mem_intersect (hsets : forall s, s ∈ sets -> db s.1 = some (.set s.2)) (ele : Sds) :
    ele ∈ intersect sets <-> (exists s, s ∈ sets) ∧ forall s, s ∈ sets -> ele ∈ s.2 := by
  cases sets with
  | nil => simp [intersect]
  | cons first rest =>
    have hne : exists s, s ∈ first :: rest := ⟨first, mem_cons_self⟩
    unfold intersect
    rw [Finset.mem_filter, forall_mem_cons, and_iff_right hne]
    refine and_congr_right fun hfirst => forall₂_congr fun s hs => ?_
    refine or_iff_right_of_imp fun hkey => ?_
    have hdb := hsets s (mem_cons_of_mem _ hs)
    rw [hkey, hsets first mem_cons_self] at hdb
    injection hdb with hvalue
    injection hvalue with hmembers
    exact hmembers ▸ hfirst

theorem intersect_congr (hsets : forall s, s ∈ sets -> db s.1 = some (.set s.2))
    (hmem : forall s, s ∈ sets' <-> s ∈ sets) : intersect sets' = intersect sets := by
  ext ele
  rw [mem_intersect hsets, mem_intersect fun s hs => hsets s ((hmem s).mp hs)]
  simp only [hmem]

/-- The commands do not depend on the order of their keys, except for a missing
key and one of another type together: the one that comes first decides. -/
theorem sinter_order_independent_iff (db : Db) (keys : List Sds) (dstkey : Option Sds) :
    (forall keys' : List Sds, keys'.Perm keys ->
      sinterGenericCommand db keys' dstkey = sinterGenericCommand db keys dstkey) <->
    Not ((exists k, k ∈ keys ∧ db k = none) ∧ exists k, k ∈ keys ∧ db k = some .other) := by
  constructor
  · rintro hsame ⟨⟨k, hk, hmissing⟩, k', hk', hother⟩
    have hfirst := hsame _ (perm_cons_erase hk).symm
    rw [← hsame _ (perm_cons_erase hk').symm] at hfirst
    simp only [sinterGenericCommand, lookupSets, hmissing, hother] at hfirst
    cases dstkey <;> cases (congrArg Prod.snd hfirst)
  · intro hnot keys' hperm
    have hset : forall {k why members}, db k = Stop.value why -> db k ≠ some (.set members) := by
      intro k why members hvalue
      rw [hvalue]
      cases why <;> nofun
    have hspec := lookupSets_spec db keys
    have hspec' := lookupSets_spec db keys'
    simp only [hperm.mem_iff] at hspec'
    unfold sinterGenericCommand
    cases hsets : lookupSets db keys with
    | error why =>
      rw [hsets] at hspec
      rcases hspec with ⟨k, hk, hvalue⟩
      cases hsets' : lookupSets db keys' with
      | error why' =>
        rw [hsets'] at hspec'
        rcases hspec' with ⟨k', hk', hvalue'⟩
        cases why <;> cases why'
        · rfl
        · exact absurd ⟨⟨k, hk, hvalue⟩, k', hk', hvalue'⟩ hnot
        · exact absurd ⟨⟨k', hk', hvalue'⟩, k, hk, hvalue⟩ hnot
        · rfl
      | ok sets' =>
        rw [hsets'] at hspec'
        rcases hspec'.left k hk with ⟨members, hmembers⟩
        exact absurd hmembers (hset hvalue)
    | ok sets =>
      rw [hsets] at hspec
      cases hsets' : lookupSets db keys' with
      | error why' =>
        rw [hsets'] at hspec'
        rcases hspec' with ⟨k, hk, hvalue⟩
        rcases hspec.left k hk with ⟨members, hmembers⟩
        exact absurd hmembers (hset hvalue)
      | ok sets' =>
        rw [hsets'] at hspec'
        have hsorted : forall s, s ∈ sets.mergeSort compareSetsByCardinality ->
            db s.1 = some (.set s.2) := by
          intro s hs
          exact ((hspec.right s).mp (mem_mergeSort.mp hs)).right
        have hinter : intersect (sets'.mergeSort compareSetsByCardinality) =
            intersect (sets.mergeSort compareSetsByCardinality) := by
          apply intersect_congr hsorted
          intro s
          rw [mem_mergeSort, mem_mergeSort, hspec.right, hspec'.right]
        dsimp only
        rw [hinter]

/-- A missing source key clears the destination, unless a list comes before it. -/
theorem sinterstore_list_before_missing :
    let db : Db := fun k =>
      if k = [1] then some .other else if k = [3] then some (.set {[97], [98]}) else none
    sinterGenericCommand db [[1], [2]] (some [3]) = (db, .wrongtypeerr) ∧
      (sinterGenericCommand db [[2], [1]] (some [3])).2 = .integer 0 ∧
      (sinterGenericCommand db [[2], [1]] (some [3])).1 [3] = none := by
  exact ⟨rfl, rfl, rfl⟩

end SetInter
end Redisoo
