import Redisoo.Commands

/-!
# Increments

INCR, DECR, INCRBY, DECRBY and HINCRBY test for an overflow before they add.  The test is
exact, but DECRBY negates its argument first, and the smallest integer has no negation.
-/

namespace Redisoo
namespace Increment

open Function
open Util (LLONG_MIN LLONG_MAX string2ll ll2string)

def OBJ_SHARED_INTEGERS : Int := 10000

def OBJ_SHARED_REFCOUNT : Nat := 2147483647

def notAnInteger : Reply := .error "value is not an integer or out of range"

def wouldOverflow : Reply := .error "increment or decrement would overflow"

def add (oldvalue incr : Int) : Option Int :=
  if incr < 0 ∧ oldvalue < 0 ∧ incr < LLONG_MIN - oldvalue ∨
      incr > 0 ∧ oldvalue > 0 ∧ incr > LLONG_MAX - oldvalue then none
  else some (wrap64 (oldvalue + incr))

/-- How both end; `new` makes what is stored. -/
def finish {cell : Type} (new : Int -> cell) (key : Sds) (before : Sds -> Option cell) :
    Option Int -> (Sds -> Option cell) × Reply
  | none => (before, wouldOverflow)
  | some value => (update before key (some (new value)), .integer value)

abbrev Counted := Robj × Nat

def getLongLongFromObject : Option Counted -> Option Int
  | none => some 0
  | some (.raw s, _) => string2ll s
  | some (.embstr s, _) => string2ll s
  | some (.int value, _) => some value
  | some (.aggregate _ _, _) => none

/-- With `valueobj` the eviction policy does not permit shared integers. -/
def createStringObjectFromLongLongWithOptions (valueobj : Bool) (value : Int) : Counted :=
  if 0 ≤ value ∧ value < OBJ_SHARED_INTEGERS ∧ valueobj = false then
    (.int value, OBJ_SHARED_REFCOUNT)
  else (.int value, 1)

def newObject (valueobj : Bool) (o : Option Counted) (value : Int) : Counted :=
  match o with
  | some (.int _, 1) =>
    if value < 0 ∨ value ≥ OBJ_SHARED_INTEGERS then (.int value, 1)
    else createStringObjectFromLongLongWithOptions valueobj value
  | _ => createStringObjectFromLongLongWithOptions valueobj value

def incrDecrCommand (valueobj : Bool) (key : Sds) (incr : Int) (db : Sds -> Option Counted) :
    (Sds -> Option Counted) × Reply :=
  match db key with
  | some (.aggregate _ _, _) =>
    (db, .error "WRONGTYPE Operation against a key holding the wrong kind of value")
  | o =>
    match getLongLongFromObject o with
    | none => (db, notAnInteger)
    | some oldvalue => finish (newObject valueobj o) key db (add oldvalue incr)

inductive IncrCommand where
  | incr
  | decr
  | incrby (arg : Sds)
  | decrby (arg : Sds)

def IncrCommand.passed : IncrCommand -> Option Int
  | .incr => some 1
  | .decr => some (-1)
  | .incrby arg => string2ll arg
  | .decrby arg => (string2ll arg).map fun incr => wrap64 (-incr)

def IncrCommand.run (valueobj : Bool) (key : Sds) (db : Sds -> Option Counted)
    (command : IncrCommand) : (Sds -> Option Counted) × Reply :=
  match command.passed with
  | none => (db, notAnInteger)
  | some value => incrDecrCommand valueobj key value db

def fieldValue (text : Option Sds) : Option Int :=
  text.elim (some 0) string2ll

def hincrbyCommand (field arg : Sds) (o : Sds -> Option Sds) : (Sds -> Option Sds) × Reply :=
  match string2ll arg with
  | none => (o, notAnInteger)
  | some incr =>
    match fieldValue (o field) with
    | none => (o, .error "hash value is not an integer")
    | some oldvalue => finish ll2string field o (add oldvalue incr)

/-!
# Exact sums
-/

abbrev Fits (x : Int) : Prop :=
  LLONG_MIN ≤ x ∧ x ≤ LLONG_MAX

def IncrCommand.amount : IncrCommand -> Option Int
  | .decrby arg => (string2ll arg).map fun incr => -incr
  | command => command.passed

def Exact {cell : Type} (read : Option cell -> Option Int) (key : Sds) (old amount : Int)
    (before : Sds -> Option cell) (after : (Sds -> Option cell) × Reply) : Prop :=
  if Fits (old + amount) then
    after.2 = .integer (old + amount) ∧ read (after.1 key) = some (old + amount) ∧
      forall k, k ≠ key -> after.1 k = before k
  else after = (before, wouldOverflow)

variable {cell : Type} {key : Sds} {old incr : Int} {before : Sds -> Option cell}

theorem add_eq (hold : Fits old) (hincr : Fits incr) :
    add old incr = if Fits (old + incr) then some (old + incr) else none := by
  unfold add
  split
  · next hover =>
    have hout : Not (Fits (old + incr)) := by
      unfold Fits LLONG_MIN LLONG_MAX at *
      lia
    rw [if_neg hout]
  · next hover =>
    have hfits : Fits (old + incr) := by
      unfold Fits LLONG_MIN LLONG_MAX at *
      lia
    rw [if_pos hfits, wrap64_of_range hfits]

theorem finish_exact {read : Option cell -> Option Int} {new : Int -> cell}
    (hread : forall v, Fits v -> read (some (new v)) = some v) (hold : Fits old)
    (hincr : Fits incr) :
    Exact read key old incr before (finish new key before (add old incr)) := by
  rw [add_eq hold hincr]
  unfold Exact
  split
  · next hfits =>
    refine ⟨rfl, ?_, fun k hk => update_of_ne hk _ _⟩
    change read (update before key _ key) = _
    rw [update_self]
    exact hread _ hfits
  · rfl

theorem finish_not_exact (read : Option cell -> Option Int) (new : Int -> cell)
    (hold : Fits old) :
    Not (Exact read key old (2 ^ 63) before (finish new key before (add old LLONG_MIN))) := by
  intro h
  have hiff : Fits (old + LLONG_MIN) <-> Not (Fits (old + 2 ^ 63)) := by
    unfold Fits LLONG_MIN LLONG_MAX at *
    lia
  rw [add_eq hold (by decide)] at h
  unfold Exact at h
  split at h
  · next hfits =>
    rw [if_neg fun hlow => hiff.mp hlow hfits] at h
    cases h.left
  · next hout =>
    rw [if_pos (hiff.mpr hout)] at h
    cases congrArg Prod.snd h

theorem newObject_read (valueobj : Bool) (o : Option Counted) (v : Int) :
    getLongLongFromObject (some (newObject valueobj o v)) = some v := by
  unfold newObject createStringObjectFromLongLongWithOptions
  split
  · split
    · rfl
    · split <;> rfl
  · split <;> rfl

variable {db : Sds -> Option Counted}

theorem incrDecrCommand_eq (valueobj : Bool) (incr : Int)
    (hold : getLongLongFromObject (db key) = some old) :
    incrDecrCommand valueobj key incr db =
      finish (newObject valueobj (db key)) key db (add old incr) := by
  unfold incrDecrCommand
  split
  · next hdb =>
    rw [hdb] at hold
    cases hold
  · rw [hold]

theorem passed_amount {command : IncrCommand} {amount : Int} (h : command.amount = some amount) :
    command.passed = some amount ∧ Fits amount ∨
      command.passed = some LLONG_MIN ∧ amount = 2 ^ 63 := by
  cases command with
  | incr | decr =>
    cases h
    exact Or.inl ⟨rfl, by decide⟩
  | incrby arg => exact Or.inl ⟨h, Util.string2ll_range h⟩
  | decrby arg =>
    rcases Option.map_eq_some_iff.mp h with ⟨incr, hincr, rfl⟩
    have hrange := Util.string2ll_range hincr
    simp only [IncrCommand.passed, hincr, Option.map_some, Option.some_inj]
    by_cases hmin : incr = LLONG_MIN
    · subst hmin
      exact Or.inr ⟨rfl, rfl⟩
    · have hneg : Fits (-incr) := by
        unfold Fits LLONG_MIN LLONG_MAX at *
        lia
      exact Or.inl ⟨wrap64_of_range hneg, hneg⟩

/-- The commands are exact, except DECRBY with the smallest integer. -/
theorem increments_exact_iff (valueobj : Bool) (key : Sds) (db : Sds -> Option Counted)
    (o : Sds -> Option Sds) :
    (forall command amount old, IncrCommand.amount command = some amount ->
      getLongLongFromObject (db key) = some old -> Fits old ->
      (Exact getLongLongFromObject key old amount db (command.run valueobj key db) <->
        amount ≠ 2 ^ 63)) ∧
    forall field arg incr old, string2ll arg = some incr -> fieldValue (o field) = some old ->
      Exact fieldValue field old incr o (hincrbyCommand field arg o) := by
  constructor
  · intro command amount old hamount hold hfits
    unfold IncrCommand.run
    rcases passed_amount hamount with ⟨hpassed, hrange⟩ | ⟨hpassed, rfl⟩
    · simp only [hpassed, incrDecrCommand_eq valueobj _ hold]
      refine iff_of_true (finish_exact (fun v _ => newObject_read _ _ v) hfits hrange) ?_
      unfold Fits LLONG_MAX at hrange
      lia
    · simp only [hpassed, incrDecrCommand_eq valueobj _ hold]
      exact iff_of_false (finish_not_exact _ _ hfits) fun hne => hne rfl
  · intro field arg incr old hincr hold
    have hfits : Fits old := by
      unfold fieldValue at hold
      cases htext : o field with
      | none =>
        rw [htext] at hold
        cases hold
        decide
      | some text =>
        rw [htext] at hold
        exact Util.string2ll_range hold
    simp only [hincrbyCommand, hincr, hold]
    exact finish_exact (fun v hv => Util.string2ll_ll2string hv) hfits (Util.string2ll_range hincr)

theorem increments_exact_decrby : Exact getLongLongFromObject [107] 0 (-5) (fun _ => none)
    (IncrCommand.run false [107] (fun _ => none) (.decrby [53])) :=
  ((increments_exact_iff false [107] (fun _ => none) (fun _ => none)).left (.decrby [53]) (-5) 0
    rfl rfl (by decide)).mpr (by decide)

/-- A missing key gets the smallest integer, although the difference is too large; and -1 is
refused, although the difference fits. -/
theorem decrby_smallest :
    Not (Fits (0 - LLONG_MIN)) ∧ Fits (-1 - LLONG_MIN) ∧
      (IncrCommand.run false [107] (fun _ => none) (.decrby (ll2string LLONG_MIN))).2 =
        .integer LLONG_MIN ∧
      (IncrCommand.run false [107] (fun _ => some (.int (-1), 1))
        (.decrby (ll2string LLONG_MIN))).2 = wouldOverflow :=
  ⟨by decide, by decide, rfl, rfl⟩

end Increment
end Redisoo
