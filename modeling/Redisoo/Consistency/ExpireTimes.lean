import Redisoo.Persistence.AofEffects
import Redisoo.Server.Step

/-!
# Expire times

The commands with an expire time and the handler that completes a SET compute with 64-bit
integers.  What they store is the time asked for as long as that time fits.
-/

namespace Redisoo

open Aof SetCommand
open Util (LLONG_MIN LLONG_MAX)

variable {n : Nat} {e : Env} {ks : Keyspace n} {d : Fin n} {key : Sds} {x : Int}

def timeOf (unit : TimeUnit) (basetime value : Int) : Int :=
  match unit with
  | .seconds => basetime + value * 1000
  | .milliseconds => basetime + value

def Expires (e : Env) (ks : Keyspace n) (d : Fin n) (key : Sds) (time : Int) : Prop :=
  ks.expires d key = some time ∧ 0 ≤ time ∧ Store.keyIsExpired e ks d key = false

theorem wrap64_eq_iff : wrap64 x = x <-> LLONG_MIN ≤ x ∧ x ≤ LLONG_MAX := by
  constructor
  · intro h
    rw [← h]
    exact wrap64_range x
  · exact wrap64_of_range

theorem expireTime_eq (unit : TimeUnit) (basetime value : Int) :
    expireTime unit basetime value = wrap64 (timeOf unit basetime value) := by
  cases unit with
  | seconds => simp [expireTime, timeOf, wrap64, Int.add_comm]
  | milliseconds => simp [expireTime, timeOf, Int.add_comm]

theorem timeOf_gt (unit : TimeUnit) (basetime : Int) {value : Int} (h : 0 < value) :
    basetime < timeOf unit basetime value := by
  cases unit with
  | seconds => simp [timeOf, h]
  | milliseconds => simp [timeOf, h]

theorem expires_iff (hcell : ks.expires d key = some (wrap64 x)) (hx : e.now < x) :
    Expires e ks d key x <-> 0 ≤ x ∧ x ≤ LLONG_MAX := by
  unfold Expires
  rw [hcell, Option.some_inj]
  constructor
  · rintro ⟨hwrap, hpos, _⟩
    exact ⟨hpos, (wrap64_eq_iff.mp hwrap).right⟩
  rintro ⟨hpos, hmax⟩
  have hwrap : wrap64 x = x := wrap64_of_range ⟨le_trans (by decide) hpos, hmax⟩
  refine ⟨hwrap, hpos, ?_⟩
  unfold Store.keyIsExpired
  rw [hcell, hwrap]
  simp [not_lt.mpr hpos, le_of_lt hx]

theorem getTtl_eq {sc : SetCommand} {a : SetArgs} {arg : Sds} {value : Int}
    (hargs : sc.args = some a) (harg : a.expire = some arg)
    (hvalue : Util.string2ll arg = some value) :
    sc.getTtlForSetCommand = wrap64 (timeOf a.unit 0 value) := by
  have hrange := wrap64_of_range (Util.string2ll_range hvalue)
  cases sc with
  | set k v options =>
    unfold args at hargs
    dsimp only at hargs
    split at hargs
    · cases hargs
    rename_i o hparse
    cases hargs
    dsimp only at harg
    simp only [getTtlForSetCommand, hparse, harg, hvalue]
    cases o.unit with
    | seconds => simp [timeOf, Int.mul_comm]
    | milliseconds => simp [timeOf, hrange]
  | setnx k v =>
    cases hargs
    cases harg
  | setex k t v =>
    cases hargs
    cases harg
    simp [getTtlForSetCommand, hvalue, timeOf]
  | psetex k t v =>
    cases hargs
    cases harg
    simp [getTtlForSetCommand, hvalue, timeOf, hrange]

/-- The time is stored, or it has passed and the key is deleted.  A positive TTL gives the key
an expire time that is still to come. -/
def Honours (e : Env) (lazyExpire : Bool) (r : Executed n) (d : Fin n) (key : Sds)
    (relative : Bool) (value time : Int) : Prop :=
  (r.store.ks.expires d key = some time ∨
    r.rewritten = some (deletion lazyExpire key) ∧ time ≤ e.now) ∧
    (relative = true -> 0 < value -> Expires e r.store.ks d key time)

/-- The times the EXPIRE commands can honour: those that fit, and those in the past that stay
there when they wrap. -/
def Storable (e : Env) (relative : Bool) (value time : Int) : Prop :=
  ((LLONG_MIN ≤ time ∧ time ≤ LLONG_MAX) ∨ (time ≤ e.now ∧ Past e (wrap64 time))) ∧
    (relative = true -> 0 < value -> 0 ≤ time)

theorem honours_iff {lazyExpire relative : Bool} {st : Store n} {unit : TimeUnit} {param : Sds}
    (h : 0 < (expireGenericCommand e lazyExpire st d unit relative key param).dirty) :
    exists value, Util.string2ll param = some value ∧
      (Honours e lazyExpire (expireGenericCommand e lazyExpire st d unit relative key param) d key
        relative value (timeOf unit (if relative then e.now else 0) value) <->
        Storable e relative value (timeOf unit (if relative then e.now else 0) value)) := by
  rcases expireGenericCommand_effect h with ⟨value, o, hvalue, _, hcases⟩
  refine ⟨value, hvalue, ?_⟩
  rw [expireTime_eq] at hcases
  have hahead : relative = true -> 0 < value ->
      e.now < timeOf unit (if relative then e.now else 0) value := by
    rintro rfl hpos
    exact timeOf_gt unit e.now hpos
  generalize timeOf unit (if relative then e.now else 0) value = time at hcases hahead ⊢
  unfold Honours Storable
  rcases hcases with ⟨hpast, hrewritten, hks⟩ | ⟨hpast, hrewritten, hks⟩
  · -- the key is deleted
    have hcell : (put st.ks d key none none).expires d key = none := updateAt_same _ _ _ _
    rw [hrewritten, hks, hcell]
    constructor
    · rintro ⟨hstored | ⟨_, hle⟩, _⟩
      · cases hstored
      · exact ⟨Or.inr ⟨hle, hpast⟩, fun hr hv => absurd hle (not_le.mpr (hahead hr hv))⟩
    · rintro ⟨hstorable, _⟩
      have hle : time ≤ e.now := by
        rcases hstorable with hfits | ⟨hle, _⟩
        · rw [← wrap64_of_range hfits]
          exact hpast.left
        · exact hle
      exact ⟨Or.inr ⟨rfl, hle⟩, fun hr hv => absurd hle (not_le.mpr (hahead hr hv))⟩
  · have hcell : (put st.ks d key (some o) (some (wrap64 time))).expires d key =
        some (wrap64 time) := updateAt_same _ _ _ _
    rw [hrewritten, hks]
    constructor
    · rintro ⟨hstored | ⟨hdeleted, _⟩, hahead'⟩
      · rw [hcell, Option.some_inj, wrap64_eq_iff] at hstored
        exact ⟨Or.inl hstored, fun hr hv => (hahead' hr hv).right.left⟩
      · cases hdeleted
    · rintro ⟨hfits | ⟨_, hpast'⟩, hpos⟩
      · refine ⟨Or.inl ?_, fun hr hv => ?_⟩
        · rw [hcell, wrap64_of_range hfits]
        · exact (expires_iff hcell (hahead hr hv)).mpr ⟨hpos hr hv, hfits.right⟩
      · exact absurd hpast' hpast

/-- The times the handler of a SET can store; a TTL that wraps to one that is not positive is
ignored, and the key keeps the time it had. -/
def Installable (w : World n) (f : Finished n) (unit : TimeUnit) (value : Int) : Prop :=
  0 ≤ timeOf unit w.now value ∧
    if 0 < wrap64 (timeOf unit 0 value) then timeOf unit w.now value ≤ LLONG_MAX
    else w.store.ks.expires f.dbid f.key.bytes = some (timeOf unit w.now value)

theorem kept_expires_iff {st : Store n} (o : Robj) (hpos : 0 ≤ x) (hx : e.now < x) :
    Expires e (st.genericSetKey e d key o true).ks d key x <-> st.ks.expires d key = some x := by
  have hks : (st.genericSetKey e d key o true).ks.expires d key =
      (st.expireIfNeeded e d key).1.ks.expires d key := rfl
  have hahead : forall ks : Keyspace n, ks.expires d key = some x ->
      Store.keyIsExpired e ks d key = false := by
    intro ks hcell
    unfold Store.keyIsExpired
    rw [hcell]
    simp [not_lt.mpr hpos, le_of_lt hx]
  constructor
  · intro h
    have hcell := h.left
    rw [hks] at hcell
    unfold Store.expireIfNeeded at hcell
    split at hcell
    · split at hcell
      · exact hcell
      · -- an expired key has lost its time
        simp [Store.deleteAndPropagate, Keyspace.dbSyncDelete] at hcell
    · exact hcell
  · intro hcell
    have hsame : (st.genericSetKey e d key o true).ks.expires d key = some x := by
      rw [hks]
      unfold Store.expireIfNeeded
      rw [hahead st.ks hcell]
      exact hcell
    exact ⟨hsame, hpos, hahead _ hsame⟩

theorem installable_iff {w : World n} {f : Finished n} {sc : SetCommand} {a : SetArgs}
    {arg val : Sds} {value : Int} (hargs : sc.args = some a) (harg : a.expire = some arg)
    (hvalue : Util.string2ll arg = some value) (hpos : 0 < value)
    (hf : f.result = true ∧ f.val = some val ∧ f.setTtl = sc.getTtlForSetCommand) :
    exists st, w.installValue .set f = .ok st ∧
      (Expires w.env st.ks f.dbid f.key.bytes (timeOf a.unit w.now value) <->
        Installable w f a.unit value) := by
  unfold Installable
  unfold World.installValue
  simp only [hf, if_true, getTtl_eq hargs harg hvalue]
  refine ⟨_, rfl, ?_⟩
  have hlt : w.env.now < timeOf a.unit w.now value := timeOf_gt a.unit w.now hpos
  split
  · have hsum : wrap64 (w.now + wrap64 (timeOf a.unit 0 value)) =
        wrap64 (timeOf a.unit w.now value) := by
      cases a.unit with
      | seconds => simp [wrap64, timeOf]
      | milliseconds => simp [wrap64, timeOf]
    rw [hsum]
    exact expires_iff (updateAt_same _ _ _ _) hlt
  · constructor
    · intro h
      exact ⟨h.right.left, (kept_expires_iff _ h.right.left hlt).mp h⟩
    · intro h
      exact (kept_expires_iff _ h.left hlt).mpr h.right

end Redisoo
