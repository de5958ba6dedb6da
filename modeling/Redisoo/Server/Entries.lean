import Redisoo.Server.Channels

/-!
# One entry of a candidate table

The value under which a key is a candidate, and the job in the slot while its
operation is being completed: what a move of the channel does to them.
-/

namespace Redisoo

open Foundation

variable {n : Nat}

theorem lookup_releaseAll (victims : List ClientId) (ch : Channel n) (dk : Fin n × Sds) :
    (victims.foldr releaseWhenFreeClient ch).candidates.lookup dk =
      (ch.candidates.lookup dk).map (fun info => victims.foldr BackendInfo.release info) := by
  induction victims with
  | nil => simp
  | cons c victims ih =>
    rw [List.foldr_cons, lookup_release, ih]
    cases ch.candidates.lookup dk with
    | none => rfl
    | some info => rfl

theorem releaseAll_setValue (victims : List ClientId) (info : BackendInfo) :
    (victims.foldr BackendInfo.release info).setValue = info.setValue := by
  induction victims with
  | nil => rfl
  | cons c victims ih => exact ih

theorem Joins.setValue_old {m : Mode} {value : Sds} {ttl : Int}
    {waiter : Option ClientId} {old info : BackendInfo}
    (h : Joins m value ttl waiter (some old) info) : info.setValue = old.setValue := by
  cases h with
  | old _ _ => rfl

/-!
# The slot during a completion
-/

theorem ChannelMove.job_begin {m : Mode} {ch ch' : Channel n}
    (hmove : ChannelMove m ch .idle ch' .clearing) : ch'.job = ch.job := by
  cases hmove with
  | begin _ _ _ _ _ _ _ _ _ => rfl

theorem ChannelMove.job_clearing {m : Mode} {ch ch' : Channel n}
    (hmove : ChannelMove m ch .clearing ch' .clearing)
    (hsound : ch.Sound m .clearing) : ch'.job = ch.job := by
  rcases hsound.holds_finished with ⟨d, key, _, _, hsome⟩
  have hret : ch.job.returnKey ≠ none := by
    rw [hsome]
    exact Option.some_ne_none key
  cases hmove with
  | same => rfl
  | release victims => exact (releaseAll_frame victims ch).left
  | enqueue dk value ttl waiter info ch' _ hcreate =>
    cases hcreate with
    | busy _ _ => rfl
    | empty _ _ => rfl
    | job d k info' _ hnone _ => exact absurd hnone hret
  | take d key _ _ _ _ => rfl
  | execute d key val result _ _ => rfl
  | post d key val result _ _ hnone => exact absurd hnone hret
  | signal _ => rfl
  | begin _ _ _ hphase _ _ _ _ _ => cases hphase

end Redisoo
