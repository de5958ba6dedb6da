import Redisoo.Backend.Channel
import Redisoo.Foundation.HandOff

/-!
# One channel follows the hand-off protocol

Each function on a channel is described once: which fields it changes and, when
it succeeds, which step of the single-slot hand-off it is.
-/

namespace Redisoo

open Foundation Job HandOff Channel Option AList

variable {n : Nat}

/-!
# Candidate tables
-/

variable {pick : Nat} {dk : Fin n × Sds} {m : Mode} {d : Fin n} {ch ch' : Channel n} {job : Job n}
  {key : KeyPtr} {phase : HandOff.Phase} {check : Bool} {t : Candidates n} (c : ClientId)

theorem hasAvailableCandidate_mem (h : hasAvailableCandidate t pick = some dk) : dk ∈ t := by
  unfold hasAvailableCandidate at h
  split at h
  · cases h
  · have hmem := List.mem_of_getElem? h
    rw [mem_keys]
    exact (List.mem_filter.mp hmem).left

theorem hasAvailableCandidate_none (h : hasAvailableCandidate t pick = none) (dk : Fin n × Sds) :
    dk ∉ t := by
  intro hmem
  rw [mem_keys] at hmem
  unfold hasAvailableCandidate at h
  split at h
  · rename_i hfind
    have hnone := List.find?_eq_none.mp hfind dk.1 (List.mem_finRange dk.1)
    apply hnone
    exact List.any_eq_true.mpr ⟨dk, hmem, by simp⟩
  · rename_i d hfind
    have hany := List.find?_some hfind
    rcases List.any_eq_true.mp hany with ⟨dk', hmem', heq⟩
    have hlen : 0 < (t.keys.filter (fun dk => dk.1 == d)).length :=
      List.length_pos_of_mem (List.mem_filter.mpr ⟨hmem', heq⟩)
    rw [List.getElem?_eq_none_iff] at h
    have := Nat.mod_lt pick hlen
    lia

@[simp] theorem lookup_release (ch : Channel n) (dk : Fin n × Sds) :
    (releaseWhenFreeClient c ch).candidates.lookup dk =
      (ch.candidates.lookup dk).map (BackendInfo.release c) :=
  List.dlookup_map₂ (f := fun _ info => BackendInfo.release c info) dk

@[simp] theorem mem_release (ch : Channel n) (dk : Fin n × Sds) :
    dk ∈ (releaseWhenFreeClient c ch).candidates <-> dk ∈ ch.candidates := by
  rw [← lookup_isSome, ← lookup_isSome, lookup_release, isSome_map]

theorem mem_of_lookup {info : BackendInfo} (h : t.lookup dk = some info) : dk ∈ t := by
  rw [← lookup_isSome, h]
  rfl

inductive Joins (m : Mode) (value : Sds) (ttl : Int)
    (waiter : Option ClientId) : Option BackendInfo -> BackendInfo -> Prop where
  | new : Joins m value ttl waiter none
      { setValue := value, setTtl := ttl, clients := waiter.toList }
  | old (info : BackendInfo) : (m = .set -> info.setValue = value) ->
      Joins m value ttl waiter (some info)
        { info with setTtl := ttl, clients := info.clients ++ waiter.toList }

theorem addKeyToBackendKeys_spec {k value : Sds} {ttl : Int} {waiter : Option ClientId}
    (h : addKeyToBackendKeys m d k value ttl waiter ch = .ok ch') :
    exists info,
      Joins m value ttl waiter (ch.candidates.lookup (d, k)) info ∧
        ch' = { ch with candidates := ch.candidates.insert (d, k) info } := by
  unfold addKeyToBackendKeys at h
  split at h
  · rename_i hlookup
    cases h
    rw [hlookup]
    exact ⟨_, .new, rfl⟩
  · rename_i info hlookup
    split at h
    · cases h
    · rename_i hvalue
      cases h
      rw [hlookup]
      refine ⟨_, .old info ?_, rfl⟩
      intro hm
      by_contra hne
      exact hvalue ⟨hm, hne⟩

/-!
# The slot

`dbid` and `key` are set and reset together, so the two fields are one slot.
-/

def Job.slot (job : Job n) : Option (Fin n × KeyPtr) :=
  match job.dbid, job.key with
  | some d, some key => some (d, key)
  | _, _ => none

def Job.returned (job : Job n) : Option (Fin n × KeyPtr) :=
  match job.dbid, job.returnKey with
  | some d, some key => some (d, key)
  | _, _ => none

structure Job.Shaped (m : Mode) (job : Job n) : Prop where
  zero : job.key = none -> job = Job.zero
  dbid : job.key ≠ none -> job.dbid ≠ none
  val : m = .set -> job.key ≠ none -> job.val ≠ none

open Job

theorem Job.slot_eq_some : job.slot = some (d, key) <-> job.dbid = some d ∧ job.key = some key := by
  unfold slot
  cases job.dbid <;> cases job.key <;> simp

theorem Job.returned_eq_some :
    job.returned = some (d, key) <-> job.dbid = some d ∧ job.returnKey = some key := by
  unfold returned
  cases job.dbid <;> cases job.returnKey <;> simp

theorem Job.shaped_zero (m : Mode) : (zero : Job n).Shaped m where
  zero := fun _ => rfl
  dbid := fun h => absurd rfl h
  val := fun _ h => absurd rfl h

theorem Job.Shaped.slot_none (h : job.Shaped m) : job.slot = none <-> job.key = none := by
  constructor
  · intro hslot
    by_contra hkey
    have hdbid := h.dbid hkey
    rcases ne_none_iff_exists'.mp hkey with ⟨key, hk⟩
    rcases ne_none_iff_exists'.mp hdbid with ⟨d, hd⟩
    rw [slot_eq_some.mpr ⟨hd, hk⟩] at hslot
    cases hslot
  · intro hkey
    rw [h.zero hkey]
    rfl

theorem Job.Shaped.returned_none (h : job.Shaped m) :
    job.returned = none <-> job.returnKey = none := by
  constructor
  · intro hreturned
    by_cases hkey : job.key = none
    · rw [h.zero hkey]
      rfl
    rcases ne_none_iff_exists'.mp (h.dbid hkey) with ⟨d, hd⟩
    cases hret : job.returnKey with
    | none => rfl
    | some key =>
      rw [returned_eq_some.mpr ⟨hd, hret⟩] at hreturned
      cases hreturned
  · intro hret
    unfold returned
    rw [hret]
    cases job.dbid <;> rfl

theorem Job.Shaped.vacant (h : job.Shaped m) (hkey : job.key = none) : job.vacant m = true := by
  rw [h.zero hkey]
  simp [Job.vacant, Job.zero]

theorem Job.create_fields (m : Mode) (d : Fin n) (key : KeyPtr) (info : BackendInfo) (job : Job n) :
    (job.create m d key info).dbid = some d ∧
      (job.create m d key info).key = some key ∧
      (job.create m d key info).returnKey = job.returnKey := by
  cases m <;> simp [create]

theorem Job.create_shaped (m : Mode) (d : Fin n) (key : KeyPtr) (info : BackendInfo) (job : Job n) :
    (job.create m d key info).Shaped m := by
  rcases create_fields m d key info job with ⟨hd, hk, _⟩
  constructor
  · intro hkey
    rw [hk] at hkey
    cases hkey
  · intro _
    rw [hd]
    simp
  · intro hm _
    subst hm
    simp [create]

theorem Job.post_fields (m : Mode) (key : KeyPtr) (val : Option Sds) (result : Bool) (job : Job n) :
    (job.post m key val result).dbid = job.dbid ∧
      (job.post m key val result).key = job.key ∧
      (job.post m key val result).returnKey = some key := by
  cases m <;> simp [post]

theorem Job.Shaped.post (h : job.Shaped m) (hkey : job.key = some key) (val : Option Sds)
    (result : Bool) :
    (job.post m key val result).Shaped m := by
  rcases post_fields m key val result job with ⟨hd, hk, _⟩
  have hne : job.key ≠ none := by simp [hkey]
  constructor
  · intro hnone
    rw [hk, hkey] at hnone
    cases hnone
  · intro _
    rw [hd]
    exact h.dbid hne
  · intro hm _
    subst hm
    exact h.val rfl hne

/-!
# The abstraction
-/

def WorkerPc.protocol : WorkerPc n -> HandOff.Worker (Fin n × KeyPtr)
  | .polling => .polling
  | .running d key => .running (d, key)
  | .executed d key _ _ => .executed (d, key)
  | .signalling => .signalling

def jobKey (j : Fin n × KeyPtr) : Fin n × Sds :=
  (j.1, j.2.bytes)

def Channel.protocol (ch : Channel n) (phase : HandOff.Phase) :
    HandOff.State (Fin n × KeyPtr) (Fin n × Sds) where
  pending := { dk | dk ∈ ch.candidates }
  slot := ch.job.slot
  returned := ch.job.returned
  worker := ch.worker.protocol
  pipe := ch.pipe
  phase := phase

structure Channel.Sound (m : Mode) (phase : HandOff.Phase) (ch : Channel n) : Prop where
  shaped : ch.job.Shaped m
  handOff : HandOff.Invariant jobKey (ch.protocol phase)

variable (ch)

theorem pending_insert (dk : Fin n × Sds) (info : BackendInfo) :
    { dk' | dk' ∈ ch.candidates.insert dk info } = insert dk { dk' | dk' ∈ ch.candidates } := by
  ext dk'
  simp [mem_insert]

theorem pending_erase (dk : Fin n × Sds) : { dk' | dk' ∈ ch.candidates.erase dk } =
      { dk' | dk' ∈ ch.candidates } \ {dk} := by
  ext dk'
  simp [mem_erase, and_comm]

theorem protocol_release (phase : HandOff.Phase) :
    (releaseWhenFreeClient c ch).protocol phase = ch.protocol phase := by
  unfold protocol
  simp only [mem_release]
  rfl

variable {ch}

theorem Channel.Sound.release (h : ch.Sound m phase) (c : ClientId) :
    (releaseWhenFreeClient c ch).Sound m phase where
  shaped := h.shaped
  handOff := by
    rw [protocol_release]
    exact h.handOff

theorem Channel.sound_init (m : Mode) : (init : Channel n).Sound m .idle where
  shaped := shaped_zero m
  handOff := by
    have hstart : (init : Channel n).protocol .idle = HandOff.State.start := by
      unfold protocol init HandOff.State.start
      simp [WorkerPc.protocol, slot, returned, zero]
    rw [hstart]
    exact invariant_start

/-!
# Creating jobs
-/

inductive Creates (m : Mode) (check : Bool) (ch : Channel n) : Channel n -> Prop where
  | busy : check = true -> (ch.job.key ≠ none ∨ ch.job.returnKey ≠ none) ->
      Creates m check ch ch
  | empty : (check = true -> ch.job.key = none ∧ ch.job.returnKey = none) ->
      (forall dk, dk ∉ ch.candidates) -> Creates m check ch ch
  | job (d : Fin n) (k : Sds) (info : BackendInfo) :
      ch.job.key = none -> ch.job.returnKey = none ->
      ch.candidates.lookup (d, k) = some info ->
      Creates m check ch
        { ch with
          job := ch.job.create m d { addr := ch.nextAddr, bytes := k } info,
          nextAddr := ch.nextAddr + 1 }

theorem vacant_fields (h : job.vacant m = true) : job.key = none ∧ job.returnKey = none := by
  unfold vacant at h
  simp only [Bool.and_eq_true, isNone_iff_eq_none] at h
  exact h.left

theorem createNewJob_spec (h : createNewJobIfHasMoreCandidates m check pick ch = .ok ch') :
    Creates m check ch ch' := by
  unfold createNewJobIfHasMoreCandidates at h
  split at h
  · rename_i hbusy
    cases h
    simp only [Bool.and_eq_true, Bool.not_eq_true', Bool.and_eq_false_iff,
      isNone_eq_false_iff, isSome_iff_ne_none] at hbusy
    exact .busy hbusy.left hbusy.right
  · rename_i hfree
    split at h
    · rename_i hnone
      cases h
      refine .empty ?_ (hasAvailableCandidate_none hnone)
      intro hcheck
      simpa [hcheck, isNone_iff_eq_none] using hfree
    · rename_i d k hsome
      split at h
      · cases h
      · rename_i info hlookup
        split at h
        · rename_i hvacant
          cases h
          rcases vacant_fields hvacant with ⟨hkey, hret⟩
          exact .job d k info hkey hret hlookup
        · cases h

theorem createNewJob_total (hshaped : ch.job.Shaped m) (hfree : check = true ∨ ch.job.key = none)
    (pick : Nat) : exists ch', createNewJobIfHasMoreCandidates m check pick ch = .ok ch' := by
  unfold createNewJobIfHasMoreCandidates
  split
  · exact ⟨_, rfl⟩
  · rename_i hbusy
    have hkey : ch.job.key = none := by
      rcases hfree with hcheck | hkey
      · simp only [hcheck, Bool.true_and, Bool.not_eq_true', Bool.not_eq_false,
          Bool.and_eq_true, isNone_iff_eq_none] at hbusy
        exact hbusy.left
      · exact hkey
    split
    · exact ⟨_, rfl⟩
    · rename_i d k hsome
      have hmem := hasAvailableCandidate_mem hsome
      rw [← lookup_isSome] at hmem
      split
      · rename_i hlookup
        rw [hlookup] at hmem
        cases hmem
      · rw [if_pos (hshaped.vacant hkey)]
        exact ⟨_, rfl⟩

theorem Creates.frame (h : Creates m check ch ch') :
    ch'.candidates = ch.candidates ∧ ch'.worker = ch.worker ∧
      ch'.pipe = ch.pipe ∧ ch'.job.returnKey = ch.job.returnKey := by
  cases h with
  | busy _ _ | empty _ _ => exact ⟨rfl, rfl, rfl, rfl⟩
  | job d k info _ _ _ =>
    exact ⟨rfl, rfl, rfl, (create_fields m d _ info ch.job).right.right⟩

theorem Creates.shaped (h : Creates m check ch ch') (hshaped : ch.job.Shaped m) :
    ch'.job.Shaped m := by
  cases h with
  | busy _ _ => exact hshaped
  | empty _ _ => exact hshaped
  | job d k info _ _ _ => exact create_shaped m d _ info ch.job

theorem Creates.publishes (h : Creates m check ch ch') (hshaped : ch.job.Shaped m)
    (hkey : ch.job.key = none) :
    HandOff.Publishes jobKey { dk | dk ∈ ch.candidates } ch'.job.slot ∧
      ch'.job.returned = none := by
  have hzero := hshaped.zero hkey
  cases h with
  | busy _ hbusy =>
    simp [hzero, zero] at hbusy
  | empty _ hnone =>
    rw [hzero]
    exact ⟨.none (Set.eq_empty_of_forall_notMem hnone), rfl⟩
  | job d k info _ hret hlookup =>
    have hshaped' := create_shaped m d { addr := ch.nextAddr, bytes := k } info ch.job
    rcases create_fields m d { addr := ch.nextAddr, bytes := k } info ch.job with ⟨hd, hk, hret'⟩
    constructor
    · change HandOff.Publishes jobKey _ (ch.job.create m d _ info).slot
      rw [slot_eq_some.mpr ⟨hd, hk⟩]
      exact .some _ (mem_of_lookup hlookup)
    · exact hshaped'.returned_none.mpr (hret'.trans hret)

/-!
# The steps of the main thread
-/

theorem Channel.Sound.enqueue (h : ch.Sound m phase) (dk : Fin n × Sds) (info : BackendInfo)
    (hcreate : Creates m true { ch with candidates := ch.candidates.insert dk info } ch') :
    ch'.Sound m phase := by
  have hshaped := hcreate.shaped h.shaped
  refine ⟨hshaped, ?_⟩
  rcases hcreate.frame with ⟨hcand, hworker, hpipe, _⟩
  by_cases hfree : ch.job.key = none ∧ ch.job.returnKey = none
  · rcases hcreate.publishes h.shaped hfree.left with ⟨hpub, hreturned⟩
    have hslot : (ch.protocol phase).slot = none := h.shaped.slot_none.mpr hfree.left
    have hret : (ch.protocol phase).returned = none := h.shaped.returned_none.mpr hfree.right
    rw [pending_insert] at hpub
    have hstep := HandOff.Step.addFree (ch.protocol phase) dk ch'.job.slot hslot hret hpub
    have hstate : ch'.protocol phase =
        { ch.protocol phase with
          pending := insert dk (ch.protocol phase).pending,
          slot := ch'.job.slot } := by
      unfold protocol
      rw [hcand, hworker, hpipe, hreturned, pending_insert, h.shaped.returned_none.mpr hfree.right]
    rw [hstate]
    exact step_invariant hstep h.handOff
  · have hch : ch' = { ch with candidates := ch.candidates.insert dk info } := by
      cases hcreate with
      | busy _ _ => rfl
      | empty hnone _ => exact absurd (hnone rfl) hfree
      | job d k info' hkey hret _ => exact absurd ⟨hkey, hret⟩ hfree
    have hbusy : (ch.protocol phase).slot ≠ none ∨ (ch.protocol phase).returned ≠ none := by
      by_contra hnone
      simp only [not_or, not_not] at hnone
      exact hfree ⟨h.shaped.slot_none.mp hnone.left, h.shaped.returned_none.mp hnone.right⟩
    have hstep : HandOff.Step jobKey (ch.protocol phase) _ := .addBusy (ch.protocol phase) dk hbusy
    have hstate : ch'.protocol phase =
        { ch.protocol phase with
          pending := insert dk (ch.protocol phase).pending } := by
      rw [hch]
      unfold protocol
      rw [pending_insert]
    rw [hstate]
    exact step_invariant hstep h.handOff

theorem Channel.Sound.posted (h : ch.Sound m .idle) (hpipe : 0 < ch.pipe) :
    exists d key, ch.job.dbid = some d ∧ ch.job.key = some key ∧
      ch.job.returnKey = some key ∧ (d, key.bytes) ∈ ch.candidates := by
  rcases (invariant_idle rfl).mp h.handOff with ⟨hready, hcount⟩
  have hret : (ch.protocol .idle).returned ≠ none := by
    intro hnone
    change ch.pipe + (ch.protocol .idle).worker.owed = (ch.protocol .idle).due at hcount
    simp [HandOff.State.due, hnone] at hcount
    lia
  rcases ne_none_iff_exists'.mp hret with ⟨⟨d, key⟩, hj⟩
  have hslot := hready.returned_slot _ hj
  rcases slot_eq_some.mp hslot with ⟨hd, hk⟩
  exact ⟨d, key, hd, hk, (returned_eq_some.mp hj).right, hready.slot_pending _ hslot⟩

theorem readFinished_spec {f : Finished n} (h : readFinished m ch = .ok f) :
    ch.job.dbid = some f.dbid ∧ ch.job.key = some f.key ∧
      ch.job.returnKey = some f.key ∧ f.val = ch.job.val ∧
      f.result = ch.job.syncResult ∧ f.setTtl = ch.job.setTtl := by
  unfold readFinished at h
  split at h
  · rename_i d key returnKey hd hk hr
    split at h
    · rename_i heq
      subst heq
      cases h
      exact ⟨hd, hk, hr, rfl, rfl, rfl⟩
    · cases h
  · cases h

theorem readFinished_total (hd : ch.job.dbid = some d) (hk : ch.job.key = some key)
    (hr : ch.job.returnKey = some key) :
    readFinished m ch =
      .ok { dbid := d, key := key, val := ch.job.val,
            result := ch.job.syncResult, setTtl := ch.job.setTtl } := by
  simp [readFinished, hd, hk, hr]

theorem takeWaiters_spec {k : Sds} {clients : List ClientId}
    (h : takeWaiters m d k ch = .ok (ch', clients)) :
    exists info, ch.candidates.lookup (d, k) = some info ∧
      clients = info.clients ∧
      ch' = { ch with candidates := ch.candidates.erase (d, k) } := by
  unfold takeWaiters at h
  split at h
  · cases h
  · rename_i info hlookup
    cases h
    exact ⟨info, hlookup, rfl, rfl⟩

theorem Channel.Sound.begin (h : ch.Sound m .idle) (hpipe : 0 < ch.pipe) (hd : ch.job.dbid = some d)
    (hk : ch.job.key = some key) (hr : ch.job.returnKey = some key) :
    ({ ch with candidates := ch.candidates.erase (d, key.bytes) } :
      Channel n).Sound m .clearing := by
  refine ⟨h.shaped, ?_⟩
  have hslot : (ch.protocol .idle).slot = some (d, key) := slot_eq_some.mpr ⟨hd, hk⟩
  have hret : (ch.protocol .idle).returned = some (d, key) := returned_eq_some.mpr ⟨hd, hr⟩
  have hstep : HandOff.Step jobKey (ch.protocol .idle) _ :=
    .begin (ch.protocol .idle) (d, key) rfl hpipe hslot hret
  have hstate : ({ ch with candidates := ch.candidates.erase (d, key.bytes) } :
        Channel n).protocol .clearing =
      { ch.protocol .idle with
        phase := .clearing,
        pending := (ch.protocol .idle).pending \ {jobKey (d, key)} } := by
    unfold protocol jobKey
    rw [pending_erase]
  rw [hstate]
  exact step_invariant hstep h.handOff

theorem clearJob_spec (h : clearJob m pick ch = .ok ch') :
    Creates m false { ch with job := zero } ch' := by
  unfold clearJob at h
  split at h
  · exact createNewJob_spec h
  · cases h

section

variable (h : ch.Sound m .clearing)
include h

theorem Channel.Sound.holds_finished :
    exists d key, ch.job.dbid = some d ∧ ch.job.key = some key ∧ ch.job.returnKey = some key := by
  have hclear := (invariant_clearing rfl).mp h.handOff
  rcases hclear.slot_returned with ⟨⟨d, key⟩, hslot, hret⟩
  rcases slot_eq_some.mp hslot with ⟨hd, hk⟩
  exact ⟨d, key, hd, hk, (returned_eq_some.mp hret).right⟩

theorem Channel.Sound.clearJob_total (pick : Nat) : exists ch', clearJob m pick ch = .ok ch' := by
  rcases h.holds_finished with ⟨d, key, _, hk, hr⟩
  unfold clearJob
  rw [if_pos ⟨by simp [hr], by rw [hk, hr]⟩]
  exact createNewJob_total (shaped_zero m) (Or.inr rfl) pick

theorem Channel.Sound.finish (hcreate : Creates m false { ch with job := zero } ch') :
    ch'.Sound m .draining := by
  refine ⟨hcreate.shaped (shaped_zero m), ?_⟩
  rcases hcreate.frame with ⟨hcand, hworker, hpipe, _⟩
  rcases hcreate.publishes (shaped_zero m) rfl with ⟨hpub, hret⟩
  have hstep := HandOff.Step.finish (ch.protocol .clearing) ch'.job.slot rfl hpub
  have hstate : ch'.protocol .draining =
      { ch.protocol .clearing with
        phase := .draining, slot := ch'.job.slot, returned := none } := by
    unfold protocol
    rw [hcand, hworker, hpipe, hret]
  rw [hstate]
  exact step_invariant hstep h.handOff

end

theorem Channel.Sound.drain (h : ch.Sound m .draining) (hpipe : 0 < ch.pipe) :
    ({ ch with pipe := ch.pipe - 1 } : Channel n).Sound m .idle where
  shaped := h.shaped
  handOff :=
    step_invariant (HandOff.Step.drain (ch.protocol .draining) rfl hpipe) h.handOff

/-!
# The steps of the working thread
-/

theorem getJobInWorkingThread_spec (h : getJobInWorkingThread m ch = .ok ch') :
    ch' = ch ∨
      exists d key, ch.job.dbid = some d ∧ ch.job.key = some key ∧
        ch.job.returnKey = none ∧ ch' = { ch with worker := .running d key } := by
  unfold getJobInWorkingThread at h
  split at h
  · rename_i key hret hkey
    split at h
    · rename_i d hd
      cases h
      exact Or.inr ⟨d, key, hd, hkey, hret, rfl⟩
    · cases h
  · cases h
    exact Or.inl rfl

theorem getJobInWorkingThread_total (h : ch.job.Shaped m) :
    exists ch', getJobInWorkingThread m ch = .ok ch' := by
  unfold getJobInWorkingThread
  split
  · rename_i key hret hkey
    have hdbid := h.dbid (by simp [hkey])
    rcases ne_none_iff_exists'.mp hdbid with ⟨d, hd⟩
    rw [hd]
    exact ⟨_, rfl⟩
  · exact ⟨_, rfl⟩

theorem Channel.Sound.take (h : ch.Sound m phase) (hworker : ch.worker = .polling)
    (hd : ch.job.dbid = some d) (hk : ch.job.key = some key) (hr : ch.job.returnKey = none) :
    ({ ch with worker := .running d key } : Channel n).Sound m phase where
  shaped := h.shaped
  handOff := by
    have hslot : (ch.protocol phase).slot = some (d, key) := slot_eq_some.mpr ⟨hd, hk⟩
    have hret : (ch.protocol phase).returned = none := h.shaped.returned_none.mpr hr
    have hpoll : (ch.protocol phase).worker = .polling := by
      simp [protocol, hworker, WorkerPc.protocol]
    exact step_invariant (HandOff.Step.take (ch.protocol phase) (d, key) hpoll hslot hret) h.handOff

theorem Channel.Sound.execute (h : ch.Sound m phase) (hworker : ch.worker = .running d key)
    (val : Option Sds) (result : Bool) :
    ({ ch with worker := .executed d key val result } : Channel n).Sound m
      phase where
  shaped := h.shaped
  handOff := by
    have hrun : (ch.protocol phase).worker = .running (d, key) := by
      simp [protocol, hworker, WorkerPc.protocol]
    exact step_invariant
      (HandOff.Step.execute (ch.protocol phase) (d, key) hrun)
      h.handOff

theorem Channel.Sound.working {j : Fin n × KeyPtr} (h : ch.Sound m phase)
    (hworker : ch.worker.protocol = .running j ∨ ch.worker.protocol = .executed j) :
    ch.job.dbid = some j.1 ∧ ch.job.key = some j.2 ∧
      ch.job.returnKey = none ∧ jobKey j ∈ ch.candidates ∧
      phase ≠ .clearing := by
  have hphase : phase ≠ .clearing := by
    intro hclear
    subst hclear
    have hpoll := ((invariant_clearing rfl).mp h.handOff).worker
    change ch.worker.protocol = .polling at hpoll
    rw [hpoll] at hworker
    simp at hworker
  have hready := ready_of_invariant h.handOff hphase
  have hslot := worker_slot hready hworker
  rcases slot_eq_some.mp hslot.left with ⟨hd, hk⟩
  exact ⟨hd, hk, h.shaped.returned_none.mp hslot.right, hready.slot_pending j hslot.left, hphase⟩

theorem postResult_spec {val : Option Sds} {result : Bool}
    (h : postResult m key val result ch = .ok ch') :
    ch.job.key = some key ∧ ch.job.returnKey = none ∧
      ch' = { ch with job := ch.job.post m key val result, worker := .signalling } := by
  unfold postResult at h
  split at h
  · rename_i hslot
    cases h
    exact ⟨hslot.left, hslot.right, rfl⟩
  · cases h

theorem Channel.Sound.post {val : Option Sds} {result : Bool} (h : ch.Sound m phase)
    (hworker : ch.worker = .executed d key val result) :
    ({ ch with job := ch.job.post m key val result,
               worker := .signalling } : Channel n).Sound m phase := by
  have hexec : ch.worker.protocol = .executed (d, key) := by
    simp [hworker, WorkerPc.protocol]
  rcases h.working (Or.inr hexec) with ⟨hd, hk, _, _, _⟩
  rcases post_fields m key val result ch.job with ⟨hd', hk', hr'⟩
  refine ⟨h.shaped.post hk val result, ?_⟩
  have hstep : HandOff.Step jobKey (ch.protocol phase) _ := .post (ch.protocol phase) (d, key) hexec
  have hslot : (ch.job.post m key val result).slot = ch.job.slot := by
    rw [slot_eq_some.mpr ⟨hd, hk⟩]
    exact slot_eq_some.mpr ⟨by rw [hd', hd], by rw [hk', hk]⟩
  have hret : (ch.job.post m key val result).returned = some (d, key) :=
    returned_eq_some.mpr ⟨by rw [hd', hd], hr'⟩
  have hstate :
      ({ ch with job := ch.job.post m key val result,
                 worker := .signalling } : Channel n).protocol phase =
      { ch.protocol phase with
        worker := .signalling, returned := some (d, key) } := by
    unfold protocol
    simp [hslot, hret, WorkerPc.protocol]
  rw [hstate]
  exact step_invariant hstep h.handOff

theorem Channel.Sound.signal (h : ch.Sound m phase) (hworker : ch.worker = .signalling) :
    ({ ch with worker := .polling, pipe := ch.pipe + 1 } : Channel n).Sound m
      phase where
  shaped := h.shaped
  handOff := by
    have hsig : (ch.protocol phase).worker = .signalling := by
      simp [protocol, hworker, WorkerPc.protocol]
    exact step_invariant (HandOff.Step.signal (ch.protocol phase) hsig) h.handOff

/-!
# Executed operations
-/

def Channel.Executed (ch : Channel n) (phase : HandOff.Phase) (dk : Fin n × Sds) : Prop :=
  (exists j, ch.worker.protocol = .executed j ∧ jobKey j = dk) ∨
    (phase ≠ .clearing ∧ exists j, ch.job.returned = some j ∧ jobKey j = dk)

instance (ch : Channel n) (phase : HandOff.Phase) (dk : Fin n × Sds) :
    Decidable (ch.Executed phase dk) :=
  let worker : Option (Fin n × KeyPtr) :=
    match ch.worker with
    | .executed d key _ _ => some (d, key)
    | _ => none
  decidable_of_iff
    ((exists j, j ∈ worker ∧ jobKey j = dk) ∨
      (phase ≠ .clearing ∧ exists j, j ∈ ch.job.returned ∧ jobKey j = dk)) <| by
    unfold Channel.Executed
    have hworker : forall j, j ∈ worker <-> ch.worker.protocol = .executed j := by
      intro j
      cases hw : ch.worker with
      | _ => simp [worker, hw, WorkerPc.protocol]
    simp only [hworker, Option.mem_def]

theorem executed_congr {phase' : HandOff.Phase}
    (hworker : forall j, ch'.worker.protocol = .executed j <-> ch.worker.protocol = .executed j)
    (hret : ch'.job.returned = ch.job.returned) (hphase : phase' = .clearing <-> phase = .clearing) :
    ch'.Executed phase' dk <-> ch.Executed phase dk := by
  unfold Channel.Executed
  rw [hret]
  simp only [hworker, ne_eq, hphase]

theorem not_executed (hworker : forall j, ch.worker.protocol ≠ .executed j)
    (hret : phase = .clearing ∨ ch.job.returned = none) : Not (ch.Executed phase dk) := by
  rintro (⟨j, hj, _⟩ | ⟨hphase, j, hj, _⟩)
  · exact hworker j hj
  rcases hret with hclear | hnone
  · exact hphase hclear
  · rw [hnone] at hj
    cases hj

theorem returned_of_none (h : job.returnKey = none) : job.returned = none := by
  cases hret : job.returned with
  | none => rfl
  | some j =>
    rw [(returned_eq_some.mp hret).right] at h
    cases h

theorem Channel.Sound.executed_mem (h : ch.Sound m phase) (hexec : ch.Executed phase dk) :
    dk ∈ ch.candidates := by
  rcases hexec with ⟨j, hj, hkey⟩ | ⟨hphase, j, hj, hkey⟩
  · rw [← hkey]
    exact (h.working (Or.inr hj)).2.2.2.1
  · have hready := ready_of_invariant h.handOff hphase
    rw [← hkey]
    exact hready.slot_pending j (hready.returned_slot j hj)

theorem Channel.Sound.not_executed_clearing (h : ch.Sound m .clearing) :
    Not (ch.Executed .clearing dk) := by
  refine not_executed ?_ (Or.inl rfl)
  intro j hj
  exact (h.working (Or.inr hj)).2.2.2.2 rfl

theorem Creates.executed (h : Creates m check ch ch') :
    ch'.Executed phase dk <-> ch.Executed phase dk := by
  cases h with
  | busy _ _ => exact Iff.rfl
  | empty _ _ => exact Iff.rfl
  | job d k info _ hret _ =>
    refine executed_congr (fun _ => Iff.rfl) ?_ Iff.rfl
    rcases create_fields m d { addr := ch.nextAddr, bytes := k } info ch.job with ⟨_, _, hret'⟩
    rw [returned_of_none hret]
    exact returned_of_none (hret'.trans hret)

theorem idle_worker (h : ch.Sound m phase) (hret : ch.job.returnKey ≠ none) :
    forall j, ch.worker.protocol ≠ .executed j := by
  intro j hj
  exact hret (h.working (Or.inr hj)).2.2.1

end Redisoo
