import Redisoo.Foundation.Run
import Redisoo.Server.Channels

/-!
# The job slots over whole runs

Every move of the server is, for each mode, no step or one step of the hand-off
protocol, provided no handler is dispatched inside a handler of the same mode.
Between events the slot is therefore filled exactly while there is a candidate,
and no assertion on the slots fails.
-/

namespace Redisoo

open Foundation World

variable {n : Nat}

structure World.Sound (m : Mode) (w : World n) : Prop where
  channel : (w.hub m).Sound m (phaseOf m w.stack)
  single : SingleHandler m w.stack

variable {m : Mode} {ch : Channel n} {l : Label n} {w : World n} {e : Crash}

theorem Channel.Sound.releaseAll {phase : HandOff.Phase} (h : ch.Sound m phase)
    (victims : List ClientId) : (victims.foldr releaseWhenFreeClient ch).Sound m phase := by
  induction victims with
  | nil => exact h
  | cons c victims ih => exact ih.release c

theorem ChannelMove.sound {ch' : Channel n} {phase phase' : HandOff.Phase}
    (hmove : ChannelMove m ch phase ch' phase') (h : ch.Sound m phase) : ch'.Sound m phase' := by
  cases hmove with
  | same => exact h
  | release victims => exact h.releaseAll victims
  | enqueue dk value ttl waiter info ch' _ hcreate =>
    exact h.enqueue dk info hcreate
  | take d key hworker hd hk hr => exact h.take hworker hd hk hr
  | execute d key val result hworker _ => exact h.execute hworker val result
  | post d key val result hworker _ _ => exact h.post hworker
  | signal hworker => exact h.signal hworker
  | begin d key info hidle hpipe hd hk hr _ =>
    subst hidle
    exact h.begin hpipe hd hk hr
  | finish ch' hclear hcreate =>
    subst hclear
    exact h.finish hcreate
  | drain hdrain hpipe =>
    subst hdrain
    exact h.drain hpipe

theorem move_sound {w' : World n} (hmove : Move l w w') (honce : RunsToCompletion m l w)
    (h : w.Sound m) : w'.Sound m := by
  have hmoves := move_channel hmove honce h.single
  exact ⟨hmoves.channel.sound h.channel, hmoves.single⟩

/-!
# No assertion on a slot fails
-/

def Crash.OfSlot : Crash -> Prop
  | .slotAssert _ => True
  | .noWaitingList _ => True
  | _ => False

theorem checkCommand_error {cl : Client n} {dc : DataCommand n}
    (h : w.checkCommand cl dc = .error e) : e = .intPointer := by
  cases dc with
  | get k => cases h
  | setlike sc =>
    simp only [checkCommand] at h
    split at h
    · rename_i e' hset
      cases h
      unfold checkSetCommandForBackendState at hset
      dsimp only at hset
      split at hset
      · cases hset
      split at hset
      · cases hset
      split at hset
      · cases hset
      split at hset
      · rename_i e' hsame
        cases hset
        unfold isSameValueInDbForSet at hsame
        split at hsame
        · cases hsame
        · cases hsame
        · cases hsame
        · cases hsame
          rfl
        · cases hsame
      · cases hset
    · cases h
  | del k more => cases h
  | ordinary o => cases h

theorem addKeyToBackendKeys_error {d : Fin n} {k value : Sds} {ttl : Int} {waiter : Option ClientId}
    (h : addKeyToBackendKeys m d k value ttl waiter ch = .error e) : e = .setValueAssert := by
  unfold addKeyToBackendKeys at h
  split at h
  · cases h
  split at h
  · cases h
    rfl
  · cases h

theorem enqueue_error {d : Fin n} {a : World.Admission} {waiter : Option ClientId} {pick : Nat}
    (hshaped : (w.hub a.mode).job.Shaped a.mode) (h : w.enqueue d a waiter pick = .error e) :
    e = .setValueAssert := by
  unfold enqueue at h
  split at h
  · rename_i e' hadd
    cases h
    exact addKeyToBackendKeys_error hadd
  · rename_i ch hadd
    rcases addKeyToBackendKeys_spec hadd with ⟨info, _, hch⟩
    have hshaped' : ch.job.Shaped a.mode := by
      rw [hch]
      exact hshaped
    rcases createNewJob_total hshaped' (Or.inl rfl) pick with ⟨ch', hok⟩
    rw [hok] at h
    cases h

theorem resume_error {d : Fin n} {k : Sds} {result : Bool} {c : ClientId}
    (h : w.resumeBackendClient m d k result c = .error e) :
    (e = .useAfterFree c ∧ (w.clients c).status = .freed) ∨
      (e = .stateAssert ∧ (w.clients c).backendState = none) ∨
      (e = .nullCommand c ∧ (w.clients c).cmd = none) := by
  unfold resumeBackendClient at h
  dsimp only at h
  split at h
  · rename_i hfreed
    cases h
    exact Or.inl ⟨rfl, hfreed⟩
  split at h
  · rename_i hstate
    cases h
    exact Or.inr (Or.inl ⟨rfl, hstate⟩)
  split at h
  · rename_i hcmd
    cases h
    exact Or.inr (Or.inr ⟨rfl, hcmd⟩)
  · cases h

theorem installValue_error {f : Finished n} (h : w.installValue m f = .error e) :
    e.OfSlot ∧ m = .set ∧ f.val = none := by
  unfold installValue at h
  dsimp only at h
  split at h
  · split at h <;> cases h
  · split at h
    · split at h
      · rename_i hval
        cases h
        exact ⟨trivial, rfl, hval⟩
      · cases h
    · cases h
  · cases h

theorem implementJobByBackend_error {ok : Bool} {key : Sds} {job : Job n}
    {backend : Sds -> Option Sds} (h : implementJobByBackend m ok key job backend = .error e) :
    (e = .emptyValueAssert ∧ m = .get ∧ ok = true ∧ backend key = some []) ∨
      (e.OfSlot ∧ m = .set ∧ job.val = none) := by
  unfold implementJobByBackend at h
  split at h
  · cases ok with
    | false => cases h
    | true =>
      simp only [if_true] at h
      split at h
      · rename_i hempty
        cases h
        exact Or.inl ⟨rfl, rfl, rfl, hempty⟩
      · cases h
  · split at h
    · rename_i hval
      cases h
      exact Or.inr ⟨trivial, rfl, hval⟩
    · split at h <;> cases h
  · split at h <;> cases h

theorem createNewJob_error {check : Bool} {pick : Nat}
    (h : createNewJobIfHasMoreCandidates m check pick ch = .error e) : e.OfSlot := by
  unfold createNewJobIfHasMoreCandidates at h
  split at h
  · cases h
  split at h
  · cases h
  split at h
  · cases h
    trivial
  split at h
  · cases h
  · cases h
    trivial

theorem fault_cases (hfault : Fault l w e) :
    e.OfSlot ∨ e = .intPointer ∨ e = .setValueAssert ∨ e = .emptyValueAssert ∨
      exists m d k result c more rest,
        w.stack = .clear m d k result (c :: more) :: rest ∧
          w.resumeBackendClient m d k result c = .error e := by
  cases hfault with
  | check _ hcheck => exact Or.inr (Or.inl (checkCommand_error hcheck))
  | enqueue _ _ henqueue =>
    unfold enqueue at henqueue
    split at henqueue
    · rename_i e' hadd
      cases henqueue
      exact Or.inr (Or.inr (Or.inl (addKeyToBackendKeys_error hadd)))
    · exact Or.inl (createNewJob_error henqueue)
  | resume hstack hresume =>
    exact Or.inr (Or.inr (Or.inr (Or.inr ⟨_, _, _, _, _, _, _, hstack, hresume⟩)))
  | finish _ hclear =>
    left
    unfold clearJob at hclear
    split at hclear
    · exact createNewJob_error hclear
    · cases hclear
      trivial
  | read _ _ hread =>
    left
    unfold readFinished at hread
    split at hread
    · split at hread
      · cases hread
      · cases hread
        trivial
    · cases hread
      trivial
  | install _ _ _ hinstall => exact Or.inl (installValue_error hinstall).left
  | waiters _ _ _ htake =>
    left
    unfold takeWaiters at htake
    split at htake
    · cases htake
      trivial
    · cases htake
  | take _ htake =>
    left
    unfold getJobInWorkingThread at htake
    split at htake
    · split at htake
      · cases htake
      · cases htake
        trivial
    · cases htake
  | execute _ himpl =>
    rcases implementJobByBackend_error himpl with ⟨he, _⟩ | ⟨hslot, _⟩
    · exact Or.inr (Or.inr (Or.inr (Or.inl he)))
    · exact Or.inl hslot
  | post _ hpost =>
    left
    unfold postResult at hpost
    split at hpost
    · cases hpost
    · cases hpost
      trivial

theorem fault_not_ofSlot (hfault : Fault l w e) (honce : forall m, RunsToCompletion m l w)
    (h : forall m, w.Sound m) : Not e.OfSlot := by
  intro hslot
  cases hfault with
  | check _ hcheck =>
    rw [checkCommand_error hcheck] at hslot
    exact hslot
  | @enqueue _ _ _ _ _ _ _ _ a _ _ _ _ henqueue =>
    rw [enqueue_error (h a.mode).channel.shaped henqueue] at hslot
    exact hslot
  | resume _ hresume =>
    rcases resume_error hresume with ⟨he, _⟩ | ⟨he, _⟩ | ⟨he, _⟩
    · rw [he] at hslot
      exact hslot
    · rw [he] at hslot
      exact hslot
    · rw [he] at hslot
      exact hslot
  | @finish pick _ _ m _ _ _ _ _ hstack hclear =>
    have hchannel := (h m).channel
    rw [hstack] at hchannel
    simp only [phaseOf, if_true] at hchannel
    rcases hchannel.clearJob_total pick with ⟨ch, hok⟩
    rw [hok] at hclear
    cases hclear
  | @read _ m _ haccepts hpipe hread =>
    have hchannel := (h m).channel
    rw [honce m rfl haccepts] at hchannel
    rcases hchannel.posted hpipe with ⟨d, key, hd, hk, hr, _⟩
    rw [readFinished_total hd hk hr] at hread
    cases hread
  | @install _ m f _ _ _ hread hinstall =>
    rcases installValue_error hinstall with ⟨_, hm, hval⟩
    rcases readFinished_spec hread with ⟨_, hk, _, hval', _, _⟩
    refine (h m).channel.shaped.val hm (by simp [hk]) ?_
    rw [← hval']
    exact hval
  | @waiters _ m f _ haccepts hpipe hread htake =>
    have hchannel := (h m).channel
    rw [honce m rfl haccepts] at hchannel
    rcases hchannel.posted hpipe with ⟨d, key, hd, hk, _, hmem⟩
    rcases readFinished_spec hread with ⟨hd', hk', _, _, _, _⟩
    rw [hd] at hd'
    rw [hk] at hk'
    cases hd'
    cases hk'
    rw [← AList.lookup_isSome, Option.isSome_iff_exists] at hmem
    rcases hmem with ⟨info, hinfo⟩
    unfold takeWaiters at htake
    rw [hinfo] at htake
    cases htake
  | @take _ m _ _ _ htake =>
    rcases getJobInWorkingThread_total (h m).channel.shaped with ⟨ch, hok⟩
    rw [hok] at htake
    cases htake
  | @execute _ m _ d key _ hworker himpl =>
    rcases implementJobByBackend_error himpl with ⟨he, _⟩ | ⟨_, hm, hval⟩
    · rw [he] at hslot
      exact hslot
    have hrun : (w.hub m).worker.protocol = .running (d, key) := by
      simp [hworker, WorkerPc.protocol]
    rcases (h m).channel.working (Or.inl hrun) with ⟨_, hk, _, _, _⟩
    exact (h m).channel.shaped.val hm (by simp [hk]) hval
  | @post _ m _ d key val result _ hworker hpost =>
    have hexec : (w.hub m).worker.protocol = .executed (d, key) := by
      simp [hworker, WorkerPc.protocol]
    rcases (h m).channel.working (Or.inr hexec) with ⟨_, hk, hr, _, _⟩
    unfold postResult at hpost
    rw [if_pos ⟨hk, hr⟩] at hpost
    cases hpost

/-!
# Whole runs
-/

def HandlersRunToCompletion (l : Label n) (w : World n) : Prop :=
  match l with
  | .external (.pipe m) => w.acceptsEvents = true -> phaseOf m w.stack = .idle
  | _ => True

instance (l : Label n) (w : World n) : Decidable (HandlersRunToCompletion l w) := by
  unfold HandlersRunToCompletion
  split <;> infer_instance

theorem HandlersRunToCompletion.mode (h : HandlersRunToCompletion l w) (m : Mode) :
    RunsToCompletion m l w := by
  intro hl
  subst hl
  exact h

theorem sound_start (cfg : Config) (backend : Sds -> Option Sds) (db : Fin n)
    (master : Option ClientId) (m : Mode) :
    (start cfg backend db master).Sound m where
  channel := Channel.sound_init m
  single := trivial

theorem run_sound {labels : List (Label n)} {w' : World n} (h : forall m, w.Sound m)
    (hall : AllSteps step HandlersRunToCompletion labels w)
    (hrun : runSteps step labels w = .ok w') : forall m, w'.Sound m :=
  runSteps_invariant
    (fun _ _ _ hI honce hstep m =>
      move_sound (step_move hstep) (honce.mode m) (hI m))
    h hall hrun

theorem run_not_ofSlot {labels : List (Label n)} (h : forall m, w.Sound m)
    (hall : AllSteps step HandlersRunToCompletion labels w)
    (hrun : runSteps step labels w = .error e) : Not e.OfSlot :=
  runSteps_never_fails
    (fun _ _ _ hI honce hstep m =>
      move_sound (step_move hstep) (honce.mode m) (hI m))
    (fun _ _ _ hI honce hstep =>
      fault_not_ofSlot (step_fault hstep) honce.mode hI)
    h hall hrun

structure SlotProtocol (m : Mode) (ch : Channel n) : Prop where
  filled_iff : ch.job.key ≠ none <-> exists dk, dk ∈ ch.candidates
  key_pending : forall key, ch.job.key = some key ->
    exists d, ch.job.dbid = some d ∧ (d, key.bytes) ∈ ch.candidates
  returnKey : ch.job.returnKey = none ∨ ch.job.returnKey = ch.job.key
  bytes : ch.pipe + ch.worker.protocol.owed =
    if ch.job.returnKey.isSome then 1 else 0

theorem slotProtocol_of_sound (h : ch.Sound m .idle) : SlotProtocol m ch := by
  rcases (HandOff.invariant_idle rfl).mp h.handOff with ⟨hready, hcount⟩
  constructor
  · have hkey : ch.job.key ≠ none <-> (ch.protocol .idle).slot ≠ none :=
      not_congr h.shaped.slot_none.symm
    rw [hkey, hready.slot_iff]
    rfl
  · intro key hk
    rcases Option.ne_none_iff_exists'.mp (h.shaped.dbid (by simp [hk])) with ⟨d, hd⟩
    exact ⟨d, hd, hready.slot_pending (d, key) (Job.slot_eq_some.mpr ⟨hd, hk⟩)⟩
  · cases hr : ch.job.returnKey with
    | none => exact Or.inl rfl
    | some key =>
      right
      cases hret : ch.job.returned with
      | none =>
        rw [h.shaped.returned_none.mp hret] at hr
        cases hr
      | some j =>
        have hslot := hready.returned_slot j hret
        rcases Job.slot_eq_some.mp hslot with ⟨_, hk⟩
        rcases Job.returned_eq_some.mp hret with ⟨_, hr'⟩
        rw [hk, ← hr, hr']
  · have hdue : (ch.protocol .idle).due = if ch.job.returnKey.isSome then 1 else 0 := by
      unfold HandOff.State.due
      change (if ch.job.returned.isSome then 1 else 0) = _
      cases hr : ch.job.returnKey with
      | none =>
        rw [h.shaped.returned_none.mpr hr]
        rfl
      | some key =>
        have hne : ch.job.returned ≠ none := by
          intro hnone
          rw [h.shaped.returned_none.mp hnone] at hr
          cases hr
        rw [Option.isSome_iff_ne_none.mpr hne]
        rfl
    rw [← hdue]
    exact hcount

/-- Between events every slot follows the protocol, and no run dies from an
assertion on a slot, as long as handlers run to completion. -/
theorem slots_follow_protocol (cfg : Config) (backend : Sds -> Option Sds)
    (db : Fin n) (master : Option ClientId) (labels : List (Label n))
    (hall : AllSteps World.step HandlersRunToCompletion labels
      (World.start cfg backend db master)) :
    (forall w, runSteps World.step labels (World.start cfg backend db master) =
        .ok w -> w.stack = [] -> forall m, SlotProtocol m (w.hub m)) ∧
      (forall e, runSteps World.step labels
        (World.start cfg backend db master) = .error e -> Not e.OfSlot) := by
  constructor
  · intro w hrun hstack m
    have hchannel := (run_sound (sound_start cfg backend db master) hall hrun m).channel
    rw [hstack] at hchannel
    exact slotProtocol_of_sound hchannel
  · intro e hrun
    exact run_not_ofSlot (sound_start cfg backend db master) hall hrun

end Redisoo
