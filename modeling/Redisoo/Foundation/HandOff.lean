import Mathlib.Data.Set.Basic
import Mathlib.Data.Set.Insert

/-!
# A single-slot hand-off between a producer and a worker

A producer keeps a set of pending keys and one slot.  While the slot is free it
publishes one pending key there as a job.  A worker polls the slot, takes the
job, executes it, posts the job back as returned and only then signals a pipe.
On a signal the producer runs a handler in two halves: the first withdraws the
key from the pending set, the second frees the slot, publishes the next job and
finally reads the signal.  Between the halves, and before the read, the worker
keeps going.

This module gives the protocol as a step relation and proves its invariant.
-/

namespace Redisoo
namespace Foundation
namespace HandOff

inductive Worker (job : Type _) where
  | polling
  | running (j : job)
  | executed (j : job)
  | signalling

inductive Phase where
  | idle
  | clearing
  | draining
  deriving DecidableEq

structure State (job key : Type _) where
  pending : Set key
  slot : Option job
  returned : Option job
  worker : Worker job
  pipe : Nat
  phase : Phase

variable {job key : Type _}

def Worker.owed : Worker job -> Nat
  | .signalling => 1
  | _ => 0

def State.due (s : State job key) : Nat :=
  if s.returned.isSome then 1 else 0

inductive Publishes (keyOf : job -> key) (pending : Set key) : Option job -> Prop where
  | none : pending = ∅ -> Publishes keyOf pending none
  | some (j : job) : keyOf j ∈ pending -> Publishes keyOf pending (some j)

inductive Step (keyOf : job -> key) : State job key -> State job key -> Prop where
  | addBusy (s : State job key) (k : key) :
      (s.slot ≠ none ∨ s.returned ≠ none) ->
      Step keyOf s { s with pending := insert k s.pending }
  | addFree (s : State job key) (k : key) (slot : Option job) :
      s.slot = none -> s.returned = none ->
      Publishes keyOf (insert k s.pending) slot ->
      Step keyOf s { s with pending := insert k s.pending, slot := slot }
  | take (s : State job key) (j : job) :
      s.worker = .polling -> s.slot = some j -> s.returned = none ->
      Step keyOf s { s with worker := .running j }
  | execute (s : State job key) (j : job) :
      s.worker = .running j ->
      Step keyOf s { s with worker := .executed j }
  | post (s : State job key) (j : job) :
      s.worker = .executed j ->
      Step keyOf s { s with worker := .signalling, returned := some j }
  | signal (s : State job key) :
      s.worker = .signalling ->
      Step keyOf s { s with worker := .polling, pipe := s.pipe + 1 }
  | begin (s : State job key) (j : job) :
      s.phase = .idle -> 0 < s.pipe ->
      s.slot = some j -> s.returned = some j ->
      Step keyOf s { s with phase := .clearing, pending := s.pending \ {keyOf j} }
  | finish (s : State job key) (slot : Option job) :
      s.phase = .clearing -> Publishes keyOf s.pending slot ->
      Step keyOf s { s with phase := .draining, slot := slot, returned := none }
  | drain (s : State job key) :
      s.phase = .draining -> 0 < s.pipe ->
      Step keyOf s { s with phase := .idle, pipe := s.pipe - 1 }

/-!
# The invariant

Outside the first half of a handler the slot holds a job for a pending key
exactly while there is one, and the worker's position agrees with the slot.
Inside it the slot still holds the withdrawn job and the worker polls in vain.
-/

def WorkerAgrees (s : State job key) : Prop :=
  match s.worker with
  | .polling => True
  | .running j => s.slot = some j ∧ s.returned = none
  | .executed j => s.slot = some j ∧ s.returned = none
  | .signalling => s.returned ≠ none

structure Ready (keyOf : job -> key) (s : State job key) : Prop where
  slot_iff : s.slot ≠ none <-> s.pending.Nonempty
  slot_pending : forall j, s.slot = some j -> keyOf j ∈ s.pending
  returned_slot : forall j, s.returned = some j -> s.slot = some j
  worker : WorkerAgrees s

structure Clearing (s : State job key) : Prop where
  slot_returned : exists j, s.slot = some j ∧ s.returned = some j
  worker : s.worker = .polling
  pipe : s.pipe = 1

def Invariant (keyOf : job -> key) (s : State job key) : Prop :=
  match s.phase with
  | .idle => Ready keyOf s ∧ s.pipe + s.worker.owed = s.due
  | .clearing => Clearing s
  | .draining => Ready keyOf s ∧ s.pipe + s.worker.owed = s.due + 1

variable {keyOf : job -> key} {s : State job key} {j : job}

open State

open Worker

theorem invariant_idle (hphase : s.phase = .idle) :
    Invariant keyOf s <-> Ready keyOf s ∧ s.pipe + s.worker.owed = s.due := by
  simp [Invariant, hphase]

theorem invariant_clearing (hphase : s.phase = .clearing) : Invariant keyOf s <-> Clearing s := by
  simp [Invariant, hphase]

theorem invariant_draining (hphase : s.phase = .draining) :
    Invariant keyOf s <-> Ready keyOf s ∧ s.pipe + s.worker.owed = s.due + 1 := by
  simp [Invariant, hphase]

theorem ready_of_invariant (h : Invariant keyOf s) (hphase : s.phase ≠ .clearing) :
    Ready keyOf s := by
  cases hp : s.phase with
  | idle => exact ((invariant_idle hp).mp h).left
  | clearing => exact absurd hp hphase
  | draining => exact ((invariant_draining hp).mp h).left

def State.start : State job key where
  pending := ∅
  slot := none
  returned := none
  worker := .polling
  pipe := 0
  phase := .idle

theorem invariant_start : Invariant keyOf (start : State job key) := by
  rw [invariant_idle rfl]
  constructor
  · constructor
    · simp [start]
    · intro j hslot
      cases hslot
    · intro j hreturned
      cases hreturned
    · trivial
  · rfl

theorem publishes_ready {pending : Set key} {slot : Option job} (h : Publishes keyOf pending slot) :
    (slot ≠ none <-> pending.Nonempty) ∧ forall j, slot = some j -> keyOf j ∈ pending := by
  cases h with
  | none hempty =>
    constructor
    · simp [hempty]
    · intro j hslot
      cases hslot
  | some j hj =>
    constructor
    · constructor
      · intro _
        exact ⟨keyOf j, hj⟩
      · intro _ hnone
        cases hnone
    · intro j' hslot
      cases hslot
      exact hj

/-!
# Preservation

Each step is checked once per phase.  The worker's own steps never look at the
phase, so they are stated for the slot invariant alone.
-/

theorem not_clearing (h : Invariant keyOf s) (hblock : s.worker ≠ .polling ∨ s.returned = none) :
    s.phase ≠ .clearing := by
  intro hclear
  have hc := (invariant_clearing hclear).mp h
  rcases hc.slot_returned with ⟨j, _, hreturned⟩
  rcases hblock with hworker | hnone
  · exact hworker hc.worker
  · rw [hreturned] at hnone
    cases hnone

section

variable (h : Ready keyOf s)
include h

theorem ready_add_busy {k : key} (hbusy : s.slot ≠ none ∨ s.returned ≠ none) :
    Ready keyOf { s with pending := insert k s.pending } := by
  have hslot : s.slot ≠ none := by
    rcases hbusy with hslot | hreturned
    · exact hslot
    · rcases Option.ne_none_iff_exists'.mp hreturned with ⟨j, hj⟩
      rw [h.returned_slot j hj]
      simp
  constructor
  · constructor
    · intro _
      exact ⟨k, Set.mem_insert k s.pending⟩
    · intro _
      exact hslot
  · intro j hslot'
    exact Set.mem_insert_of_mem k (h.slot_pending j hslot')
  · exact h.returned_slot
  · exact h.worker

theorem ready_add_free {k : key} {slot : Option job} (hslot : s.slot = none)
    (hreturned : s.returned = none) (hpub : Publishes keyOf (insert k s.pending) slot) :
    Ready keyOf { s with pending := insert k s.pending, slot := slot } := by
  rcases publishes_ready hpub with ⟨hiff, hmem⟩
  constructor
  · exact hiff
  · exact hmem
  · intro j hj
    change s.returned = some j at hj
    rw [hreturned] at hj
    cases hj
  · have hworker := h.worker
    unfold WorkerAgrees at hworker ⊢
    cases hw : s.worker with
    | polling => trivial
    | running j | executed j =>
      simp [hw, hslot] at hworker
    | signalling =>
      simp [hw, hreturned] at hworker

theorem worker_slot (hworker : s.worker = .running j ∨ s.worker = .executed j) :
    s.slot = some j ∧ s.returned = none := by
  have hagrees := h.worker
  unfold WorkerAgrees at hagrees
  rcases hworker with hworker | hworker
  · rw [hworker] at hagrees
    exact hagrees
  · rw [hworker] at hagrees
    exact hagrees

theorem ready_worker {worker : Worker job} {pipe : Nat}
    (hagrees : WorkerAgrees { s with worker := worker, pipe := pipe }) :
    Ready keyOf { s with worker := worker, pipe := pipe } where
  slot_iff := h.slot_iff
  slot_pending := h.slot_pending
  returned_slot := h.returned_slot
  worker := hagrees

theorem ready_post (hworker : s.worker = .executed j) :
    Ready keyOf { s with worker := .signalling, returned := some j } where
  slot_iff := h.slot_iff
  slot_pending := h.slot_pending
  returned_slot := by
    intro j' hj
    cases hj
    exact (worker_slot h (.inr hworker)).left
  worker := by
    simp [WorkerAgrees]

end

def Balanced (keyOf : job -> key) (s : State job key) (extra : Nat) : Prop :=
  Ready keyOf s ∧ s.pipe + s.worker.owed = s.due + extra

theorem invariant_of_balanced {extra : Nat} (h : Balanced keyOf s extra)
    (hphase : (s.phase = .idle ∧ extra = 0) ∨ (s.phase = .draining ∧ extra = 1)) :
    Invariant keyOf s := by
  rcases hphase with ⟨hidle, hextra⟩ | ⟨hdraining, hextra⟩
  · rw [invariant_idle hidle]
    simpa [Balanced, hextra] using h
  · rw [invariant_draining hdraining]
    simpa [Balanced, hextra] using h

theorem balanced_of_invariant (h : Invariant keyOf s) (hphase : s.phase ≠ .clearing) :
    exists extra, Balanced keyOf s extra ∧
      ((s.phase = .idle ∧ extra = 0) ∨ (s.phase = .draining ∧ extra = 1)) := by
  cases hp : s.phase with
  | idle =>
    exact ⟨0, by simpa [Balanced] using (invariant_idle hp).mp h, Or.inl ⟨rfl, rfl⟩⟩
  | clearing => exact absurd hp hphase
  | draining =>
    exact ⟨1, (invariant_draining hp).mp h, Or.inr ⟨rfl, rfl⟩⟩

theorem clearing_of_begin (h : Invariant keyOf s) (hidle : s.phase = .idle) (hpipe : 0 < s.pipe)
    (hslot : s.slot = some j) (hreturned : s.returned = some j) : Clearing s := by
  rcases (invariant_idle hidle).mp h with ⟨hready, hcount⟩
  have hdue : s.due = 1 := by simp [due, hreturned]
  refine ⟨⟨j, hslot, hreturned⟩, ?_, ?_⟩
  · have hagrees := hready.worker
    unfold WorkerAgrees at hagrees
    cases hw : s.worker with
    | polling => rfl
    | running j' | executed j' => simp [hw, hreturned] at hagrees
    | signalling =>
      simp [hw, owed] at hcount
      lia
  · lia

theorem step_invariant {s' : State job key} (hstep : Step keyOf s s') (h : Invariant keyOf s) :
    Invariant keyOf s' := by
  cases hstep with
  | addBusy k hbusy =>
    by_cases hclear : s.phase = .clearing
    · have hc := (invariant_clearing hclear).mp h
      refine (invariant_clearing ?_).mpr ⟨hc.slot_returned, hc.worker, hc.pipe⟩
      exact hclear
    · rcases balanced_of_invariant h hclear with ⟨extra, hb, hp⟩
      exact invariant_of_balanced ⟨ready_add_busy hb.left hbusy, hb.right⟩ hp
  | addFree k slot hslot hreturned hpub =>
    rcases balanced_of_invariant h (not_clearing h (Or.inr hreturned)) with ⟨extra, hb, hp⟩
    exact invariant_of_balanced ⟨ready_add_free hb.left hslot hreturned hpub, hb.right⟩ hp
  | take j hworker hslot hreturned =>
    rcases balanced_of_invariant h (not_clearing h (Or.inr hreturned)) with ⟨extra, hb, hp⟩
    refine invariant_of_balanced ⟨ready_worker hb.left ⟨hslot, hreturned⟩, ?_⟩ hp
    simpa [due, owed, hworker] using hb.right
  | execute j hworker =>
    rcases balanced_of_invariant h (not_clearing h (Or.inl (by simp [hworker]))) with ⟨extra, hb, hp⟩
    have hslot := worker_slot hb.left (.inl hworker)
    refine invariant_of_balanced ⟨ready_worker hb.left hslot, ?_⟩ hp
    simpa [due, owed, hworker] using hb.right
  | post j hworker =>
    rcases balanced_of_invariant h (not_clearing h (Or.inl (by simp [hworker]))) with ⟨extra, hb, hp⟩
    refine invariant_of_balanced ⟨ready_post hb.left hworker, ?_⟩ hp
    have hreturned := (worker_slot hb.left (.inr hworker)).right
    have hcount := hb.right
    simp [due, owed, hworker, hreturned] at hcount ⊢
    lia
  | signal hworker =>
    rcases balanced_of_invariant h (not_clearing h (Or.inl (by simp [hworker]))) with ⟨extra, hb, hp⟩
    refine invariant_of_balanced ⟨ready_worker hb.left trivial, ?_⟩ hp
    have hcount := hb.right
    simp [due, owed, hworker] at hcount ⊢
    lia
  | begin j hidle hpipe hslot hreturned =>
    have hc := clearing_of_begin h hidle hpipe hslot hreturned
    rw [invariant_clearing rfl]
    exact ⟨hc.slot_returned, hc.worker, hc.pipe⟩
  | finish slot hclear hpub =>
    have hc := (invariant_clearing hclear).mp h
    rcases publishes_ready hpub with ⟨hiff, hmem⟩
    rw [invariant_draining rfl]
    constructor
    · constructor
      · exact hiff
      · exact hmem
      · intro j hj
        cases hj
      · simp [WorkerAgrees, hc.worker]
    · simp [due, owed, hc.worker, hc.pipe]
  | drain hdraining hpipe =>
    rcases (invariant_draining hdraining).mp h with ⟨hready, hcount⟩
    rw [invariant_idle rfl]
    refine ⟨⟨hready.slot_iff, hready.slot_pending, hready.returned_slot, hready.worker⟩, ?_⟩
    change s.pipe - 1 + s.worker.owed = s.due
    lia

end HandOff
end Foundation
end Redisoo
