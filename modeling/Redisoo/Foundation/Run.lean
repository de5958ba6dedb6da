/-!
# Runs of a fallible step function

A system is given by one step function on labels and states.  A step may fail,
which stops the run.  This module fixes what a run is, what it means that every
step of a run meets a condition on the label and the state before the step, and
proves the invariant rule all later safety results are instances of.
-/

namespace Redisoo
namespace Foundation

variable {label state error : Type _}

def runSteps (step : label -> state -> Except error state) :
    List label -> state -> Except error state
  | [], s => .ok s
  | l :: rest, s =>
    match step l s with
    | .ok s' => runSteps step rest s'
    | .error e => .error e

def AllSteps (step : label -> state -> Except error state)
    (P : label -> state -> Prop) : List label -> state -> Prop
  | [], _ => True
  | l :: rest, s =>
    P l s ∧ forall s', step l s = .ok s' -> AllSteps step P rest s'

def checkSteps (step : label -> state -> Except error state)
    (p : label -> state -> Bool) : List label -> state -> Bool
  | [], _ => true
  | l :: rest, s =>
    p l s &&
      match step l s with
      | .ok s' => checkSteps step p rest s'
      | .error _ => true

def reaches (step : label -> state -> Except error state)
    (p : state -> Bool) (ls : List label) (s : state) : Bool :=
  match runSteps step ls s with
  | .ok s' => p s'
  | .error _ => false

theorem map_succeeds {α β γ : Type _} {x : Except error α} {y : Except error β} {f : α -> β}
    {r : γ -> α} {Q : γ -> Prop} {P : β -> Prop} (hstep : y = x.map f)
    (hrun : exists c, x = .ok (r c) ∧ Q c) (h : forall c, Q c -> P (f (r c))) :
    exists b, y = .ok b ∧ P b := by
  rcases hrun with ⟨c, hrun, hc⟩
  rw [hstep, hrun]
  exact ⟨f (r c), rfl, h c hc⟩

theorem ok_bind {α β : Type _} (a : α) (f : α -> Except error β) : (Except.ok a >>= f) = f a := rfl

theorem pure_ok {α : Type _} (a : α) : (pure a : Except error α) = .ok a := rfl

section Rules

variable {step : label -> state -> Except error state} {P Q : label -> state -> Prop}

@[simp] theorem runSteps_nil (s : state) : runSteps step [] s = .ok s := rfl

variable {s : state} {ls : List label} {I : state -> Prop}

theorem runSteps_cons_ok {l : label} {rest : List label} {s' : state} (hstep : step l s = .ok s') :
    runSteps step (l :: rest) s = runSteps step rest s' := by
  simp [runSteps, hstep]

theorem runSteps_cons_error {l : label} {rest : List label} {e : error}
    (hstep : step l s = .error e) : runSteps step (l :: rest) s = .error e := by
  simp [runSteps, hstep]

theorem runSteps_append {xs ys : List label} :
    runSteps step (xs ++ ys) s =
      match runSteps step xs s with
      | .ok s' => runSteps step ys s'
      | .error e => .error e := by
  induction xs generalizing s with
  | nil => rfl
  | cons l rest ih =>
    cases hstep : step l s with
    | ok s' =>
      rw [List.cons_append, runSteps_cons_ok hstep, runSteps_cons_ok hstep]
      exact ih
    | error e =>
      rw [List.cons_append, runSteps_cons_error hstep, runSteps_cons_error hstep]

theorem allSteps_append {xs ys : List label} (hxs : AllSteps step P xs s)
    (hys : forall s', runSteps step xs s = .ok s' -> AllSteps step P ys s') :
    AllSteps step P (xs ++ ys) s := by
  induction xs generalizing s with
  | nil => exact hys s rfl
  | cons l rest ih =>
    constructor
    · exact hxs.left
    intro s' hstep
    apply ih (hxs.right s' hstep)
    intro s'' hrun
    apply hys
    rw [runSteps_cons_ok hstep]
    exact hrun

theorem allSteps_mono (hPQ : forall l s, P l s -> Q l s) (hall : AllSteps step P ls s) :
    AllSteps step Q ls s := by
  induction ls generalizing s with
  | nil => trivial
  | cons l rest ih =>
    constructor
    · exact hPQ l s hall.left
    · intro s' hstep
      exact ih (hall.right s' hstep)

theorem allSteps_of_mem {P : label -> Prop} (h : forall l, l ∈ ls -> P l) :
    AllSteps step (fun l _ => P l) ls s := by
  induction ls generalizing s with
  | nil => trivial
  | cons l rest ih =>
    constructor
    · exact h l List.mem_cons_self
    · intro s' _
      exact ih (fun l' hl' => h l' (List.mem_cons_of_mem l hl'))

theorem allSteps_of_check [forall l s, Decidable (P l s)]
    (hcheck : checkSteps step (fun l s => decide (P l s)) ls s = true) : AllSteps step P ls s := by
  induction ls generalizing s with
  | nil => trivial
  | cons l rest ih =>
    simp only [checkSteps, Bool.and_eq_true, decide_eq_true_eq] at hcheck
    constructor
    · exact hcheck.left
    · intro s' hstep
      rw [hstep] at hcheck
      exact ih hcheck.right

theorem exists_run_iff_reaches {R : state -> Prop} [DecidablePred R] :
    (exists s', runSteps step ls s = .ok s' ∧ R s') <->
      reaches step (fun s => decide (R s)) ls s = true := by
  unfold reaches
  constructor
  · rintro ⟨s', hrun, hs'⟩
    rw [hrun]
    exact decide_eq_true hs'
  intro h
  split at h
  · rename_i s' hrun
    exact ⟨s', hrun, of_decide_eq_true h⟩
  · cases h

theorem exists_run_of_reaches {R : state -> Prop} [DecidablePred R] {ls : List label} {s : state}
    (h : reaches step (fun s => decide (R s)) ls s = true) :
    exists s', runSteps step ls s = .ok s' ∧ R s' :=
  exists_run_iff_reaches.mpr h

theorem runSteps_invariant (hstep : forall l s s', I s -> P l s -> step l s = .ok s' -> I s')
    {ls : List label} {s s' : state} (hI : I s) (hall : AllSteps step P ls s)
    (hrun : runSteps step ls s = .ok s') : I s' := by
  induction ls generalizing s with
  | nil =>
    cases hrun
    exact hI
  | cons l rest ih =>
    cases hl : step l s with
    | ok s1 =>
      rw [runSteps_cons_ok hl] at hrun
      exact ih (hstep l s s1 hI hall.left hl) (hall.right s1 hl) hrun
    | error e =>
      rw [runSteps_cons_error hl] at hrun
      cases hrun

theorem allSteps_of_invariant (hstep : forall l s s', I s -> P l s -> step l s = .ok s' -> I s')
    (hQ : forall l s, I s -> P l s -> Q l s) (hI : I s) (hall : AllSteps step P ls s) :
    AllSteps step Q ls s := by
  induction ls generalizing s with
  | nil => trivial
  | cons l rest ih =>
    constructor
    · exact hQ l s hI hall.left
    · intro s' hl
      exact ih (hstep l s s' hI hall.left hl) (hall.right s' hl)

theorem runSteps_simulates {abstract : Type _} {R : state -> abstract -> Prop}
    {next : label -> abstract -> abstract}
    (hstep : forall l s a, R s a -> P l s -> exists s', step l s = .ok s' ∧ R s' (next l a))
    {a : abstract} (hR : R s a) (hall : AllSteps step P ls s) :
    exists s', runSteps step ls s = .ok s' ∧ R s' (ls.foldl (fun a l => next l a) a) := by
  induction ls generalizing s a with
  | nil => exact ⟨s, rfl, hR⟩
  | cons l rest ih =>
    rcases hstep l s a hR hall.left with ⟨s1, hl, hR1⟩
    rcases ih hR1 (hall.right s1 hl) with ⟨s', hrun, hR'⟩
    exact ⟨s', by rw [runSteps_cons_ok hl, hrun], hR'⟩

theorem runSteps_never_fails {bad : error -> Prop}
    (hstep : forall l s s', I s -> P l s -> step l s = .ok s' -> I s')
    (hsafe : forall l s e, I s -> P l s -> step l s = .error e -> Not (bad e)) {e : error}
    (hI : I s) (hall : AllSteps step P ls s) (hrun : runSteps step ls s = .error e) :
    Not (bad e) := by
  induction ls generalizing s with
  | nil => cases hrun
  | cons l rest ih =>
    cases hl : step l s with
    | ok s1 =>
      rw [runSteps_cons_ok hl] at hrun
      exact ih (hstep l s s1 hI hall.left hl) (hall.right s1 hl) hrun
    | error e' =>
      rw [runSteps_cons_error hl] at hrun
      injection hrun with he
      rw [← he]
      exact hsafe l s e' hI hall.left hl

end Rules

end Foundation
end Redisoo
