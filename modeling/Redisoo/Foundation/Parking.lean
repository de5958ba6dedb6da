import Mathlib.Data.List.Basic
import Mathlib.Logic.Function.Basic

/-!
# Requests that wait for an operation

Clients send requests.  A request is answered at once, or it is parked at a
place where an operation is pending.  When the operation has been executed the
place is completed, and the requests parked there are taken up again and
answered.  The ledger says which events may follow which; a record it accepts
has one operation and one completion for every entry of a place, one resumption
for every parked request, and the replies of a client in the order of its
requests.
-/

namespace Redisoo
namespace Foundation
namespace Parking

variable {client place request : Type _}

inductive Stage (place request : Type _) where
  | idle
  | busy (r : request)
  | waiting (p : place) (r : request)
  | due (p : place) (r : request)
  | gone

inductive Event (client place request : Type _) where
  | arrive (c : client) (r : request)
  | enter (p : place)
  | suspend (c : client) (p : place)
  | execute (p : place)
  | complete (p : place)
  | resume (c : client) (p : place)
  | reply (c : client) (r : request)
  | leave (c : client)

@[ext] structure Ledger (client place request : Type _) where
  stage : client -> Stage place request
  entry : place -> Option Bool

namespace Stage

def park (p : place) : Stage place request -> Stage place request
  | .busy r => .waiting p r
  | s => s

def release [DecidableEq place] (p : place) : Stage place request -> Stage place request
  | .waiting p' r => if p' = p then .due p r else .waiting p' r
  | s => s

def unpark : Stage place request -> Stage place request
  | .due _ r => .busy r
  | s => s

def Owes : Stage place request -> List request -> Prop
  | .idle, owed => owed = []
  | .busy r, owed => owed = [r]
  | .waiting _ r, owed => owed = [r]
  | .due _ r, owed => owed = [r]
  | .gone, owed => owed.length ≤ 1

variable {s : Stage place request} {owed : List request}

section

variable (h : s.Owes owed)
include h

theorem owes_length : owed.length ≤ 1 := by
  cases s with
  | idle =>
    rw [show owed = [] from h]
    exact Nat.zero_le 1
  | busy r | waiting p r | due p r =>
    rw [show owed = [r] from h]
    exact Nat.le_refl 1
  | gone => exact h

theorem owes_release [DecidableEq place] {p : place} : (s.release p).Owes owed := by
  cases s with
  | idle => exact h
  | busy r => exact h
  | waiting p' r =>
    change (if p' = p then Stage.due p r else Stage.waiting p' r).Owes owed
    split
    · exact h
    · exact h
  | due p' r => exact h
  | gone => exact h

theorem owes_park {p : place} : (s.park p).Owes owed := by
  cases s with
  | idle => exact h
  | busy r => exact h
  | waiting p' r => exact h
  | due p' r => exact h
  | gone => exact h

theorem owes_unpark : s.unpark.Owes owed := by
  cases s with
  | idle => exact h
  | busy r => exact h
  | waiting p' r => exact h
  | due p' r => exact h
  | gone => exact h

end

end Stage

namespace Ledger

variable {es older : List (Event client place request)}

section Record

variable [DecidableEq client] [DecidableEq place]

def start : Ledger client place request where
  stage := fun _ => .idle
  entry := fun _ => none

def setStage (L : Ledger client place request) (c : client)
    (s : Stage place request) : Ledger client place request :=
  { L with stage := Function.update L.stage c s }

def setEntry (L : Ledger client place request) (p : place)
    (e : Option Bool) : Ledger client place request :=
  { L with entry := Function.update L.entry p e }

def next (L : Ledger client place request) :
    Event client place request -> Ledger client place request
  | .arrive c r => L.setStage c (.busy r)
  | .enter p => L.setEntry p (some false)
  | .suspend c p => L.setStage c ((L.stage c).park p)
  | .execute p => L.setEntry p (some true)
  | .complete p =>
    { stage := fun c => (L.stage c).release p
      entry := Function.update L.entry p none }
  | .resume c _ => L.setStage c (L.stage c).unpark
  | .reply c _ => L.setStage c .idle
  | .leave c => L.setStage c .gone

/-- The events that may come next; `asks` says which places a request may be
parked at. -/
def Allowed (asks : request -> place -> Prop)
    (L : Ledger client place request) : Event client place request -> Prop
  | .arrive c _ => L.stage c = .idle
  | .enter p => L.entry p = none
  | .suspend c p => L.entry p ≠ none ∧ exists r, L.stage c = .busy r ∧ asks r p
  | .execute p => L.entry p = some false
  | .complete p => L.entry p = some true
  | .resume c p => exists r, L.stage c = .due p r
  | .reply c r => L.stage c = .busy r
  | .leave c => L.stage c ≠ .gone

def after (L : Ledger client place request) :
    List (Event client place request) -> Ledger client place request
  | [] => L
  | e :: older => (L.after older).next e

def Accepts (asks : request -> place -> Prop) (L : Ledger client place request) :
    List (Event client place request) -> Prop
  | [] => True
  | e :: older => Accepts asks L older ∧ (L.after older).Allowed asks e

variable {asks : request -> place -> Prop} {L : Ledger client place request}

theorem after_append : L.after (es ++ older) = (L.after older).after es := by
  induction es with
  | nil => rfl
  | cons e es ih =>
    change (L.after (es ++ older)).next e = ((L.after older).after es).next e
    rw [ih]

theorem accepts_append (hold : L.Accepts asks older) (hnew : (L.after older).Accepts asks es) :
    L.Accepts asks (es ++ older) := by
  induction es with
  | nil => exact hold
  | cons e es ih =>
    constructor
    · exact ih hnew.left
    · change (L.after (es ++ older)).Allowed asks e
      rw [after_append]
      exact hnew.right

end Record

/-!
# Replies in the order of requests
-/

section Order

variable [DecidableEq client]

def requests (c : client) : List (Event client place request) -> List request
  | [] => []
  | .arrive c' r :: older =>
    if c' = c then r :: requests c older else requests c older
  | _ :: older => requests c older

def replies (c : client) : List (Event client place request) -> List request
  | [] => []
  | .reply c' r :: older =>
    if c' = c then r :: replies c older else replies c older
  | _ :: older => replies c older

variable {asks : request -> place -> Prop}

theorem owes_setStage {L : Ledger client place request} {c c' : client}
    {s : Stage place request} {owed : List request} (hsame : c' = c -> s.Owes owed)
    (hother : c' ≠ c -> (L.stage c).Owes owed) : ((L.setStage c' s).stage c).Owes owed := by
  by_cases hc : c' = c
  · subst hc
    change (Function.update L.stage c' s c').Owes owed
    rw [Function.update_self]
    exact hsame rfl
  · change (Function.update L.stage c' s c).Owes owed
    rw [Function.update_of_ne (Ne.symm hc)]
    exact hother hc

theorem requests_eq_replies [DecidableEq place]
    (h : (start : Ledger client place request).Accepts asks es) (c : client) :
    exists owed, ((start.after es).stage c).Owes owed ∧ requests c es = owed ++ replies c es := by
  induction es with
  | nil => exact ⟨[], rfl, rfl⟩
  | cons e older ih =>
    rcases ih h.left with ⟨owed, howes, heq⟩
    have hallowed := h.right
    change exists owed, (((start.after older).next e).stage c).Owes owed ∧ _
    cases e with
    | arrive c' r =>
      by_cases hc : c' = c
      · subst hc
        rw [show (start.after older).stage c' = .idle from hallowed] at howes
        rw [show owed = [] from howes] at heq
        refine ⟨[r], owes_setStage (fun _ => rfl) (fun hne => absurd rfl hne), ?_⟩
        simp [requests, replies, heq]
      · refine ⟨owed, owes_setStage (fun h => absurd h hc) (fun _ => howes), ?_⟩
        simpa [requests, replies, hc] using heq
    | enter p => exact ⟨owed, howes, heq⟩
    | suspend c' p =>
      refine ⟨owed, owes_setStage ?_ (fun _ => howes), heq⟩
      intro hc
      rw [hc]
      exact Stage.owes_park howes
    | execute p => exact ⟨owed, howes, heq⟩
    | complete p => exact ⟨owed, Stage.owes_release howes, heq⟩
    | resume c' p =>
      refine ⟨owed, owes_setStage ?_ (fun _ => howes), heq⟩
      intro hc
      rw [hc]
      exact Stage.owes_unpark howes
    | reply c' r =>
      by_cases hc : c' = c
      · subst hc
        rw [show (start.after older).stage c' = .busy r from hallowed] at howes
        rw [show owed = [r] from howes] at heq
        refine ⟨[], owes_setStage (fun _ => rfl) (fun hne => absurd rfl hne), ?_⟩
        simpa [requests, replies] using heq
      · refine ⟨owed, owes_setStage (fun h => absurd h hc) (fun _ => howes), ?_⟩
        simpa [requests, replies, hc] using heq
    | leave c' =>
      refine ⟨owed, owes_setStage (fun _ => ?_) (fun _ => howes), heq⟩
      exact Stage.owes_length howes

end Order

end Ledger

end Parking
end Foundation
end Redisoo
