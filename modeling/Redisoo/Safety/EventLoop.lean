import Redisoo.Safety.SlotProtocol

/-!
# The event loop above the server

`aeApiPoll` writes the ready descriptors to the array `fired`, which all calls of
`aeProcessEvents` share.  A script over its time limit calls `aeProcessEvents`
again, and the outer call then goes on with what the inner one left in the array.
This module puts the loop over the server's steps, in which a handler is called
because its pipe has a byte, and says when the two agree.
-/

namespace Redisoo

open Foundation World

variable {n : Nat}

inductive Fd where
  | socket (c : ClientId)
  | pipe (m : Mode)
  deriving DecidableEq

/-- A call of `aeProcessEvents`: the loop's `j` and `numevents`, and the depth of
the server's stack the call runs on. -/
structure LoopCall where
  depth : Nat
  j : Nat
  numevents : Nat

structure EventLoop (n : Nat) where
  world : World n
  fired : List Fd
  calls : List LoopCall

inductive LoopLabel (n : Nat) where
  | aeApiPoll (ready : List Fd)
  | dispatch (cmds : List (Command n))
  | leave
  | run (l : Label n)

namespace EventLoop

def start (cfg : Config) (backend : Sds -> Option Sds) (db : Fin n)
    (master : Option ClientId) : EventLoop n :=
  ⟨World.start cfg backend db master, [], []⟩

def loops (s : EventLoop n) (call : LoopCall) : Bool :=
  s.world.acceptsEvents && s.world.stack.length == call.depth

def inHandler (s : EventLoop n) : Bool :=
  match s.calls with
  | [] => false
  | call :: _ => call.depth < s.world.stack.length

def mayPoll (s : EventLoop n) : Bool :=
  s.world.acceptsEvents && (s.calls.isEmpty || s.inHandler)

def ready (s : EventLoop n) : Fd -> Bool
  | .socket c => (s.world.clients c).status = .connected && !s.world.inScript c
  | .pipe m => 0 < (s.world.hub m).pipe

/-- `aeApiPoll` overwrites the first `numevents` entries and leaves the others. -/
def aeApiPoll (s : EventLoop n) (fds : List Fd) : EventLoop n :=
  if s.mayPoll && fds.all s.ready && decide fds.Nodup then
    { s with
      fired := fds ++ s.fired.drop fds.length
      calls := ⟨s.world.stack.length, 0, fds.length⟩ :: s.calls }
  else s

def next (s : EventLoop n) : Option Fd :=
  match s.calls with
  | [] => none
  | call :: _ =>
    if s.loops call && decide (call.j < call.numevents) then s.fired[call.j]? else none

def advance (s : EventLoop n) (w : World n) : EventLoop n :=
  match s.calls with
  | [] => { s with world := w }
  | call :: rest => { s with world := w, calls := { call with j := call.j + 1 } :: rest }

/-- `rfileProc` of the descriptor.  Nothing is asked of the pipe: the handler is
called because the entry says so. -/
def rfileProc (s : EventLoop n) (cmds : List (Command n)) : Fd -> Except Crash (World n)
  | .socket c => s.world.externalStep (.recv c cmds)
  | .pipe m => s.world.pipeHandler m

def leave (s : EventLoop n) : EventLoop n :=
  match s.calls with
  | [] => s
  | call :: rest =>
    if s.loops call && decide (call.numevents <= call.j) then { s with calls := rest } else s

/-- Input and completions come through `fired` only, and a function that has called
`aeProcessEvents` goes on when the call has returned. -/
def admits (s : EventLoop n) : Label n -> Bool
  | .main _ _ => s.inHandler
  | .external (.recv _ _) => false
  | .external (.pipe _) => false
  | _ => true

def step (l : LoopLabel n) (s : EventLoop n) : Except Crash (EventLoop n) :=
  match l with
  | .aeApiPoll fds => .ok (s.aeApiPoll fds)
  | .dispatch cmds =>
    match s.next with
    | none => .ok s
    | some fd => (s.rfileProc cmds fd).map s.advance
  | .leave => .ok s.leave
  | .run l =>
    if s.admits l then (World.step l s.world).map (fun w => { s with world := w }) else .ok s

/-!
# The loop's steps as steps of the server
-/

def event (cmds : List (Command n)) : Fd -> External n
  | .socket c => .recv c cmds
  | .pipe m => .pipe m

def label (s : EventLoop n) : LoopLabel n -> Option (Label n)
  | .dispatch cmds => s.next.map (fun fd => .external (event cmds fd))
  | .run l => if s.admits l then some l else none
  | .aeApiPoll _ => none
  | .leave => none

/-- The entry read next is that of a pipe which has been emptied since the entry
was written. -/
def stale (s : EventLoop n) : LoopLabel n -> Bool
  | .dispatch _ =>
    match s.next with
    | some (.pipe m) => (s.world.hub m).pipe == 0
    | _ => false
  | _ => false

/-- No handler is started inside a handler of the same mode. -/
def CompletesHandlers (l : LoopLabel n) (s : EventLoop n) : Prop :=
  forall l', l' ∈ s.label l -> HandlersRunToCompletion l' s.world

instance (l : LoopLabel n) (s : EventLoop n) : Decidable (CompletesHandlers l s) :=
  inferInstanceAs (Decidable (forall l', l' ∈ s.label l -> HandlersRunToCompletion l' s.world))

def DispatchesFresh (l : LoopLabel n) (s : EventLoop n) : Prop :=
  CompletesHandlers l s ∧ s.stale l = false

instance (l : LoopLabel n) (s : EventLoop n) : Decidable (DispatchesFresh l s) :=
  inferInstanceAs (Decidable (CompletesHandlers l s ∧ s.stale l = false))

variable {s : EventLoop n} {l : LoopLabel n}

theorem advance_world (w : World n) : (s.advance w).world = w := by
  unfold advance
  split
  · rfl
  · rfl

theorem accepts_of_next {fd : Fd} (h : s.next = some fd) : s.world.acceptsEvents = true := by
  unfold next loops at h
  split at h
  · cases h
  · split at h
    · rename_i hloops
      simp only [Bool.and_eq_true] at hloops
      exact hloops.left.left
    · cases h

theorem rfileProc_fresh {cmds : List (Command n)} {fd : Fd} (hnext : s.next = some fd)
    (hfresh : s.stale (.dispatch cmds) = false) :
    s.rfileProc cmds fd = World.step (.external (event cmds fd)) s.world := by
  have haccepts := accepts_of_next hnext
  cases fd with
  | socket c => simp [rfileProc, World.step, event, haccepts]
  | pipe m =>
    have hpipe : 0 < (s.world.hub m).pipe := by
      simp only [stale, hnext, beq_eq_false_iff_ne] at hfresh
      lia
    simp [rfileProc, World.step, event, haccepts, externalStep, hpipe]

theorem step_world (hfresh : s.stale l = false) :
    (step l s).map EventLoop.world =
      match s.label l with
      | none => .ok s.world
      | some l' => World.step l' s.world := by
  cases l with
  | aeApiPoll fds =>
    change Except.ok (s.aeApiPoll fds).world = .ok s.world
    unfold aeApiPoll
    split
    · rfl
    · rfl
  | dispatch cmds =>
    cases hnext : s.next with
    | none => simp [step, label, hnext, Except.map]
    | some fd =>
      simp only [step, label, hnext, Option.map_some, rfileProc_fresh hnext hfresh]
      cases World.step (.external (event cmds fd)) s.world with
      | ok w => simp [Except.map, advance_world]
      | error e => rfl
  | leave =>
    change Except.ok s.leave.world = .ok s.world
    unfold leave
    split
    · rfl
    · split
      · rfl
      · rfl
  | run l =>
    by_cases hadmits : s.admits l = true
    · simp only [step, label, hadmits, if_true]
      cases World.step l s.world with
      | ok w => rfl
      | error e => rfl
    · simp [step, label, hadmits, Except.map]

/-- Without stale dispatches the loop refines the server: its runs are runs of the
server, with the same end. -/
theorem run_refines {ls : List (LoopLabel n)} (hall : AllSteps step DispatchesFresh ls s) :
    exists labels, AllSteps World.step HandlersRunToCompletion labels s.world ∧
      runSteps World.step labels s.world = (runSteps step ls s).map EventLoop.world := by
  induction ls generalizing s with
  | nil => exact ⟨[], trivial, rfl⟩
  | cons l rest ih =>
    rcases hall with ⟨⟨hcomplete, hfresh⟩, hrest⟩
    have hworld := step_world hfresh
    cases hlabel : s.label l with
    | none =>
      rw [hlabel] at hworld
      cases hstep : step l s with
      | error e =>
        rw [hstep] at hworld
        cases hworld
      | ok s1 =>
        rw [hstep] at hworld
        have heq : s1.world = s.world := Except.ok.inj hworld
        rcases ih (hrest s1 hstep) with ⟨labels, hlabels, hrun⟩
        rw [heq] at hlabels hrun
        exact ⟨labels, hlabels, by rw [runSteps_cons_ok hstep, hrun]⟩
    | some l' =>
      rw [hlabel] at hworld
      have hl' : HandlersRunToCompletion l' s.world := hcomplete l' hlabel
      cases hstep : step l s with
      | error e =>
        rw [hstep] at hworld
        have herror : World.step l' s.world = .error e := hworld.symm
        refine ⟨[l'], ⟨hl', fun w hw => trivial⟩, ?_⟩
        rw [runSteps_cons_error herror, runSteps_cons_error hstep]
        rfl
      | ok s1 =>
        rw [hstep] at hworld
        have hok : World.step l' s.world = .ok s1.world := hworld.symm
        rcases ih (hrest s1 hstep) with ⟨labels, hlabels, hrun⟩
        refine ⟨l' :: labels, ⟨hl', ?_⟩, ?_⟩
        · intro w hw
          rw [hok] at hw
          cases hw
          exact hlabels
        · rw [runSteps_cons_ok hok, runSteps_cons_ok hstep, hrun]

end EventLoop

/-- Between events every slot follows the protocol, and no run of the event loop
dies from an assertion on a slot, as long as handlers run to completion and no
stale entry of `fired` is dispatched. -/
theorem event_loop_follows_protocol (cfg : Config) (backend : Sds -> Option Sds)
    (db : Fin n) (master : Option ClientId) (labels : List (LoopLabel n))
    (hall : AllSteps EventLoop.step EventLoop.DispatchesFresh labels
      (EventLoop.start cfg backend db master)) :
    (forall s, runSteps EventLoop.step labels (EventLoop.start cfg backend db master) =
        .ok s -> s.world.stack = [] -> forall m, SlotProtocol m (s.world.hub m)) ∧
      (forall e, runSteps EventLoop.step labels
        (EventLoop.start cfg backend db master) = .error e -> Not e.OfSlot) := by
  rcases EventLoop.run_refines hall with ⟨ls, hls, hrefines⟩
  have hprotocol := slots_follow_protocol cfg backend db master ls hls
  constructor
  · intro s hrun
    rw [hrun] at hrefines
    exact hprotocol.left s.world hrefines
  · intro e hrun
    rw [hrun] at hrefines
    exact hprotocol.right e hrefines

/-- A client asks for a missing key, and the result is back while the script of
another client runs over its limit. -/
def slowScriptRun : List (LoopLabel 1) :=
  [.aeApiPoll [.socket 0], .dispatch [.data (.get [107])], .run (.main 0 false),
   .run (.main 0 false), .leave,
   .aeApiPoll [.socket 1, .socket 2], .dispatch [.simple (.eval [])], .run (.main 0 false),
   .run .timeout,
   .run (.work .get true), .run (.work .get true), .run (.work .get true),
   .run (.work .get true),
   -- the script's own call of `aeProcessEvents`
   .aeApiPoll [.socket 2, .pipe .get], .dispatch [], .run (.main 0 false), .dispatch [],
   .run (.main 0 false), .run (.main 0 false), .run (.main 0 false), .run (.main 0 false),
   .leave,
   -- the script ends
   .run (.main 0 false), .run (.main 0 false)]

theorem event_loop_follows_protocol_slow_script :
    exists s, runSteps EventLoop.step slowScriptRun
        (EventLoop.start Config.synchronous (fun _ => some [118]) 0 none) = .ok s ∧
      s.world.stack = [] ∧ forall m, SlotProtocol m (s.world.hub m) :=
  ⟨_, rfl, rfl, (event_loop_follows_protocol Config.synchronous (fun _ => some [118]) 0 none
      slowScriptRun (allSteps_of_check (by decide +kernel))).left _ rfl rfl⟩

/-- The outer call goes on with index 1, where the inner call has left the GET pipe,
and the handler finds no result: every handler has run to completion, and the
server dies. -/
theorem stale_dispatch_aborts :
    AllSteps EventLoop.step EventLoop.CompletesHandlers (slowScriptRun ++ [.dispatch []])
        (EventLoop.start Config.synchronous (fun _ => some [118]) 0 none) ∧
      runSteps EventLoop.step (slowScriptRun ++ [.dispatch []])
        (EventLoop.start Config.synchronous (fun _ => some [118]) 0 none) =
      .error (.slotAssert .get) :=
  ⟨allSteps_of_check (by decide +kernel), rfl⟩

end Redisoo
