import Redisoo.Consistency.Writers

/-!
# Failed synchronous operations

A failed SET or DEL of the backend reaches its client through a flag that the
command, executed again, is to consume.  Where it does, the failure leaves
nothing behind: neither in the keyspace nor in the flags.
-/

namespace Redisoo

open Foundation World SyncReply

variable {n : Nat} (e : Env) (st : Store n)

/-!
# The commands and the flags
-/

/-- The options of the command parse and its expire time is a positive integer,
so that `setGenericCommand` gets to the flag. -/
def SetCommand.wellFormed (sc : SetCommand) : Bool :=
  match sc.args with
  | none => false
  | some a =>
    match a.milliseconds with
    | .ok _ => true
    | .error _ => false

theorem SetCommand.wellFormed_spec {sc : SetCommand} (h : sc.wellFormed = true) :
    exists a ms, sc.args = some a ∧ a.milliseconds = .ok ms := by
  unfold SetCommand.wellFormed at h
  split at h
  · cases h
  · rename_i a hargs
    split at h
    · rename_i ms hms
      exact ⟨a, ms, hargs, hms⟩
    · cases h

def Outcome.consumed (st : Store n) (r : Reply) : Outcome n where
  store := st
  reply := r
  dirty := 0
  flags := SyncReply.clear

open Outcome

theorem setProc_failed (d : Fin n) {sc : SetCommand} (h : sc.wellFormed = true) :
    setProc e st d { clear with set := true } sc = consumed st .null := by
  rcases SetCommand.wellFormed_spec h with ⟨a, ms, hargs, hms⟩
  simp [setProc, hargs, setGenericCommand, hms, consumed, clear]

variable {d : Fin n} {cmd : DataCommand n} {w w' : World n} {c : ClientId} {more : List ClientId}
  {rest : List (Frame n)} {pick : Nat} {deny : Bool} {m : Mode} {k : Sds} {l : Label n}

theorem call_of_consumed {e : Env} {caller : Caller} {st : Store n} {flags : SyncReply} {r : Reply}
    (h : cmd.proc e caller st d flags = consumed st r) :
    cmd.call e caller st d flags = consumed st r := by
  unfold DataCommand.call
  rw [h]
  rfl

theorem proc_flags_clear (caller : Caller) (st : Store n) (d : Fin n) (cmd : DataCommand n) :
    (cmd.proc e caller st d clear).flags = clear := by
  cases cmd with
  | get k => rfl
  | setlike sc =>
    simp only [DataCommand.proc, setProc]
    split
    · rfl
    unfold setGenericCommand
    split
    · rfl
    · rename_i a _ _ ms _
      simp only [clear, Bool.false_eq_true, if_false]
      generalize (if (a.nx || a.xx) = true then (st.lookupKeyWrite e d a.key).1
        else st) = looked
      split
      · rfl
      · rfl
  | del k more => rfl
  | ordinary o => rfl

theorem call_flags_clear (caller : Caller) (st : Store n) (d : Fin n) (cmd : DataCommand n) :
    (cmd.call e caller st d clear).flags = clear := by
  have hproc := proc_flags_clear e caller st d cmd
  unfold DataCommand.call
  dsimp only
  split
  · exact hproc
  · exact hproc

/-!
# Runs without raised flags
-/

def FlagsClear (w : World n) : Prop :=
  forall c, (w.clients c).syncReply = SyncReply.clear

section

variable (h : FlagsClear w)
include h

theorem FlagsClear.setClient {cl : Client n} (hcl : cl.syncReply = clear) :
    FlagsClear (w.setClient c cl) := by
  intro x
  by_cases hx : x = c
  · subst hx
    simpa using hcl
  · simpa [hx] using h x

theorem FlagsClear.freeClient (c : ClientId) : FlagsClear (w.freeClient c) := by
  generalize hw' : w.freeClient c = w'
  cases freeClient_cases hw' with
  | marked _ => exact h.setClient (h c)
  | cached _ _ => exact h.setClient (h c)
  | released _ _ => exact h.setClient (h c)

theorem FlagsClear.callData (c : ClientId) (cmd : DataCommand n) :
    FlagsClear (w.callData c cmd).1 := by
  unfold World.callData
  dsimp only
  rw [h c]
  have hstore : FlagsClear (w.setStore (cmd.call w.env ((w.clients c).caller cmd)
      w.store (w.clients c).db clear).store) := h
  exact hstore.setClient (call_flags_clear _ _ _ _ _)

theorem FlagsClear.callFromScript (c : ClientId) (cmd : DataCommand n) :
    FlagsClear (w.callFromScript c cmd) := by
  rw [callFromScript_frame]
  exact h

theorem FlagsClear.script (c : ClientId) (body : List (DataCommand n)) :
    FlagsClear (body.foldl (fun w cmd => w.callFromScript c cmd) w) := by
  induction body generalizing w with
  | nil => exact h
  | cons cmd rest ih => exact ih (h.callFromScript c cmd)

theorem FlagsClear.callSimple (c : ClientId) (s : Simple n) : FlagsClear (w.callSimple c s).1 := by
  cases s with
  | data cmd => exact h.callData c cmd
  | select d => exact h.setClient (h c)
  | clientKill target =>
    simp only [World.callSimple, World.clientKill]
    split
    · split
      · exact h.setClient (h c)
      · exact h.freeClient target
    · exact h
  | eval body => exact h.script c body

theorem FlagsClear.callQueued (c : ClientId) (queue : List (Simple n)) :
    FlagsClear (callQueued c queue w).1 := by
  induction queue generalizing w with
  | nil => exact h
  | cons s rest ih => exact ih (h.callSimple c s)

theorem FlagsClear.execCommand (c : ClientId) : FlagsClear (w.execCommand c).1 := by
  unfold World.execCommand
  dsimp only
  split
  · exact h
  split
  · exact h.setClient (h c)
  · have hqueue := h.callQueued c
    exact (hqueue _).setClient (hqueue _ c)

theorem FlagsClear.received (c : ClientId) (cmd : Command n) (more : List (Command n)) :
    FlagsClear (w.received c cmd more) :=
  FlagsClear.setClient h (h c)

theorem FlagsClear.serveData (c : ClientId) (cmd : DataCommand n) :
    FlagsClear (w.serveData c cmd) :=
  h.callData c cmd

theorem FlagsClear.entered (c : ClientId) (dc : DataCommand n) (more : List (Command n))
    (st : Store n) (a : World.Admission) (ch : Channel n) :
    FlagsClear (w.entered c dc more st a ch) := by
  intro x
  rw [entered_clients]
  exact h.received c (.data dc) more x

end

theorem Takes.step {cmd : Command n} {more : List (Command n)} (h : Takes w c cmd more rest)
    (pick : Nat) (deny : Bool) :
    step (.main pick deny) w = (w.received c cmd more).processCommand c cmd pick deny := by
  simp only [World.step, World.mainStep, h.stack, World.inputStep, h.ready, if_true, h.querybuf]

theorem FlagsClear.processCommand (h : FlagsClear w) {cmd : Command n}
    (hcontrol : forall dc, cmd ≠ .data dc) (hproc : w.processCommand c cmd pick deny = .ok w') :
    FlagsClear w' := by
  unfold World.processCommand at hproc
  dsimp only at hproc
  split at hproc
  · cases hproc
    refine FlagsClear.setClient h ?_
    unfold Client.flagTransaction
    split
    · exact h c
    · exact h c
  · split at hproc
    · cases hproc
      simp only [replied, multiCommand]
      split
      · exact h
      · exact h.setClient (h c)
    · cases hproc
      exact h.execCommand c
    · cases hproc
      simp only [replied, discardCommand]
      split
      · exact h.setClient (h c)
      · exact h
    · split at hproc
      · cases hproc
        exact h.setClient (h c)
      split at hproc
      · exact absurd rfl (hcontrol _)
      · cases hproc
        exact h
      · cases hproc
        exact FlagsClear.callSimple h c (.select _)
      · cases hproc
        exact FlagsClear.callSimple h c (.clientKill _)

/-!
# The resumed command
-/

def WellFormedFailures (l : Label n) (w : World n) : Prop :=
  match l, w.stack with
  | .main _ _, .clear .set _ _ false (c :: _) :: _ =>
    match (w.clients c).cmd with
    | some (.setlike sc) => sc.wellFormed = true
    | _ => True
  | _, _ => True

instance : (l : Label n) -> (w : World n) -> Decidable (WellFormedFailures l w)
  | .main _ _, _ => by
    unfold WellFormedFailures
    (repeat' split) <;> infer_instance
  | .external _, _ | .work _ _, _ | .timeout, _ | .tick _, _ | .env _ _, _ | .evict _ _, _
  | .expire _ _, _ => .isTrue trivial

theorem serveData_consumed {r : Reply}
    (h : cmd.call w.env ((w.clients c).caller cmd) w.store (w.clients c).db
      (w.clients c).syncReply = consumed w.store r) :
    w.serveData c cmd =
      (w.setClient c { w.clients c with syncReply := clear }).log (.reply c (.data cmd) r) := by
  unfold serveData callData
  dsimp only
  rw [h]
  rfl

theorem call_failed (hm : m ≠ .get) (hl : l = .main pick deny)
    (hstack : w.stack = .clear m d k false (c :: more) :: rest) (hwf : WellFormedFailures l w)
    (hcmd : (w.clients c).cmd = some cmd) (htarget : cmd.target = some (m, k)) (e : Env)
    (caller : Caller) (st : Store n) (d' : Fin n) :
    exists r, cmd.call e caller st d' (syncReplyAfter m false clear) = consumed st r := by
  cases cmd with
  | get k' =>
    injection htarget with htarget
    injection htarget with hmode _
    exact absurd hmode.symm hm
  | setlike sc =>
    injection htarget with htarget
    injection htarget with hmode _
    subst hmode
    refine ⟨.null, call_of_consumed (setProc_failed e st d' ?_)⟩
    simpa [WellFormedFailures, hl, hstack, hcmd] using hwf
  | del k' keys =>
    injection htarget with htarget
    injection htarget with hmode _
    subst hmode
    refine ⟨.integer 0, call_of_consumed ?_⟩
    simp [DataCommand.proc, syncReplyAfter, delProc, consumed, clear]
  | ordinary o => cases htarget

structure ResumedClean (w w' : World n) (m : Mode) (d : Fin n) (k : Sds) (c : ClientId) : Prop where
  store : w'.store = w.store
  reply : exists cmd r, (w.clients c).cmd = some cmd ∧
    w'.trace = .reply c (.data cmd) r :: .resume c m d k :: w.trace
  normal : (w'.clients c).backendState = none
  flags : (w'.clients c).syncReply = SyncReply.clear
  others : forall x, x ≠ c -> w'.clients x = w.clients x

theorem resume_clean (hm : m ≠ .get) (hl : l = .main pick deny)
    (hstack : w.stack = .clear m d k false (c :: more) :: rest) (hsuspension : Suspension w)
    (hflags : FlagsClear w) (hwf : WellFormedFailures l w)
    (hresume : w.resumeBackendClient m d k false c = .ok w') : ResumedClean w w' m d k c := by
  rcases resume_frame hresume with ⟨cmd, hfreed, _, hcmd, hw'⟩
  have htarget := hsuspension.resumed_target hstack hfreed hcmd
  rw [hflags c] at hw'
  generalize hw1 : (w.setClient c { w.clients c with
      backendState := none, cmd := none,
      syncReply := syncReplyAfter m false clear }).log
    (.resume c m d k) = w1 at hw'
  have hclient : w1.clients c =
      { w.clients c with
        backendState := none, cmd := none,
        syncReply := syncReplyAfter m false clear } := by
    rw [← hw1]
    simp
  rcases call_failed hm hl hstack hwf hcmd htarget w1.env
    ((w1.clients c).caller cmd) w1.store (w1.clients c).db with ⟨r, hcall⟩
  have hserve : w1.serveData c cmd =
      (w1.setClient c { w1.clients c with syncReply := clear }).log (.reply c (.data cmd) r) := by
    apply serveData_consumed
    rw [show (w1.clients c).syncReply = syncReplyAfter m false clear by rw [hclient]]
    exact hcall
  rw [hw', hserve]
  constructor
  · rw [← hw1]
    rfl
  · refine ⟨cmd, r, hcmd, ?_⟩
    rw [← hw1]
    rfl
  · simp [hclient]
  · simp
  · intro x hx
    rw [← hw1]
    simp [hx]

theorem ResumedClean.flagsClear (h : ResumedClean w w' m d k c) (hflags : FlagsClear w) :
    FlagsClear w' := by
  intro x
  by_cases hx : x = c
  · rw [hx]
    exact h.flags
  · rw [h.others x hx]
    exact hflags x

theorem syncReplyAfter_clear {result : Bool} (h : m = .get ∨ result = true) :
    syncReplyAfter m result clear = clear := by
  rcases h with h | h
  · rw [h]
    rfl
  · rw [h]
    cases m <;> rfl

theorem step_flagsClear (hstep : step l w = .ok w') (hsuspension : Suspension w)
    (hwf : WellFormedFailures l w) (h : FlagsClear w) : FlagsClear w' := by
  cases step_move hstep with
  | refuse cl r htakes hsame hservice hr =>
    rename_i c cmd more rest
    exact FlagsClear.setClient (h.received c cmd more) (hservice.syncReply.trans (h c))
  | control r htakes hcontrol heffect =>
    -- The effect of a command says nothing of the flags: go back to the step.
    rw [htakes.step] at hstep
    exact (h.received _ _ _).processCommand hcontrol hstep
  | direct st htakes hmulti hbypass =>
    rename_i c dc more rest
    have hstored : FlagsClear ((w.received c (.data dc) more).setStore st) :=
      h.received c (.data dc) more
    exact hstored.serveData c dc
  | suspend st a ch htakes hmulti hsync hadmits =>
    rename_i c dc more rest
    have hentered := h.entered c dc more st a ch
    exact FlagsClear.setClient hentered (hentered c)
  | async st a ch htakes hmulti hsync hadmits =>
    rename_i c dc more rest
    exact (h.entered c dc more st a ch).serveData c dc
  | scriptStart htakes hlua =>
    rename_i c body more rest
    exact h.received c (.simple (.eval body)) more
  | scriptCall hstack => exact h.callFromScript _ _
  | resume hstack hresume =>
    rename_i m d k result c more rest
    by_cases hfailed : m ≠ .get ∧ result = false
    · rw [hfailed.right] at hstack hresume
      have hclean := resume_clean hfailed.left rfl hstack hsuspension h hwf hresume
      exact hclean.flagsClear h
    have hok : m = .get ∨ result = true := by
      by_cases hm : m = .get
      · exact Or.inl hm
      right
      cases result with
      | true => rfl
      | false => exact absurd ⟨hm, rfl⟩ hfailed
    rcases resume_frame hresume with ⟨cmd, _, _, _, hw'⟩
    rw [h c, syncReplyAfter_clear hok] at hw'
    rw [hw']
    exact FlagsClear.serveData (FlagsClear.setClient h rfl) c cmd
  | recv c cmds => exact FlagsClear.setClient h (h c)
  | free c => exact h.freeClient c
  | timeout =>
    rw [timeoutStep_frame]
    exact h
  | _ => exact h

/-!
# Nothing is left behind
-/

def SameUnlessExpired (e : Env) (st st' : Store n) : Prop :=
  forall d k, Store.keyIsExpired e st.ks d k = true ∨
    (st'.ks.dict d k = st.ks.dict d k ∧ st'.ks.expires d k = st.ks.expires d k)

theorem sameUnlessExpired_expireIfNeeded (d : Fin n) (k : Sds) :
    SameUnlessExpired e st (st.expireIfNeeded e d k).1 := by
  intro d' k'
  unfold Store.expireIfNeeded
  split
  · rename_i hexpired
    by_cases hkey : d' = d ∧ k' = k
    · left
      rw [hkey.left, hkey.right]
      exact hexpired
    right
    split
    · exact ⟨rfl, rfl⟩
    · exact ⟨updateAt_other _ _ hkey, updateAt_other _ _ hkey⟩
  · exact Or.inr ⟨rfl, rfl⟩

/-- What the three steps of a failed operation do to the rest of the server: the
suspension of its client drops at most a key that has expired, the completion of
the job nothing, and the resumption consumes the flag and replies once. -/
structure LeavesNothing (l : Label n) (w : World n) : Prop where
  flags : FlagsClear w
  suspended : forall c m dk w', Suspends l w c m dk w' ->
    SameUnlessExpired w.env w.store w'.store
  completed : forall m f w', m ≠ .get -> l = .external (.pipe m) ->
    readFinished m (w.hub m) = .ok f -> f.result = false ->
    World.step l w = .ok w' -> w'.store = w.store
  resumed : forall pick deny m d k c more rest w', m ≠ .get ->
    l = .main pick deny -> w.stack = .clear m d k false (c :: more) :: rest ->
    World.step l w = .ok w' -> ResumedClean w w' m d k c

theorem suspends_store {dk : Fin n × Sds} (h : Suspends l w c m dk w') :
    SameUnlessExpired w.env w.store w'.store := by
  cases h with
  | @intro dc more rest pick deny st a ch _ htakes _ _ hadmits =>
    change SameUnlessExpired w.env w.store (w.entered c dc more st a ch).store
    rw [entered_store]
    rcases checkCommand_store hadmits.check with hst | ⟨m', k, _, hst⟩
    · rw [hst]
      exact fun _ _ => Or.inr ⟨rfl, rfl⟩
    · rw [hst]
      exact sameUnlessExpired_expireIfNeeded _ _ _ _

theorem installValue_failed {f : Finished n} (hm : m ≠ .get) (hresult : f.result = false) :
    w.installValue m f = .ok w.store := by
  cases m with
  | get => exact absurd rfl hm
  | set => simp [installValue, hresult]
  | del => rfl

theorem handler_failed {f : Finished n} (hm : m ≠ .get) (hf : readFinished m (w.hub m) = .ok f)
    (hresult : f.result = false) (hstep : step (.external (.pipe m)) w = .ok w') :
    w'.store = w.store := by
  generalize hl : Label.external (.pipe m) = l at hstep
  cases step_move hstep with
  | idle => rfl
  | handler m' f' st ch clients _ _ hf' hinstall _ =>
    cases hl
    rw [hf] at hf'
    cases hf'
    rw [installValue_failed hm hresult] at hinstall
    cases hinstall
    rfl
  | _ => cases hl

theorem step_resumed {result : Bool} (hstack : w.stack = .clear m d k result (c :: more) :: rest)
    (hstep : step (.main pick deny) w = .ok w') :
    exists w1, w.resumeBackendClient m d k result c = .ok w1 ∧
      w' = w1.setStack (.input c :: .clear m d k result more :: rest) := by
  simp only [step, mainStep, hstack, clearStep] at hstep
  split at hstep
  · cases hstep
  · rename_i w1 hresume
    injection hstep with hstep
    exact ⟨w1, hresume, hstep.symm⟩

theorem leavesNothing_of_invariant (hsuspension : Suspension w) (hflags : FlagsClear w)
    (hwf : WellFormedFailures l w) : LeavesNothing l w := by
  constructor
  · exact hflags
  · intro c m dk w' hsuspends
    exact suspends_store hsuspends
  · intro m f w' hm hl hf hresult hstep
    rw [hl] at hstep
    exact handler_failed hm hf hresult hstep
  · intro pick deny m d k c more rest w' hm hl hstack hstep
    rw [hl] at hstep
    rcases step_resumed hstack hstep with ⟨w1, hresume, hw'⟩
    have hclean := resume_clean hm hl hstack hsuspension hflags hwf hresume
    rw [hw']
    exact ⟨hclean.store, hclean.reply, hclean.normal, hclean.flags, hclean.others⟩

/-- In every run in which no malformed SET is resumed from a failure, failed SET
and DEL operations leave nothing behind at any step, and no client has a flag in
any state. -/
theorem failed_operations_leave_nothing (cfg : Config)
    (backend : Sds -> Option Sds) (db : Fin n) (master : Option ClientId)
    (labels : List (Label n))
    (hall : AllSteps World.step WellFormedFailures labels
      (World.start cfg backend db master)) :
    AllSteps World.step LeavesNothing labels (World.start cfg backend db master) ∧
      forall w, runSteps World.step labels (World.start cfg backend db master) =
        .ok w -> FlagsClear w := by
  have hstep : forall l (w w' : World n), Suspension w ∧ FlagsClear w ->
      WellFormedFailures l w -> step l w = .ok w' ->
      Suspension w' ∧ FlagsClear w' := by
    intro l w w' hI hwf hstep
    exact ⟨move_suspension (step_move hstep) hI.left, step_flagsClear hstep hI.left hwf hI.right⟩
  have hclear : FlagsClear (start cfg backend db master) := fun _ => rfl
  have hstart := And.intro (suspension_start cfg backend db master) hclear
  constructor
  · refine allSteps_of_invariant hstep ?_ hstart hall
    intro l w hI hwf
    exact leavesNothing_of_invariant hI.left hI.right hwf
  · intro w hrun
    exact (runSteps_invariant hstep hstart hall hrun).right

def failedSetRun : List (Label 1) :=
  [.external (.recv 0 [.data (.setlike (.set [107] [118] [])),
     .data (.setlike (.set [107] [118] []))]),
   .main 0 false, .main 0 false,
   .work .set false, .work .set false, .work .set false, .work .set false,
   .external (.pipe .set), .main 0 false, .main 0 false]

theorem failed_operations_leave_nothing_set :
    exists w, runSteps World.step failedSetRun
        (World.start Config.synchronous (fun _ => none) 0 none) = .ok w ∧
      (w.clients 0).backendState = some .set ∧ FlagsClear w :=
  ⟨_, rfl, rfl, (failed_operations_leave_nothing Config.synchronous (fun _ => none) 0 none
      failedSetRun (allSteps_of_check (by decide +kernel))).right _ rfl⟩

/-- The same with an option SET does not know: the backend is asked and fails,
and the resumed command stops at the syntax error. -/
def malformedSetRun : List (Label 1) :=
  [.external (.recv 0 [.data (.setlike (.set [107] [118] [[63]]))]),
   .main 0 false, .main 0 false,
   .work .set false, .work .set false, .work .set false, .work .set false,
   .external (.pipe .set), .main 0 false, .main 0 false, .main 0 false,
   .main 0 false]

def nextSetRun : List (Label 1) :=
  malformedSetRun ++
    [.external (.recv 0 [.data (.setlike (.set [108] [119] []))]),
     .main 0 false, .main 0 false,
     .work .set true, .work .set true, .work .set true, .work .set true,
     .external (.pipe .set), .main 0 false]

def Observation.isNullReply (c : ClientId) : Observation n -> Bool
  | .reply c' _ .null => c' == c
  | _ => false

/-- The flag outlives the failed command, and the client's next SET, although
executed by the backend, is answered as a failure. -/
theorem malformed_set_leaves_flag :
    (exists w, runSteps World.step malformedSetRun
        (World.start Config.synchronous (fun _ => none) 0 none) = .ok w ∧
      w.stack = [] ∧ (w.clients 0).backendState = none ∧
      (w.clients 0).syncReply = { set := true, del := false }) ∧
    (exists w, runSteps World.step nextSetRun
        (World.start Config.synchronous (fun _ => none) 0 none) = .ok w ∧
      w.backend [108] = some [119] ∧
      w.trace.head?.any (Observation.isNullReply 0) = true) :=
  ⟨⟨_, rfl, rfl, rfl, rfl⟩, exists_run_of_reaches (by decide +kernel)⟩

end Redisoo
