import Redisoo.Safety.Release

/-!
# Completions

Every job has a key string of its own, so its address names the job.  The jobs
posted by a working thread are the completed ones and at most one more, which
waits in the slot, provided no handler is dispatched inside a handler of the
same mode.  A slow script in a resumed client's pipeline dispatches one, and the
completion is then processed twice.
-/

namespace Redisoo

open Foundation Function World

variable {n : Nat}

/-!
# Posted and completed jobs
-/

def Observation.postedBy (m : Mode) : Observation n -> Option Nat
  | .posted m' addr => if m' = m then some addr else none
  | _ => none

def Observation.completedBy (m : Mode) : Observation n -> Option Nat
  | .complete m' _ _ addr => if m' = m then some addr else none
  | _ => none

def posts (m : Mode) (tr : List (Observation n)) : List Nat :=
  tr.filterMap (Observation.postedBy m)

def completions (m : Mode) (tr : List (Observation n)) : List Nat :=
  tr.filterMap (Observation.completedBy m)

def awaiting (m : Mode) (w : World n) : List Nat :=
  if phaseOf m w.stack = .clearing then []
  else ((w.hub m).job.returnKey.map KeyPtr.addr).toList

structure Consumed (m : Mode) (w : World n) : Prop where
  balance : posts m w.trace = awaiting m w ++ completions m w.trace
  nodup : (posts m w.trace).Nodup
  fresh : forall addr, addr ∈ posts m w.trace -> addr < (w.hub m).nextAddr
  slot : forall key, (w.hub m).job.key = some key ->
    key.addr < (w.hub m).nextAddr ∧
      ((w.hub m).job.returnKey = none -> key.addr ∉ posts m w.trace)

structure Observation.Unrelated (m : Mode) (o : Observation n) : Prop where
  posted : o.postedBy m = none
  completed : o.completedBy m = none

variable {m : Mode} {obs : List (Observation n)} {w w' : World n}

open Observation

theorem records_append (h : forall o, o ∈ obs -> o.Unrelated m) (tr : List (Observation n)) :
    posts m (obs ++ tr) = posts m tr ∧ completions m (obs ++ tr) = completions m tr := by
  unfold posts completions
  rw [List.filterMap_append, List.filterMap_append,
    List.filterMap_eq_nil_iff.mpr fun o ho => (h o ho).posted,
    List.filterMap_eq_nil_iff.mpr fun o ho => (h o ho).completed]
  exact ⟨rfl, rfl⟩

section

variable (h : Consumed m w)
include h

theorem consumed_of_same (hjob : (w'.hub m).job = (w.hub m).job)
    (haddr : (w'.hub m).nextAddr = (w.hub m).nextAddr)
    (hphase : phaseOf m w'.stack = .clearing <-> phaseOf m w.stack = .clearing)
    (htrace : w'.trace = obs ++ w.trace) (hobs : forall o, o ∈ obs -> o.Unrelated m) :
    Consumed m w' := by
  have hrecords := records_append hobs w.trace
  rw [← htrace] at hrecords
  rcases hrecords with ⟨hposts, hcompletions⟩
  have hawaiting : awaiting m w' = awaiting m w := by
    unfold awaiting
    rw [hjob]
    exact if_congr hphase rfl rfl
  constructor
  · rw [hposts, hcompletions, hawaiting]
    exact h.balance
  · rw [hposts]
    exact h.nodup
  · rw [hposts, haddr]
    exact h.fresh
  · rw [hposts, haddr, hjob]
    exact h.slot

theorem consumed_creates {check : Bool} {ch : Channel n} (hcreate : Creates m check ch (w'.hub m))
    (hjob : ch.job = (w.hub m).job) (haddr : ch.nextAddr = (w.hub m).nextAddr)
    (hphase : phaseOf m w'.stack = phaseOf m w.stack) (htrace : w'.trace = obs ++ w.trace)
    (hobs : forall o, o ∈ obs -> o.Unrelated m) :
    Consumed m w' := by
  generalize hch' : w'.hub m = ch' at hcreate
  cases hcreate with
  | busy _ _ | empty _ _ =>
    exact consumed_of_same h (by rw [hch', hjob]) (by rw [hch', haddr]) (by rw [hphase]) htrace hobs
  | job d k info hkey hret hlookup =>
    rcases Job.create_fields m d { addr := ch.nextAddr, bytes := k } info ch.job
      with ⟨_, hkey', hret'⟩
    have hrecords := records_append hobs w.trace
    rw [← htrace] at hrecords
    rcases hrecords with ⟨hposts, hcompletions⟩
    have hawaiting : awaiting m w' = awaiting m w := by
      unfold awaiting
      rw [hphase, hch', ← hjob]
      dsimp only
      rw [hret']
    constructor
    · rw [hposts, hawaiting, hcompletions]
      exact h.balance
    · rw [hposts]
      exact h.nodup
    · rw [hposts, hch']
      intro addr hmem
      have := h.fresh addr hmem
      change addr < ch.nextAddr + 1
      lia
    · rw [hposts, hch']
      intro key hk
      change (ch.job.create m d _ info).key = some key at hk
      rw [hkey'] at hk
      cases hk
      constructor
      · change ch.nextAddr < ch.nextAddr + 1
        lia
      intro _ hmem
      have := h.fresh _ hmem
      change ch.nextAddr < (w.hub m).nextAddr at this
      lia

theorem consumed_clear (hphase : phaseOf m w.stack = .clearing) (hjob : (w'.hub m).job = Job.zero)
    (haddr : (w'.hub m).nextAddr = (w.hub m).nextAddr) (htrace : w'.trace = w.trace) :
    Consumed m w' := by
  have hawaiting : awaiting m w' = awaiting m w := by
    unfold awaiting
    rw [hjob, hphase]
    simp [Job.zero]
  constructor
  · rw [htrace, hawaiting]
    exact h.balance
  · rw [htrace]
    exact h.nodup
  · rw [htrace, haddr]
    exact h.fresh
  · intro key hk
    rw [hjob] at hk
    cases hk

theorem consumed_complete {d : Fin n} {k : Sds} {key : KeyPtr}
    (hphase : phaseOf m w.stack = .idle) (hphase' : phaseOf m w'.stack = .clearing)
    (hret : (w.hub m).job.returnKey = some key) (hjob : (w'.hub m).job = (w.hub m).job)
    (haddr : (w'.hub m).nextAddr = (w.hub m).nextAddr)
    (htrace : w'.trace = .complete m d k key.addr :: w.trace) : Consumed m w' := by
  have hposts : posts m w'.trace = posts m w.trace := by
    rw [htrace]
    rfl
  have hcompletions : completions m w'.trace = key.addr :: completions m w.trace := by
    rw [htrace]
    simp [completions, completedBy]
  constructor
  · rw [hposts, hcompletions, h.balance]
    simp [awaiting, hphase, hphase', hret]
  · rw [hposts]
    exact h.nodup
  · rw [hposts, haddr]
    exact h.fresh
  · rw [hposts, haddr, hjob]
    exact h.slot

end

theorem consumed_post {key : KeyPtr} (val : Option Sds) (result : Bool) (h : Consumed m w)
    (hphase : phaseOf m w.stack ≠ .clearing) (hkey : (w.hub m).job.key = some key)
    (hret : (w.hub m).job.returnKey = none)
    (hjob : (w'.hub m).job = (w.hub m).job.post m key val result)
    (haddr : (w'.hub m).nextAddr = (w.hub m).nextAddr) (hstack : w'.stack = w.stack)
    (htrace : w'.trace = .posted m key.addr :: w.trace) : Consumed m w' := by
  rcases Job.post_fields m key val result (w.hub m).job with ⟨_, hk', hr'⟩
  rcases h.slot key hkey with ⟨hlt, hnew⟩
  have hposts : posts m w'.trace = key.addr :: posts m w.trace := by
    rw [htrace]
    simp [posts, postedBy]
  have hcompletions : completions m w'.trace = completions m w.trace := by
    rw [htrace]
    rfl
  constructor
  · rw [hposts, hcompletions, h.balance]
    simp [awaiting, hstack, hphase, hjob, hr', hret]
  · rw [hposts]
    exact List.nodup_cons.mpr ⟨hnew hret, h.nodup⟩
  · rw [hposts, haddr]
    intro addr hmem
    rcases List.mem_cons.mp hmem with heq | hold
    · rw [heq]
      exact hlt
    · exact h.fresh addr hold
  · rw [haddr, hjob, hk', hr']
    intro key' hk
    rw [hkey] at hk
    cases hk
    exact ⟨hlt, fun hnone => by cases hnone⟩

/-!
# One move
-/

theorem unrelated_nil (m : Mode) : forall o, o ∈ ([] : List (Observation n)) -> o.Unrelated m := by
  intro o ho
  cases ho

theorem unrelated_cons {o : Observation n} (ho : o.Unrelated m)
    (hobs : forall o', o' ∈ obs -> o'.Unrelated m) :
    forall o', o' ∈ o :: obs -> o'.Unrelated m := by
  intro o' ho'
  rcases List.mem_cons.mp ho' with heq | hmem
  · rw [heq]
    exact ho
  · exact hobs o' hmem

theorem unrelated_entered (m : Mode) (w : World n) (c : ClientId)
    (dc : DataCommand n) (more : List (Command n)) (st : Store n)
    (a : World.Admission) (ch : Channel n) :
    exists obs, (w.entered c dc more st a ch).trace = obs ++ w.trace ∧
      forall o, o ∈ obs -> o.Unrelated m := by
  rw [entered_trace]
  split
  · exact ⟨[_, _], rfl, unrelated_cons ⟨rfl, rfl⟩ (unrelated_cons ⟨rfl, rfl⟩ (unrelated_nil m))⟩
  · exact ⟨[_], rfl, unrelated_cons ⟨rfl, rfl⟩ (unrelated_nil m)⟩

theorem consumed_entered {c : ClientId} {dc : DataCommand n} {more : List (Command n)}
    {st : Store n} {a : World.Admission} {waiter : Option ClientId} {pick : Nat} {ch : Channel n}
    {o : Observation n} (h : Consumed m w) (hadmits : Admits (w.received c (.data dc) more)
      ((w.received c (.data dc) more).clients c) dc st a waiter pick ch)
    (hhub : w'.hub = (w.entered c dc more st a ch).hub) (hstack : w'.stack = w.stack)
    (htrace : w'.trace = o :: (w.entered c dc more st a ch).trace) (ho : o.Unrelated m) :
    Consumed m w' := by
  rw [entered_hub] at hhub
  have hphase : phaseOf m w'.stack = phaseOf m w.stack := by rw [hstack]
  rcases unrelated_entered m w c dc more st a ch with ⟨obs, htr, hobs⟩
  have htrace' : w'.trace = (o :: obs) ++ w.trace := by
    rw [htrace, htr]
    rfl
  by_cases hm : m = a.mode
  · subst hm
    rcases enqueue_spec hadmits.enqueue with ⟨info, _, hcreate⟩
    have hch : w'.hub a.mode = ch := by rw [hhub, update_self]
    rw [← hch] at hcreate
    exact consumed_creates h hcreate rfl rfl hphase htrace' (unrelated_cons ho hobs)
  · have hch : w'.hub m = w.hub m := by rw [hhub, update_of_ne hm]
    exact consumed_of_same h (by rw [hch]) (by rw [hch]) (by rw [hphase]) htrace'
      (unrelated_cons ho hobs)

theorem move_consumed {l : Label n} (hmove : Move l w w') (honce : RunsToCompletion m l w)
    (hsound : w.Sound m) (h : Consumed m w) : Consumed m w' := by
  -- Moves that leave the slot and the phase of the mode alone.
  have hkeep : forall (w' : World n) (obs : List (Observation n)),
      w'.hub m = w.hub m -> phaseOf m w'.stack = phaseOf m w.stack ->
      w'.trace = obs ++ w.trace -> (forall o, o ∈ obs -> o.Unrelated m) ->
      Consumed m w' := by
    intro w' obs hhub hphase htrace hobs
    exact consumed_of_same h (by rw [hhub]) (by rw [hhub]) (by rw [hphase]) htrace hobs
  have hnil := unrelated_nil (n := n) m
  have hwork : forall (w' : World n) (m' : Mode) (obs : List (Observation n)),
      (w'.hub m').job = (w.hub m').job ->
      (w'.hub m').nextAddr = (w.hub m').nextAddr ->
      (forall m'', m'' ≠ m' -> w'.hub m'' = w.hub m'') -> w'.stack = w.stack ->
      w'.trace = obs ++ w.trace -> (forall o, o ∈ obs -> o.Unrelated m) ->
      Consumed m w' := by
    intro w' m' obs hjob haddr hother hstack htrace hobs
    by_cases hm : m = m'
    · subst hm
      exact consumed_of_same h hjob haddr (by rw [hstack]) htrace hobs
    · have hhub := hother m hm
      exact hkeep w' obs hhub (by rw [hstack]) htrace hobs
  cases hmove with
  | idle _ _ => exact h
  | leave hstack _ =>
    refine hkeep _ [] rfl ?_ rfl hnil
    rw [hstack]
    rfl
  | refuse _ _ _ _ _ _ | direct _ _ _ _ =>
    exact hkeep _ [_, _] rfl rfl rfl (unrelated_cons ⟨rfl, rfl⟩ (unrelated_cons ⟨rfl, rfl⟩ hnil))
  | @control _ _ _ w1 c cmd more _ r _ _ heffect =>
    rcases control_trace heffect r with ⟨obs, htrace, hobs⟩
    rcases effect_hubs heffect with ⟨hstack, freed, hhub⟩
    rcases releaseAll_frame freed (w.hub m) with ⟨hjob, _, haddr⟩
    have hhub' : w1.hub m = freed.foldr releaseWhenFreeClient (w.hub m) := hhub m
    rw [← hhub'] at hjob haddr
    refine consumed_of_same h hjob haddr ?_ htrace ?_
    · rw [log_stack, hstack]
      exact Iff.rfl
    · intro o ho
      rcases hobs o ho with rfl | rfl | ⟨t, rfl, _, _⟩ <;> exact ⟨rfl, rfl⟩
  | @suspend _ _ _ c dc more _ st a ch _ _ _ hadmits
  | @async _ _ _ c dc more _ st a ch _ _ _ hadmits =>
    refine consumed_entered h hadmits rfl ?_ rfl ⟨rfl, rfl⟩
    exact entered_stack w c dc more st a ch
  | scriptStart _ _ =>
    exact hkeep _ [_] rfl rfl rfl (unrelated_cons ⟨rfl, rfl⟩ hnil)
  | @scriptCall _ _ _ c cmd _ _ _ hstack =>
    rw [callFromScript_frame]
    refine hkeep _ [] rfl ?_ rfl hnil
    rw [hstack]
    rfl
  | scriptEnd hstack =>
    refine hkeep _ [_] rfl ?_ rfl (unrelated_cons ⟨rfl, rfl⟩ hnil)
    rw [hstack]
    rfl
  | resume hstack hresume =>
    rcases resume_frame hresume with ⟨cmd, _, _, _, hw1⟩
    subst hw1
    refine hkeep _ [_, _] rfl ?_ rfl (unrelated_cons ⟨rfl, rfl⟩ (unrelated_cons ⟨rfl, rfl⟩ hnil))
    rw [hstack]
    rfl
  | @finish _ _ _ m' d k result rest ch hstack hclear =>
    by_cases hm : m' = m
    · subst hm
      have hphase : phaseOf m' w.stack = .clearing := by
        rw [hstack]
        simp [phaseOf]
      have hzero : Consumed m'
          ((w.setChannel m' { w.hub m' with job := Job.zero }).setStack (.read m' :: rest)) :=
        consumed_clear h hphase (by simp) (by simp) rfl
      have hcreate := clearJob_spec hclear
      have hch : ((w.setChannel m' ch).setStack (.read m' :: rest)).hub m' = ch := by simp
      rw [← hch] at hcreate
      exact consumed_creates hzero hcreate (by simp) (by simp) rfl (List.nil_append _).symm hnil
    · refine hkeep _ [] ?_ ?_ rfl hnil
      · simp [update_of_ne (Ne.symm hm)]
      · rw [hstack]
        simp [phaseOf, hm]
  | @drain _ _ _ m' rest hstack hpipe =>
    by_cases hm : m' = m
    · subst hm
      have hrest : phaseOf m' rest = .idle := by
        have hsingle := hsound.single
        rw [hstack] at hsingle
        exact hsingle.left rfl
      refine consumed_of_same h (by simp) (by simp) ?_ (List.nil_append _).symm hnil
      rw [hstack]
      simp [phaseOf, hrest]
    · refine hkeep _ [] ?_ ?_ rfl hnil
      · simp [update_of_ne (Ne.symm hm)]
      · rw [hstack]
        simp [phaseOf, hm]
  | handler m' f st ch clients haccepts _ hread _ htake =>
    rcases takeWaiters_spec htake with ⟨info, _, _, hch⟩
    rcases readFinished_spec hread with ⟨_, _, hr, _, _, _⟩
    subst hch
    by_cases hm : m' = m
    · subst hm
      exact consumed_complete h (honce rfl haccepts) (by simp [phaseOf]) hr (by simp) (by simp) rfl
    refine hkeep _ [_] ?_ ?_ rfl (unrelated_cons ?_ hnil)
    · simp [update_of_ne (Ne.symm hm)]
    · simp [phaseOf, hm]
    · exact ⟨rfl, by simp [completedBy, hm]⟩
  | free c _ _ =>
    rcases freeClient_hubs w c with ⟨freed, hhub⟩
    rcases releaseAll_frame freed (w.hub m) with ⟨hjob, _, haddr⟩
    rw [← hhub] at hjob haddr
    rcases freeClient_trace w c with ⟨obs, htr, hobs⟩
    refine consumed_of_same h hjob haddr (by rw [freeClient_stack]) htr ?_
    intro o ho
    rw [(hobs o ho).left]
    exact ⟨rfl, rfl⟩
  | take m' ok ch _ htake =>
    have hjob : ch.job = (w.hub m').job ∧ ch.nextAddr = (w.hub m').nextAddr := by
      rcases getJobInWorkingThread_spec htake with hch | ⟨_, _, _, _, _, hch⟩
      · rw [hch]
        exact ⟨rfl, rfl⟩
      · rw [hch]
        exact ⟨rfl, rfl⟩
    exact hwork _ m' [] (by simpa using hjob.left) (by simpa using hjob.right)
      (by intro m'' hm; simp [hm]) rfl rfl hnil
  | execute m' ok d key backend val result _ _ =>
    exact hwork _ m' [_] (by simp) (by simp) (by intro m'' hm; simp [hm]) rfl rfl
      (unrelated_cons ⟨rfl, rfl⟩ hnil)
  | post m' ok d key val result ch hworker hpost =>
    rcases postResult_spec hpost with ⟨hkey, hret, hch⟩
    subst hch
    by_cases hm : m' = m
    · subst hm
      have hphase := (hsound.channel.working (j := (d, key))
        (Or.inr (by rw [hworker]; rfl))).2.2.2.2
      refine consumed_post val result h hphase hkey hret ?_ (by simp) rfl rfl
      rw [log_hub, setChannel_hub, update_self]
    · refine hkeep _ [_] ?_ rfl rfl (unrelated_cons ⟨?_, rfl⟩ hnil)
      · simp [update_of_ne (Ne.symm hm)]
      · simp [postedBy, hm]
  | signal m' ok _ =>
    exact hwork _ m' [] (by simp) (by simp) (by intro m'' hm; simp [hm]) rfl rfl hnil
  | timeout =>
    rw [timeoutStep_frame]
    exact hkeep _ [] rfl rfl rfl hnil
  | _ => exact hkeep _ [] rfl rfl rfl hnil

/-!
# Runs
-/

theorem consumed_start (cfg : Config) (backend : Sds -> Option Sds) (db : Fin n)
    (master : Option ClientId) (m : Mode) : Consumed m (start cfg backend db master) := by
  constructor
  · rfl
  · exact List.nodup_nil
  · intro addr hmem
    cases hmem
  · intro key hkey
    cases hkey

theorem run_consumed {labels : List (Label n)} (h : forall m, w.Sound m ∧ Consumed m w)
    (hall : AllSteps step HandlersRunToCompletion labels w)
    (hrun : runSteps step labels w = .ok w') : forall m, w'.Sound m ∧ Consumed m w' := by
  refine runSteps_invariant (I := fun w => forall m, w.Sound m ∧ Consumed m w) ?_ h hall hrun
  intro l w1 w2 hI honce hstep m
  have hmove := step_move hstep
  exact ⟨move_sound hmove (honce.mode m) (hI m).left,
    move_consumed hmove (honce.mode m) (hI m).left (hI m).right⟩

/-- Every posted result is completed once: the posted jobs are all different,
and they are the completed ones and the one that waits in the slot, whose byte
is in the pipe or about to be written. -/
structure CompletedOnce (m : Mode) (w : World n) : Prop where
  posts_nodup : (posts m w.trace).Nodup
  posts_eq : posts m w.trace = awaiting m w ++ completions m w.trace
  signalled : w.stack = [] ->
    (w.hub m).pipe + (w.hub m).worker.protocol.owed = (awaiting m w).length

theorem completedOnce_of_consumed (hsound : w.Sound m) (h : Consumed m w) : CompletedOnce m w := by
  refine ⟨h.nodup, h.balance, ?_⟩
  intro hstack
  have hchannel := hsound.channel
  rw [hstack] at hchannel
  rw [(slotProtocol_of_sound hchannel).bytes]
  unfold awaiting
  rw [hstack]
  cases (w.hub m).job.returnKey with
  | none => rfl
  | some key => rfl

/-- As long as no handler is dispatched inside a handler of its mode, each
posted result is completed once, and the finished key is always found among the
candidates. -/
theorem each_result_completed_once (cfg : Config) (backend : Sds -> Option Sds)
    (db : Fin n) (master : Option ClientId) (labels : List (Label n))
    (hall : AllSteps World.step HandlersRunToCompletion labels
      (World.start cfg backend db master)) :
    (forall w, runSteps World.step labels (World.start cfg backend db master) =
        .ok w -> forall m, CompletedOnce m w) ∧
      (forall m, runSteps World.step labels (World.start cfg backend db master) ≠
        .error (.noWaitingList m)) := by
  constructor
  · intro w hrun m
    have h := run_consumed
      (fun m => ⟨sound_start cfg backend db master m,
        consumed_start cfg backend db master m⟩) hall hrun m
    exact completedOnce_of_consumed h.left h.right
  · intro m hrun
    exact run_not_ofSlot (sound_start cfg backend db master) hall hrun trivial

def nestedRun : List (Label 1) :=
  [.external (.recv 0 [.data (.get [107]), .simple (.eval [])]),
   .main 0 false, .main 0 false,
   .work .get true, .work .get true, .work .get true, .work .get true,
   .external (.pipe .get), .main 0 false, .main 0 false, .timeout,
   .external (.recv 1 [.multi]), .main 0 false, .main 0 false]

theorem each_result_completed_once_nested :
    exists w, runSteps World.step nestedRun
        (World.start Config.synchronous (fun _ => some [118]) 0 none) = .ok w ∧
      w.luaTimedout = true ∧ posts .get w.trace = [0] ∧ CompletedOnce .get w :=
  ⟨_, rfl, rfl, rfl, (each_result_completed_once Config.synchronous (fun _ => some [118]) 0 none
      nestedRun (allSteps_of_check (by decide +kernel))).left _ rfl .get⟩

def reentrantRun : List (Label 1) :=
  [.external (.recv 0 [.data (.get [107]), .simple (.eval [])]),
   .main 0 false, .main 0 false,
   .work .get true, .work .get true, .work .get true, .work .get true,
   .external (.pipe .get), .main 0 false, .main 0 false, .timeout]

/-- The nested dispatch processes the posted result again and finds no entry
for it. -/
theorem result_completed_again :
    exists w, runSteps World.step reentrantRun
        (World.start Config.synchronous (fun _ => some [118]) 0 none) = .ok w ∧
      posts .get w.trace = [0] ∧ completions .get w.trace = [0] ∧
      (w.hub .get).pipe = 1 ∧
      World.step (.external (.pipe .get)) w = .error (.noWaitingList .get) :=
  ⟨_, rfl, rfl, rfl, rfl, rfl⟩

end Redisoo
