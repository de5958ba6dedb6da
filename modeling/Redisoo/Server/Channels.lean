import Redisoo.Backend.Protocol
import Redisoo.Server.Moves

/-!
# What a move does to one channel

A move of the server changes the channel of a given mode in one of a few ways,
each tied to a phase of the innermost handler of that mode, provided no handler
is dispatched inside a handler of the same mode.
-/

namespace Redisoo

open Foundation Function World

variable {n : Nat}

/-!
# Handlers on the stack
-/

def phaseOf (m : Mode) : List (Frame n) -> HandOff.Phase
  | [] => .idle
  | .clear m' _ _ _ _ :: rest => if m' = m then .clearing else phaseOf m rest
  | .read m' :: rest => if m' = m then .draining else phaseOf m rest
  | .input _ :: rest => phaseOf m rest
  | .script _ _ _ :: rest => phaseOf m rest

def SingleHandler (m : Mode) : List (Frame n) -> Prop
  | [] => True
  | .clear m' _ _ _ _ :: rest =>
    (m' = m -> phaseOf m rest = .idle) ∧ SingleHandler m rest
  | .read m' :: rest => (m' = m -> phaseOf m rest = .idle) ∧ SingleHandler m rest
  | .input _ :: rest => SingleHandler m rest
  | .script _ _ _ :: rest => SingleHandler m rest

def RunsToCompletion (m : Mode) (l : Label n) (w : World n) : Prop :=
  l = .external (.pipe m) -> w.acceptsEvents = true ->
    phaseOf m w.stack = .idle

instance (m : Mode) (l : Label n) (w : World n) : Decidable (RunsToCompletion m l w) :=
  match l with
  | .external (.pipe m') =>
    if hm : m' = m then
      decidable_of_iff (w.acceptsEvents = true -> phaseOf m w.stack = .idle)
        ⟨fun h _ => h, fun h => h (by rw [hm])⟩
    else isTrue (fun h => absurd (by injection h with h; injection h) hm)
  | .external (.recv _ _) => isTrue (fun h => by injection h with h; cases h)
  | .external (.free _) => isTrue (fun h => by injection h with h; cases h)
  | .main _ _ => isTrue (fun h => by cases h)
  | .work _ _ => isTrue (fun h => by cases h)
  | .timeout => isTrue (fun h => by cases h)
  | .tick _ => isTrue (fun h => by cases h)
  | .env _ _ => isTrue (fun h => by cases h)
  | .evict _ _ => isTrue (fun h => by cases h)
  | .expire _ _ => isTrue (fun h => by cases h)

structure SameHandlers (m : Mode) (stack stack' : List (Frame n)) : Prop where
  phase : phaseOf m stack' = phaseOf m stack
  single : SingleHandler m stack -> SingleHandler m stack'

theorem sameHandlers_refl (m : Mode) (stack : List (Frame n)) : SameHandlers m stack stack :=
  ⟨rfl, fun h => h⟩

variable {d : Fin n} {result : Bool} {m : Mode} {w : World n}
  {clients victims freed : List ClientId} {ch : Channel n} {c : ClientId}

theorem phaseOf_clear {stack : List (Frame n)} {k : Sds} (hsingle : SingleHandler m stack)
    (hmem : Frame.clear m d k result clients ∈ stack) :
    phaseOf m stack = .clearing := by
  induction stack with
  | nil => cases hmem
  | cons f rest ih =>
    have hrest : f = .clear m d k result clients ∨ Frame.clear m d k result clients ∈ rest := by
      rcases List.mem_cons.mp hmem with heq | hmem
      · exact Or.inl heq.symm
      · exact Or.inr hmem
    cases f with
    | clear m' d' k' result' clients' =>
      by_cases hm : m' = m
      · simp [phaseOf, hm]
      rcases hrest with heq | hmem
      · cases heq
        exact absurd rfl hm
      · rw [phaseOf, if_neg hm]
        exact ih hsingle.right hmem
    | read m' =>
      rcases hrest with heq | hmem
      · cases heq
      have hclear := ih hsingle.right hmem
      by_cases hm : m' = m
      · rw [hsingle.left hm] at hclear
        cases hclear
      · rw [phaseOf, if_neg hm]
        exact hclear
    | input c | script c body todo =>
      rcases hrest with heq | hmem
      · cases heq
      · exact ih hsingle hmem

/-!
# What the steps say about the channels
-/

theorem enqueue_spec {a : World.Admission} {waiter : Option ClientId} {pick : Nat}
    (h : w.enqueue d a waiter pick = .ok ch) :
    exists info,
      Joins a.mode a.value a.ttl waiter
        ((w.hub a.mode).candidates.lookup (d, a.key)) info ∧
      Creates a.mode true
        { w.hub a.mode with
          candidates := (w.hub a.mode).candidates.insert (d, a.key) info } ch := by
  unfold World.enqueue at h
  split at h
  · cases h
  · rename_i ch1 hadd
    rcases addKeyToBackendKeys_spec hadd with ⟨info, hjoins, hch1⟩
    subst hch1
    exact ⟨info, hjoins, createNewJob_spec h⟩

theorem resume_frame {w' : World n} {k : Sds} (h : w.resumeBackendClient m d k result c = .ok w') :
    exists cmd, (w.clients c).status ≠ .freed ∧
      (w.clients c).backendState ≠ none ∧ (w.clients c).cmd = some cmd ∧
      w' = ((w.setClient c
        { w.clients c with
          backendState := none, cmd := none,
          syncReply := World.syncReplyAfter m result (w.clients c).syncReply }).log
        (.resume c m d k)).serveData c cmd := by
  unfold World.resumeBackendClient at h
  dsimp only at h
  split at h
  · cases h
  · rename_i hfreed
    split at h
    · cases h
    · rename_i hstate
      split at h
      · cases h
      · rename_i cmd hcmd
        cases h
        exact ⟨cmd, hfreed, hstate, hcmd, rfl⟩

theorem releaseAll_frame (victims : List ClientId) (ch : Channel n) :
    (victims.foldr releaseWhenFreeClient ch).job = ch.job ∧
      (victims.foldr releaseWhenFreeClient ch).worker = ch.worker ∧
      (victims.foldr releaseWhenFreeClient ch).nextAddr = ch.nextAddr := by
  induction victims with
  | nil => exact ⟨rfl, rfl, rfl⟩
  | cons c victims ih => exact ih

/-!
# Moves of a channel
-/

inductive ChannelMove (m : Mode) (ch : Channel n) (phase : HandOff.Phase) :
    Channel n -> HandOff.Phase -> Prop where
  | same : ChannelMove m ch phase ch phase
  | release (victims : List ClientId) :
      ChannelMove m ch phase (victims.foldr releaseWhenFreeClient ch) phase
  | enqueue (dk : Fin n × Sds) (value : Sds) (ttl : Int)
      (waiter : Option ClientId) (info : BackendInfo) (ch' : Channel n) :
      Joins m value ttl waiter (ch.candidates.lookup dk) info ->
      Creates m true { ch with candidates := ch.candidates.insert dk info } ch' ->
      ChannelMove m ch phase ch' phase
  | take (d : Fin n) (key : KeyPtr) : ch.worker = .polling ->
      ch.job.dbid = some d -> ch.job.key = some key ->
      ch.job.returnKey = none ->
      ChannelMove m ch phase { ch with worker := .running d key } phase
  | execute (d : Fin n) (key : KeyPtr) (val : Option Sds) (result : Bool) :
      ch.worker = .running d key -> (m = .set -> val = ch.job.val) ->
      ChannelMove m ch phase { ch with worker := .executed d key val result } phase
  | post (d : Fin n) (key : KeyPtr) (val : Option Sds) (result : Bool) :
      ch.worker = .executed d key val result -> ch.job.key = some key ->
      ch.job.returnKey = none ->
      ChannelMove m ch phase
        { ch with job := ch.job.post m key val result, worker := .signalling }
        phase
  | signal : ch.worker = .signalling ->
      ChannelMove m ch phase
        { ch with worker := .polling, pipe := ch.pipe + 1 } phase
  | begin (d : Fin n) (key : KeyPtr) (info : BackendInfo) : phase = .idle ->
      0 < ch.pipe -> ch.job.dbid = some d -> ch.job.key = some key ->
      ch.job.returnKey = some key ->
      ch.candidates.lookup (d, key.bytes) = some info ->
      ChannelMove m ch phase
        { ch with candidates := ch.candidates.erase (d, key.bytes) } .clearing
  | finish (ch' : Channel n) : phase = .clearing ->
      Creates m false { ch with job := Job.zero } ch' ->
      ChannelMove m ch phase ch' .draining
  | drain : phase = .draining -> 0 < ch.pipe ->
      ChannelMove m ch phase { ch with pipe := ch.pipe - 1 } .idle

theorem implementJobByBackend_val {ok : Bool} {key : Sds} {job : Job n}
    {backend backend' : Sds -> Option Sds} {val : Option Sds}
    (h : implementJobByBackend .set ok key job backend = .ok (backend', val, result)) :
    val = job.val := by
  unfold implementJobByBackend at h
  cases hval : job.val with
  | none =>
    rw [hval] at h
    cases h
  | some v =>
    rw [hval] at h
    cases ok with
    | true =>
      cases h
      rfl
    | false =>
      cases h
      rfl

section OneMode

variable {m : Mode} {l : Label n} {w w' : World n}

structure Moves (m : Mode) (l : Label n) (w w' : World n) : Prop where
  channel : ChannelMove m (w.hub m) (phaseOf m w.stack) (w'.hub m)
    (phaseOf m w'.stack)
  single : SingleHandler m w'.stack
  executed : forall d key val result, (w.hub m).worker = .running d key ->
    (w'.hub m).worker = .executed d key val result ->
    w'.trace = .executed m d key.bytes val result :: w.trace ∧
      exists ok, l = .work m ok ∧
        implementJobByBackend m ok key.bytes (w.hub m).job w.backend =
          .ok (w'.backend, val, result)

theorem moves_of_worker (hchannel : ChannelMove m (w.hub m) (phaseOf m w.stack)
      (w'.hub m) (phaseOf m w'.stack)) (hsingle : SingleHandler m w'.stack)
    (hworker : (w'.hub m).worker = (w.hub m).worker) : Moves m l w w' := by
  refine ⟨hchannel, hsingle, ?_⟩
  intro d key val result hrunning hexecuted
  rw [hworker, hrunning] at hexecuted
  cases hexecuted

theorem moves_same (hsingle : SingleHandler m w.stack)
    (hhub : w'.hub m = w.hub m) (hstack : SameHandlers m w.stack w'.stack) : Moves m l w w' := by
  refine moves_of_worker ?_ (hstack.single hsingle) (by rw [hhub])
  rw [hhub, hstack.phase]
  exact .same

theorem moves_work {m' : Mode} (hsingle : SingleHandler m w.stack)
    (hhub : w'.hub = Function.update w.hub m' ch) (hstack : w'.stack = w.stack)
    (hmove : m' = m -> ChannelMove m (w.hub m) (phaseOf m w.stack) ch (phaseOf m w.stack))
    (hexecuted : m' = m -> forall d key val result,
      (w.hub m).worker = .running d key -> ch.worker = .executed d key val result ->
      w'.trace = .executed m d key.bytes val result :: w.trace ∧
        exists ok, l = .work m ok ∧
          implementJobByBackend m ok key.bytes (w.hub m).job w.backend =
            .ok (w'.backend, val, result)) : Moves m l w w' := by
  by_cases hm : m' = m
  · constructor
    · rw [hhub, hm, update_self, hstack]
      exact hmove hm
    · rw [hstack]
      exact hsingle
    · rw [hhub, hm, update_self]
      exact hexecuted hm
  · refine moves_same hsingle ?_ ?_
    · rw [hhub, update_of_ne (Ne.symm hm)]
    · rw [hstack]
      exact sameHandlers_refl m _

theorem freeClient_hubs (w : World n) (t : ClientId) :
    exists victims : List ClientId, forall m,
      (w.freeClient t).hub m = victims.foldr releaseWhenFreeClient (w.hub m) := by
  rcases freeClient_hub w t with hhub | hhub
  · exact ⟨[], fun m => congrFun hhub m⟩
  · exact ⟨[t], fun m => congrFun hhub m⟩

theorem effect_hubs (heffect : Effect c victims w w') :
    w'.stack = w.stack ∧ exists freed : List ClientId, forall m,
      w'.hub m = freed.foldr releaseWhenFreeClient (w.hub m) := by
  induction heffect with
  | refl => exact ⟨rfl, [], fun _ => rfl⟩
  | call cmd caller d flags _ ih => exact ih
  | session cl _ _ ih => exact ih
  | @free w1 t _ _ _ _ ih =>
    rcases ih with ⟨hstack, freed, hhub⟩
    rcases freeClient_hubs w1 t with ⟨new, hnew⟩
    refine ⟨by rw [freeClient_stack, hstack], new ++ freed, ?_⟩
    intro m
    rw [hnew, hhub, List.foldr_append]

theorem moves_release (hsingle : SingleHandler m w.stack)
    (hhub : forall m, w'.hub m = freed.foldr releaseWhenFreeClient (w.hub m))
    (hstack : w'.stack = w.stack) : Moves m l w w' := by
  refine moves_of_worker ?_ (by rw [hstack]; exact hsingle) ?_
  · rw [hhub, hstack]
    exact .release freed
  · rw [hhub]
    exact (releaseAll_frame freed (w.hub m)).right.left

theorem moves_entered {dc : DataCommand n} {more : List (Command n)} {st : Store n}
    {a : World.Admission} {waiter : Option ClientId} {pick : Nat}
    (hsingle : SingleHandler m w.stack)
    (hadmits : Admits (w.received c (.data dc) more)
      ((w.received c (.data dc) more).clients c) dc st a waiter pick ch)
    (hhub : w'.hub = (w.entered c dc more st a ch).hub)
    (hstack : w'.stack = (w.entered c dc more st a ch).stack) : Moves m l w w' := by
  rcases admitted_frame ((w.received c (.data dc) more).setStore st)
    (w.clients c).db a ch with ⟨tr, htr⟩
  have hentered : w.entered c dc more st a ch = _ := htr
  rw [hentered] at hhub hstack
  rcases enqueue_spec hadmits.enqueue with ⟨info, hjoins, hcreate⟩
  refine moves_work hsingle hhub hstack ?_ ?_
  · intro hm
    rw [← hm]
    exact .enqueue _ a.value a.ttl waiter info ch hjoins hcreate
  intro hm d key val result hrunning hexecuted
  rw [hcreate.frame.right.left] at hexecuted
  change (w.hub a.mode).worker = _ at hexecuted
  rw [hm, hrunning] at hexecuted
  cases hexecuted

end OneMode

theorem move_channel {l : Label n} {w' : World n} (hmove : Move l w w')
    (honce : RunsToCompletion m l w) (hsingle : SingleHandler m w.stack) : Moves m l w w' := by
  have hkeep : forall w' : World n, w'.hub m = w.hub m -> w'.stack = w.stack -> Moves m l w w' := by
    intro w' hhub hstack
    refine moves_same hsingle hhub ?_
    rw [hstack]
    exact sameHandlers_refl m _
  cases hmove with
  | leave hstack _ | scriptEnd hstack =>
    refine moves_same hsingle rfl ?_
    rw [hstack]
    exact ⟨rfl, fun hs => hs⟩
  | control _ _ _ heffect =>
    rcases effect_hubs heffect with ⟨hstack, freed, hhub⟩
    exact moves_release hsingle hhub hstack
  | suspend st a ch _ _ _ hadmits | async st a ch _ _ _ hadmits =>
    exact moves_entered hsingle hadmits rfl rfl
  | scriptStart _ _ | recv _ _ _ _ _ => exact moves_same hsingle rfl ⟨rfl, fun hs => hs⟩
  | @scriptCall _ _ _ c cmd _ _ _ hstack =>
    rw [callFromScript_frame]
    refine moves_same hsingle rfl ?_
    rw [hstack]
    exact ⟨rfl, fun hs => hs⟩
  | resume hstack hresume =>
    rcases resume_frame hresume with ⟨cmd, _, _, _, hw1⟩
    subst hw1
    refine moves_same hsingle rfl ?_
    rw [hstack]
    exact ⟨rfl, fun hs => hs⟩
  | @finish _ _ _ m' d k result rest ch hstack hclear =>
    have hcreate := clearJob_spec hclear
    by_cases hm : m' = m
    · subst hm
      rw [hstack] at hsingle
      refine moves_of_worker ?_ hsingle ?_
      · rw [hstack]
        simp only [setStack_hub, setChannel_hub, update_self, setStack_stack, phaseOf, if_true]
        exact .finish ch rfl hcreate
      · simp [hcreate.frame.right.left]
    · refine moves_same hsingle (by simp [update_of_ne (Ne.symm hm)]) ?_
      rw [hstack]
      exact ⟨by simp [phaseOf, hm], fun hs => hs⟩
  | @drain _ _ _ m' rest hstack hpipe =>
    by_cases hm : m' = m
    · subst hm
      rw [hstack] at hsingle
      refine moves_of_worker ?_ hsingle.right (by simp)
      rw [hstack]
      simp only [setStack_hub, setChannel_hub, update_self,
        setStack_stack, phaseOf, if_true, hsingle.left rfl]
      exact .drain rfl hpipe
    · refine moves_same hsingle (by simp [update_of_ne (Ne.symm hm)]) ?_
      rw [hstack]
      exact ⟨by simp [phaseOf, hm], fun hs => hs.right⟩
  | handler m' f st ch clients haccepts hpipe hread _ htake =>
    rcases readFinished_spec hread with ⟨hd, hk, hr, _, _, _⟩
    rcases takeWaiters_spec htake with ⟨info, hlookup, _, hch⟩
    subst hch
    by_cases hm : m' = m
    · subst hm
      refine moves_of_worker ?_ ⟨fun _ => honce rfl haccepts, hsingle⟩ (by simp)
      simp only [log_hub, setStack_hub, setChannel_hub,
        update_self, log_stack, setStack_stack, phaseOf,
        if_true]
      exact .begin f.dbid f.key info (honce rfl haccepts) hpipe hd hk hr hlookup
    · refine moves_same hsingle (by simp [update_of_ne (Ne.symm hm)]) ?_
      exact ⟨by simp [phaseOf, hm], fun hs => ⟨fun h => absurd h hm, hs⟩⟩
  | free c _ _ =>
    rcases freeClient_hubs w c with ⟨freed, hhub⟩
    exact moves_release hsingle hhub (freeClient_stack w c)
  | take m' ok ch hworker htake =>
    refine moves_work hsingle rfl rfl ?_ ?_
    · intro hm
      subst hm
      rcases getJobInWorkingThread_spec htake with hch | ⟨d, key, hd, hk, hr, hch⟩
      · rw [hch]
        exact .same
      · rw [hch]
        exact .take d key hworker hd hk hr
    · intro hm d key val result hrunning
      rw [← hm, hworker] at hrunning
      cases hrunning
  | execute m' ok d key backend val result hworker himplement =>
    have hval : m' = .set -> val = (w.hub m').job.val := by
      intro hset
      subst hset
      exact implementJobByBackend_val himplement
    refine moves_work hsingle rfl rfl ?_ ?_
    · intro hm
      subst hm
      exact .execute d key val result hworker hval
    intro hm d' key' val' result' _ hexecuted
    subst hm
    cases hexecuted
    exact ⟨rfl, ok, rfl, himplement⟩
  | post m' ok d key val result ch hworker hpost =>
    rcases postResult_spec hpost with ⟨hk, hr, hch⟩
    subst hch
    refine moves_work hsingle rfl rfl ?_ ?_
    · intro hm
      subst hm
      exact .post d key val result hworker hk hr
    · intro hm d' key' val' result' hrunning
      rw [← hm, hworker] at hrunning
      cases hrunning
  | signal m' ok hworker =>
    refine moves_work hsingle rfl rfl ?_ ?_
    · intro hm
      subst hm
      exact .signal hworker
    · intro hm d' key' val' result' hrunning
      rw [← hm, hworker] at hrunning
      cases hrunning
  | timeout =>
    rw [timeoutStep_frame]
    exact hkeep _ rfl rfl
  | _ => exact hkeep _ rfl rfl

end Redisoo
