import Redisoo.Safety.Suspension

/-!
# Where listed clients come from

A client of a waiting list was there before the move or has just been suspended;
a client of a copied list was there before or has just been taken over from a
waiting list.  A move does not disturb the other suspended clients.
-/

namespace Redisoo

open Foundation World Function

variable {n : Nat}

/-!
# Where listed clients come from
-/

variable {w w' : World n} {c : ClientId} {m : Mode} {dk : Fin n × Sds} {l : Label n}

theorem freeClient_waits {t : ClientId} (h : Waits (w.freeClient t) c m dk) : Waits w c m dk := by
  rcases freeClient_hub w t with hhub | hhub
  · unfold Waits at h ⊢
    rw [hhub] at h
    exact h
  · exact ((waits_release hhub).mp h).left

variable {victims : List ClientId} {result : Bool}

theorem effect_waits {x : ClientId} (heffect : Effect c victims w w') (h : Waits w' x m dk) :
    Waits w x m dk := by
  induction heffect with
  | refl => exact h
  | call cmd caller d flags _ ih => exact ih h
  | session cl _ _ ih => exact ih h
  | free t _ _ _ _ ih => exact ih (freeClient_waits h)

inductive Suspends (l : Label n) (w : World n) (c : ClientId) :
    Mode -> Fin n × Sds -> World n -> Prop where
  | intro {dc : DataCommand n} {more : List (Command n)}
      {rest : List (Frame n)} {pick : Nat} {deny : Bool} (st : Store n)
      (a : World.Admission) (ch : Channel n) : l = .main pick deny ->
      Takes w c (.data dc) more rest ->
      (w.clients c).multi = none -> w.cfg.sync a.mode = true ->
      Admits (w.received c (.data dc) more)
        ((w.received c (.data dc) more).clients c) dc st a (some c) pick ch ->
      Suspends l w c a.mode ((w.clients c).db, a.key)
        ((w.entered c dc more st a ch).suspended c dc a)

theorem Suspends.client (h : Suspends l w c m dk w') :
    exists dc more, w'.clients c =
      { w.clients c with
        querybuf := more, backendState := some m, cmd := some dc } := by
  cases h with
  | @intro dc more _ _ _ st a ch _ _ _ _ _ =>
    refine ⟨dc, more, ?_⟩
    simp only [World.suspended, log_clients, setClient_clients, update_self]
    rw [entered_clients, received_client]

theorem Suspends.connected (h : Suspends l w c m dk w') : (w'.clients c).status = .connected := by
  rcases h.client with ⟨dc, more, hclient⟩
  rw [hclient]
  cases h with
  | intro _ _ _ _ htakes _ _ _ => exact (Ready.normal htakes.ready).left

theorem move_waits (hmove : Move l w w') (h : Waits w' c m dk) :
    Waits w c m dk ∨ Suspends l w c m dk w' := by
  have hchannel : forall (m' : Mode) (ch : Channel n),
      (exists info, (update w.hub m' ch m).candidates.lookup dk =
        some info ∧ c ∈ info.clients) ->
      ch.candidates = (w.hub m').candidates -> Waits w c m dk := by
    intro m' ch hwaits hcand
    by_cases hm : m = m'
    · subst hm
      rw [update_self, hcand] at hwaits
      exact hwaits
    · rw [update_of_ne hm] at hwaits
      exact hwaits
  cases hmove with
  | @control _ _ _ w1 c' cmd more _ r _ _ heffect =>
    have hbefore : Waits (w.received c' cmd more) c m dk := effect_waits heffect h
    exact Or.inl hbefore
  | @suspend _ _ _ c' dc more _ st a ch htakes hmulti hsync hadmits =>
    have henq : Enqueued w ((w.entered c' dc more st a ch).suspended c' dc a)
        a.mode ((w.clients c').db, a.key) (some c') :=
      entered_enqueued hadmits rfl
    rcases henq.waits_iff.mp h with hold | ⟨heq, hm, hdk⟩
    · exact Or.inl hold
    · cases heq
      rw [hm, hdk]
      exact Or.inr (.intro st a ch rfl htakes hmulti hsync hadmits)
  | @async _ _ _ c' dc more _ st a ch _ _ _ hadmits =>
    have henq : Enqueued w ((w.entered c' dc more st a ch).serveData c' dc)
        a.mode ((w.clients c').db, a.key) none :=
      entered_enqueued hadmits rfl
    rcases henq.waits_iff.mp h with hold | ⟨heq, _, _⟩
    · exact Or.inl hold
    · cases heq
  | @scriptCall _ _ _ c' cmd _ _ _ _ =>
    rw [callFromScript_frame] at h
    exact Or.inl h
  | resume _ hresume =>
    rcases resume_frame hresume with ⟨cmd, _, _, _, hw1⟩
    subst hw1
    exact Or.inl h
  | finish ch _ hclear =>
    exact Or.inl (hchannel _ ch h (clearJob_spec hclear).frame.left)
  | drain _ _ | execute _ _ _ _ _ _ _ _ _ | signal _ _ _ =>
    refine Or.inl (hchannel _ _ h ?_)
    rfl
  | handler m' f st ch clients _ _ _ _ htake =>
    rcases takeWaiters_spec htake with ⟨info, _, _, hch⟩
    subst hch
    rcases h with ⟨info', hlookup, hc⟩
    left
    by_cases hm : m = m'
    · subst hm
      simp only [log_hub, setStack_hub, setChannel_hub, update_self] at hlookup
      by_cases hdk : dk = (f.dbid, f.key.bytes)
      · subst hdk
        rw [AList.lookup_erase] at hlookup
        cases hlookup
      · rw [AList.lookup_erase_ne hdk] at hlookup
        exact ⟨info', hlookup, hc⟩
    · simp only [log_hub, setStack_hub, setChannel_hub, update_of_ne hm] at hlookup
      exact ⟨info', hlookup, hc⟩
  | free t _ _ => exact Or.inl (freeClient_waits h)
  | take m' ok ch _ htake =>
    refine Or.inl (hchannel m' ch h ?_)
    rcases getJobInWorkingThread_spec htake with hch | ⟨_, _, _, _, _, hch⟩
    · rw [hch]
    · rw [hch]
  | post m' ok d key val result ch _ hpost =>
    refine Or.inl (hchannel m' ch h ?_)
    rw [(postResult_spec hpost).right.right]
  | timeout =>
    rw [timeoutStep_frame] at h
    exact Or.inl h
  | _ => exact Or.inl h

structure Dispatches (l : Label n) (w w' : World n) (m : Mode)
    (dk : Fin n × Sds) (result : Bool) (clients : List ClientId) : Prop where
  label : l = .external (.pipe m)
  accepts : w.acceptsEvents = true
  finished : exists f, readFinished m (w.hub m) = .ok f ∧
    dk = (f.dbid, f.key.bytes) ∧ result = f.result
  waiters : exists info, (w.hub m).candidates.lookup dk = some info ∧
    clients = info.clients
  clients : w'.clients = w.clients
  trace : exists addr, w'.trace = .complete m dk.1 dk.2 addr :: w.trace

theorem move_frames {clients : List ClientId} (hmove : Move l w w')
    (h : Frame.clear m dk.1 dk.2 result clients ∈ w'.stack) :
    (exists clients', Frame.clear m dk.1 dk.2 result clients' ∈ w.stack ∧
      forall c, c ∈ clients -> c ∈ clients') ∨
      Dispatches l w w' m dk result clients := by
  have hold : forall stack' : List (Frame n), w.stack = stack' ->
      Frame.clear m dk.1 dk.2 result clients ∈ stack' ->
      (exists clients', Frame.clear m dk.1 dk.2 result clients' ∈ w.stack ∧
        forall c, c ∈ clients -> c ∈ clients') ∨
        Dispatches l w w' m dk result clients := by
    intro stack' hstack hmem
    rw [← hstack] at hmem
    exact Or.inl ⟨clients, hmem, fun _ hc => hc⟩
  cases hmove with
  | leave hstack _ | scriptEnd hstack | drain hstack _ =>
    exact hold _ hstack (List.mem_cons_of_mem _ h)
  | control r _ _ heffect =>
    rw [log_stack, (effect_hubs heffect).left] at h
    exact hold _ rfl h
  | @suspend _ _ _ c' dc more _ st a ch _ _ _ _ | @async _ _ _ c' dc more _ st a ch _ _ _ _ =>
    change _ ∈ (w.entered c' dc more st a ch).stack at h
    rw [entered_stack] at h
    exact hold _ rfl h
  | scriptStart _ _ | recv _ _ _ _ _ =>
    rcases List.mem_cons.mp h with heq | h
    · cases heq
    · exact hold _ rfl h
  | scriptCall hstack | finish ch hstack _ =>
    rcases List.mem_cons.mp h with heq | h
    · cases heq
    · exact hold _ hstack (List.mem_cons_of_mem _ h)
  | @resume _ _ _ w1 m' d k result' c more rest hstack _ =>
    rcases List.mem_cons.mp h with heq | h
    · cases heq
    rcases List.mem_cons.mp h with heq | h
    · injection heq with hm hd hk hr hclients
      subst hm hd hk hr hclients
      left
      refine ⟨c :: clients, ?_, fun _ hc => List.mem_cons_of_mem c hc⟩
      rw [hstack]
      exact List.mem_cons_self
    · exact hold _ hstack (List.mem_cons_of_mem _ h)
  | handler m' f st ch clients' haccepts _ hread _ htake =>
    rcases List.mem_cons.mp h with heq | h
    · injection heq with hm hd hk hr hclients
      subst hm hr hclients
      have hdk : dk = (f.dbid, f.key.bytes) := Prod.ext hd hk
      rcases takeWaiters_spec htake with ⟨info, hlookup, hclients, _⟩
      rw [← hdk] at hlookup
      right
      refine ⟨rfl, haccepts, ⟨f, hread, hdk, rfl⟩, ⟨info, hlookup, hclients⟩, rfl, ?_⟩
      rw [hd, hk]
      exact ⟨_, rfl⟩
    · exact hold _ rfl h
  | free t _ _ =>
    rw [freeClient_stack] at h
    exact hold _ rfl h
  | timeout =>
    rw [timeoutStep_frame] at h
    exact hold _ rfl h
  | _ => exact hold _ rfl h

theorem Dispatches.waits {clients : List ClientId} (h : Dispatches l w w' m dk result clients)
    (hc : c ∈ clients) : Waits w c m dk := by
  rcases h.waiters with ⟨info, hlookup, hclients⟩
  rw [hclients] at hc
  exact ⟨info, hlookup, hc⟩

def CopiedWith (stack : List (Frame n)) (c : ClientId) (m : Mode)
    (dk : Fin n × Sds) (result : Bool) : Prop :=
  exists clients, Frame.clear m dk.1 dk.2 result clients ∈ stack ∧ c ∈ clients

theorem move_copiedWith (hmove : Move l w w') (h : CopiedWith w'.stack c m dk result) :
    CopiedWith w.stack c m dk result ∨
      exists clients, Dispatches l w w' m dk result clients ∧ c ∈ clients := by
  rcases h with ⟨clients, hmem, hc⟩
  rcases move_frames hmove hmem with ⟨clients', hold, hsub⟩ | hdispatches
  · exact Or.inl ⟨clients', hold, hsub c hc⟩
  · exact Or.inr ⟨clients, hdispatches, hc⟩

theorem move_copied (hmove : Move l w w') (h : Copied w'.stack c m dk) :
    Copied w.stack c m dk ∨
      exists result clients, Dispatches l w w' m dk result clients ∧ c ∈ clients := by
  rcases h with ⟨result, hwith⟩
  rcases move_copiedWith hmove hwith with hold | hdispatches
  · exact Or.inl ⟨result, hold⟩
  · exact Or.inr ⟨result, hdispatches⟩

theorem entered_trace (w : World n) (c : ClientId) (dc : DataCommand n)
    (more : List (Command n)) (st : Store n) (a : World.Admission) (ch : Channel n) :
    (w.entered c dc more st a ch).trace =
      match (w.hub a.mode).candidates.lookup ((w.clients c).db, a.key) with
      | none => .enter a.mode (w.clients c).db a.key :: (w.received c (.data dc) more).trace
      | some _ => (w.received c (.data dc) more).trace := by
  unfold World.entered World.admitted
  have hhub : (((w.received c (.data dc) more).setStore st).hub a.mode) = w.hub a.mode := rfl
  rw [hhub]
  cases (w.hub a.mode).candidates.lookup ((w.clients c).db, a.key) with
  | none => rfl
  | some info => rfl

/-!
# The configuration
-/

theorem effect_cfg (heffect : Effect c victims w w') : w'.cfg = w.cfg := by
  induction heffect with
  | refl => rfl
  | call cmd caller d flags _ ih => exact ih
  | session cl _ _ ih => exact ih
  | @free w1 t _ _ _ _ ih =>
    rw [(freeClient_frame w1 t).left]
    exact ih

theorem move_cfg (hmove : Move l w w') : w'.cfg = w.cfg := by
  cases hmove with
  | control _ _ _ heffect =>
    rw [log_cfg, effect_cfg heffect]
    rfl
  | suspend st a ch _ _ _ _ =>
    exact (admitted_rest _ _ a ch).2.2.2.1
  | async st a ch _ _ _ _ =>
    rw [serveData_cfg]
    exact (admitted_rest _ _ a ch).2.2.2.1
  | @scriptCall _ _ _ c cmd _ _ _ _ =>
    rw [callFromScript_frame]
    rfl
  | resume _ hresume =>
    rcases resume_frame hresume with ⟨cmd, _, _, _, hw1⟩
    rw [hw1]
    rfl
  | free c _ _ => exact (freeClient_frame w c).left
  | timeout =>
    rw [timeoutStep_frame]
  | _ => rfl

end Redisoo
