import Redisoo.Consistency.SetJobs
import Redisoo.Safety.Release

/-!
# Clients that wait for a write

A suspended client keeps its command, and its record goes on without a new
request.  A client that waits for a SET operation waits for its own value: the
entry has it, and so has the job while the client is being resumed.
-/

namespace Redisoo

open Foundation World Observation

variable {n : Nat}

/-!
# The record since a request
-/

def Observation.arrival : Observation n -> Option ClientId
  | .arrive c _ _ => some c
  | _ => none

def since (c : ClientId) : List (Observation n) -> List (Observation n)
  | [] => []
  | o :: older => if o.arrival = some c then [o] else o :: since c older

variable {c : ClientId} {o : Observation n} {w w' : World n} {l : Label n}
  {obs tr : List (Observation n)}

theorem mem_since_append (hobs : forall o', o' ∈ obs -> o'.arrival ≠ some c) (h : o ∈ since c tr) :
    o ∈ since c (obs ++ tr) := by
  induction obs with
  | nil => exact h
  | cons o' obs ih =>
    have ho' := hobs o' List.mem_cons_self
    rw [List.cons_append, since, if_neg ho']
    refine List.mem_cons_of_mem o' (ih ?_)
    intro x hx
    exact hobs x (List.mem_cons_of_mem o' hx)

theorem mem_since_of_new (h : o ∈ since c obs) : o ∈ since c (obs ++ tr) := by
  induction obs with
  | nil => cases h
  | cons o' obs ih =>
    rw [List.cons_append, since]
    rw [since] at h
    split at h
    · rename_i hlast
      rw [if_pos hlast]
      exact h
    · rename_i hmore
      rw [if_neg hmore]
      rcases List.mem_cons.mp h with heq | hmem
      · rw [heq]
        exact List.mem_cons_self
      · exact List.mem_cons_of_mem o' (ih hmem)

structure Undisturbed (w w' : World n) (c : ClientId) : Prop where
  record : exists obs, w'.trace = obs ++ w.trace ∧
    forall o, o ∈ obs -> o.arrival ≠ some c
  cmd : (w'.clients c).status = .connected ->
    (w'.clients c).backendState ≠ none -> (w'.clients c).cmd = (w.clients c).cmd

theorem Undisturbed.since (h : Undisturbed w w' c) (ho : o ∈ since c w.trace) :
    o ∈ since c w'.trace := by
  rcases h.record with ⟨obs, htrace, hobs⟩
  rw [htrace]
  exact mem_since_append hobs ho

theorem freeClient_cmd {t : ClientId} (h : ((w.freeClient t).clients c).status = .connected) :
    ((w.freeClient t).clients c).cmd = (w.clients c).cmd := by
  by_cases hc : c = t
  · subst hc
    generalize hw' : w.freeClient c = w' at h ⊢
    cases freeClient_cases hw' with
    | marked _ => simp
    | cached _ _ => simp at h
    | released _ _ => simp
  · rw [freeClient_other w hc]

theorem effect_cmd {t : ClientId} {victims : List ClientId} (heffect : Effect c victims w w')
    (h : (w'.clients t).status = .connected) : (w'.clients t).cmd = (w.clients t).cmd := by
  induction heffect with
  | refl => rfl
  | call cmd caller d flags _ ih => exact ih h
  | @session w1 cl _ hsame ih =>
    by_cases hc : t = c
    · subst hc
      rw [setClient_clients, Function.update_self] at h ⊢
      rw [hsame.cmd]
      rw [hsame.status] at h
      exact ih h
    · rw [setClient_clients, Function.update_of_ne hc] at h ⊢
      exact ih h
  | @free w1 t' hprev hmem hne hconn ih =>
    rw [freeClient_cmd h]
    apply ih
    by_contra hgone
    exact effect_gone (.free t' .refl hmem hne hconn : Effect c victims w1 _) hgone h

theorem entered_record (w : World n) (c : ClientId) (dc : DataCommand n)
    (more : List (Command n)) (st : Store n) (a : World.Admission) (ch : Channel n) :
    exists obs, (w.entered c dc more st a ch).trace = obs ++ w.trace ∧
      (forall o, o ∈ obs -> o.arrival = none ∨ o.arrival = some c) ∧
      .arrive c (.data dc) (w.heldBy (w.clients c) (.data dc)) ∈ since c obs := by
  rw [entered_trace]
  split
  · refine ⟨[_, _], rfl, ?_, ?_⟩
    · simp [arrival]
    · simp [since, arrival]
  · refine ⟨[_], rfl, ?_, ?_⟩
    · simp [arrival]
    · simp [since, arrival]

theorem move_undisturbed {m : Mode} (hmove : Move l w w')
    (hstate : (w.clients c).backendState = some m) : Undisturbed w w' c := by
  have hrecord : forall (w' : World n) (obs : List (Observation n)),
      w'.clients = w.clients -> w'.trace = obs ++ w.trace ->
      (forall o, o ∈ obs -> o.arrival = none) -> Undisturbed w w' c := by
    intro w' obs hclients htrace hobs
    refine ⟨⟨obs, htrace, ?_⟩, ?_⟩
    · intro o ho
      rw [hobs o ho]
      exact (Option.some_ne_none c).symm
    · intro _ _
      rw [hclients]
  have hsilent := fun w' hclients htrace => hrecord w' [] hclients htrace (by simp)
  -- The client whose command is taken is another one, being in the normal state.
  have hother : forall {c' : ClientId} {cmd : Command n}
      {more : List (Command n)} {rest : List (Frame n)},
      Takes w c' cmd more rest -> c ≠ c' := by
    intro c' cmd more rest htakes heq
    subst heq
    rw [(Ready.normal htakes.ready).right] at hstate
    cases hstate
  have hone : forall {c' : ClientId} {cmd : Command n}
      {more : List (Command n)} {rest : List (Frame n)} (w' : World n)
      (obs : List (Observation n)), Takes w c' cmd more rest ->
      (c ≠ c' -> w'.clients c = w.clients c) -> w'.trace = obs ++ w.trace ->
      (forall o, o ∈ obs -> o.arrival = none ∨ o.arrival = some c') ->
      Undisturbed w w' c := by
    intro c' cmd more rest w' obs htakes hclient htrace hobs
    have hne := hother htakes
    refine ⟨⟨obs, htrace, ?_⟩, ?_⟩
    · intro o ho
      rcases hobs o ho with hnone | hsome
      · rw [hnone]
        exact (Option.some_ne_none c).symm
      rw [hsome]
      intro heq
      cases heq
      exact hne rfl
    · intro _ _
      rw [hclient hne]
  cases hmove with
  | @refuse _ _ _ c' cmd more _ cl r htakes _ _ _ =>
    refine hone _ [_, _] htakes ?_ rfl ?_
    · intro hne
      simp [received, hne]
    · simp [arrival]
  | @control _ _ _ w1 c' cmd more _ r htakes _ heffect =>
    have hne := hother htakes
    rcases control_trace heffect r with ⟨obs, htrace, hobs⟩
    refine ⟨⟨obs, htrace, ?_⟩, ?_⟩
    · intro o ho
      rcases hobs o ho with rfl | rfl | ⟨t, rfl, _, _⟩
      · exact (Option.some_ne_none c).symm
      · intro heq
        cases heq
        exact hne rfl
      · exact (Option.some_ne_none c).symm
    · intro hconn _
      rw [log_clients] at hconn ⊢
      rw [effect_cmd heffect hconn]
      simp [received, hne]
  | @direct _ _ _ c' dc more _ st htakes _ _ =>
    refine hone _ [_, _] htakes ?_ rfl ?_
    · intro hne
      rw [serveData_clients]
      simp [received, hne]
    · simp [arrival]
  | @suspend _ _ _ c' dc more _ st a ch htakes _ _ _ =>
    rcases entered_record w c' dc more st a ch with ⟨obs, htr, hobs, _⟩
    refine hone _ (.suspend c' a.mode ((w.entered c' dc more st a ch).clients c').db
      a.key :: obs) htakes (suspended_other w c' dc more st a ch) ?_ ?_
    · simp only [suspended, log_trace, setClient_trace]
      rw [htr]
      rfl
    · intro o ho
      rcases List.mem_cons.mp ho with heq | ho
      · rw [heq]
        exact Or.inl rfl
      · exact hobs o ho
  | @async _ _ _ c' dc more _ st a ch htakes _ _ _ =>
    rcases entered_record w c' dc more st a ch with ⟨obs, htr, hobs, _⟩
    refine hone _ (.reply c' (.data dc)
      ((w.entered c' dc more st a ch).callData c' dc).2 :: obs) htakes
      (served_other w c' dc more st a ch) ?_ ?_
    · change _ :: (w.entered c' dc more st a ch).trace = _
      rw [htr]
      rfl
    · intro o ho
      rcases List.mem_cons.mp ho with heq | ho
      · rw [heq]
        exact Or.inl rfl
      · exact hobs o ho
  | @scriptStart _ _ _ c' body more _ htakes _ =>
    refine hone _ [_] htakes ?_ rfl ?_
    · intro hne
      simp [received, hne]
    · simp [arrival]
  | @scriptCall _ _ _ c' cmd _ _ _ _ =>
    rw [callFromScript_frame]
    exact hsilent _ rfl rfl
  | scriptEnd _ => exact hrecord _ [_] rfl rfl (by simp [arrival])
  | @resume _ _ _ w1 m d k result c' more rest _ hresume =>
    rcases resume_frame hresume with ⟨cmd, _, _, _, hw1⟩
    subst hw1
    refine ⟨⟨[_, _], rfl, by simp [arrival]⟩, ?_⟩
    intro _ hsome
    rw [setStack_clients, serveData_clients] at hsome ⊢
    by_cases hc : c = c'
    · subst hc
      rw [Function.update_self] at hsome
      simp at hsome
    · simp [hc]
  | recv c' cmds _ _ _ =>
    refine ⟨⟨[], rfl, fun o ho => by cases ho⟩, ?_⟩
    intro _ _
    by_cases hc : c = c'
    · subst hc
      simp
    · simp [hc]
  | handler _ _ _ _ _ _ _ _ _ _ | execute _ _ _ _ _ _ _ _ _ | post _ _ _ _ _ _ _ _ _ =>
    exact hrecord _ [_] rfl rfl (by simp [arrival])
  | free t _ _ =>
    rcases freeClient_trace w t with ⟨obs, htr, hobs⟩
    refine ⟨⟨obs, htr, ?_⟩, fun hconn _ => freeClient_cmd hconn⟩
    intro o ho
    rw [(hobs o ho).left]
    exact (Option.some_ne_none c).symm
  | timeout =>
    rw [timeoutStep_frame]
    exact hsilent _ rfl rfl
  | _ => exact hsilent _ rfl rfl

/-!
# Values
-/

theorem checkCommand_set {cl : Client n} {dc : DataCommand n} {st : Store n} {a : World.Admission}
    (h : w.checkCommand cl dc = .ok (st, some a)) (hmode : a.mode = .set) :
    exists sc, dc = .setlike sc ∧ a.key = sc.key ∧ a.value = sc.getValueFromSetCommand := by
  have htarget := checkCommand_target h
  rw [hmode] at htarget
  cases dc with
  | get k => cases htarget
  | del k more => cases htarget
  | ordinary o => cases htarget
  | setlike sc =>
    simp only [checkCommand] at h
    split at h
    · cases h
    injection h with h
    injection h with _ h
    split at h
    · cases h
      exact ⟨sc, rfl, rfl, rfl⟩
    · cases h

structure Writers (w : World n) : Prop where
  waiting : forall c dk info, (w.hub .set).candidates.lookup dk = some info ->
    c ∈ info.clients -> (w.clients c).status = .connected ->
    exists sc, (w.clients c).cmd = some (.setlike sc) ∧ sc.key = dk.2 ∧
      sc.getValueFromSetCommand = info.setValue
  copied : forall c dk, Copied w.stack c .set dk ->
    (w.clients c).status = .connected ->
    exists sc, (w.clients c).cmd = some (.setlike sc) ∧ sc.key = dk.2 ∧
      (w.hub .set).job.val = some sc.getValueFromSetCommand

theorem writers_suspends {m : Mode} {dk : Fin n × Sds} {info : BackendInfo}
    (hsuspends : Suspends l w c m dk w') (hset : m = .set)
    (hlookup : (w'.hub .set).candidates.lookup dk = some info) :
    exists sc, (w'.clients c).cmd = some (.setlike sc) ∧ sc.key = dk.2 ∧
      sc.getValueFromSetCommand = info.setValue := by
  cases hsuspends with
  | @intro dc more rest pick deny st a ch hl htakes _ _ hadmits =>
    rcases checkCommand_set hadmits.check hset with ⟨sc, hdc, hkey, hvalue⟩
    subst hdc
    refine ⟨sc, ?_, hkey.symm, ?_⟩
    · simp [suspended]
    rcases enqueue_spec hadmits.enqueue with ⟨new, hjoins, hcreate⟩
    rw [received_client] at hjoins hcreate
    have hhub : ((w.entered c (.setlike sc) more st a ch).suspended c
        (.setlike sc) a).hub .set = ch := by
      change (w.entered c (.setlike sc) more st a ch).hub .set = ch
      rw [entered_hub, ← hset, Function.update_self]
    rw [hhub, hcreate.frame.left] at hlookup
    change ((w.hub a.mode).candidates.insert _ new).lookup _ = some info at hlookup
    rw [AList.lookup_insert] at hlookup
    cases hlookup
    rw [hset] at hjoins
    rw [hjoins.setValue_new, hvalue]

theorem move_writers (hmove : Move l w w') (honce : RunsToCompletion .set l w)
    (hsound : w.Sound .set) (hcarries : (w.hub .set).Carries (phaseOf .set w.stack))
    (hsusp : Suspension w) (h : Writers w) : Writers w' := by
  have hsusp' := move_suspension hmove hsusp
  have hmoves := move_channel hmove honce hsound.single
  have hbefore := connected_before hmove
  constructor
  · intro c dk info' hlookup' hmem' hconn
    rcases move_waits hmove ⟨info', hlookup', hmem'⟩ with ⟨info, hlookup, hmem⟩ | hsuspends
    · have hundisturbed := move_undisturbed hmove (hsusp.waits c .set dk ⟨info, hlookup, hmem⟩).state
      have hstate' := (hsusp'.waits c .set dk ⟨info', hlookup', hmem'⟩).state
      rcases h.waiting c dk info hlookup hmem (hbefore c hconn) with ⟨sc, hcmd, hkey, hsc⟩
      refine ⟨sc, ?_, hkey, hsc.trans (hmoves.channel.setValue hlookup hlookup').symm⟩
      rw [hundisturbed.cmd hconn (by simp [hstate'])]
      exact hcmd
    · exact writers_suspends hsuspends rfl hlookup'
  · intro c dk hcopied' hconn
    have hstate' := (hsusp'.copied c .set dk hcopied').state
    have hclear' := hcopied'.clearing hmoves.single
    have hchannel := hmoves.channel
    rw [hclear'] at hchannel
    rcases move_copied hmove hcopied' with hcopied | ⟨result, clients, hdispatches, hc⟩
    · have hundisturbed := move_undisturbed hmove (hsusp.copied c .set dk hcopied).state
      rcases h.copied c dk hcopied (hbefore c hconn) with ⟨sc, hcmd, hkey, hval⟩
      have hclear := hcopied.clearing hsound.single
      have hsoundc := hsound.channel
      rw [hclear] at hchannel hsoundc
      refine ⟨sc, ?_, hkey, ?_⟩
      · rw [hundisturbed.cmd hconn (by simp [hstate'])]
        exact hcmd
      · rw [hchannel.job_clearing hsoundc]
        exact hval
    · rcases hdispatches.waits hc with ⟨info, hlookup, hmem⟩
      have hidle := honce hdispatches.label hdispatches.accepts
      rcases h.waiting c dk info hlookup hmem (hbefore c hconn) with ⟨sc, hcmd, hkey, hsc⟩
      rcases hdispatches.finished with ⟨f, hread, hdk, _⟩
      rcases readFinished_spec hread with ⟨hd, hk, _, _, _, _⟩
      rcases hcarries.job (by rw [hidle]; exact HandOff.Phase.noConfusion) f.dbid
        f.key hd hk with ⟨info', hlookup', hval⟩
      rw [← hdk, hlookup] at hlookup'
      cases hlookup'
      rw [hidle] at hchannel
      refine ⟨sc, ?_, hkey, ?_⟩
      · rw [hdispatches.clients]
        exact hcmd
      · rw [hchannel.job_begin, hval, hsc]

theorem writers_start (cfg : Config) (backend : Sds -> Option Sds) (db : Fin n)
    (master : Option ClientId) : Writers (start cfg backend db master) := by
  constructor
  · intro c dk info hlookup
    cases hlookup
  · rintro c dk ⟨result, clients, hmem, _⟩
    cases hmem

/-!
# The store after the checks of a command
-/

theorem checkCommand_store {w : World n} {cl : Client n} {dc : DataCommand n}
    {st : Store n} {a : Option World.Admission} (h : w.checkCommand cl dc = .ok (st, a)) :
    st = w.store ∨ exists m k, dc.target = some (m, k) ∧
      st = (w.store.expireIfNeeded w.env cl.db k).1 := by
  cases dc with
  | get k =>
    simp only [World.checkCommand] at h
    injection h with h
    injection h with hst _
    unfold World.checkGetCommandForBackendState at hst
    split at hst
    · exact Or.inl hst.symm
    right
    refine ⟨.get, k, rfl, ?_⟩
    rw [← hst]
    exact Store.lookupKeyRead_fst _ _ _ _ _
  | setlike sc =>
    simp only [World.checkCommand] at h
    split at h
    · cases h
    · rename_i st' need hcheck
      injection h with h
      injection h with hst _
      subst hst
      have hlooked : (w.lookupForSet cl sc).1 = (w.store.expireIfNeeded w.env cl.db sc.key).1 :=
        Store.lookupKeyRead_fst _ _ _ _ _
      unfold World.checkSetCommandForBackendState at hcheck
      dsimp only at hcheck
      rw [hlooked] at hcheck
      split at hcheck
      · cases hcheck
        exact Or.inl rfl
      split at hcheck
      · cases hcheck
        exact Or.inr ⟨.set, sc.key, rfl, rfl⟩
      split at hcheck
      · cases hcheck
        split
        · exact Or.inr ⟨.set, sc.key, rfl, rfl⟩
        · exact Or.inl rfl
      · split at hcheck
        · cases hcheck
        · cases hcheck
          exact Or.inr ⟨.set, sc.key, rfl, rfl⟩
  | del k more =>
    cases h
    exact Or.inl rfl
  | ordinary o =>
    cases h
    exact Or.inl rfl

end Redisoo
