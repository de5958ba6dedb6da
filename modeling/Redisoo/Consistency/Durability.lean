import Redisoo.Consistency.Writers

/-!
# Acknowledged writes

With synchronous SET a client that is told of success can expect its value in
the backend: it was written there while the client waited, or the cache held it
already.  This is so as long as no command takes one of the short cuts of
`_checkSetCommandForBackendState`, or joins a write that has already returned,
with another value at stake.
-/

namespace Redisoo

open Foundation World

variable {n : Nat}

/-!
# Acknowledgements
-/

def Reply.IsSuccess (r : Reply) : Prop :=
  r = .ok ∨ r = .integer 1

/-- Since its request the client's value was written to the backend, or the
cache held it when the request arrived. -/
def Backed (tr : List (Observation n)) (c : ClientId) (sc : SetCommand) : Prop :=
  (exists d, .executed .set d sc.key (some sc.getValueFromSetCommand) true ∈
    since c tr) ∨
    .arrive c (.data (.setlike sc)) (some sc.getValueFromSetCommand) ∈ since c tr

def Observation.Honest (older : List (Observation n)) : Observation n -> Prop
  | .reply c (.simple (.data (.setlike sc))) r =>
    r ≠ .queued ∧ (r.IsSuccess -> Backed older c sc)
  | _ => True

def Durable : List (Observation n) -> Prop
  | [] => True
  | o :: older => o.Honest older ∧ Durable older

variable {c : ClientId} {sc : SetCommand} {w w' : World n} {l : Label n}
  {obs tr older : List (Observation n)}

open Observation

theorem backed_append (hobs : forall o, o ∈ obs -> o.arrival ≠ some c) (h : Backed tr c sc) :
    Backed (obs ++ tr) c sc := by
  rcases h with ⟨d, hexecuted⟩ | hheld
  · exact Or.inl ⟨d, mem_since_append hobs hexecuted⟩
  · exact Or.inr (mem_since_append hobs hheld)

theorem Undisturbed.backed (h : Undisturbed w w' c) (hbacked : Backed w.trace c sc) :
    Backed w'.trace c sc := by
  rcases h.record with ⟨obs, htrace, hobs⟩
  rw [htrace]
  exact backed_append hobs hbacked

theorem durable_append (hobs : forall o, o ∈ obs -> forall older, o.Honest older) (h : Durable tr) :
    Durable (obs ++ tr) := by
  induction obs with
  | nil => exact h
  | cons o obs ih =>
    constructor
    · exact hobs o List.mem_cons_self _
    · apply ih
      intro o' ho'
      exact hobs o' (List.mem_cons_of_mem o ho')

/-!
# The condition on a run
-/

/-- The cache holds the value already; or no write of another value is pending,
the cached string is not what the command is compared with, and no write that
the command would join has been executed. -/
def World.Untroubled (w : World n) (c : ClientId) (sc : SetCommand) : Prop :=
  let cl := w.clients c
  let held := w.heldBy cl (.data (.setlike sc))
  cl.multi = none ∧
    (held = some sc.getValueFromSetCommand ∨
      (w.isSameKeyWithDifferentValForSet cl sc = false ∧ held ≠ some sc.argv2 ∧
        Not ((w.hub .set).Executed (phaseOf .set w.stack) (cl.db, sc.key))))

instance (w : World n) (c : ClientId) (sc : SetCommand) : Decidable (w.Untroubled c sc) := by
  unfold World.Untroubled
  infer_instance

def WritesThrough (l : Label n) (w : World n) : Prop :=
  RunsToCompletion .set l w ∧
    match w.upcoming l with
    | some (c, .simple (.data (.setlike sc))) => w.Untroubled c sc
    | _ => True

instance (l : Label n) (w : World n) : Decidable (WritesThrough l w) := by
  unfold WritesThrough
  have : Decidable (match w.upcoming l with
    | some (c, .simple (.data (.setlike sc))) => w.Untroubled c sc
    | _ => True) := by
    split <;> infer_instance
  infer_instance

theorem WritesThrough.untroubled {more : List (Command n)} {rest : List (Frame n)} {pick : Nat}
    {deny : Bool} (h : WritesThrough (.main pick deny) w)
    (htakes : Takes w c (.data (.setlike sc)) more rest) : w.Untroubled c sc := by
  have hnext := h.right
  rw [htakes.upcoming pick deny] at hnext
  exact hnext

/-!
# The invariant
-/

/-- The operation a client waits for is on its record once it has been executed,
unless the client found its value in the cache. -/
structure Vouched (w : World n) : Prop where
  waiting : forall c dk info sc, (w.hub .set).candidates.lookup dk = some info ->
    c ∈ info.clients -> (w.clients c).status = .connected ->
    (w.clients c).cmd = some (.setlike sc) ->
    .arrive c (.data (.setlike sc)) (some sc.getValueFromSetCommand) ∈
        since c w.trace ∨
      forall result, (w.hub .set).Result (phaseOf .set w.stack) dk result ->
        .executed .set dk.1 dk.2 (some info.setValue) result ∈ since c w.trace
  copied : forall c dk sc, CopiedWith w.stack c .set dk true ->
    (w.clients c).status = .connected -> (w.clients c).cmd = some (.setlike sc) ->
    Backed w.trace c sc

def VouchedFor (w : World n) (c : ClientId) (dk : Fin n × Sds) (sc : SetCommand)
    (value : Sds) : Prop :=
  .arrive c (.data (.setlike sc)) (some sc.getValueFromSetCommand) ∈ since c w.trace ∨
    forall result, (w.hub .set).Result (phaseOf .set w.stack) dk result ->
      .executed .set dk.1 dk.2 (some value) result ∈ since c w.trace

theorem vouched_suspends {m : Mode} {dk : Fin n × Sds} {value : Sds}
    (hsuspends : Suspends l w c m dk w') (hset : m = .set) (hcond : WritesThrough l w)
    (hmoves : Moves .set l w w') (hsound : w.Sound .set)
    (hcmd : (w'.clients c).cmd = some (.setlike sc)) : VouchedFor w' c dk sc value := by
  cases hsuspends with
  | @intro dc more rest pick deny st a ch hl htakes _ _ hadmits =>
    subst hl
    rcases checkCommand_set hadmits.check hset with ⟨sc', hdc, hkey, _⟩
    subst hdc
    generalize hw' : (w.entered c (.setlike sc') more st a ch).suspended c
      (.setlike sc') a = w' at *
    have hself : (w'.clients c).cmd = some (.setlike sc') := by
      rw [← hw']
      simp [suspended]
    rw [hself] at hcmd
    cases hcmd
    rcases entered_record w c (.setlike sc) more st a ch with ⟨obs, htr, _, harrive⟩
    have htrace : exists d, w'.trace = (.suspend c a.mode d a.key :: obs) ++ w.trace := by
      refine ⟨((w.entered c (.setlike sc) more st a ch).clients c).db, ?_⟩
      rw [← hw']
      simp only [suspended, log_trace, setClient_trace]
      rw [htr]
      rfl
    rcases htrace with ⟨d, htrace⟩
    rcases (hcond.untroubled htakes).right with hheld | ⟨_, _, hfresh⟩
    · left
      rw [htrace]
      apply mem_since_of_new
      rw [hheld] at harrive
      exact List.mem_cons_of_mem _ harrive
    · right
      intro result hresult
      exfalso
      rcases hmoves.channel.result Mode.noConfusion hsound.channel hresult with
        hold | ⟨d', key, val, hrunning, hexecuted, _⟩
      · rw [hkey] at hold
        exact hfresh hold.executed
      · rw [(hmoves.executed d' key val result hrunning hexecuted).left] at htrace
        cases htrace

theorem vouched_waits {dk : Fin n × Sds} {info info' : BackendInfo} (hmoves : Moves .set l w w')
    (hsound : w.Sound .set) (hcarries : (w.hub .set).Carries (phaseOf .set w.stack))
    (hundisturbed : Undisturbed w w' c) (hlookup : (w.hub .set).candidates.lookup dk = some info)
    (hlookup' : (w'.hub .set).candidates.lookup dk = some info')
    (h : VouchedFor w c dk sc info.setValue) : VouchedFor w' c dk sc info'.setValue := by
  rw [hmoves.channel.setValue hlookup hlookup']
  rcases h with hheld | hexecuted
  · exact Or.inl (hundisturbed.since hheld)
  right
  intro result hresult
  rcases hmoves.channel.result Mode.noConfusion hsound.channel hresult with
    hold | ⟨d, key, val, hrunning, hnew, hdk⟩
  · exact hundisturbed.since (hexecuted result hold)
  -- The operation has just been executed, with the value of the entry.
  rcases hmoves.executed d key val result hrunning hnew with ⟨htrace, ok, _, himplement⟩
  rcases hsound.channel.working (j := (d, key))
    (Or.inl (by rw [hrunning]; rfl)) with ⟨hd, hk, _, _, hphase⟩
  rcases hcarries.job hphase d key hd hk with ⟨info0, hinfo0, hjob⟩
  rw [hdk, hlookup] at hinfo0
  cases hinfo0
  rw [htrace, implementJobByBackend_val himplement, hjob, ← hdk]
  exact List.mem_cons_self

theorem move_vouched (hmove : Move l w w') (hcond : WritesThrough l w) (hsound : w.Sound .set)
    (hcarries : (w.hub .set).Carries (phaseOf .set w.stack)) (hsusp : Suspension w)
    (hwriters : Writers w) (h : Vouched w) : Vouched w' := by
  have hsusp' := move_suspension hmove hsusp
  have hmoves := move_channel hmove hcond.left hsound.single
  have hbefore := connected_before hmove
  constructor
  · intro c dk info' sc hlookup' hmem' hconn hcmd'
    rcases move_waits hmove ⟨info', hlookup', hmem'⟩ with ⟨info, hlookup, hmem⟩ | hsuspends
    · have hundisturbed := move_undisturbed hmove (hsusp.waits c .set dk ⟨info, hlookup, hmem⟩).state
      have hstate' := (hsusp'.waits c .set dk ⟨info', hlookup', hmem'⟩).state
      rw [hundisturbed.cmd hconn (by simp [hstate'])] at hcmd'
      exact vouched_waits hmoves hsound hcarries hundisturbed hlookup hlookup'
        (h.waiting c dk info sc hlookup hmem (hbefore c hconn) hcmd')
    · exact vouched_suspends hsuspends rfl hcond hmoves hsound hcmd'
  · intro c dk sc hcopied' hconn hcmd'
    have hstate' : (w'.clients c).backendState ≠ none := by
      rcases hcopied' with ⟨clients, hmem, hc⟩
      rw [(hsusp'.copied c .set dk ⟨true, clients, hmem, hc⟩).state]
      exact Option.some_ne_none _
    rcases move_copiedWith hmove hcopied' with ⟨clients, hmem, hc⟩ | ⟨clients, hdispatches, hc⟩
    · have hundisturbed :=
        move_undisturbed hmove (hsusp.copied c .set dk ⟨true, clients, hmem, hc⟩).state
      rw [hundisturbed.cmd hconn hstate'] at hcmd'
      exact hundisturbed.backed (h.copied c dk sc ⟨clients, hmem, hc⟩ (hbefore c hconn) hcmd')
    · rcases hdispatches.waits hc with ⟨info, hlookup, hmem⟩
      have hundisturbed := move_undisturbed hmove (hsusp.waits c .set dk ⟨info, hlookup, hmem⟩).state
      rw [hundisturbed.cmd hconn hstate'] at hcmd'
      rcases hwriters.waiting c dk info hlookup hmem (hbefore c hconn) with ⟨sc', hcmd, hkey, hsc⟩
      rw [hcmd] at hcmd'
      cases hcmd'
      apply hundisturbed.backed
      rcases h.waiting c dk info sc hlookup hmem (hbefore c hconn) hcmd with hheld | hexecuted
      · exact Or.inr hheld
      left
      refine ⟨dk.1, ?_⟩
      rw [hkey, hsc]
      apply hexecuted
      rcases hdispatches.finished with ⟨f, hread, hdk, hresult⟩
      rcases readFinished_spec hread with ⟨hd, _, hret, _, hf, _⟩
      right
      refine ⟨?_, by rw [hresult, hf], (f.dbid, f.key),
        Job.returned_eq_some.mpr ⟨hd, hret⟩, hdk.symm⟩
      rw [hcond.left hdispatches.label hdispatches.accepts]
      exact HandOff.Phase.noConfusion

/-!
# Replies
-/

structure Config.SyncSet (cfg : Config) : Prop where
  enabled : cfg.redisooDbType ≠ .disabled
  statement : cfg.redisooSet = true
  sync : cfg.redisooSetSync = true

theorem honest_reply {cmd : Command n} {r : Reply}
    (h : forall sc, cmd = .data (.setlike sc) -> r ≠ .queued ∧ (r.IsSuccess -> Backed older c sc)) :
    (reply c cmd r).Honest older := by
  unfold Observation.Honest
  split
  · rename_i heq
    cases heq
    exact h _ rfl
  · trivial

theorem isSameValueInDbForSet_true {o : Option Robj}
    (h : isSameValueInDbForSet sc o = .ok true) : o.bind Robj.decoded = some sc.argv2 := by
  cases o with
  | none => cases h
  | some o =>
    cases o with
    | raw s | embstr s =>
      injection h with h
      rw [← eq_of_beq h]
      rfl
    | int v => cases h
    | aggregate type elems => cases h

theorem checkCommand_set_bypass {cl : Client n} {st : Store n} (hset : w.cfg.redisooSet = true)
    (h : w.checkCommand cl (.setlike sc) = .ok (st, none)) :
    (sc.isSetnx = true ∧ st = (w.lookupForSet cl sc).1 ∧
        (w.lookupForSet cl sc).2.isSome = true) ∨
      w.isSameKeyWithDifferentValForSet cl sc = true ∨
      w.heldBy cl (.data (.setlike sc)) = some sc.argv2 := by
  simp only [checkCommand] at h
  split at h
  · cases h
  · rename_i st' need hcheck
    have hneed : st' = st ∧ need = false := by
      injection h with h
      injection h with hst hnone
      refine ⟨hst, ?_⟩
      cases need with
      | false => rfl
      | true => cases hnone
    rcases hneed with ⟨hst, hneed⟩
    subst hst hneed
    simp only [checkSetCommandForBackendState, hset, Bool.not_true,
      Bool.false_eq_true, if_false] at hcheck
    split at hcheck
    · rename_i hfound
      cases hcheck
      rw [Bool.and_eq_true] at hfound
      exact Or.inl ⟨hfound.left, rfl, hfound.right⟩
    · split at hcheck
      · rename_i hdifferent
        exact Or.inr (Or.inl hdifferent)
      split at hcheck
      · cases hcheck
      · rename_i same hsame
        have htrue : same = true := by
          injection hcheck with hcheck
          injection hcheck with _ hnot
          simpa using hnot
        subst htrue
        right
        right
        exact isSameValueInDbForSet_true hsame

theorem callData_set_reply (w : World n) (c : ClientId) (sc : SetCommand) :
    (w.callData c (.setlike sc)).2 ≠ .queued ∧
      ((w.callData c (.setlike sc)).2.IsSuccess -> (w.clients c).syncReply.set = false) := by
  have hreply : (w.callData c (.setlike sc)).2 =
      (setProc w.env w.store (w.clients c).db (w.clients c).syncReply sc).reply :=
    DataCommand.call_reply _ _ _ _ _ _
  rw [hreply]
  rcases setProc_reply w.env w.store (w.clients c).db (w.clients c).syncReply sc with
    (⟨msg, hr⟩ | hr | hr) | ⟨hr | hr, hflag⟩
  all_goals rw [hr]
  all_goals simp_all [Reply.IsSuccess]

theorem callData_setnx_found {cl : Client n} (hsetnx : sc.isSetnx = true)
    (hdb : cl.db = (w.clients c).db) (hfound : (w.lookupForSet cl sc).2.isSome = true) :
    Not (((w.setStore (w.lookupForSet cl sc).1).callData c (.setlike sc)).2.IsSuccess) := by
  cases sc with
  | set k v options => cases hsetnx
  | setex k t v => cases hsetnx
  | psetex k t v => cases hsetnx
  | setnx k v =>
    rcases Option.isSome_iff_exists.mp hfound with ⟨o, ho⟩
    have hlooked : (w.store.expireIfNeeded w.env (w.clients c).db k).1.ks.dict
        (w.clients c).db k = some o := by
      rw [← hdb]
      exact Store.lookupKeyRead_some ho
    have hstore : (w.lookupForSet cl (.setnx k v)).1 =
        (w.store.expireIfNeeded w.env (w.clients c).db k).1 := by
      rw [← hdb]
      exact Store.lookupKeyRead_fst _ _ _ _ _
    rw [hstore]
    generalize hlate : w.setStore (w.store.expireIfNeeded w.env (w.clients c).db k).1 = late
    have hagain : (late.store.lookupKeyWrite late.env (late.clients c).db k).2 = some o := by
      rw [← hlate, ← hlooked, Store.lookupKeyWrite_snd]
      exact congrArg (fun st : Store n => st.ks.dict (w.clients c).db k)
        (Store.expireIfNeeded_idem w.env w.store (w.clients c).db k)
    have hreply : (late.callData c (.setlike (.setnx k v))).2 =
        (setProc late.env late.store (late.clients c).db
          (late.clients c).syncReply (.setnx k v)).reply :=
      DataCommand.call_reply _ _ _ _ _ _
    have hsome : ((late.store.lookupKeyWrite late.env (late.clients c).db k).2).isSome = true := by
      rw [hagain]
      rfl
    rw [hreply]
    rcases setProc_setnx_found hsome with hr | hr
    · rw [hr]
      simp [Reply.IsSuccess]
    · rw [hr]
      simp [Reply.IsSuccess]

theorem direct_honest {dc : DataCommand n} {more : List (Command n)} {st : Store n}
    (hcfg : w.cfg.SyncSet) (hbypass : Bypasses (w.received c (.data dc) more)
      ((w.received c (.data dc) more).clients c) dc st)
    (huntroubled : forall sc, dc = .setlike sc -> w.Untroubled c sc) :
    (reply c (.data dc)
      (((w.received c (.data dc) more).setStore st).callData c dc).2).Honest
      (w.received c (.data dc) more).trace := by
  apply honest_reply
  intro sc hdc
  cases hdc
  refine ⟨(callData_set_reply _ c sc).left, ?_⟩
  intro hsuccess
  rcases hbypass with ⟨hdisabled, _⟩ | ⟨_, hcheck⟩
  · exact absurd hdisabled hcfg.enabled
  rw [received_client] at hcheck
  have hheld : w.heldBy (w.clients c) (.data (.setlike sc)) = some sc.getValueFromSetCommand := by
    rcases checkCommand_set_bypass hcfg.statement hcheck with
      ⟨hsetnx, hst, hfound⟩ | hdifferent | hsame
    · rw [hst] at hsuccess
      exact absurd hsuccess (callData_setnx_found hsetnx (by simp) hfound)
    · rcases (huntroubled sc rfl).right with hheld | ⟨hpending, _, _⟩
      · exact hheld
      · cases hpending.symm.trans hdifferent
    · rcases (huntroubled sc rfl).right with hheld | ⟨_, hargv, _⟩
      · exact hheld
      · exact absurd hsame hargv
  right
  change _ ∈ since c (.arrive c (.data (.setlike sc))
    (w.heldBy (w.clients c) (.data (.setlike sc))) :: w.trace)
  rw [hheld]
  simp [since, arrival]

theorem resume_honest {w1 : World n} {m : Mode} {d : Fin n} {k : Sds} {result : Bool}
    {more : List ClientId} {rest : List (Frame n)}
    (hstack : w.stack = .clear m d k result (c :: more) :: rest)
    (hresume : w.resumeBackendClient m d k result c = .ok w1) (hsusp : Suspension w)
    (hvouched : Vouched w) :
    exists cmd r, w1.trace = .reply c (.data cmd) r :: .resume c m d k :: w.trace ∧
      (reply c (.data cmd) r).Honest (.resume c m d k :: w.trace) := by
  rcases resume_frame hresume with ⟨cmd, hfreed, _, hcmd, hw1⟩
  rw [hw1]
  refine ⟨cmd, _, rfl, honest_reply ?_⟩
  intro sc hsc
  cases hsc
  have hmem : Frame.clear m d k result (c :: more) ∈ w.stack := by
    rw [hstack]
    exact List.mem_cons_self
  have hmode : m = .set := by
    cases hsusp.resumed_target hstack hfreed hcmd
    rfl
  subst hmode
  rcases callData_set_reply ((w.setClient c { w.clients c with
      backendState := none, cmd := none,
      syncReply := syncReplyAfter .set result (w.clients c).syncReply }).log
    (.resume c .set d k)) c sc with ⟨hqueued, hflag⟩
  refine ⟨hqueued, ?_⟩
  intro hsuccess
  have hclear := hflag hsuccess
  rw [log_clients, setClient_clients, Function.update_self] at hclear
  cases result with
  | false => cases hclear
  | true =>
    have hbacked := hvouched.copied c (d, k) sc
      ⟨c :: more, hmem, List.mem_cons_self⟩ (hsusp.connected hfreed hcmd) hcmd
    have hlate : Backed ([.resume c .set d k] ++ w.trace) c sc :=
      backed_append (by simp [arrival]) hbacked
    exact hlate

theorem move_durable (hmove : Move l w w') (hcond : WritesThrough l w) (hcfg : w.cfg.SyncSet)
    (hsusp : Suspension w) (hvouched : Vouched w) (h : Durable w.trace) : Durable w'.trace := by
  have hone : forall o : Observation n, (forall older, o.Honest older) ->
      Durable (o :: w.trace) := fun o ho => ⟨ho _, h⟩
  have hentered : forall c dc more st a ch, Durable (w.entered c dc more st a ch).trace := by
    intro c dc more st a ch
    rw [entered_trace]
    split
    · exact ⟨trivial, trivial, h⟩
    · exact ⟨trivial, h⟩
  cases hmove with
  | @refuse _ _ _ c cmd more rest cl r htakes _ _ hreason =>
    refine ⟨honest_reply ?_, hone (.arrive _ _ _) (fun _ => trivial)⟩
    intro sc hsc
    subst hsc
    have hmulti := (hcond.untroubled htakes).left
    rcases hreason with ⟨_, hin⟩ | ⟨hr, _⟩
    · exact absurd hmulti hin
    · rw [hr]
      simp [Reply.IsSuccess]
  | @control _ _ _ w1 c cmd more _ r htakes hcmd heffect =>
    refine ⟨honest_reply fun sc hsc => absurd hsc (hcmd _), ?_⟩
    rcases effect_trace heffect with ⟨obs, htr, hobs⟩
    rw [htr]
    apply durable_append
    · intro o ho older
      rcases hobs o ho with ⟨t, heq, _, _⟩
      rw [heq]
      trivial
    · exact hone (.arrive _ _ _) (fun _ => trivial)
  | @direct _ _ _ c dc more _ st htakes hmulti hbypass =>
    refine ⟨direct_honest hcfg hbypass ?_, hone (.arrive _ _ _) (fun _ => trivial)⟩
    intro sc hdc
    subst hdc
    exact hcond.untroubled htakes
  | @suspend _ _ _ c dc more _ st a ch _ _ _ _ =>
    exact ⟨trivial, hentered c dc more st a ch⟩
  | @async _ _ _ c dc more _ st a ch _ _ hsync hadmits =>
    refine ⟨honest_reply ?_, hentered c dc more st a ch⟩
    intro sc hdc
    cases hdc
    -- A SET command that is admitted is never executed at once here.
    have htarget := checkCommand_target hadmits.check
    simp only [DataCommand.target, Option.some.injEq, Prod.mk.injEq] at htarget
    rw [← htarget.left] at hsync
    cases hsync.symm.trans hcfg.sync
  | @scriptCall _ _ _ c cmd _ _ _ _ =>
    rw [callFromScript_frame]
    exact h
  | @resume _ _ _ w1 m d k result c more rest hstack hresume =>
    rcases resume_honest hstack hresume hsusp hvouched with ⟨cmd, r, htr, hhonest⟩
    rw [setStack_trace, htr]
    exact ⟨hhonest, trivial, h⟩
  | free t _ _ =>
    rcases freeClient_trace w t with ⟨obs, htr, hobs⟩
    rw [htr]
    apply durable_append _ h
    intro o ho older
    rw [(hobs o ho).left]
    trivial
  | timeout =>
    rw [timeoutStep_frame]
    exact h
  | scriptStart _ _ => exact hone (.arrive _ _ _) (fun _ => trivial)
  | scriptEnd _ => exact hone (.reply _ _ _) (fun _ => trivial)
  | handler _ _ _ _ _ _ _ _ _ _ => exact hone (.complete _ _ _ _) (fun _ => trivial)
  | execute _ _ _ _ _ _ _ _ _ => exact hone (.executed _ _ _ _ _) (fun _ => trivial)
  | post _ _ _ _ _ _ _ _ _ => exact hone (.posted _ _) (fun _ => trivial)
  | _ => exact h

/-!
# Runs
-/

structure WriteThrough (w : World n) : Prop where
  cfg : w.cfg.SyncSet
  sound : w.Sound .set
  carries : (w.hub .set).Carries (phaseOf .set w.stack)
  suspension : Suspension w
  writers : Writers w
  vouched : Vouched w
  durable : Durable w.trace

theorem writeThrough_start {cfg : Config} (hcfg : cfg.SyncSet)
    (backend : Sds -> Option Sds) (db : Fin n) (master : Option ClientId) :
    WriteThrough (start cfg backend db master) where
  cfg := hcfg
  sound := sound_start cfg backend db master .set
  carries := carries_init
  suspension := suspension_start cfg backend db master
  writers := writers_start cfg backend db master
  vouched :=
    { waiting := by
        intro c dk info sc hlookup
        cases hlookup
      copied := by
        rintro c dk sc ⟨clients, hmem, _⟩
        cases hmem }
  durable := trivial

theorem move_writeThrough (hmove : Move l w w') (hcond : WritesThrough l w) (h : WriteThrough w) :
    WriteThrough w' where
  cfg := by
    rw [move_cfg hmove]
    exact h.cfg
  sound := move_sound hmove hcond.left h.sound
  carries :=
    (move_channel hmove hcond.left h.sound.single).channel.carries h.sound.channel h.carries
  suspension := move_suspension hmove h.suspension
  writers := move_writers hmove hcond.left h.sound h.carries h.suspension h.writers
  vouched := move_vouched hmove hcond h.sound h.carries h.suspension h.writers h.vouched
  durable := move_durable hmove hcond h.cfg h.suspension h.vouched h.durable

/-- Under synchronous SET, every successful reply to a SET command of a run that
takes no such command in trouble is backed by a write to the backend, or by the
cached value. -/
theorem acknowledged_writes_backed (cfg : Config) (hcfg : cfg.SyncSet)
    (backend : Sds -> Option Sds) (db : Fin n) (master : Option ClientId)
    (labels : List (Label n)) (w : World n)
    (hall : AllSteps World.step WritesThrough labels
      (World.start cfg backend db master))
    (hrun : runSteps World.step labels (World.start cfg backend db master) = .ok w) :
    Durable w.trace :=
  (runSteps_invariant (fun _ _ _ hI hcond hstep => move_writeThrough (step_move hstep) hcond hI)
    (writeThrough_start hcfg backend db master) hall hrun).durable

def writeRun : List (Label 1) :=
  [.external (.recv 0 [.data (.setlike (.set [107] [118] []))]),
   .main 0 false, .main 0 false,
   .work .set true, .work .set true, .work .set true, .work .set true,
   .external (.pipe .set), .main 0 false, .main 0 false, .main 0 false,
   .main 0 false]

theorem acknowledged_writes_backed_set :
    exists w, runSteps World.step writeRun
        (World.start Config.synchronous (fun _ => none) 0 none) = .ok w ∧
      w.backend [107] = some [118] ∧
      w.trace.head? =
        some (.reply 0 (.data (.setlike (.set [107] [118] []))) .ok) ∧
      Durable w.trace :=
  ⟨_, rfl, rfl, rfl, acknowledged_writes_backed Config.synchronous
      ⟨by decide, rfl, rfl⟩ (fun _ => none) 0 none writeRun _
      (allSteps_of_check (by decide +kernel)) rfl⟩

def overtakingRun : List (Label 1) :=
  [.external (.recv 0 [.data (.setlike (.set [107] [118] []))]),
   .main 0 false, .main 0 false,
   .external (.recv 1 [.data (.setlike (.set [107] [119] []))]), .main 0 false]

/-- The second write is acknowledged though only the cache has it. -/
theorem cache_only_write_acknowledged :
    exists w, runSteps World.step overtakingRun
        (World.start Config.synchronous (fun _ => none) 0 none) = .ok w ∧
      w.trace.head? =
        some (.reply 1 (.data (.setlike (.set [107] [119] []))) .ok) ∧
      w.store.ks.dict 0 [107] = some (.embstr [119]) ∧
      w.backend [107] = none ∧ Not (Durable w.trace) := by
  refine ⟨_, rfl, rfl, rfl, rfl, ?_⟩
  intro hdurable
  rcases hdurable.left.right (Or.inl rfl) with ⟨d, hexecuted⟩ | hheld
  · cases List.mem_singleton.mp hexecuted
  · cases List.mem_singleton.mp hheld

end Redisoo
