import Redisoo.Consistency.Durability
import Redisoo.Consistency.SetChecks

/-!
# SET commands Redis rejects

Nothing looks at the options and the expire time of a SET command before its value
is written to the backend.  A command Redis rejects writes nothing only when the
checks keep it out for another reason.  Where they always do, all that is written
and installed over a whole run was asked for by a command Redis accepts.
-/

namespace Redisoo

open Foundation World

variable {n : Nat} {w w' : World n} {cl : Client n} {sc : SetCommand} {st : Store n}
  {c : ClientId} {pick : Nat} {l : Label n} {ch ch' : Channel n}

theorem setProc_rejected (e : Env) (st : Store n) (d : Fin n) (flags : SyncReply)
    (h : sc.wellFormed = false) :
    exists msg, setProc e st d flags sc =
      { store := st, reply := .error msg, dirty := 0, flags := flags } := by
  unfold setProc setGenericCommand
  unfold SetCommand.wellFormed at h
  cases hargs : sc.args with
  | none => exact ⟨_, rfl⟩
  | some a =>
    cases hms : a.milliseconds with
    | ok ms => simp [hargs, hms] at h
    | error r =>
      rcases milliseconds_error hms with ⟨msg, hr⟩
      exact ⟨msg, by simp [hms, hr]⟩

theorem serveData_rejected (w : World n) (c : ClientId) (h : sc.wellFormed = false) :
    exists msg, w.serveData c (.setlike sc) =
      (w.setClient c (w.clients c)).log (.reply c (.data (.setlike sc)) (.error msg)) := by
  rcases setProc_rejected w.env w.store (w.clients c).db (w.clients c).syncReply h with ⟨msg, hproc⟩
  refine ⟨msg, ?_⟩
  unfold World.serveData World.callData DataCommand.call DataCommand.proc
  dsimp only
  rw [hproc]
  rfl

/-!
# Kept out of the backend
-/

/-- There is no statement for SET, the key is there for SETNX, another value is
pending for the key, or the cached string is what the command compares with. -/
def World.Refuses (w : World n) (cl : Client n) (sc : SetCommand) : Prop :=
  w.cfg.redisooSet = false ∨
    (sc.isSetnx = true ∧ (w.lookupForSet cl sc).2.isSome = true) ∨
    ((w.hub .set).candidates.lookup (cl.db, sc.key)).any (·.setValue != sc.argv2) = true ∨
    w.heldBy cl (.data (.setlike sc)) = some sc.argv2

/-- The command is refused, or it is not waited for and joins a pending write of the
same TTL whose job is there. -/
def World.KeepsOut (w : World n) (cl : Client n) (sc : SetCommand) : Prop :=
  w.cfg.redisooDbType = .disabled ∨ w.Refuses cl sc ∨
    (w.cfg.redisooSetSync = false ∧
      ((w.hub .set).candidates.lookup (cl.db, sc.key)).any
        (·.setTtl == sc.getTtlForSetCommand) = true ∧
      ((w.hub .set).job.key ≠ none ∨ (w.hub .set).job.returnKey ≠ none))

instance (w : World n) (cl : Client n) (sc : SetCommand) : Decidable (w.KeepsOut cl sc) := by
  unfold World.KeepsOut World.Refuses
  infer_instance

theorem different_iff : w.isSameKeyWithDifferentValForSet cl sc =
    ((w.hub .set).candidates.lookup (cl.db, sc.key)).any (·.setValue != sc.argv2) := by
  unfold World.isSameKeyWithDifferentValForSet
  cases (w.hub .set).candidates.lookup (cl.db, sc.key) with
  | none => rfl
  | some info => rfl

theorem sameValue_iff {o : Option Robj} {same : Bool}
    (h : isSameValueInDbForSet sc o = .ok same) :
    o.bind Robj.decoded = some sc.argv2 <-> same = true := by
  cases o with
  | none =>
    cases h
    simp
  | some o =>
    cases o with
    | raw s | embstr s =>
      injection h with h
      rw [← h, beq_iff_eq]
      exact Option.some_inj
    | int i => cases h
    | aggregate type elems =>
      injection h with h
      rw [← h]
      simp [Robj.decoded, Robj.value]

theorem refuses_iff {a : Option World.Admission}
    (h : w.checkCommand cl (.setlike sc) = .ok (st, a)) : w.Refuses cl sc <-> a = none := by
  have hheld : w.heldBy cl (.data (.setlike sc)) = (w.lookupForSet cl sc).2.bind Robj.decoded := rfl
  unfold World.Refuses
  rw [← different_iff, hheld]
  simp only [World.checkCommand] at h
  split at h
  · cases h
  rename_i st' need hcheck
  injection h with h
  injection h with hst ha
  have hneed : a = none <-> need = false := by
    rw [← ha]
    cases need with
    | false => simp
    | true => simp
  rw [hneed]
  unfold World.checkSetCommandForBackendState at hcheck
  dsimp only at hcheck
  split at hcheck
  · rename_i hoff
    cases hcheck
    simp_all
  rename_i hon
  split at hcheck
  · rename_i hfound
    cases hcheck
    simp_all
  rename_i hfresh
  split at hcheck
  · rename_i hdifferent
    cases hcheck
    simp_all
  rename_i hpending
  split at hcheck
  · cases hcheck
  · rename_i same hsame
    injection hcheck with hcheck
    injection hcheck with _ hnot
    rw [sameValue_iff hsame, ← hnot]
    simp_all

/-- The command is answered with an error and nothing is written for it: not to
the backend, now or by a candidate, and not to the cache, where at most a lookup
has found the key expired. -/
structure WritesNothing (w w' : World n) (c : ClientId) (sc : SetCommand) : Prop where
  error : exists msg, w'.trace.head? = some (.reply c (.data (.setlike sc)) (.error msg))
  backend : w'.backend = w.backend
  entries : forall m dk, (w'.hub m).candidates.lookup dk = (w.hub m).candidates.lookup dk
  jobs : forall m, (w'.hub m).job = (w.hub m).job
  cached : w'.store = w.store ∨
    w'.store = (w.store.expireIfNeeded w.env (w.clients c).db sc.key).1

theorem checked_store {a : Option World.Admission}
    (h : w.checkCommand cl (.setlike sc) = .ok (st, a)) :
    st = w.store ∨ st = (w.store.expireIfNeeded w.env cl.db sc.key).1 := by
  rcases checkCommand_store h with hst | ⟨m, k, htarget, hst⟩
  · exact Or.inl hst
  · cases htarget
    exact Or.inr hst

theorem admitted_set {a : World.Admission}
    (h : w.checkCommand cl (.setlike sc) = .ok (st, some a)) :
    a = ⟨.set, sc.key, sc.getValueFromSetCommand, sc.getTtlForSetCommand⟩ := by
  simp only [World.checkCommand] at h
  split at h
  · cases h
  injection h with h
  injection h with _ h
  split at h
  · cases h
    rfl
  · cases h

/-- A command that is not waited for leaves its channel as it is exactly when it
joins a pending write of the same TTL whose job is there. -/
theorem joins_silently_iff {dk : Fin n × Sds} {value : Sds} {ttl : Int} {info : BackendInfo}
    (hjoins : Joins .set value ttl none (ch.candidates.lookup dk) info)
    (hcreate : Creates .set true { ch with candidates := ch.candidates.insert dk info } ch') :
    ((forall dk', ch'.candidates.lookup dk' = ch.candidates.lookup dk') ∧ ch'.job = ch.job) <->
      (ch.candidates.lookup dk).any (·.setTtl == ttl) = true ∧
        (ch.job.key ≠ none ∨ ch.job.returnKey ≠ none) := by
  have hinsert : (ch.candidates.insert dk info).lookup dk = some info := AList.lookup_insert _
  have hentry : (forall dk', ch'.candidates.lookup dk' = ch.candidates.lookup dk') <->
      (ch.candidates.lookup dk).any (·.setTtl == ttl) = true := by
    rw [hcreate.frame.left]
    constructor
    · intro hsame
      have hhere := hsame dk
      change (ch.candidates.insert dk info).lookup dk = _ at hhere
      rw [hinsert] at hhere
      rw [← hhere]
      generalize ch.candidates.lookup dk = old at hjoins
      cases hjoins with
      | new => simp
      | old _ _ => simp
    · intro hany dk'
      change (ch.candidates.insert dk info).lookup dk' = _
      by_cases hdk : dk' = dk
      · rw [hdk, hinsert]
        generalize ch.candidates.lookup dk = old at hjoins hany
        cases hjoins with
        | new => cases hany
        | old old _ =>
          simp only [Option.any_some, beq_iff_eq] at hany
          simp [← hany]
      · exact AList.lookup_insert_ne hdk
  have hjob : ch'.job = ch.job <-> ch.job.key ≠ none ∨ ch.job.returnKey ≠ none := by
    cases hcreate with
    | busy _ hbusy => exact iff_of_true rfl hbusy
    | empty _ hempty =>
      exact absurd (AList.lookup_isSome.mp (by rw [hinsert]; rfl)) (hempty dk)
    | job d k info' hkey hret _ =>
      refine iff_of_false ?_ (by simp_all)
      intro hsame
      have hkeys := congrArg Job.key hsame
      rw [hkey] at hkeys
      cases hkeys
  rw [hentry, hjob]

theorem keepsOut_admitted_iff {a : World.Admission} (henabled : w.cfg.redisooDbType ≠ .disabled)
    (hcheck : w.checkCommand cl (.setlike sc) = .ok (st, some a)) :
    w.KeepsOut cl sc <-> w.cfg.redisooSetSync = false ∧
      ((w.hub .set).candidates.lookup (cl.db, sc.key)).any
        (·.setTtl == sc.getTtlForSetCommand) = true ∧
      ((w.hub .set).job.key ≠ none ∨ (w.hub .set).job.returnKey ≠ none) := by
  unfold World.KeepsOut
  rw [refuses_iff hcheck]
  simp [henabled]

/-- A rejected command writes nothing exactly when it is kept out of the backend. -/
theorem rejected_writes_nothing_iff (hrejected : sc.wellFormed = false)
    (hstep : w.processData c (.setlike sc) pick = .ok w') :
    WritesNothing w w' c sc <-> w.KeepsOut (w.clients c) sc := by
  rcases processData_cases hstep with ⟨st, hbypass, hw'⟩ | ⟨st, a, ch, hadmitted⟩
  · rcases serveData_rejected (w.setStore st) c hrejected with ⟨msg, hserved⟩
    rw [hw', hserved]
    rcases hbypass with ⟨hdisabled, hst⟩ | ⟨_, hcheck⟩
    · exact iff_of_true ⟨⟨msg, rfl⟩, rfl, fun _ _ => rfl, fun _ => rfl, Or.inl hst⟩
        (Or.inl hdisabled)
    · exact iff_of_true ⟨⟨msg, rfl⟩, rfl, fun _ _ => rfl, fun _ => rfl, checked_store hcheck⟩
        (Or.inr (Or.inl ((refuses_iff hcheck).mpr rfl)))
  rcases hadmitted with ⟨hsync, hadmits, hw'⟩ | ⟨hasync, hadmits, hw'⟩
  · rw [keepsOut_admitted_iff hadmits.enabled hadmits.check, hw']
    cases admitted_set hadmits.check
    have hsync' : w.cfg.redisooSetSync = true := hsync
    rw [hsync']
    refine iff_of_false ?_ (by simp)
    intro h
    rcases h.error with ⟨msg, hreply⟩
    cases hreply
  · rw [keepsOut_admitted_iff hadmits.enabled hadmits.check]
    cases admitted_set hadmits.check
    rcases enqueue_spec hadmits.enqueue with ⟨info, hjoins, hcreate⟩
    rcases serveData_rejected ((w.setStore st).admitted (w.clients c).db _ ch) c hrejected
      with ⟨msg, hserved⟩
    rcases World.admitted_frame (w.setStore st) (w.clients c).db
      ⟨.set, sc.key, sc.getValueFromSetCommand, sc.getTtlForSetCommand⟩ ch with ⟨tr, hframe⟩
    have hhub : w'.hub = Function.update w.hub .set ch := by
      rw [hw', hserved, hframe]
      rfl
    have hset : w'.hub .set = ch := by rw [hhub, Function.update_self]
    have hsilent := joins_silently_iff hjoins hcreate
    rw [← hset] at hsilent
    constructor
    · intro h
      exact ⟨hasync, hsilent.mp ⟨h.entries .set, h.jobs .set⟩⟩
    · intro h
      rcases hsilent.mpr h.right with ⟨hentries, hjobs⟩
      have hchannels : forall m,
          (forall dk, (w'.hub m).candidates.lookup dk = (w.hub m).candidates.lookup dk) ∧
            (w'.hub m).job = (w.hub m).job := by
        intro m
        by_cases hm : m = .set
        · subst hm
          exact ⟨hentries, hjobs⟩
        · rw [hhub, Function.update_of_ne hm]
          exact ⟨fun _ => rfl, rfl⟩
      constructor
      · rw [hw', hserved]
        exact ⟨msg, rfl⟩
      · rw [hw', hserved, hframe]
        rfl
      · exact fun m => (hchannels m).left
      · exact fun m => (hchannels m).right
      · rw [hw', hserved, hframe]
        exact checked_store hadmits.check

/-!
# What a run writes
-/

def AskedFor (tr : List (Observation n)) (k v : Sds) (ttl : Int) : Prop :=
  exists c sc held, Observation.arrive c (.data (.setlike sc)) held ∈ tr ∧
    sc.wellFormed = true ∧ sc.key = k ∧ sc.getValueFromSetCommand = v ∧
    sc.getTtlForSetCommand = ttl

structure Channel.AskedFor (tr : List (Observation n)) (ch : Channel n) : Prop where
  entry : forall dk info, ch.candidates.lookup dk = some info ->
    Redisoo.AskedFor tr dk.2 info.setValue info.setTtl
  job : forall key v, ch.job.key = some key -> ch.job.val = some v ->
    Redisoo.AskedFor tr key.bytes v ch.job.setTtl

variable {tr obs : List (Observation n)}

theorem askedFor_append (h : ch.AskedFor tr) : ch.AskedFor (obs ++ tr) := by
  constructor
  · intro dk info hlookup
    rcases h.entry dk info hlookup with ⟨c, sc, held, hmem, hsc⟩
    exact ⟨c, sc, held, List.mem_append_right obs hmem, hsc⟩
  · intro key v hkey hval
    rcases h.job key v hkey hval with ⟨c, sc, held, hmem, hsc⟩
    exact ⟨c, sc, held, List.mem_append_right obs hmem, hsc⟩

theorem Creates.askedFor {check : Bool} (hcreate : Creates .set check ch ch')
    (h : ch.AskedFor tr) : ch'.AskedFor tr := by
  cases hcreate with
  | busy _ _ | empty _ _ => exact h
  | job d k info _ _ hlookup =>
    refine ⟨h.entry, ?_⟩
    intro key v hkey hval
    cases hkey
    cases hval
    exact h.entry (d, k) info hlookup

theorem askedFor_release (victims : List ClientId) (h : ch.AskedFor tr) :
    (victims.foldr releaseWhenFreeClient ch).AskedFor tr := by
  induction victims with
  | nil => exact h
  | cons c victims ih =>
    refine ⟨?_, ih.job⟩
    intro dk info hlookup
    rw [List.foldr_cons, lookup_release] at hlookup
    rcases Option.map_eq_some_iff.mp hlookup with ⟨old, hold, hinfo⟩
    rw [← hinfo]
    exact ih.entry dk old hold

theorem askedFor_of_slot (h : ch.AskedFor tr) (hcand : ch'.candidates = ch.candidates)
    (hkey : ch'.job.key = ch.job.key) (hval : ch'.job.val = ch.job.val)
    (httl : ch'.job.setTtl = ch.job.setTtl) : ch'.AskedFor tr := by
  constructor
  · rw [hcand]
    exact h.entry
  · rw [hkey, hval, httl]
    exact h.job

theorem askedFor_erase (dk : Fin n × Sds) (h : ch.AskedFor tr) :
    { ch with candidates := ch.candidates.erase dk }.AskedFor tr := by
  refine ⟨?_, h.job⟩
  intro dk' info hlookup
  by_cases hdk : dk' = dk
  · rw [hdk, AList.lookup_erase] at hlookup
    cases hlookup
  · rw [AList.lookup_erase_ne hdk] at hlookup
    exact h.entry dk' info hlookup

theorem askedFor_entered {a : World.Admission} {waiter : Option ClientId}
    (hadmits : Admits w cl (.setlike sc) st a waiter pick ch)
    (hkept : sc.wellFormed = false -> w.KeepsOut cl sc) {held : Option Sds}
    (harrive : .arrive c (.data (.setlike sc)) held ∈ tr) (h : (w.hub .set).AskedFor tr) :
    ch.AskedFor tr := by
  cases admitted_set hadmits.check
  rcases enqueue_spec hadmits.enqueue with ⟨info, hjoins, hcreate⟩
  refine hcreate.askedFor ⟨?_, h.job⟩
  intro dk info' hlookup
  change ((w.hub .set).candidates.insert (cl.db, sc.key) info).lookup dk = some info' at hlookup
  by_cases hdk : dk = (cl.db, sc.key)
  · rw [hdk, AList.lookup_insert] at hlookup
    cases hlookup
    rw [hdk]
    have hvalue := hjoins.setValue_new
    have httl : info.setTtl = sc.getTtlForSetCommand := by
      generalize (w.hub .set).candidates.lookup (cl.db, sc.key) = old at hjoins
      cases hjoins with
      | new => rfl
      | old _ _ => rfl
    cases hformed : sc.wellFormed with
    | true => exact ⟨c, sc, held, harrive, hformed, rfl, hvalue.symm, httl.symm⟩
    | false =>
      -- the pending write has the same value and the same TTL
      rcases hkept hformed with hdisabled | hrefuses | ⟨_, hany, _⟩
      · exact absurd hdisabled hadmits.enabled
      · cases (refuses_iff hadmits.check).mp hrefuses
      cases hold : (w.hub .set).candidates.lookup (cl.db, sc.key) with
      | none =>
        rw [hold] at hany
        cases hany
      | some old =>
        rw [hold] at hany hjoins
        have hasked := h.entry (cl.db, sc.key) old hold
        rw [hjoins.setValue_old, httl, ← eq_of_beq hany]
        exact hasked
  · rw [AList.lookup_insert_ne hdk] at hlookup
    exact h.entry dk info' hlookup

def upcomingSet (l : Label n) (w : World n) : Option (ClientId × SetCommand) :=
  match w.upcoming l with
  | some (c, .simple (.data (.setlike sc))) => some (c, sc)
  | _ => none

/-- Handlers run to completion, and a rejected command that is taken up outside a
transaction is kept out of the backend. -/
def KeepsRejectedOut (l : Label n) (w : World n) : Prop :=
  RunsToCompletion .set l w ∧ forall next, next ∈ upcomingSet l w ->
    next.2.wellFormed = true ∨ (w.clients next.1).multi ≠ none ∨
      w.KeepsOut (w.clients next.1) next.2

instance (l : Label n) (w : World n) : Decidable (KeepsRejectedOut l w) :=
  inferInstanceAs (Decidable (_ ∧ _))

theorem KeepsRejectedOut.kept {more : List (Command n)} {rest : List (Frame n)} {deny : Bool}
    (h : KeepsRejectedOut (.main pick deny) w) (htakes : Takes w c (.data (.setlike sc)) more rest)
    (hmulti : (w.clients c).multi = none) (hrejected : sc.wellFormed = false) :
    (w.received c (.data (.setlike sc)) more).KeepsOut
      ((w.received c (.data (.setlike sc)) more).clients c) sc := by
  have hnext : upcomingSet (.main pick deny) w = some (c, sc) := by
    unfold upcomingSet
    rw [htakes.upcoming pick deny]
    rfl
  rw [received_client]
  rcases h.right (c, sc) hnext with hformed | hin | hkept
  · rw [hrejected] at hformed
    cases hformed
  · exact absurd hmulti hin
  · exact hkept

theorem arrive_mem_entered (w : World n) (c : ClientId) (dc : DataCommand n)
    (more : List (Command n)) (st : Store n) (a : World.Admission) (ch : Channel n) :
    .arrive c (.data dc) (w.heldBy (w.clients c) (.data dc)) ∈
      (w.entered c dc more st a ch).trace := by
  rw [entered_trace]
  split
  · exact List.mem_cons_of_mem _ List.mem_cons_self
  · exact List.mem_cons_self

theorem move_suffix (hmove : Move l w w') : exists obs, w'.trace = obs ++ w.trace := by
  rcases move_record hmove with ⟨obs, htrace, _⟩ | ⟨_, _, _, _, _, _, htrace, _⟩
  · exact ⟨obs, htrace⟩
  · exact ⟨[_, _], htrace⟩

theorem move_askedFor (hmove : Move l w w') (hcond : KeepsRejectedOut l w)
    (h : (w.hub .set).AskedFor w.trace) : (w'.hub .set).AskedFor w'.trace := by
  rcases move_suffix hmove with ⟨obs, htrace⟩
  have hlate : (w.hub .set).AskedFor w'.trace := by
    rw [htrace]
    exact askedFor_append h
  have hchannel : forall (m : Mode) (ch : Channel n),
      (m = .set -> ch.AskedFor w'.trace) ->
      (Function.update w.hub m ch .set).AskedFor w'.trace := by
    intro m ch hch
    by_cases hm : m = .set
    · subst hm
      rw [Function.update_self]
      exact hch rfl
    · rw [Function.update_of_ne (Ne.symm hm)]
      exact hlate
  cases hmove with
  | @control _ _ _ w1 c cmd more _ r _ _ heffect =>
    rcases (effect_hubs heffect).right with ⟨freed, hhub⟩
    rw [log_hub, hhub]
    exact askedFor_release freed hlate
  | free t _ _ =>
    rcases freeClient_hubs w t with ⟨freed, hhub⟩
    rw [hhub]
    exact askedFor_release freed hlate
  | @suspend _ _ _ c dc more _ st a ch htakes hmulti hsync hadmits
  | @async _ _ _ c dc more _ st a ch htakes hmulti hsync hadmits =>
    change ((w.entered c dc more st a ch).hub .set).AskedFor _
    rw [entered_hub]
    refine hchannel a.mode ch ?_
    intro hm
    rcases checkCommand_set hadmits.check hm with ⟨sc, hdc, _⟩
    subst hdc
    exact askedFor_entered hadmits (hcond.kept htakes hmulti)
      (List.mem_cons_of_mem _ (arrive_mem_entered w c _ more st a ch)) hlate
  | resume _ hresume =>
    rcases resume_frame hresume with ⟨cmd, _, _, _, hw1⟩
    subst hw1
    exact hlate
  | @scriptCall _ _ _ c cmd _ _ _ _ =>
    rw [callFromScript_frame] at hlate ⊢
    exact hlate
  | @finish _ _ _ m _ _ _ _ ch _ hclear =>
    refine hchannel m ch ?_
    intro hm
    subst hm
    refine (clearJob_spec hclear).askedFor ⟨hlate.entry, ?_⟩
    intro key v hkey
    cases hkey
  | @drain _ _ _ m _ _ _ | execute m _ _ _ _ _ _ _ _ | signal m _ _ =>
    refine hchannel m _ ?_
    intro hm
    subst hm
    exact askedFor_of_slot hlate rfl rfl rfl rfl
  | handler m f st ch clients _ _ _ _ htake =>
    refine hchannel m ch ?_
    intro hm
    subst hm
    rcases takeWaiters_spec htake with ⟨info, _, _, hch⟩
    subst hch
    exact askedFor_erase _ hlate
  | take m ok ch _ htake =>
    refine hchannel m ch ?_
    intro hm
    subst hm
    rcases getJobInWorkingThread_spec htake with hch | ⟨_, _, _, _, _, hch⟩
    · rw [hch]
      exact hlate
    · rw [hch]
      exact askedFor_of_slot hlate rfl rfl rfl rfl
  | post m ok d key val result ch _ hpost =>
    refine hchannel m ch ?_
    intro hm
    subst hm
    rw [(postResult_spec hpost).right.right]
    exact askedFor_of_slot hlate rfl rfl rfl rfl
  | timeout =>
    rw [timeoutStep_frame] at hlate ⊢
    exact hlate
  | _ => exact hlate

theorem work_writes {ok : Bool} (hmove : Move (.work .set ok) w w') (hsound : w.Sound .set)
    (h : (w.hub .set).AskedFor tr) :
    w'.backend = w.backend ∨ exists k v ttl, AskedFor tr k v ttl ∧
      w'.backend = Function.update w.backend k (some v) := by
  cases hmove with
  | execute _ _ d key backend val result hworker himpl =>
    have hkey := (hsound.channel.working (j := (d, key)) (Or.inl (by rw [hworker]; rfl))).2.1
    unfold implementJobByBackend at himpl
    cases hval : (w.hub .set).job.val with
    | none =>
      rw [hval] at himpl
      cases himpl
    | some v =>
      rw [hval] at himpl
      cases ok with
      | true =>
        cases himpl
        exact Or.inr ⟨key.bytes, v, _, h.job key v hkey hval, rfl⟩
      | false =>
        cases himpl
        exact Or.inl rfl
  | _ => exact Or.inl rfl

theorem pipe_installs (hmove : Move (.external (.pipe .set)) w w')
    (h : (w.hub .set).AskedFor tr) :
    w'.store = w.store ∨ exists f v, f.val = some v ∧ AskedFor tr f.key.bytes v f.setTtl ∧
      w.installValue .set f = .ok w'.store := by
  cases hmove with
  | idle => exact Or.inl rfl
  | handler _ f st ch clients _ _ hread hinstall _ =>
    rcases readFinished_spec hread with ⟨_, hkey, _, hval, _, httl⟩
    cases hv : f.val with
    | none =>
      left
      simp only [installValue, hv] at hinstall
      split at hinstall
      · cases hinstall
      · cases hinstall
        rfl
    | some v =>
      refine Or.inr ⟨f, v, hv, ?_, hinstall⟩
      rw [httl]
      exact h.job f.key v hkey (hval.symm.trans hv)

structure Accepted (w : World n) : Prop where
  sound : w.Sound .set
  asked : (w.hub .set).AskedFor w.trace

/-- In a run that keeps rejected SET commands out of the backend, every write of the
working thread and every value its result installs was asked for by a command Redis
accepts; and a rejected command, when it is processed, leaves nothing behind but its
error exactly when it is kept out. -/
theorem rejected_sets_write_nothing (cfg : Config) (backend : Sds -> Option Sds)
    (db : Fin n) (master : Option ClientId) (labels : List (Label n)) (w : World n)
    (hall : AllSteps World.step KeepsRejectedOut labels (World.start cfg backend db master))
    (hrun : runSteps World.step labels (World.start cfg backend db master) = .ok w) :
    (forall ok w', World.step (.work .set ok) w = .ok w' ->
        w'.backend = w.backend ∨ exists k v ttl, AskedFor w.trace k v ttl ∧
          w'.backend = Function.update w.backend k (some v)) ∧
      (forall w', World.step (.external (.pipe .set)) w = .ok w' ->
        w'.store = w.store ∨ exists f v, f.val = some v ∧
          AskedFor w.trace f.key.bytes v f.setTtl ∧ w.installValue .set f = .ok w'.store) ∧
      (forall c sc pick w', sc.wellFormed = false ->
        w.processData c (.setlike sc) pick = .ok w' ->
          (WritesNothing w w' c sc <-> w.KeepsOut (w.clients c) sc)) := by
  have haccepted : Accepted w := by
    refine runSteps_invariant (fun l w w' hI hcond hstep => ?_)
      ⟨sound_start cfg backend db master .set, ?_⟩ hall hrun
    · exact ⟨move_sound (step_move hstep) hcond.left hI.sound,
        move_askedFor (step_move hstep) hcond hI.asked⟩
    · constructor
      · intro dk info hlookup
        cases hlookup
      · intro key v hkey
        cases hkey
  refine ⟨?_, ?_, ?_⟩
  · intro ok w' hstep
    exact work_writes (step_move hstep) haccepted.sound haccepted.asked
  · intro w' hstep
    exact pipe_installs (step_move hstep) haccepted.asked
  · intro c sc pick w' hrejected hstep
    exact rejected_writes_nothing_iff hrejected hstep

/-- A client sets the key to "v"; while the write is pending another client sends
SET k w ?, which finds the other value pending and is answered with the error. -/
def refusedSetRun : List (Label 1) :=
  [.external (.recv 0 [.data (.setlike (.set [107] [118] []))]), .main 0 false, .main 0 false,
   .external (.recv 1 [.data (.setlike (.set [107] [119] [[63]]))]), .main 0 false, .main 0 false,
   .work .set true]

theorem rejected_sets_write_nothing_pending :
    exists w w' : World 1, runSteps World.step refusedSetRun
        (World.start Config.synchronous (fun _ => none) 0 none) = .ok w ∧
      World.step (.work .set true) w = .ok w' ∧ w'.backend [107] = some [118] ∧
      (w'.backend = w.backend ∨ exists k v ttl, AskedFor w.trace k v ttl ∧
        w'.backend = Function.update w.backend k (some v)) :=
  ⟨_, _, rfl, rfl, rfl, (rejected_sets_write_nothing Config.synchronous (fun _ => none) 0 none
    refusedSetRun _ (allSteps_of_check (by decide +kernel)) rfl).left true _ rfl⟩

/-- SET k v ? is written to the backend and the cache before it is answered with the
error. -/
theorem rejected_set_written :
    exists w, runSteps World.step
        (.external (.recv 0 [.data (.setlike (.set [107] [118] [[63]]))]) :: storedSetRun.tail)
        (World.start Config.synchronous (fun _ => none) 0 none) = .ok w ∧
      w.backend [107] = some [118] ∧ w.store.ks.dict 0 [107] = some (.embstr [118]) ∧
      w.trace.head? = some (.reply 0 (.data (.setlike (.set [107] [118] [[63]])))
        (.error "syntax error")) :=
  ⟨_, rfl, rfl, rfl, rfl⟩

end Redisoo
