import Redisoo.Foundation.Run
import Redisoo.Server.Channels

/-!
# The option that names the database

`config.c` maps the string option `redisoo_db` to a type code and `backend.c`
tests the code.  The documented way to switch the cache-through path off is the
empty string.  This module models the option and its effect on whole runs, in
which the options may change between any two steps.
-/

namespace Redisoo

open Foundation World Channel

variable {n : Nat}

/-!
# From the option to the gate
-/

inductive DatabaseType where
  | mysql
  | postegreSql
  | oracle
  | odbc
  | db2
  | sqlLite
  | firebird
  | empty
  | grpc
  deriving DecidableEq

def databaseNames : List (Sds × DatabaseType) :=
  [([103, 114, 112, 99], .grpc),
   ([109, 121, 115, 113, 108], .mysql),
   ([112, 111, 115, 116, 101, 103, 114, 101, 115, 113, 108], .postegreSql),
   ([112, 111, 115, 116, 101, 103, 114, 101], .postegreSql),
   ([111, 100, 98, 99], .odbc),
   ([111, 114, 97, 99, 108, 101], .oracle),
   ([100, 98, 50], .db2),
   ([115, 113, 108, 108, 105, 116, 101], .sqlLite),
   ([102, 105, 114, 101, 98, 105, 114, 100], .firebird),
   ([], .empty)]

/-- `parseDbType`, which looks at the first 15 characters; `none` stands for its
result 0. -/
def parseDbType (val : Sds) : Option DatabaseType :=
  databaseNames.lookup (((val.takeWhile (· != 0)).take 15).map tolower)

/-- The type code as the gate of `checkNeedToBackendState` tells them apart: it
compares with 0, and later checks with `GRPC`. -/
def gateType : Option DatabaseType -> DbType
  | none => .disabled
  | some .grpc => .grpc
  | some _ => .sql

/-- The options the cache-through path reads, as strings where they are strings,
and the replication settings. -/
structure Options where
  redisooDb : Sds
  redisooGet : Sds
  redisooSet : Sds
  redisooDel : Sds
  redisooGetSync : Bool
  redisooSetSync : Bool
  redisooDelSync : Bool
  redisooGetTtl : Int
  masterhost : Bool
  replSlaveRo : Bool

def statementGiven (s : Sds) : Bool :=
  byteAt s 0 != 0

def Options.config (o : Options) : Config where
  redisooDbType := gateType (parseDbType o.redisooDb)
  redisooGet := statementGiven o.redisooGet
  redisooSet := statementGiven o.redisooSet
  redisooDel := statementGiven o.redisooDel
  redisooGetSync := o.redisooGetSync
  redisooSetSync := o.redisooSetSync
  redisooDelSync := o.redisooDelSync
  redisooGetTtl := o.redisooGetTtl
  masterhost := o.masterhost
  replSlaveRo := o.replSlaveRo

def Options.NoDatabase (o : Options) : Prop :=
  o.redisooDb = []

structure Options.NoStatement (o : Options) : Prop where
  get : statementGiven o.redisooGet = false
  set : statementGiven o.redisooSet = false
  del : statementGiven o.redisooDel = false

/-!
# Runs in which the options change
-/

@[simps] def World.configured (w : World n) (o : Options) : World n :=
  { w with cfg := o.config }

def configuredStep (x : Options × Label n) (w : World n) : Except Crash (World n) :=
  World.step x.2 (w.configured x.1)

/-- The server is plain Redis: nobody is suspended, there are no candidates and
no jobs, and whatever data command comes next is given to `call()` directly. -/
structure PlainRedis (o : Options) (w : World n) : Prop where
  normal : forall c, (w.clients c).backendState = none
  candidates : forall m, (w.hub m).candidates = ∅
  job : forall m, (w.hub m).job = Job.zero
  direct : forall c cmd pick,
    (w.configured o).processData c cmd pick =
      .ok ((w.configured o).serveData c cmd)

structure Dormant (w : World n) : Prop where
  normal : forall c, (w.clients c).backendState = none
  hub : forall m, w.hub m = Channel.init

open Options

variable {w w' : World n} {o : Options} (c : ClientId)

theorem Dormant.configured (h : Dormant w) (o : Options) : Dormant (w.configured o) :=
  ⟨h.normal, h.hub⟩

section

variable (h : Dormant w)
include h

theorem Dormant.setClient (cl : Client n) (hstate : cl.backendState = none) :
    Dormant (w.setClient c cl) := by
  constructor
  · intro x
    by_cases hx : x = c
    · subst hx
      simpa using hstate
    · simpa [hx] using h.normal x
  · exact h.hub

theorem Dormant.setChannel {m : Mode} {ch : Channel n} (hch : ch = init) :
    Dormant (w.setChannel m ch) := by
  constructor
  · exact h.normal
  intro m'
  by_cases hm : m' = m
  · subst hm
    simpa using hch
  · simpa [hm] using h.hub m'

theorem Dormant.freeClient : Dormant (w.freeClient c) := by
  unfold World.freeClient
  dsimp only
  split
  · exact h.setClient c _ (h.normal c)
  split
  · have hset := h.setClient c
      ({ (w.clients c).discardTransaction with
        status := .cached, querybuf := [], cmd := none, closing := false })
      (h.normal c)
    exact ⟨hset.normal, hset.hub⟩
  · have hhub : Dormant { w with hub := fun m => releaseWhenFreeClient c (w.hub m) } := by
      constructor
      · exact h.normal
      intro m
      change releaseWhenFreeClient c (w.hub m) = init
      rw [h.hub m]
      rfl
    have hset := hhub.setClient c ({ w.clients c with status := .freed }) (h.normal c)
    exact ⟨hset.normal, hset.hub⟩

theorem Dormant.effect {c : ClientId} {victims : List ClientId} (heffect : Effect c victims w w') :
    Dormant w' := by
  induction heffect with
  | refl => exact h
  | call cmd caller d flags _ ih => exact ⟨ih.normal, ih.hub⟩
  | session cl _ hsame ih =>
    exact ih.setClient c cl (hsame.backendState.trans (ih.normal c))
  | free t _ _ _ _ ih => exact ih.freeClient t

theorem Dormant.received (cmd : Command n) (more : List (Command n)) :
    Dormant (w.received c cmd more) := by
  have hset := h.setClient c ({ w.clients c with querybuf := more }) (h.normal c)
  exact ⟨hset.normal, hset.hub⟩

theorem Dormant.serveData (cmd : DataCommand n) : Dormant (w.serveData c cmd) := by
  constructor
  · intro x
    rw [serveData_clients]
    by_cases hx : x = c
    · subst hx
      simpa using h.normal x
    · simpa [hx] using h.normal x
  · exact h.hub

end

theorem checkCommand_off (hgrpc : w.cfg.redisooDbType ≠ .grpc) (hget : w.cfg.redisooGet = false)
    (hset : w.cfg.redisooSet = false) (hdel : w.cfg.redisooDel = false) (cl : Client n)
    (cmd : DataCommand n) : w.checkCommand cl cmd = .ok (w.store, none) := by
  cases cmd with
  | get k =>
    simp [checkCommand, checkGetCommandForBackendState, hgrpc, hget]
  | setlike sc =>
    simp [checkCommand, checkSetCommandForBackendState, hset]
  | del k more =>
    simp [checkCommand, checkDelCommandForBackendState, hdel]
  | ordinary o => rfl

theorem Options.NoStatement.checkCommand (hoff : o.NoStatement) (hdb : o.NoDatabase)
    (hcfg : w.cfg = o.config) (cl : Client n) (cmd : DataCommand n) :
    w.checkCommand cl cmd = .ok (w.store, none) := by
  apply checkCommand_off
  · rw [hcfg]
    change gateType (parseDbType o.redisooDb) ≠ .grpc
    rw [hdb]
    decide
  · rw [hcfg]
    exact hoff.get
  · rw [hcfg]
    exact hoff.set
  · rw [hcfg]
    exact hoff.del

theorem move_dormant (hdb : o.NoDatabase) (hoff : o.NoStatement) {l : Label n}
    (hcfg : w.cfg = o.config) (hmove : Move l w w') (h : Dormant w) : Dormant w' := by
  have hpipe : forall m, (w.hub m).pipe = 0 := fun m => by rw [h.hub m]; rfl
  have hworker : forall m, (w.hub m).worker = .polling := fun m => by
    rw [h.hub m]; rfl
  -- Every branch below that would need a candidate, a job or a byte in a pipe
  -- contradicts what the state still is.
  cases hmove with
  | idle => exact h
  | refuse cl r htakes hsame hservice hr =>
    rename_i c cmd more rest
    have hrecv := h.received c cmd more
    have hset := hrecv.setClient c cl (hsame.backendState.trans (hrecv.normal c))
    exact ⟨hset.normal, hset.hub⟩
  | control r _ _ heffect =>
    have heff := (h.received _ _ _).effect heffect
    exact ⟨heff.normal, heff.hub⟩
  | direct st htakes hmulti hbypass =>
    rename_i c dc more rest
    have hrecv := h.received c (.data dc) more
    apply Dormant.serveData
    exact ⟨hrecv.normal, hrecv.hub⟩
  | suspend st a ch _ _ _ hadmits | async st a ch _ _ _ hadmits =>
    have hcheck := hadmits.check
    rw [hoff.checkCommand hdb (by rw [received_cfg]; exact hcfg)] at hcheck
    cases hcheck
  | scriptStart htakes hlua =>
    rename_i c body more rest
    have hrecv := h.received c (.simple (.eval body)) more
    exact ⟨hrecv.normal, hrecv.hub⟩
  | scriptCall =>
    rename_i c cmd body more rest hstack
    rw [callFromScript_frame]
    exact ⟨h.normal, h.hub⟩
  | resume hstack hresume =>
    rename_i c more rest
    unfold resumeBackendClient at hresume
    dsimp only at hresume
    rw [if_pos (h.normal c)] at hresume
    split at hresume
    · cases hresume
    · cases hresume
  | finish ch hstack hclear =>
    rename_i m d k result rest
    rw [h.hub m] at hclear
    cases hclear
  | drain hstack hbyte =>
    rename_i m rest
    rw [hpipe m] at hbyte
    exact absurd hbyte (Nat.lt_irrefl 0)
  | recv c cmds =>
    have hset := h.setClient c
      ({ w.clients c with querybuf := (w.clients c).querybuf ++ cmds })
      (h.normal c)
    exact ⟨hset.normal, hset.hub⟩
  | handler m f st ch clients _ hbyte =>
    rw [hpipe m] at hbyte
    exact absurd hbyte (Nat.lt_irrefl 0)
  | free c => exact h.freeClient c
  | take m ok ch _ hjob =>
    apply h.setChannel
    rw [h.hub m] at hjob
    cases hjob
    rfl
  | execute m ok d key backend val result hrunning =>
    rw [hworker m] at hrunning
    cases hrunning
  | post m ok d key val result ch hexecuted =>
    rw [hworker m] at hexecuted
    cases hexecuted
  | signal m ok hsignalling =>
    rw [hworker m] at hsignalling
    cases hsignalling
  | timeout =>
    rw [timeoutStep_frame]
    exact ⟨h.normal, h.hub⟩
  | _ => exact ⟨h.normal, h.hub⟩

theorem Dormant.plainRedis (hdb : o.NoDatabase) (hoff : o.NoStatement) (h : Dormant w) :
    PlainRedis o w := by
  refine ⟨h.normal, ?_, ?_, ?_⟩
  · intro m
    rw [h.hub m]
    rfl
  · intro m
    rw [h.hub m]
    rfl
  · intro c cmd pick
    have hcheck := hoff.checkCommand hdb (w := w.configured o) rfl ((w.configured o).clients c) cmd
    unfold processData
    dsimp only
    rw [hcheck]
    split
    · rfl
    · rfl

/-!
# A configured statement
-/

theorem not_direct_of_admitted {c : ClientId} {cmd : DataCommand n} {st : Store n}
    {a : World.Admission} (henabled : w.cfg.redisooDbType ≠ .disabled)
    (hcheck : w.checkCommand (w.clients c) cmd = .ok (st, some a))
    (hempty : (w.hub a.mode).candidates = ∅) : w.processData c cmd 0 ≠ .ok (w.serveData c cmd) := by
  intro heq
  unfold processData at heq
  dsimp only at heq
  rw [if_neg henabled, hcheck] at heq
  dsimp only at heq
  split at heq
  · cases heq
  · rename_i ch henqueue
    rcases enqueue_spec henqueue with ⟨info, _, hcreates⟩
    have hch : ch.candidates.lookup ((w.clients c).db, a.key) = some info := by
      rw [hcreates.frame.left]
      exact AList.lookup_insert _
    have hhub : forall w' : World n, w'.hub a.mode = ch -> w' ≠ w.serveData c cmd := by
      intro w' hw' hserve
      rw [hserve, serveData_hub] at hw'
      rw [← hw', hempty] at hch
      cases hch
    rcases admitted_frame (w.setStore st) (w.clients c).db a ch with ⟨tr, htr⟩
    split at heq
    · injection heq with heq
      refine hhub _ ?_ heq
      rw [htr]
      simp [suspended]
    · injection heq with heq
      refine hhub _ ?_ heq
      rw [htr]
      simp

def storeCommand (k v : Sds) : Ordinary n where
  keys := []
  write := true
  effect := fun d ks => ks.dbSet d k (createStringObject v)
  reply := fun _ _ => .ok
  dirty := fun _ _ => 1
  clean := fun _ _ h => by cases h
  respects := fun d _ _ h => Keyspace.dbSet_sameValues h d k rfl

theorem storeCommand_run (hdb : o.NoDatabase) (cfg : Config) (backend : Sds -> Option Sds)
    (db : Fin n) :
    exists w, runSteps configuredStep
        [(o, .external (.recv 0 [.data (.ordinary (storeCommand [] []))])),
          (o, .main 0 false)] (start cfg backend db (some 0)) = .ok w ∧
      (w.store.ks.dict (w.clients 0).db []).isSome = true ∧
      w.hub .del = init := by
  have hstored : forall w : World n, (w.clients 0).db = db ->
      w.store.ks.dict = updateAt (fun _ _ => none) db [] (some (createStringObject [])) ->
      (w.store.ks.dict (w.clients 0).db []).isSome = true := by
    intro w hclient hdict
    rw [hdict, hclient, updateAt_same]
    rfl
  rcases o with ⟨name, get, set, del, gs, ss, ds, ttl, masterhost, ro⟩
  cases hdb
  cases masterhost with
  | false => exact ⟨_, rfl, hstored _ rfl rfl, rfl⟩
  | true =>
    cases ro with
    | false | true => exact ⟨_, rfl, hstored _ rfl rfl, rfl⟩

theorem checkCommand_get_on (hget : w.cfg.redisooGet = true) (hstore : w.store.ks = Keyspace.empty)
    (hhub : w.hub .get = init) (cl : Client n) (k : Sds) :
    w.checkCommand cl (.get k) =
      .ok (w.store, some { mode := .get, key := k, value := [], ttl := 0 }) := by
  have hmiss : w.store.lookupKeyRead w.env (cl.caller (.get k)) cl.db k = (w.store, none) := by
    simp [Store.lookupKeyRead, Store.expireIfNeeded, Store.keyIsExpired, hstore, Keyspace.empty]
  simp [checkCommand, checkGetCommandForBackendState, hget, hmiss, hhub, init, Job.zero]

theorem checkCommand_set_on (hset : w.cfg.redisooSet = true) (hstore : w.store.ks = Keyspace.empty)
    (hhub : w.hub .set = init) (cl : Client n) (k v : Sds) :
    w.checkCommand cl (.setlike (.set k v [])) =
      .ok (w.store, some { mode := .set, key := k, value := v, ttl := 0 }) := by
  have hmiss : w.lookupForSet cl (.set k v []) = (w.store, none) := by
    simp [lookupForSet, Store.lookupKeyRead, Store.expireIfNeeded,
      Store.keyIsExpired, hstore, Keyspace.empty]
  have hfree : w.isSameKeyWithDifferentValForSet cl (.set k v []) = false := by
    unfold isSameKeyWithDifferentValForSet
    rw [hhub]
    rfl
  have hadmitted : w.checkSetCommandForBackendState cl (.set k v []) = .ok (w.store, true) := by
    simp [checkSetCommandForBackendState, hset, hmiss, hfree,
      isSameValueInDbForSet, SetCommand.isSetnx]
  unfold checkCommand
  dsimp only
  rw [hadmitted]
  rfl

theorem checkCommand_del_on (hdel : w.cfg.redisooDel = true) (cl : Client n) (k : Sds)
    (hfound : (w.store.ks.dict cl.db k).isSome = true) :
    w.checkCommand cl (.del k []) =
      .ok (w.store, some { mode := .del, key := k, value := [], ttl := 0 }) := by
  simp [checkCommand, checkDelCommandForBackendState, hdel, hfound]

theorem not_plain_of_statement (hdb : o.NoDatabase) (hon : Not o.NoStatement) (cfg : Config)
    (backend : Sds -> Option Sds) (db : Fin n) :
    exists ls w, (forall x, x ∈ ls -> x.1 = o) ∧
      runSteps configuredStep ls (start cfg backend db (some 0)) = .ok w ∧
      Not (PlainRedis o w) := by
  have henabled : o.config.redisooDbType ≠ .disabled := by
    change gateType (parseDbType o.redisooDb) ≠ .disabled
    rw [hdb]
    decide
  by_cases hget : statementGiven o.redisooGet = true
  · refine ⟨[], _, fun x hx => absurd hx List.not_mem_nil, rfl, fun hplain => ?_⟩
    have hcheck := checkCommand_get_on
      (w := (start cfg backend db (some 0)).configured o) hget rfl rfl
      (Client.fresh db true) []
    exact not_direct_of_admitted henabled hcheck rfl (hplain.direct 0 (.get []) 0)
  by_cases hset : statementGiven o.redisooSet = true
  · refine ⟨[], _, fun x hx => absurd hx List.not_mem_nil, rfl, fun hplain => ?_⟩
    have hcheck := checkCommand_set_on
      (w := (start cfg backend db (some 0)).configured o) hset rfl rfl
      (Client.fresh db true) [] []
    exact not_direct_of_admitted henabled hcheck rfl (hplain.direct 0 (.setlike (.set [] [] [])) 0)
  · have hdel : statementGiven o.redisooDel = true := by
      by_contra hdel
      exact hon ⟨by simpa using hget, by simpa using hset, by simpa using hdel⟩
    rcases storeCommand_run hdb cfg backend db with ⟨w, hrun, hfound, hhub⟩
    refine ⟨_, w, ?_, hrun, fun hplain => ?_⟩
    · intro x hx
      simp only [List.mem_cons, List.not_mem_nil, or_false] at hx
      rcases hx with hx | hx
      · rw [hx]
      · rw [hx]
    · have hcheck := checkCommand_del_on (w := w.configured o) hdel (w.clients 0) [] hfound
      have hempty : ((w.configured o).hub .del).candidates = ∅ := by
        change (w.hub .del).candidates = ∅
        rw [hhub]
        rfl
      exact not_direct_of_admitted henabled hcheck hempty (hplain.direct 0 (.del [] []) 0)

/-!
# Switched off
-/

/-- Among options whose `redisoo_db` is the empty string, those under which every
run stays plain Redis are the ones that give no statement either. -/
theorem empty_database_plain_iff (allowed : Options -> Prop)
    (hdb : forall o, allowed o -> o.NoDatabase) (cfg : Config)
    (backend : Sds -> Option Sds) (db : Fin n) :
    (forall master ls w, (forall x, x ∈ ls -> allowed x.1) ->
      runSteps configuredStep ls (World.start cfg backend db master) = .ok w ->
      forall o, allowed o -> PlainRedis o w) <->
      forall o, allowed o -> o.NoStatement := by
  constructor
  · intro hplain o ho
    by_contra hon
    rcases not_plain_of_statement (hdb o ho) hon cfg backend db with ⟨ls, w, hls, hrun, hnot⟩
    refine hnot (hplain (some 0) ls w ?_ hrun o ho)
    intro x hx
    rw [hls x hx]
    exact ho
  · intro hoff master ls w hls hrun o ho
    have hall : AllSteps configuredStep (fun x _ => allowed x.1) ls
        (start cfg backend db master) := allSteps_of_mem hls
    have hdormant : Dormant w := by
      refine runSteps_invariant (I := Dormant) ?_ ⟨fun _ => rfl, fun _ => rfl⟩ hall hrun
      intro x w1 w2 h hx hstep
      exact move_dormant (hdb x.1 hx) (hoff x.1 hx) rfl (step_move hstep) (h.configured x.1)
    exact hdormant.plainRedis (hdb o ho) (hoff o ho)

def Options.default : Options where
  redisooDb := []
  redisooGet := []
  redisooSet := []
  redisooDel := []
  redisooGetSync := false
  redisooSetSync := false
  redisooDelSync := false
  redisooGetTtl := 0
  masterhost := false
  replSlaveRo := true

theorem default_options_plain :
    exists w : World 1, runSteps configuredStep
        [(Options.default, .external (.recv 0 [.data (.get [107])])),
          (Options.default, .main 0 false)]
        (World.start Options.default.config (fun _ => none) 0 none) = .ok w ∧
      PlainRedis Options.default w := by
  have hdb : forall o, o = default -> o.NoDatabase :=
    fun o ho => congrArg redisooDb ho
  have hoff : forall o, o = default -> o.NoStatement := by
    intro o ho
    rw [ho]
    exact ⟨by decide, by decide, by decide⟩
  have hplain := (empty_database_plain_iff (fun o => o = default) hdb
    default.config (fun _ => none) (0 : Fin 1)).mpr hoff none
  refine ⟨_, rfl, ?_⟩
  refine hplain
    [(default, .external (.recv 0 [.data (.get [107])])),
      (default, .main 0 false)] _ ?_ rfl default rfl
  intro x hx
  rw [List.mem_cons, List.mem_singleton] at hx
  rcases hx with rfl | rfl
  · rfl
  · rfl

def Options.getOnly : Options :=
  { Options.default with redisooGet := [120], redisooGetSync := true }

/-- A GET of a missing key is suspended although `redisoo_db` is empty. -/
theorem empty_database_suspends :
    Options.getOnly.NoDatabase ∧
      exists w : World 1, runSteps configuredStep
          [(Options.getOnly, .external (.recv 0 [.data (.get [107])])),
            (Options.getOnly, .main 0 false)]
          (World.start Options.getOnly.config (fun _ => none) 0 none) = .ok w ∧
        (w.clients 0).backendState = some .get ∧
        (0, [107]) ∈ (w.hub .get).candidates ∧ (w.hub .get).job ≠ Job.zero := by
  refine ⟨rfl, _, rfl, rfl, ?_, ?_⟩
  · decide
  · decide

end Redisoo
