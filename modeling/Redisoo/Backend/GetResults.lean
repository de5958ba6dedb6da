import Redisoo.Consistency.MissFill

/-!
# What the backend answers to a read

The two providers report a value by a pointer and a length.  The working thread asserts
that a pointer comes with a length, and the handler installs what it has found.
-/

namespace Redisoo

open Foundation Store

variable {n : Nat}

inductive SqlReply where
  | failed
  | null
  | value (s : Sds)

inductive ResponseStatus where
  | unknown
  | notFound
  | insert
  | replace
  | append
  deriving DecidableEq

structure GetStringResponse where
  status : ResponseStatus
  value : Sds
  ttlMs : UInt32

inductive BackendReply where
  | sql (r : SqlReply)
  | grpc (r : Option GetStringResponse)

def dbGet : SqlReply -> Option (Option Sds)
  | .failed => none
  | .null => some none
  | .value s => some (some s)

def grpcGet : Option GetStringResponse -> Option (Option Sds × Nat)
  | none => none
  | some r => some (some r.value, r.ttlMs.toNat)

def BackendReply.fetched : BackendReply -> Option Sds
  | .sql r => (dbGet r).join
  | .grpc r => ((grpcGet r).map Prod.fst).join

def implementGetJob (r : BackendReply) : Except Crash (Option Sds) :=
  match r.fetched with
  | none => .ok none
  | some s => if s.length = 0 then .error .emptyValueAssert else .ok (some s)

def BackendReply.reported : BackendReply -> Option Sds
  | .sql (.value s) => some s
  | .grpc (some r) => if r.status = .notFound then none else some r.value
  | _ => none

def Handled (w : World n) (cl : Client n) (d : Fin n) (key : KeyPtr) (r : BackendReply) : Prop :=
  exists val ch f st, implementGetJob r = .ok val ∧
    postResult .get key val true (w.hub .get) = .ok ch ∧ ch.job.returnKey = some key ∧
    readFinished .get ch = .ok f ∧ w.installValue .get f = .ok st ∧
    (getProc w.env (cl.caller (.get key.bytes)) st d cl.syncReply key.bytes).reply =
      r.reported.elim .null .bulk

def Stale (w : World n) (cl : Client n) (d : Fin n) (k : Sds) : Prop :=
  w.cfg.masterhost = true ∧ cl.master = false ∧
    Store.keyIsExpired w.env w.store.ks d k = true ∧ w.cfg.redisooGetTtl ≤ 0

theorem reported_of_fetched (r : BackendReply) : r.reported = none ∨ r.reported = r.fetched := by
  cases r with
  | sql r => cases r <;> simp [BackendReply.reported, BackendReply.fetched, dbGet]
  | grpc r =>
    cases r with
    | none => exact Or.inl rfl
    | some r =>
      unfold BackendReply.reported
      by_cases hstatus : r.status = .notFound
      · exact Or.inl (if_pos hstatus)
      · exact Or.inr (if_neg hstatus)

theorem getProc_null_iff (e : Env) (caller : Caller) (st : Store n) (d : Fin n)
    (flags : SyncReply) (k : Sds) :
    (getProc e caller st d flags k).reply = .null <-> (st.lookupKeyRead e caller d k).2 = none := by
  unfold getProc
  cases hfound : (st.lookupKeyRead e caller d k).2 with
  | none => simp [hfound]
  | some o => cases hdecoded : o.decoded <;> simp [hfound, hdecoded]

section Installed

variable {w : World n} {f : Finished n} {st : Store n} {v : Sds}
  (hval : f.val = some v) (h : w.installValue .get f = .ok st)
  (hnow : 0 ≤ w.now ∧ w.now < 2 ^ 63) (httl : w.cfg.redisooGetTtl < 2 ^ 63)

include hval h hnow httl

theorem installed_expired_iff : keyIsExpired w.env st.ks f.dbid f.key.bytes = true <->
      w.cfg.masterhost = true ∧ keyIsExpired w.env w.store.ks f.dbid f.key.bytes = true ∧
        w.cfg.redisooGetTtl ≤ 0 := by
  have hexpires := (installValue_cell hval h).right
  by_cases hpos : 0 < w.cfg.redisooGetTtl
  · -- the new expire time is in the future, or has wrapped below zero
    have hlater : wrap64 (w.now + w.cfg.redisooGetTtl) < 0 ∨
        w.now < wrap64 (w.now + w.cfg.redisooGetTtl) := by
      rw [wrap64, Int.bmod_def]
      split <;> omega
    rw [if_pos hpos] at hexpires
    simp only [keyIsExpired, hexpires, World.env]
    grind
  · rw [if_neg hpos, expireIfNeeded_expires] at hexpires
    simp only [keyIsExpired, hexpires, World.env]
    grind

theorem getProc_installed (cl : Client n) : let reply :=
      (getProc w.env (cl.caller (.get f.key.bytes)) st f.dbid cl.syncReply f.key.bytes).reply
    Stale w cl f.dbid f.key.bytes ∧ reply = .null ∨
      Not (Stale w cl f.dbid f.key.bytes) ∧ reply = .bulk v := by
  have hdict := (installValue_cell hval h).left
  have hexpired := installed_expired_iff hval h hnow httl
  have hstring : (createStringObject v).decoded = some v := by simp [Robj.decoded]
  unfold getProc lookupKeyRead expireIfNeeded Stale
  by_cases hold : keyIsExpired w.env st.ks f.dbid f.key.bytes = true
  · rcases hexpired.mp hold with ⟨hreplica, hbefore, hno⟩
    have henv : w.env.masterhost = true := hreplica
    cases hmaster : cl.master with
    | true => simp [hold, henv, Client.caller, hmaster, hdict, hstring]
    | false =>
      have hread : (DataCommand.get f.key.bytes : DataCommand n).isReadonly = true := rfl
      simp [hold, henv, Client.caller, hmaster, hread, hreplica, hbefore, hno]
  · have hfresh : Not (Stale w cl f.dbid f.key.bytes) :=
      fun hstale => hold (hexpired.mpr ⟨hstale.1, hstale.2.2⟩)
    exact Or.inr ⟨hfresh, by simp [hold, hdict, hstring]⟩

end Installed

def Polled (ch : Channel n) (d : Fin n) (key : KeyPtr) : Prop :=
  ch.job.dbid = some d ∧ ch.job.key = some key ∧ ch.job.returnKey = none

theorem Polled.post {ch : Channel n} {d : Fin n} {key : KeyPtr} (h : Polled ch d key)
    (val : Option Sds) : exists ch' f, postResult .get key val true ch = .ok ch' ∧
      ch'.job.returnKey = some key ∧ readFinished .get ch' = .ok f ∧
      f.dbid = d ∧ f.key = key ∧ f.val = val := by
  rcases h with ⟨hdb, hkey, hreturn⟩
  refine ⟨_, ⟨d, key, val, ch.job.syncResult, ch.job.setTtl⟩, if_pos ⟨hkey, hreturn⟩, rfl, ?_,
    rfl, rfl, rfl⟩
  simp [readFinished, Job.post, hdb, hkey]

/-- A read result is handled exactly when no empty string is fetched, a result without a value
meets no cached key, and a value that is fetched has been reported and is not stale. -/
theorem read_result_handled_iff (w : World n) (cl : Client n) (d : Fin n) (key : KeyPtr)
    (r : BackendReply) (hjob : Polled (w.hub .get) d key)
    (hnow : 0 ≤ w.now ∧ w.now < 2 ^ 63) (httl : w.cfg.redisooGetTtl < 2 ^ 63) :
    Handled w cl d key r <-> r.fetched ≠ some [] ∧
      (r.fetched = none ->
        (w.store.lookupKeyRead w.env (cl.caller (.get key.bytes)) d key.bytes).2 = none) ∧
      (r.fetched ≠ none -> (Stale w cl d key.bytes <-> r.reported = none)) := by
  rcases hjob.post r.fetched with ⟨ch, f, hpost, hreturn, hread, rfl, rfl, hval⟩
  have hreported := reported_of_fetched r
  cases hfetched : r.fetched with
  | none =>
    have hnone : r.reported = none := by
      rcases hreported with h | h
      · exact h
      · exact h.trans hfetched
    rw [hfetched] at hpost hval
    simp [Handled, implementGetJob, hfetched, hpost, hreturn, hread, hval, hnone,
      World.installValue, getProc_null_iff]
  | some s =>
    rw [hfetched] at hpost hval hreported
    by_cases hempty : s = []
    · simp [Handled, implementGetJob, hfetched, hempty]
    have hinstall : exists st, w.installValue .get f = .ok st := by
      simp [World.installValue, hval]
    rcases hinstall with ⟨st, hinstall⟩
    have hreply := getProc_installed hval hinstall hnow httl cl
    simp only [Handled, implementGetJob, hfetched, List.length_eq_zero_iff, hempty, if_false,
      Except.ok.injEq, exists_and_left, exists_eq_left', hpost, hreturn, hread, hinstall, true_and]
    rcases hreply with ⟨hstale, hreply⟩ | ⟨hfresh, hreply⟩
    · rcases hreported with h | h <;> simp [hreply, h, hstale, hempty]
    · rcases hreported with h | h <;> simp [hreply, h, hfresh, hempty]

def polledRun : List (Label 1) :=
  [.external (.recv 0 [.data (.get [107])]), .main 0 false, .main 0 false, .work .get true]

theorem read_result_handled_iff_value : exists w : World 1,
    runSteps World.step polledRun (World.start Config.synchronous (fun _ => none) 0 none) = .ok w ∧
      Handled w (Client.fresh 0 false) 0 ⟨0, [107]⟩ (.sql (.value [118])) :=
  ⟨_, rfl, (read_result_handled_iff _ (Client.fresh 0 false) 0 ⟨0, [107]⟩ (.sql (.value [118]))
    ⟨rfl, rfl, rfl⟩ ⟨by decide, by decide⟩ (by decide)).mpr
      ⟨by decide, nofun, fun _ => iff_of_false (fun h => Bool.false_ne_true h.1) nofun⟩⟩

/-- An empty string fails the assertion, and bytes marked as not found are returned. -/
theorem empty_and_not_found_mishandled :
    runSteps World.step (polledRun ++ [.work .get true])
        (World.start Config.synchronous (fun _ => some []) 0 none) = .error .emptyValueAssert ∧
    exists w : World 1,
      runSteps World.step polledRun
        (World.start Config.synchronous (fun _ => none) 0 none) = .ok w ∧
      Not (Handled w (Client.fresh 0 false) 0 ⟨0, [107]⟩ (.sql (.value []))) ∧
      Not (Handled w (Client.fresh 0 false) 0 ⟨0, [107]⟩ (.grpc (some ⟨.notFound, [118], 0⟩))) := by
  refine ⟨rfl, _, rfl, ?_, ?_⟩
  · rintro ⟨_, _, _, _, hjob, _⟩
    cases hjob
  rintro ⟨_, _, _, _, hjob, hpost, _, hread, hinstall, hreply⟩
  cases hjob
  cases hpost
  cases hread
  cases hinstall
  cases hreply

end Redisoo
