import Mathlib.Tactic.IntervalCases
import Redisoo.Consistency.Writers

/-!
# Filling a miss

The completion of a GET installs what the backend returned, whatever the key has
become since the command was suspended.  This module says exactly when that
leaves a key written in the meantime as it is.
-/

namespace Redisoo

open Foundation Store

variable {n : Nat}

/-!
# A write between a miss and its completion
-/

def After (s : World n) (labels : List (Label n)) (t : Nat) (P : World n -> Prop) : Prop :=
  exists w, runSteps World.step (labels.take t) s = .ok w ∧ P w

def World.acknowledgedWrite (w : World n) : Bool :=
  match w.trace.head? with
  | some (.reply _ _ (.error _)) => false
  | some (.reply _ cmd _) => cmd.isWrite
  | _ => false

/-- During the run a GET of the key became a candidate and has stayed one, and a
later write command created the key and was acknowledged. -/
structure NewerWrite (s : World n) (labels : List (Label n)) (d : Fin n)
    (k : Sds) (i j : Nat) : Prop where
  order : i < j ∧ j < labels.length
  missed : After s labels i fun w => (d, k) ∉ (w.hub .get).candidates
  pending : forall t, i < t -> t ≤ labels.length ->
    After s labels t fun w => (d, k) ∈ (w.hub .get).candidates
  absent : After s labels j fun w => w.store.ks.dict d k = none
  created : After s labels (j + 1) fun w =>
    w.store.ks.dict d k ≠ none ∧ w.acknowledgedWrite = true

structure CompletesGet (w w' : World n) (f : Finished n) : Prop where
  accepts : w.acceptsEvents = true
  byte : 0 < (w.hub .get).pipe
  finished : readFinished .get (w.hub .get) = .ok f
  step : World.step (.external (.pipe .get)) w = .ok w'

structure KeepsKey (w w' : World n) (d : Fin n) (k : Sds) : Prop where
  value : (w'.store.ks.dict d k).map Robj.value =
    (w.store.ks.dict d k).map Robj.value
  expiry : w'.store.ks.expires d k = w.store.ks.expires d k

/-- There is nothing to install, or what is installed is there already: the same
string, with the expire time the completion would give it. -/
def NothingToInstall (w : World n) (f : Finished n) : Prop :=
  match f.val with
  | none => True
  | some v =>
    (w.store.ks.dict f.dbid f.key.bytes).map Robj.value = some (.string v) ∧
      if 0 < w.cfg.redisooGetTtl then
        w.store.ks.expires f.dbid f.key.bytes =
          some (wrap64 (w.now + w.cfg.redisooGetTtl))
      else
        w.cfg.masterhost = true ∨
          Store.keyIsExpired w.env w.store.ks f.dbid f.key.bytes = false

/-!
# What the completion does to the key
-/

open World

theorem CompletesGet.store {w w' : World n} {f : Finished n}
    (h : CompletesGet w w' f) : w.installValue .get f = .ok w'.store := by
  have hstep := h.step
  simp only [World.step, h.accepts, if_true, World.externalStep, h.byte,
    pipeHandler, h.finished] at hstep
  split at hstep
  · cases hstep
  · rename_i st hinstall
    split at hstep
    · cases hstep
    · cases hstep
      exact hinstall

theorem expireIfNeeded_expires (e : Env) (st : Store n) (d : Fin n) (k : Sds) :
    (st.expireIfNeeded e d k).1.ks.expires d k =
      if keyIsExpired e st.ks d k = true ∧ e.masterhost = false then none
      else st.ks.expires d k := by
  unfold expireIfNeeded
  cases hexpired : keyIsExpired e st.ks d k with
  | false => simp
  | true =>
    cases hreplica : e.masterhost with
    | true => simp
    | false => simp [deleteAndPropagate, Keyspace.dbSyncDelete]

theorem expires_of_expired {e : Env} {ks : Keyspace n} {d : Fin n} {k : Sds}
    (h : keyIsExpired e ks d k = true) : ks.expires d k ≠ none := by
  intro hnone
  unfold keyIsExpired at h
  rw [hnone] at h
  cases h

theorem installValue_cell {w : World n} {f : Finished n} {st : Store n} {v : Sds}
    (hval : f.val = some v) (h : w.installValue .get f = .ok st) :
    st.ks.dict f.dbid f.key.bytes = some (createStringObject v) ∧
    st.ks.expires f.dbid f.key.bytes =
      if 0 < w.cfg.redisooGetTtl then some (wrap64 (w.now + w.cfg.redisooGetTtl))
      else (w.store.expireIfNeeded w.env f.dbid f.key.bytes).1.ks.expires f.dbid f.key.bytes := by
  simp only [installValue, hval] at h
  injection h with h
  rw [← h]
  by_cases httl : 0 < w.cfg.redisooGetTtl
  · simp only [if_pos httl]
    exact ⟨by rw [setExpire_dict, genericSetKey_dict, updateAt_same], updateAt_same _ _ _ _⟩
  · simp only [if_neg httl]
    exact ⟨by rw [genericSetKey_dict, updateAt_same], rfl⟩

/-- The completion of a GET leaves its key as it is exactly when it has nothing to
install, whoever has written the key since the miss. -/
theorem miss_fill_keeps_key_iff {w w' : World n} {f : Finished n}
    (h : CompletesGet w w' f) :
    KeepsKey w w' f.dbid f.key.bytes <-> NothingToInstall w f := by
  have hstore := h.store
  unfold NothingToInstall
  cases hval : f.val with
  | none =>
    simp only [installValue, hval] at hstore
    injection hstore with hstore
    constructor
    · intro _
      trivial
    · intro _
      exact ⟨by rw [← hstore], by rw [← hstore]⟩
  | some v =>
    have hvalue : (w'.store.ks.dict f.dbid f.key.bytes).map Robj.value = some (.string v) := by
      rw [(installValue_cell hval hstore).left]
      exact congrArg some (value_createStringObject v)
    have hexpires := (installValue_cell hval hstore).right
    by_cases httl : 0 < w.cfg.redisooGetTtl
    · rw [if_pos httl] at hexpires
      dsimp only
      rw [if_pos httl]
      constructor
      · intro hkeeps
        exact ⟨hkeeps.value.symm.trans hvalue, hkeeps.expiry.symm.trans hexpires⟩
      · intro hsame
        exact ⟨hvalue.trans hsame.left.symm, hexpires.trans hsame.right.symm⟩
    · rw [if_neg httl, expireIfNeeded_expires] at hexpires
      dsimp only
      rw [if_neg httl]
      constructor
      · intro hkeeps
        refine ⟨hkeeps.value.symm.trans hvalue, ?_⟩
        by_contra hneither
        have hexpired : keyIsExpired w.env w.store.ks f.dbid f.key.bytes = true := by
          simpa using fun hfalse => hneither (Or.inr hfalse)
        have hmaster : w.env.masterhost = false := by
          simpa [env] using fun htrue => hneither (Or.inl htrue)
        rw [if_pos ⟨hexpired, hmaster⟩] at hexpires
        exact expires_of_expired hexpired (hkeeps.expiry.symm.trans hexpires)
      · intro hsame
        refine ⟨hvalue.trans hsame.left.symm, ?_⟩
        rw [hexpires, if_neg]
        rintro ⟨hexpired, hmaster⟩
        rcases hsame.right with htrue | hfalse
        · change w.cfg.masterhost = false at hmaster
          rw [htrue] at hmaster
          cases hmaster
        · rw [hexpired] at hfalse
          cases hfalse

def lpushCommand (k v : Sds) : Ordinary n where
  keys := [k]
  write := true
  effect := fun d ks =>
    match (ks.dict d k).map Robj.value with
    | none => ks.dbSet d k (.aggregate .list [v])
    | some (.aggregate .list elems) => ks.dbSet d k (.aggregate .list (v :: elems))
    | some _ => ks
  reply := fun d ks =>
    match (ks.dict d k).map Robj.value with
    | none => .integer 1
    | some (.aggregate .list elems) => .integer (elems.length + 1)
    | some _ =>
      .error "WRONGTYPE Operation against a key holding the wrong kind of value"
  dirty := fun d ks =>
    match (ks.dict d k).map Robj.value with
    | none => 1
    | some (.aggregate .list _) => 1
    | some _ => 0
  clean := by
    intro d ks hdirty
    split at hdirty
    · cases hdirty
    · cases hdirty
    · exact Keyspace.sameValues_refl ks
  respects := by
    intro d ks ks' h
    rw [h d k]
    split
    · exact Keyspace.dbSet_sameValues h d k rfl
    · exact Keyspace.dbSet_sameValues h d k rfl
    · exact h

def pushWhilePendingRun : List (Label 1) :=
  [.external (.recv 0 [.data (.get [107])]), .main 0 false, .main 0 false,
   .external (.recv 1 [.data (.ordinary (lpushCommand [107] [120]))]),
   .main 0 false, .main 0 false,
   .work .get true, .work .get true, .work .get true, .work .get true]

instance (s : World n) (labels : List (Label n)) (t : Nat) (P : World n -> Prop)
    [DecidablePred P] : Decidable (After s labels t P) :=
  decidable_of_iff (reaches World.step (fun w => decide (P w)) (labels.take t) s =
    true) exists_run_iff_reaches.symm

theorem miss_fill_keeps_key_iff_absent :
    exists w w' f, runSteps World.step pushWhilePendingRun
        (World.start Config.synchronous (fun _ => none) 0 none) = .ok w ∧
      CompletesGet w w' f ∧ KeepsKey w w' 0 [107] := by
  have hcompletes : exists w w' f, runSteps step pushWhilePendingRun
        (start Config.synchronous (fun _ => none) 0 none) = .ok w ∧
      CompletesGet w w' f ∧ f.dbid = 0 ∧ f.key.bytes = [107] ∧ f.val = none := by
    refine ⟨_, _, _, rfl, ⟨rfl, ?_, rfl, rfl⟩, rfl, rfl, rfl⟩
    decide +kernel
  rcases hcompletes with ⟨w, w', f, hrun, hcompletes, hdbid, hkey, hval⟩
  refine ⟨w, w', f, hrun, hcompletes, ?_⟩
  rw [← hdbid, ← hkey]
  apply (miss_fill_keeps_key_iff hcompletes).mpr
  simp [NothingToInstall, hval]

/-- The backend has a value: the acknowledged list becomes a string. -/
theorem miss_fill_clobbers_list :
    NewerWrite (World.start Config.synchronous (fun _ => some [118]) 0 none)
        pushWhilePendingRun 0 [107] 1 4 ∧
      exists w w' f, runSteps World.step pushWhilePendingRun
          (World.start Config.synchronous (fun _ => some [118]) 0 none) = .ok w ∧
        CompletesGet w w' f ∧ f.dbid = 0 ∧ f.key.bytes = [107] ∧
        w.store.ks.dict 0 [107] = some (.aggregate .list [[120]]) ∧
        w'.store.ks.dict 0 [107] = some (.embstr [118]) := by
  constructor
  · constructor
    · decide
    · decide +kernel
    · intro t hi ht
      change t ≤ 10 at ht
      interval_cases t <;> decide +kernel
    · decide +kernel
    · decide +kernel
  · refine ⟨_, _, _, rfl, ⟨rfl, ?_, rfl, rfl⟩, rfl, rfl, rfl, rfl⟩
    decide +kernel

end Redisoo
