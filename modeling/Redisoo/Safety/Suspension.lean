import Redisoo.Safety.SlotProtocol

/-!
# Suspended clients

A suspended client stands in one waiting list, or in the copied list of one
running handler, and its state, database and command name that place.  The
invariant needs no condition on the run: handlers may nest and clients may be
freed at any time.
-/

namespace Redisoo

open Foundation List Function World AList Option

variable {n : Nat}

/-!
# Where a client can be
-/

def DataCommand.target : DataCommand n -> Option (Mode × Sds)
  | .get k => some (.get, k)
  | .setlike sc => some (.set, sc.key)
  | .del k _ => some (.del, k)
  | .ordinary _ => none

def Frame.copies : Frame n -> List ClientId
  | .clear _ _ _ _ clients => clients
  | _ => []

def copies (stack : List (Frame n)) : List ClientId :=
  stack.flatMap Frame.copies

def Waits (w : World n) (c : ClientId) (m : Mode) (dk : Fin n × Sds) : Prop :=
  exists info, (w.hub m).candidates.lookup dk = some info ∧ c ∈ info.clients

def Copied (stack : List (Frame n)) (c : ClientId) (m : Mode) (dk : Fin n × Sds) : Prop :=
  exists result clients, Frame.clear m dk.1 dk.2 result clients ∈ stack ∧
    c ∈ clients

structure Parked (cl : Client n) (m : Mode) (dk : Fin n × Sds) : Prop where
  state : cl.backendState = some m
  db : cl.db = dk.1
  cmd : cl.status = .connected ->
    exists dc, cl.cmd = some dc ∧ dc.target = some (m, dk.2)

structure Suspension (w : World n) : Prop where
  waits : forall c m dk, Waits w c m dk -> Parked (w.clients c) m dk
  alive : forall c m dk, Waits w c m dk -> (w.clients c).status ≠ .freed
  copied : forall c m dk, Copied w.stack c m dk -> Parked (w.clients c) m dk
  nodup : forall m dk info, (w.hub m).candidates.lookup dk = some info ->
    info.clients.Nodup
  copies_nodup : (copies w.stack).Nodup
  apart : forall c m dk, Waits w c m dk -> c ∉ copies w.stack
  unique : forall c m dk m' dk', Waits w c m dk -> Waits w c m' dk' ->
    m = m' ∧ dk = dk'
  covered : forall c m, (w.clients c).status = .connected ->
    (w.clients c).backendState = some m ->
    exists dk, Waits w c m dk ∨ Copied w.stack c m dk
  cached : forall c, (w.clients c).status = .cached -> (w.clients c).cmd = none

variable {stack : List (Frame n)} {c : ClientId} {w : World n} {dk dk' : Fin n × Sds}

theorem Copied.clearing {m : Mode} (h : Copied stack c m dk) (hsingle : SingleHandler m stack) :
    phaseOf m stack = .clearing := by
  rcases h with ⟨result, clients, hmem, _⟩
  exact phaseOf_clear hsingle hmem

theorem mem_copies : c ∈ copies stack <-> exists m dk, Copied stack c m dk := by
  constructor
  · intro hmem
    rcases mem_flatMap.mp hmem with ⟨f, hf, hc⟩
    cases f with
    | clear m d k result clients => exact ⟨m, (d, k), result, clients, hf, hc⟩
    | input _ => cases hc
    | read _ => cases hc
    | script _ _ _ => cases hc
  · rintro ⟨m, dk, result, clients, hf, hc⟩
    exact mem_flatMap.mpr ⟨_, hf, hc⟩

theorem Suspension.parked_of_copies (h : Suspension w) (hc : c ∈ copies w.stack) :
    exists m dk, Parked (w.clients c) m dk := by
  rcases mem_copies.mp hc with ⟨m, dk, hcopied⟩
  exact ⟨m, dk, h.copied c m dk hcopied⟩

theorem Suspension.connected (h : Suspension w) {cmd : DataCommand n}
    (hfreed : (w.clients c).status ≠ .freed) (hcmd : (w.clients c).cmd = some cmd) :
    (w.clients c).status = .connected := by
  cases hstatus : (w.clients c).status with
  | connected => rfl
  | cached =>
    rw [h.cached c hstatus] at hcmd
    cases hcmd
  | freed => exact absurd hstatus hfreed

variable {more : List ClientId} {a : World.Admission} {dc : DataCommand n} {st : Store n}
  {ch : Channel n}

theorem Suspension.resumed_target (h : Suspension w) {m : Mode} {d : Fin n} {k : Sds}
    {result : Bool} {rest : List (Frame n)} {cmd : DataCommand n}
    (hstack : w.stack = .clear m d k result (c :: more) :: rest)
    (hfreed : (w.clients c).status ≠ .freed) (hcmd : (w.clients c).cmd = some cmd) :
    cmd.target = some (m, k) := by
  have hcopied : Copied w.stack c m (d, k) := by
    rw [hstack]
    exact ⟨result, c :: more, mem_cons_self, mem_cons_self⟩
  rcases (h.copied c m (d, k) hcopied).cmd (h.connected hfreed hcmd) with ⟨dc, hdc, htarget⟩
  rw [hcmd] at hdc
  cases hdc
  exact htarget

theorem Suspension.cached_other {w' : World n} (h : Suspension w) {t : ClientId}
    (hother : forall c, c ≠ t -> w'.clients c = w.clients c)
    (hself : (w'.clients t).status = .cached -> (w'.clients t).cmd = none) (c : ClientId)
    (hc : (w'.clients c).status = .cached) : (w'.clients c).cmd = none := by
  by_cases hne : c = t
  · subst hne
    exact hself hc
  · rw [hother c hne] at hc ⊢
    exact h.cached c hc

theorem Suspension.free_of_normal (h : Suspension w) (hnormal : (w.clients c).backendState = none) :
    (forall m dk, Not (Waits w c m dk)) ∧ c ∉ copies w.stack := by
  constructor
  · intro m dk hwaits
    have hstate := (h.waits c m dk hwaits).state
    rw [hnormal] at hstate
    cases hstate
  · intro hc
    rcases h.parked_of_copies hc with ⟨m, dk, hparked⟩
    have hstate := hparked.state
    rw [hnormal] at hstate
    cases hstate

/-!
# Changes that no suspension looks at
-/

structure SameLists (w w' : World n) : Prop where
  forth : forall m dk info, (w.hub m).candidates.lookup dk = some info ->
    info.clients = [] ∨ exists info',
      (w'.hub m).candidates.lookup dk = some info' ∧
        info'.clients = info.clients
  back : forall m dk info, (w'.hub m).candidates.lookup dk = some info ->
    info.clients = [] ∨ exists info',
      (w.hub m).candidates.lookup dk = some info' ∧ info'.clients = info.clients

structure SameParking (cl cl' : Client n) : Prop where
  state : cl'.backendState = cl.backendState
  cmd : cl'.cmd = cl.cmd
  status : cl'.status = cl.status
  db : cl.backendState ≠ none -> cl'.db = cl.db

structure SameCopies (stack stack' : List (Frame n)) : Prop where
  copied : forall c m dk, Copied stack' c m dk <-> Copied stack c m dk
  copies : copies stack' = copies stack

structure SameSuspension (w w' : World n) : Prop where
  lists : SameLists w w'
  clients : forall c, SameParking (w.clients c) (w'.clients c)
  stack : SameCopies w.stack w'.stack

theorem sameCopies_refl (stack : List (Frame n)) : SameCopies stack stack :=
  ⟨fun _ _ _ => Iff.rfl, rfl⟩

theorem SameCopies.symm {stack' : List (Frame n)} (h : SameCopies stack stack') :
    SameCopies stack' stack :=
  ⟨fun c m dk => (h.copied c m dk).symm, h.copies.symm⟩

theorem SameCopies.trans {a b c : List (Frame n)} (hab : SameCopies a b)
    (hbc : SameCopies b c) : SameCopies a c :=
  ⟨fun x m dk => (hbc.copied x m dk).trans (hab.copied x m dk), hbc.copies.trans hab.copies⟩

theorem sameCopies_cons (rest : List (Frame n)) {f : Frame n}
    (hf : f.copies = []) : SameCopies rest (f :: rest) where
  copied := by
    intro c m dk
    constructor
    · rintro ⟨result, clients, hmem, hc⟩
      rcases mem_cons.mp hmem with heq | hmem
      · rw [← heq] at hf
        change clients = [] at hf
        rw [hf] at hc
        cases hc
      · exact ⟨result, clients, hmem, hc⟩
    · rintro ⟨result, clients, hmem, hc⟩
      exact ⟨result, clients, mem_cons_of_mem f hmem, hc⟩
  copies := by
    simp [Redisoo.copies, hf]

theorem sameParking_refl (cl : Client n) : SameParking cl cl := ⟨rfl, rfl, rfl, fun _ => rfl⟩

variable {w' : World n} {m : Mode} {dk : Fin n × Sds} {t : ClientId} {waiter : Option ClientId}
  {result : Bool} {rest : List (Frame n)}

theorem sameLists_of_candidates (h : forall m, (w'.hub m).candidates = (w.hub m).candidates) :
    SameLists w w' where
  forth := by
    intro m dk info hlookup
    right
    rw [h m]
    exact ⟨info, hlookup, rfl⟩
  back := by
    intro m dk info hlookup
    right
    rw [h m] at hlookup
    exact ⟨info, hlookup, rfl⟩

theorem SameLists.waits_iff (h : SameLists w w') : Waits w' c m dk <-> Waits w c m dk := by
  constructor
  · rintro ⟨info, hlookup, hc⟩
    rcases h.back m dk info hlookup with hempty | ⟨info', hlookup', hsame⟩
    · rw [hempty] at hc
      cases hc
    · exact ⟨info', hlookup', hsame ▸ hc⟩
  · rintro ⟨info, hlookup, hc⟩
    rcases h.forth m dk info hlookup with hempty | ⟨info', hlookup', hsame⟩
    · rw [hempty] at hc
      cases hc
    · exact ⟨info', hlookup', hsame ▸ hc⟩

theorem SameParking.parked {cl cl' : Client n} (h : SameParking cl cl') (hparked : Parked cl m dk) :
    Parked cl' m dk where
  state := h.state.trans hparked.state
  db := by
    rw [h.db (by simp [hparked.state])]
    exact hparked.db
  cmd := by
    intro hconn
    rw [h.cmd]
    exact hparked.cmd (h.status ▸ hconn)

theorem suspension_of_same (h : Suspension w) (hsame : SameSuspension w w') :
    Suspension w' where
  waits := by
    intro c m dk hwaits
    exact (hsame.clients c).parked (h.waits c m dk (hsame.lists.waits_iff.mp hwaits))
  alive := by
    intro c m dk hwaits
    rw [(hsame.clients c).status]
    exact h.alive c m dk (hsame.lists.waits_iff.mp hwaits)
  copied := by
    intro c m dk hcopied
    exact (hsame.clients c).parked (h.copied c m dk ((hsame.stack.copied c m dk).mp hcopied))
  nodup := by
    intro m dk info hlookup
    rcases hsame.lists.back m dk info hlookup with hempty | ⟨info', hlookup', heq⟩
    · rw [hempty]
      exact nodup_nil
    · rw [← heq]
      exact h.nodup m dk info' hlookup'
  copies_nodup := by
    rw [hsame.stack.copies]
    exact h.copies_nodup
  apart := by
    intro c m dk hwaits
    rw [hsame.stack.copies]
    exact h.apart c m dk (hsame.lists.waits_iff.mp hwaits)
  unique := by
    intro c m dk m' dk' hwaits hwaits'
    exact h.unique c m dk m' dk' (hsame.lists.waits_iff.mp hwaits)
      (hsame.lists.waits_iff.mp hwaits')
  covered := by
    intro c m hconn hstate
    rw [(hsame.clients c).status] at hconn
    rw [(hsame.clients c).state] at hstate
    rcases h.covered c m hconn hstate with ⟨dk, hwaits | hcopied⟩
    · exact ⟨dk, Or.inl (hsame.lists.waits_iff.mpr hwaits)⟩
    · exact ⟨dk, Or.inr ((hsame.stack.copied c m dk).mpr hcopied)⟩
  cached := by
    intro c hcached
    rw [(hsame.clients c).status] at hcached
    rw [(hsame.clients c).cmd]
    exact h.cached c hcached

theorem sameParking_update {f : ClientId -> Client n} (cl : Client n) (h : SameParking (f c) cl)
    (c' : ClientId) : SameParking (f c') (Function.update f c cl c') := by
  by_cases hc : c' = c
  · subst hc
    simpa using h
  · rw [update_of_ne hc]
    exact sameParking_refl _

theorem sameParking_received (w : World n) (c : ClientId) (cmd : Command n)
    (more : List (Command n)) (c' : ClientId) :
    SameParking (w.clients c') ((w.received c cmd more).clients c') :=
  sameParking_update { w.clients c with querybuf := more } ⟨rfl, rfl, rfl, fun _ => rfl⟩ c'

theorem sameParking_serveData (w : World n) (c : ClientId) (cmd : DataCommand n) (c' : ClientId) :
    SameParking (w.clients c') ((w.serveData c cmd).clients c') := by
  rw [serveData_clients]
  refine sameParking_update _ ?_ c'
  exact ⟨rfl, rfl, rfl, fun _ => rfl⟩

theorem SameParking.trans {a b c : Client n} (hab : SameParking a b)
    (hbc : SameParking b c) : SameParking a c where
  state := hbc.state.trans hab.state
  cmd := hbc.cmd.trans hab.cmd
  status := hbc.status.trans hab.status
  db := by
    intro hstate
    rw [hbc.db (by rw [hab.state]; exact hstate), hab.db hstate]

/-!
# Freeing a client
-/

theorem waits_release (hhub : w'.hub = fun m => releaseWhenFreeClient t (w.hub m)) :
    Waits w' c m dk <-> Waits w c m dk ∧ c ≠ t := by
  unfold Waits
  rw [hhub]
  simp only [lookup_release, map_eq_some_iff]
  constructor
  · rintro ⟨info', ⟨info, hlookup, hrel⟩, hc⟩
    subst hrel
    rcases mem_filter.mp hc with ⟨hmem, hne⟩
    exact ⟨⟨info, hlookup, hmem⟩, by simpa using hne⟩
  · rintro ⟨⟨info, hlookup, hmem⟩, hne⟩
    exact ⟨_, ⟨info, hlookup, rfl⟩, mem_filter.mpr ⟨hmem, by simpa using hne⟩⟩

/-- The three outcomes of `freeClient`. -/
inductive Frees (w : World n) (t : ClientId) : World n -> Prop where
  | marked : w.inScript t = true ->
      Frees w t (w.setClient t { w.clients t with closing := true })
  | cached : w.inScript t = false -> (w.clients t).master = true ->
      Frees w t
        ((w.setClient t
          { (w.clients t).discardTransaction with
            status := .cached, querybuf := [], cmd := none,
            closing := false }).log (.freed t))
  | released : w.inScript t = false -> (w.clients t).master = false ->
      Frees w t
        (({ w with hub := fun m => releaseWhenFreeClient t (w.hub m) }.setClient t
          { w.clients t with status := .freed }).log (.freed t))

theorem freeClient_cases (h : w.freeClient t = w') : Frees w t w' := by
  subst h
  unfold freeClient
  dsimp only
  split
  · rename_i hscript
    exact .marked hscript
  · rename_i hscript
    split
    · rename_i hmaster
      exact .cached (by simpa using hscript) hmaster
    · rename_i hmaster
      exact .released (by simpa using hscript) (by simpa using hmaster)

theorem freeClient_other (w : World n) (hne : c ≠ t) :
    (w.freeClient t).clients c = w.clients c := by
  generalize hw' : w.freeClient t = w'
  cases freeClient_cases hw' with
  | marked _ | cached _ _ | released _ _ => simp [update_of_ne hne]

theorem suspension_cached (h : Suspension w) (cl : Client n)
    (hstate : cl.backendState = (w.clients t).backendState) (hdb : cl.db = (w.clients t).db)
    (hcmd : cl.cmd = none) (hstatus : cl.status = .cached) : Suspension (w.setClient t cl) := by
  have hparked : forall c m dk, Parked (w.clients c) m dk ->
      Parked ((w.setClient t cl).clients c) m dk := by
    intro c m dk hp
    by_cases hc : c = t
    · subst hc
      rw [setClient_clients, update_self]
      constructor
      · exact hstate.trans hp.state
      · exact hdb.trans hp.db
      · intro hconn
        rw [hstatus] at hconn
        cases hconn
    · rw [setClient_clients, update_of_ne hc]
      exact hp
  constructor
  · intro c m dk hwaits
    exact hparked c m dk (h.waits c m dk hwaits)
  · intro c m dk hwaits
    by_cases hc : c = t
    · subst hc
      simp [hstatus]
    · rw [setClient_clients, update_of_ne hc]
      exact h.alive c m dk hwaits
  · intro c m dk hcopied
    exact hparked c m dk (h.copied c m dk hcopied)
  · exact h.nodup
  · exact h.copies_nodup
  · exact h.apart
  · exact h.unique
  · intro c m hconn hs
    by_cases hc : c = t
    · subst hc
      simp [hstatus] at hconn
    · rw [setClient_clients, update_of_ne hc] at hconn hs
      exact h.covered c m hconn hs
  · intro c hcached
    by_cases hc : c = t
    · subst hc
      simpa using hcmd
    · rw [setClient_clients, update_of_ne hc] at hcached ⊢
      exact h.cached c hcached

theorem suspension_released (h : Suspension w)
    (hhub : w'.hub = fun m => releaseWhenFreeClient t (w.hub m))
    (hother : forall c, c ≠ t -> w'.clients c = w.clients c)
    (hself : w'.clients t = { w.clients t with status := .freed }) (hstack : w'.stack = w.stack) :
    Suspension w' := by
  have hwaits : forall c m dk, Waits w' c m dk <-> Waits w c m dk ∧ c ≠ t :=
    fun _ _ _ => waits_release hhub
  constructor
  · intro c m dk hw
    rcases (hwaits c m dk).mp hw with ⟨hw0, hne⟩
    rw [hother c hne]
    exact h.waits c m dk hw0
  · intro c m dk hw
    rcases (hwaits c m dk).mp hw with ⟨hw0, hne⟩
    rw [hother c hne]
    exact h.alive c m dk hw0
  · intro c m dk hcopied
    rw [hstack] at hcopied
    have hp := h.copied c m dk hcopied
    by_cases hc : c = t
    · subst hc
      rw [hself]
      exact ⟨hp.state, hp.db, fun hconn => by cases hconn⟩
    · rw [hother c hc]
      exact hp
  · intro m dk info hlookup
    rw [hhub, lookup_release, map_eq_some_iff] at hlookup
    rcases hlookup with ⟨info', hlookup', hrel⟩
    rw [← hrel]
    exact (h.nodup m dk info' hlookup').filter _
  · rw [hstack]
    exact h.copies_nodup
  · intro c m dk hw
    rw [hstack]
    exact h.apart c m dk ((hwaits c m dk).mp hw).left
  · intro c m dk m' dk' hw hw'
    exact h.unique c m dk m' dk' ((hwaits c m dk).mp hw).left ((hwaits c m' dk').mp hw').left
  · intro c m hconn hs
    by_cases hc : c = t
    · subst hc
      rw [hself] at hconn
      cases hconn
    rw [hother c hc] at hconn hs
    rcases h.covered c m hconn hs with ⟨dk, hw | hcopied⟩
    · exact ⟨dk, Or.inl ((hwaits c m dk).mpr ⟨hw, hc⟩)⟩
    · rw [hstack]
      exact ⟨dk, Or.inr hcopied⟩
  · refine h.cached_other hother (fun hcached => ?_)
    rw [hself] at hcached
    cases hcached

theorem suspension_freeClient (h : Suspension w) (t : ClientId) : Suspension (w.freeClient t) := by
  generalize hw' : w.freeClient t = w'
  cases freeClient_cases hw' with
  | marked _ =>
    refine suspension_of_same h ⟨sameLists_of_candidates (fun _ => rfl), ?_, sameCopies_refl _⟩
    intro c
    refine sameParking_update _ ?_ c
    exact ⟨rfl, rfl, rfl, fun _ => rfl⟩
  | cached _ _ =>
    refine suspension_of_same (suspension_cached h _ ?_ ?_ ?_ ?_)
      ⟨sameLists_of_candidates (fun _ => rfl), fun c => sameParking_refl _, sameCopies_refl _⟩
    all_goals rfl
  | released _ _ =>
    refine suspension_released h (t := t) rfl ?_ ?_ rfl
    · intro c hc
      simp [update_of_ne hc]
    · simp

theorem effect_suspension {victims : List ClientId} (heffect : Effect c victims w w')
    (h : Suspension w) (hnormal : (w.clients c).backendState = none) :
    Suspension w' ∧ (w'.clients c).backendState = none := by
  induction heffect with
  | refl => exact ⟨h, hnormal⟩
  | call cmd caller d flags _ ih =>
    refine ⟨suspension_of_same ih.left ?_, ih.right⟩
    exact ⟨sameLists_of_candidates (fun _ => rfl), fun _ => sameParking_refl _, sameCopies_refl _⟩
  | session cl _ hsame ih =>
    constructor
    · refine suspension_of_same ih.left
        ⟨sameLists_of_candidates (fun _ => rfl), ?_, sameCopies_refl _⟩
      intro c'
      refine sameParking_update _ ?_ c'
      exact ⟨hsame.backendState, hsame.cmd, hsame.status, fun hne => absurd ih.right hne⟩
    · simpa [hsame.backendState] using ih.right
  | free t _ _ hne _ ih =>
    refine ⟨suspension_freeClient ih.left t, ?_⟩
    rw [freeClient_other _ (Ne.symm hne)]
    exact ih.right

/-!
# Admission
-/

theorem checkCommand_target {cl : Client n} (h : w.checkCommand cl dc = .ok (st, some a)) :
    dc.target = some (a.mode, a.key) := by
  cases dc with
  | get k | del k more =>
    simp only [checkCommand] at h
    injection h with h
    injection h with _ h
    split at h
    · cases h
      rfl
    · cases h
  | setlike sc =>
    simp only [checkCommand] at h
    split at h
    · cases h
    injection h with h
    injection h with _ h
    split at h
    · cases h
      rfl
    · cases h
  | ordinary o => cases h

theorem Joins.clients_eq {value : Sds} {ttl : Int} {old : Option BackendInfo} {info : BackendInfo}
    (h : Joins m value ttl waiter old info) :
    info.clients = (old.map BackendInfo.clients).getD [] ++ waiter.toList := by
  cases h with
  | new => rfl
  | old info _ => rfl

structure Enqueued (w w' : World n) (m : Mode) (dk : Fin n × Sds)
    (waiter : Option ClientId) : Prop where
  other : forall m', m' ≠ m -> (w'.hub m').candidates = (w.hub m').candidates
  entry : exists info,
    (w'.hub m).candidates = (w.hub m).candidates.insert dk info ∧
      info.clients =
        (((w.hub m).candidates.lookup dk).map BackendInfo.clients).getD [] ++
          waiter.toList

variable {m' : Mode} {pick : Nat} {d : Fin n} {k : Sds}

theorem Enqueued.lookup_other (h : Enqueued w w' m dk waiter) (hne : Not (m' = m ∧ dk' = dk)) :
    (w'.hub m').candidates.lookup dk' = (w.hub m').candidates.lookup dk' := by
  by_cases hm : m' = m
  · subst hm
    rcases h.entry with ⟨info, htable, _⟩
    rw [htable, lookup_insert_ne (fun heq => hne ⟨rfl, heq⟩)]
  · rw [h.other m' hm]

theorem Enqueued.waits_iff {x : ClientId} (h : Enqueued w w' m dk waiter) :
    Waits w' x m' dk' <-> Waits w x m' dk' ∨ (waiter = some x ∧ m' = m ∧ dk' = dk) := by
  by_cases hhere : m' = m ∧ dk' = dk
  · rcases hhere with ⟨hm, hdk⟩
    subst hm
    subst hdk
    rcases h.entry with ⟨info, htable, hclients⟩
    unfold Waits
    rw [htable, lookup_insert]
    simp only [some.injEq, exists_eq_left', and_self, and_true]
    rw [hclients, mem_append]
    cases hold : (w.hub m').candidates.lookup dk' with
    | none => simp
    | some old => simp
  · unfold Waits
    rw [h.lookup_other hhere]
    simp [hhere]

theorem Enqueued.sameLists (h : Enqueued w w' m dk none) : SameLists w w' := by
  rcases h.entry with ⟨info, htable, hclients⟩
  constructor
  · intro m' dk' old hlookup
    by_cases hhere : m' = m ∧ dk' = dk
    · rcases hhere with ⟨hm, hdk⟩
      subst hm
      subst hdk
      right
      refine ⟨info, by rw [htable, lookup_insert], ?_⟩
      simp [hclients, hlookup]
    · right
      rw [h.lookup_other hhere]
      exact ⟨old, hlookup, rfl⟩
  · intro m' dk' new hlookup
    by_cases hhere : m' = m ∧ dk' = dk
    · rcases hhere with ⟨hm, hdk⟩
      subst hm
      subst hdk
      rw [htable, lookup_insert] at hlookup
      cases hlookup
      cases hold : (w.hub m').candidates.lookup dk' with
      | none =>
        left
        simp [hclients, hold]
      | some old =>
        right
        exact ⟨old, rfl, by simp [hclients, hold]⟩
    · right
      rw [h.lookup_other hhere] at hlookup
      exact ⟨new, hlookup, rfl⟩

theorem admitted_rest (w : World n) (d : Fin n) (a : World.Admission) (ch : Channel n) :
    (w.admitted d a ch).stack = w.stack ∧ (w.admitted d a ch).clients = w.clients ∧
      (w.admitted d a ch).store = w.store ∧ (w.admitted d a ch).cfg = w.cfg ∧
      (w.admitted d a ch).now = w.now ∧ (w.admitted d a ch).backend = w.backend ∧
      (w.admitted d a ch).luaTimedout = w.luaTimedout ∧
      (w.admitted d a ch).hub = Function.update w.hub a.mode ch := by
  rcases admitted_frame w d a ch with ⟨tr, htr⟩
  rw [htr]
  exact ⟨rfl, rfl, rfl, rfl, rfl, rfl, rfl, rfl⟩

section Entered

variable (w : World n) (c : ClientId) (dc : DataCommand n)
  (more : List (Command n)) (st : Store n) (a : World.Admission) (ch : Channel n)

theorem entered_stack : (w.entered c dc more st a ch).stack = w.stack :=
  (admitted_rest _ _ _ _).left

theorem entered_clients : (w.entered c dc more st a ch).clients =
      (w.received c (.data dc) more).clients :=
  (admitted_rest _ _ _ _).right.left

theorem suspended_other (ht : t ≠ c) :
    ((w.entered c dc more st a ch).suspended c dc a).clients t = w.clients t := by
  simp only [suspended, log_clients, setClient_clients, update_of_ne ht]
  rw [entered_clients]
  simp [received, ht]

theorem served_other (ht : t ≠ c) :
    ((w.entered c dc more st a ch).serveData c dc).clients t = w.clients t := by
  rw [serveData_clients, update_of_ne ht, entered_clients]
  simp [received, ht]

theorem entered_store : (w.entered c dc more st a ch).store = st :=
  (admitted_rest _ _ _ _).right.right.left

theorem entered_hub : (w.entered c dc more st a ch).hub = Function.update w.hub a.mode ch :=
  (admitted_rest _ _ _ _).right.right.right.right.right.right.right

end Entered

theorem entered_enqueued {more : List (Command n)} (hadmits : Admits (w.received c (.data dc) more)
      ((w.received c (.data dc) more).clients c) dc st a waiter pick ch)
    (hhub : w'.hub = (w.entered c dc more st a ch).hub) :
    Enqueued w w' a.mode ((w.clients c).db, a.key) waiter := by
  have henqueue := hadmits.enqueue
  rw [received_client] at henqueue
  rcases enqueue_spec henqueue with ⟨info, hjoins, hcreate⟩
  rcases hcreate.frame with ⟨hcand, _, _, _⟩
  rw [entered_hub] at hhub
  constructor
  · intro m' hm
    rw [hhub, update_of_ne hm]
  · refine ⟨info, ?_, hjoins.clients_eq⟩
    rw [hhub, update_self]
    exact hcand

theorem suspension_suspend (h : Suspension w) (hnormal : (w.clients c).backendState = none)
    (henq : Enqueued w w' m dk (some c)) (hstack : w'.stack = w.stack)
    (hother : forall c', c' ≠ c -> w'.clients c' = w.clients c')
    (hself : Parked (w'.clients c) m dk) (hstatus : (w'.clients c).status = .connected) :
    Suspension w' := by
  rcases h.free_of_normal hnormal with ⟨hnowait, hnocopy⟩
  have hne : forall {c' : ClientId}, c' ∈ copies w.stack -> c' ≠ c := by
    intro c' hmem heq
    subst heq
    exact hnocopy hmem
  have hsplit : forall {c' m' dk'}, Waits w' c' m' dk' ->
      (c' ≠ c ∧ Waits w c' m' dk') ∨ (c' = c ∧ m' = m ∧ dk' = dk) := by
    intro c' m' dk' hw
    rcases henq.waits_iff.mp hw with hold | ⟨heq, hm, hdk⟩
    · left
      refine ⟨?_, hold⟩
      intro heq
      subst heq
      exact hnowait m' dk' hold
    · right
      cases heq
      exact ⟨rfl, hm, hdk⟩
  constructor
  · intro c' m' dk' hw
    rcases hsplit hw with ⟨hc, hold⟩ | ⟨hc, hm, hdk⟩
    · rw [hother c' hc]
      exact h.waits c' m' dk' hold
    subst hc
    subst hm
    subst hdk
    exact hself
  · intro c' m' dk' hw
    rcases hsplit hw with ⟨hc, hold⟩ | ⟨hc, _, _⟩
    · rw [hother c' hc]
      exact h.alive c' m' dk' hold
    · subst hc
      rw [hstatus]
      simp
  · intro c' m' dk' hcopied
    rw [hstack] at hcopied
    rw [hother c' (hne (mem_copies.mpr ⟨m', dk', hcopied⟩))]
    exact h.copied c' m' dk' hcopied
  · intro m' dk' info hlookup
    by_cases hhere : m' = m ∧ dk' = dk
    · rcases hhere with ⟨hm, hdk⟩
      subst hm
      subst hdk
      rcases henq.entry with ⟨info', htable, hclients⟩
      rw [htable, lookup_insert] at hlookup
      cases hlookup
      rw [hclients]
      cases hold : (w.hub m').candidates.lookup dk' with
      | none => simp
      | some old =>
        have hnot : c ∉ old.clients := fun hmem => hnowait m' dk' ⟨old, hold, hmem⟩
        simp only [map_some, getD_some, toList_some]
        rw [nodup_append]
        refine ⟨h.nodup m' dk' old hold, by simp, ?_⟩
        intro x hx y hy heq
        rw [mem_singleton] at hy
        subst hy
        subst heq
        exact hnot hx
    · rw [henq.lookup_other hhere] at hlookup
      exact h.nodup m' dk' info hlookup
  · rw [hstack]
    exact h.copies_nodup
  · intro c' m' dk' hw
    rw [hstack]
    rcases hsplit hw with ⟨_, hold⟩ | ⟨hc, _, _⟩
    · exact h.apart c' m' dk' hold
    · subst hc
      exact hnocopy
  · intro c' m1 dk1 m2 dk2 hw1 hw2
    rcases hsplit hw1 with ⟨hc1, hold1⟩ | ⟨hc1, hm1, hdk1⟩
    · rcases hsplit hw2 with ⟨_, hold2⟩ | ⟨hc2, _, _⟩
      · exact h.unique c' m1 dk1 m2 dk2 hold1 hold2
      · exact absurd hc2 hc1
    · rcases hsplit hw2 with ⟨hc2, _⟩ | ⟨_, hm2, hdk2⟩
      · exact absurd hc1 hc2
      · exact ⟨hm1.trans hm2.symm, hdk1.trans hdk2.symm⟩
  · intro c' m' hconn' hs
    by_cases hc : c' = c
    · subst hc
      rw [hself.state] at hs
      cases hs
      exact ⟨dk, Or.inl (henq.waits_iff.mpr (Or.inr ⟨rfl, rfl, rfl⟩))⟩
    · rw [hother c' hc] at hconn' hs
      rcases h.covered c' m' hconn' hs with ⟨dk', hw | hcopied⟩
      · exact ⟨dk', Or.inl (henq.waits_iff.mpr (Or.inl hw))⟩
      · rw [hstack]
        exact ⟨dk', Or.inr hcopied⟩
  · refine h.cached_other hother (fun hcached => ?_)
    rw [hstatus] at hcached
    cases hcached

/-!
# Completion
-/

theorem copied_cons {clients : List ClientId} :
    Copied (.clear m d k result clients :: rest) c m' dk <->
      (c ∈ clients ∧ m' = m ∧ dk = (d, k)) ∨ Copied rest c m' dk := by
  constructor
  · rintro ⟨result', clients', hmem, hc⟩
    rcases mem_cons.mp hmem with heq | hmem
    · injection heq with hm hd hk _ hclients
      subst hclients
      exact Or.inl ⟨hc, hm, Prod.ext hd hk⟩
    · exact Or.inr ⟨result', clients', hmem, hc⟩
  · rintro (⟨hc, hm, hdk⟩ | ⟨result', clients', hmem, hc⟩)
    · subst hm
      subst hdk
      exact ⟨result, clients, mem_cons_self, hc⟩
    · exact ⟨result', clients', mem_cons_of_mem _ hmem, hc⟩

@[simp] theorem copies_clear (m : Mode) (d : Fin n) (k : Sds) (result : Bool)
    (clients : List ClientId) (rest : List (Frame n)) :
    copies (.clear m d k result clients :: rest) = clients ++ copies rest := rfl

@[simp] theorem copies_input (c : ClientId) (rest : List (Frame n)) :
    copies (.input c :: rest) = copies rest := rfl

theorem suspension_handler {info : BackendInfo} (h : Suspension w)
    (hlookup : (w.hub m).candidates.lookup dk = some info)
    (hother : forall m', m' ≠ m -> (w'.hub m').candidates = (w.hub m').candidates)
    (herase : (w'.hub m).candidates = (w.hub m).candidates.erase dk)
    (hstack : w'.stack = .clear m dk.1 dk.2 result info.clients :: w.stack)
    (hclients : w'.clients = w.clients) : Suspension w' := by
  have hlook : forall {m' dk' info'}, (w'.hub m').candidates.lookup dk' = some info' ->
        Not (m' = m ∧ dk' = dk) ∧ (w.hub m').candidates.lookup dk' = some info' := by
    intro m' dk' info' hl
    by_cases hm : m' = m
    · subst hm
      rw [herase] at hl
      by_cases hdk : dk' = dk
      · subst hdk
        rw [lookup_erase] at hl
        cases hl
      · rw [lookup_erase_ne hdk] at hl
        exact ⟨fun hboth => hdk hboth.right, hl⟩
    · rw [hother m' hm] at hl
      exact ⟨fun hboth => hm hboth.left, hl⟩
  have hsplit : forall {c m' dk'}, Waits w' c m' dk' ->
      Not (m' = m ∧ dk' = dk) ∧ Waits w c m' dk' := by
    rintro c m' dk' ⟨info', hl, hc⟩
    rcases hlook hl with ⟨hne, hl'⟩
    exact ⟨hne, info', hl', hc⟩
  have hmine : forall {c}, c ∈ info.clients -> Waits w c m dk :=
    fun hc => ⟨info, hlookup, hc⟩
  constructor
  · intro c m' dk' hw
    rw [hclients]
    exact h.waits c m' dk' (hsplit hw).right
  · intro c m' dk' hw
    rw [hclients]
    exact h.alive c m' dk' (hsplit hw).right
  · intro c m' dk' hcopied
    rw [hclients]
    rw [hstack] at hcopied
    rcases copied_cons.mp hcopied with ⟨hc, hm, hdk⟩ | hold
    · subst hm
      subst hdk
      exact h.waits c m' dk (hmine hc)
    · exact h.copied c m' dk' hold
  · intro m' dk' info' hl
    exact h.nodup m' dk' info' (hlook hl).right
  · rw [hstack, copies_clear, nodup_append]
    refine ⟨h.nodup m dk info hlookup, h.copies_nodup, ?_⟩
    intro x hx y hy heq
    subst heq
    exact h.apart x m dk (hmine hx) hy
  · intro c m' dk' hw hc
    rcases hsplit hw with ⟨hne, hold⟩
    rw [hstack, copies_clear, mem_append] at hc
    rcases hc with hc | hc
    · rcases h.unique c m' dk' m dk hold (hmine hc) with ⟨hm, hdk⟩
      exact hne ⟨hm, hdk⟩
    · exact h.apart c m' dk' hold hc
  · intro c m1 dk1 m2 dk2 hw1 hw2
    exact h.unique c m1 dk1 m2 dk2 (hsplit hw1).right (hsplit hw2).right
  · intro c m' hconn hs
    rw [hclients] at hconn hs
    rcases h.covered c m' hconn hs with ⟨dk', hw | hcopied⟩
    · by_cases hhere : m' = m ∧ dk' = dk
      · rcases hhere with ⟨hm, hdk⟩
        subst hm
        subst hdk
        rcases hw with ⟨info', hl, hc⟩
        rw [hlookup] at hl
        cases hl
        refine ⟨dk', Or.inr ?_⟩
        rw [hstack]
        exact copied_cons.mpr (Or.inl ⟨hc, rfl, rfl⟩)
      · rcases hw with ⟨info', hl, hc⟩
        refine ⟨dk', Or.inl ⟨info', ?_, hc⟩⟩
        by_cases hm : m' = m
        · subst hm
          rw [herase, lookup_erase_ne (fun heq => hhere ⟨rfl, heq⟩)]
          exact hl
        · rw [hother m' hm]
          exact hl
    · refine ⟨dk', Or.inr ?_⟩
      rw [hstack]
      exact copied_cons.mpr (Or.inr hcopied)
  · intro c hcached
    rw [hclients] at hcached ⊢
    exact h.cached c hcached

theorem suspension_resume (h : Suspension w)
    (hstack : w.stack = .clear m d k result (c :: more) :: rest)
    (hstack' : w'.stack = .input c :: .clear m d k result more :: rest) (hhub : w'.hub = w.hub)
    (hother : forall c', c' ≠ c -> w'.clients c' = w.clients c')
    (hstate : (w'.clients c).backendState = none)
    (hcached : (w'.clients c).status = .cached -> (w'.clients c).cmd = none) : Suspension w' := by
  have hnodup := h.copies_nodup
  rw [hstack, copies_clear, cons_append, nodup_cons] at hnodup
  have hcopies : copies w'.stack = more ++ copies rest := by
    rw [hstack']
    rfl
  have hsame : forall {c' m' dk'}, Waits w' c' m' dk' <-> Waits w c' m' dk' := by
    intro c' m' dk'
    unfold Waits
    rw [hhub]
  have hin : c ∈ copies w.stack := by
    rw [hstack]
    simp
  have hwne : forall {c' m' dk'}, Waits w c' m' dk' -> c' ≠ c := by
    intro c' m' dk' hw heq
    subst heq
    exact h.apart c' m' dk' hw hin
  have hcopied : forall {c' m' dk'}, Copied w'.stack c' m' dk' ->
      c' ≠ c ∧ Copied w.stack c' m' dk' := by
    intro c' m' dk' hc
    have hmem : c' ∈ copies w'.stack := mem_copies.mpr ⟨m', dk', hc⟩
    constructor
    · intro heq
      subst heq
      rw [hcopies] at hmem
      exact hnodup.left hmem
    · rw [hstack'] at hc
      rw [hstack]
      have hc' := ((sameCopies_cons _ rfl).copied c' m' dk').mp hc
      rcases copied_cons.mp hc' with ⟨hmem', hm, hdk⟩ | hold
      · exact copied_cons.mpr (Or.inl ⟨mem_cons_of_mem c hmem', hm, hdk⟩)
      · exact copied_cons.mpr (Or.inr hold)
  constructor
  · intro c' m' dk' hw
    have hw' := hsame.mp hw
    rw [hother c' (hwne hw')]
    exact h.waits c' m' dk' hw'
  · intro c' m' dk' hw
    have hw' := hsame.mp hw
    rw [hother c' (hwne hw')]
    exact h.alive c' m' dk' hw'
  · intro c' m' dk' hc
    rcases hcopied hc with ⟨hne, hold⟩
    rw [hother c' hne]
    exact h.copied c' m' dk' hold
  · intro m' dk' info hl
    rw [hhub] at hl
    exact h.nodup m' dk' info hl
  · rw [hcopies]
    exact hnodup.right
  · intro c' m' dk' hw hmem
    apply h.apart c' m' dk' (hsame.mp hw)
    rw [hcopies] at hmem
    rw [hstack, copies_clear, cons_append]
    exact mem_cons_of_mem c hmem
  · intro c' m1 dk1 m2 dk2 hw1 hw2
    exact h.unique c' m1 dk1 m2 dk2 (hsame.mp hw1) (hsame.mp hw2)
  · intro c' m' hconn hs
    by_cases hne : c' = c
    · subst hne
      rw [hstate] at hs
      cases hs
    rw [hother c' hne] at hconn hs
    rcases h.covered c' m' hconn hs with ⟨dk', hw | hc⟩
    · exact ⟨dk', Or.inl (hsame.mpr hw)⟩
    refine ⟨dk', Or.inr ?_⟩
    rw [hstack]  at hc
    rw [hstack']
    refine ((sameCopies_cons _ rfl).copied c' m' dk').mpr ?_
    rcases copied_cons.mp hc with ⟨hmem, hm, hdk⟩ | hold
    · rcases mem_cons.mp hmem with heq | hmem
      · exact absurd heq hne
      · exact copied_cons.mpr (Or.inl ⟨hmem, hm, hdk⟩)
    · exact copied_cons.mpr (Or.inr hold)
  · exact h.cached_other hother hcached

/-!
# One move
-/

theorem Ready.normal (h : w.Ready c) :
    (w.clients c).status = .connected ∧ (w.clients c).backendState = none :=
  ⟨h.left, h.right.left⟩

theorem suspension_admits {more : List (Command n)} (h : Suspension w)
    (htakes : Takes w c (.data dc) more rest) (hadmits : Admits (w.received c (.data dc) more)
      ((w.received c (.data dc) more).clients c) dc st a (some c) pick ch) :
    Suspension ((w.entered c dc more st a ch).suspended c dc a) := by
  rcases Ready.normal htakes.ready with ⟨hconn, hnormal⟩
  have hclients := entered_clients w c dc more st a ch
  have hself : (w.entered c dc more st a ch).clients c = { w.clients c with querybuf := more } := by
    rw [hclients]
    exact received_client w c (.data dc) more
  have henq : Enqueued w ((w.entered c dc more st a ch).suspended c dc a) a.mode
      ((w.clients c).db, a.key) (some c) :=
    entered_enqueued hadmits rfl
  refine suspension_suspend h hnormal henq ?_ ?_ ?_ ?_
  · exact entered_stack w c dc more st a ch
  · intro c' hc
    simp only [suspended, log_clients, setClient_clients]
    rw [update_of_ne hc, hclients]
    simp [received, update_of_ne hc]
  · simp only [suspended, log_clients, setClient_clients, update_self]
    exact ⟨rfl, by rw [hself], fun _ => ⟨dc, rfl, checkCommand_target hadmits.check⟩⟩
  · simp only [suspended, log_clients, setClient_clients, update_self]
    rw [hself]
    exact hconn

theorem suspension_async {more : List (Command n)} (h : Suspension w)
    (hadmits : Admits (w.received c (.data dc) more)
      ((w.received c (.data dc) more).clients c) dc st a none pick ch) :
    Suspension ((w.entered c dc more st a ch).serveData c dc) := by
  have henq : Enqueued w ((w.entered c dc more st a ch).serveData c dc) a.mode
      ((w.clients c).db, a.key) none :=
    entered_enqueued hadmits rfl
  refine suspension_of_same h ⟨henq.sameLists, ?_, ?_⟩
  · intro c'
    have hserve := sameParking_serveData (w.entered c dc more st a ch) c dc c'
    rw [entered_clients] at hserve
    exact (sameParking_received w c (.data dc) more c').trans hserve
  · rw [serveData_stack, entered_stack]
    exact sameCopies_refl _

theorem suspension_resumed {w1 : World n} (h : Suspension w)
    (hstack : w.stack = .clear m d k result (c :: more) :: rest)
    (hresume : w.resumeBackendClient m d k result c = .ok w1) :
    Suspension (w1.setStack (.input c :: .clear m d k result more :: rest)) := by
  rcases resume_frame hresume with ⟨cmd, _, _, _, hw1⟩
  subst hw1
  refine suspension_resume h hstack rfl rfl ?_ ?_ ?_
  · intro c' hc
    rw [setStack_clients, serveData_clients, update_of_ne hc]
    simp [update_of_ne hc]
  · rw [setStack_clients, serveData_clients, update_self]
    simp
  · intro _
    rw [setStack_clients, serveData_clients, update_self]
    simp

theorem move_suspension {l : Label n} (hmove : Move l w w') (h : Suspension w) : Suspension w' := by
  have hkeep : forall w' : World n, (forall m, (w'.hub m).candidates = (w.hub m).candidates) ->
      (forall c, SameParking (w.clients c) (w'.clients c)) ->
      SameCopies w.stack w'.stack -> Suspension w' := by
    intro w' hcand hclients hstack
    exact suspension_of_same h ⟨sameLists_of_candidates hcand, hclients, hstack⟩
  have hsame : forall c, SameParking (w.clients c) (w.clients c) :=
    fun c => sameParking_refl _
  have hchannel : forall (m : Mode) (ch : Channel n), ch.candidates = (w.hub m).candidates ->
      forall m', (Function.update w.hub m ch m').candidates = (w.hub m').candidates := by
    intro m ch hcand m'
    by_cases hm : m' = m
    · subst hm
      rw [update_self, hcand]
    · rw [update_of_ne hm]
  cases hmove with
  | idle _ _ => exact h
  | leave hstack _ | scriptEnd hstack =>
    refine hkeep _ (fun _ => rfl) hsame ?_
    rw [hstack]
    exact (sameCopies_cons _ rfl).symm
  | @refuse _ _ _ c cmd more _ cl r _ hsession hservice _ =>
    refine hkeep _ (fun _ => rfl) ?_ (sameCopies_refl _)
    intro c'
    refine (sameParking_received w c cmd more c').trans ?_
    refine sameParking_update _ ?_ c'
    refine ⟨hsession.backendState, hsession.cmd, hsession.status, fun _ => ?_⟩
    rw [hservice.db, received_client]
  | @control _ _ _ w1 c cmd more _ r htakes _ heffect =>
    have hrecv : Suspension (w.received c cmd more) :=
      hkeep _ (fun _ => rfl) (sameParking_received w c cmd more) (sameCopies_refl _)
    have hnormal : ((w.received c cmd more).clients c).backendState = none := by
      rw [received_client]
      exact (Ready.normal htakes.ready).right
    exact suspension_of_same (effect_suspension heffect hrecv hnormal).left
      ⟨sameLists_of_candidates (fun _ => rfl), fun _ => sameParking_refl _, sameCopies_refl _⟩
  | @direct _ _ _ c dc more _ st _ _ _ =>
    refine hkeep _ (fun _ => rfl) ?_ (sameCopies_refl _)
    intro c'
    exact (sameParking_received w c (.data dc) more c').trans
      (sameParking_serveData ((w.received c (.data dc) more).setStore st) c dc c')
  | suspend st a ch htakes _ _ hadmits => exact suspension_admits h htakes hadmits
  | async st a ch _ _ _ hadmits => exact suspension_async h hadmits
  | @scriptStart _ _ _ c body more _ _ _ =>
    exact hkeep _ (fun _ => rfl)
      (sameParking_received w c (.simple (.eval body)) more)
      (sameCopies_cons _ rfl)
  | @scriptCall _ _ _ c cmd _ _ _ hstack =>
    rw [callFromScript_frame]
    refine hkeep _ (fun _ => rfl) hsame ?_
    rw [hstack]
    exact (sameCopies_cons _ rfl).symm.trans (sameCopies_cons _ rfl)
  | resume hstack hresume => exact suspension_resumed h hstack hresume
  | @finish _ _ _ m _ _ _ rest ch hstack hclear =>
    refine hkeep _ (hchannel m ch (clearJob_spec hclear).frame.left) hsame ?_
    rw [hstack]
    exact (sameCopies_cons _ rfl).symm.trans (sameCopies_cons _ rfl)
  | @drain _ _ _ m rest hstack _ =>
    refine hkeep _ (hchannel m _ rfl) hsame ?_
    rw [hstack]
    exact (sameCopies_cons _ rfl).symm
  | recv c cmds _ _ _ =>
    refine hkeep _ (fun _ => rfl) ?_ (sameCopies_cons _ rfl)
    intro c'
    refine sameParking_update _ ?_ c'
    exact ⟨rfl, rfl, rfl, fun _ => rfl⟩
  | handler m f st ch clients _ _ _ _ htake =>
    rcases takeWaiters_spec htake with ⟨info, hlookup, hclients, hch⟩
    subst hclients
    subst hch
    refine suspension_handler h hlookup ?_ ?_ rfl rfl
    · intro m' hm
      simp [update_of_ne hm]
    · simp
  | free c _ _ => exact suspension_freeClient h c
  | take m ok ch _ htake =>
    refine hkeep _ (hchannel m ch ?_) hsame (sameCopies_refl _)
    rcases getJobInWorkingThread_spec htake with hch | ⟨_, _, _, _, _, hch⟩
    · rw [hch]
    · rw [hch]
  | execute m ok d key backend val result _ _ =>
    exact hkeep _ (hchannel m _ rfl) hsame (sameCopies_refl _)
  | post m ok d key val result ch _ hpost =>
    refine hkeep _ (hchannel m ch ?_) hsame (sameCopies_refl _)
    rw [(postResult_spec hpost).right.right]
  | signal m ok _ => exact hkeep _ (hchannel m _ rfl) hsame (sameCopies_refl _)
  | timeout =>
    rw [timeoutStep_frame]
    exact hkeep _ (fun _ => rfl) hsame (sameCopies_refl _)
  | _ => exact hkeep _ (fun _ => rfl) hsame (sameCopies_refl _)

theorem suspension_start (cfg : Config) (backend : Sds -> Option Sds)
    (db : Fin n) (master : Option ClientId) : Suspension (start cfg backend db master) := by
  have hnowait : forall c m dk, Not (Waits (start cfg backend db master) c m dk) := by
    rintro c m dk ⟨info, hlookup, _⟩
    cases hlookup
  constructor
  · intro c m dk hw
    exact absurd hw (hnowait c m dk)
  · intro c m dk hw
    exact absurd hw (hnowait c m dk)
  · rintro c m dk ⟨result, clients, hmem, _⟩
    cases hmem
  · intro m dk info hlookup
    cases hlookup
  · exact nodup_nil
  · intro c m dk hw
    exact absurd hw (hnowait c m dk)
  · intro c m dk m' dk' hw _
    exact absurd hw (hnowait c m dk)
  · intro c m _ hstate
    cases hstate
  · intro c hcached
    cases hcached

end Redisoo
