import Redisoo.Foundation.Parking
import Redisoo.Safety.Completion

/-!
# Suspended once, resumed once

The record of a server run is one the parking ledger accepts: every candidate
entry has one backend operation and one completion, every suspended command is
resumed once, at the completion of its own entry, and a client gets its replies
in the order of its requests.  The ledger is read off the state of the server,
and every move of the server is a few entries in it.
-/

namespace Redisoo

open Foundation Function World
open Foundation.Parking (Stage Event Ledger)

variable {n : Nat}

abbrev Place (n : Nat) := Mode × (Fin n × Sds)

def Command.Asks : Command n -> Place n -> Prop
  | .simple (.data dc), p => dc.target = some (p.1, p.2.2)
  | _, _ => False

def Observation.event : Observation n -> Option (Event ClientId (Place n) (Command n))
  | .arrive c cmd _ => some (.arrive c cmd)
  | .enter m d k => some (.enter (m, (d, k)))
  | .suspend c m d k => some (.suspend c (m, (d, k)))
  | .executed m d k _ _ => some (.execute (m, (d, k)))
  | .posted _ _ => none
  | .complete m d k _ => some (.complete (m, (d, k)))
  | .resume c m d k => some (.resume c (m, (d, k)))
  | .reply c cmd _ => some (.reply c cmd)
  | .freed c => some (.leave c)

def events (tr : List (Observation n)) : List (Event ClientId (Place n) (Command n)) :=
  tr.filterMap Observation.event

/-!
# Scripts
-/

def scriptOf (c : ClientId) : List (Frame n) -> Option (List (DataCommand n))
  | [] => none
  | .script c' body _ :: rest => if c' = c then some body else scriptOf c rest
  | .input _ :: rest => scriptOf c rest
  | .clear _ _ _ _ _ :: rest => scriptOf c rest
  | .read _ :: rest => scriptOf c rest

variable {c t : ClientId} {w w' : World n} {cmd : Command n} {more : List (Command n)}
  {rest : List (Frame n)} {victims : List ClientId} {m : Mode} {dk : Fin n × Sds}
  {dc : DataCommand n} {p : Place n} {r : Reply} {st : Store n} {a : World.Admission} {pick : Nat}
  {ch : Channel n} {result : Bool}

theorem scriptOf_none {stack : List (Frame n)} :
    scriptOf c stack = none <-> stack.any (Frame.isScriptOf c) = false := by
  induction stack with
  | nil => simp [scriptOf]
  | cons f rest ih =>
    cases f with
    | script c' body todo =>
      by_cases hc : c' = c
      · simp [scriptOf, Frame.isScriptOf, hc]
      · simpa [scriptOf, Frame.isScriptOf, hc] using ih
    | input _ | clear _ _ _ _ _ | read _ => simpa [scriptOf, Frame.isScriptOf] using ih

def Nested : List (Frame n) -> Prop
  | [] => True
  | .input c :: rest => scriptOf c rest = none ∧ Nested rest
  | .script c _ _ :: rest => scriptOf c rest = none ∧ Nested rest
  | .clear _ _ _ _ _ :: rest => Nested rest
  | .read _ :: rest => Nested rest

structure Scripts (w : World n) : Prop where
  nested : Nested w.stack
  connected : forall c, scriptOf c w.stack ≠ none ->
    (w.clients c).status = .connected
  normal : forall c, scriptOf c w.stack ≠ none ->
    (w.clients c).backendState = none

theorem scripts_of_same (h : Scripts w) (hnested : Nested w'.stack)
    (hback : forall c, scriptOf c w'.stack ≠ none -> scriptOf c w.stack ≠ none)
    (hclients : forall c, scriptOf c w.stack ≠ none ->
      (w'.clients c).status = (w.clients c).status ∧
        (w'.clients c).backendState = (w.clients c).backendState) : Scripts w' := by
  constructor
  · exact hnested
  · intro c hc
    rw [(hclients c (hback c hc)).left]
    exact h.connected c (hback c hc)
  · intro c hc
    rw [(hclients c (hback c hc)).right]
    exact h.normal c (hback c hc)

theorem Takes.scriptless (htakes : Takes w c cmd more rest) (h : Scripts w) :
    scriptOf c w.stack = none := by
  have hnested := h.nested
  rw [htakes.stack] at hnested ⊢
  exact hnested.left

theorem freeClient_protected (hc : scriptOf c w.stack ≠ none) :
    ((w.freeClient t).clients c).status = (w.clients c).status := by
  by_cases ht : c = t
  · subst ht
    generalize hw' : w.freeClient c = w'
    cases freeClient_cases hw' with
    | marked _ => simp
    | cached hscript _ | released hscript _ => exact absurd (scriptOf_none.mpr hscript) hc
  · rw [freeClient_other w ht]

theorem effect_protected (heffect : Effect c victims w w') (ht : scriptOf t w.stack ≠ none) :
    (w'.clients t).status = (w.clients t).status := by
  induction heffect with
  | refl => rfl
  | call cmd caller d flags _ ih => exact ih
  | session cl _ hsame ih =>
    by_cases hc : t = c
    · subst hc
      rw [setClient_clients, update_self, hsame.status]
      exact ih
    · rw [setClient_clients, update_of_ne hc]
      exact ih
  | free t' hprev _ _ _ ih =>
    rw [freeClient_protected]
    · exact ih
    · rw [(effect_hubs hprev).left]
      exact ht

variable {l : Label n} {body : List (DataCommand n)} {waiter : Option ClientId} {d : Fin n}
  {obs mid : List (Observation n)} {s s' : Stage (Place n) (Command n)}

theorem move_scripts (hmove : Move l w w') (h : Scripts w) : Scripts w' := by
  -- Moves that keep the nesting and change at most one client.
  have hone : forall (w' : World n) (c : ClientId), w'.stack = w.stack ->
      scriptOf c w.stack = none ->
      (forall t, t ≠ c -> w'.clients t = w.clients t) -> Scripts w' := by
    intro w' c hstack hc hother
    refine scripts_of_same h (by rw [hstack]; exact h.nested)
      (by rw [hstack]; exact fun _ ht => ht) ?_
    intro t ht
    have hne : t ≠ c := by
      intro heq
      rw [heq] at ht
      exact ht hc
    rw [hother t hne]
    exact ⟨rfl, rfl⟩
  have hnested := h.nested
  cases hmove with
  | idle _ _ => exact h
  | leave hstack _ =>
    rw [hstack] at hnested
    exact scripts_of_same h hnested.right (by rw [hstack]; exact fun _ ht => ht)
      (fun _ _ => ⟨rfl, rfl⟩)
  | @refuse _ _ _ c _ _ _ _ _ htakes _ _ _ =>
    refine hone _ c rfl (htakes.scriptless h) ?_
    intro t ht
    simp [received, ht]
  | @control _ _ _ w1 c cmd more _ r htakes _ heffect =>
    refine scripts_of_same h ?_ ?_ ?_
    · rw [log_stack, (effect_hubs heffect).left]
      exact h.nested
    · rw [log_stack, (effect_hubs heffect).left]
      exact fun _ ht => ht
    · intro t ht
      rcases received_fields w c cmd more t with ⟨_, hstatus, hstate⟩
      rw [log_clients, effect_protected heffect ht, effect_state heffect t]
      exact ⟨hstatus, hstate⟩
  | @direct _ _ _ c dc more _ st htakes _ _ =>
    refine hone _ c rfl (htakes.scriptless h) ?_
    intro t ht
    rw [serveData_clients]
    simp [received, ht]
  | @suspend _ _ _ c dc more _ st a ch htakes _ _ _ =>
    exact hone _ c (entered_stack w c dc more st a ch) (htakes.scriptless h)
      fun _ => suspended_other w c dc more st a ch
  | @async _ _ _ c dc more _ st a ch htakes _ _ _ =>
    exact hone _ c (entered_stack w c dc more st a ch) (htakes.scriptless h)
      fun _ => served_other w c dc more st a ch
  | @scriptStart _ _ _ c body more _ htakes _ =>
    have hc := htakes.scriptless h
    rcases Ready.normal htakes.ready with ⟨hconn, hnormal⟩
    constructor
    · exact ⟨hc, h.nested⟩
    · intro t ht
      rw [setStack_clients, (received_fields w c _ more t).2.1]
      by_cases heq : c = t
      · rw [← heq]
        exact hconn
      · exact h.connected t (by simpa [scriptOf, heq] using ht)
    · intro t ht
      rw [setStack_clients, (received_fields w c _ more t).2.2]
      by_cases heq : c = t
      · rw [← heq]
        exact hnormal
      · exact h.normal t (by simpa [scriptOf, heq] using ht)
  | @scriptCall _ _ _ c cmd body more rest hstack =>
    rw [callFromScript_frame]
    rw [hstack] at hnested
    refine scripts_of_same h hnested ?_ (fun _ _ => ⟨rfl, rfl⟩)
    rw [hstack]
    exact fun _ ht => ht
  | @scriptEnd _ _ _ c body rest hstack =>
    rw [hstack] at hnested
    refine scripts_of_same h hnested.right ?_ (fun _ _ => ⟨rfl, rfl⟩)
    intro t ht
    rw [hstack]
    unfold scriptOf
    split
    · exact Option.some_ne_none _
    · exact ht
  | @resume _ _ _ w1 m d k result c more rest hstack hresume =>
    rcases resume_frame hresume with ⟨cmd, _, hstate, _, hw1⟩
    subst hw1
    have hc : scriptOf c w.stack = none := by
      by_contra hsome
      exact hstate (h.normal c hsome)
    rw [hstack] at hnested hc
    refine scripts_of_same h ⟨hc, hnested⟩ ?_ ?_
    · rw [hstack]
      exact fun _ ht => ht
    intro t ht
    have hne : t ≠ c := by
      intro heq
      rw [heq, hstack] at ht
      exact ht hc
    rw [setStack_clients, serveData_clients]
    simp [hne]
  | finish _ hstack _ | drain hstack _ =>
    rw [hstack] at hnested
    refine scripts_of_same h hnested ?_ (fun _ _ => ⟨rfl, rfl⟩)
    rw [hstack]
    exact fun _ ht => ht
  | recv c cmds _ _ hscript =>
    have hc : scriptOf c w.stack = none := scriptOf_none.mpr hscript
    refine scripts_of_same h ⟨hc, h.nested⟩ (fun _ ht => ht) ?_
    intro t ht
    have hne : t ≠ c := by
      intro heq
      rw [heq] at ht
      exact ht hc
    simp [hne]
  | handler _ _ _ _ _ _ _ _ _ _ =>
    exact scripts_of_same h h.nested (fun _ ht => ht) (fun _ _ => ⟨rfl, rfl⟩)
  | free c _ _ =>
    refine scripts_of_same h ?_ ?_ ?_
    · rw [freeClient_stack]
      exact h.nested
    · rw [freeClient_stack]
      exact fun _ ht => ht
    · intro t ht
      exact ⟨freeClient_protected ht, freeClient_state w c t⟩
  | timeout =>
    rw [timeoutStep_frame]
    exact ⟨h.nested, h.connected, h.normal⟩
  | _ => exact ⟨h.nested, h.connected, h.normal⟩

/-!
# The ledger of a state
-/

def Client.parking (cl : Client n) : Option (Place n × DataCommand n) :=
  match cl.backendState, cl.cmd with
  | some m, some dc => dc.target.map fun mk => ((m, (cl.db, mk.2)), dc)
  | _, _ => none

def World.stage (w : World n) (c : ClientId) : Stage (Place n) (Command n) :=
  if (w.clients c).status = .connected then
    match scriptOf c w.stack with
    | some body => .busy (.simple (.eval body))
    | none =>
      match (w.clients c).parking with
      | some (p, dc) =>
        if c ∈ copies w.stack then .due p (.data dc)
        else .waiting p (.data dc)
      | none => .idle
  else .gone

def World.entry (w : World n) (p : Place n) : Option Bool :=
  if p.2 ∈ (w.hub p.1).candidates then
    some (decide ((w.hub p.1).Executed (phaseOf p.1 w.stack) p.2))
  else none

def World.ledger (w : World n) : Ledger ClientId (Place n) (Command n) where
  stage := w.stage
  entry := w.entry

/-!
# Stages
-/

theorem parking_eq {cl : Client n} (h : Parked cl m dk) (hcmd : cl.cmd = some dc)
    (hconn : cl.status = .connected) : cl.parking = some ((m, dk), dc) := by
  rcases h.cmd hconn with ⟨dc', hdc', htarget⟩
  rw [hcmd] at hdc'
  cases hdc'
  unfold Client.parking
  rw [h.state, hcmd]
  dsimp only
  rw [htarget, h.db]
  rfl

theorem parking_normal {cl : Client n} (h : cl.backendState = none) : cl.parking = none := by
  unfold Client.parking
  rw [h]

theorem stage_gone (h : (w.clients c).status ≠ .connected) : w.stage c = .gone := by
  unfold stage
  rw [if_neg h]

section

variable (hconn : (w.clients c).status = .connected)
include hconn

theorem stage_script (hscript : scriptOf c w.stack = some body) :
    w.stage c = .busy (.simple (.eval body)) := by
  unfold stage
  rw [if_pos hconn, hscript]

theorem stage_idle (hscript : scriptOf c w.stack = none)
    (hnormal : (w.clients c).backendState = none) : w.stage c = .idle := by
  unfold stage
  rw [if_pos hconn, hscript, parking_normal hnormal]

theorem stage_parked (hscript : scriptOf c w.stack = none) (hparked : Parked (w.clients c) m dk)
    (hcmd : (w.clients c).cmd = some dc) :
    w.stage c = if c ∈ copies w.stack then .due (m, dk) (.data dc)
      else .waiting (m, dk) (.data dc) := by
  unfold stage
  rw [if_pos hconn, hscript, parking_eq hparked hcmd hconn]

end

theorem stage_of_same (hclient : SameParking (w.clients c) (w'.clients c))
    (hscript : scriptOf c w'.stack = scriptOf c w.stack)
    (hcopies : c ∈ copies w'.stack <-> c ∈ copies w.stack) : w'.stage c = w.stage c := by
  have hparking : (w'.clients c).parking = (w.clients c).parking := by
    cases hstate : (w.clients c).backendState with
    | none =>
      rw [parking_normal hstate, parking_normal (hclient.state.trans hstate)]
    | some m =>
      unfold Client.parking
      rw [hclient.state, hclient.cmd, hclient.db (by simp [hstate])]
  unfold stage
  rw [hclient.status, hscript, hparking]
  simp only [hcopies]

theorem Takes.idle (htakes : Takes w c cmd more rest) (h : Scripts w) : w.stage c = .idle := by
  rcases Ready.normal htakes.ready with ⟨hconn, hnormal⟩
  exact stage_idle hconn (htakes.scriptless h) hnormal

/-!
# Entries
-/

theorem entry_none (h : p.2 ∉ (w.hub p.1).candidates) : w.entry p = none := by
  unfold entry
  rw [if_neg h]

theorem entry_some (h : p.2 ∈ (w.hub p.1).candidates) : w.entry p ≠ none := by
  unfold entry
  rw [if_pos h]
  exact Option.some_ne_none _

theorem entry_executed (hmem : p.2 ∈ (w.hub p.1).candidates)
    (h : (w.hub p.1).Executed (phaseOf p.1 w.stack) p.2) : w.entry p = some true := by
  unfold entry
  rw [if_pos hmem]
  simpa using h

theorem entry_pending (hmem : p.2 ∈ (w.hub p.1).candidates)
    (h : Not ((w.hub p.1).Executed (phaseOf p.1 w.stack) p.2)) : w.entry p = some false := by
  unfold entry
  rw [if_pos hmem]
  simpa using h

theorem entry_of_same (hmem : p.2 ∈ (w'.hub p.1).candidates <-> p.2 ∈ (w.hub p.1).candidates)
    (hexec : (w'.hub p.1).Executed (phaseOf p.1 w'.stack) p.2 <->
      (w.hub p.1).Executed (phaseOf p.1 w.stack) p.2) : w'.entry p = w.entry p := by
  unfold entry
  exact if_congr hmem (congrArg some (decide_eq_decide.mpr hexec)) rfl

theorem entry_of_channel (hhub : w'.hub p.1 = w.hub p.1)
    (hphase : phaseOf p.1 w'.stack = phaseOf p.1 w.stack) : w'.entry p = w.entry p :=
  entry_of_same (by rw [hhub]) (by rw [hhub, hphase])

theorem entry_of_hub (hhub : w'.hub = w.hub)
    (hphase : forall m, phaseOf m w'.stack = phaseOf m w.stack) (p : Place n) :
    w'.entry p = w.entry p :=
  entry_of_channel (by rw [hhub]) (hphase p.1)

/-!
# Moves as ledger entries
-/

def Progress (w w' : World n) : Prop :=
  exists obs, w'.trace = obs ++ w.trace ∧
    w.ledger.Accepts Command.Asks (events obs) ∧
    w.ledger.after (events obs) = w'.ledger

theorem progress_silent (htrace : w'.trace = obs ++ w.trace) (hobs : events obs = [])
    (hstage : forall c, w'.stage c = w.stage c) (hentry : forall p, w'.entry p = w.entry p) :
    Progress w w' := by
  refine ⟨obs, htrace, ?_, ?_⟩
  · rw [hobs]
    trivial
  · rw [hobs]
    exact Ledger.ext (funext fun c => (hstage c).symm) (funext fun p => (hentry p).symm)

theorem setStage_eq (hstage : forall t, t ≠ c -> w'.stage t = w.stage t)
    (hentry : forall p, w'.entry p = w.entry p) :
    w.ledger.setStage c s = w'.ledger.setStage c s := by
  refine Ledger.ext (funext fun t => ?_) (funext fun p => (hentry p).symm)
  change update w.stage c s t = update w'.stage c s t
  by_cases ht : t = c
  · rw [ht, update_self, update_self]
  · rw [update_of_ne ht, update_of_ne ht, hstage t ht]

theorem setStage_self {L : Ledger ClientId (Place n) (Command n)} (h : L.stage c = s') :
    (L.setStage c s).setStage c s' = L := by
  refine Ledger.ext ?_ rfl
  change update (update L.stage c s) c s' = L.stage
  rw [update_idem, ← h, update_eq_self]

theorem progress_exchange {held : Option Sds}
    (htrace : w'.trace = .reply c cmd r :: (mid ++ .arrive c cmd held :: w.trace))
    (hidle : w.stage c = .idle) (hidle' : w'.stage c = .idle)
    (haccepts : (w.ledger.setStage c (.busy cmd)).Accepts Command.Asks (events mid))
    (hafter : (w.ledger.setStage c (.busy cmd)).after (events mid) =
      w'.ledger.setStage c (.busy cmd)) : Progress w w' := by
  have hevents : events (.reply c cmd r :: (mid ++ [.arrive c cmd held])) =
      .reply c cmd :: (events mid ++ [.arrive c cmd]) := by
    simp [events, Observation.event]
  have hmid : w.ledger.after (events mid ++ [.arrive c cmd]) =
      w'.ledger.setStage c (.busy cmd) := by
    rw [Ledger.after_append]
    exact hafter
  refine ⟨.reply c cmd r :: (mid ++ [.arrive c cmd held]), by simp [htrace], ?_, ?_⟩
  · rw [hevents]
    constructor
    · exact Ledger.accepts_append ⟨trivial, hidle⟩ haccepts
    · rw [hmid]
      change update w'.stage c (.busy cmd) c = .busy cmd
      rw [update_self]
  · rw [hevents]
    change ((w.ledger.after (events mid ++ [.arrive c cmd])).setStage c .idle) = _
    rw [hmid]
    exact setStage_self hidle'

/-!
# Freeing clients
-/

theorem stage_connected (h : (w.clients c).status = .connected) : w.stage c ≠ .gone := by
  intro hgone
  unfold stage at hgone
  rw [if_pos h] at hgone
  split at hgone
  · cases hgone
  split at hgone
  · split at hgone
    · cases hgone
    · cases hgone
  · cases hgone

theorem freeClient_entry (w : World n) (t : ClientId) (p : Place n) :
    (w.freeClient t).entry p = w.entry p := by
  rcases freeClient_hub w t with hhub | hhub
  · exact entry_of_hub hhub (fun _ => by rw [freeClient_stack]) p
  refine entry_of_same ?_ ?_
  · rw [hhub]
    exact mem_release t _ p.2
  · rw [hhub, freeClient_stack]
    exact Iff.rfl

theorem freeClient_stage_other (w : World n) (hne : c ≠ t) :
    (w.freeClient t).stage c = w.stage c := by
  refine stage_of_same ?_ ?_ ?_
  · rw [freeClient_other w hne]
    exact sameParking_refl _
  · rw [freeClient_stack]
  · rw [freeClient_stack]

theorem setStage_present (L : Ledger ClientId (Place n) (Command n))
    (c : ClientId) : L.setStage c (L.stage c) = L := by
  refine Ledger.ext ?_ rfl
  exact update_eq_self c L.stage

theorem freeClient_ledger (w : World n) (t : ClientId) :
    exists obs, (w.freeClient t).trace = obs ++ w.trace ∧
      ((events obs = [] ∧ (w.freeClient t).ledger = w.ledger) ∨
        (events obs = [.leave t] ∧ (w.freeClient t).ledger = w.ledger.setStage t .gone)) := by
  have hother := setStage_eq (s := (w.freeClient t).stage t)
    (fun c hc => freeClient_stage_other w hc) (freeClient_entry w t)
  rw [show (w.freeClient t).stage t = (w.freeClient t).ledger.stage t from rfl,
    setStage_present] at hother
  rw [← hother]
  generalize hw' : w.freeClient t = w'
  cases freeClient_cases hw' with
  | marked _ =>
    refine ⟨[], rfl, Or.inl ⟨rfl, ?_⟩⟩
    have hstage : (w.setClient t { w.clients t with closing := true }).stage t = w.stage t := by
      refine stage_of_same ?_ rfl Iff.rfl
      rw [setClient_clients, update_self]
      exact ⟨rfl, rfl, rfl, fun _ => rfl⟩
    change w.ledger.setStage t (stage _ t) = _
    rw [hstage]
    exact setStage_present w.ledger t
  | cached _ _ | released _ _ =>
    refine ⟨[.freed t], rfl, Or.inr ⟨rfl, ?_⟩⟩
    change w.ledger.setStage t (stage _ t) = _
    rw [stage_gone (by simp)]

theorem progress_freeClient (hconn : (w.clients t).status = .connected) :
    Progress w (w.freeClient t) := by
  rcases freeClient_ledger w t with ⟨obs, htr, ⟨hobs, heq⟩ | ⟨hobs, heq⟩⟩
  · refine ⟨obs, htr, ?_, ?_⟩
    · rw [hobs]
      trivial
    · rw [hobs, heq]
      rfl
  · refine ⟨obs, htr, ?_, ?_⟩
    · rw [hobs]
      exact ⟨trivial, stage_connected hconn⟩
    · rw [hobs, heq]
      rfl

theorem events_append (obs older : List (Observation n)) :
    events (obs ++ older) = events obs ++ events older :=
  List.filterMap_append

theorem effect_ledger (heffect : Effect c victims w w') (s : Stage (Place n) (Command n)) :
    exists obs, w'.trace = obs ++ w.trace ∧
      (w.ledger.setStage c s).Accepts Command.Asks (events obs) ∧
      (w.ledger.setStage c s).after (events obs) = w'.ledger.setStage c s := by
  induction heffect with
  | refl => exact ⟨[], rfl, trivial, rfl⟩
  | call cmd caller d flags _ ih => exact ih
  | @session w1 cl _ _ ih =>
    rcases ih with ⟨obs, htr, haccepts, hafter⟩
    refine ⟨obs, htr, haccepts, hafter.trans (setStage_eq ?_ (fun _ => rfl))⟩
    intro t ht
    refine stage_of_same ?_ rfl Iff.rfl
    rw [setClient_clients, update_of_ne ht]
    exact sameParking_refl _
  | @free w1 t _ _ hne hconn ih =>
    rcases ih with ⟨obs, htr, haccepts, hafter⟩
    rcases freeClient_ledger w1 t with ⟨new, hnew, ⟨hevents, heq⟩ | ⟨hevents, heq⟩⟩
    · refine ⟨new ++ obs, by rw [hnew, htr, List.append_assoc], ?_, ?_⟩
      · rw [events_append, hevents]
        exact haccepts
      · rw [events_append, hevents, heq]
        exact hafter
    · refine ⟨new ++ obs, by rw [hnew, htr, List.append_assoc], ?_, ?_⟩
      · rw [events_append, hevents]
        refine ⟨haccepts, ?_⟩
        change ((w.ledger.setStage c s).after (events obs)).stage t ≠ .gone
        rw [hafter]
        change update w1.stage c s t ≠ .gone
        rw [update_of_ne hne]
        exact stage_connected hconn
      · rw [events_append, hevents, heq]
        change ((w.ledger.setStage c s).after (events obs)).setStage t .gone = _
        rw [hafter]
        exact Ledger.ext (update_comm hne.symm _ _ _) rfl

/-!
# New candidates
-/

section Entered

variable (hadmits : Admits (w.received c (.data dc) more)
    ((w.received c (.data dc) more).clients c) dc st a waiter pick ch)
  (hhub : w'.hub = (w.entered c dc more st a ch).hub)

include hadmits hhub

theorem entered_entry_other (hstack : w'.stack = w.stack)
    (hp : p ≠ (a.mode, ((w.clients c).db, a.key)) ∨ p.2 ∈ (w.hub p.1).candidates) :
    w'.entry p = w.entry p := by
  rw [entered_hub] at hhub
  by_cases hm : p.1 = a.mode
  · have henqueue := hadmits.enqueue
    rw [received_client] at henqueue
    rcases enqueue_spec henqueue with ⟨info, _, hcreate⟩
    have hch : w'.hub p.1 = ch := by rw [hhub, hm, update_self]
    refine entry_of_same ?_ ?_
    · rw [hch, hcreate.frame.left]
      change p.2 ∈ ((w.hub a.mode).candidates.insert _ info) <-> _
      rw [AList.mem_insert, hm]
      constructor
      · rintro (heq | hmem)
        · rcases hp with hne | hmem
          · exact absurd (Prod.ext hm heq) hne
          · rw [← hm]
            exact hmem
        · exact hmem
      · exact Or.inr
    · rw [hch, hstack, hcreate.executed, hm]
      exact Iff.rfl
  · exact entry_of_channel (by rw [hhub, update_of_ne hm]) (by rw [hstack])

theorem entered_mem : ((w.clients c).db, a.key) ∈ (w'.hub a.mode).candidates := by
  rcases (entered_enqueued hadmits hhub).entry with ⟨info, htable, _⟩
  rw [htable]
  exact AList.mem_insert _ |>.mpr (Or.inl rfl)

theorem entered_ledger (hsound : w.Sound a.mode) (hstack : w'.stack = w.stack)
    (f : ClientId -> Stage (Place n) (Command n)) :
    exists mid, (w.entered c dc more st a ch).trace =
        mid ++ (w.received c (.data dc) more).trace ∧
      Ledger.Accepts Command.Asks ⟨f, w.entry⟩ (events mid) ∧
      Ledger.after ⟨f, w.entry⟩ (events mid) = ⟨f, w'.entry⟩ := by
  rw [entered_trace]
  cases hlookup : (w.hub a.mode).candidates.lookup ((w.clients c).db, a.key) with
  | some info =>
    refine ⟨[], rfl, trivial, Ledger.ext rfl (funext fun p => ?_)⟩
    symm
    apply entered_entry_other hadmits hhub hstack
    by_cases hp : p = (a.mode, ((w.clients c).db, a.key))
    · right
      rw [hp]
      exact mem_of_lookup hlookup
    · exact Or.inl hp
  | none =>
    have hfresh : ((w.clients c).db, a.key) ∉ (w.hub a.mode).candidates :=
      AList.lookup_eq_none.mp hlookup
    refine ⟨[_], rfl, ⟨trivial, ?_⟩, Ledger.ext rfl (funext fun p => ?_)⟩
    · exact entry_none (p := (a.mode, ((w.clients c).db, a.key))) hfresh
    change update w.entry (a.mode, ((w.clients c).db, a.key)) (some false) p = w'.entry p
    by_cases hp : p = (a.mode, ((w.clients c).db, a.key))
    · subst hp
      rw [update_self]
      symm
      refine entry_pending (entered_mem hadmits hhub) ?_
      intro hexec
      rw [entered_hub] at hhub
      have henqueue := hadmits.enqueue
      rw [received_client] at henqueue
      rcases enqueue_spec henqueue with ⟨info, _, hcreate⟩
      rw [hhub, update_self, hstack, hcreate.executed] at hexec
      exact hfresh (hsound.channel.executed_mem hexec)
    · rw [update_of_ne hp]
      exact (entered_entry_other hadmits hhub hstack (Or.inl hp)).symm

end Entered

theorem progress_suspend (hsound : w.Sound a.mode) (hsusp : Suspension w) (hscripts : Scripts w)
    (htakes : Takes w c (.data dc) more rest) (hadmits : Admits (w.received c (.data dc) more)
      ((w.received c (.data dc) more).clients c) dc st a (some c) pick ch) :
    Progress w ((w.entered c dc more st a ch).suspended c dc a) := by
  generalize hw' : (w.entered c dc more st a ch).suspended c dc a = w'
  have hhub : w'.hub = (w.entered c dc more st a ch).hub := by
    rw [← hw']
    rfl
  have hstack : w'.stack = w.stack := by
    rw [← hw']
    exact entered_stack w c dc more st a ch
  have hself : w'.clients c =
      { w.clients c with
        querybuf := more, backendState := some a.mode, cmd := some dc } := by
    rw [← hw']
    simp only [suspended, log_clients, setClient_clients, update_self]
    rw [entered_clients, received_client]
  have hother : forall t, t ≠ c -> w'.stage t = w.stage t := by
    intro t ht
    refine stage_of_same ?_ (by rw [hstack]) (by rw [hstack])
    rw [← hw', suspended_other w c dc more st a ch ht]
    exact sameParking_refl _
  have htarget := checkCommand_target hadmits.check
  have hstage : w'.stage c = .waiting (a.mode, ((w.clients c).db, a.key)) (.data dc) := by
    rcases Ready.normal htakes.ready with ⟨hconn, hnormal⟩
    have hparked : Parked (w'.clients c) a.mode ((w.clients c).db, a.key) := by
      rw [hself]
      exact ⟨rfl, rfl, fun _ => ⟨dc, rfl, htarget⟩⟩
    rw [stage_parked (by rw [hself]; exact hconn)
      (by rw [hstack]; exact htakes.scriptless hscripts) hparked (by rw [hself]),
      hstack, if_neg (hsusp.free_of_normal hnormal).right]
  rcases entered_ledger hadmits hhub hsound hstack
    (update w.stage c (.busy (.data dc))) with
    ⟨mid, htr, haccepts, hafter⟩
  have htrace : w'.trace = (.suspend c a.mode (w.clients c).db a.key ::
        (mid ++ [.arrive c (.data dc) (w.heldBy (w.clients c) (.data dc))])) ++
        w.trace := by
    have hdb : ((w.entered c dc more st a ch).clients c).db = (w.clients c).db := by
      rw [entered_clients, received_client]
    rw [← hw']
    simp [suspended, htr, hdb, received]
  have hmid : w.ledger.after (events mid ++ [.arrive c (.data dc)]) =
      ⟨update w.stage c (.busy (.data dc)), w'.entry⟩ := by
    rw [Ledger.after_append]
    exact hafter
  have hevents : events (.suspend c a.mode (w.clients c).db a.key ::
      (mid ++ [.arrive c (.data dc) (w.heldBy (w.clients c) (.data dc))])) =
      .suspend c (a.mode, ((w.clients c).db, a.key)) :: (events mid ++ [.arrive c (.data dc)]) := by
    simp [events, Observation.event]
  refine ⟨_, htrace, ?_, ?_⟩
  · rw [hevents]
    refine ⟨Ledger.accepts_append ⟨trivial, htakes.idle hscripts⟩ haccepts, ?_⟩
    rw [hmid]
    refine ⟨entry_some (entered_mem hadmits hhub), .data dc, ?_, htarget⟩
    change update w.stage c (.busy (.data dc)) c = .busy (.data dc)
    rw [update_self]
  · rw [hevents]
    change (w.ledger.after (events mid ++ [.arrive c (.data dc)])).setStage c _ = _
    rw [hmid]
    refine Ledger.ext (funext fun t => ?_) rfl
    change update (update w.stage c (.busy (.data dc))) c
      (Stage.park _ (update w.stage c (.busy (.data dc)) c)) t = w'.stage t
    rw [update_self, update_idem]
    by_cases ht : t = c
    · rw [ht, update_self, hstage]
      rfl
    · rw [update_of_ne ht, hother t ht]

/-!
# Completions
-/

theorem progress_resume {w1 : World n} {k : Sds} {more : List ClientId} (hsusp : Suspension w)
    (hscripts : Scripts w) (hstack : w.stack = .clear m d k result (c :: more) :: rest)
    (hresume : w.resumeBackendClient m d k result c = .ok w1) :
    Progress w (w1.setStack (.input c :: .clear m d k result more :: rest)) := by
  rcases resume_frame hresume with ⟨dc, hfreed, hstate, hcmd, hw1⟩
  subst hw1
  have hcopied : Copied w.stack c m (d, k) := by
    rw [hstack]
    exact copied_cons.mpr (Or.inl ⟨List.mem_cons_self, rfl, rfl⟩)
  have hconn := hsusp.connected hfreed hcmd
  have hscript : scriptOf c w.stack = none := by
    by_contra hsome
    exact hstate (hscripts.normal c hsome)
  have hdue : w.stage c = .due (m, (d, k)) (.data dc) := by
    rw [stage_parked hconn hscript (hsusp.copied c m (d, k) hcopied) hcmd,
      if_pos (mem_copies.mpr ⟨m, (d, k), hcopied⟩)]
  generalize hw' : (setStack _ (.input c :: .clear m d k result more :: rest)) = w'
  have hstack' : w'.stack = .input c :: .clear m d k result more :: rest := by
    rw [← hw']
    rfl
  have hidle : w'.stage c = .idle := by
    apply stage_idle
    · rw [← hw', setStack_clients, serveData_clients, update_self]
      simpa using hconn
    · rw [hstack']
      rw [hstack] at hscript
      exact hscript
    · rw [← hw', setStack_clients, serveData_clients, update_self]
      simp
  have hother : forall t, t ≠ c -> w'.stage t = w.stage t := by
    intro t ht
    refine stage_of_same ?_ ?_ ?_
    · rw [← hw', setStack_clients, serveData_clients, update_of_ne ht]
      simp only [log_clients, setClient_clients, update_of_ne ht]
      exact sameParking_refl _
    · rw [hstack', hstack]
      rfl
    · rw [hstack', hstack]
      simp [ht]
  have hentry : forall p, w'.entry p = w.entry p := by
    refine entry_of_hub (by rw [← hw']; rfl) ?_
    rw [hstack', hstack]
    exact fun _ => rfl
  have htrace : exists r, w'.trace = [.reply c (.data dc) r, .resume c m d k] ++ w.trace := by
    rw [← hw']
    exact ⟨_, rfl⟩
  rcases htrace with ⟨r, htrace⟩
  refine ⟨_, htrace, ⟨⟨trivial, .data dc, hdue⟩, ?_⟩, ?_⟩
  · change update w.stage c (w.stage c).unpark c = .busy (.data dc)
    rw [update_self, hdue]
    rfl
  · change ((w.ledger.setStage c (w.stage c).unpark).setStage c .idle) = w'.ledger
    rw [setStage_eq hother hentry]
    exact setStage_self hidle

theorem stage_handler {info : BackendInfo} (hsusp : Suspension w)
    (hlookup : (w.hub m).candidates.lookup dk = some info)
    (hstack : w'.stack = .clear m dk.1 dk.2 result info.clients :: w.stack)
    (hclients : w'.clients = w.clients) (c : ClientId) :
    (w.stage c).release (m, dk) = w'.stage c := by
  have hscript : scriptOf c w'.stack = scriptOf c w.stack := by
    rw [hstack]
    rfl
  by_cases hconn : (w.clients c).status = .connected
  · cases hbody : scriptOf c w.stack with
    | some body =>
      rw [stage_script hconn hbody,
        stage_script (by rw [hclients]; exact hconn) (hscript.trans hbody)]
      rfl
    | none =>
      cases hstate : (w.clients c).backendState with
      | none =>
        rw [stage_idle hconn hbody hstate,
          stage_idle (by rw [hclients]; exact hconn) (hscript.trans hbody)
            (by rw [hclients]; exact hstate)]
        rfl
      | some m' =>
        rcases hsusp.covered c m' hconn hstate with ⟨dk', hplace⟩
        have hparked : Parked (w.clients c) m' dk' := by
          rcases hplace with hwaits | hcopied
          · exact hsusp.waits c m' dk' hwaits
          · exact hsusp.copied c m' dk' hcopied
        rcases hparked.cmd hconn with ⟨dc, hcmd, _⟩
        rw [stage_parked hconn hbody hparked hcmd,
          stage_parked (w := w') (by rw [hclients]; exact hconn)
            (hscript.trans hbody) (by rw [hclients]; exact hparked)
            (by rw [hclients]; exact hcmd), hstack, copies_clear]
        by_cases hcopy : c ∈ copies w.stack
        · rw [if_pos hcopy, if_pos (List.mem_append_right _ hcopy)]
          rfl
        rw [if_neg hcopy]
        have hwaits : Waits w c m' dk' := by
          rcases hplace with hwaits | hcopied
          · exact hwaits
          · exact absurd (mem_copies.mpr ⟨m', dk', hcopied⟩) hcopy
        by_cases hhere : (m', dk') = (m, dk)
        · cases hhere
          rcases hwaits with ⟨info', hlookup', hmem⟩
          rw [hlookup] at hlookup'
          cases hlookup'
          rw [if_pos (List.mem_append_left _ hmem)]
          simp [Stage.release]
        · rw [if_neg]
          · simp [Stage.release, hhere]
          intro hmem
          rcases List.mem_append.mp hmem with hmem | hmem
          · rcases hsusp.unique c m' dk' m dk hwaits ⟨info, hlookup, hmem⟩ with ⟨hm, hdk⟩
            exact hhere (Prod.ext hm hdk)
          · exact hcopy hmem
  · rw [stage_gone hconn, stage_gone (by rw [hclients]; exact hconn)]
    rfl

theorem progress_handler {key : KeyPtr} {info : BackendInfo} (hsound : w.Sound m)
    (hsusp : Suspension w) (hidle : phaseOf m w.stack = .idle) (hd : (w.hub m).job.dbid = some d)
    (hret : (w.hub m).job.returnKey = some key)
    (hlookup : (w.hub m).candidates.lookup (d, key.bytes) = some info)
    (hhub : w'.hub = update w.hub m
      { w.hub m with candidates := (w.hub m).candidates.erase (d, key.bytes) })
    (hstack : w'.stack = .clear m d key.bytes result info.clients :: w.stack)
    (hclients : w'.clients = w.clients)
    (htrace : w'.trace = .complete m d key.bytes key.addr :: w.trace) : Progress w w' := by
  have hworker := idle_worker hsound.channel (by simp [hret])
  have hreturned : (w.hub m).job.returned = some (d, key) := Job.returned_eq_some.mpr ⟨hd, hret⟩
  have hentry : w.entry (m, (d, key.bytes)) = some true := by
    refine entry_executed (mem_of_lookup hlookup) (Or.inr ⟨?_, _, hreturned, rfl⟩)
    rw [hidle]
    exact HandOff.Phase.noConfusion
  refine ⟨[_], htrace, ⟨trivial, hentry⟩, ?_⟩
  refine Ledger.ext (funext fun c => ?_) (funext fun p => ?_)
  · exact stage_handler hsusp hlookup hstack hclients c
  change update w.entry (m, (d, key.bytes)) none p = w'.entry p
  by_cases hp : p = (m, (d, key.bytes))
  · subst hp
    rw [update_self, entry_none]
    rw [hhub, update_self]
    simp
  · rw [update_of_ne hp]
    symm
    by_cases hm : p.1 = m
    · have hne : p.2 ≠ (d, key.bytes) := by
        intro heq
        exact hp (Prod.ext hm heq)
      have hch : w'.hub p.1 = { w.hub m with
          candidates := (w.hub m).candidates.erase (d, key.bytes) } := by
        rw [hhub, hm, update_self]
      refine entry_of_same ?_ (iff_of_false ?_ ?_)
      · rw [hch, hm]
        simp [hne]
      · rw [hch, hstack]
        exact not_executed hworker (Or.inl (by simp [phaseOf, hm]))
      · rw [hm]
        rintro (⟨j, hj, _⟩ | ⟨_, j, hj, hkey⟩)
        · exact hworker j hj
        · rw [hreturned] at hj
          cases hj
          exact hne hkey.symm
    · refine entry_of_channel (by rw [hhub, update_of_ne hm]) ?_
      rw [hstack]
      simp [phaseOf, Ne.symm hm]

/-!
# One move
-/

theorem stages_same (hstack : w'.stack = w.stack)
    (hclients : forall c, SameParking (w.clients c) (w'.clients c)) (c : ClientId) :
    w'.stage c = w.stage c :=
  stage_of_same (hclients c) (by rw [hstack]) (by rw [hstack])

theorem progress_channel (hclients : w'.clients = w.clients)
    (hscripts : forall c, scriptOf c w'.stack = scriptOf c w.stack)
    (hcopies : copies w'.stack = copies w.stack)
    (hother : forall m', m' ≠ m -> w'.hub m' = w.hub m' ∧ phaseOf m' w'.stack = phaseOf m' w.stack)
    (hmem : forall dk, dk ∈ (w'.hub m).candidates <-> dk ∈ (w.hub m).candidates)
    (hexec : forall dk, (w'.hub m).Executed (phaseOf m w'.stack) dk <->
      (w.hub m).Executed (phaseOf m w.stack) dk) (htrace : w'.trace = obs ++ w.trace)
    (hobs : events obs = []) : Progress w w' := by
  refine progress_silent htrace hobs ?_ ?_
  · intro c
    refine stage_of_same ?_ (hscripts c) (by rw [hcopies])
    rw [hclients]
    exact sameParking_refl _
  · rintro ⟨m', dk⟩
    by_cases hm : m' = m
    · subst hm
      exact entry_of_same (hmem dk) (hexec dk)
    rcases hother m' hm with ⟨hhub, hphase⟩
    exact entry_of_channel hhub hphase

theorem progress_execute {key : KeyPtr} {val : Option Sds} (hsound : w.Sound m)
    (hworker : (w.hub m).worker = .running d key)
    (hhub : w'.hub = update w.hub m { w.hub m with worker := .executed d key val result })
    (hstack : w'.stack = w.stack) (hclients : w'.clients = w.clients)
    (htrace : w'.trace = .executed m d key.bytes val result :: w.trace) : Progress w w' := by
  rcases hsound.channel.working (j := (d, key)) (Or.inl (by rw [hworker]; rfl)) with
    ⟨_, _, hret, hmem, _⟩
  have hnone : forall dk, Not ((w.hub m).Executed (phaseOf m w.stack) dk) := by
    intro dk
    refine not_executed ?_ (Or.inr (returned_of_none hret))
    intro j hj
    rw [hworker] at hj
    cases hj
  have hch : w'.hub m = { w.hub m with worker := .executed d key val result } := by
    rw [hhub, update_self]
  refine ⟨[_], htrace, ⟨trivial, entry_pending hmem (hnone _)⟩, ?_⟩
  refine Ledger.ext (funext fun c => ?_) (funext fun p => ?_)
  · refine (stages_same hstack ?_ c).symm
    intro c
    rw [hclients]
    exact sameParking_refl _
  · change update w.entry (m, (d, key.bytes)) (some true) p = w'.entry p
    by_cases hp : p = (m, (d, key.bytes))
    · subst hp
      rw [update_self, entry_executed]
      · rw [hch]
        exact hmem
      · rw [hch]
        exact Or.inl ⟨(d, key), rfl, rfl⟩
    · rw [update_of_ne hp]
      symm
      rcases p with ⟨m', dk⟩
      by_cases hm : m' = m
      · subst hm
        refine entry_of_same (by rw [hch]) (iff_of_false ?_ (hnone dk))
        rw [hch]
        rintro (⟨j, hj, hkey⟩ | ⟨_, j, hj, _⟩)
        · cases hj
          exact hp (Prod.ext rfl hkey.symm)
        · rw [show (w.hub m').job.returned = none from returned_of_none hret] at hj
          cases hj
      · have hsame : w'.hub m' = w.hub m' := by rw [hhub, update_of_ne hm]
        exact entry_of_channel hsame (by rw [hstack])

theorem progress_scriptStart (hscripts : Scripts w)
    (htakes : Takes w c (.simple (.eval body)) more rest) :
    Progress w ((w.received c (.simple (.eval body)) more).setStack
      (.script c body body :: w.stack)) := by
  generalize hw' : (w.received c (.simple (.eval body)) more).setStack
    (.script c body body :: w.stack) = w'
  have hstack : w'.stack = .script c body body :: w.stack := by
    rw [← hw']
    rfl
  have hclients : forall t, SameParking (w.clients t) (w'.clients t) := by
    intro t
    rw [← hw']
    exact sameParking_received w c (.simple (.eval body)) more t
  have hself : w'.stage c = .busy (.simple (.eval body)) := by
    apply stage_script
    · rw [(hclients c).status]
      exact (Ready.normal htakes.ready).left
    · rw [hstack]
      simp [scriptOf]
  have hother : forall t, t ≠ c -> w'.stage t = w.stage t := by
    intro t ht
    refine stage_of_same (hclients t) ?_ ?_
    · rw [hstack]
      simp [scriptOf, Ne.symm ht]
    · rw [hstack]
      rfl
  have hentry : forall p, w'.entry p = w.entry p := by
    refine entry_of_hub (by rw [← hw']; rfl) ?_
    rw [hstack]
    exact fun _ => rfl
  refine ⟨[.arrive c _ _], by rw [← hw']; rfl, ⟨trivial, htakes.idle hscripts⟩, ?_⟩
  change w.ledger.setStage c (.busy (.simple (.eval body))) = _
  rw [setStage_eq hother hentry, ← hself]
  exact setStage_present w'.ledger c

theorem progress_scriptEnd (hscripts : Scripts w) (hstack : w.stack = .script c body [] :: rest)
    (hstack' : w'.stack = rest) (hhub : w'.hub = w.hub) (hclients : w'.clients = w.clients)
    (htrace : w'.trace = .reply c (.simple (.eval body)) r :: w.trace) : Progress w w' := by
  have hbody : scriptOf c w.stack = some body := by
    rw [hstack]
    simp [scriptOf]
  have hsome : scriptOf c w.stack ≠ none := by simp [hbody]
  have hconn := hscripts.connected c hsome
  have hnested := hscripts.nested
  rw [hstack] at hnested
  have hidle : w'.stage c = .idle := by
    apply stage_idle
    · rw [hclients]
      exact hconn
    · rw [hstack']
      exact hnested.left
    · rw [hclients]
      exact hscripts.normal c hsome
  have hother : forall t, t ≠ c -> w'.stage t = w.stage t := by
    intro t ht
    refine stage_of_same ?_ ?_ ?_
    · rw [hclients]
      exact sameParking_refl _
    · rw [hstack', hstack]
      simp [scriptOf, Ne.symm ht]
    · rw [hstack', hstack]
      rfl
  have hentry : forall p, w'.entry p = w.entry p := by
    refine entry_of_hub hhub ?_
    rw [hstack', hstack]
    exact fun _ => rfl
  refine ⟨[_], htrace, ⟨trivial, stage_script hconn hbody⟩, ?_⟩
  change w.ledger.setStage c .idle = _
  rw [setStage_eq hother hentry, ← hidle]
  exact setStage_present w'.ledger c

theorem progress_answer {held : Option Sds} (hidle : w.stage c = .idle) (hhub : w'.hub = w.hub)
    (hstack : w'.stack = w.stack) (hclients : forall t, SameParking (w.clients t) (w'.clients t))
    (htrace : w'.trace = .reply c cmd r :: .arrive c cmd held :: w.trace) : Progress w w' := by
  have hstage := stages_same hstack hclients
  have htrace' : w'.trace = .reply c cmd r :: ([] ++ .arrive c cmd held :: w.trace) := htrace
  refine progress_exchange htrace' hidle ((hstage c).trans hidle) trivial ?_
  exact setStage_eq (fun t _ => hstage t) (entry_of_hub hhub fun _ => by rw [hstack])

theorem effect_status (heffect : Effect c victims w w') :
    (w'.clients c).status = (w.clients c).status := by
  induction heffect with
  | refl => rfl
  | call cmd caller d flags _ ih => exact ih
  | session cl _ hsame ih =>
    rw [setClient_clients, update_self, hsame.status]
    exact ih
  | free t _ _ hne _ ih =>
    rw [freeClient_other _ (Ne.symm hne)]
    exact ih

theorem progress_control {w1 : World n} (hscripts : Scripts w) (htakes : Takes w c cmd more rest)
    (heffect : Effect c victims (w.received c cmd more) w1) :
    Progress w (w1.log (.reply c cmd r)) := by
  have hledger : (w.received c cmd more).ledger = w.ledger :=
    Ledger.ext (funext (stages_same rfl (sameParking_received w c cmd more))) rfl
  rcases effect_ledger heffect (.busy cmd) with ⟨mid, htr, haccepts, hafter⟩
  rw [hledger] at haccepts hafter
  rcases Ready.normal htakes.ready with ⟨hconn, hnormal⟩
  have hidle : (w1.log (.reply c cmd r)).stage c = .idle := by
    apply stage_idle
    · rw [log_clients, effect_status heffect, received_client]
      exact hconn
    · rw [log_stack, (effect_hubs heffect).left]
      exact htakes.scriptless hscripts
    · rw [log_clients, effect_state heffect c, received_client]
      exact hnormal
  have htrace : (w1.log (.reply c cmd r)).trace = .reply c cmd r ::
      (mid ++ .arrive c cmd (w.heldBy (w.clients c) cmd) :: w.trace) := by
    rw [log_trace, htr]
    rfl
  exact progress_exchange htrace (htakes.idle hscripts) hidle haccepts hafter

theorem progress_async (hsound : w.Sound a.mode) (hscripts : Scripts w)
    (htakes : Takes w c (.data dc) more rest) (hadmits : Admits (w.received c (.data dc) more)
      ((w.received c (.data dc) more).clients c) dc st a none pick ch) :
    Progress w ((w.entered c dc more st a ch).serveData c dc) := by
  have hstack : ((w.entered c dc more st a ch).serveData c dc).stack = w.stack := by
    rw [serveData_stack]
    exact entered_stack w c dc more st a ch
  have hstage := stages_same hstack (fun t => by
    have hserve := sameParking_serveData (w.entered c dc more st a ch) c dc t
    rw [entered_clients] at hserve
    exact (sameParking_received w c (.data dc) more t).trans hserve)
  have hidle := htakes.idle hscripts
  generalize hw' : (w.entered c dc more st a ch).serveData c dc = w' at *
  have hhub : w'.hub = (w.entered c dc more st a ch).hub := by
    rw [← hw']
    rfl
  rcases entered_ledger hadmits hhub hsound hstack
    (update w.stage c (.busy (.data dc))) with
    ⟨mid, htr, haccepts, hafter⟩
  have htrace : exists r, w'.trace = .reply c (.data dc) r ::
      (mid ++ .arrive c (.data dc) (w.heldBy (w.clients c) (.data dc)) :: w.trace) := by
    refine ⟨((w.entered c dc more st a ch).callData c dc).2, ?_⟩
    rw [← hw']
    change _ :: (w.entered c dc more st a ch).trace = _
    rw [htr]
    rfl
  rcases htrace with ⟨r, htrace⟩
  refine progress_exchange htrace hidle ((hstage c).trans hidle) haccepts (hafter.trans ?_)
  refine Ledger.ext ?_ rfl
  change update w.stage c _ = update w'.stage c _
  rw [show w'.stage = w.stage from funext hstage]

theorem progress_nesting (hhub : w'.hub = w.hub)
    (hclients : forall c, SameParking (w.clients c) (w'.clients c))
    (hscripts : forall c, scriptOf c w'.stack = scriptOf c w.stack)
    (hcopies : copies w'.stack = copies w.stack)
    (hphase : forall m, phaseOf m w'.stack = phaseOf m w.stack) (htrace : w'.trace = w.trace) :
    Progress w w' := by
  have htrace' : w'.trace = [] ++ w.trace := htrace
  refine progress_silent htrace' rfl ?_ ?_
  · intro c
    exact stage_of_same (hclients c) (hscripts c) (by rw [hcopies])
  · exact entry_of_hub hhub hphase

theorem move_progress (hmove : Move l w w') (honce : forall m, RunsToCompletion m l w)
    (hsound : forall m, w.Sound m) (hsusp : Suspension w) (hscripts : Scripts w) :
    Progress w w' := by
  have hnested : forall w' : World n, w'.hub = w.hub -> w'.clients = w.clients ->
      w'.trace = w.trace -> (forall c, scriptOf c w'.stack = scriptOf c w.stack) ->
      copies w'.stack = copies w.stack -> (forall m, phaseOf m w'.stack = phaseOf m w.stack) ->
      Progress w w' := by
    intro w' hhub hclients htrace hscripts hcopies hphase
    refine progress_nesting hhub ?_ hscripts hcopies hphase htrace
    intro c
    rw [hclients]
    exact sameParking_refl _
  have hsilent : forall w' : World n, w'.hub = w.hub -> w'.clients = w.clients ->
      w'.stack = w.stack -> w'.trace = w.trace -> Progress w w' := by
    intro w' hhub hclients hstack htrace
    refine hnested _ hhub hclients htrace ?_ ?_ ?_
    · rw [hstack]
      exact fun _ => rfl
    · rw [hstack]
    · rw [hstack]
      exact fun _ => rfl
  have hwork : forall (w' : World n) (m : Mode) (obs : List (Observation n)),
      w'.clients = w.clients -> w'.stack = w.stack -> (forall m', m' ≠ m -> w'.hub m' = w.hub m') ->
      (forall dk, dk ∈ (w'.hub m).candidates <-> dk ∈ (w.hub m).candidates) ->
      (forall dk, (w'.hub m).Executed (phaseOf m w.stack) dk <->
        (w.hub m).Executed (phaseOf m w.stack) dk) ->
      w'.trace = obs ++ w.trace -> events obs = [] -> Progress w w' := by
    intro w' m obs hclients hstack hother hmem hexec htrace hobs
    refine progress_channel hclients ?_ ?_ ?_ hmem ?_ htrace hobs
    · rw [hstack]
      exact fun _ => rfl
    · rw [hstack]
    · rw [hstack]
      exact fun m' hm => ⟨hother m' hm, rfl⟩
    · rw [hstack]
      exact hexec
  cases hmove with
  | leave hstack _ =>
    exact hnested _ rfl rfl rfl (by rw [hstack]; exact fun _ => rfl) (by rw [hstack]; rfl)
      (by rw [hstack]; exact fun _ => rfl)
  | @refuse _ _ _ c cmd more _ cl r htakes hsame hservice _ =>
    refine progress_answer (htakes.idle hscripts) rfl rfl ?_ rfl
    intro t
    refine (sameParking_received w c cmd more t).trans ?_
    refine sameParking_update _ ?_ t
    refine ⟨hsame.backendState, hsame.cmd, hsame.status, fun _ => ?_⟩
    rw [hservice.db, received_client]
  | control r htakes _ heffect => exact progress_control hscripts htakes heffect
  | @direct _ _ _ c dc more _ st htakes _ _ =>
    refine progress_answer (htakes.idle hscripts) rfl rfl ?_ rfl
    intro t
    exact (sameParking_received w c (.data dc) more t).trans
      (sameParking_serveData ((w.received c (.data dc) more).setStore st) c dc t)
  | suspend st a ch htakes _ _ hadmits =>
    exact progress_suspend (hsound a.mode) hsusp hscripts htakes hadmits
  | async st a ch htakes _ _ hadmits =>
    exact progress_async (hsound a.mode) hscripts htakes hadmits
  | scriptStart htakes _ => exact progress_scriptStart hscripts htakes
  | @scriptCall _ _ _ c cmd body more rest hstack =>
    rw [callFromScript_frame]
    exact hnested _ rfl rfl rfl (by rw [hstack]; exact fun _ => rfl) (by rw [hstack]; rfl)
      (by rw [hstack]; exact fun _ => rfl)
  | scriptEnd hstack =>
    exact progress_scriptEnd hscripts hstack rfl rfl rfl rfl
  | resume hstack hresume => exact progress_resume hsusp hscripts hstack hresume
  | @finish _ _ _ m d k result rest ch hstack hclear =>
    have hcreate := clearJob_spec hclear
    have hsoundm := (hsound m).channel
    have hphase : phaseOf m w.stack = .clearing := by
      rw [hstack]
      simp [phaseOf]
    rw [hphase] at hsoundm
    refine progress_channel (m := m) rfl ?_ ?_ ?_ ?_ ?_ (show _ = [] ++ w.trace from rfl) rfl
    · rw [hstack]
      exact fun _ => rfl
    · rw [hstack]
      rfl
    · intro m' hm
      refine ⟨by simp [hm], ?_⟩
      rw [hstack]
      simp [phaseOf, Ne.symm hm]
    · intro dk
      rw [setStack_hub, setChannel_hub, update_self, hcreate.frame.left]
    · intro dk
      refine iff_of_false ?_ ?_
      · rw [setStack_hub, setChannel_hub, update_self, hcreate.executed]
        refine not_executed ?_ (Or.inr rfl)
        intro j hj
        exact (hsoundm.working (Or.inr hj)).2.2.2.2 rfl
      · rw [hphase]
        exact hsoundm.not_executed_clearing
  | @drain _ _ _ m rest hstack hpipe =>
    have hsingle := (hsound m).single
    rw [hstack] at hsingle
    refine progress_channel (m := m) rfl ?_ ?_ ?_ ?_ ?_ (show _ = [] ++ w.trace from rfl) rfl
    · rw [hstack]
      exact fun _ => rfl
    · rw [hstack]
      rfl
    · intro m' hm
      refine ⟨by simp [hm], ?_⟩
      rw [hstack]
      simp [phaseOf, Ne.symm hm]
    · simp
    · intro dk
      refine executed_congr (by simp) (by simp) ?_
      rw [hstack, setStack_stack, hsingle.left rfl]
      simp [phaseOf]
  | recv c cmds _ _ _ =>
    refine progress_nesting rfl ?_ (fun _ => rfl) rfl (fun _ => rfl) rfl
    intro t
    refine sameParking_update _ ?_ t
    exact ⟨rfl, rfl, rfl, fun _ => rfl⟩
  | handler m f st ch clients haccepts _ hread _ htake =>
    rcases readFinished_spec hread with ⟨hd, _, hret, _, _, _⟩
    rcases takeWaiters_spec htake with ⟨info, hlookup, hclients, hch⟩
    subst hch
    subst hclients
    exact progress_handler (hsound m) hsusp (honce m rfl haccepts) hd hret hlookup rfl rfl rfl rfl
  | free c _ hconn => exact progress_freeClient hconn
  | take m ok ch hworker htake =>
    have hch : ch.candidates = (w.hub m).candidates ∧ ch.job = (w.hub m).job ∧
        forall j, ch.worker.protocol ≠ .executed j := by
      rcases getJobInWorkingThread_spec htake with hch | ⟨_, _, _, _, _, hch⟩
      · rw [hch, hworker]
        exact ⟨rfl, rfl, fun _ hj => by cases hj⟩
      · rw [hch]
        exact ⟨rfl, rfl, fun _ hj => by cases hj⟩
    refine hwork _ m [] rfl rfl ?_ ?_ ?_ rfl rfl
    · intro m' hm
      simp [hm]
    · simp [hch.left]
    · intro dk
      rw [setChannel_hub, update_self]
      refine executed_congr ?_ (by rw [hch.right.left]) Iff.rfl
      intro j
      refine iff_of_false (hch.right.right j) ?_
      rw [hworker]
      exact fun hj => by cases hj
  | execute m ok d key backend val result hworker _ =>
    exact progress_execute (hsound m) hworker rfl rfl rfl rfl
  | post m ok d key val result ch hworker hpost =>
    rcases postResult_spec hpost with ⟨hkey, hret, hch⟩
    subst hch
    rcases (hsound m).channel.working (j := (d, key))
      (Or.inr (by rw [hworker]; rfl)) with ⟨hd, _, _, _, hphase⟩
    rcases Job.post_fields m key val result (w.hub m).job with ⟨hd', _, hret'⟩
    refine hwork _ m [_] rfl rfl ?_ ?_ ?_ rfl rfl
    · intro m' hm
      simp [hm]
    · simp
    · intro dk
      rw [log_hub, setChannel_hub, update_self]
      constructor
      · rintro (⟨j, hj, _⟩ | ⟨_, j, hj, hkey'⟩)
        · cases hj
        left
        rw [Job.returned_eq_some.mpr ⟨hd'.trans hd, hret'⟩] at hj
        cases hj
        exact ⟨(d, key), by rw [hworker]; rfl, hkey'⟩
      · rintro (⟨j, hj, hkey'⟩ | ⟨_, j, hj, _⟩)
        · right
          rw [hworker] at hj
          cases hj
          exact ⟨hphase, (d, key), Job.returned_eq_some.mpr ⟨hd'.trans hd, hret'⟩, hkey'⟩
        · rw [returned_of_none hret] at hj
          cases hj
  | signal m ok hworker =>
    refine hwork _ m [] rfl rfl ?_ ?_ ?_ rfl rfl
    · intro m' hm
      simp [hm]
    · simp
    · intro dk
      rw [setChannel_hub, update_self]
      refine executed_congr ?_ rfl Iff.rfl
      intro j
      rw [hworker]
      exact iff_of_false (fun hj => by cases hj) (fun hj => by cases hj)
  | timeout =>
    rw [timeoutStep_frame]
    exact hsilent _ rfl rfl rfl rfl
  | _ => exact hsilent _ rfl rfl rfl rfl

/-!
# Runs
-/

structure Audited (w : World n) : Prop where
  sound : forall m, w.Sound m
  suspension : Suspension w
  scripts : Scripts w
  accepts : Ledger.start.Accepts Command.Asks (events w.trace)
  ledger : Ledger.start.after (events w.trace) = w.ledger

theorem audited_start (cfg : Config) (backend : Sds -> Option Sds) (db : Fin n)
    (master : Option ClientId) : Audited (start cfg backend db master) where
  sound := sound_start cfg backend db master
  suspension := suspension_start cfg backend db master
  scripts := ⟨trivial, fun _ h => absurd rfl h, fun _ h => absurd rfl h⟩
  accepts := trivial
  ledger := by
    refine Ledger.ext (funext fun c => ?_) (funext fun p => ?_)
    · exact (stage_idle (w := start cfg backend db master) (c := c) rfl rfl rfl).symm
    · exact (entry_none (w := start cfg backend db master) (p := p) (AList.notMem_empty _)).symm

theorem move_audited (hmove : Move l w w') (honce : forall m, RunsToCompletion m l w)
    (h : Audited w) : Audited w' := by
  rcases move_progress hmove honce h.sound h.suspension h.scripts with
    ⟨obs, htrace, haccepts, hafter⟩
  constructor
  · exact fun m => move_sound hmove (honce m) (h.sound m)
  · exact move_suspension hmove h.suspension
  · exact move_scripts hmove h.scripts
  · rw [htrace, events_append]
    refine Ledger.accepts_append h.accepts ?_
    rw [h.ledger]
    exact haccepts
  · rw [htrace, events_append, Ledger.after_append, h.ledger]
    exact hafter

structure ListedOnce (w : World n) (c : ClientId) (m : Mode) (dk : Fin n × Sds) : Prop where
  once : exists info, (w.hub m).candidates.lookup dk = some info ∧
    info.clients.count c = 1
  only : forall m' dk', Waits w c m' dk' -> m' = m ∧ dk' = dk
  parked : Parked (w.clients c) m dk

theorem listedOnce_of_waits (h : Suspension w) (hwaits : Waits w c m dk) : ListedOnce w c m dk := by
  constructor
  · rcases hwaits with ⟨info, hlookup, hmem⟩
    exact ⟨info, hlookup, List.count_eq_one_of_mem (h.nodup m dk info hlookup) hmem⟩
  · intro m' dk' hwaits'
    exact h.unique c m' dk' m dk hwaits' hwaits
  · exact h.waits c m dk hwaits

theorem suspended_iff_listed (h : Suspension w) (hstack : w.stack = [])
    (hconn : (w.clients c).status = .connected) :
    (w.clients c).backendState ≠ none <-> exists m dk, ListedOnce w c m dk := by
  constructor
  · intro hstate
    rcases Option.ne_none_iff_exists'.mp hstate with ⟨m, hm⟩
    rcases h.covered c m hconn hm with ⟨dk, hwaits | ⟨_, _, hmem, _⟩⟩
    · exact ⟨m, dk, listedOnce_of_waits h hwaits⟩
    · rw [hstack] at hmem
      cases hmem
  · rintro ⟨m, dk, hlisted⟩
    rw [hlisted.parked.state]
    exact Option.some_ne_none m

theorem stage_not_due (hstack : w.stack = []) (c : ClientId) (p : Place n) (cmd : Command n) :
    w.stage c ≠ .due p cmd := by
  intro hdue
  unfold stage at hdue
  rw [hstack] at hdue
  split at hdue
  · dsimp only [scriptOf] at hdue
    split at hdue
    · rw [if_neg (by simp [copies])] at hdue
      cases hdue
    · cases hdue
  · cases hdue

/-- If handlers run to completion, then between events the suspended clients are
those of the waiting lists; every suspension ends with one resumption, at the
completion of the one operation of its entry; and the replies to a client are
its requests in order, but for the one in progress. -/
theorem suspensions_resumed_once (cfg : Config) (backend : Sds -> Option Sds)
    (db : Fin n) (master : Option ClientId) (labels : List (Label n))
    (hall : AllSteps World.step HandlersRunToCompletion labels
      (World.start cfg backend db master)) (w : World n)
    (hrun : runSteps World.step labels (World.start cfg backend db master) =
      .ok w) :
    (w.stack = [] -> forall c, (w.clients c).status = .connected ->
        (w.clients c).master = false ->
        ((w.clients c).backendState ≠ none <->
          exists m dk, ListedOnce w c m dk)) ∧
      Ledger.start.Accepts Command.Asks (events w.trace) ∧
      (w.stack = [] -> forall c p cmd,
        (Ledger.start.after (events w.trace)).stage c ≠ .due p cmd) ∧
      (forall c, exists owed, owed.length ≤ 1 ∧
        Ledger.requests c (events w.trace) =
          owed ++ Ledger.replies c (events w.trace)) := by
  have h : Audited w := runSteps_invariant
    (fun _ _ _ hI honce hstep => move_audited (step_move hstep) honce.mode hI)
    (audited_start cfg backend db master) hall hrun
  refine ⟨?_, h.accepts, ?_, ?_⟩
  · intro hstack c hconn _
    exact suspended_iff_listed h.suspension hstack hconn
  · intro hstack c p cmd
    rw [h.ledger]
    exact stage_not_due hstack c p cmd
  · intro c
    rcases Ledger.requests_eq_replies h.accepts c with ⟨owed, howes, heq⟩
    exact ⟨owed, Stage.owes_length howes, heq⟩

def pairRun : List (Label 1) :=
  [.external (.recv 0 [.data (.get [107]), .data (.get [108])]),
   .main 0 false, .main 0 false,
   .external (.recv 1 [.data (.get [107])]), .main 0 false, .main 0 false,
   .work .get true, .work .get true, .work .get true, .work .get true,
   .external (.pipe .get), .main 0 false, .main 0 false, .main 0 false,
   .main 0 false, .main 0 false, .main 0 false, .main 0 false]

theorem suspensions_resumed_once_pair :
    exists w, runSteps World.step pairRun
        (World.start Config.synchronous (fun _ => some [118]) 0 none) = .ok w ∧
      w.stack = [] ∧ (w.clients 0).backendState = some .get ∧
      (w.clients 1).backendState = none ∧
      (exists m dk, ListedOnce w 0 m dk) ∧
      Ledger.start.Accepts Command.Asks (events w.trace) := by
  refine ⟨_, rfl, rfl, rfl, rfl, ?_⟩
  have h := suspensions_resumed_once Config.synchronous (fun _ => some [118]) 0 none
    pairRun (allSteps_of_check (by decide +kernel)) _ rfl
  exact ⟨(h.left rfl 0 rfl rfl).mp (by decide), h.right.left⟩

/-- The first client, resumed, drops the key with a DEL of two keys and asks for
it again; the second one, resumed next, runs a slow script. -/
def staleRun : List (Label 1) :=
  [.external (.recv 0
     [.data (.get [107]), .data (.del [107] [[108]]), .data (.get [107])]),
   .main 0 false, .main 0 false,
   .external (.recv 1 [.data (.get [107]), .simple (.eval [])]),
   .main 0 false, .main 0 false,
   .work .get true, .work .get true, .work .get true, .work .get true,
   .external (.pipe .get), .main 0 false, .main 0 false, .main 0 false,
   .main 0 false, .main 0 false, .main 0 false, .timeout,
   .external (.pipe .get), .main 0 false]

/-- The nested handler completes the new entry of the key with the old result:
the first client is resumed twice for one backend operation. -/
theorem resumed_without_operation :
    exists w, runSteps World.step staleRun
        (World.start Config.synchronous (fun _ => some [118]) 0 none) = .ok w ∧
      completions .get w.trace = [0, 0] ∧
      Not (Ledger.start.Accepts Command.Asks (events w.trace)) := by
  refine ⟨_, rfl, rfl, ?_⟩
  intro h
  have hentry : some false = some true := h.left.left.right
  cases hentry

/-- If handlers run to completion, then between events a suspended client waits
for a key and a job of its mode is in the slot, which the working thread has yet
to post or whose one byte is in the pipe or owed. -/
theorem suspended_not_stranded (cfg : Config) (backend : Sds -> Option Sds) (db : Fin n)
    (master : Option ClientId) (labels : List (Label n))
    (hall : AllSteps step HandlersRunToCompletion labels (start cfg backend db master))
    (hrun : runSteps step labels (start cfg backend db master) = .ok w) (hstack : w.stack = [])
    (hconn : (w.clients c).status = .connected) (hstate : (w.clients c).backendState = some m) :
    (exists dk, Waits w c m dk) ∧ (w.hub m).job.key ≠ none ∧
      ((w.hub m).job.returnKey = none ∨ (w.hub m).pipe + (w.hub m).worker.protocol.owed = 1) := by
  have h : Audited w := runSteps_invariant
    (fun _ _ _ hI honce hstep => move_audited (step_move hstep) honce.mode hI)
    (audited_start cfg backend db master) hall hrun
  have hchannel := (h.sound m).channel
  rw [hstack] at hchannel
  have hslot := slotProtocol_of_sound hchannel
  rcases h.suspension.covered c m hconn hstate with ⟨dk, hwaits | ⟨_, _, hmem, _⟩⟩
  · refine ⟨⟨dk, hwaits⟩, ?_, ?_⟩
    · rcases hwaits with ⟨info, hlookup, _⟩
      exact hslot.filled_iff.mpr ⟨dk, AList.lookup_isSome.mp (by rw [hlookup]; rfl)⟩
    · cases hret : (w.hub m).job.returnKey with
      | none => exact Or.inl rfl
      | some key => exact Or.inr (by simpa [hret] using hslot.bytes)
  · rw [hstack] at hmem
    cases hmem

theorem suspended_not_stranded_pair :
    exists w, runSteps step pairRun (start Config.synchronous (fun _ => some [118]) 0 none) = .ok w ∧
      (w.hub .get).job.key ≠ none :=
  ⟨_, rfl, (suspended_not_stranded Config.synchronous (fun _ => some [118]) 0 none pairRun
    (allSteps_of_check (by decide +kernel)) rfl rfl (c := 0) rfl (m := .get) rfl).right.left⟩

end Redisoo
