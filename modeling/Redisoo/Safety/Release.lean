import Redisoo.Safety.Origins

/-!
# Freed clients

A handler walks a private copy of a waiting list while it runs the commands of
the clients it resumes.  Freeing a client clears the waiting lists but not that
copy, and a lost master is cached before the lists are cleared at all.  As long
as neither happens, no handler touches a freed client.
-/

namespace Redisoo

open Foundation Function World

variable {n : Nat}

/-!
# Who is freed by a step
-/

/-- The clients a step of the server may free: the one whose connection is lost,
or those killed by the next command. -/
def World.victims (w : World n) : Label n -> List ClientId
  | .external (.free t) => [t]
  | .main _ _ =>
    match w.stack with
    | .input c :: _ =>
      match (w.clients c).querybuf with
      | cmd :: _ => cmd.victims (w.clients c).multi
      | [] => []
    | _ => []
  | _ => []

def ReleasesSafely (l : Label n) (w : World n) : Prop :=
  forall t, t ∈ w.victims l -> t ∉ copies w.stack ∧
    Not ((w.clients t).master = true ∧ (w.clients t).backendState ≠ none)

instance (l : Label n) (w : World n) : Decidable (ReleasesSafely l w) := by
  unfold ReleasesSafely
  infer_instance

variable {w w' : World n} {c t : ClientId} {l : Label n}

theorem Takes.victims {cmd : Command n} {more : List (Command n)} {rest : List (Frame n)}
    (h : Takes w c cmd more rest) (pick : Nat) (deny : Bool) :
    w.victims (.main pick deny) = cmd.victims (w.clients c).multi := by
  simp [World.victims, h.stack, h.querybuf]

structure Fate (victims : List ClientId) (t : ClientId) (cl cl' : Client n) : Prop where
  master : cl'.master = cl.master
  status : cl'.status = cl.status ∨
    (t ∈ victims ∧ cl.status = .connected ∧
      cl'.backendState = cl.backendState ∧
      (cl'.status = .freed ∨ (cl'.status = .cached ∧ cl.master = true)))

variable {victims : List ClientId}

theorem Fate.same {cl cl' : Client n} (hmaster : cl'.master = cl.master)
    (hstatus : cl'.status = cl.status) : Fate victims t cl cl' :=
  ⟨hmaster, Or.inl hstatus⟩

theorem Fate.refl (victims : List ClientId) (t : ClientId) (cl : Client n) : Fate victims t cl cl :=
  ⟨rfl, Or.inl rfl⟩

theorem fate_update {f : ClientId -> Client n} (cl : Client n) (hmaster : cl.master = (f c).master)
    (hstatus : cl.status = (f c).status) (t : ClientId) :
    Fate victims t (f t) (Function.update f c cl t) := by
  by_cases hc : t = c
  · subst hc
    rw [update_self]
    exact .same hmaster hstatus
  · rw [update_of_ne hc]
    exact .refl victims t _

theorem fate_freeClient (hmem : t ∈ victims) (hconn : (w.clients t).status = .connected)
    (c : ClientId) : Fate victims c (w.clients c) ((w.freeClient t).clients c) := by
  by_cases hc : c = t
  · subst hc
    generalize hw' : w.freeClient c = w'
    cases freeClient_cases hw' with
    | marked _ => exact .same (by simp) (by simp)
    | cached _ hmaster =>
      refine ⟨?_, Or.inr ⟨hmem, hconn, ?_, Or.inr ⟨?_, hmaster⟩⟩⟩
      · simp [Client.discardTransaction]
      · simp [Client.discardTransaction]
      · simp
    | released _ _ =>
      refine ⟨?_, Or.inr ⟨hmem, hconn, ?_, Or.inl ?_⟩⟩
      · simp
      · simp
      · simp
  · rw [freeClient_other w hc]
    exact .refl victims c _

theorem freeClient_state (w : World n) (t c : ClientId) :
    ((w.freeClient t).clients c).backendState = (w.clients c).backendState := by
  by_cases hc : c = t
  · subst hc
    generalize hw' : w.freeClient c = w'
    cases freeClient_cases hw' with
    | marked _ => simp
    | cached _ _ => simp [Client.discardTransaction]
    | released _ _ => simp
  · rw [freeClient_other w hc]

theorem effect_state (heffect : Effect c victims w w') (t : ClientId) :
    (w'.clients t).backendState = (w.clients t).backendState := by
  induction heffect with
  | refl => rfl
  | call cmd caller d flags _ ih => exact ih
  | session cl _ hsame ih =>
    by_cases hc : t = c
    · subst hc
      rw [setClient_clients, update_self, hsame.backendState]
      exact ih
    · rw [setClient_clients, update_of_ne hc]
      exact ih
  | free t' _ _ _ _ ih =>
    rw [freeClient_state]
    exact ih

theorem effect_fate (heffect : Effect c victims w w') (t : ClientId) :
    Fate victims t (w.clients t) (w'.clients t) := by
  induction heffect with
  | refl => exact .refl victims t _
  | call cmd caller d flags _ ih => exact ih
  | session cl _ hsame ih =>
    by_cases hc : t = c
    · subst hc
      rw [setClient_clients, update_self]
      refine ⟨hsame.master.trans ih.master, ?_⟩
      rw [hsame.status, hsame.backendState]
      exact ih.status
    · rw [setClient_clients, update_of_ne hc]
      exact ih
  | @free w1 t' hprev hmem hne hconn ih =>
    by_cases ht : t = t'
    · subst ht
      have hstatus : (w1.clients t).status = (w.clients t).status := by
        rcases ih.status with hsame | ⟨_, _, _, hfreed | ⟨hcached, _⟩⟩
        · exact hsame
        · rw [hconn] at hfreed
          cases hfreed
        · rw [hconn] at hcached
          cases hcached
      have hfate := fate_freeClient hmem hconn t
      refine ⟨hfate.master.trans ih.master, ?_⟩
      rcases hfate.status with hsame | ⟨hv, _, hs, hgone⟩
      · exact Or.inl (hsame.trans hstatus)
      · right
        rw [ih.master] at hgone
        exact ⟨hv, hstatus ▸ hconn, hs.trans (effect_state hprev t), hgone⟩
    · rw [freeClient_other w1 ht]
      exact ih

theorem fate_serveData (victims : List ClientId) (w : World n) (c : ClientId)
    (cmd : DataCommand n) (t : ClientId) :
    Fate victims t (w.clients t) ((w.serveData c cmd).clients t) := by
  rw [serveData_clients]
  refine fate_update _ ?_ ?_ t
  · rfl
  · rfl

theorem Fate.after {a b c : Client n}
    (hab : b.master = a.master ∧ b.status = a.status ∧ b.backendState = a.backendState)
    (hbc : Fate victims t b c) : Fate victims t a c := by
  rcases hab with ⟨hmaster, hstatus, hstate⟩
  refine ⟨hbc.master.trans hmaster, ?_⟩
  rw [← hstatus, ← hstate, ← hmaster]
  exact hbc.status

theorem received_fields (w : World n) (c : ClientId) (cmd : Command n)
    (more : List (Command n)) (t : ClientId) :
    ((w.received c cmd more).clients t).master = (w.clients t).master ∧
      ((w.received c cmd more).clients t).status = (w.clients t).status ∧
      ((w.received c cmd more).clients t).backendState = (w.clients t).backendState := by
  by_cases hc : t = c
  · subst hc
    rw [received_client]
    exact ⟨rfl, rfl, rfl⟩
  · simp [World.received, update_of_ne hc]

theorem move_fate (hmove : Move l w w') (t : ClientId) :
    Fate (w.victims l) t (w.clients t) (w'.clients t) := by
  cases hmove with
  | @refuse _ _ _ c cmd more _ cl r _ hsame _ _ =>
    refine .after (received_fields w c cmd more t) ?_
    exact fate_update cl hsame.master hsame.status t
  | @control pick deny _ w1 c cmd more _ r htakes _ heffect =>
    refine .after (received_fields w c cmd more t) ?_
    rw [htakes.victims pick deny]
    exact effect_fate heffect t
  | @direct _ _ _ c dc more _ st _ _ _ =>
    refine .after (received_fields w c (.data dc) more t) ?_
    exact fate_serveData _ ((w.received c (.data dc) more).setStore st) c dc t
  | @suspend _ _ _ c dc more _ st a ch _ _ _ _ =>
    refine .after (received_fields w c (.data dc) more t) ?_
    rw [← entered_clients w c dc more st a ch]
    refine fate_update _ ?_ ?_ t
    · rfl
    · rfl
  | @async _ _ _ c dc more _ st a ch _ _ _ _ =>
    refine .after (received_fields w c (.data dc) more t) ?_
    rw [← entered_clients w c dc more st a ch]
    exact fate_serveData _ (w.entered c dc more st a ch) c dc t
  | @scriptStart _ _ _ c body more _ _ _ =>
    exact fate_update { w.clients c with querybuf := more } rfl rfl t
  | @scriptCall _ _ _ c cmd _ _ _ _ =>
    rw [callFromScript_frame]
    exact .refl _ t _
  | @resume _ _ _ w1 m d k result c more rest _ hresume =>
    rcases resume_frame hresume with ⟨cmd, _, _, _, hw1⟩
    subst hw1
    rw [setStack_clients, serveData_clients]
    by_cases hc : t = c
    · subst hc
      rw [update_self]
      exact .same (by simp) (by simp)
    rw [update_of_ne hc]
    simp only [log_clients, setClient_clients]
    rw [update_of_ne hc]
    exact .refl _ t _
  | recv c cmds _ _ _ =>
    refine fate_update _ ?_ ?_ t
    · rfl
    · rfl
  | free c _ hconn => exact fate_freeClient (List.mem_singleton.mpr rfl) hconn t
  | timeout =>
    rw [timeoutStep_frame]
    exact .refl _ t _
  | _ => exact .refl _ t _

/-!
# The record of a run
-/

def NeverResumedFreed : List (Observation n) -> Prop
  | [] => True
  | .resume c _ _ _ :: older => .freed c ∉ older ∧ NeverResumedFreed older
  | _ :: older => NeverResumedFreed older

def HarmlessIn (w : World n) : Observation n -> Prop
  | .resume _ _ _ _ => False
  | .freed c => (w.clients c).status ≠ .connected
  | _ => True

theorem neverResumedFreed_append {obs tr : List (Observation n)}
    (hobs : forall o, o ∈ obs -> HarmlessIn w o) (h : NeverResumedFreed tr) :
    NeverResumedFreed (obs ++ tr) := by
  induction obs with
  | nil => exact h
  | cons o rest ih =>
    have hrest := ih (fun o' ho' => hobs o' (List.mem_cons_of_mem o ho'))
    have ho := hobs o List.mem_cons_self
    cases o with
    | resume c m d k => exact absurd ho id
    | _ => exact hrest

theorem freeClient_trace (w : World n) (t : ClientId) :
    exists obs, (w.freeClient t).trace = obs ++ w.trace ∧
      forall o, o ∈ obs -> o = .freed t ∧ ((w.freeClient t).clients t).status ≠ .connected := by
  generalize hw' : w.freeClient t = w'
  cases freeClient_cases hw' with
  | marked _ =>
    refine ⟨[], rfl, ?_⟩
    intro o ho
    cases ho
  | cached _ _ | released _ _ =>
    refine ⟨[.freed t], rfl, ?_⟩
    intro o ho
    exact ⟨List.mem_singleton.mp ho, by simp⟩

theorem effect_gone (heffect : Effect c victims w w') (h : (w.clients t).status ≠ .connected) :
    (w'.clients t).status ≠ .connected := by
  rcases (effect_fate heffect t).status with hsame | ⟨_, hconn, _, _⟩
  · rw [hsame]
    exact h
  · exact absurd hconn h

theorem effect_trace (heffect : Effect c victims w w') :
    exists obs, w'.trace = obs ++ w.trace ∧
      forall o, o ∈ obs -> exists t, o = .freed t ∧ t ∈ victims ∧
        (w'.clients t).status ≠ .connected := by
  induction heffect with
  | refl =>
    refine ⟨[], rfl, ?_⟩
    intro o ho
    cases ho
  | call cmd caller d flags _ ih => exact ih
  | @session w1 cl hprev hsame ih =>
    rcases ih with ⟨obs, htr, hobs⟩
    refine ⟨obs, htr, ?_⟩
    intro o ho
    rcases hobs o ho with ⟨t, heq, hv, hgone⟩
    exact ⟨t, heq, hv, effect_gone (.session cl .refl hsame : Effect c victims w1 _) hgone⟩
  | @free w1 t hprev hmem hne hconn ih =>
    rcases ih with ⟨obs, htr, hobs⟩
    rcases freeClient_trace w1 t with ⟨obs', htr', hobs'⟩
    refine ⟨obs' ++ obs, by rw [htr', htr, List.append_assoc], ?_⟩
    intro o ho
    rcases List.mem_append.mp ho with hnew | hold
    · rcases hobs' o hnew with ⟨heq, hgone⟩
      exact ⟨t, heq, hmem, hgone⟩
    · rcases hobs o hold with ⟨t', heq, hv, hgone⟩
      exact ⟨t', heq, hv, effect_gone (.free t .refl hmem hne hconn : Effect c victims w1 _) hgone⟩

theorem control_trace {cmd : Command n} {more : List (Command n)} {w1 : World n}
    (heffect : Effect c victims (w.received c cmd more) w1) (r : Reply) :
    exists obs, (w1.log (.reply c cmd r)).trace = obs ++ w.trace ∧
      forall o, o ∈ obs -> o = .reply c cmd r ∨ o = .arrive c cmd (w.heldBy (w.clients c) cmd) ∨
        exists t, o = .freed t ∧ t ∈ victims ∧ (w1.clients t).status ≠ .connected := by
  rcases effect_trace heffect with ⟨obs, htr, hobs⟩
  refine ⟨.reply c cmd r :: (obs ++ [.arrive c cmd (w.heldBy (w.clients c) cmd)]), ?_, ?_⟩
  · rw [log_trace, htr]
    simp [World.received]
  intro o ho
  rcases List.mem_cons.mp ho with heq | ho
  · exact Or.inl heq
  · rcases List.mem_append.mp ho with hold | hnew
    · exact Or.inr (Or.inr (hobs o hold))
    · exact Or.inr (Or.inl (List.mem_singleton.mp hnew))

theorem move_record (hmove : Move l w w') : (exists obs, w'.trace = obs ++ w.trace ∧
      forall o, o ∈ obs -> HarmlessIn w' o) ∨
    (exists c m d k cmd r, w'.trace = .reply c cmd r :: .resume c m d k :: w.trace ∧
      c ∈ copies w.stack ∧ (w.clients c).status ≠ .freed ∧
      (w.clients c).cmd ≠ none) := by
  have hnone : exists obs, w.trace = obs ++ w.trace ∧ forall o, o ∈ obs -> HarmlessIn w' o :=
    ⟨[], rfl, fun o ho => by cases ho⟩
  cases hmove with
  | refuse _ _ _ _ _ _ | direct _ _ _ _ => exact Or.inl ⟨[_, _], rfl, by simp [HarmlessIn]⟩
  | @control _ _ _ w1 c cmd more _ r _ _ heffect =>
    rcases control_trace heffect r with ⟨obs, htrace, hobs⟩
    refine Or.inl ⟨obs, htrace, ?_⟩
    intro o ho
    rcases hobs o ho with rfl | rfl | ⟨t, rfl, _, hgone⟩
    · trivial
    · trivial
    · exact hgone
  | @suspend _ _ _ c dc more _ st a ch _ _ _ _ =>
    left
    simp only [World.suspended, log_trace, setClient_trace]
    rw [entered_trace]
    split
    · exact ⟨[_, _, _], rfl, by simp [HarmlessIn]⟩
    · exact ⟨[_, _], rfl, by simp [HarmlessIn]⟩
  | @async _ _ _ c dc more _ st a ch _ _ _ _ =>
    left
    change exists obs, .reply c (.data dc) _ :: (w.entered c dc more st a ch).trace = _ ∧ _
    rw [entered_trace]
    split
    · exact ⟨[_, _, _], rfl, by simp [HarmlessIn]⟩
    · exact ⟨[_, _], rfl, by simp [HarmlessIn]⟩
  | scriptStart _ _ | scriptEnd _ | handler _ _ _ _ _ _ _ _ _ _ =>
    exact Or.inl ⟨[_], rfl, by simp [HarmlessIn]⟩
  | @scriptCall _ _ _ c cmd _ _ _ _ =>
    rw [callFromScript_frame] at hnone ⊢
    exact Or.inl hnone
  | @resume _ _ _ w1 m d k result c more rest hstack hresume =>
    rcases resume_frame hresume with ⟨cmd, hfreed, _, hcmd, hw1⟩
    subst hw1
    refine Or.inr ⟨c, m, d, k, .data cmd, _, rfl, ?_, hfreed, by simp [hcmd]⟩
    rw [hstack]
    simp
  | free t _ _ =>
    rcases freeClient_trace w t with ⟨obs, htr, hobs⟩
    refine Or.inl ⟨obs, htr, ?_⟩
    intro o ho
    rcases hobs o ho with ⟨heq, hgone⟩
    rw [heq]
    exact hgone
  | execute _ _ _ _ _ _ _ _ _ | post _ _ _ _ _ _ _ _ _ =>
    exact Or.inl ⟨[_], rfl, by simp [HarmlessIn]⟩
  | timeout =>
    rw [timeoutStep_frame] at hnone ⊢
    exact Or.inl hnone
  | _ => exact Or.inl hnone

/-!
# Whole runs
-/

structure Untouched (w : World n) : Prop where
  copies : forall c, c ∈ copies w.stack -> (w.clients c).status = .connected
  waits : forall c m dk, Waits w c m dk -> (w.clients c).status = .connected
  freed : forall c, .freed c ∈ w.trace -> (w.clients c).status ≠ .connected
  record : NeverResumedFreed w.trace

theorem move_gone (hmove : Move l w w') (h : (w.clients t).status ≠ .connected) :
    (w'.clients t).status ≠ .connected := by
  rcases (move_fate hmove t).status with hsame | ⟨_, hconn, _, _⟩
  · rw [hsame]
    exact h
  · exact absurd hconn h

theorem connected_before (hmove : Move l w w') (t : ClientId)
    (h : (w'.clients t).status = .connected) : (w.clients t).status = .connected := by
  by_contra hgone
  exact move_gone hmove hgone h

theorem move_untouched (hmove : Move l w w') (hsusp : Suspension w) (hsafe : ReleasesSafely l w)
    (h : Untouched w) : Untouched w' := by
  have hsusp' := move_suspension hmove hsusp
  constructor
  · intro c hc
    rcases mem_copies.mp hc with ⟨m, dk, hcopied⟩
    rcases move_copied hmove hcopied with hold | ⟨_, _, hdispatches, hmem⟩
    · rcases (move_fate hmove c).status with hstatus | ⟨hvictim, _, _, _⟩
      · rw [hstatus]
        exact h.copies c (mem_copies.mpr ⟨m, dk, hold⟩)
      · exact absurd (mem_copies.mpr ⟨m, dk, hold⟩) (hsafe c hvictim).left
    · rw [hdispatches.clients]
      exact h.waits c m dk (hdispatches.waits hmem)
  · intro c m dk hwaits
    rcases move_waits hmove hwaits with hold | hsuspends
    · rcases (move_fate hmove c).status with hstatus | ⟨hvictim, _, hstate, hgone⟩
      · rw [hstatus]
        exact h.waits c m dk hold
      exfalso
      rcases hgone with hfreed | ⟨_, hmaster⟩
      · exact hsusp'.alive c m dk hwaits hfreed
      · refine (hsafe c hvictim).right ⟨hmaster, ?_⟩
        rw [(hsusp.waits c m dk hold).state]
        simp
    · exact hsuspends.connected
  · intro c hfreed
    rcases move_record hmove with ⟨obs, htr, hobs⟩ | ⟨c', m, d, k, cmd, r, htr, _⟩
    · rw [htr, List.mem_append] at hfreed
      rcases hfreed with hnew | hold
      · exact hobs _ hnew
      · exact move_gone hmove (h.freed c hold)
    · rw [htr] at hfreed
      simp only [List.mem_cons, reduceCtorEq, false_or] at hfreed
      exact move_gone hmove (h.freed c hfreed)
  · rcases move_record hmove with ⟨obs, htr, hobs⟩ | ⟨c, m, d, k, cmd, r, htr, hcopy, _, _⟩
    · rw [htr]
      exact neverResumedFreed_append hobs h.record
    · rw [htr]
      exact ⟨fun hfreed => h.freed c hfreed (h.copies c hcopy), h.record⟩

def Crash.OfFreed : Crash -> Prop
  | .useAfterFree _ => True
  | .nullCommand _ => True
  | _ => False

theorem fault_not_ofFreed {e : Crash} (hfault : Fault l w e) (hsusp : Suspension w)
    (h : Untouched w) : Not e.OfFreed := by
  intro hbad
  rcases fault_cases hfault with hslot | he | he | he |
    ⟨m, d, k, result, c, more, rest, hstack, hresume⟩
  · cases e with
    | slotAssert _ => exact hbad
    | noWaitingList _ => exact hbad
    | _ => exact hslot
  · rw [he] at hbad
    exact hbad
  · rw [he] at hbad
    exact hbad
  · rw [he] at hbad
    exact hbad
  · have hcopy : c ∈ copies w.stack := by
      rw [hstack]
      simp
    have hconn := h.copies c hcopy
    rcases resume_error hresume with ⟨_, hfreed⟩ | ⟨he, _⟩ | ⟨_, hcmd⟩
    · rw [hconn] at hfreed
      cases hfreed
    · rw [he] at hbad
      exact hbad
    · rcases hsusp.parked_of_copies hcopy with ⟨m', dk, hparked⟩
      rcases hparked.cmd hconn with ⟨dc, hdc, _⟩
      rw [hdc] at hcmd
      cases hcmd

theorem untouched_start (cfg : Config) (backend : Sds -> Option Sds)
    (db : Fin n) (master : Option ClientId) : Untouched (World.start cfg backend db master) := by
  constructor
  · intro c hc
    cases hc
  · rintro c m dk ⟨info, hlookup, _⟩
    cases hlookup
  · intro c hfreed
    cases hfreed
  · trivial

/-- If no step frees a client of a copied list or a suspended master, the copied
lists hold only connected clients, no freed client is resumed, and no run dies
from touching one. -/
theorem freed_clients_untouched (cfg : Config) (backend : Sds -> Option Sds)
    (db : Fin n) (master : Option ClientId) (labels : List (Label n))
    (hall : AllSteps World.step ReleasesSafely labels
      (World.start cfg backend db master)) :
    (forall w, runSteps World.step labels (World.start cfg backend db master) =
        .ok w ->
      (forall c, c ∈ copies w.stack -> (w.clients c).status = .connected) ∧
        NeverResumedFreed w.trace) ∧
      (forall e, runSteps World.step labels
        (World.start cfg backend db master) = .error e -> Not e.OfFreed) := by
  have hstep : forall l (w w' : World n), Suspension w ∧ Untouched w ->
      ReleasesSafely l w -> World.step l w = .ok w' ->
      Suspension w' ∧ Untouched w' := by
    intro l w w' hI hsafe hstep
    have hmove := step_move hstep
    exact ⟨move_suspension hmove hI.left, move_untouched hmove hI.left hsafe hI.right⟩
  have hstart := And.intro (suspension_start cfg backend db master)
    (untouched_start cfg backend db master)
  constructor
  · intro w hrun
    have hw := runSteps_invariant hstep hstart hall hrun
    exact ⟨hw.right.copies, hw.right.record⟩
  intro e hrun
  refine runSteps_never_fails hstep ?_ hstart hall hrun
  intro l w e hI _ hfail
  exact fault_not_ofFreed (step_fault hfail) hI.left hI.right

def killIdleRun : List (Label 1) :=
  [.external (.recv 0 [.data (.get [107]), .simple (.clientKill 1)]),
   .main 0 false, .main 0 false,
   .work .get true, .work .get true, .work .get true, .work .get true,
   .external (.pipe .get), .main 0 false, .main 0 false]

theorem freed_clients_untouched_kill :
    exists w, runSteps World.step killIdleRun
        (World.start Config.synchronous (fun _ => some [118]) 0 none) = .ok w ∧
      (w.clients 1).status = .freed ∧ NeverResumedFreed w.trace :=
  ⟨_, rfl, rfl, ((freed_clients_untouched Config.synchronous (fun _ => some [118]) 0 none
      killIdleRun (allSteps_of_check (by decide +kernel))).left _ rfl).right⟩

/-- Two clients wait for one key; the completion resumes the first, whose next
pipelined command is a CLIENT KILL of the second. -/
def killRun : List (Label 1) :=
  [.external (.recv 0 [.data (.get [107]), .simple (.clientKill 1)]),
   .main 0 false, .main 0 false,
   .external (.recv 1 [.data (.get [107])]), .main 0 false, .main 0 false,
   .work .get true, .work .get true, .work .get true, .work .get true,
   .external (.pipe .get), .main 0 false, .main 0 false, .main 0 false]

/-- The second client is freed while it is in the copied list, and the handler
goes on to resume it. -/
theorem killed_client_resumed :
    exists w, runSteps World.step killRun
        (World.start Config.synchronous (fun _ => some [118]) 0 none) = .ok w ∧
      1 ∈ copies w.stack ∧ (w.clients 1).status = .freed ∧
      World.step (.main 0 false) w = .error (.useAfterFree 1) :=
  ⟨_, rfl, by decide +kernel, rfl, rfl⟩

end Redisoo
