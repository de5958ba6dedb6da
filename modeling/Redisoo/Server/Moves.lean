import Redisoo.Server.Step

/-!
# What a step can do

The inversion of the step function, once and for all: every successful step is
one of the moves below.  Invariants of runs are proved move by move.
-/

namespace Redisoo

open World

variable {n : Nat}

/-!
# Effects of a command

Executing a command of a client changes the dataset through `call()`, the
client's own session, and the clients it kills.
-/

structure Client.SameSession (cl cl' : Client n) : Prop where
  backendState : cl'.backendState = cl.backendState
  cmd : cl'.cmd = cl.cmd
  querybuf : cl'.querybuf = cl.querybuf
  status : cl'.status = cl.status
  master : cl'.master = cl.master

structure Client.SameService (cl cl' : Client n) : Prop where
  db : cl'.db = cl.db
  syncReply : cl'.syncReply = cl.syncReply
  multi : cl.multi = none -> cl'.multi = none

def Simple.victims : Simple n -> List ClientId
  | .clientKill target => [target]
  | _ => []

def Command.victims (multi : Option (List (Simple n))) : Command n -> List ClientId
  | .simple s => s.victims
  | .exec => (multi.getD []).flatMap Simple.victims
  | _ => []

inductive Effect (c : ClientId) (victims : List ClientId) (w : World n) : World n -> Prop where
  | refl : Effect c victims w w
  | call {w1 : World n} (cmd : DataCommand n) (caller : Caller) (d : Fin n)
      (flags : SyncReply) : Effect c victims w w1 ->
      Effect c victims w
        (w1.setStore (cmd.call w1.env caller w1.store d flags).store)
  | session {w1 : World n} (cl : Client n) : Effect c victims w w1 ->
      (w1.clients c).SameSession cl -> Effect c victims w (w1.setClient c cl)
  | free {w1 : World n} (t : ClientId) : Effect c victims w w1 ->
      t ∈ victims -> t ≠ c -> (w1.clients t).status = .connected ->
      Effect c victims w (w1.freeClient t)

variable {c : ClientId} {w w' : World n} {more : List (Command n)} {rest : List (Frame n)}
  {pick : Nat} {deny : Bool} {e : Crash}

theorem Effect.trans {victims : List ClientId} {w1 w2 w3 : World n} (h12 : Effect c victims w1 w2)
    (h23 : Effect c victims w2 w3) : Effect c victims w1 w3 := by
  induction h23 with
  | refl => exact h12
  | call cmd caller d flags _ ih => exact .call cmd caller d flags ih
  | session cl _ hsame ih => exact .session cl ih hsame
  | free t _ hmem hne hconn ih => exact .free t ih hmem hne hconn

theorem Effect.mono {victims victims' : List ClientId}
    (hsub : forall t, t ∈ victims -> t ∈ victims') (h : Effect c victims w w') :
    Effect c victims' w w' := by
  induction h with
  | refl => exact .refl
  | call cmd caller d flags _ ih => exact .call cmd caller d flags ih
  | session cl _ hsame ih => exact .session cl ih hsame
  | free t _ hmem hne hconn ih => exact .free t ih (hsub t hmem) hne hconn

theorem callFromScript_effect (w : World n) (c : ClientId)
    (cmd : DataCommand n) (victims : List ClientId) :
    Effect c victims w (w.callFromScript c cmd) := by
  unfold callFromScript
  dsimp only
  split
  · exact .refl
  · exact .call cmd _ _ _ .refl

theorem clientKill_effect (w : World n) (c target : ClientId) :
    Effect c [target] w (w.clientKill c target).1 := by
  unfold clientKill
  split
  · rename_i hconn
    split
    · exact .session _ .refl ⟨rfl, rfl, rfl, rfl, rfl⟩
    · rename_i hne
      exact .free target .refl (List.mem_singleton.mpr rfl) hne hconn
  · exact .refl

theorem script_effect (c : ClientId) (body : List (DataCommand n))
    (w : World n) (victims : List ClientId) :
    Effect c victims w (body.foldl (fun w cmd => w.callFromScript c cmd) w) := by
  induction body generalizing w with
  | nil => exact .refl
  | cons cmd rest ih => exact (callFromScript_effect w c cmd victims).trans (ih _)

theorem callSimple_effect (w : World n) (c : ClientId) (s : Simple n) :
    Effect c s.victims w (w.callSimple c s).1 := by
  cases s with
  | data cmd => exact .session _ (.call cmd _ _ _ .refl) ⟨rfl, rfl, rfl, rfl, rfl⟩
  | select d => exact .session _ .refl ⟨rfl, rfl, rfl, rfl, rfl⟩
  | clientKill target => exact clientKill_effect w c target
  | eval body => exact script_effect c body w _

theorem callQueued_effect (c : ClientId) (queue : List (Simple n)) (w : World n) :
    Effect c (queue.flatMap Simple.victims) w (callQueued c queue w).1 := by
  induction queue generalizing w with
  | nil => exact .refl
  | cons s rest ih =>
    have hhead := (callSimple_effect w c s).mono
      (fun t ht => List.mem_append_left (rest.flatMap Simple.victims) ht)
    have htail := (ih (w.callSimple c s).1).mono (fun t ht => List.mem_append_right s.victims ht)
    exact hhead.trans htail

theorem discardTransaction_same (cl : Client n) : cl.SameSession cl.discardTransaction :=
  ⟨rfl, rfl, rfl, rfl, rfl⟩

theorem flagTransaction_same (cl : Client n) : cl.SameSession cl.flagTransaction := by
  unfold Client.flagTransaction
  split <;> exact ⟨rfl, rfl, rfl, rfl, rfl⟩

theorem execCommand_effect (w : World n) (c : ClientId) :
    Effect c (Command.exec.victims (w.clients c).multi) w (w.execCommand c).1 := by
  unfold execCommand
  dsimp only
  split
  · exact .refl
  · rename_i queue hqueue
    split
    · exact .session _ .refl (discardTransaction_same _)
    have hvictims : Command.exec.victims (w.clients c).multi = queue.flatMap Simple.victims := by
      rw [hqueue]
      rfl
    rw [hvictims]
    exact .session _ (callQueued_effect c queue w) (discardTransaction_same _)

theorem multiCommand_effect (w : World n) (c : ClientId)
    (victims : List ClientId) : Effect c victims w (w.multiCommand c).1 := by
  unfold multiCommand
  dsimp only
  split
  · exact .refl
  · exact .session _ .refl ⟨rfl, rfl, rfl, rfl, rfl⟩

theorem discardCommand_effect (w : World n) (c : ClientId)
    (victims : List ClientId) : Effect c victims w (w.discardCommand c).1 := by
  unfold discardCommand
  dsimp only
  split
  · exact .session _ .refl (discardTransaction_same _)
  · exact .refl

/-!
# Moves
-/

structure Takes (w : World n) (c : ClientId) (cmd : Command n)
    (more : List (Command n)) (rest : List (Frame n)) : Prop where
  stack : w.stack = .input c :: rest
  ready : w.Ready c
  querybuf : (w.clients c).querybuf = cmd :: more

def World.upcoming (w : World n) : Label n -> Option (ClientId × Command n)
  | .main _ _ =>
    match w.stack with
    | .input c :: _ =>
      if w.Ready c then (w.clients c).querybuf.head?.map fun cmd => (c, cmd)
      else none
    | _ => none
  | _ => none

variable {cmd : Command n} {m : Mode}

theorem Takes.upcoming (h : Takes w c cmd more rest) (pick : Nat) (deny : Bool) :
    w.upcoming (.main pick deny) = some (c, cmd) := by
  simp [World.upcoming, h.stack, h.ready, h.querybuf]

def Bypasses (w : World n) (cl : Client n) (cmd : DataCommand n) (st : Store n) : Prop :=
  (w.cfg.redisooDbType = .disabled ∧ st = w.store) ∨
    (w.cfg.redisooDbType ≠ .disabled ∧ w.checkCommand cl cmd = .ok (st, none))

structure Admits (w : World n) (cl : Client n) (cmd : DataCommand n)
    (st : Store n) (a : World.Admission) (waiter : Option ClientId) (pick : Nat)
    (ch : Channel n) : Prop where
  enabled : w.cfg.redisooDbType ≠ .disabled
  check : w.checkCommand cl cmd = .ok (st, some a)
  enqueue : w.enqueue cl.db a waiter pick = .ok ch

def World.entered (w : World n) (c : ClientId) (dc : DataCommand n)
    (more : List (Command n)) (st : Store n) (a : World.Admission) (ch : Channel n) : World n :=
  ((w.received c (.data dc) more).setStore st).admitted (w.clients c).db a ch

inductive Move : Label n -> World n -> World n -> Prop where
  | idle (l : Label n) (w : World n) : Move l w w
  | leave {pick : Nat} {deny : Bool} {w : World n} {c : ClientId}
      {rest : List (Frame n)} : w.stack = .input c :: rest ->
      Not (w.Ready c) ∨ (w.clients c).querybuf = [] ->
      Move (.main pick deny) w (w.setStack rest)
  | refuse {pick : Nat} {deny : Bool} {w : World n} {c : ClientId}
      {cmd : Command n} {more : List (Command n)} {rest : List (Frame n)}
      (cl : Client n) (r : Reply) : Takes w c cmd more rest ->
      ((w.received c cmd more).clients c).SameSession cl ->
      (w.clients c).SameService cl ->
      ((r = .queued ∧ (w.clients c).multi ≠ none) ∨
        (r = .error "command rejected" ∧
          (deny = true ∨
            (w.received c cmd more).rejects
              ((w.received c cmd more).clients c) cmd = true))) ->
      Move (.main pick deny) w
        (((w.received c cmd more).setClient c cl).log (.reply c cmd r))
  | control {pick : Nat} {deny : Bool} {w w1 : World n} {c : ClientId}
      {cmd : Command n} {more : List (Command n)} {rest : List (Frame n)}
      (r : Reply) : Takes w c cmd more rest ->
      (forall dc, cmd ≠ .data dc) ->
      Effect c (cmd.victims (w.clients c).multi) (w.received c cmd more) w1 ->
      Move (.main pick deny) w (w1.log (.reply c cmd r))
  | direct {pick : Nat} {deny : Bool} {w : World n} {c : ClientId}
      {dc : DataCommand n} {more : List (Command n)} {rest : List (Frame n)}
      (st : Store n) : Takes w c (.data dc) more rest ->
      (w.clients c).multi = none ->
      Bypasses (w.received c (.data dc) more)
        ((w.received c (.data dc) more).clients c) dc st ->
      Move (.main pick deny) w
        (((w.received c (.data dc) more).setStore st).serveData c dc)
  | suspend {pick : Nat} {deny : Bool} {w : World n} {c : ClientId}
      {dc : DataCommand n} {more : List (Command n)} {rest : List (Frame n)}
      (st : Store n) (a : World.Admission) (ch : Channel n) :
      Takes w c (.data dc) more rest ->
      (w.clients c).multi = none -> w.cfg.sync a.mode = true ->
      Admits (w.received c (.data dc) more)
        ((w.received c (.data dc) more).clients c) dc st a (some c) pick ch ->
      Move (.main pick deny) w
        ((w.entered c dc more st a ch).suspended c dc a)
  | async {pick : Nat} {deny : Bool} {w : World n} {c : ClientId}
      {dc : DataCommand n} {more : List (Command n)} {rest : List (Frame n)}
      (st : Store n) (a : World.Admission) (ch : Channel n) :
      Takes w c (.data dc) more rest ->
      (w.clients c).multi = none -> w.cfg.sync a.mode = false ->
      Admits (w.received c (.data dc) more)
        ((w.received c (.data dc) more).clients c) dc st a none pick ch ->
      Move (.main pick deny) w
        ((w.entered c dc more st a ch).serveData c dc)
  | scriptStart {pick : Nat} {deny : Bool} {w : World n} {c : ClientId}
      {body : List (DataCommand n)} {more : List (Command n)}
      {rest : List (Frame n)} :
      Takes w c (.simple (.eval body)) more rest -> w.luaTimedout = false ->
      Move (.main pick deny) w
        ((w.received c (.simple (.eval body)) more).setStack
          (.script c body body :: w.stack))
  | scriptCall {pick : Nat} {deny : Bool} {w : World n} {c : ClientId}
      {cmd : DataCommand n} {body more : List (DataCommand n)}
      {rest : List (Frame n)} :
      w.stack = .script c body (cmd :: more) :: rest ->
      Move (.main pick deny) w
        ((w.callFromScript c cmd).setStack (.script c body more :: rest))
  | scriptEnd {pick : Nat} {deny : Bool} {w : World n} {c : ClientId}
      {body : List (DataCommand n)} {rest : List (Frame n)} :
      w.stack = .script c body [] :: rest ->
      Move (.main pick deny) w
        (({ w with luaTimedout := false }.setStack rest).log
          (.reply c (.simple (.eval body)) .null))
  | resume {pick : Nat} {deny : Bool} {w w1 : World n} {m : Mode} {d : Fin n}
      {k : Sds} {result : Bool} {c : ClientId} {more : List ClientId}
      {rest : List (Frame n)} :
      w.stack = .clear m d k result (c :: more) :: rest ->
      w.resumeBackendClient m d k result c = .ok w1 ->
      Move (.main pick deny) w
        (w1.setStack (.input c :: .clear m d k result more :: rest))
  | finish {pick : Nat} {deny : Bool} {w : World n} {m : Mode} {d : Fin n}
      {k : Sds} {result : Bool} {rest : List (Frame n)} (ch : Channel n) :
      w.stack = .clear m d k result [] :: rest ->
      clearJob m pick (w.hub m) = .ok ch ->
      Move (.main pick deny) w ((w.setChannel m ch).setStack (.read m :: rest))
  | drain {pick : Nat} {deny : Bool} {w : World n} {m : Mode}
      {rest : List (Frame n)} :
      w.stack = .read m :: rest -> 0 < (w.hub m).pipe ->
      Move (.main pick deny) w
        ((w.setChannel m
          { w.hub m with pipe := (w.hub m).pipe - 1 }).setStack rest)
  | recv {w : World n} (c : ClientId) (cmds : List (Command n)) :
      w.acceptsEvents = true -> (w.clients c).status = .connected ->
      w.inScript c = false ->
      Move (.external (.recv c cmds)) w
        ((w.setClient c
          { w.clients c with
            querybuf := (w.clients c).querybuf ++ cmds }).setStack
          (.input c :: w.stack))
  | handler {w : World n} (m : Mode) (f : Finished n) (st : Store n)
      (ch : Channel n) (clients : List ClientId) :
      w.acceptsEvents = true -> 0 < (w.hub m).pipe ->
      readFinished m (w.hub m) = .ok f -> w.installValue m f = .ok st ->
      takeWaiters m f.dbid f.key.bytes (w.hub m) = .ok (ch, clients) ->
      Move (.external (.pipe m)) w
        ((((w.setStore st).setChannel m ch).setStack
          (.clear m f.dbid f.key.bytes f.result clients :: w.stack)).log
          (.complete m f.dbid f.key.bytes f.key.addr))
  | free {w : World n} (c : ClientId) : w.acceptsEvents = true ->
      (w.clients c).status = .connected ->
      Move (.external (.free c)) w (w.freeClient c)
  | take {w : World n} (m : Mode) (ok : Bool) (ch : Channel n) :
      (w.hub m).worker = .polling ->
      getJobInWorkingThread m (w.hub m) = .ok ch ->
      Move (.work m ok) w (w.setChannel m ch)
  | execute {w : World n} (m : Mode) (ok : Bool) (d : Fin n) (key : KeyPtr)
      (backend : Sds -> Option Sds) (val : Option Sds) (result : Bool) :
      (w.hub m).worker = .running d key ->
      implementJobByBackend m ok key.bytes (w.hub m).job w.backend =
        .ok (backend, val, result) ->
      Move (.work m ok) w
        (({ w with backend := backend }.setChannel m
          { w.hub m with worker := .executed d key val result }).log
          (.executed m d key.bytes val result))
  | post {w : World n} (m : Mode) (ok : Bool) (d : Fin n) (key : KeyPtr)
      (val : Option Sds) (result : Bool) (ch : Channel n) :
      (w.hub m).worker = .executed d key val result ->
      postResult m key val result (w.hub m) = .ok ch ->
      Move (.work m ok) w ((w.setChannel m ch).log (.posted m key.addr))
  | signal {w : World n} (m : Mode) (ok : Bool) :
      (w.hub m).worker = .signalling ->
      Move (.work m ok) w
        (w.setChannel m
          { w.hub m with worker := .polling, pipe := (w.hub m).pipe + 1 })
  | timeout {w : World n} : Move .timeout w w.timeoutStep
  | tick {w : World n} (ms : Nat) :
      Move (.tick ms) w { w with now := w.now + ms }
  | env {w : World n} (k : Sds) (v : Option Sds) :
      Move (.env k v) w { w with backend := Function.update w.backend k v }
  | evict {w : World n} (d : Fin n) (k : Sds) : w.canEvict = true ->
      Move (.evict d k) w (w.setStore (w.store.deleteAndPropagate d k))
  | expire {w : World n} (d : Fin n) (k : Sds) : w.stack = [] -> w.cfg.masterhost = false ->
      Move (.expire d k) w (w.setStore (w.store.activeExpireCycleTryExpire w.now d k))

/-!
# Crashes
-/

inductive Fault : Label n -> World n -> Crash -> Prop where
  | check {pick : Nat} {deny : Bool} {w : World n} {c : ClientId}
      {dc : DataCommand n} {more : List (Command n)} {rest : List (Frame n)}
      {e : Crash} : Takes w c (.data dc) more rest ->
      (w.received c (.data dc) more).checkCommand
        ((w.received c (.data dc) more).clients c) dc = .error e ->
      Fault (.main pick deny) w e
  | enqueue {pick : Nat} {deny : Bool} {w : World n} {c : ClientId}
      {dc : DataCommand n} {more : List (Command n)} {rest : List (Frame n)}
      {st : Store n} {a : World.Admission} {waiter : Option ClientId}
      {e : Crash} : Takes w c (.data dc) more rest ->
      (w.received c (.data dc) more).checkCommand
        ((w.received c (.data dc) more).clients c) dc = .ok (st, some a) ->
      (w.received c (.data dc) more).enqueue (w.clients c).db a waiter pick =
        .error e ->
      Fault (.main pick deny) w e
  | resume {pick : Nat} {deny : Bool} {w : World n} {m : Mode} {d : Fin n}
      {k : Sds} {result : Bool} {c : ClientId} {more : List ClientId}
      {rest : List (Frame n)} {e : Crash} :
      w.stack = .clear m d k result (c :: more) :: rest ->
      w.resumeBackendClient m d k result c = .error e ->
      Fault (.main pick deny) w e
  | finish {pick : Nat} {deny : Bool} {w : World n} {m : Mode} {d : Fin n}
      {k : Sds} {result : Bool} {rest : List (Frame n)} {e : Crash} :
      w.stack = .clear m d k result [] :: rest ->
      clearJob m pick (w.hub m) = .error e -> Fault (.main pick deny) w e
  | read {w : World n} {m : Mode} {e : Crash} :
      w.acceptsEvents = true -> 0 < (w.hub m).pipe ->
      readFinished m (w.hub m) = .error e -> Fault (.external (.pipe m)) w e
  | install {w : World n} {m : Mode} {f : Finished n} {e : Crash} :
      w.acceptsEvents = true -> 0 < (w.hub m).pipe ->
      readFinished m (w.hub m) = .ok f -> w.installValue m f = .error e ->
      Fault (.external (.pipe m)) w e
  | waiters {w : World n} {m : Mode} {f : Finished n} {e : Crash} :
      w.acceptsEvents = true -> 0 < (w.hub m).pipe ->
      readFinished m (w.hub m) = .ok f ->
      takeWaiters m f.dbid f.key.bytes (w.hub m) = .error e ->
      Fault (.external (.pipe m)) w e
  | take {w : World n} {m : Mode} {ok : Bool} {e : Crash} :
      (w.hub m).worker = .polling ->
      getJobInWorkingThread m (w.hub m) = .error e -> Fault (.work m ok) w e
  | execute {w : World n} {m : Mode} {ok : Bool} {d : Fin n} {key : KeyPtr}
      {e : Crash} : (w.hub m).worker = .running d key ->
      implementJobByBackend m ok key.bytes (w.hub m).job w.backend = .error e ->
      Fault (.work m ok) w e
  | post {w : World n} {m : Mode} {ok : Bool} {d : Fin n} {key : KeyPtr}
      {val : Option Sds} {result : Bool} {e : Crash} :
      (w.hub m).worker = .executed d key val result ->
      postResult m key val result (w.hub m) = .error e -> Fault (.work m ok) w e

/-!
# Every step is a move or a crash
-/

open Move

open Fault

theorem processData_cases {dc : DataCommand n} (h : w.processData c dc pick = .ok w') :
    (exists st, Bypasses w (w.clients c) dc st ∧ w' = (w.setStore st).serveData c dc) ∨
      exists st a ch,
        (w.cfg.sync a.mode = true ∧ Admits w (w.clients c) dc st a (some c) pick ch ∧
          w' = ((w.setStore st).admitted (w.clients c).db a ch).suspended c dc a) ∨
        (w.cfg.sync a.mode = false ∧ Admits w (w.clients c) dc st a none pick ch ∧
          w' = ((w.setStore st).admitted (w.clients c).db a ch).serveData c dc) := by
  unfold processData at h
  dsimp only at h
  split at h
  · rename_i hdisabled
    cases h
    exact Or.inl ⟨w.store, Or.inl ⟨hdisabled, rfl⟩, rfl⟩
  · rename_i henabled
    split at h
    · cases h
    · rename_i st hcheck
      cases h
      exact Or.inl ⟨st, Or.inr ⟨henabled, hcheck⟩, rfl⟩
    · rename_i st a hcheck
      split at h
      · cases h
      · rename_i ch henqueue
        refine Or.inr ⟨st, a, ch, ?_⟩
        split at h
        · rename_i hsync
          cases h
          rw [if_pos hsync] at henqueue
          exact Or.inl ⟨hsync, ⟨henabled, hcheck, henqueue⟩, rfl⟩
        · rename_i hsync
          cases h
          rw [if_neg hsync] at henqueue
          exact Or.inr ⟨Bool.eq_false_of_not_eq_true hsync, ⟨henabled, hcheck, henqueue⟩, rfl⟩

def Results (l : Label n) (w : World n) : Except Crash (World n) -> Prop
  | .ok w' => Move l w w'
  | .error e => Fault l w e

theorem processData_results {dc : DataCommand n} (htakes : Takes w c (.data dc) more rest)
    (hmulti : (w.clients c).multi = none) :
    Results (.main pick deny) w ((w.received c (.data dc) more).processData c dc pick) := by
  have hdb : ((w.received c (.data dc) more).clients c).db = (w.clients c).db := by
    simp [received, setClient, log]
  cases hrun : (w.received c (.data dc) more).processData c dc pick with
  | ok w' =>
    rcases processData_cases hrun with ⟨st, hbypass, hw'⟩ |
      ⟨st, a, ch, ⟨hsync, hadmits, hw'⟩ | ⟨hsync, hadmits, hw'⟩⟩
    · rw [hw']
      exact direct st htakes hmulti hbypass
    · rw [hw', hdb]
      exact suspend st a ch htakes hmulti hsync hadmits
    · rw [hw', hdb]
      exact async st a ch htakes hmulti hsync hadmits
  | error e =>
    unfold processData at hrun
    dsimp only at hrun
    rw [hdb] at hrun
    split at hrun
    · cases hrun
    split at hrun
    · rename_i e' hcheck
      cases hrun
      exact check htakes hcheck
    · cases hrun
    · rename_i st a hcheck
      split at hrun
      · rename_i e' henqueue
        cases hrun
        exact enqueue htakes hcheck henqueue
      · split at hrun <;> cases hrun

theorem processCommand_results (htakes : Takes w c cmd more rest) :
    Results (.main pick deny) w ((w.received c cmd more).processCommand c cmd pick deny) := by
  have hrecv : (w.received c cmd more).clients c = { w.clients c with querybuf := more } := by
    simp [received, setClient, log]
  unfold processCommand
  dsimp only
  split
  · rename_i hdeny
    rw [Bool.or_eq_true] at hdeny
    refine refuse _ _ htakes (flagTransaction_same _) ?_ (Or.inr ⟨rfl, hdeny⟩)
    rw [hrecv]
    unfold Client.flagTransaction
    split
    · exact ⟨rfl, rfl, id⟩
    · exact ⟨rfl, rfl, id⟩
  rename_i hdeny
  rw [Bool.or_eq_true] at hdeny
  split
  · exact control _ htakes (fun dc heq => by cases heq) (multiCommand_effect _ c _)
  · have heffect := execCommand_effect (w.received c .exec more) c
    rw [hrecv] at heffect
    exact control _ htakes (fun dc heq => by cases heq) heffect
  · exact control _ htakes (fun dc heq => by cases heq) (discardCommand_effect _ c _)
  · rename_i s
    split
    · rename_i queue hqueue
      rw [hrecv] at hqueue
      change (w.clients c).multi = some queue at hqueue
      refine refuse _ _ htakes ⟨rfl, rfl, rfl, rfl, rfl⟩ ?_ (Or.inl ⟨rfl, ?_⟩)
      · rw [hrecv]
        refine ⟨rfl, rfl, ?_⟩
        intro hnone
        rw [hqueue] at hnone
        cases hnone
      · simp [hqueue]
    · rename_i hmulti
      rw [hrecv] at hmulti
      split
      · exact processData_results htakes hmulti
      · refine scriptStart htakes ?_
        cases hlua : w.luaTimedout with
        | false => rfl
        | true =>
          exfalso
          apply hdeny
          right
          simp [rejects, received, setClient, log, hlua, Command.isTransactional]
      · rename_i d
        exact control _ htakes (fun dc heq => by cases heq) (callSimple_effect _ c (.select d))
      · rename_i target
        exact control _ htakes (fun dc heq => by cases heq)
          (callSimple_effect _ c (.clientKill target))

theorem mainStep_results (w : World n) (pick : Nat) (deny : Bool) :
    Results (.main pick deny) w (w.mainStep pick deny) := by
  unfold mainStep
  split
  · exact idle _ _
  · rename_i c rest hstack
    unfold inputStep
    split
    · rename_i hready
      split
      · rename_i hempty
        exact leave hstack (Or.inr hempty)
      · rename_i cmd more hbuf
        exact processCommand_results ⟨hstack, hready, hbuf⟩
    · rename_i hready
      exact leave hstack (Or.inl hready)
  · rename_i m d k result clients rest hstack
    unfold clearStep
    split
    · split
      · rename_i e hresume
        exact resume hstack hresume
      · rename_i w1 hresume
        exact resume hstack hresume
    · split
      · rename_i e hclear
        exact finish hstack hclear
      · rename_i ch hclear
        exact finish ch hstack hclear
  · rename_i m rest hstack
    unfold readStep
    dsimp only
    split
    · rename_i hpipe
      exact drain hstack hpipe
    · exact idle _ _
  · rename_i c body todo rest hstack
    cases todo with
    | nil => exact scriptEnd hstack
    | cons cmd more => exact scriptCall hstack

theorem externalStep_results (x : External n) (haccepts : w.acceptsEvents = true) :
    Results (.external x) w (w.externalStep x) := by
  unfold externalStep
  split
  · rename_i c cmds
    dsimp only
    split
    · rename_i hcond
      exact recv c cmds haccepts hcond.left hcond.right
    · exact idle _ _
  · rename_i m
    split
    · rename_i hpipe
      unfold pipeHandler
      split
      · rename_i e hread
        exact read haccepts hpipe hread
      rename_i f hread
      split
      · rename_i e hinstall
        exact install haccepts hpipe hread hinstall
      rename_i st hinstall
      split
      · rename_i e htake
        exact waiters haccepts hpipe hread htake
      · rename_i ch clients htake
        exact handler m f st ch clients haccepts hpipe hread hinstall htake
    · exact idle _ _
  · rename_i c
    split
    · rename_i hconn
      exact free c haccepts hconn
    · exact idle _ _

theorem workStep_results (w : World n) (m : Mode) (ok : Bool) :
    Results (.work m ok) w (w.workStep m ok) := by
  unfold workStep
  dsimp only
  split
  · rename_i hworker
    split
    · rename_i e htake
      exact take hworker htake
    · rename_i ch htake
      exact take m ok ch hworker htake
  · rename_i d key hworker
    split
    · rename_i e himpl
      exact execute hworker himpl
    · rename_i backend val result himpl
      exact execute m ok d key backend val result hworker himpl
  · rename_i d key val result hworker
    split
    · rename_i e hpost
      exact post hworker hpost
    · rename_i ch hpost
      exact post m ok d key val result ch hworker hpost
  · rename_i hworker
    exact signal m ok hworker

theorem step_results (l : Label n) (w : World n) : Results l w (step l w) := by
  cases l with
  | main pick deny => exact mainStep_results w pick deny
  | external x =>
    dsimp only [step]
    split
    · rename_i haccepts
      exact externalStep_results x haccepts
    · exact idle _ _
  | work m ok => exact workStep_results w m ok
  | timeout => exact timeout
  | tick ms => exact tick ms
  | env k v => exact env k v
  | evict d k =>
    dsimp only [step, evictStep]
    split
    · rename_i hevict
      rw [Bool.and_eq_true] at hevict
      exact evict d k hevict.left
    · exact idle _ _
  | expire d k =>
    dsimp only [step, expireStep]
    split
    · rename_i hstack
      split
      · exact idle _ _
      · rename_i hmaster
        exact expire d k hstack (Bool.eq_false_of_not_eq_true hmaster)
    · exact idle _ _

theorem step_move {l : Label n} (h : step l w = .ok w') : Move l w w' := by
  have hresults := step_results l w
  rwa [h] at hresults

theorem step_fault {l : Label n} (h : step l w = .error e) : Fault l w e := by
  have hresults := step_results l w
  rwa [h] at hresults

end Redisoo
