import Redisoo.Consistency.Residue

/-!
# The checks of a SET command

Before a SET command goes to the backend its second argument is compared with the
pending candidate and with the cached object.  The value it writes is the third
argument for SETEX and PSETEX, and the cached object may be an integer.
-/

namespace Redisoo

open Foundation

variable {n : Nat} {w : World n} {cl : Client n} {sc : SetCommand} {info : BackendInfo}
  {st : Store n}

theorem setValue_of_admitted (hentry : (w.hub .set).candidates.lookup (cl.db, sc.key) = some info)
    (hpass : w.checkSetCommandForBackendState cl sc = .ok (st, true)) :
    info.setValue = sc.argv2 := by
  unfold World.checkSetCommandForBackendState at hpass
  split at hpass
  · cases hpass
  dsimp only at hpass
  split at hpass
  · cases hpass
  split at hpass
  · cases hpass
  · next hsame =>
    unfold World.isSameKeyWithDifferentValForSet at hsame
    rw [hentry] at hsame
    simpa using hsame

/-- The value of an admitted command is the one pending, and the assertion on it
holds, exactly when the second argument of the command is its value. -/
theorem pending_value_agrees_iff (w : World n) (cl : Client n) (sc : SetCommand)
    (info : BackendInfo) (waiter : Option ClientId)
    (hentry : (w.hub .set).candidates.lookup (cl.db, sc.key) = some info)
    (hpass : w.checkSetCommandForBackendState cl sc = .ok (st, true)) :
    (sc.getValueFromSetCommand = info.setValue ∧
      addKeyToBackendKeys .set cl.db sc.key sc.getValueFromSetCommand sc.getTtlForSetCommand waiter
        (w.hub .set) ≠ .error .setValueAssert) <->
      sc.argv2 = sc.getValueFromSetCommand := by
  rw [setValue_of_admitted hentry hpass]
  constructor
  · intro h
    exact h.left.symm
  intro h
  refine ⟨h.symm, ?_⟩
  have hvalue : info.setValue = sc.getValueFromSetCommand :=
    (setValue_of_admitted hentry hpass).trans h
  unfold addKeyToBackendKeys
  rw [hentry]
  simp [hvalue]

def pendingSetRun : List (Label 1) :=
  [.external (.recv 0 [.data (.setlike (.set [107] [49, 48] []))]), .main 0 false, .main 0 false]

theorem pending_value_agrees_iff_set : exists w : World 1,
    runSteps World.step pendingSetRun
      (World.start Config.synchronous (fun _ => none) 0 none) = .ok w ∧
    ((SetCommand.set [107] [49, 48] []).getValueFromSetCommand = [49, 48] ∧
      addKeyToBackendKeys .set 0 [107] [49, 48] 0 (some 1) (w.hub .set) ≠
        .error .setValueAssert) :=
  ⟨_, rfl, (pending_value_agrees_iff _ (Client.fresh 0 false) (.set [107] [49, 48] [])
    { setValue := [49, 48], setTtl := 0, clients := [0] } (some 1) rfl rfl).mpr rfl⟩

/-- Another client sets it to "v" for 10 seconds. -/
theorem expiring_set_fails_assert :
    runSteps World.step (pendingSetRun ++
        [.external (.recv 1 [.data (.setlike (.setex [107] [49, 48] [118]))]), .main 0 false])
      (World.start Config.synchronous (fun _ => none) 0 none) = .error .setValueAssert :=
  rfl

/-!
# The cached object
-/

/-- The object is not an integer, and the command compares with its value, or the
cached string is neither that value nor what it compares with. -/
def Comparable (sc : SetCommand) (o : Option Robj) : Prop :=
  (forall i, o ≠ some (.int i)) ∧
    (sc.argv2 = sc.getValueFromSetCommand ∨ forall s, o.bind Robj.decoded = some s ->
      s ≠ sc.argv2 ∧ s ≠ sc.getValueFromSetCommand)

/-- The check follows no integer as a pointer and finds out whether the cached string is the value
of the command exactly when the two are comparable. -/
theorem same_value_decides_iff (sc : SetCommand) (o : Option Robj) :
    World.isSameValueInDbForSet sc o =
        .ok (decide (o.bind Robj.decoded = some sc.getValueFromSetCommand)) <->
      Comparable sc o := by
  have hstring : forall s, (Except.ok (s == sc.argv2) : Except Crash Bool) =
        .ok (decide (some s = some sc.getValueFromSetCommand)) <->
      sc.argv2 = sc.getValueFromSetCommand ∨ s ≠ sc.argv2 ∧ s ≠ sc.getValueFromSetCommand := by
    intro s
    rw [Except.ok.injEq, beq_eq_decide, decide_eq_decide, Option.some.injEq]
    grind
  unfold Comparable
  cases o with
  | none => simp [World.isSameValueInDbForSet]
  | some o =>
    cases o with
    | raw s | embstr s =>
      simpa [World.isSameValueInDbForSet, Robj.decoded, Robj.value] using hstring s
    | int i => simp [World.isSameValueInDbForSet]
    | aggregate type elems => simp [World.isSameValueInDbForSet, Robj.decoded, Robj.value]

def storedSetRun : List (Label 1) :=
  pendingSetRun ++
    [.work .set true, .work .set true, .work .set true, .work .set true,
     .external (.pipe .set), .main 0 false, .main 0 false, .main 0 false, .main 0 false]

/-- The object is then an integer, and the same command once more follows it as a pointer. -/
theorem integer_followed_as_pointer :
    (exists w, runSteps World.step storedSetRun
        (World.start Config.synchronous (fun _ => none) 0 none) = .ok w ∧
      w.store.ks.dict 0 [107] = some (.int 10)) ∧
    World.isSameValueInDbForSet (.set [107] [49, 48] []) (some (.int 10)) = .error .intPointer ∧
    runSteps World.step (storedSetRun ++ pendingSetRun)
      (World.start Config.synchronous (fun _ => none) 0 none) = .error .intPointer :=
  ⟨exists_run_of_reaches (by decide +kernel), rfl, rfl⟩

end Redisoo
