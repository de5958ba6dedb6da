import Redisoo.Persistence.AofFeed
import Redisoo.Persistence.AofTruncation

/-!
# What the append only file says about a command

The commands the feeder appends are executed on the state before the original command.
They leave the same values and expire times, unless `KEEPTTL` kept an expire time or the
feeder takes an argument for an option.
-/

namespace Redisoo

open Foundation.Stdio List Util Store Keyspace Option

variable {n : Nat}

namespace Aof

/-!
# Options
-/

theorem strcasecmpEq_pair (x y : UInt8) (hx : x ≠ 0 ∧ tolower x = x) (hy : y ≠ 0 ∧ tolower y = y)
    (a : Sds) : strcasecmpEq a [x, y] = isOption x y a := by
  have htarget : ([x, y].takeWhile (· != 0)).map tolower = [x, y] := by
    simp [hx, hy]
  have hzero : tolower 0 = 0 := rfl
  unfold strcasecmpEq isOption byteAt
  rw [htarget]
  rcases a with _ | ⟨a0, _ | ⟨a1, _ | ⟨a2, rest⟩⟩⟩
  · simp [hzero, hx.left.symm]
  · by_cases h0 : a0 = 0
    · simp [h0, hzero, hx.left.symm]
    · simp [h0, hzero, hy.left.symm]
  · by_cases h0 : a0 = 0
    · simp [h0, hzero, hx.left.symm]
    · by_cases h1 : a1 = 0
      · simp [h0, h1, hzero, hy.left.symm]
      · simp [h0, h1]
  · by_cases h0 : a0 = 0
    · simp [h0, hzero, hx.left.symm]
    by_cases h1 : a1 = 0
    · simp [h0, h1, hzero, hy.left.symm]
    · by_cases h2 : a2 = 0
      · simp [h0, h1, h2]
      · simp [h0, h1, h2]

theorem strcasecmpEq_ex (a : Sds) : strcasecmpEq a [101, 120] = isEx a :=
  strcasecmpEq_pair 101 120 (by decide) (by decide) a

theorem strcasecmpEq_px (a : Sds) : strcasecmpEq a [112, 120] = isPx a :=
  strcasecmpEq_pair 112 120 (by decide) (by decide) a

structure Coherent (o : SetOptions) : Prop where
  exclusive : Not (o.ex = true ∧ o.px = true)
  keepttl : o.keepttl = true -> o.ex = false ∧ o.px = false
  none : o.ex = false -> o.px = false -> o.expire = none
  some : o.ex = true ∨ o.px = true -> exists v, o.expire = some v
  seconds : o.ex = true -> o.unit = .seconds
  milliseconds : o.px = true -> o.unit = .milliseconds

theorem coherent_none : Coherent SetOptions.none := by
  constructor <;> simp [SetOptions.none]

variable {opts args options : List Sds}

theorem parse_coherent {o o' : SetOptions} (hparse : parseSetOptions opts o = some o')
    (h : Coherent o) :
    Coherent o' ∧ (o.ex = true -> o'.ex = true) ∧ (o.px = true -> o'.px = true) := by
  fun_induction parseSetOptions opts o with
  | case1 o =>
    cases hparse
    exact ⟨h, id, id⟩
  | case2 a rest o hnx ih | case3 a rest o hnx hxx ih =>
    exact ih hparse ⟨h.exclusive, h.keepttl, h.none, h.some, h.seconds, h.milliseconds⟩
  | case4 a rest o hnx hxx hkeep ih =>
    simp at hkeep
    exact ih hparse ⟨h.exclusive, fun _ => ⟨hkeep.left.right, hkeep.right⟩, h.none, h.some,
      h.seconds, h.milliseconds⟩
  | case5 a o hnx hxx hkeep => cases hparse
  | case6 a o hnx hxx hkeep next rest hex ih =>
    simp at hex
    have hrec := ih hparse ⟨by simp [hex.right], by simp [hex.left.right], by simp, by simp,
      by simp, by simp [hex.right]⟩
    exact ⟨hrec.left, fun _ => hrec.right.left rfl, hrec.right.right⟩
  | case7 a o hnx hxx hkeep next rest hex hpx ih =>
    simp at hpx
    have hrec := ih hparse ⟨by simp [hpx.right], by simp [hpx.left.right], by simp, by simp,
      by simp [hpx.right], by simp⟩
    exact ⟨hrec.left, hrec.right.left, fun _ => hrec.right.right rfl⟩
  | case8 a o hnx hxx hkeep next rest hex hpx => cases hparse

variable {a key : Sds} {rest : List Sds}

theorem isOption_unique {x y x' y' : UInt8} (h : isOption x y a = true) (hne : x ≠ x') :
    isOption x' y' a = false := by
  unfold isOption at h ⊢
  simp at h
  simp [h.left.left, hne]

theorem not_isEx_of_isKeepttl (h : isKeepttl a = true) : isEx a = false ∧ isPx a = false := by
  unfold isKeepttl at h
  rw [← strcasecmpEq_ex, ← strcasecmpEq_px]
  unfold strcasecmpEq at h ⊢
  rw [eq_of_beq h]
  exact ⟨by decide, by decide⟩

def Follows (v v' expire expire' : Option Sds) : Prop :=
  v' = expire' ∨ (v' = v ∧ expire' = expire)

theorem Follows.found {arg : Option Sds} {v : Sds} (h : Follows none arg none (some v)) :
    arg = some v := by
  rcases h with hleft | ⟨_, hright⟩
  · exact hleft
  · cases hright

structure Scanned (o o' : SetOptions) (exarg pxarg exarg' pxarg' : Option Sds) : Prop where
  seconds : o'.ex = true -> Follows exarg exarg' o.expire o'.expire
  milliseconds : o'.px = true -> Follows pxarg pxarg' o.expire o'.expire
  neither : o'.ex = false -> o'.px = false ->
    exarg' = exarg ∧ pxarg' = pxarg

variable {exarg pxarg : Option Sds} {next : Sds} {v : Int} {α : Type _}
  {s k name param seconds : Sds}

theorem scan_other (hex : isEx a = false) (hpx : isPx a = false) :
    scanExpire (a :: rest) exarg pxarg = scanExpire rest exarg pxarg := by
  rw [scanExpire.eq_def]
  dsimp only
  rw [strcasecmpEq_ex, strcasecmpEq_px, hex, hpx]
  rfl

theorem scan_ex (hex : isEx a = true) :
    scanExpire (a :: next :: rest) exarg pxarg = scanExpire (next :: rest) (some next) pxarg := by
  rw [scanExpire, strcasecmpEq_ex, hex]
  rfl

theorem scan_px (hpx : isPx a = true) :
    scanExpire (a :: next :: rest) exarg pxarg = scanExpire (next :: rest) exarg (some next) := by
  have hex : isEx a = false := isOption_unique hpx (by decide)
  rw [scanExpire, strcasecmpEq_ex, strcasecmpEq_px, hex, hpx]
  rfl

theorem scan_arg (hlast : rest = [] -> isEx next = false ∧ isPx next = false)
    (exarg pxarg : Option Sds) :
    exists exarg' pxarg', scanExpire (next :: rest) exarg pxarg = scanExpire rest exarg' pxarg' ∧
      (isEx next = false -> exarg' = exarg) ∧ (isPx next = false -> pxarg' = pxarg) := by
  by_cases hex : isEx next = true
  · cases rest with
    | nil => simp [hex] at hlast
    | cons after rest =>
      have hpx : isPx next = false := isOption_unique hex (by decide)
      exact ⟨some after, pxarg, scan_ex hex, fun h => by simp [hex] at h, fun _ => rfl⟩
  · by_cases hpx : isPx next = true
    · cases rest with
      | nil => simp [hpx] at hlast
      | cons after rest =>
        exact ⟨exarg, some after, scan_px hpx, fun _ => rfl, fun h => by simp [hpx] at h⟩
    · refine ⟨exarg, pxarg, scan_other ?_ ?_, fun _ => rfl, fun _ => rfl⟩
      · simpa using hex
      · simpa using hpx

theorem scan_spec {o o' : SetOptions} (hparse : parseSetOptions opts o = some o')
    (hcoherent : Coherent o)
    (hval : forall v, o'.expire = some v -> isEx v = false ∧ isPx v = false)
    (exarg pxarg : Option Sds) :
    exists exarg' pxarg', scanExpire opts exarg pxarg = some (exarg', pxarg') ∧
      Scanned o o' exarg pxarg exarg' pxarg' := by
  fun_induction parseSetOptions opts o generalizing exarg pxarg with
  | case1 o =>
    cases hparse
    exact ⟨exarg, pxarg, rfl, fun _ => Or.inr ⟨rfl, rfl⟩, fun _ => Or.inr ⟨rfl, rfl⟩,
      fun _ _ => ⟨rfl, rfl⟩⟩
  | case2 a rest o hopt ih | case3 a rest o _ hopt ih =>
    simp at hopt
    rw [scan_other (isOption_unique hopt.left (by decide)) (isOption_unique hopt.left (by decide))]
    rcases ih hparse ⟨hcoherent.exclusive, hcoherent.keepttl, hcoherent.none, hcoherent.some,
      hcoherent.seconds, hcoherent.milliseconds⟩ exarg pxarg with ⟨exarg', pxarg', hscan, h⟩
    exact ⟨exarg', pxarg', hscan, h.seconds, h.milliseconds, h.neither⟩
  | case4 a rest o hnx hxx hkeep ih =>
    simp at hkeep
    have hnot := not_isEx_of_isKeepttl hkeep.left.left
    rw [scan_other hnot.left hnot.right]
    rcases ih hparse ⟨hcoherent.exclusive, fun _ => ⟨hkeep.left.right, hkeep.right⟩,
      hcoherent.none, hcoherent.some, hcoherent.seconds, hcoherent.milliseconds⟩ exarg pxarg with
      ⟨exarg', pxarg', hscan, h⟩
    exact ⟨exarg', pxarg', hscan, h.seconds, h.milliseconds, h.neither⟩
  | case5 a o hnx hxx hkeep => cases hparse
  | case6 a o hnx hxx hkeep next rest hex ih =>
    simp at hex
    have hcoherent' : Coherent { o with
        ex := true, unit := .seconds, expire := some next } :=
      ⟨by simp [hex.right], by simp [hex.left.right], by simp, by simp, by simp,
        by simp [hex.right]⟩
    have hkeeps := parse_coherent hparse hcoherent'
    have hlast : rest = [] -> isEx next = false ∧ isPx next = false := by
      rintro rfl
      cases hparse
      exact hval next rfl
    rcases scan_arg hlast (some next) pxarg with ⟨exarg1, pxarg1, hscan1, hex1, _⟩
    rcases ih hparse hcoherent' exarg1 pxarg1 with ⟨exarg', pxarg', hscan, h⟩
    refine ⟨exarg', pxarg', ?_, ?_, ?_, ?_⟩
    · rw [scan_ex hex.left.left, hscan1, hscan]
    · intro ho'
      rcases h.seconds ho' with hleft | ⟨hright, hexpire⟩
      · exact Or.inl hleft
      · -- no later option: the scan still has the argument of this one
        apply Or.inl
        rw [hright, hexpire, hex1 (hval next hexpire).left]
    · intro hpx
      exact absurd ⟨hkeeps.right.left rfl, hpx⟩ hkeeps.left.exclusive
    · intro hno
      rw [hkeeps.right.left rfl] at hno
      cases hno
  | case7 a o hnx hxx hkeep next rest hex hpx ih =>
    simp at hpx
    have hcoherent' : Coherent { o with
        px := true, unit := .milliseconds, expire := some next } :=
      ⟨by simp [hpx.right], by simp [hpx.left.right], by simp, by simp, by simp [hpx.right],
        by simp⟩
    have hkeeps := parse_coherent hparse hcoherent'
    have hlast : rest = [] -> isEx next = false ∧ isPx next = false := by
      rintro rfl
      cases hparse
      exact hval next rfl
    rcases scan_arg hlast exarg (some next) with ⟨exarg1, pxarg1, hscan1, _, hpx1⟩
    rcases ih hparse hcoherent' exarg1 pxarg1 with ⟨exarg', pxarg', hscan, h⟩
    refine ⟨exarg', pxarg', ?_, ?_, ?_, ?_⟩
    · rw [scan_px hpx.left.left, hscan1, hscan]
    · intro hex'
      exact absurd ⟨hex', hkeeps.right.right rfl⟩ hkeeps.left.exclusive
    · intro ho'
      rcases h.milliseconds ho' with hleft | ⟨hright, hexpire⟩
      · exact Or.inl hleft
      · apply Or.inl
        rw [hright, hexpire, hpx1 (hval next hexpire).right]
    · intro _ hno
      rw [hkeeps.right.right rfl] at hno
      cases hno
  | case8 a o hnx hxx hkeep next rest hex hpx => cases hparse

theorem isOption_first {b x y : UInt8} {rest : Sds} (h : tolower b ≠ x) :
    isOption x y (b :: rest) = false := by
  unfold isOption byteAt
  simp [h]

theorem not_option_of_small {b : UInt8} {rest : Sds} (hb : b.toNat ≤ 57) :
    isEx (b :: rest) = false ∧ isPx (b :: rest) = false := by
  have hlower : tolower b = b := by
    unfold tolower
    rw [if_neg]
    simp
    lia
  constructor
  · apply isOption_first
    rw [hlower]
    rintro rfl
    exact absurd hb (by decide)
  · apply isOption_first
    rw [hlower]
    rintro rfl
    exact absurd hb (by decide)

theorem not_option_of_string2ll (h : string2ll s = some v) : isEx s = false ∧ isPx s = false := by
  unfold string2ll at h
  split at h
  · rename_i hzero
    rw [hzero]
    exact not_option_of_small (by decide)
  split at h
  · exact not_option_of_small (by decide)
  split at h
  · rename_i hparse
    cases s with
    | nil => cases hparse
    | cons b rest =>
      unfold string2llUnsigned at hparse
      dsimp only at hparse
      split at hparse
      · rename_i hb
        simp at hb
        exact not_option_of_small hb.right
      · cases hparse
  · cases h

/-!
# Numbers
-/

theorem expireTime_range (unit : TimeUnit) (basetime value : Int) :
    Util.LLONG_MIN ≤ expireTime unit basetime value ∧
      expireTime unit basetime value ≤ Util.LLONG_MAX :=
  wrap64_range _

theorem expireTime_absolute {t : Int} (h : Util.LLONG_MIN ≤ t ∧ t ≤ Util.LLONG_MAX) :
    expireTime .milliseconds 0 t = t := by
  unfold expireTime
  dsimp only
  rw [Int.add_zero]
  exact wrap64_of_range h

/-!
# The tables
-/

def put (ks : Keyspace n) (d : Fin n) (k : Sds) (o : Option Robj) (t : Option Int) : Keyspace n :=
  { dict := updateAt ks.dict d k o, expires := updateAt ks.expires d k t }

variable {d : Fin n} {e : Env} {argv : List Sds} {val : Sds} {o o' : Option Robj}
  {t t' : Option Int} {cmds : List (List Sds)}

theorem updateAt_updateAt (f : Fin n -> Sds -> α) (d : Fin n) (k : Sds) (v w : α) :
    updateAt (updateAt f d k v) d k w = updateAt f d k w := by
  funext d' k'
  unfold updateAt
  split
  · rfl
  · rfl

theorem updateAt_self (f : Fin n -> Sds -> α) (d : Fin n) (k : Sds) :
    updateAt f d k (f d k) = f := by
  funext d' k'
  unfold updateAt
  split
  · rename_i h
    rw [h.left, h.right]
  · rfl

theorem put_put (ks : Keyspace n) (k : Sds) : put (put ks d k o t) d k o' t' = put ks d k o' t' := by
  simp only [put, updateAt_updateAt]

theorem put_self (ks : Keyspace n) (k : Sds) : put ks d k (ks.dict d k) (ks.expires d k) = ks := by
  simp only [put, updateAt_self]

theorem put_inj {ks : Keyspace n} (h : put ks d k o t = put ks d k o' t') : t = t' := by
  have hcell := congrFun (congrFun (congrArg expires h) d) k
  simpa only [put, updateAt_same] using hcell

theorem expireIfNeeded_put (e : Env) (st : Store n) (d : Fin n) (k : Sds) :
    exists o t, (st.expireIfNeeded e d k).1.ks = put st.ks d k o t := by
  unfold expireIfNeeded
  split
  · split
    · exact ⟨_, _, (put_self _ _).symm⟩
    · exact ⟨none, none, rfl⟩
  · exact ⟨_, _, (put_self _ _).symm⟩

theorem expireIfNeeded_loading (e : Env) (st : Store n) (d : Fin n) (k : Sds) :
    st.expireIfNeeded { e with loading := true } d k = (st, false) := by
  have hexpired : keyIsExpired { e with loading := true } st.ks d k = false := by
    unfold keyIsExpired
    split
    · rfl
    · split
      · rfl
      · rfl
  unfold expireIfNeeded
  rw [hexpired]
  rfl

theorem genericSetKey_put (e : Env) (st : Store n) (d : Fin n) (k : Sds) (o : Robj)
    (keepttl : Bool) :
    (st.genericSetKey e d k o keepttl).ks = put st.ks d k (some o)
      (if keepttl then (st.expireIfNeeded e d k).1.ks.expires d k else none) := by
  rcases expireIfNeeded_put e st d k with ⟨o', t, hks⟩
  rw [← put_put (o := o') (t := t), ← hks]
  cases keepttl with
  | true =>
    rw [if_pos rfl, put, updateAt_self]
    rfl
  | false => rfl

/-!
# The original command
-/

theorem genericSetKey_looked {st looked : Store n} (keepttl : Bool) (o : Robj)
    (hlooked : looked = st ∨ looked = (st.expireIfNeeded e d k).1) :
    (looked.genericSetKey e d k o keepttl).ks = put st.ks d k (some o)
      (if keepttl then (st.expireIfNeeded e d k).1.ks.expires d k else none) := by
  rcases hlooked with rfl | rfl
  · exact genericSetKey_put e _ d k _ _
  rcases expireIfNeeded_put e st d k with ⟨o', t, hks⟩
  rw [genericSetKey_put, expireIfNeeded_idem, hks, put_put]

theorem setGenericCommand_effect {st : Store n} {flags : SyncReply} {a : SetArgs}
    (h : 0 < (setGenericCommand e st d flags a).dirty) :
    exists ms, a.milliseconds = .ok ms ∧ (setGenericCommand e st d flags a).store.ks =
      put st.ks d a.key (some (tryObjectEncoding a.val))
        (match ms with
        | some ms => some (wrap64 (e.now + ms))
        | none => if a.keepttl then (st.expireIfNeeded e d a.key).1.ks.expires d a.key
            else none) := by
  unfold setGenericCommand at h ⊢
  cases hms : a.milliseconds with
  | error r =>
    rw [hms] at h
    exact absurd h (Nat.lt_irrefl 0)
  | ok ms =>
    refine ⟨ms, rfl, ?_⟩
    rw [hms] at h
    dsimp only at h ⊢
    by_cases hflag : flags.set = true
    · rw [if_pos hflag] at h
      exact absurd h (Nat.lt_irrefl 0)
    rw [if_neg hflag] at h ⊢
    -- the lookups for NX and XX change nothing the overwrite does not
    have hlooked : (if (a.nx || a.xx) = true then (st.lookupKeyWrite e d a.key).1 else st) =
        st ∨ (if (a.nx || a.xx) = true then (st.lookupKeyWrite e d a.key).1 else st) =
          (st.expireIfNeeded e d a.key).1 := by
      split
      · exact Or.inr rfl
      · exact Or.inl rfl
    generalize (if (a.nx || a.xx) = true then (st.lookupKeyWrite e d a.key).1 else st) =
      looked at h hlooked ⊢
    have hwrite := genericSetKey_looked a.keepttl (tryObjectEncoding a.val) hlooked
    split at h
    · exact absurd h (Nat.lt_irrefl 0)
    rename_i habort
    rw [if_neg habort]
    cases ms with
    | none => exact hwrite
    | some ms =>
      show mk (genericSetKey e _ d a.key _ _).ks.dict
        (updateAt (genericSetKey e _ d a.key _ _).ks.expires d a.key _) = _
      rw [hwrite, put, updateAt_updateAt]
      rfl

/-!
# The replay
-/

section Replay

variable (e : Env) (lazyExpire : Bool) (d : Fin n) (st : Store n)

theorem replay_set (key val : Sds) (hname : lookupCommand name = some .set) :
    exists st', replayOne e lazyExpire (d, st) [name, key, val] = (d, st') ∧
      st'.ks = put st.ks d key (some (tryObjectEncoding val)) none := by
  have hparse : parseArgv [name, key, val] = some (.setlike (.set key val [])) := by
    simp only [parseArgv, hname]
  refine ⟨(setProc { e with loading := true } st d SyncReply.clear (.set key val [])).store,
    by simp only [replayOne, hparse, execute], ?_⟩
  exact genericSetKey_put { e with loading := true } st d key (tryObjectEncoding val) false

theorem replay_pexpireat {t : Int} {o : Robj} (name : Sds)
    (hname : lookupCommand name = some .pexpireat) (hparam : string2ll param = some t)
    (hkey : st.ks.dict d key = some o) :
    exists st', replayOne e lazyExpire (d, st) [name, key, param] = (d, st') ∧
      st'.ks = put st.ks d key (some o) (some t) := by
  have hparse : parseArgv [name, key, param] = some (.expire .milliseconds false key param) := by
    simp only [parseArgv, hname]
  have htime := expireTime_absolute (string2ll_range hparam)
  refine ⟨st.setExpire d key t, ?_, ?_⟩
  · simp only [replayOne, hparse, execute, expireGenericCommand, hparam, lookupKeyWrite,
      expireIfNeeded_loading, hkey]
    rw [if_neg (by simp)]
    simp only [Bool.false_eq_true, if_false, htime]
  · rw [← hkey, put, updateAt_self]
    rfl

theorem replay_del (key : Sds)
    (hname : lookupCommand name = some .del ∨ lookupCommand name = some .unlink) :
    exists st', replayOne e lazyExpire (d, st) [name, key] = (d, st') ∧
      st'.ks = put st.ks d key none none := by
  have hparse : parseArgv [name, key] = some (.del key) := by
    rcases hname with hname | hname
    · simp only [parseArgv, hname]
    · simp only [parseArgv, hname]
  refine ⟨(delProc { e with loading := true } st d SyncReply.clear [key]).store,
    by simp only [replayOne, hparse, execute], ?_⟩
  simp only [delProc, SyncReply.clear, Bool.false_eq_true, if_false, foldl_cons,
    foldl_nil, delOne, expireIfNeeded_loading]
  rfl

theorem replay_select (d0 : Fin n) (hn : n < 2 ^ 31) :
    replayOne e lazyExpire (d0, st) [selectName, ll2string (d.val : Int)] = (d, st) := by
  have hname : lookupCommand selectName = some .select := by decide
  simp only [replayOne, parseArgv, hname, execute, selectDb_ll2string d0 d hn]

end Replay

theorem replay_commands (e : Env) (lazyExpire : Bool) (d : Fin n) (st : Store n)
    (hcmds : forall argv, argv ∈ cmds -> Known aofTable .other argv) :
    replay e lazyExpire d st (cmds.flatMap catAppendOnlyGenericCommand) =
      some (cmds.foldl (replayOne e lazyExpire) (d, st)).2 := by
  rcases load_commands hcmds with ⟨ret, hload⟩
  unfold replay
  rw [hload]

/-!
# From the argument vector to the replay
-/

def AofCommand.Named (name : Sds) (args : List Sds) : AofCommand -> Prop
  | .setlike (.set key val options) =>
    args = key :: val :: options ∧ lookupCommand name = some .set
  | .setlike (.setex key arg val) => args = [key, arg, val]
  | .setlike (.psetex key arg val) => args = [key, arg, val]
  | .expire unit relative key param => args = [key, param] ∧
    (unit = .milliseconds ∧ relative = false -> lookupCommand name = some .pexpireat)
  | _ => True

theorem parseArgv_named {cmd : AofCommand} (h : parseArgv argv = some cmd) :
    exists name args, argv = name :: args ∧ cmd.Named name args := by
  unfold parseArgv at h
  split at h
  · cases h
  · refine ⟨_, _, rfl, ?_⟩
    split at h
    all_goals cases h
    all_goals simp_all [AofCommand.Named]

theorem known_of_name {cmd : CommandName} (hname : lookupCommand name = some cmd)
    (hsized : Sized (name :: args)) (hcount : args.length ≤ 2) :
    Known aofTable .other (name :: args) := by
  refine ⟨⟨cons_ne_nil _ _, ?_, hsized⟩, ?_⟩
  · rw [length_cons]
    lia
  show aofTable name = _
  unfold aofTable
  rw [hname]
  rfl

theorem known_expireAt (now : Int) (unit : TimeUnit) (relative : Bool) (seconds : Sds)
    (hkey : key.length < 2 ^ 63) :
    Known aofTable .other (catAppendOnlyExpireAtCommand now unit relative key seconds) := by
  apply known_of_name (show lookupCommand pexpireatName = some .pexpireat by decide)
  · intro s hs
    simp only [mem_cons, not_mem_nil, or_false] at hs
    rcases hs with rfl | rfl | rfl
    · decide
    · exact hkey
    · exact sized_ll2string _ (expireTime_range _ _ _)
  · exact Nat.le_refl 2

theorem feed_replay (lazyExpire : Bool) (d : Fin n) (st : Store n) {selected : Option (Fin n)}
    {d0 : Fin n} (hn : n < 2 ^ 31) (hd0 : forall s, selected = some s -> d0 = s)
    (htranslate : translate e.now argv = some cmds)
    (hcmds : forall argv, argv ∈ cmds -> Known aofTable .other argv) :
    exists bytes, feedAppendOnlyFile e.now selected d argv = some bytes ∧
      replay e lazyExpire d0 st bytes = some (cmds.foldl (replayOne e lazyExpire) (d, st)).2 := by
  unfold feedAppendOnlyFile
  rw [htranslate, map_some]
  refine ⟨_, rfl, ?_⟩
  by_cases hselected : selected = some d
  · rw [if_pos hselected, hd0 d hselected]
    exact replay_commands e lazyExpire d st hcmds
  have hd := d.isLt
  have hselect : Known aofTable .other [selectName, ll2string (d.val : Int)] := by
    apply known_of_name (show lookupCommand selectName = some .select by decide)
    · intro s hs
      simp only [mem_cons, not_mem_nil, or_false] at hs
      rcases hs with rfl | rfl
      · decide
      · apply sized_ll2string
        unfold Util.LLONG_MIN Util.LLONG_MAX
        lia
    · exact Nat.le_succ 1
  rw [if_neg hselected, replay_commands e lazyExpire d0 st, foldl_cons,
    replay_select e lazyExpire d st d0 hn]
  intro argv' hargv'
  rcases mem_cons.mp hargv' with rfl | hin
  · exact hselect
  · exact hcmds argv' hin

/-!
# Effects
-/

def PreservesEffects (e : Env) (lazyExpire : Bool) (flags : SyncReply)
    (selected : Option (Fin n)) (d0 d : Fin n) (st : Store n) (argv : List Sds)
    (cmd : AofCommand) : Prop :=
  exists bytes st',
    feedAppendOnlyFile e.now selected d
      ((execute e lazyExpire flags d st cmd).rewritten.getD argv) = some bytes ∧
    replay e lazyExpire d0 st bytes = some st' ∧
    st'.ks.dict = (execute e lazyExpire flags d st cmd).store.ks.dict ∧
    st'.ks.expires = (execute e lazyExpire flags d st cmd).store.ks.expires

def LosesTtl (e : Env) (d : Fin n) (st : Store n) (cmd : AofCommand) : Prop :=
  exists key val options o, cmd = .setlike (.set key val options) ∧
    parseSetOptions options SetOptions.none = some o ∧ o.keepttl = true ∧
    (st.expireIfNeeded e d key).1.ks.expires d key ≠ none

def ScansBoth (cmd : AofCommand) : Prop :=
  exists key val options exarg pxarg, cmd = .setlike (.set key val options) ∧
    scanExpire options none none = some (some exarg, some pxarg)

/-- The commands that are translated: `SET`, `SETEX`, `PSETEX`, `EXPIRE`, `PEXPIRE`,
`EXPIREAT` and `PEXPIREAT`. -/
def AofCommand.Timed : AofCommand -> Prop
  | .setlike (.setnx _ _) => False
  | .setlike _ => True
  | .expire _ _ _ _ => True
  | _ => False

section Cases

variable {e : Env} {lazyExpire : Bool} {flags : SyncReply} {selected : Option (Fin n)}
  {d d0 : Fin n} {st : Store n} {argv : List Sds}
  {cmd : AofCommand} {arg key name val : Sds} {a : SetArgs}

variable {unit : TimeUnit} {param : Sds}

theorem milliseconds_some {ms : Option Int} (harg : a.expire = some arg)
    (h : a.milliseconds = .ok ms) (now : Int) :
    exists value, string2ll arg = some value ∧ 0 < value ∧
      (match ms with
      | some ms => some (wrap64 (now + ms))
      | none => none) = some (expireTime a.unit now value) := by
  unfold SetArgs.milliseconds at h
  rw [harg] at h
  dsimp only at h
  cases hvalue : string2ll arg with
  | none =>
    rw [hvalue] at h
    cases h
  | some value =>
    rw [hvalue] at h
    dsimp only at h
    split at h
    · cases h
    rename_i hpos
    refine ⟨value, rfl, not_le.mp hpos, ?_⟩
    unfold expireTime
    cases hunit : a.unit with
    | seconds | milliseconds =>
      rw [hunit] at h
      cases h
      dsimp only
      rw [Int.add_comm]

theorem milliseconds_none {ms : Option Int} (harg : a.expire = none) (h : a.milliseconds = .ok ms) :
    ms = none := by
  unfold SetArgs.milliseconds at h
  rw [harg] at h
  cases h
  rfl

theorem setGenericCommand_expires (harg : a.expire = some arg)
    (h : 0 < (setGenericCommand e st d flags a).dirty) :
    exists value, string2ll arg = some value ∧ 0 < value ∧
      (setGenericCommand e st d flags a).store.ks = put st.ks d a.key
        (some (tryObjectEncoding a.val)) (some (expireTime a.unit e.now value)) := by
  rcases setGenericCommand_effect h with ⟨ms, hms, hks⟩
  rcases milliseconds_some harg hms e.now with ⟨value, hvalue, hpos, htime⟩
  refine ⟨value, hvalue, hpos, ?_⟩
  rw [hks]
  cases ms with
  | none => cases htime
  | some ms => rw [← htime]

theorem not_special (h : forall key val options, cmd ≠ .setlike (.set key val options)) :
    Not (LosesTtl e d st cmd) ∧ Not (ScansBoth cmd) := by
  constructor
  · rintro ⟨key, val, options, _, hcmd, _⟩
    exact h key val options hcmd
  · rintro ⟨key, val, options, _, _, hcmd, _⟩
    exact h key val options hcmd

theorem sized_set (h : Sized [name, key, arg, val]) : Sized [setName, key, val] := by
  intro s hs
  simp only [mem_cons, not_mem_nil, or_false] at hs
  rcases hs with rfl | rfl | rfl
  · decide
  · exact h s (by simp)
  · exact h s (by simp)

def Past (e : Env) (time : Int) : Prop :=
  time ≤ e.now ∧ e.loading = false ∧ e.masterhost = false

theorem expireGenericCommand_effect {relative : Bool}
    (hdirty : 0 < (expireGenericCommand e lazyExpire st d unit relative key param).dirty) :
    exists value o, string2ll param = some value ∧ st.ks.dict d key = some o ∧
      ((Past e (expireTime unit (if relative then e.now else 0) value) ∧
        (expireGenericCommand e lazyExpire st d unit relative key param).rewritten =
          some (deletion lazyExpire key) ∧
        (expireGenericCommand e lazyExpire st d unit relative key param).store.ks =
          put st.ks d key none none) ∨
      (Not (Past e (expireTime unit (if relative then e.now else 0) value)) ∧
        (expireGenericCommand e lazyExpire st d unit relative key param).rewritten = none ∧
        (expireGenericCommand e lazyExpire st d unit relative key param).store.ks = put st.ks d key
          (some o) (some (expireTime unit (if relative then e.now else 0) value)))) := by
  unfold expireGenericCommand at hdirty ⊢
  cases hvalue : string2ll param with
  | none =>
    rw [hvalue] at hdirty
    exact absurd hdirty (Nat.lt_irrefl 0)
  | some value =>
    rw [hvalue] at hdirty
    dsimp only [lookupKeyWrite] at hdirty ⊢
    refine ⟨value, ?_⟩
    generalize expireTime unit (if relative then e.now else 0) value = time at hdirty ⊢
    cases hlooked : (st.expireIfNeeded e d key).1.ks.dict d key with
    | none =>
      rw [hlooked] at hdirty
      exact absurd hdirty (Nat.lt_irrefl 0)
    | some o =>
      rcases expireIfNeeded_put e st d key with ⟨o', t, hks⟩
      have hcell : st.ks.dict d key = some o := by
        rcases expireIfNeeded_dict_same e st d key with hsame | hnone
        · rw [← hsame, hlooked]
        · rw [hlooked] at hnone
          cases hnone
      refine ⟨o, rfl, hcell, ?_⟩
      dsimp only
      split
      · rename_i hpast
        refine Or.inl ⟨hpast, rfl, ?_⟩
        show put (st.expireIfNeeded e d key).1.ks d key none none = _
        rw [hks, put_put]
      · rename_i hpast
        refine Or.inr ⟨hpast, rfl, ?_⟩
        rw [← put_put (o := o') (t := t), ← hks, put, ← hlooked, updateAt_self]
        rfl

theorem translate_deletion (now : Int) (lazyExpire : Bool) (key : Sds) :
    translate now (deletion lazyExpire key) = some [deletion lazyExpire key] := by
  cases lazyExpire with
  | true => rfl
  | false => rfl

theorem translate_set {a : Sds} {now : Int}
    (hargv : parseArgv (name :: key :: val :: a :: options) =
      some (.setlike (.set key val (a :: options))))
    (hscan : scanExpire (a :: options) none none = some (exarg, pxarg))
    (hone : exarg = none ∨ pxarg = none) :
    translate now (name :: key :: val :: a :: options) =
      some ([name, key, val] ::
        ((exarg.map (catAppendOnlyExpireAtCommand now .seconds true key)).toList ++
          (pxarg.map (catAppendOnlyExpireAtCommand now .milliseconds true key)).toList)) := by
  simp only [Aof.translate, hargv, hscan]
  rcases hone with rfl | rfl
  · cases pxarg with
    | none => rfl
    | some v => rfl
  · cases exarg with
    | none => rfl
    | some v => rfl

variable (hn : n < 2 ^ 31) (hd0 : forall s, selected = some s -> d0 = s)

include hn hd0

theorem preserves_iff
    (htranslate : translate e.now ((execute e lazyExpire flags d st cmd).rewritten.getD argv) =
      some cmds) (hknown : forall argv, argv ∈ cmds -> Known aofTable .other argv) :
    PreservesEffects e lazyExpire flags selected d0 d st argv cmd <->
      (cmds.foldl (replayOne e lazyExpire) (d, st)).2.ks =
        (execute e lazyExpire flags d st cmd).store.ks := by
  rcases feed_replay lazyExpire d st hn hd0 htranslate hknown with ⟨bytes, hfeed, hreplay⟩
  unfold PreservesEffects
  rw [hfeed]
  constructor
  · rintro ⟨bytes', st', hbytes, hrun, hdict, hexpires⟩
    cases hbytes
    rw [hreplay] at hrun
    cases hrun
    show Keyspace.mk _ _ = Keyspace.mk _ _
    rw [hdict, hexpires]
  · intro hks
    exact ⟨bytes, _, rfl, hreplay, congrArg dict hks, congrArg expires hks⟩

theorem preserves_set (hname : lookupCommand name = some .set) (hsized : Sized [name, key, val])
    (hrewritten : (execute e lazyExpire flags d st cmd).rewritten = none)
    (htranslate : translate e.now argv = some [[name, key, val]])
    (hks : (execute e lazyExpire flags d st cmd).store.ks =
      put st.ks d key (some (tryObjectEncoding val)) t) :
    PreservesEffects e lazyExpire flags selected d0 d st argv cmd <-> t = none := by
  have hknown := forall_mem_singleton.mpr (known_of_name hname hsized (Nat.le_refl 2))
  rcases replay_set e lazyExpire d st key val hname with ⟨st', hone, hks'⟩
  rw [preserves_iff hn hd0 (by rw [hrewritten]; exact htranslate) hknown, foldl_cons, foldl_nil,
    hone, hks', hks]
  constructor
  · intro h
    exact (put_inj h).symm
  · rintro rfl
    rfl

theorem preserves_setExpire {value : Int} (hname : lookupCommand name = some .set)
    (hsized : Sized [name, key, val])
    (hrewritten : (execute e lazyExpire flags d st cmd).rewritten = none)
    (htranslate : translate e.now argv = some [[name, key, val],
      catAppendOnlyExpireAtCommand e.now unit true key seconds])
    (hvalue : string2ll seconds = some value)
    (hks : (execute e lazyExpire flags d st cmd).store.ks = put st.ks d key
      (some (tryObjectEncoding val)) (some (expireTime unit e.now value))) :
    PreservesEffects e lazyExpire flags selected d0 d st argv cmd := by
  have hkey : key.length < 2 ^ 63 := hsized key (by simp)
  have hcmds : forall argv', argv' ∈ [[name, key, val],
      catAppendOnlyExpireAtCommand e.now unit true key seconds] ->
      Known aofTable .other argv' := by
    intro argv' hargv'
    rcases mem_cons.mp hargv' with rfl | hargv'
    · exact known_of_name hname hsized (Nat.le_refl 2)
    · rw [mem_singleton.mp hargv']
      exact known_expireAt _ _ _ _ hkey
  rcases replay_set e lazyExpire d st key val hname with ⟨st1, hone, hks1⟩
  have hcell : st1.ks.dict d key = some (tryObjectEncoding val) := by
    rw [hks1]
    exact updateAt_same _ _ _ _
  have hparam := string2ll_ll2string (expireTime_range unit e.now value)
  rcases replay_pexpireat e lazyExpire d st1 pexpireatName (by decide) hparam hcell with
    ⟨st2, htwo, hks2⟩
  have hcommand : catAppendOnlyExpireAtCommand e.now unit true key seconds =
      [pexpireatName, key, ll2string (expireTime unit e.now value)] := by
    unfold catAppendOnlyExpireAtCommand
    rw [if_pos rfl, strtol_of_string2ll hvalue]
  rw [preserves_iff hn hd0 (by rw [hrewritten]; exact htranslate) hcmds, foldl_cons, foldl_cons,
    foldl_nil, hone, hcommand, htwo, hks2, hks1, put_put, hks]

theorem preserves_setex {sc : SetCommand} (hargs : sc.args = some a)
    (harg : a.expire = some arg) (hsized : Sized [setName, a.key, a.val])
    (htranslate : translate e.now argv = some [[setName, a.key, a.val],
      catAppendOnlyExpireAtCommand e.now a.unit true a.key arg])
    (hdirty : 0 < (execute e lazyExpire flags d st (.setlike sc)).dirty) :
    PreservesEffects e lazyExpire flags selected d0 d st argv (.setlike sc) := by
  have hproc : setProc e st d flags sc = setGenericCommand e st d flags a := by
    unfold setProc
    rw [hargs]
  have hdirty' : 0 < (setGenericCommand e st d flags a).dirty := by
    rw [← hproc]
    exact hdirty
  rcases setGenericCommand_expires harg hdirty' with ⟨value, hvalue, _, hks⟩
  rw [← hproc] at hks
  exact preserves_setExpire hn hd0 (by decide) hsized rfl htranslate hvalue hks

theorem preserves_deletion
    (hkey : key.length < 2 ^ 63)
    (hrewritten : (execute e lazyExpire flags d st cmd).rewritten = some (deletion lazyExpire key))
    (hks : (execute e lazyExpire flags d st cmd).store.ks = put st.ks d key none none) :
    PreservesEffects e lazyExpire flags selected d0 d st argv cmd := by
  have hname : exists name, deletion lazyExpire key = [name, key] ∧ name.length < 2 ^ 63 ∧
      (lookupCommand name = some .del ∨ lookupCommand name = some .unlink) := by
    cases lazyExpire with
    | true => exact ⟨_, rfl, by decide, Or.inr (by decide)⟩
    | false => exact ⟨_, rfl, by decide, Or.inl (by decide)⟩
  rcases hname with ⟨name, hargv', hlen, hname⟩
  have hknown : forall argv', argv' ∈ [deletion lazyExpire key] -> Known aofTable .other argv' := by
    intro argv' hmem
    have hsized : Sized [name, key] := by
      intro s hs
      simp only [mem_cons, not_mem_nil, or_false] at hs
      rcases hs with rfl | rfl
      · exact hlen
      · exact hkey
    rw [mem_singleton.mp hmem, hargv']
    rcases hname with hname | hname
    · exact known_of_name hname hsized (Nat.le_succ 1)
    · exact known_of_name hname hsized (Nat.le_succ 1)
  rcases replay_del e lazyExpire d st key hname with ⟨st', hone, hks'⟩
  have htranslate := translate_deletion e.now lazyExpire key
  rw [preserves_iff hn hd0 (by rw [hrewritten]; exact htranslate) hknown, foldl_cons, foldl_nil,
    hargv', hone, hks', hks]

theorem preserves_expireAt {o : Robj} {t : Int} (hname : lookupCommand name = some .pexpireat)
    (hsized : Sized [name, key, param]) (hparam : string2ll param = some t)
    (hcell : st.ks.dict d key = some o)
    (hrewritten : (execute e lazyExpire flags d st cmd).rewritten = none)
    (htranslate : translate e.now argv = some [[name, key, param]])
    (hks : (execute e lazyExpire flags d st cmd).store.ks = put st.ks d key (some o) (some t)) :
    PreservesEffects e lazyExpire flags selected d0 d st argv cmd := by
  have hknown := forall_mem_singleton.mpr (known_of_name hname hsized (Nat.le_refl 2))
  rcases replay_pexpireat e lazyExpire d st name hname hparam hcell with ⟨st', hone, hks'⟩
  rw [preserves_iff hn hd0 (by rw [hrewritten]; exact htranslate) hknown, foldl_cons, foldl_nil,
    hone, hks', hks]

theorem preserves_expire {relative : Bool}
    (hargv : parseArgv argv = some (.expire unit relative key param)) (hsized : Sized argv)
    (hdirty : 0 < (execute e lazyExpire flags d st (.expire unit relative key param)).dirty) :
    PreservesEffects e lazyExpire flags selected d0 d st argv
      (.expire unit relative key param) := by
  rcases parseArgv_named hargv with ⟨name, _, rfl, rfl, hname⟩
  have hkey : key.length < 2 ^ 63 := hsized key (by simp)
  rcases expireGenericCommand_effect hdirty with
    ⟨value, o, hvalue, hcell, ⟨_, hrewritten, hks⟩ | ⟨_, hrewritten, hks⟩⟩
  · exact preserves_deletion hn hd0 hkey hrewritten hks
  by_cases habsolute : unit = .milliseconds ∧ relative = false
  · -- PEXPIREAT is fed as it is
    have htranslate : translate e.now [name, key, param] = some [[name, key, param]] := by
      simp only [Aof.translate, hargv]
      rw [if_pos habsolute]
    have htime : expireTime unit (if relative then e.now else 0) value = value := by
      rw [habsolute.left, habsolute.right]
      exact expireTime_absolute (string2ll_range hvalue)
    rw [htime] at hks
    exact preserves_expireAt hn hd0 (hname habsolute) hsized hvalue hcell hrewritten htranslate hks
  · have htranslate : translate e.now [name, key, param] = some [[pexpireatName, key,
        ll2string (expireTime unit (if relative then e.now else 0) value)]] := by
      simp only [Aof.translate, hargv]
      rw [if_neg habsolute, catAppendOnlyExpireAtCommand, strtol_of_string2ll hvalue]
    have hrange := expireTime_range unit (if relative then e.now else 0) value
    have hknown := (known_expireAt e.now unit relative param hkey).left.sized
    rw [catAppendOnlyExpireAtCommand, strtol_of_string2ll hvalue] at hknown
    exact preserves_expireAt hn hd0 (by decide) hknown (string2ll_ll2string hrange) hcell
      hrewritten htranslate hks

theorem preserves_set_scanned {sc : SetCommand} {o : SetOptions}
    (hname : lookupCommand name = some .set)
    (hsized : Sized [name, key, val]) (hcmd : cmd = .setlike sc)
    (htranslate : translate e.now argv = some ([name, key, val] ::
      ((exarg.map (catAppendOnlyExpireAtCommand e.now .seconds true key)).toList ++
        (pxarg.map (catAppendOnlyExpireAtCommand e.now .milliseconds true key)).toList)))
    (hproc : setProc e st d flags sc = setGenericCommand e st d flags a)
    (hdirty : 0 < (setGenericCommand e st d flags a).dirty) (hcoherent : Coherent o)
    (hscanned : Scanned SetOptions.none o none none exarg pxarg)
    (hone : exarg = none ∨ pxarg = none)
    (ha : a.key = key ∧ a.val = val ∧ a.expire = o.expire ∧ a.unit = o.unit ∧ a.keepttl = o.keepttl) :
    PreservesEffects e lazyExpire flags selected d0 d st argv cmd <->
      Not (o.keepttl = true ∧ (st.expireIfNeeded e d key).1.ks.expires d key ≠ none) := by
  subst hcmd
  rcases ha with ⟨rfl, rfl, hexpire, hunit, hkeepttl⟩
  -- The scan finds the argument the option loop found.
  have hexpires : forall unit v, o.expire = some v -> o.unit = unit -> Not (o.keepttl = true) ->
      translate e.now argv = some [[name, a.key, a.val],
        catAppendOnlyExpireAtCommand e.now unit true a.key v] ->
      (PreservesEffects e lazyExpire flags selected d0 d st argv (.setlike sc) <->
        Not (o.keepttl = true ∧ (st.expireIfNeeded e d a.key).1.ks.expires d a.key ≠ none)) := by
    rintro _ v hv rfl hkeep htranslate
    rcases setGenericCommand_expires (hexpire.trans hv) hdirty with ⟨value, hvalue, _, hks⟩
    rw [← hproc, hunit] at hks
    exact ⟨fun _ h => hkeep h.left, fun _ =>
      preserves_setExpire hn hd0 hname hsized rfl htranslate hvalue hks⟩
  by_cases hex : o.ex = true
  · rcases hcoherent.some (Or.inl hex) with ⟨v, hv⟩
    have hfound := hscanned.seconds hex
    rw [hv] at hfound
    rw [hfound.found, hone.resolve_left (by simp [hfound.found])] at htranslate
    refine hexpires _ v hv (hcoherent.seconds hex) ?_ htranslate
    intro hkeep
    rw [(hcoherent.keepttl hkeep).left] at hex
    cases hex
  by_cases hpx : o.px = true
  · rcases hcoherent.some (Or.inr hpx) with ⟨v, hv⟩
    have hfound := hscanned.milliseconds hpx
    rw [hv] at hfound
    rw [hfound.found, hone.resolve_right (by simp [hfound.found])] at htranslate
    refine hexpires _ v hv (hcoherent.milliseconds hpx) ?_ htranslate
    intro hkeep
    rw [(hcoherent.keepttl hkeep).right] at hpx
    cases hpx
  · -- neither: the file has the SET alone
    have hno : o.ex = false ∧ o.px = false := by
      simp at hex hpx
      exact ⟨hex, hpx⟩
    rcases hscanned.neither hno.left hno.right with ⟨rfl, rfl⟩
    rcases setGenericCommand_effect hdirty with ⟨ms, hms, hks⟩
    have hmsnone := milliseconds_none (hexpire.trans (hcoherent.none hno.left hno.right)) hms
    subst hmsnone
    rw [← hproc] at hks
    have hiff : PreservesEffects e lazyExpire flags selected d0 d st argv (.setlike sc) <-> _ :=
      preserves_set hn hd0 hname hsized rfl htranslate hks
    rw [hiff, hkeepttl]
    cases o.keepttl with
    | true => simp
    | false => simp

theorem preserves_set_iff (hargv : parseArgv argv = some (.setlike (.set key val options)))
    (hsized : Sized argv)
    (hdirty : 0 < (execute e lazyExpire flags d st (.setlike (.set key val options))).dirty) :
    PreservesEffects e lazyExpire flags selected d0 d st argv (.setlike (.set key val options)) <->
      Not (LosesTtl e d st (.setlike (.set key val options))) ∧
        Not (ScansBoth (.setlike (.set key val options))) := by
  rcases parseArgv_named hargv with ⟨name, _, rfl, rfl, hname⟩
  have hsized' : Sized [name, key, val] := by
    intro s hs
    apply hsized
    simp only [mem_cons, not_mem_nil, or_false] at hs ⊢
    rcases hs with hs | hs | hs
    · exact Or.inl hs
    · exact Or.inr (Or.inl hs)
    · exact Or.inr (Or.inr (Or.inl hs))
  have hdirty' : 0 < (setProc e st d flags (.set key val options)).dirty := hdirty
  cases hparse : parseSetOptions options SetOptions.none with
  | none =>
    unfold setProc SetCommand.args at hdirty'
    simp only [hparse] at hdirty'
    exact absurd hdirty' (Nat.lt_irrefl 0)
  | some o =>
    have hcoherent := (parse_coherent hparse coherent_none).left
    let a : SetArgs :=
      { name := "set", nx := o.nx, xx := o.xx, keepttl := o.keepttl, key := key, val := val,
        expire := o.expire, unit := o.unit, okReply := .ok, abortReply := .null }
    have hproc : setProc e st d flags (.set key val options) =
        setGenericCommand e st d flags a := by
      unfold setProc SetCommand.args
      simp only [hparse]
      rfl
    rw [hproc] at hdirty'
    have hloses : LosesTtl e d st (.setlike (.set key val options)) <->
        o.keepttl = true ∧ (st.expireIfNeeded e d key).1.ks.expires d key ≠ none := by
      constructor
      · rintro ⟨_, _, _, o', hcmd, hparse', hkeep⟩
        cases hcmd
        rw [hparse] at hparse'
        cases hparse'
        exact hkeep
      · intro hkeep
        exact ⟨key, val, options, o, rfl, hparse, hkeep⟩
    have hval : forall v, o.expire = some v -> isEx v = false ∧ isPx v = false := by
      intro v hv
      rcases setGenericCommand_expires (a := a) hv hdirty' with ⟨value, hvalue, _⟩
      exact not_option_of_string2ll hvalue
    rcases scan_spec hparse coherent_none hval none none with ⟨exarg, pxarg, hscan, hscanned⟩
    by_cases hboth : exarg ≠ none ∧ pxarg ≠ none
    · -- the assertion of the feeder fails
      rcases ne_none_iff_exists'.mp hboth.left with ⟨x, rfl⟩
      rcases ne_none_iff_exists'.mp hboth.right with ⟨y, rfl⟩
      constructor
      · rintro ⟨bytes, st', hfeed, _⟩
        have hnone : translate e.now (name :: key :: val :: options) = none := by
          cases options with
          | nil => cases hscan
          | cons b options => simp only [Aof.translate, hargv, hscan]
        have hfeed' : feedAppendOnlyFile e.now selected d (name :: key :: val :: options) =
          some bytes := hfeed
        unfold feedAppendOnlyFile at hfeed'
        rw [hnone] at hfeed'
        cases hfeed'
      · rintro ⟨_, hscans⟩
        exact absurd ⟨key, val, options, x, y, rfl, hscan⟩ hscans
    · have hone : exarg = none ∨ pxarg = none := by
        by_contra h
        exact hboth (not_or.mp h)
      have hscans : Not (ScansBoth (.setlike (.set key val options))) := by
        rintro ⟨_, _, _, x, y, hcmd, hscan'⟩
        cases hcmd
        rw [hscan] at hscan'
        cases hscan'
        exact hboth ⟨some_ne_none x, some_ne_none y⟩
      have htranslate : translate e.now (name :: key :: val :: options) = some ([name, key, val] ::
            ((exarg.map (catAppendOnlyExpireAtCommand e.now .seconds true key)).toList ++
              (pxarg.map (catAppendOnlyExpireAtCommand e.now .milliseconds true key)).toList)) := by
        cases options with
        | nil =>
          cases hscan
          simp only [Aof.translate, hargv]
          rfl
        | cons b options => exact translate_set hargv hscan hone
      rw [hloses, and_iff_left hscans]
      exact preserves_set_scanned hn hd0 hname hsized' rfl htranslate hproc hdirty' hcoherent
        hscanned hone ⟨rfl, rfl, rfl, rfl, rfl⟩

end Cases

end Aof

open Aof

/-- What the file gets for a command that succeeds has its effects exactly when no `SET`
with `KEEPTTL` kept an expire time and the feeder does not take an argument of `SET` for
another option. -/
theorem aof_feed_preserves_iff (e : Env) (lazyExpire : Bool) (flags : SyncReply)
    (selected : Option (Fin n)) (d0 d : Fin n) (st : Store n) (argv : List Sds) (cmd : AofCommand)
    (hn : n < 2 ^ 31) (hd0 : forall s, selected = some s -> d0 = s)
    (hargv : parseArgv argv = some cmd) (htimed : cmd.Timed) (hsized : Sized argv)
    (hdirty : 0 < (execute e lazyExpire flags d st cmd).dirty) :
    PreservesEffects e lazyExpire flags selected d0 d st argv cmd <->
      Not (LosesTtl e d st cmd) ∧ Not (ScansBoth cmd) := by
  cases cmd with
  | setlike sc =>
    cases sc with
    | set key val options => exact preserves_set_iff hn hd0 hargv hsized hdirty
    | setnx key val => cases htimed
    | setex key seconds val | psetex key ms val =>
      rcases parseArgv_named hargv with ⟨name, _, rfl, rfl⟩
      refine ⟨fun _ => not_special (fun _ _ _ h => by cases h), fun _ => ?_⟩
      apply preserves_setex hn hd0 rfl rfl (sized_set hsized) _ hdirty
      simp only [Aof.translate, hargv]
  | expire unit relative key param =>
    have hpreserves := preserves_expire hn hd0 hargv hsized hdirty
    exact ⟨fun _ => not_special (fun _ _ _ h => by cases h), fun _ => hpreserves⟩
  | del key => cases htimed
  | select index => cases htimed

def masterAt : Env where
  now := 1000
  masterhost := false
  loading := false

def volatileStore : Store 1 where
  ks :=
    { dict := fun _ k => if k = [107] then some (.embstr [118]) else none
      expires := fun _ k => if k = [107] then some 5000 else none }
  fed := []

theorem aof_feed_preserves_ex :
    PreservesEffects masterAt false SyncReply.clear none 0 0 volatileStore
      [[83, 69, 84], [108], [119], [78, 88], [69, 88], [49, 48]]
      (.setlike (.set [108] [119] [[78, 88], [69, 88], [49, 48]])) := by
  have hscan : scanExpire [[78, 88], [69, 88], [49, 48]] none none = some (some [49, 48], none) := by
    decide
  have hsized : Sized [[83, 69, 84], [108], [119], [78, 88], [69, 88], [49, 48]] := by
    intro s hs
    have hlen : forall s' : Sds, s' ∈ [[83, 69, 84], [108], [119], [78, 88], [69, 88], [49, 48]] ->
        s'.length ≤ 3 := by decide
    exact Nat.lt_of_le_of_lt (hlen s hs) (by decide)
  refine (aof_feed_preserves_iff _ _ _ _ _ _ _ _ _ (by decide) (fun _ h => by cases h) (by decide)
    (by exact trivial) hsized (by decide +kernel)).mpr ?_
  constructor
  · rintro ⟨key, val, options, o, hcmd, hparse, hkeep, _⟩
    cases hcmd
    have hoptions : (parseSetOptions [[78, 88], [69, 88], [49, 48]] SetOptions.none).map
        SetOptions.keepttl = some false := by decide
    rw [hparse, map_some, hkeep] at hoptions
    cases hoptions
  · rintro ⟨key, val, options, exarg, pxarg, hcmd, hboth⟩
    cases hcmd
    rw [hscan] at hboth
    cases hboth

/-- `SET k w KEEPTTL` keeps the expire time and is fed as `SET k w`, which drops it.
`SET k w EX px EX 20` succeeds, and the feeder asserts. -/
theorem aof_feed_loses_ttl :
    ((execute masterAt false SyncReply.clear 0 volatileStore
        (.setlike (.set [107] [119] [[75, 69, 69, 80, 84, 84, 76]]))).dirty = 1 ∧
      (execute masterAt false SyncReply.clear 0 volatileStore
        (.setlike (.set [107] [119] [[75, 69, 69, 80, 84, 84, 76]]))).store.ks.expires 0 [107] =
        some 5000 ∧
      (((feedAppendOnlyFile masterAt.now (some 0) (0 : Fin 1)
        [[83, 69, 84], [107], [119], [75, 69, 69, 80, 84, 84, 76]]).bind
        (replay masterAt false 0 volatileStore)).map fun st => st.ks.expires 0 [107]) =
        some none) ∧
    ((execute masterAt false SyncReply.clear 0 volatileStore
        (.setlike (.set [107] [119] [[69, 88], [112, 120], [69, 88], [50, 48]]))).dirty = 1 ∧
      feedAppendOnlyFile masterAt.now (some 0) (0 : Fin 1)
        [[83, 69, 84], [107], [119], [69, 88], [112, 120], [69, 88], [50, 48]] = none) := by
  decide +kernel

end Redisoo
