import Mathlib.Data.List.Induction
import Mathlib.Data.List.TakeWhile
import Redisoo.Security.Acl

/-!
# The last rule decides

What an accepted rule does to a command, and from it that the verdict of
`ACLCheckCommandPerm` is the one of the last rule about the command.
-/

namespace Redisoo
namespace Acl

open Foundation List

/-!
# Accepted rules
-/

inductive Applied (T : Table) (H : Hasher) (u : User) : Op -> User -> Prop where
  | on : Applied T H u .on { u with flags := { u.flags with enabled := true, disabled := false } }
  | off : Applied T H u .off (off u)
  | allkeys :
      Applied T H u .allkeys { u with flags := { u.flags with allkeys := true }, patterns := [] }
  | resetkeys : Applied T H u .resetkeys (resetkeys u)
  | allcommands : Applied T H u .allcommands (allcommands u)
  | nocommands : Applied T H u .nocommands (nocommands u)
  | nopass :
      Applied T H u .nopass { u with flags := { u.flags with nopass := true }, passwords := [] }
  | resetpass : Applied T H u .resetpass (resetpass u)
  | addPassword {clear : Bool} {text newpass : Sds} (hpass : passwordOf H clear text = .ok newpass) :
      Applied T H u (.addPassword clear text)
        { u with
          passwords := if newpass ∈ u.passwords then u.passwords else u.passwords ++ [newpass]
          flags := { u.flags with nopass := false } }
  | delPassword {clear : Bool} {text delpass : Sds} (hpass : passwordOf H clear text = .ok delpass)
      (hmem : delpass ∈ u.passwords) :
      Applied T H u (.delPassword clear text) { u with passwords := u.passwords.erase delpass }
  | addPattern {pat : Sds} (hkeys : u.flags.allkeys = false)
      (hspaces : ACLStringHasSpaces pat = false) :
      Applied T H u (.addPattern pat)
        { u with
          patterns := if pat ∈ u.patterns then u.patterns else u.patterns ++ [pat]
          flags := { u.flags with allkeys := false } }
  | addCommand {name : Sds} {c : Command} (hlookup : ACLLookupCommand T name = some c) :
      Applied T H u (.addCommand name) (setCommand u c.id true)
  | addSubcommand {name sub : Sds} {c : Command} (hlookup : ACLLookupCommand T name = some c)
      (hsub : sub ≠ []) (hclear : ACLGetUserCommandBit u c.id = false) :
      Applied T H u (.addSubcommand name sub)
        (ACLSetUserCommandBit (ACLAddAllowedSubcommand u c.id sub) c.id false)
  | delCommand {name : Sds} {c : Command} (hlookup : ACLLookupCommand T name = some c) :
      Applied T H u (.delCommand name) (setCommand u c.id false)
  | category {value : Bool} {name : Sds} {cflag : Nat}
      (hflag : ACLGetCommandCategoryFlagByName name = some cflag) :
      Applied T H u (.category value name) (setCategory T.cmds u cflag value)
  | reset : Applied T H u .reset (Acl.nocommands (Acl.off (Acl.resetkeys (Acl.resetpass u))))

variable {u : User} {name sub a b : Sds}

theorem applied_iff {T : Table} {H : Hasher} {u' : User} {op : Op} :
    applyOp T H u op = .ok u' <-> Applied T H u op u' := by
  constructor
  · intro h
    cases op with
    | on | off | allkeys | resetkeys | allcommands | nocommands | nopass | resetpass | reset =>
      cases h
      constructor
    | addPassword clear text =>
      simp only [applyOp, bind, Except.bind] at h
      split at h
      · cases h
      · next hpass =>
        cases h
        exact .addPassword hpass
    | delPassword clear text =>
      simp only [applyOp, bind, Except.bind] at h
      split at h
      · cases h
      · next hpass =>
        split at h
        · next hmem =>
          cases h
          exact .delPassword hpass hmem
        · cases h
    | addPattern pat =>
      simp only [applyOp] at h
      split at h
      · cases h
      · next hkeys =>
        split at h
        · cases h
        · next hspaces =>
          cases h
          exact .addPattern (Bool.eq_false_iff.mpr hkeys) (Bool.eq_false_iff.mpr hspaces)
    | addCommand name | delCommand name =>
      simp only [applyOp] at h
      split at h
      · cases h
      · next hlookup =>
        cases h
        constructor
        exact hlookup
    | addSubcommand name sub =>
      simp only [applyOp] at h
      split at h
      · cases h
      · next hlookup =>
        split at h
        · cases h
        · next hsub =>
          split at h
          · cases h
          · next hclear =>
            cases h
            exact .addSubcommand hlookup (fun hnil => hsub (by rw [hnil]; rfl))
              (Bool.eq_false_iff.mpr hclear)
    | category value name =>
      simp only [applyOp, ACLSetUserCommandBitsForCategory] at h
      cases hflag : ACLGetCommandCategoryFlagByName name with
      | none =>
        rw [hflag] at h
        cases h
      | some cflag =>
        rw [hflag] at h
        cases h
        exact .category hflag
    | unknown => cases h
  · intro h
    cases h with
    | on | off | allkeys | resetkeys | allcommands | nocommands | nopass | resetpass | reset => rfl
    | addPassword hpass =>
      simp only [applyOp, hpass]
      rfl
    | delPassword hpass hmem =>
      simp only [applyOp, hpass]
      exact if_pos hmem
    | addPattern hkeys hspaces => simp [applyOp, hkeys, hspaces]
    | addCommand hlookup | delCommand hlookup => simp only [applyOp, hlookup]
    | addSubcommand hlookup hsub hclear =>
      simp [applyOp, hlookup, hclear, hsub]
    | category hflag =>
      simp only [applyOp, ACLSetUserCommandBitsForCategory, hflag]
      rfl

/-!
# Names
-/

theorem byte_spellable (h : spellable name = true) {b : UInt8} (hb : b ∈ name) :
    b ≠ 0 ∧ b ≠ 32 ∧ b ≠ 124 ∧ tolower b = b := by
  unfold spellable at h
  simp only [Bool.and_eq_true, all_eq_true, decide_eq_true_eq, beq_iff_eq] at h
  exact ⟨(h.left.left b hb).left.left.left, (h.left.left b hb).left.left.right,
    (h.left.left b hb).left.right, (h.left.left b hb).right⟩

variable {s : Sds} {cmd : Command} {rules : List Op} {c : Command}

theorem cstr_of_no_null (h : forall b, b ∈ s -> b ≠ 0) : cstr s = s := by
  unfold cstr
  rw [takeWhile_eq_self_iff]
  intro b hb
  simpa using h b hb

theorem lower_spellable (h : spellable name = true) : (cstr name).map tolower = name := by
  rw [cstr_of_no_null fun b hb => (byte_spellable h hb).left]
  conv_rhs => rw [← map_id name]
  apply map_congr_left
  intro b hb
  exact (byte_spellable h hb).right.right.right

theorem hasName_iff (h : spellable c.name = true) (name : Sds) :
    c.hasName name = true <-> c.name = (cstr name).map tolower := by
  have hlower := lower_spellable h
  unfold Command.hasName strcasecmpEq
  unfold cstr at hlower ⊢
  rw [beq_iff_eq, hlower]

section Table

variable {T : Table} {c : Command}

theorem lookup_some (h : ACLLookupCommand T name = some c) :
    c ∈ T.cmds ∧ forall cmd, cmd ∈ T.cmds -> (cmd.hasName name = true <-> cmd = c) := by
  unfold ACLLookupCommand at h
  have hmem := mem_of_find?_eq_some h
  have hname := List.find?_some h
  refine ⟨hmem, ?_⟩
  intro cmd hcmd
  constructor
  · intro hsame
    apply T.sameName cmd c hcmd hmem
    rw [(hasName_iff (T.spelled cmd hcmd) name).mp hsame,
      (hasName_iff (T.spelled c hmem) name).mp hname]
  · intro heq
    rw [heq]
    exact hname

section

variable (hc : c ∈ T.cmds)
include hc

theorem lookup_self : ACLLookupCommand T c.name = some c := by
  have hspelled := T.spelled c hc
  have hself : c.hasName c.name = true :=
    (hasName_iff hspelled c.name).mpr (lower_spellable hspelled).symm
  cases hfind : ACLLookupCommand T c.name with
  | none => exact absurd hself (List.find?_eq_none.mp hfind c hc)
  | some c' =>
    rcases lookup_some hfind with ⟨_, hname⟩
    rw [(hname c hc).mp hself]

theorem id_eq_iff (hcmd : cmd ∈ T.cmds) : cmd.id = c.id <-> cmd = c := by
  constructor
  · exact T.sameId cmd c hcmd hc
  · intro heq
    rw [heq]

theorem id_lt : c.id < USER_COMMAND_BITS_COUNT :=
  Nat.lt_of_lt_of_le (T.inBits c hc) (Nat.sub_le _ _)

theorem getBit_eq (u : User) : ACLGetUserCommandBit u c.id = u.allowedCommands c.id :=
  if_neg (Nat.not_le_of_lt (id_lt hc))

end

end Table

/-!
# Bits
-/

theorem setBit_bit {id : Nat} (hid : id < USER_COMMAND_BITS_COUNT) (value : Bool) (j : Nat) :
    (ACLSetUserCommandBit u id value).allowedCommands j =
      if j = id then value else u.allowedCommands j := by
  unfold ACLSetUserCommandBit
  rw [if_neg (Nat.not_le_of_lt hid)]
  cases value with
  | true => rfl
  | false => rfl

theorem setBit_subcommands (u : User) (id : Nat) (value : Bool) :
    (ACLSetUserCommandBit u id value).allowedSubcommands = u.allowedSubcommands := by
  unfold ACLSetUserCommandBit
  split
  · rfl
  · cases value with
    | true => rfl
    | false => rfl

theorem setCommand_bit {id : Nat} (hid : id < USER_COMMAND_BITS_COUNT) (value : Bool) (j : Nat) :
    (setCommand u id value).allowedCommands j = if j = id then value else u.allowedCommands j :=
  setBit_bit hid value j

theorem setCommand_subcommands (u : User) (id : Nat) (value : Bool) (j : Nat) :
    (setCommand u id value).allowedSubcommands j =
      if j = id then [] else u.allowedSubcommands j := by
  unfold setCommand ACLResetSubcommandsForCommand
  rw [setBit_subcommands]

theorem setCategory_spec {cmds : List Command}
    (hbits : forall c, c ∈ cmds -> c.id < USER_COMMAND_BITS_COUNT)
    (u : User) (cflag : Nat) (value : Bool) (j : Nat) :
    ((exists c, c ∈ cmds ∧ c.inCategory cflag = true ∧ c.id = j) ->
        (setCategory cmds u cflag value).allowedCommands j = value ∧
          (setCategory cmds u cflag value).allowedSubcommands j = []) ∧
      (Not (exists c, c ∈ cmds ∧ c.inCategory cflag = true ∧ c.id = j) ->
        (setCategory cmds u cflag value).allowedCommands j = u.allowedCommands j ∧
          (setCategory cmds u cflag value).allowedSubcommands j = u.allowedSubcommands j) := by
  induction cmds generalizing u with
  | nil =>
    constructor
    · rintro ⟨c, hc, _⟩
      cases hc
    · intro _
      exact ⟨rfl, rfl⟩
  | cons c cmds ih =>
    have hid := hbits c mem_cons_self
    have hrest := ih (fun c' hc' => hbits c' (mem_cons_of_mem c hc'))
      (if c.inCategory cflag then setCommand u c.id value else u)
    have hcons : setCategory (c :: cmds) u cflag value =
        setCategory cmds (if c.inCategory cflag then setCommand u c.id value else u) cflag value :=
      rfl
    rw [hcons]
    by_cases hlater : exists c', c' ∈ cmds ∧ c'.inCategory cflag = true ∧ c'.id = j
    · constructor
      · intro _
        exact hrest.left hlater
      · rintro hnone
        rcases hlater with ⟨c', hc', hcat, hj⟩
        exact absurd ⟨c', mem_cons_of_mem c hc', hcat, hj⟩ hnone
    · rcases hrest.right hlater with ⟨hbit, hsubs⟩
      constructor
      · rintro ⟨c', hc', hcat, hj⟩
        rcases mem_cons.mp hc' with rfl | hc'
        · rw [if_pos hcat] at hbit hsubs
          rw [setCommand_bit hid, if_pos hj.symm] at hbit
          rw [setCommand_subcommands, if_pos hj.symm] at hsubs
          rw [if_pos hcat]
          exact ⟨hbit, hsubs⟩
        · exact absurd ⟨c', hc', hcat, hj⟩ hlater
      · intro hnone
        by_cases hcat : c.inCategory cflag = true
        · have hj : Not (j = c.id) :=
            fun hj => hnone ⟨c, mem_cons_self, hcat, hj.symm⟩
          rw [if_pos hcat] at hbit hsubs ⊢
          rw [setCommand_bit hid, if_neg hj] at hbit
          rw [setCommand_subcommands, if_neg hj] at hsubs
          exact ⟨hbit, hsubs⟩
        · rw [if_neg hcat] at hbit hsubs ⊢
          exact ⟨hbit, hsubs⟩

/-!
# What a rule does to a command
-/

def decisive (cmd : Command) : Op -> Option Bool
  | .allcommands => some true
  | .nocommands => some false
  | .reset => some false
  | .category value name =>
    if (ACLGetCommandCategoryFlagByName name).any cmd.inCategory then some value else none
  | .addCommand name => if cmd.hasName name then some true else none
  | .delCommand name => if cmd.hasName name then some false else none
  | _ => none

def addedSub (cmd : Command) : Op -> Option Sds
  | .addSubcommand name sub => if cmd.hasName name then some sub else none
  | _ => none

def addSub (subs : List Sds) (sub : Sds) : List Sds :=
  if subs.any fun s => strcasecmpEq s sub then subs else subs ++ [sub]

inductive Effect (u u' : User) (cmd : Command) (op : Op) : Prop where
  | decided (value : Bool) (hdecisive : decisive cmd op = some value)
      (hbit : u'.allowedCommands cmd.id = value) (hsubs : u'.allowedSubcommands cmd.id = [])
  | extended (sub : Sds) (hsub : sub ≠ []) (hdecisive : decisive cmd op = none)
      (hadded : addedSub cmd op = some sub)
      (hclear : u.allowedCommands cmd.id = false) (hbit : u'.allowedCommands cmd.id = false)
      (hsubs : u'.allowedSubcommands cmd.id = addSub (u.allowedSubcommands cmd.id) sub)
  | kept (hdecisive : decisive cmd op = none) (hadded : addedSub cmd op = none)
      (hbit : u'.allowedCommands cmd.id = u.allowedCommands cmd.id)
      (hsubs : u'.allowedSubcommands cmd.id = u.allowedSubcommands cmd.id)

section Rules

variable {T : Table} {H : Hasher} {u u' : User} {cmd : Command} {name : Sds} {op : Op}

open Effect

theorem effect_setCommand (hc : c ∈ T.cmds) (hcmd : cmd ∈ T.cmds)
    (hname : cmd.hasName name = true <-> cmd = c) {value : Bool}
    (hop : decisive cmd op = if cmd.hasName name then some value else none)
    (hadded : addedSub cmd op = none) : Effect u (setCommand u c.id value) cmd op := by
  by_cases heq : cmd = c
  · have hid : cmd.id = c.id := by rw [heq]
    apply decided value
    · rw [hop, if_pos (hname.mpr heq)]
    · rw [setCommand_bit (id_lt hc), if_pos hid]
    · rw [setCommand_subcommands, if_pos hid]
  · have hid : Not (cmd.id = c.id) := fun h => heq ((id_eq_iff hc hcmd).mp h)
    apply kept
    · rw [hop, if_neg (fun h => heq (hname.mp h))]
    · exact hadded
    · rw [setCommand_bit (id_lt hc), if_neg hid]
    · rw [setCommand_subcommands, if_neg hid]

theorem effect_addSubcommand (hc : c ∈ T.cmds) (hcmd : cmd ∈ T.cmds)
    (hname : cmd.hasName name = true <-> cmd = c) (hsub : sub ≠ [])
    (hclear : u.allowedCommands c.id = false) :
    Effect u (ACLSetUserCommandBit (ACLAddAllowedSubcommand u c.id sub) c.id false) cmd
      (.addSubcommand name sub) := by
  have hbits : (ACLAddAllowedSubcommand u c.id sub).allowedCommands = u.allowedCommands := by
    unfold ACLAddAllowedSubcommand
    split
    · rfl
    · rfl
  have hsubs : forall j, (ACLAddAllowedSubcommand u c.id sub).allowedSubcommands j =
      if j = c.id then addSub (u.allowedSubcommands j) sub else u.allowedSubcommands j := by
    intro j
    unfold ACLAddAllowedSubcommand addSub
    by_cases hj : j = c.id
    · rw [if_pos hj, hj]
      split
      · rfl
      · exact if_pos rfl
    · rw [if_neg hj]
      split
      · rfl
      · exact if_neg hj
  by_cases heq : cmd = c
  · have hid : cmd.id = c.id := by rw [heq]
    refine extended sub hsub rfl ?_ ?_ ?_ ?_
    · exact if_pos (hname.mpr heq)
    · rw [hid]
      exact hclear
    · rw [setBit_bit (id_lt hc), if_pos hid]
    · rw [setBit_subcommands, hsubs, if_pos hid]
  · have hid : Not (cmd.id = c.id) := fun h => heq ((id_eq_iff hc hcmd).mp h)
    refine kept rfl ?_ ?_ ?_
    · exact if_neg (fun h => heq (hname.mp h))
    · rw [setBit_bit (id_lt hc), if_neg hid, hbits]
    · rw [setBit_subcommands, hsubs, if_neg hid]

theorem effect_category (hcmd : cmd ∈ T.cmds) {value : Bool} {cflag : Nat}
    (hflag : ACLGetCommandCategoryFlagByName name = some cflag) :
    Effect u (setCategory T.cmds u cflag value) cmd (.category value name) := by
  have hspec := setCategory_spec (fun c hc => @id_lt T c hc) u cflag value cmd.id
  by_cases hcat : cmd.inCategory cflag = true
  · rcases hspec.left ⟨cmd, hcmd, hcat, rfl⟩ with ⟨hbit, hsubs⟩
    refine decided value ?_ hbit hsubs
    simp [decisive, hflag, hcat]
  have hnone : Not (exists c, c ∈ T.cmds ∧ c.inCategory cflag = true ∧ c.id = cmd.id) := by
    rintro ⟨c, hc, hin, hid⟩
    rw [T.sameId c cmd hc hcmd hid] at hin
    exact hcat hin
  rcases hspec.right hnone with ⟨hbit, hsubs⟩
  refine kept ?_ rfl hbit hsubs
  simp [decisive, hflag, hcat]

theorem applied_effect (h : Applied T H u op u') (hcmd : cmd ∈ T.cmds) : Effect u u' cmd op := by
  cases h with
  | on | off | allkeys | resetkeys | nopass | resetpass => exact .kept rfl rfl rfl rfl
  | addPassword _ | delPassword _ _ | addPattern _ _ => exact .kept rfl rfl rfl rfl
  | allcommands => exact .decided true rfl rfl rfl
  | nocommands | reset => exact .decided false rfl rfl rfl
  | addCommand hlookup | delCommand hlookup =>
    rcases lookup_some hlookup with ⟨hc, hname⟩
    exact effect_setCommand hc hcmd (hname cmd hcmd) rfl rfl
  | addSubcommand hlookup hsub hclear =>
    rcases lookup_some hlookup with ⟨hc, hname⟩
    rw [getBit_eq hc] at hclear
    exact effect_addSubcommand hc hcmd (hname cmd hcmd) hsub hclear
  | category hflag => exact effect_category hcmd hflag

/-!
# The flag for all commands
-/

def FlagBits (u : User) : Prop :=
  u.flags.allcommands = true -> forall id, id < USER_COMMAND_BITS_COUNT -> u.allowedCommands id = true

theorem FlagBits.setBit (h : FlagBits u) (id : Nat) (value : Bool) :
    FlagBits (ACLSetUserCommandBit u id value) := by
  unfold ACLSetUserCommandBit
  split
  · exact h
  cases value with
  | true =>
    intro hflag j hj
    change (if j = id then true else u.allowedCommands j) = true
    split
    · rfl
    · exact h hflag j hj
  | false =>
    intro hflag
    cases hflag

theorem FlagBits.setCategory {cmds : List Command} (h : FlagBits u) (cflag : Nat) (value : Bool) :
    FlagBits (setCategory cmds u cflag value) := by
  induction cmds generalizing u with
  | nil => exact h
  | cons c cmds ih =>
    apply ih
    change FlagBits (if c.inCategory cflag = true then setCommand u c.id value else u)
    split
    · exact h.setBit c.id value
    · exact h

theorem FlagBits.addSubcommand (h : FlagBits u) (id : Nat) (sub : Sds) :
    FlagBits (ACLAddAllowedSubcommand u id sub) := by
  unfold ACLAddAllowedSubcommand
  split
  · exact h
  · exact h

theorem FlagBits.applied (hflag : FlagBits u) (h : Applied T H u op u') : FlagBits u' := by
  cases h with
  | on | off | allkeys | resetkeys | nopass | resetpass => exact hflag
  | addPassword _ | delPassword _ _ | addPattern _ _ => exact hflag
  | allcommands => exact fun _ _ _ => rfl
  | nocommands | reset =>
    intro hset
    cases hset
  | addCommand _ | delCommand _ => exact hflag.setBit _ _
  | addSubcommand _ _ _ => exact (hflag.addSubcommand _ _).setBit _ _
  | category _ => exact hflag.setCategory _ _

end Rules

/-!
# The declared verdict
-/

def LastPositive (cmd : Command) (rules : List Op) : Prop :=
  exists before rule after, rules = before ++ rule :: after ∧ decisive cmd rule = some true ∧
    forall r, r ∈ after -> decisive cmd r = none

def SubcommandSince (cmd : Command) (s : Sds) (rules : List Op) : Prop :=
  exists before after, rules = before ++ after ∧ (forall r, r ∈ after -> decisive cmd r = none) ∧
    exists r sub, r ∈ after ∧ addedSub cmd r = some sub ∧ strcasecmpEq s sub = true

theorem lastPositive_snoc {r : Op} :
    LastPositive cmd (rules ++ [r]) <->
      decisive cmd r = some true ∨ (decisive cmd r = none ∧ LastPositive cmd rules) := by
  constructor
  · rintro ⟨before, rule, after, heq, hrule, hafter⟩
    rcases eq_nil_or_concat after with hnil | ⟨init, last, hconcat⟩
    · subst hnil
      rcases append_inj' heq rfl with ⟨_, hlast⟩
      injection hlast with hlast
      rw [hlast]
      exact .inl hrule
    · subst hconcat
      have heq' : rules ++ [r] = (before ++ rule :: init) ++ [last] := by
        rw [heq]
        simp
      rcases append_inj' heq' rfl with ⟨hinit, hlast⟩
      injection hlast with hlast
      subst hlast
      refine .inr ⟨hafter r (by simp), before, rule, init, hinit, hrule, ?_⟩
      intro r' hr'
      exact hafter r' (by simp [hr'])
  · rintro (hpos | ⟨hnone, before, rule, after, heq, hrule, hafter⟩)
    · exact ⟨rules, r, [], rfl, hpos, fun r' hr' => absurd hr' (not_mem_nil)⟩
    refine ⟨before, rule, after ++ [r], by rw [heq]; simp, hrule, ?_⟩
    intro r' hr'
    rcases mem_append.mp hr' with hr' | hr'
    · exact hafter r' hr'
    · rw [mem_singleton.mp hr']
      exact hnone

theorem subcommandSince_snoc {r : Op} :
    SubcommandSince cmd s (rules ++ [r]) <->
      decisive cmd r = none ∧
        ((exists sub, addedSub cmd r = some sub ∧ strcasecmpEq s sub = true) ∨
          SubcommandSince cmd s rules) := by
  constructor
  · rintro ⟨before, after, heq, hafter, r', sub, hr', hadded, hsub⟩
    rcases eq_nil_or_concat after with hnil | ⟨init, last, hconcat⟩
    · subst hnil
      cases hr'
    subst hconcat
    have heq' : rules ++ [r] = (before ++ init) ++ [last] := by
      rw [heq]
      simp
    rcases append_inj' heq' rfl with ⟨hinit, hlast⟩
    injection hlast with hlast
    subst hlast
    refine ⟨hafter r (by simp), ?_⟩
    rcases mem_append.mp (by simpa using hr' : r' ∈ init ++ [r]) with hr' | hr'
    · exact .inr ⟨before, init, hinit, fun r'' hr'' => hafter r'' (by simp [hr'']), r', sub,
        hr', hadded, hsub⟩
    · rw [mem_singleton.mp hr'] at hadded
      exact .inl ⟨sub, hadded, hsub⟩
  · rintro ⟨hnone, ⟨sub, hadded, hsub⟩ | ⟨before, after, heq, hafter, r', sub, hr', hadded, hsub⟩⟩
    · refine ⟨rules, [r], rfl, ?_, r, sub, mem_singleton_self r, hadded, hsub⟩
      intro r' hr'
      rw [mem_singleton.mp hr']
      exact hnone
    · refine ⟨before, after ++ [r], by rw [heq, append_assoc], ?_, r', sub,
        mem_append_left _ hr', hadded, hsub⟩
      intro r'' hr''
      rcases mem_append.mp hr'' with hr'' | hr''
      · exact hafter r'' hr''
      · rw [mem_singleton.mp hr'']
        exact hnone

/-!
# Runs of rules
-/

structure Declared (u : User) (cmd : Command) (rules : List Op) : Prop where
  bit : u.allowedCommands cmd.id = true <-> LastPositive cmd rules
  subs : forall s, (exists sub, sub ∈ u.allowedSubcommands cmd.id ∧ strcasecmpEq s sub = true) <->
    SubcommandSince cmd s rules
  apart : u.allowedCommands cmd.id = true -> u.allowedSubcommands cmd.id = []

theorem strcasecmpEq_trans {a b c : Sds} (hab : strcasecmpEq a b = true)
    (hbc : strcasecmpEq b c = true) : strcasecmpEq a c = true := by
  unfold strcasecmpEq at *
  rw [beq_iff_eq] at *
  exact hab.trans hbc

theorem strcasecmpEq_symm (h : strcasecmpEq a b = true) : strcasecmpEq b a = true := by
  unfold strcasecmpEq at *
  rw [beq_iff_eq] at *
  exact h.symm

theorem mem_addSub {subs : List Sds} :
    (exists x, x ∈ addSub subs sub ∧ strcasecmpEq s x = true) <->
      strcasecmpEq s sub = true ∨ exists x, x ∈ subs ∧ strcasecmpEq s x = true := by
  unfold addSub
  split
  · next hany =>
    rw [any_eq_true] at hany
    rcases hany with ⟨x, hx, heq⟩
    constructor
    · exact .inr
    · rintro (hsub | h)
      · exact ⟨x, hx, strcasecmpEq_trans hsub (strcasecmpEq_symm heq)⟩
      · exact h
  · constructor
    · rintro ⟨x, hx, heq⟩
      rcases mem_append.mp hx with hx | hx
      · exact .inr ⟨x, hx, heq⟩
      · rw [mem_singleton.mp hx] at heq
        exact .inl heq
    · rintro (hsub | ⟨x, hx, heq⟩)
      · exact ⟨sub, by simp, hsub⟩
      · exact ⟨x, mem_append_left _ hx, heq⟩

theorem Declared.step {u' : User} {op : Op} (h : Declared u cmd rules)
    (heffect : Effect u u' cmd op) : Declared u' cmd (rules ++ [op]) := by
  cases heffect with
  | decided value hdecisive hbit hsubs =>
    constructor
    · rw [lastPositive_snoc, hbit, hdecisive]
      simp
    · intro s
      rw [subcommandSince_snoc, hdecisive, hsubs]
      simp
    · exact fun _ => hsubs
  | extended sub _ hdecisive hadded hclear hbit hsubs =>
    constructor
    · have hnot : Not (LastPositive cmd rules) := by
        rw [← h.bit, hclear]
        decide
      rw [lastPositive_snoc, hbit, hdecisive]
      simp [hnot]
    · intro s
      rw [subcommandSince_snoc, hsubs, mem_addSub, h.subs s, hadded]
      simp [hdecisive]
    · intro hset
      rw [hbit] at hset
      cases hset
  | kept hdecisive hadded hbit hsubs =>
    constructor
    · rw [lastPositive_snoc, hbit, h.bit, hdecisive]
      simp
    · intro s
      rw [subcommandSince_snoc, hsubs, h.subs s, hadded, hdecisive]
      simp
    · intro hset
      rw [hbit] at hset
      rw [hsubs]
      exact h.apart hset

theorem declared_create (cmd : Command) : Declared ACLCreateUser cmd [] where
  bit := by
    constructor
    · intro h
      cases h
    · rintro ⟨before, rule, after, heq, _⟩
      simp at heq
  subs := by
    intro s
    constructor
    · rintro ⟨sub, hsub, _⟩
      cases hsub
    rintro ⟨before, after, heq, _, r, sub, hr, _⟩
    rcases append_eq_nil_iff.mp heq.symm with ⟨_, hnil⟩
    rw [hnil] at hr
    cases hr
  apart := fun _ => rfl

theorem accepted_declared {T : Table} {H : Hasher} {ops : List Sds}
    (hrun : runSteps (ACLSetUser T H) ops ACLCreateUser = .ok u) :
    FlagBits u ∧ forall cmd, cmd ∈ T.cmds -> Declared u cmd (ops.map parseOp) := by
  induction ops using List.reverseRecOn generalizing u with
  | nil =>
    cases hrun
    refine ⟨?_, fun cmd _ => declared_create cmd⟩
    intro hset
    cases hset
  | append_singleton ops op ih =>
    rw [runSteps_append] at hrun
    cases hinit : runSteps (ACLSetUser T H) ops ACLCreateUser with
    | error e =>
      rw [hinit] at hrun
      cases hrun
    | ok u1 =>
      rw [hinit] at hrun
      cases hlast : ACLSetUser T H op u1 with
      | error e =>
        simp only [runSteps_cons_error hlast] at hrun
        cases hrun
      | ok u2 =>
        simp only [runSteps_cons_ok hlast, runSteps_nil] at hrun
        cases hrun
        rcases ih hinit with ⟨hflag, hdeclared⟩
        have happlied := applied_iff.mp hlast
        refine ⟨hflag.applied happlied, ?_⟩
        intro cmd hcmd
        rw [map_append]
        exact (hdeclared cmd hcmd).step (applied_effect happlied hcmd)

theorem commandDenied_iff (hdeclared : Declared u cmd rules)
    (hflag : u.flags.allcommands = true -> u.allowedCommands cmd.id = true)
    (hbit : ACLGetUserCommandBit u cmd.id = u.allowedCommands cmd.id) (argv : List Sds) :
    commandDenied u cmd argv = false <->
      (cmd.auth = true ∨ LastPositive cmd rules) ∨
        exists s, argv[1]? = some s ∧ SubcommandSince cmd s rules := by
  have hsub : (!subcommandMatches u cmd argv) = false <->
      exists s, argv[1]? = some s ∧ SubcommandSince cmd s rules := by
    rcases argv with _ | ⟨name, _ | ⟨arg, rest⟩⟩
    · simp [subcommandMatches]
    · simp [subcommandMatches]
    · simp only [subcommandMatches, Bool.not_eq_false', any_eq_true,
        List.getElem?_cons_succ, List.getElem?_cons_zero, Option.some.injEq, exists_eq_left']
      exact hdeclared.subs arg
  unfold commandDenied
  rw [Bool.and_eq_false_iff, hsub, hbit, ← hdeclared.bit]
  simp only [Bool.and_eq_false_iff, Bool.not_eq_false']
  constructor
  · rintro (((hall | hauth) | hset) | hs)
    · exact .inl (.inr (hflag hall))
    · exact .inl (.inl hauth)
    · exact .inl (.inr hset)
    · exact .inr hs
  · rintro ((hauth | hset) | hs)
    · exact .inl (.inl (.inr hauth))
    · exact .inl (.inr hset)
    · exact .inr hs

theorem perm_iff (keys : List Nat) (stringmatch : Sds -> Sds -> Bool) (u : User) (cmd : Command)
    (argv : List Sds) :
    ACLCheckCommandPerm keys stringmatch (some u) cmd argv ≠ .ACL_DENIED_CMD <->
      commandDenied u cmd argv = false := by
  unfold ACLCheckCommandPerm
  cases hdenied : commandDenied u cmd argv with
  | true => simp [hdenied]
  | false =>
    simp only [hdenied]
    split
    · next h => cases h
    · split
      · simp
      · simp

/-- The verdict about a command is the one of the last rule about it. -/
theorem acl_last_rule_decides {T : Table} {H : Hasher} {ops : List Sds} {u : User}
    (hrun : runSteps (ACLSetUser T H) ops ACLCreateUser = .ok u) (keys : List Nat)
    (stringmatch : Sds -> Sds -> Bool) :
    (forall cmd, cmd ∈ T.cmds ->
      let allowed := fun argv : List Sds =>
        ACLCheckCommandPerm keys stringmatch (some u) cmd argv ≠ .ACL_DENIED_CMD
      let whole := cmd.auth = true ∨ LastPositive cmd (ops.map parseOp)
      ((forall argv, allowed argv) <-> whole) ∧
        (Not whole -> forall argv, allowed argv <->
          exists s, argv[1]? = some s ∧ SubcommandSince cmd s (ops.map parseOp))) ∧
      (forall cmd, cmd ∈ T.cmds -> ACLGetUserCommandBit u cmd.id = true ->
        u.allowedSubcommands cmd.id = []) ∧
      (u.flags.allcommands = true -> forall cmd, cmd ∈ T.cmds ->
        ACLGetUserCommandBit u cmd.id = true) := by
  rcases accepted_declared hrun with ⟨hflag, hdeclared⟩
  refine ⟨?_, ?_, ?_⟩
  · intro cmd hcmd allowed whole
    have hallowed : forall argv, allowed argv <->
        whole ∨ exists s, argv[1]? = some s ∧ SubcommandSince cmd s (ops.map parseOp) := by
      intro argv
      exact (perm_iff keys stringmatch u cmd argv).trans
        (commandDenied_iff (hdeclared cmd hcmd) (fun h => hflag h cmd.id (id_lt hcmd))
          (getBit_eq hcmd u) argv)
    constructor
    · constructor
      · intro hall
        rcases (hallowed []).mp (hall []) with hwhole | ⟨s, hs, _⟩
        · exact hwhole
        · simp at hs
      · intro hwhole argv
        exact (hallowed argv).mpr (.inl hwhole)
    · intro hnot argv
      rw [hallowed argv]
      constructor
      · rintro (hwhole | hs)
        · exact absurd hwhole hnot
        · exact hs
      · exact .inr
  · intro cmd hcmd hbit
    rw [getBit_eq hcmd] at hbit
    exact (hdeclared cmd hcmd).apart hbit
  · intro hall cmd hcmd
    rw [getBit_eq hcmd]
    exact hflag hall cmd.id (id_lt hcmd)

/-- `CONFIG`, an administrative command. -/
def configCommand : Command :=
  { name := [99, 111, 110, 102, 105, 103], id := 0,
    flags := 1 <<< 31 ||| 1 <<< 33 ||| 1 <<< 35, auth := false }

/-- `GET`, a fast command that reads a string. -/
def getCommand : Command :=
  { name := [103, 101, 116], id := 1, flags := 1 <<< 19 ||| 1 <<< 25 ||| 1 <<< 32, auth := false }

def twoCommands : Table where
  cmds := [configCommand, getCommand]
  nodup := by decide
  spelled := by decide
  sameName := by
    have h : forall c, c ∈ [configCommand, getCommand] ->
        forall c', c' ∈ [configCommand, getCommand] -> c.name = c'.name -> c = c' := by decide
    exact fun c c' hc hc' => h c hc c' hc'
  sameId := by
    have h : forall c, c ∈ [configCommand, getCommand] ->
        forall c', c' ∈ [configCommand, getCommand] -> c.id = c'.id -> c = c' := by decide
    exact fun c c' hc hc' => h c hc c' hc'
  inBits := by decide

def zeroHasher : Hasher where
  hash := fun _ => List.replicate HASH_PASSWORD_LEN 48
  valid := fun _ => by decide

theorem acl_last_rule_decides_config :
    exists u, runSteps (ACLSetUser twoCommands zeroHasher)
        [[43, 64, 97, 108, 108],
          [45, 99, 111, 110, 102, 105, 103],
          [43, 99, 111, 110, 102, 105, 103, 124, 103, 101, 116]]
        ACLCreateUser = .ok u ∧
      SubcommandSince configCommand [71, 69, 84]
        [parseOp [43, 64, 97, 108, 108],
          parseOp [45, 99, 111, 110, 102, 105, 103],
          parseOp [43, 99, 111, 110, 102, 105, 103, 124, 103, 101, 116]] := by
  apply (@exists_run_of_reaches _ _ _ (ACLSetUser twoCommands zeroHasher)
    (fun u =>
      ACLCheckCommandPerm [] (fun _ _ => true) (some u) configCommand
        [[67, 79, 78, 70, 73, 71], [71, 69, 84]] ≠ .ACL_DENIED_CMD ∧
      Not (ACLCheckCommandPerm [] (fun _ _ => true) (some u) configCommand [] ≠ .ACL_DENIED_CMD))
    inferInstance _ _ _).elim
  · rintro u ⟨hrun, hallowed, hdenied⟩
    have h := (acl_last_rule_decides hrun [] fun _ _ => true).left configCommand (by decide)
    refine ⟨u, hrun, ?_⟩
    rcases (h.right (fun hwhole => hdenied (h.left.mpr hwhole [])) _).mp hallowed with
      ⟨s, hs, hsince⟩
    injection hs with hs
    rw [hs]
    exact hsince
  · decide +kernel

end Acl
end Redisoo
