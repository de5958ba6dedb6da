import Mathlib.Data.List.Nodup
import Redisoo.Security.AclVerdict

/-!
# The description of a user

`ACLDescribeUser` writes rules that lead back to the user when they are split at blanks,
unless a subcommand has a blank in it, and up to the flag for all commands.
-/

namespace Redisoo
namespace Acl

open Foundation List

/-!
# Reading the rules of a description
-/

variable {b k : UInt8} {rules : List Sds} {pat sub op name text pass x y s piece : Sds}
  {xs ops ys ps : List Sds}

theorem strcasecmp_head (rest kw : Sds) (h : b ≠ 0 ∧ k ≠ 0 ∧ tolower b ≠ tolower k) :
    strcasecmpEq (b :: rest) (k :: kw) = false := by
  rcases h with ⟨hb, hk, h⟩
  unfold strcasecmpEq
  rw [takeWhile_cons_of_pos (by simpa using hb), takeWhile_cons_of_pos (by simpa using hk),
    map_cons, map_cons]
  simp [h]

theorem strcasecmp_second {a : UInt8} (rest kw : Sds) (ha : a ≠ 0)
    (h : b ≠ 0 ∧ k ≠ 0 ∧ tolower b ≠ tolower k) :
    strcasecmpEq (a :: b :: rest) (a :: k :: kw) = false := by
  have htail := strcasecmp_head rest kw h
  have hcons : forall l : Sds, (a :: l).takeWhile (· != 0) = a :: l.takeWhile (· != 0) :=
    fun l => takeWhile_cons_of_pos (by simpa using ha)
  unfold strcasecmpEq at htail ⊢
  rw [hcons, hcons, map_cons, map_cons]
  simpa using htail

theorem not_word {b : UInt8} (rest : Sds) (hb : b ∈ [35, 126, 43, 45]) {k : UInt8}
    (hk : k ∈ [97, 110, 111, 114]) (kw : Sds) : strcasecmpEq (b :: rest) (k :: kw) = false := by
  have hall : ([35, 126, 43, 45].all fun b => [97, 110, 111, 114].all fun k =>
      decide ((b : UInt8) ≠ 0 ∧ (k : UInt8) ≠ 0 ∧ tolower b ≠ tolower k)) = true := by decide
  have hrow := all_eq_true.mp hall b hb
  exact strcasecmp_head rest kw (of_decide_eq_true (all_eq_true.mp hrow k hk))

theorem parse_sign (rest : Sds) (hb : b ∈ [35, 126, 43, 45])
    (hpat : strcasecmpEq (b :: rest) allPatternText = false)
    (hplus : strcasecmpEq (b :: rest) plusAllText = false)
    (hminus : strcasecmpEq (b :: rest) minusAllText = false) :
    parseOp (b :: rest) =
      if b = 35 then .addPassword false rest
      else if b = 126 then .addPattern rest
      else if b = 43 && byteAt rest 0 ≠ 64 then
        if 124 ∈ cstr rest then
          .addSubcommand ((cstr rest).takeWhile (· != 124)) ((cstr rest).dropWhile (· != 124)).tail
        else .addCommand (cstr rest)
      else if b = 45 && byteAt rest 0 ≠ 64 then .delCommand (cstr rest)
      else .category (b = 43) (cstr rest).tail := by
  have hword := fun k hk kw => @not_word b rest hb k hk kw
  have hon := hword 111 (by decide) [110]
  have hoff := hword 111 (by decide) [102, 102]
  have hallkeys := hword 97 (by decide) [108, 108, 107, 101, 121, 115]
  have hresetkeys := hword 114 (by decide) [101, 115, 101, 116, 107, 101, 121, 115]
  have hallcommands := hword 97 (by decide) [108, 108, 99, 111, 109, 109, 97, 110, 100, 115]
  have hnocommands := hword 110 (by decide) [111, 99, 111, 109, 109, 97, 110, 100, 115]
  have hnopass := hword 110 (by decide) [111, 112, 97, 115, 115]
  have hresetpass := hword 114 (by decide) [101, 115, 101, 116, 112, 97, 115, 115]
  have hbyte : byteAt (b :: rest) 1 = byteAt rest 0 := rfl
  have hhead : byteAt (b :: rest) 0 = b := rfl
  have hcstr : b ≠ 0 -> (cstr (b :: rest)).tail = cstr rest := by
    intro hne
    unfold cstr
    rw [takeWhile_cons_of_pos (by simpa using hne)]
    rfl
  unfold parseOp onText offText allkeysText resetkeysText allcommandsText nocommandsText nopassText
    resetpassText
  simp only [hon, hoff, hallkeys, hresetkeys, hallcommands, hnocommands, hnopass, hresetpass, hpat,
    hplus, hminus, hbyte, hhead, Bool.or_self, Bool.false_eq_true, if_false]
  have hcases : b = 35 ∨ b = 126 ∨ b = 43 ∨ b = 45 := by
    simpa using hb
  rcases hcases with rfl | rfl | rfl | rfl
  · rfl
  · rfl
  · rw [hcstr (by decide)]
    by_cases hcat : byteAt rest 0 = 64
    · simp [hcat]
    · simp [hcat]
  · rw [hcstr (by decide)]
    by_cases hcat : byteAt rest 0 = 64
    · simp [hcat]
    · simp [hcat]

theorem parse_password (pass : Sds) : parseOp (35 :: pass) = .addPassword false pass := by
  rw [parse_sign pass (by decide) (strcasecmp_head _ _ (by decide))
    (strcasecmp_head _ _ (by decide)) (strcasecmp_head _ _ (by decide))]
  rfl

theorem tolower_low (hk : k.toNat < 65) (h : tolower b = k) : b = k := by
  unfold tolower at h
  split at h
  · next hupper =>
    simp only [Bool.and_eq_true, decide_eq_true_eq] at hupper
    have hnat := congrArg UInt8.toNat h
    have h32 : (32 : UInt8).toNat = 32 := rfl
    rw [UInt8.toNat_add, h32, Nat.mod_eq_of_lt (by lia)] at hnat
    lia
  · exact h

theorem parse_pattern (hpat : ACLStringHasSpaces pat = false) (hall : pat ≠ [42]) :
    parseOp (126 :: pat) = .addPattern pat := by
  have hnull : forall b, b ∈ pat -> b ≠ 0 := by
    intro b hb hzero
    unfold ACLStringHasSpaces at hpat
    rw [any_eq_false] at hpat
    exact hpat b hb (by rw [hzero]; decide)
  have hall' : strcasecmpEq (126 :: pat) allPatternText = false := by
    have hcons : (126 :: pat).takeWhile (· != 0) = 126 :: pat := by
      rw [takeWhile_cons_of_pos (by decide)]
      exact congrArg _ (cstr_of_no_null hnull)
    have htext : (allPatternText.takeWhile (· != 0)).map tolower = [126, 42] := rfl
    unfold strcasecmpEq
    rw [hcons, htext]
    rcases pat with _ | ⟨b, _ | ⟨c, pat⟩⟩
    · rfl
    · have hb : tolower b ≠ 42 := by
        intro h
        exact hall (by rw [tolower_low (by decide) h])
      simp [hb]
    · simp
  rw [parse_sign pat (by decide) hall' (strcasecmp_head _ _ (by decide))
    (strcasecmp_head _ _ (by decide))]
  rfl

section Names

variable {name : Sds}

section

variable (h : spellable name = true)
include h

theorem spellable_cons : exists x rest, name = x :: rest ∧ x ≠ 0 ∧ x ≠ 64 ∧ tolower x = x := by
  rcases name with _ | ⟨x, rest⟩
  · simp [spellable] at h
  have hx := byte_spellable h mem_cons_self
  unfold spellable at h
  simp only [Bool.and_eq_true, decide_eq_true_eq] at h
  exact ⟨x, rest, rfl, hx.left, h.left.right, hx.right.right.right⟩

theorem parse_named (hb : b = 43 ∨ b = 45) (tail : Sds) :
    parseOp (b :: (name ++ tail)) =
      if b = 43 then
        if 124 ∈ cstr (name ++ tail) then
          .addSubcommand ((cstr (name ++ tail)).takeWhile (· != 124))
            ((cstr (name ++ tail)).dropWhile (· != 124)).tail
        else .addCommand (cstr (name ++ tail))
      else .delCommand (cstr (name ++ tail)) := by
  rcases spellable_cons h with ⟨x, rest, rfl, hx0, hx64, hlower⟩
  have hx : x ≠ 0 ∧ (64 : UInt8) ≠ 0 ∧ tolower x ≠ tolower 64 := by
    rw [hlower]
    exact ⟨hx0, by decide, hx64⟩
  have hhead : byteAt (x :: (rest ++ tail)) 0 = x := rfl
  rw [cons_append]
  rcases hb with rfl | rfl
  · rw [parse_sign _ (by decide) (strcasecmp_head _ _ (by decide))
      (strcasecmp_second _ _ (by decide) hx)
      (strcasecmp_head _ _ (by decide)), hhead]
    simp [hx64]
  · rw [parse_sign _ (by decide) (strcasecmp_head _ _ (by decide))
      (strcasecmp_head _ _ (by decide))
      (strcasecmp_second _ _ (by decide) hx), hhead]
    simp [hx64]

theorem cstr_name : cstr name = name := cstr_of_no_null fun _ hb => (byte_spellable h hb).left

theorem parse_add : parseOp (43 :: name) = .addCommand name := by
  have hparse := parse_named h (.inl rfl) []
  have hbar : Not (124 ∈ name) := fun hb => (byte_spellable h hb).right.right.left rfl
  rw [append_nil, cstr_name h, if_neg hbar] at hparse
  exact hparse

theorem parse_del : parseOp (45 :: name) = .delCommand name := by
  have hparse := parse_named h (.inr rfl) []
  rw [append_nil, cstr_name h] at hparse
  exact hparse

theorem parse_sub (hsub : forall b, b ∈ sub -> b ≠ 0) :
    parseOp (43 :: (name ++ 124 :: sub)) = .addSubcommand name sub := by
  have hparse := parse_named h (.inl rfl) (124 :: sub)
  have hcstr : cstr (name ++ 124 :: sub) = name ++ 124 :: sub := by
    apply cstr_of_no_null
    intro b hb
    rcases mem_append.mp hb with hb | hb
    · exact (byte_spellable h hb).left
    · rcases mem_cons.mp hb with rfl | hb
      · decide
      · exact hsub b hb
  have hname : forall b, b ∈ name -> (b != 124) = true := by
    intro b hb
    simpa using (byte_spellable h hb).right.right.left
  rw [hcstr, if_pos rfl, if_pos (by simp), takeWhile_append_of_pos hname,
    dropWhile_append_of_pos hname, takeWhile_cons_of_neg (by decide),
    dropWhile_cons_of_neg (by decide), append_nil] at hparse
  exact hparse

end

end Names

theorem category_known : forall item, item ∈ ACLCommandCategories ->
    parseOp ([43, 64] ++ item.1) = .category true item.1 ∧
      parseOp ([45, 64] ++ item.1) = .category false item.1 ∧
      ACLGetCommandCategoryFlagByName item.1 = some item.2 ∧ 32 ∉ item.1 := by
  decide +kernel

/-!
# What accepted rules keep
-/

theorem ite_peel {c : Prop} [Decidable c] {a b x : Op} (h : (if c then a else b) = x) (hne : a ≠ x) :
    Not c ∧ b = x := by
  split at h
  · exact absurd h hne
  · next hc => exact ⟨hc, h⟩

theorem parse_addPattern (h : parseOp op = .addPattern pat) : pat ≠ [42] := by
  unfold parseOp at h
  obtain ⟨_, h⟩ := ite_peel h nofun
  obtain ⟨_, h⟩ := ite_peel h nofun
  obtain ⟨hall, h⟩ := ite_peel h nofun
  iterate 7 obtain ⟨_, h⟩ := ite_peel h nofun
  split at h
  · next hhead =>
    injection h with hpat
    rintro rfl
    rcases op with _ | ⟨b, rest⟩
    · exact absurd hhead (by decide)
    have hb : b = 126 := hhead
    have hrest : rest = [42] := hpat
    rw [hb, hrest] at hall
    exact absurd hall (by decide)
  · obtain ⟨_, h⟩ := ite_peel h (by dsimp only; split <;> nofun)
    iterate 3 obtain ⟨_, h⟩ := ite_peel h nofun
    cases h

theorem parse_addSubcommand (h : parseOp op = .addSubcommand name sub) :
    forall b, b ∈ sub -> b ∈ op ∧ b ≠ 0 := by
  have hsub : sub = ((cstr op).tail.dropWhile (· != 124)).tail := by
    unfold parseOp at h
    iterate 11 obtain ⟨_, h⟩ := ite_peel h nofun
    split at h
    · change (if 124 ∈ (cstr op).tail then _ else _) = _ at h
      split at h
      · injection h with _ hsub
        exact hsub.symm
      · cases h
    · obtain ⟨_, h⟩ := ite_peel h nofun
      obtain ⟨_, h⟩ := ite_peel h nofun
      obtain ⟨_, h⟩ := ite_peel h nofun
      cases h
  intro b hb
  rw [hsub] at hb
  have hcstr : b ∈ cstr op := mem_of_mem_tail ((dropWhile_suffix _).mem (mem_of_mem_tail hb))
  refine ⟨(List.takeWhile_prefix _).mem hcstr, ?_⟩
  simpa using mem_takeWhile_imp hcstr

structure Login (u : User) : Prop where
  onoff : u.flags.enabled = !u.flags.disabled
  nopass : u.flags.nopass = true -> u.passwords = []
  hashes : forall p, p ∈ u.passwords -> ACLCheckPasswordHash p = true
  nodup : u.passwords.Nodup

structure Keys (u : User) : Prop where
  allkeys : u.flags.allkeys = true -> u.patterns = []
  patterns : forall p, p ∈ u.patterns -> ACLStringHasSpaces p = false ∧ p ≠ [42]
  nodup : u.patterns.Nodup

structure Lists (T : Table) (u : User) : Prop where
  spare : forall id, (forall c, c ∈ T.cmds -> c.id ≠ id) ->
    u.allowedCommands id = u.allowedCommands (USER_COMMAND_BITS_COUNT - 1)
  texts : forall c, c ∈ T.cmds -> forall s, s ∈ u.allowedSubcommands c.id ->
    s ≠ [] ∧ forall b, b ∈ s -> b ≠ 0
  apart : forall c, c ∈ T.cmds ->
    (u.allowedSubcommands c.id).Pairwise fun a b => strcasecmpEq a b = false

theorem valid_passwordOf {H : Hasher} {clear : Bool} (h : passwordOf H clear text = .ok pass) :
    ACLCheckPasswordHash pass = true := by
  unfold passwordOf at h
  split at h
  · cases h
    exact H.valid text
  split at h
  · next hvalid =>
    cases h
    exact hvalid
  · cases h

theorem nodup_add (h : xs.Nodup) : (if x ∈ xs then xs else xs ++ [x]).Nodup := by
  split
  · exact h
  · next hx =>
    rw [nodup_append]
    refine ⟨h, nodup_singleton x, ?_⟩
    intro a ha b hb heq
    rw [heq, mem_singleton.mp hb] at ha
    exact hx ha

theorem mem_add (h : y ∈ if x ∈ xs then xs else xs ++ [x]) : y ∈ xs ∨ y = x := by
  split at h
  · exact .inl h
  · rcases mem_append.mp h with h | h
    · exact .inl h
    · exact .inr (mem_singleton.mp h)

section Kept

variable {T : Table} {H : Hasher} {u u' : User} {op : Op}

structure Others (v v0 : User) : Prop where
  passwords : v.passwords = v0.passwords
  patterns : v.patterns = v0.patterns
  flags : { v.flags with allcommands := false } = { v0.flags with allcommands := false }

theorem Others.refl (v : User) : Others v v := ⟨rfl, rfl, rfl⟩

theorem Others.trans {a b c : User} (hab : Others a b) (hbc : Others b c) : Others a c :=
  ⟨hab.passwords.trans hbc.passwords, hab.patterns.trans hbc.patterns, hab.flags.trans hbc.flags⟩

theorem others_setBit (u : User) (id : Nat) (value : Bool) :
    Others (ACLSetUserCommandBit u id value) u := by
  unfold ACLSetUserCommandBit
  split
  · exact .refl u
  · cases value with
    | true => exact ⟨rfl, rfl, rfl⟩
    | false => exact ⟨rfl, rfl, rfl⟩

theorem others_setCommand (u : User) (id : Nat) (value : Bool) : Others (setCommand u id value) u :=
  ⟨(others_setBit u id value).passwords, (others_setBit u id value).patterns,
    (others_setBit u id value).flags⟩

theorem others_setCategory (cmds : List Command) (u : User) (cflag : Nat) (value : Bool) :
    Others (setCategory cmds u cflag value) u := by
  induction cmds generalizing u with
  | nil => exact .refl u
  | cons c cmds ih =>
    apply (ih _).trans
    change Others (if c.inCategory cflag = true then setCommand u c.id value else u) u
    split
    · exact others_setCommand u c.id value
    · exact .refl u

theorem others_addSubcommand (u : User) (id : Nat) (sub : Sds) :
    Others (ACLAddAllowedSubcommand u id sub) u := by
  unfold ACLAddAllowedSubcommand
  split
  · exact .refl u
  · exact ⟨rfl, rfl, rfl⟩

theorem Login.others (h : Login u) (ho : Others u' u) : Login u' := by
  have hflags := ho.flags
  simp only [UserFlags.mk.injEq, true_and] at hflags
  constructor
  · rw [hflags.left, hflags.right.left]
    exact h.onoff
  · rw [hflags.right.right.right, ho.passwords]
    exact h.nopass
  · rw [ho.passwords]
    exact h.hashes
  · rw [ho.passwords]
    exact h.nodup

theorem Keys.others (h : Keys u) (ho : Others u' u) : Keys u' := by
  have hflags := ho.flags
  simp only [UserFlags.mk.injEq, true_and] at hflags
  constructor
  · rw [hflags.right.right.left, ho.patterns]
    exact h.allkeys
  · rw [ho.patterns]
    exact h.patterns
  · rw [ho.patterns]
    exact h.nodup

theorem Login.applied (h : Login u) (happlied : Applied T H u op u') : Login u' := by
  cases happlied with
  | on | off => exact ⟨rfl, h.nopass, h.hashes, h.nodup⟩
  | allkeys | resetkeys | addPattern _ _ | allcommands | nocommands =>
    exact ⟨h.onoff, h.nopass, h.hashes, h.nodup⟩
  | nopass | resetpass =>
    exact ⟨h.onoff, fun _ => rfl, fun p hp => absurd hp not_mem_nil, nodup_nil⟩
  | reset =>
    exact ⟨rfl, fun _ => rfl, fun p hp => absurd hp not_mem_nil, nodup_nil⟩
  | addPassword hpass =>
    refine ⟨h.onoff, nofun, ?_, nodup_add h.nodup⟩
    intro p hp
    rcases mem_add hp with hp | rfl
    · exact h.hashes p hp
    · exact valid_passwordOf hpass
  | delPassword _ hmem =>
    refine ⟨h.onoff, ?_, fun p hp => h.hashes p (mem_of_mem_erase hp), h.nodup.erase _⟩
    intro hno
    rw [h.nopass hno] at hmem
    cases hmem
  | addCommand _ | delCommand _ => exact h.others (others_setCommand _ _ _)
  | addSubcommand _ _ _ =>
    exact h.others ((others_setBit _ _ _).trans (others_addSubcommand _ _ _))
  | category _ => exact h.others (others_setCategory _ _ _ _)

theorem Keys.applied (h : Keys u) (hop : forall pat, op = .addPattern pat -> pat ≠ [42])
    (happlied : Applied T H u op u') : Keys u' := by
  cases happlied with
  | on | off | nopass | resetpass | allcommands | nocommands =>
    exact ⟨h.allkeys, h.patterns, h.nodup⟩
  | addPassword _ | delPassword _ _ => exact ⟨h.allkeys, h.patterns, h.nodup⟩
  | allkeys | resetkeys | reset =>
    exact ⟨fun _ => rfl, fun p hp => absurd hp not_mem_nil, nodup_nil⟩
  | addPattern hkeys hspaces =>
    refine ⟨nofun, ?_, nodup_add h.nodup⟩
    intro p hp
    rcases mem_add hp with hp | rfl
    · exact h.patterns p hp
    · exact ⟨hspaces, hop p rfl⟩
  | addCommand _ | delCommand _ => exact h.others (others_setCommand _ _ _)
  | addSubcommand _ _ _ =>
    exact h.others ((others_setBit _ _ _).trans (others_addSubcommand _ _ _))
  | category _ => exact h.others (others_setCategory _ _ _ _)

theorem last_not_command (T : Table) {c : Command} (hc : c ∈ T.cmds) :
    c.id ≠ USER_COMMAND_BITS_COUNT - 1 :=
  Nat.ne_of_lt (T.inBits c hc)

theorem spare_applied (h : forall id, (forall c, c ∈ T.cmds -> c.id ≠ id) ->
      u.allowedCommands id = u.allowedCommands (USER_COMMAND_BITS_COUNT - 1))
    (happlied : Applied T H u op u') :
    forall id, (forall c, c ∈ T.cmds -> c.id ≠ id) ->
      u'.allowedCommands id = u'.allowedCommands (USER_COMMAND_BITS_COUNT - 1) := by
  intro id hid
  have hlast : forall c, c ∈ T.cmds -> c.id ≠ USER_COMMAND_BITS_COUNT - 1 :=
    fun c hc => last_not_command T hc
  -- a change of the bit of a command leaves both bits alone
  have hset : forall (v : User) (c : Command) (value : Bool), c ∈ T.cmds ->
      v.allowedCommands = u.allowedCommands ->
      (ACLSetUserCommandBit v c.id value).allowedCommands id =
        (ACLSetUserCommandBit v c.id value).allowedCommands (USER_COMMAND_BITS_COUNT - 1) := by
    intro v c value hc hv
    rw [setBit_bit (id_lt hc), setBit_bit (id_lt hc), if_neg (hid c hc).symm,
      if_neg (hlast c hc).symm, hv]
    exact h id hid
  cases happlied with
  | on | off | nopass | resetpass | allkeys | resetkeys => exact h id hid
  | addPassword _ | delPassword _ _ | addPattern _ _ => exact h id hid
  | allcommands | nocommands | reset => rfl
  | addCommand hlookup | delCommand hlookup => exact hset u _ _ (lookup_some hlookup).left rfl
  | addSubcommand hlookup _ _ =>
    apply hset _ _ _ (lookup_some hlookup).left
    unfold ACLAddAllowedSubcommand
    split
    · rfl
    · rfl
  | category _ =>
    rename_i value name cflag hflag
    have hspec := setCategory_spec (fun c hc => @id_lt T c hc) u cflag value
    rw [((hspec id).right fun ⟨c, hc, _, heq⟩ => hid c hc heq).left,
      ((hspec _).right fun ⟨c, hc, _, heq⟩ => hlast c hc heq).left]
    exact h id hid

theorem applied_sub (happlied : Applied T H u op u') {c : Command} (hc : c ∈ T.cmds)
    (hs : s ∈ u'.allowedSubcommands c.id) :
    s ∈ u.allowedSubcommands c.id ∨ s ≠ [] ∧ exists name, op = .addSubcommand name s := by
  cases applied_effect happlied hc with
  | decided value _ _ hsubs =>
    rw [hsubs] at hs
    cases hs
  | extended sub hsub _ hadded _ _ hsubs =>
    rw [hsubs] at hs
    unfold addSub at hs
    split at hs
    · exact .inl hs
    rcases mem_append.mp hs with hs | hs
    · exact .inl hs
    rw [mem_singleton.mp hs]
    refine .inr ⟨hsub, ?_⟩
    cases op with
    | addSubcommand name sub' =>
      simp only [addedSub] at hadded
      split at hadded
      · cases hadded
        exact ⟨name, rfl⟩
      · cases hadded
    | _ => cases hadded
  | kept _ _ _ hsubs =>
    rw [hsubs] at hs
    exact .inl hs

theorem Lists.applied (h : Lists T u)
    (hop : forall name sub, op = .addSubcommand name sub -> forall b, b ∈ sub -> b ≠ 0)
    (happlied : Applied T H u op u') : Lists T u' := by
  refine ⟨spare_applied h.spare happlied, ?_, ?_⟩
  · intro c hc s hs
    rcases applied_sub happlied hc hs with hs | ⟨hne, name, hadds⟩
    · exact h.texts c hc s hs
    · exact ⟨hne, hop name s hadds⟩
  · intro c hc
    cases applied_effect happlied hc with
    | decided value _ _ hsubs =>
      rw [hsubs]
      exact List.Pairwise.nil
    | extended sub _ _ _ _ _ hsubs =>
      rw [hsubs]
      unfold addSub
      split
      · exact h.apart c hc
      · next hnew =>
        rw [pairwise_append]
        refine ⟨h.apart c hc, pairwise_singleton _ _, ?_⟩
        intro a ha b hb
        rw [mem_singleton.mp hb]
        rw [any_eq_true] at hnew
        exact Bool.eq_false_iff.mpr fun heq => hnew ⟨a, ha, heq⟩
    | kept _ _ _ hsubs =>
      rw [hsubs]
      exact h.apart c hc

end Kept

structure Reached (T : Table) (u : User) : Prop where
  login : Login u
  keys : Keys u
  lists : Lists T u

theorem reached_of_accepted {T : Table} {H : Hasher} {u : User}
    (hrun : runSteps (ACLSetUser T H) ops ACLCreateUser = .ok u) : Reached T u := by
  have hcreate : Reached T ACLCreateUser :=
    { login := ⟨rfl, fun _ => rfl, fun p hp => absurd hp not_mem_nil, nodup_nil⟩
      keys := ⟨fun _ => rfl, fun p hp => absurd hp not_mem_nil, nodup_nil⟩
      lists := ⟨fun _ _ => rfl, fun c _ s hs => absurd hs not_mem_nil,
        fun c _ => List.Pairwise.nil⟩ }
  refine @runSteps_invariant Sds User Errno (ACLSetUser T H) (fun _ _ => True) (Reached T) ?_ ops
    ACLCreateUser u hcreate (allSteps_of_mem fun _ _ => trivial) hrun
  intro op s s' h _ hstep
  have happlied := applied_iff.mp hstep
  exact
    { login := h.login.applied happlied
      keys := h.keys.applied (fun pat hpat => parse_addPattern hpat) happlied
      lists := h.lists.applied
        (fun name sub hsub b hb => (parse_addSubcommand hsub b hb).right) happlied }

/-!
# Applying the rules of a description
-/

section Apply

variable {T : Table} {H : Hasher}

theorem run_append {u v w : User} (hxs : runSteps (ACLSetUser T H) xs u = .ok v)
    (hys : runSteps (ACLSetUser T H) ys v = .ok w) :
    runSteps (ACLSetUser T H) (xs ++ ys) u = .ok w := by
  rw [runSteps_append, hxs]
  exact hys

theorem run_snoc {u v w : User} (hxs : runSteps (ACLSetUser T H) xs u = .ok v)
    (hop : ACLSetUser T H op v = .ok w) :
    runSteps (ACLSetUser T H) (xs ++ [op]) u = .ok w :=
  run_append hxs (by rw [runSteps_cons_ok hop, runSteps_nil])

variable (T H) in
theorem run_flags (flags : UserFlags) (h : flags.enabled = !flags.disabled) :
    runSteps (ACLSetUser T H) (describeFlags flags) ACLCreateUser =
      .ok { ACLCreateUser with
        flags :=
          { enabled := flags.enabled, disabled := flags.disabled, allkeys := false,
            allcommands := false, nopass := flags.nopass } } := by
  rcases flags with ⟨enabled, disabled, allkeys, allcommands, nopass⟩
  change enabled = !disabled at h
  subst h
  cases disabled with
  | false | true =>
    cases nopass with
    | false => rfl
    | true => rfl

theorem run_passwords {v : User} (hvalid : forall p, p ∈ ps -> ACLCheckPasswordHash p = true)
    (hnodup : (v.passwords ++ ps).Nodup) :
    runSteps (ACLSetUser T H) (ps.map (35 :: ·)) v =
      .ok { v with
        passwords := v.passwords ++ ps
        flags := { v.flags with nopass := v.flags.nopass && ps.isEmpty } } := by
  induction ps generalizing v with
  | nil =>
    rw [append_nil, isEmpty_nil, Bool.and_true]
    rfl
  | cons p ps ih =>
    have hnew : p ∉ v.passwords := by
      intro hp
      rw [nodup_append] at hnodup
      exact hnodup.right.right p hp p mem_cons_self rfl
    have hop : ACLSetUser T H (35 :: p) v = .ok { v with
          passwords := v.passwords ++ [p]
          flags := { v.flags with nopass := false } } := by
      unfold ACLSetUser
      rw [parse_password]
      have happlied : Applied T H v (.addPassword false p) _ :=
        .addPassword (show passwordOf H false p = .ok p by
          unfold passwordOf
          simp [hvalid p mem_cons_self])
      rw [applied_iff.mpr happlied, if_neg hnew]
    rw [map_cons, runSteps_cons_ok hop, ih
      (fun p' hp' => hvalid p' (mem_cons_of_mem p hp'))
      (by rw [append_assoc]; exact hnodup)]
    simp

theorem run_patterns {v : User} (hkeys : v.flags.allkeys = false)
    (hvalid : forall p, p ∈ ps -> ACLStringHasSpaces p = false ∧ p ≠ [42])
    (hnodup : (v.patterns ++ ps).Nodup) :
    runSteps (ACLSetUser T H) (ps.map (126 :: ·)) v =
      .ok { v with patterns := v.patterns ++ ps } := by
  induction ps generalizing v with
  | nil =>
    rw [append_nil]
    rfl
  | cons p ps ih =>
    have hnew : p ∉ v.patterns := by
      intro hp
      rw [nodup_append] at hnodup
      exact hnodup.right.right p hp p mem_cons_self rfl
    have hflags : { v.flags with allkeys := false } = v.flags := by
      rw [← hkeys]
    rcases hvalid p mem_cons_self with ⟨hspaces, hall⟩
    have hop : ACLSetUser T H (126 :: p) v = .ok { v with patterns := v.patterns ++ [p] } := by
      unfold ACLSetUser
      rw [parse_pattern hspaces hall, applied_iff.mpr (.addPattern hkeys hspaces), if_neg hnew,
        hflags]
    have hrest := ih (v := { v with patterns := v.patterns ++ [p] }) hkeys
      (fun p' hp' => hvalid p' (mem_cons_of_mem p hp'))
      (by rw [append_assoc]; exact hnodup)
    rw [map_cons, runSteps_cons_ok hop, hrest]
    simp

theorem run_subs {c : Command} (hc : c ∈ T.cmds) {subs : List Sds} {v : User}
    (hbit : v.allowedCommands c.id = false) (hflag : v.flags.allcommands = false)
    (htexts : forall s, s ∈ subs -> s ≠ [] ∧ forall b, b ∈ s -> b ≠ 0)
    (hapart : (v.allowedSubcommands c.id ++ subs).Pairwise fun a b => strcasecmpEq a b = false) :
    runSteps (ACLSetUser T H) (subs.map fun s => 43 :: (c.name ++ 124 :: s)) v =
      .ok { v with
        allowedSubcommands := fun j =>
          if j = c.id then v.allowedSubcommands j ++ subs else v.allowedSubcommands j } := by
  induction subs generalizing v with
  | nil =>
    simp only [append_nil, ite_self]
    rfl
  | cons s subs ih =>
    rcases htexts s mem_cons_self with ⟨hs, hnull⟩
    have hspelled := T.spelled c hc
    have hnew : Not (((v.allowedSubcommands c.id).any fun x => strcasecmpEq x s) = true) := by
      rw [any_eq_true]
      rintro ⟨x, hx, heq⟩
      rw [pairwise_append] at hapart
      rw [hapart.right.right x hx s mem_cons_self] at heq
      cases heq
    have hbits : (fun j => if j = c.id then false else v.allowedCommands j) = v.allowedCommands := by
      funext j
      split
      · next hj => rw [hj, hbit]
      · rfl
    have hflags : { v.flags with allcommands := false } = v.flags := by
      rw [← hflag]
    have hop : ACLSetUser T H (43 :: (c.name ++ 124 :: s)) v = .ok { v with
          allowedSubcommands := fun j =>
            if j = c.id then v.allowedSubcommands j ++ [s] else v.allowedSubcommands j } := by
      have hclear : ACLGetUserCommandBit v c.id = false := by
        rw [getBit_eq hc]
        exact hbit
      unfold ACLSetUser
      rw [parse_sub hspelled hnull, applied_iff.mpr (.addSubcommand (lookup_self hc) hs hclear)]
      unfold ACLAddAllowedSubcommand ACLSetUserCommandBit
      rw [if_neg hnew, if_neg (Nat.not_le_of_lt (id_lt hc))]
      simp only [hbits, hflags, Bool.false_eq_true, if_false]
    have hrest := ih
      (v := { v with
        allowedSubcommands := fun j =>
          if j = c.id then v.allowedSubcommands j ++ [s] else v.allowedSubcommands j })
      hbit hflag (fun s' hs' => htexts s' (mem_cons_of_mem s hs'))
      (by
        change ((if c.id = c.id then _ else _) ++ subs).Pairwise _
        rw [if_pos rfl, append_assoc]
        exact hapart)
    rw [map_cons, runSteps_cons_ok hop, hrest]
    congr 2
    funext j
    by_cases hj : j = c.id
    · simp [hj]
    · simp [hj]

end Apply

/-!
# The fake user

While the rules of a description are collected, a user they are applied to has the bits of
the fake user.
-/

structure Mirrors (v f : User) : Prop where
  bits : v.allowedCommands = f.allowedCommands
  flag : v.flags.allcommands = f.flags.allcommands

theorem Mirrors.setBit {v f : User} (h : Mirrors v f) (id : Nat) (value : Bool) :
    Mirrors (ACLSetUserCommandBit v id value) (ACLSetUserCommandBit f id value) := by
  unfold ACLSetUserCommandBit
  split
  · exact h
  cases value with
  | true =>
    refine ⟨?_, h.flag⟩
    change (fun j => if j = id then true else v.allowedCommands j) = _
    rw [h.bits]
    rfl
  | false =>
    refine ⟨?_, rfl⟩
    change (fun j => if j = id then false else v.allowedCommands j) = _
    rw [h.bits]
    rfl

theorem Mirrors.setCategory {v f : User} (h : Mirrors v f) (cmds : List Command) (cflag : Nat)
    (value : Bool) : Mirrors (setCategory cmds v cflag value) (setCategory cmds f cflag value) := by
  induction cmds generalizing v f with
  | nil => exact h
  | cons c cmds ih =>
    apply ih
    change Mirrors (if c.inCategory cflag = true then setCommand v c.id value else v)
      (if c.inCategory cflag = true then setCommand f c.id value else f)
    split
    · exact ⟨(h.setBit c.id value).bits, (h.setBit c.id value).flag⟩
    · exact h

def NoBlank (T : Table) (u : User) : Prop :=
  forall c, c ∈ T.cmds -> forall s, s ∈ u.allowedSubcommands c.id -> 32 ∉ s

structure Describing (T : Table) (H : Hasher) (u v0 : User) (left : List Command) (d : Description)
    (v : User) : Prop where
  run : runSteps (ACLSetUser T H) d.rules v0 = .ok v
  mirrors : Mirrors v d.fakeuser
  flagBits : FlagBits v
  others : Others v v0
  ahead : forall c, c ∈ left -> v.allowedSubcommands c.id = []
  done : forall c, c ∈ T.cmds -> c ∉ left ->
    v.allowedCommands c.id = u.allowedCommands c.id ∧
      v.allowedSubcommands c.id = u.allowedSubcommands c.id
  spare : forall id, (forall c, c ∈ T.cmds -> c.id ≠ id) ->
    v.allowedCommands id = u.allowedCommands (USER_COMMAND_BITS_COUNT - 1)
  plain : NoBlank T u -> forall r, r ∈ d.rules -> 32 ∉ r
  some : d.rules ≠ []

section Describe

variable {T : Table} {H : Hasher} {u v0 v : User} {d : Description}

theorem future_eq (u : User) :
    ACLUserCanExecuteFutureCommands u = u.allowedCommands (USER_COMMAND_BITS_COUNT - 1) := by
  unfold ACLUserCanExecuteFutureCommands ACLGetUserCommandBit
  rw [if_neg (by decide)]

theorem describing_start (T : Table) (H : Hasher) (u v0 : User) :
    exists v, Describing T H u v0 T.cmds (startDescription u) v := by
  have hfuture := future_eq u
  unfold startDescription
  cases hlast : u.allowedCommands (USER_COMMAND_BITS_COUNT - 1) with
  | false =>
    rw [hfuture, hlast]
    refine ⟨nocommands v0, rfl, ⟨rfl, rfl⟩, nofun, ⟨rfl, rfl, rfl⟩, fun _ _ => rfl,
      fun c hc hleft => absurd hc hleft, fun _ _ => hlast.symm, ?_, nofun⟩
    intro _ r hr
    rw [mem_singleton.mp hr]
    decide
  | true =>
    rw [hfuture, hlast]
    refine ⟨allcommands v0, rfl, ⟨rfl, rfl⟩, fun _ _ _ => rfl, ⟨rfl, rfl, rfl⟩, fun _ _ => rfl,
      fun c hc hleft => absurd hc hleft, fun _ _ => hlast.symm, ?_, nofun⟩
    intro _ r hr
    rw [mem_singleton.mp hr]
    decide

theorem describing_category (h : Describing T H u v0 T.cmds d v) (additive : Bool)
    {item : Sds × Nat} (hitem : item ∈ ACLCommandCategories) :
    exists v', Describing T H u v0 T.cmds (describeCategory T H u additive d item) v' := by
  rcases category_known item hitem with ⟨hplus, hminus, hflag, hblank⟩
  have hset : forall v, ACLSetUser T H ((if additive then [43, 64] else [45, 64]) ++ item.1) v =
      .ok (setCategory T.cmds v item.2 additive) := by
    intro v
    unfold ACLSetUser
    cases additive with
    | true =>
      simp only [if_true, hplus]
      exact applied_iff.mpr (.category hflag)
    | false =>
      simp only [Bool.false_eq_true, if_false, hminus]
      exact applied_iff.mpr (.category hflag)
  simp only [describeCategory]
  split
  · have hspec := setCategory_spec (fun c hc => @id_lt T c hc) v item.2 additive
    refine ⟨setCategory T.cmds v item.2 additive, run_snoc h.run (hset v), ?_,
      h.flagBits.setCategory _ _, (others_setCategory _ _ _ _).trans h.others, ?_,
      fun c hc hleft => absurd hc hleft, ?_, ?_, ?_⟩
    · rw [hset d.fakeuser]
      exact h.mirrors.setCategory T.cmds item.2 additive
    · intro c hc
      by_cases hin : exists c', c' ∈ T.cmds ∧ c'.inCategory item.2 = true ∧ c'.id = c.id
      · exact ((hspec c.id).left hin).right
      · rw [((hspec c.id).right hin).right]
        exact h.ahead c hc
    · intro id hid
      rw [((hspec id).right fun ⟨c, hc, _, heq⟩ => hid c hc heq).left]
      exact h.spare id hid
    · intro hplain r hr
      rcases mem_append.mp hr with hr | hr
      · exact h.plain hplain r hr
      rw [mem_singleton.mp hr]
      intro hb
      rcases mem_append.mp hb with hb | hb
      · cases additive with
        | true | false => exact absurd hb (by decide)
      · exact hblank hb
    · simp
  · exact ⟨v, h⟩

theorem describing_categories (h : exists v, Describing T H u v0 T.cmds d v) (additive : Bool)
    {items : List (Sds × Nat)} (hitems : forall item, item ∈ items -> item ∈ ACLCommandCategories) :
    exists v', Describing T H u v0 T.cmds (items.foldl (describeCategory T H u additive) d) v' := by
  induction items generalizing d with
  | nil => exact h
  | cons item items ih =>
    rcases h with ⟨v, hv⟩
    exact ih (describing_category hv additive (hitems item mem_cons_self))
      (fun item' hitem' => hitems item' (mem_cons_of_mem item hitem'))

variable {c : Command} {left : List Command}

theorem run_command (hc : c ∈ T.cmds) (value : Bool) (v : User) :
    ACLSetUser T H ((if value then 43 else 45) :: c.name) v = .ok (setCommand v c.id value) := by
  unfold ACLSetUser
  cases value with
  | true =>
    simp only [if_true, parse_add (T.spelled c hc)]
    exact applied_iff.mpr (.addCommand (lookup_self hc))
  | false =>
    simp only [Bool.false_eq_true, if_false, parse_del (T.spelled c hc)]
    exact applied_iff.mpr (.delCommand (lookup_self hc))

theorem FlagBits.off (h : FlagBits u) (hc : c ∈ T.cmds)
    (hbit : u.allowedCommands c.id = false) : u.flags.allcommands = false := by
  cases hall : u.flags.allcommands with
  | false => rfl
  | true =>
    rw [h hall c.id (id_lt hc)] at hbit
    cases hbit

theorem not_blank_name (hc : c ∈ T.cmds) : 32 ∉ c.name :=
  fun hb => (byte_spellable (T.spelled c hc) hb).right.left rfl

theorem describing_bit (h : Describing T H u v0 (c :: left) d v) (hc : c ∈ T.cmds) :
    exists v', v'.allowedCommands c.id = u.allowedCommands c.id ∧
      Describing T H u v0 (c :: left)
        (if ACLGetUserCommandBit u c.id ≠ ACLGetUserCommandBit d.fakeuser c.id then
          { rules := d.rules ++ [(if ACLGetUserCommandBit u c.id then 43 else 45) :: c.name]
            fakeuser := ACLSetUserCommandBit d.fakeuser c.id (ACLGetUserCommandBit u c.id) }
        else d) v' := by
  rw [getBit_eq hc, getBit_eq hc]
  split
  · have hmirrors := h.mirrors.setBit c.id (u.allowedCommands c.id)
    refine ⟨setCommand v c.id (u.allowedCommands c.id), ?_,
      run_snoc h.run (run_command hc (u.allowedCommands c.id) v), ⟨hmirrors.bits, hmirrors.flag⟩,
      h.flagBits.setBit _ _, (others_setCommand _ _ _).trans h.others, ?_, ?_, ?_, ?_, ?_⟩
    · rw [setCommand_bit (id_lt hc), if_pos rfl]
    · intro c' hc'
      rw [setCommand_subcommands]
      split
      · rfl
      · exact h.ahead c' hc'
    · intro c' hc' hnot'
      have hne : Not (c'.id = c.id) := by
        intro hid
        rw [T.sameId c' c hc' hc hid] at hnot'
        exact hnot' mem_cons_self
      rw [setCommand_bit (id_lt hc), if_neg hne, setCommand_subcommands, if_neg hne]
      exact h.done c' hc' hnot'
    · intro id hid
      rw [setCommand_bit (id_lt hc), if_neg (hid c hc).symm]
      exact h.spare id hid
    · intro hplain r hr
      rcases mem_append.mp hr with hr | hr
      · exact h.plain hplain r hr
      rw [mem_singleton.mp hr]
      intro hb
      rcases mem_cons.mp hb with hb | hb
      · cases hvalue : u.allowedCommands c.id with
        | true | false =>
          rw [hvalue] at hb
          exact absurd hb (by decide)
      · exact not_blank_name hc hb
    · simp
  · next hsame =>
    refine ⟨v, ?_, h⟩
    rw [h.mirrors.bits]
    exact (Decidable.not_not.mp hsame).symm

theorem describing_command (hlists : Lists T u)
    (hapart : u.allowedCommands c.id = true -> u.allowedSubcommands c.id = [])
    (h : Describing T H u v0 (c :: left) d v) (hc : c ∈ T.cmds)
    (hleft : forall c', c' ∈ left -> c' ∈ T.cmds) (hnot : c ∉ left) :
    exists v', Describing T H u v0 left (describeCommand u d c) v' := by
  rcases describing_bit h hc with ⟨v1, hbit, h1⟩
  simp only [describeCommand]
  generalize hd : (if ACLGetUserCommandBit u c.id ≠ ACLGetUserCommandBit d.fakeuser c.id then
      ({ rules := d.rules ++ [(if ACLGetUserCommandBit u c.id then 43 else 45) :: c.name]
         fakeuser := ACLSetUserCommandBit d.fakeuser c.id (ACLGetUserCommandBit u c.id) } : Description)
    else d) = d1 at h1 ⊢
  have hempty := h1.ahead c mem_cons_self
  -- what is done is what was done, and this command
  have hdone : forall v2 : User, (forall j, Not (j = c.id) ->
      v2.allowedSubcommands j = v1.allowedSubcommands j) ->
      v2.allowedCommands = v1.allowedCommands ->
      v2.allowedSubcommands c.id = u.allowedSubcommands c.id ->
      forall c', c' ∈ T.cmds -> c' ∉ left ->
        v2.allowedCommands c'.id = u.allowedCommands c'.id ∧
          v2.allowedSubcommands c'.id = u.allowedSubcommands c'.id := by
    intro v2 hothers hbits hsubs c' hc' hnot'
    by_cases heq : c' = c
    · rw [heq, hbits]
      exact ⟨hbit, hsubs⟩
    · have hne : Not (c'.id = c.id) := fun hid => heq (T.sameId c' c hc' hc hid)
      rw [hbits, hothers c'.id hne]
      exact h1.done c' hc' (by simp [heq, hnot'])
  rw [getBit_eq hc]
  cases hvalue : u.allowedCommands c.id with
  | true =>
    rw [if_neg (by decide)]
    exact ⟨v1, h1.run, h1.mirrors, h1.flagBits, h1.others,
      fun c' hc' => h1.ahead c' (mem_cons_of_mem c hc'),
      hdone v1 (fun _ _ => rfl) rfl (by rw [hempty, hapart hvalue]), h1.spare, h1.plain, h1.some⟩
  | false =>
    rw [if_pos rfl]
    have hclear : v1.allowedCommands c.id = false := by rw [hbit, hvalue]
    have hrun := @run_subs T H c hc (u.allowedSubcommands c.id) v1 hclear
      (h1.flagBits.off hc hclear) (hlists.texts c hc) (by rw [hempty]; exact hlists.apart c hc)
    refine ⟨_, run_append h1.run hrun, ⟨h1.mirrors.bits, h1.mirrors.flag⟩, h1.flagBits,
      ⟨h1.others.passwords, h1.others.patterns, h1.others.flags⟩, ?_, ?_, h1.spare, ?_, ?_⟩
    · intro c' hc'
      have hne : Not (c'.id = c.id) := by
        intro hid
        rw [T.sameId c' c (hleft c' hc') hc hid] at hc'
        exact hnot hc'
      change (if c'.id = c.id then _ else _) = _
      rw [if_neg hne]
      exact h1.ahead c' (mem_cons_of_mem c hc')
    · apply hdone
      · intro j hj
        exact if_neg hj
      · rfl
      · change (if c.id = c.id then _ else _) = _
        rw [if_pos rfl, hempty, nil_append]
    · intro hplain r hr
      rcases mem_append.mp hr with hr | hr
      · exact h1.plain hplain r hr
      rcases mem_map.mp hr with ⟨s, hs, rfl⟩
      have hname := not_blank_name hc
      have hsub := hplain c hc s hs
      simp [hname, hsub]
    · intro hnil
      exact h1.some (append_eq_nil_iff.mp hnil).left

def Apart (T : Table) (u : User) : Prop :=
  forall c, c ∈ T.cmds -> u.allowedCommands c.id = true -> u.allowedSubcommands c.id = []

theorem describing_commands (hlists : Lists T u)
    (hapart : Apart T u) (hleft : forall c, c ∈ left -> c ∈ T.cmds)
    (hnodup : left.Nodup) (h : exists v, Describing T H u v0 left d v) :
    exists v', Describing T H u v0 [] (left.foldl (describeCommand u) d) v' := by
  induction left generalizing d with
  | nil => exact h
  | cons c left ih =>
    rcases h with ⟨v, hv⟩
    rw [nodup_cons] at hnodup
    have hc := hleft c mem_cons_self
    have hrest := fun c' hc' => hleft c' (mem_cons_of_mem c hc')
    exact ih hrest hnodup.right (describing_command hlists (hapart c hc) hv hc hrest hnodup.left)

theorem describing_end (hlists : Lists T u) (hapart : Apart T u) (v0 : User) :
    exists v, Describing T H u v0 [] (description T H u) v :=
  describing_commands hlists hapart (fun _ hc => hc) T.nodup
    (describing_categories (describing_start T H u v0) _ (fun _ hitem => hitem))

theorem describe_rules (hlists : Lists T u) (hapart : Apart T u) :
    ACLDescribeUserCommandRules T H u = some (joinRules (description T H u).rules) := by
  rcases @describing_end T H u hlists hapart u with ⟨v, hv⟩
  have hbits : forall id, (description T H u).fakeuser.allowedCommands id = u.allowedCommands id := by
    intro id
    rw [← hv.mirrors.bits]
    by_cases hcmd : exists c, c ∈ T.cmds ∧ c.id = id
    · rcases hcmd with ⟨c, hc, rfl⟩
      exact (hv.done c hc not_mem_nil).left
    · have hspare : forall c, c ∈ T.cmds -> c.id ≠ id := fun c hc heq => hcmd ⟨c, hc, heq⟩
      rw [hv.spare id hspare, hlists.spare id hspare]
  have hall : (List.range USER_COMMAND_BITS_COUNT).all (fun id =>
      decide ((description T H u).fakeuser.allowedCommands id = u.allowedCommands id)) = true := by
    rw [all_eq_true]
    intro id _
    exact decide_eq_true (hbits id)
  unfold ACLDescribeUserCommandRules
  simp only [hall, if_true]

end Describe

/-!
# The text
-/

theorem joinRules_eq (h : rules ≠ []) : joinRules rules = [32].intercalate rules := by
  induction rules with
  | nil => exact absurd rfl h
  | cons rule rules ih =>
    rcases rules with _ | ⟨next, rules⟩
    · simp [joinRules]
    have hrest : ((next :: rules).flatMap fun rule => rule ++ [32]) ≠ [] := by simp
    have hjoin := ih (by simp)
    unfold joinRules at hjoin ⊢
    rw [flatMap_cons, dropLast_append_of_ne_nil hrest, hjoin, intercalate_cons_cons]

theorem joinRules_append (first : List Sds) (h : rules ≠ []) :
    (first.flatMap fun rule => rule ++ [32]) ++ joinRules rules = joinRules (first ++ rules) := by
  have hne : (rules.flatMap fun rule => rule ++ [32]) ≠ [] := by
    rcases rules with _ | ⟨rule, rules⟩
    · exact absurd rfl h
    · simp
  unfold joinRules
  rw [flatMap_append, dropLast_append_of_ne_nil hne]

theorem not_mem_splitOn {x : UInt8} (h : piece ∈ text.splitOn x) : x ∉ piece := by
  have hgo : forall (xs acc : Sds), x ∉ acc ->
      forall piece, piece ∈ List.splitOnPPrepend (· == x) xs acc -> x ∉ piece := by
    intro xs
    induction xs with
    | nil =>
      intro acc hacc piece hpiece
      rw [List.splitOnPPrepend, mem_singleton] at hpiece
      rw [hpiece, mem_reverse]
      exact hacc
    | cons b xs ih =>
      intro acc hacc piece hpiece
      rw [List.splitOnPPrepend] at hpiece
      split at hpiece
      · rcases mem_cons.mp hpiece with rfl | hpiece
        · rw [mem_reverse]
          exact hacc
        · exact ih [] not_mem_nil piece hpiece
      · next hb =>
        apply ih (b :: acc) _ piece hpiece
        intro hmem
        rcases mem_cons.mp hmem with rfl | hmem
        · exact hb (beq_self_eq_true x)
        · exact hacc hmem
  exact hgo text [] not_mem_nil piece h

def loginRules (u : User) : List Sds :=
  describeFlags u.flags ++ u.passwords.map (35 :: ·) ++
    if u.flags.allkeys then [allPatternText] else u.patterns.map (126 :: ·)

section Text

variable {T : Table} {H : Hasher} {u : User}

theorem describe_text (hlists : Lists T u) (hapart : Apart T u) :
    ACLDescribeUser T H u = some (joinRules (loginRules u ++ (description T H u).rules)) := by
  rcases @describing_end T H u hlists hapart u with ⟨v, hv⟩
  unfold ACLDescribeUser
  rw [describe_rules hlists hapart, Option.map_some, ← joinRules_append _ hv.some]
  unfold loginRules
  rw [flatMap_append, flatMap_append, flatMap_map]
  congr 4
  split
  · simp
  · rw [flatMap_map]
    rfl

theorem loginRules_plain (hlogin : Login u) (hkeys : Keys u) :
    forall r, r ∈ loginRules u -> 32 ∉ r := by
  intro r hr
  unfold loginRules at hr
  rw [mem_append, mem_append] at hr
  rcases hr with (hr | hr) | hr
  · simp only [describeFlags, mem_append, mem_ite_nil_right, mem_singleton] at hr
    rcases hr with (⟨_, rfl⟩ | ⟨_, rfl⟩) | ⟨_, rfl⟩
    · decide
    · decide
    · decide
  · rcases mem_map.mp hr with ⟨p, hp, rfl⟩
    have hvalid := hlogin.hashes p hp
    unfold ACLCheckPasswordHash at hvalid
    rw [Bool.and_eq_true, all_eq_true] at hvalid
    intro hb
    rcases mem_cons.mp hb with hb | hb
    · exact absurd hb (by decide)
    · exact absurd (hvalid.right 32 hb) (by decide)
  · split at hr
    · rw [mem_singleton.mp hr]
      decide
    rcases mem_map.mp hr with ⟨p, hp, rfl⟩
    have hspaces := (hkeys.patterns p hp).left
    unfold ACLStringHasSpaces at hspaces
    rw [any_eq_false] at hspaces
    intro hb
    rcases mem_cons.mp hb with hb | hb
    · exact absurd hb (by decide)
    · exact hspaces 32 hb (by decide)

theorem run_login (hlogin : Login u) (hkeys : Keys u) :
    exists v, runSteps (ACLSetUser T H) (loginRules u) ACLCreateUser = .ok v ∧
      v.passwords = u.passwords ∧ v.patterns = u.patterns ∧
      v.flags = { u.flags with allcommands := false } := by
  have hnopass : (u.flags.nopass && u.passwords.isEmpty) = u.flags.nopass := by
    cases hno : u.flags.nopass with
    | false => rfl
    | true =>
      rw [hlogin.nopass hno]
      rfl
  have hfirst := run_append (run_flags T H u.flags hlogin.onoff)
    (run_passwords hlogin.hashes hlogin.nodup)
  simp only [hnopass] at hfirst
  unfold loginRules
  cases hall : u.flags.allkeys with
  | true =>
    refine ⟨_, run_snoc hfirst rfl, rfl, (hkeys.allkeys hall).symm, ?_⟩
    rw [← hall]
  | false =>
    refine ⟨_, run_append hfirst (run_patterns rfl hkeys.patterns hkeys.nodup), rfl, rfl, ?_⟩
    rw [← hall]

def allDescription : Description :=
  { rules := [plusAllText], fakeuser := allcommands zeroUser }

theorem description_all (hbits : forall c, c ∈ T.cmds -> ACLGetUserCommandBit u c.id = true)
    (hfuture : ACLUserCanExecuteFutureCommands u = true) :
    description T H u = allDescription := by
  have hstart : startDescription u = allDescription := by
    unfold startDescription
    rw [hfuture]
    rfl
  have hcategories : forall items d,
      List.foldl (describeCategory T H u false) d items = (d : Description) := by
    intro items
    induction items with
    | nil => exact fun d => rfl
    | cons item items ih =>
      intro d
      have hoff : (T.cmds.filter fun c =>
          c.inCategory item.2 && !ACLGetUserCommandBit u c.id) = [] := by
        rw [filter_eq_nil_iff]
        intro c hc
        rw [hbits c hc]
        simp
      have hsame : describeCategory T H u false d item = d := by
        simp [describeCategory, ACLCountCategoryBitsForUser, hoff]
      rw [foldl_cons, hsame]
      exact ih d
  have hcommands : forall cmds : List Command, (forall c, c ∈ cmds -> c ∈ T.cmds) ->
      cmds.foldl (describeCommand u) allDescription = allDescription := by
    intro cmds
    induction cmds with
    | nil => exact fun _ => rfl
    | cons c cmds ih =>
      intro hcmds
      have hc := hcmds c mem_cons_self
      have hfake : ACLGetUserCommandBit (allcommands zeroUser) c.id = true := getBit_eq hc _
      have hsame : describeCommand u allDescription c = allDescription := by
        simp [describeCommand, allDescription, hbits c hc, hfake]
      rw [foldl_cons, hsame]
      exact ih fun c' hc' => hcmds c' (mem_cons_of_mem c hc')
  unfold description
  rw [hfuture, hstart, Bool.not_true, hcategories]
  exact hcommands T.cmds fun _ hc => hc

end Text

/-!
# Faithful descriptions
-/

structure Same (T : Table) (u u' : User) : Prop where
  verdict : forall cmd, cmd ∈ T.cmds -> forall argv,
    commandDenied u' cmd argv = commandDenied u cmd argv
  patterns : u'.patterns = u.patterns
  passwords : u'.passwords = u.passwords
  flags : u'.flags = u.flags

def Rebuilds (T : Table) (H : Hasher) (u : User) (text : Sds) : Prop :=
  exists u', runSteps (ACLSetUser T H) (text.splitOn 32) ACLCreateUser = .ok u' ∧ Same T u u'

def FlagTold (T : Table) (u : User) : Prop :=
  (forall c, c ∈ T.cmds -> ACLGetUserCommandBit u c.id = true) ->
    ACLUserCanExecuteFutureCommands u = true -> u.flags.allcommands = true

section Faithful

variable {T : Table} {H : Hasher} {u : User}

theorem rebuilt (hreached : Reached T u) (hapart : Apart T u) (hplain : NoBlank T u) :
    exists u', runSteps (ACLSetUser T H)
        ((joinRules (loginRules u ++ (description T H u).rules)).splitOn 32) ACLCreateUser = .ok u' ∧
      u'.passwords = u.passwords ∧ u'.patterns = u.patterns ∧
      { u'.flags with allcommands := false } = { u.flags with allcommands := false } ∧
      FlagBits u' ∧
      u'.flags.allcommands = (description T H u).fakeuser.flags.allcommands ∧
      (forall c, c ∈ T.cmds -> u'.allowedCommands c.id = u.allowedCommands c.id ∧
        u'.allowedSubcommands c.id = u.allowedSubcommands c.id) ∧
      u'.allowedCommands (USER_COMMAND_BITS_COUNT - 1) =
        u.allowedCommands (USER_COMMAND_BITS_COUNT - 1) := by
  rcases @run_login T H u hreached.login hreached.keys with ⟨v, hlogin, hpass, hpat, hflags⟩
  rcases @describing_end T H u hreached.lists hapart v with ⟨u', hdescribing⟩
  have hne : loginRules u ++ (description T H u).rules ≠ [] :=
    fun hnil => hdescribing.some (append_eq_nil_iff.mp hnil).right
  have hblank : forall r, r ∈ loginRules u ++ (description T H u).rules -> 32 ∉ r := by
    intro r hr
    rcases mem_append.mp hr with hr | hr
    · exact loginRules_plain hreached.login hreached.keys r hr
    · exact hdescribing.plain hplain r hr
  rw [joinRules_eq hne, splitOn_intercalate 32 hblank hne]
  refine ⟨u', run_append hlogin hdescribing.run, hdescribing.others.passwords.trans hpass,
    hdescribing.others.patterns.trans hpat, ?_, hdescribing.flagBits, hdescribing.mirrors.flag,
    fun c hc => hdescribing.done c hc not_mem_nil,
    hdescribing.spare _ fun c hc => last_not_command T hc⟩
  rw [hdescribing.others.flags, hflags]

theorem verdict_eq {u' : User} (hflag : FlagBits u) (hflag' : FlagBits u') {c : Command}
    (hc : c ∈ T.cmds) (hbit : u'.allowedCommands c.id = u.allowedCommands c.id)
    (hsubs : u'.allowedSubcommands c.id = u.allowedSubcommands c.id) (argv : List Sds) :
    commandDenied u' c argv = commandDenied u c argv := by
  have hmatches : subcommandMatches u' c argv = subcommandMatches u c argv := by
    unfold subcommandMatches
    rw [hsubs]
  unfold commandDenied
  rw [hmatches, getBit_eq hc, getBit_eq hc, hbit]
  cases hset : u.allowedCommands c.id with
  | true => simp
  | false =>
    rw [hflag.off hc hset, hflag'.off hc (hbit.trans hset)]

theorem rebuilds_of_plain (hreached : Reached T u) (hflag : FlagBits u)
    (hapart : Apart T u) (hplain : NoBlank T u) (htold : FlagTold T u) :
    Rebuilds T H u (joinRules (loginRules u ++ (description T H u).rules)) := by
  rcases @rebuilt T H u hreached hapart hplain with
    ⟨u', hrun, hpass, hpat, hflags, hflag', hfake, hsame, hlast⟩
  refine ⟨u', hrun, ?_, hpat, hpass, ?_⟩
  · intro c hc argv
    rcases hsame c hc with ⟨hbit, hsubs⟩
    exact verdict_eq hflag hflag' hc hbit hsubs argv
  have hall : u'.flags.allcommands = u.flags.allcommands := by
    cases hset : u'.flags.allcommands with
    | true =>
      symm
      apply htold
      · intro c hc
        rw [getBit_eq hc, ← (hsame c hc).left]
        exact hflag' hset c.id (id_lt hc)
      · rw [future_eq, ← hlast]
        exact hflag' hset _ (by decide)
    | false =>
      cases hset' : u.flags.allcommands with
      | false => rfl
      | true =>
        have hdescription := @description_all T H u
          (fun c hc => by rw [getBit_eq hc]; exact hflag hset' c.id (id_lt hc))
          (by rw [future_eq]; exact hflag hset' _ (by decide))
        rw [hfake, hdescription] at hset
        cases hset
  have hflags' : u'.flags = { u.flags with allcommands := u'.flags.allcommands } := by
    have := congrArg (fun f : UserFlags => { f with allcommands := u'.flags.allcommands }) hflags
    exact this
  rw [hflags', hall]

theorem noBlank_of_rules {u' : User} (hrules : forall r, r ∈ rules -> 32 ∉ r)
    (hrun : runSteps (ACLSetUser T H) rules ACLCreateUser = .ok u') : NoBlank T u' := by
  refine @runSteps_invariant Sds User Errno (ACLSetUser T H) (fun op _ => 32 ∉ op) (NoBlank T) ?_
    rules ACLCreateUser u' (fun c _ s hs => absurd hs not_mem_nil) (allSteps_of_mem hrules) hrun
  intro op v v' h hop hstep c hc s hs
  rcases applied_sub (applied_iff.mp hstep) hc hs with hs | ⟨_, name, hadds⟩
  · exact h c hc s hs
  · exact fun hb => hop (parse_addSubcommand hadds 32 hb).left

theorem blank_unmatched (hs : forall b, b ∈ s -> b ≠ 0) (hblank : 32 ∈ s) (hx : 32 ∉ x) :
    strcasecmpEq s x = false := by
  apply Bool.eq_false_iff.mpr
  intro heq
  unfold strcasecmpEq at heq
  rw [beq_iff_eq] at heq
  have hmem : 32 ∈ (cstr s).map tolower := by
    rw [cstr_of_no_null hs]
    exact mem_map.mpr ⟨32, hblank, rfl⟩
  unfold cstr at hmem
  rw [heq] at hmem
  rcases mem_map.mp hmem with ⟨b, hb, hlower⟩
  rw [tolower_low (by decide) hlower] at hb
  exact hx ((List.takeWhile_prefix _).mem hb)

theorem plain_of_rebuilds (hreached : Reached T u) (hflag : FlagBits u) (hapart : Apart T u)
    (h : Rebuilds T H u text) :
    forall c, c ∈ T.cmds -> c.auth = false -> forall s, s ∈ u.allowedSubcommands c.id -> 32 ∉ s := by
  intro c hc hauth s hs hblank
  rcases h with ⟨u', hrun, hsame⟩
  have hplain' := noBlank_of_rules (fun r hr => not_mem_splitOn hr) hrun
  have hbit : u.allowedCommands c.id = false := by
    cases hset : u.allowedCommands c.id with
    | false => rfl
    | true =>
      rw [hapart c hc hset] at hs
      cases hs
  have hoff := hflag.off hc hbit
  -- the user denies the command without an argument and allows it with the subcommand
  have hdenied : commandDenied u c [] = true := by
    simp [commandDenied, subcommandMatches, hoff, hauth, getBit_eq hc, hbit]
  have hallowed : commandDenied u c [c.name, s] = false := by
    have hany : ((u.allowedSubcommands c.id).any fun sub => strcasecmpEq s sub) = true :=
      any_eq_true.mpr ⟨s, hs, beq_self_eq_true _⟩
    simp [commandDenied, subcommandMatches, hany]
  -- the other one does not have the subcommand
  have hunmatched : subcommandMatches u' c [c.name, s] = false := by
    unfold subcommandMatches
    rw [any_eq_false]
    intro x hx
    rw [blank_unmatched (hreached.lists.texts c hc s hs).right hblank (hplain' c hc x hx)]
    decide
  rw [← hsame.verdict c hc] at hdenied hallowed
  unfold commandDenied at hdenied hallowed
  rw [hunmatched] at hallowed
  simp only [subcommandMatches, Bool.not_false, Bool.and_true] at hdenied hallowed
  rw [hdenied] at hallowed
  cases hallowed

theorem told_of_rebuilds (hreached : Reached T u) (hapart : Apart T u)
    (h : Rebuilds T H u (joinRules (loginRules u ++ (description T H u).rules))) : FlagTold T u := by
  intro hbits hfuture
  have hplain : NoBlank T u := by
    intro c hc s hs
    have hset := hbits c hc
    rw [getBit_eq hc] at hset
    rw [hapart c hc hset] at hs
    cases hs
  rcases @rebuilt T H u hreached hapart hplain with ⟨u1, hrun1, _, _, _, _, hfake, _, _⟩
  rcases h with ⟨u2, hrun2, hsame⟩
  have heq : u1 = u2 := by
    rw [hrun1] at hrun2
    exact Except.ok.inj hrun2
  rw [← hsame.flags, ← heq, hfake, description_all hbits hfuture]
  rfl

end Faithful

/-- Every user that accepted rules lead to has a description.  The description is faithful
if no subcommand has a blank and the flag for all commands tells of the bits; and this is
needed, except for the subcommands of `AUTH`. -/
theorem acl_description_faithful {T : Table} {H : Hasher} {ops : List Sds} {u : User}
    (hrun : runSteps (ACLSetUser T H) ops ACLCreateUser = .ok u) :
    exists text, ACLDescribeUser T H u = some text ∧
      (NoBlank T u ∧ FlagTold T u -> Rebuilds T H u text) ∧
      (Rebuilds T H u text -> FlagTold T u ∧ forall c, c ∈ T.cmds -> c.auth = false ->
        forall s, s ∈ u.allowedSubcommands c.id -> 32 ∉ s) := by
  have hreached := reached_of_accepted hrun
  rcases accepted_declared hrun with ⟨hflag, hdeclared⟩
  have hapart := fun c hc => (hdeclared c hc).apart
  refine ⟨_, describe_text hreached.lists hapart, ?_, ?_⟩
  · rintro ⟨hplain, htold⟩
    exact rebuilds_of_plain hreached hflag hapart hplain htold
  · intro h
    exact ⟨told_of_rebuilds hreached hapart h, plain_of_rebuilds hreached hflag hapart h⟩

def blankRule : Sds := [43, 99, 111, 110, 102, 105, 103, 124, 103, 101, 116, 32, 43, 64, 97, 108, 108]

def grantingText : Sds :=
  [111, 102, 102, 32, 45, 64, 97, 108, 108, 32,
    43, 99, 111, 110, 102, 105, 103, 124, 103, 101, 116, 32, 43, 64, 97, 108, 108]

/-- A user that can run nothing but `CONFIG` with one odd argument is described by a text
whose pieces lead to a user that can run everything. -/
theorem acl_description_grants :
    exists u text u', runSteps (ACLSetUser twoCommands zeroHasher) [blankRule] ACLCreateUser = .ok u ∧
      ACLDescribeUser twoCommands zeroHasher u = some text ∧
      runSteps (ACLSetUser twoCommands zeroHasher) (text.splitOn 32) ACLCreateUser = .ok u' ∧
      commandDenied u getCommand [[71, 69, 84], [107]] = true ∧
      commandDenied u' getCommand [[71, 69, 84], [107]] = false := by
  have hrun := @exists_run_of_reaches Sds User Errno (ACLSetUser twoCommands zeroHasher)
    (fun u => ACLDescribeUser twoCommands zeroHasher u = some grantingText ∧
      commandDenied u getCommand [[71, 69, 84], [107]] = true)
    inferInstance [blankRule] ACLCreateUser (by decide +kernel)
  have hrun' := @exists_run_of_reaches Sds User Errno (ACLSetUser twoCommands zeroHasher)
    (fun u' => commandDenied u' getCommand [[71, 69, 84], [107]] = false) inferInstance
    (grantingText.splitOn 32) ACLCreateUser (by decide +kernel)
  rcases hrun with ⟨u, hu, htext, hdenied⟩
  rcases hrun' with ⟨u', hu', hallowed⟩
  exact ⟨u, _, u', hu, htext, hu', hdenied, hallowed⟩

theorem acl_description_faithful_config :
    exists u text, runSteps (ACLSetUser twoCommands zeroHasher)
        [[43, 64, 97, 108, 108],
          [45, 99, 111, 110, 102, 105, 103],
          [43, 99, 111, 110, 102, 105, 103, 124, 103, 101, 116]]
        ACLCreateUser = .ok u ∧
      ACLDescribeUser twoCommands zeroHasher u = some text ∧ Rebuilds twoCommands zeroHasher u text := by
  apply (@exists_run_of_reaches _ _ _ (ACLSetUser twoCommands zeroHasher)
    (fun u => (forall c, c ∈ twoCommands.cmds -> forall s, s ∈ u.allowedSubcommands c.id -> 32 ∉ s) ∧
      ACLGetUserCommandBit u configCommand.id = false)
    inferInstance _ _ _).elim
  · rintro u ⟨hrun, hplain, hbit⟩
    rcases acl_description_faithful hrun with ⟨text, htext, hfaithful, _⟩
    refine ⟨u, text, hrun, htext, hfaithful ⟨hplain, ?_⟩⟩
    intro hbits
    have hset := hbits configCommand (by decide)
    rw [hbit] at hset
    cases hset
  · decide +kernel

end Acl
end Redisoo
