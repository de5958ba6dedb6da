import Redisoo.Commands
import Redisoo.Foundation.Run
import Redisoo.Foundation.Stdio

/-!
# Access control lists

The rules of `ACLSetUser` on a user, the check of a command, and the description of a user
as a list of rules.  The commands are any table with distinct names and ids; there are no
modules.
-/

namespace Redisoo
namespace Acl

open Foundation

structure Command where
  name : Sds
  id : Nat
  flags : Nat
  auth : Bool
  deriving DecidableEq

def USER_COMMAND_BITS_COUNT : Nat := 1024

def spellable (name : Sds) : Bool :=
  name.all (fun b => b ≠ 0 && b ≠ 32 && b ≠ 124 && tolower b == b) &&
    byteAt name 0 ≠ 64 && name ≠ []

structure Table where
  cmds : List Command
  nodup : cmds.Nodup
  spelled : forall c, c ∈ cmds -> spellable c.name = true
  sameName : forall c c', c ∈ cmds -> c' ∈ cmds -> c.name = c'.name -> c = c'
  sameId : forall c c', c ∈ cmds -> c' ∈ cmds -> c.id = c'.id -> c = c'
  inBits : forall c, c ∈ cmds -> c.id < USER_COMMAND_BITS_COUNT - 1

structure UserFlags where
  enabled : Bool
  disabled : Bool
  allkeys : Bool
  allcommands : Bool
  nopass : Bool
  deriving DecidableEq

structure User where
  flags : UserFlags
  allowedCommands : Nat -> Bool
  allowedSubcommands : Nat -> List Sds
  passwords : List Sds
  patterns : List Sds

def ACLCreateUser : User :=
  { flags :=
      { enabled := false, disabled := true, allkeys := false, allcommands := false,
        nopass := false }
    allowedCommands := fun _ => false
    allowedSubcommands := fun _ => []
    passwords := []
    patterns := [] }

/-!
# Tables
-/

def ACLCommandCategories : List (Sds × Nat) :=
  [ ([107, 101, 121, 115, 112, 97, 99, 101], 1 <<< 18),
    ([114, 101, 97, 100], 1 <<< 19),
    ([119, 114, 105, 116, 101], 1 <<< 20),
    ([115, 101, 116], 1 <<< 21),
    ([115, 111, 114, 116, 101, 100, 115, 101, 116], 1 <<< 22),
    ([108, 105, 115, 116], 1 <<< 23),
    ([104, 97, 115, 104], 1 <<< 24),
    ([115, 116, 114, 105, 110, 103], 1 <<< 25),
    ([98, 105, 116, 109, 97, 112], 1 <<< 26),
    ([104, 121, 112, 101, 114, 108, 111, 103, 108, 111, 103], 1 <<< 27),
    ([103, 101, 111], 1 <<< 28),
    ([115, 116, 114, 101, 97, 109], 1 <<< 29),
    ([112, 117, 98, 115, 117, 98], 1 <<< 30),
    ([97, 100, 109, 105, 110], 1 <<< 31),
    ([102, 97, 115, 116], 1 <<< 32),
    ([115, 108, 111, 119], 1 <<< 33),
    ([98, 108, 111, 99, 107, 105, 110, 103], 1 <<< 34),
    ([100, 97, 110, 103, 101, 114, 111, 117, 115], 1 <<< 35),
    ([99, 111, 110, 110, 101, 99, 116, 105, 111, 110], 1 <<< 36),
    ([116, 114, 97, 110, 115, 97, 99, 116, 105, 111, 110], 1 <<< 37),
    ([115, 99, 114, 105, 112, 116, 105, 110, 103], 1 <<< 38) ]

def ACLGetCommandCategoryFlagByName (name : Sds) : Option Nat :=
  (ACLCommandCategories.find? fun item => strcasecmpEq name item.1).map Prod.snd

def Command.inCategory (c : Command) (cflag : Nat) : Bool :=
  c.flags &&& cflag ≠ 0

def Command.hasName (c : Command) (name : Sds) : Bool :=
  strcasecmpEq c.name name

def ACLLookupCommand (T : Table) (name : Sds) : Option Command :=
  T.cmds.find? fun c => c.hasName name

/-!
# Bits and subcommands
-/

def ACLGetUserCommandBit (u : User) (id : Nat) : Bool :=
  if id ≥ USER_COMMAND_BITS_COUNT then false else u.allowedCommands id

def ACLSetUserCommandBit (u : User) (id : Nat) (value : Bool) : User :=
  if id ≥ USER_COMMAND_BITS_COUNT then u
  else
    let u :=
      { u with allowedCommands := fun j => if j = id then value else u.allowedCommands j }
    if value then u else { u with flags := { u.flags with allcommands := false } }

def ACLResetSubcommandsForCommand (u : User) (id : Nat) : User :=
  { u with allowedSubcommands := fun j => if j = id then [] else u.allowedSubcommands j }

def ACLResetSubcommands (u : User) : User :=
  { u with allowedSubcommands := fun _ => [] }

def ACLAddAllowedSubcommand (u : User) (id : Nat) (sub : Sds) : User :=
  if (u.allowedSubcommands id).any fun s => strcasecmpEq s sub then u
  else
    { u with
      allowedSubcommands := fun j =>
        if j = id then u.allowedSubcommands j ++ [sub] else u.allowedSubcommands j }

def setCommand (u : User) (id : Nat) (value : Bool) : User :=
  ACLResetSubcommandsForCommand (ACLSetUserCommandBit u id value) id

def setCategory (cmds : List Command) (u : User) (cflag : Nat) (value : Bool) : User :=
  cmds.foldl (fun u c => if c.inCategory cflag then setCommand u c.id value else u) u

def ACLSetUserCommandBitsForCategory (T : Table) (u : User) (category : Sds) (value : Bool) :
    Option User :=
  (ACLGetCommandCategoryFlagByName category).map fun cflag => setCategory T.cmds u cflag value

/-!
# Rules
-/

def HASH_PASSWORD_LEN : Nat := 64

def ACLCheckPasswordHash (hash : Sds) : Bool :=
  hash.length = HASH_PASSWORD_LEN &&
    hash.all fun c => (97 ≤ c && c ≤ 102) || (48 ≤ c && c ≤ 57)

/-- `ACLHashPassword`, the hexadecimal text of a hash. -/
structure Hasher where
  hash : Sds -> Sds
  valid : forall s, ACLCheckPasswordHash (hash s) = true

def ACLStringHasSpaces (s : Sds) : Bool :=
  s.any fun b => Stdio.isspace b || b = 0

/-- `"on"`. -/
def onText : Sds := [111, 110]

/-- `"off"`. -/
def offText : Sds := [111, 102, 102]

/-- `"allkeys"`. -/
def allkeysText : Sds := [97, 108, 108, 107, 101, 121, 115]

/-- `"~*"`. -/
def allPatternText : Sds := [126, 42]

/-- `"resetkeys"`. -/
def resetkeysText : Sds := [114, 101, 115, 101, 116, 107, 101, 121, 115]

/-- `"allcommands"`. -/
def allcommandsText : Sds := [97, 108, 108, 99, 111, 109, 109, 97, 110, 100, 115]

/-- `"+@all"`. -/
def plusAllText : Sds := [43, 64, 97, 108, 108]

/-- `"nocommands"`. -/
def nocommandsText : Sds := [110, 111, 99, 111, 109, 109, 97, 110, 100, 115]

/-- `"-@all"`. -/
def minusAllText : Sds := [45, 64, 97, 108, 108]

/-- `"nopass"`. -/
def nopassText : Sds := [110, 111, 112, 97, 115, 115]

/-- `"resetpass"`. -/
def resetpassText : Sds := [114, 101, 115, 101, 116, 112, 97, 115, 115]

/-- `"reset"`. -/
def resetText : Sds := [114, 101, 115, 101, 116]

inductive Op where
  | on
  | off
  | allkeys
  | resetkeys
  | allcommands
  | nocommands
  | nopass
  | resetpass
  /-- `>` with a password, or `#` with its hash -/
  | addPassword (clear : Bool) (text : Sds)
  /-- `<` with a password, or `!` with its hash -/
  | delPassword (clear : Bool) (text : Sds)
  | addPattern (pat : Sds)
  | addCommand (name : Sds)
  | addSubcommand (name sub : Sds)
  | delCommand (name : Sds)
  | category (value : Bool) (name : Sds)
  | reset
  | unknown
  deriving DecidableEq

def cstr (s : Sds) : Sds :=
  s.takeWhile (· != 0)

/-- The tests of `ACLSetUser` on the text of a rule, in their order.  Only passwords and
patterns are read beyond a null byte. -/
def parseOp (op : Sds) : Op :=
  if strcasecmpEq op onText then .on
  else if strcasecmpEq op offText then .off
  else if strcasecmpEq op allkeysText || strcasecmpEq op allPatternText then .allkeys
  else if strcasecmpEq op resetkeysText then .resetkeys
  else if strcasecmpEq op allcommandsText || strcasecmpEq op plusAllText then .allcommands
  else if strcasecmpEq op nocommandsText || strcasecmpEq op minusAllText then .nocommands
  else if strcasecmpEq op nopassText then .nopass
  else if strcasecmpEq op resetpassText then .resetpass
  else if byteAt op 0 = 62 || byteAt op 0 = 35 then .addPassword (byteAt op 0 = 62) op.tail
  else if byteAt op 0 = 60 || byteAt op 0 = 33 then .delPassword (byteAt op 0 = 60) op.tail
  else if byteAt op 0 = 126 then .addPattern op.tail
  else if byteAt op 0 = 43 && byteAt op 1 ≠ 64 then
    let rule := (cstr op).tail
    if 124 ∈ rule then
      .addSubcommand (rule.takeWhile (· != 124)) (rule.dropWhile (· != 124)).tail
    else .addCommand rule
  else if byteAt op 0 = 45 && byteAt op 1 ≠ 64 then .delCommand (cstr op).tail
  else if (byteAt op 0 = 43 || byteAt op 0 = 45) && byteAt op 1 = 64 then
    .category (byteAt op 0 = 43) (cstr op).tail.tail
  else if strcasecmpEq op resetText then .reset
  else .unknown

inductive Errno where
  | EINVAL
  | ENOENT
  | EBUSY
  | EEXIST
  | ENODEV
  | EBADMSG
  deriving DecidableEq

def resetpass (u : User) : User :=
  { u with flags := { u.flags with nopass := false }, passwords := [] }

def resetkeys (u : User) : User :=
  { u with flags := { u.flags with allkeys := false }, patterns := [] }

def off (u : User) : User :=
  { u with flags := { u.flags with disabled := true, enabled := false } }

def nocommands (u : User) : User :=
  ACLResetSubcommands
    { u with allowedCommands := fun _ => false, flags := { u.flags with allcommands := false } }

def allcommands (u : User) : User :=
  ACLResetSubcommands
    { u with allowedCommands := fun _ => true, flags := { u.flags with allcommands := true } }

def passwordOf (H : Hasher) (clear : Bool) (text : Sds) : Except Errno Sds :=
  if clear then .ok (H.hash text)
  else if ACLCheckPasswordHash text then .ok text
  else .error .EBADMSG

def applyOp (T : Table) (H : Hasher) (u : User) : Op -> Except Errno User
  | .on => .ok { u with flags := { u.flags with enabled := true, disabled := false } }
  | .off => .ok (off u)
  | .allkeys => .ok { u with flags := { u.flags with allkeys := true }, patterns := [] }
  | .resetkeys => .ok (resetkeys u)
  | .allcommands => .ok (allcommands u)
  | .nocommands => .ok (nocommands u)
  | .nopass => .ok { u with flags := { u.flags with nopass := true }, passwords := [] }
  | .resetpass => .ok (resetpass u)
  | .addPassword clear text => do
      let newpass <- passwordOf H clear text
      .ok { u with
        passwords := if newpass ∈ u.passwords then u.passwords else u.passwords ++ [newpass]
        flags := { u.flags with nopass := false } }
  | .delPassword clear text => do
      let delpass <- passwordOf H clear text
      if delpass ∈ u.passwords then .ok { u with passwords := u.passwords.erase delpass }
      else .error .ENODEV
  | .addPattern pat =>
    if u.flags.allkeys then .error .EEXIST
    else if ACLStringHasSpaces pat then .error .EINVAL
    else
      .ok { u with
        patterns := if pat ∈ u.patterns then u.patterns else u.patterns ++ [pat]
        flags := { u.flags with allkeys := false } }
  | .addCommand name =>
    match ACLLookupCommand T name with
    | none => .error .ENOENT
    | some cmd => .ok (setCommand u cmd.id true)
  | .addSubcommand name sub =>
    match ACLLookupCommand T name with
    | none => .error .ENOENT
    | some cmd =>
      if sub.length = 0 then .error .EINVAL
      else if ACLGetUserCommandBit u cmd.id then .error .EBUSY
      else .ok (ACLSetUserCommandBit (ACLAddAllowedSubcommand u cmd.id sub) cmd.id false)
  | .delCommand name =>
    match ACLLookupCommand T name with
    | none => .error .ENOENT
    | some cmd => .ok (setCommand u cmd.id false)
  | .category value name =>
    match ACLSetUserCommandBitsForCategory T u name value with
    | none => .error .ENOENT
    | some u => .ok u
  | .reset => .ok (nocommands (off (resetkeys (resetpass u))))
  | .unknown => .error .EINVAL

def ACLSetUser (T : Table) (H : Hasher) (op : Sds) (u : User) : Except Errno User :=
  applyOp T H u (parseOp op)

/-!
# The check of a command
-/

inductive Perm where
  | ACL_OK
  | ACL_DENIED_CMD
  | ACL_DENIED_KEY
  deriving DecidableEq

def subcommandMatches (u : User) (cmd : Command) : List Sds -> Bool
  | _ :: arg :: _ => (u.allowedSubcommands cmd.id).any fun sub => strcasecmpEq arg sub
  | _ => false

def commandDenied (u : User) (cmd : Command) (argv : List Sds) : Bool :=
  !u.flags.allcommands && !cmd.auth && !ACLGetUserCommandBit u cmd.id &&
    !subcommandMatches u cmd argv

def ACLCheckCommandPerm (keys : List Nat) (stringmatch : Sds -> Sds -> Bool) (user : Option User)
    (cmd : Command) (argv : List Sds) : Perm :=
  match user with
  | none => .ACL_OK
  | some u =>
    if commandDenied u cmd argv then .ACL_DENIED_CMD
    else if !u.flags.allkeys &&
        !keys.all fun idx => u.patterns.any fun pat => stringmatch pat (argv.getD idx []) then
      .ACL_DENIED_KEY
    else .ACL_OK

/-!
# The description of a user
-/

def ACLUserCanExecuteFutureCommands (u : User) : Bool :=
  ACLGetUserCommandBit u (USER_COMMAND_BITS_COUNT - 1)

def ACLCountCategoryBitsForUser (T : Table) (u : User) (cflag : Nat) : Nat × Nat :=
  ((T.cmds.filter fun c => c.inCategory cflag && ACLGetUserCommandBit u c.id).length,
    (T.cmds.filter fun c => c.inCategory cflag && !ACLGetUserCommandBit u c.id).length)

structure Description where
  rules : List Sds
  fakeuser : User

def describeCategory (T : Table) (H : Hasher) (u : User) (additive : Bool) (d : Description)
    (item : Sds × Nat) : Description :=
  let (on, off) := ACLCountCategoryBitsForUser T u item.2
  if (additive && on > off) || (!additive && off > on) then
    let op := (if additive then [43, 64] else [45, 64]) ++ item.1
    { rules := d.rules ++ [op]
      fakeuser := (ACLSetUser T H op d.fakeuser).toOption.getD d.fakeuser }
  else d

def describeCommand (u : User) (d : Description) (cmd : Command) : Description :=
  let userbit := ACLGetUserCommandBit u cmd.id
  let fakebit := ACLGetUserCommandBit d.fakeuser cmd.id
  let d :=
    if userbit ≠ fakebit then
      { rules := d.rules ++ [(if userbit then 43 else 45) :: cmd.name]
        fakeuser := ACLSetUserCommandBit d.fakeuser cmd.id userbit }
    else d
  if userbit = false then
    { d with
      rules := d.rules ++ (u.allowedSubcommands cmd.id).map fun sub =>
        43 :: (cmd.name ++ 124 :: sub) }
  else d

def zeroUser : User :=
  { flags :=
      { enabled := false, disabled := false, allkeys := false, allcommands := false,
        nopass := false }
    allowedCommands := fun _ => false
    allowedSubcommands := fun _ => []
    passwords := []
    patterns := [] }

def joinRules (rules : List Sds) : Sds :=
  (rules.flatMap fun rule => rule ++ [32]).dropLast

def startDescription (u : User) : Description :=
  if !ACLUserCanExecuteFutureCommands u then
    { rules := [minusAllText], fakeuser := nocommands zeroUser }
  else { rules := [plusAllText], fakeuser := allcommands zeroUser }

def description (T : Table) (H : Hasher) (u : User) : Description :=
  T.cmds.foldl (describeCommand u)
    (ACLCommandCategories.foldl (describeCategory T H u (!ACLUserCanExecuteFutureCommands u))
      (startDescription u))

def ACLDescribeUserCommandRules (T : Table) (H : Hasher) (u : User) : Option Sds :=
  let d := description T H u
  if (List.range USER_COMMAND_BITS_COUNT).all fun id =>
      d.fakeuser.allowedCommands id = u.allowedCommands id then
    some (joinRules d.rules)
  else none

def describeFlags (flags : UserFlags) : List Sds :=
  (if flags.enabled then [onText] else []) ++ (if flags.disabled then [offText] else []) ++
    (if flags.nopass then [nopassText] else [])

def ACLDescribeUser (T : Table) (H : Hasher) (u : User) : Option Sds :=
  let flags := (describeFlags u.flags).flatMap fun rule => rule ++ [32]
  let passwords := u.passwords.flatMap fun pass => 35 :: (pass ++ [32])
  let patterns :=
    if u.flags.allkeys then allPatternText ++ [32]
    else u.patterns.flatMap fun pat => 126 :: (pat ++ [32])
  (ACLDescribeUserCommandRules T H u).map fun rules => flags ++ passwords ++ patterns ++ rules

end Acl
end Redisoo
