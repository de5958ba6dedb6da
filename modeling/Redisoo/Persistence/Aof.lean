import Redisoo.Foundation.Stdio
import Redisoo.Util.Decimal

/-!
# The append only file

The text of a command in the append only file and the loader of `aof.c`.  The loader is
modelled on the bytes of the file; the commands it runs are recorded in the order in which
they are executed, and `EXEC` executes what was queued since `MULTI`.
-/

namespace Redisoo

open Foundation.Stdio

namespace Aof

def crlf : List UInt8 := [13, 10]

def bulk (s : Sds) : List UInt8 :=
  36 :: (Util.ll2string s.length ++ crlf ++ s ++ crlf)

def catAppendOnlyGenericCommand (argv : List Sds) : List UInt8 :=
  42 :: (Util.ll2string argv.length ++ crlf ++ argv.flatMap bulk)

/-!
# Reading a command
-/

inductive ReadError where
  | readerr (feof : Bool)
  | fmterr
deriving DecidableEq

def feof (buf rest : List UInt8) : Bool :=
  rest.isEmpty && buf.length < 127 && buf.getLast? != some 10

def atoi (s : List UInt8) : Int :=
  Int.bmod (strtol s) (2 ^ 32)

def readArg (p : List UInt8) : Except ReadError (Sds × List UInt8) :=
  match fgets 127 p with
  | ([], _) => .error (.readerr true)
  | (b :: num, p) =>
    if b ≠ 36 then .error .fmterr
    else
      let len := (strtol num % 2 ^ 64).toNat
      if p.length < len then .error (.readerr true)
      else if (p.drop len).length < 2 then .error (.readerr true)
      else .ok (p.take len, (p.drop len).drop 2)

def readArgs : Nat -> List UInt8 -> Except ReadError (List Sds × List UInt8)
  | 0, p => .ok ([], p)
  | argc + 1, p => do
      let (arg, p) ← readArg p
      let (args, p) ← readArgs argc p
      .ok (arg :: args, p)

def readCommand (p : List UInt8) : Except ReadError (Option (List Sds × List UInt8)) :=
  match fgets 127 p with
  | ([], _) => .ok none
  | (b :: num, rest) =>
    if b ≠ 42 then .error .fmterr
    else if num.head?.getD 0 = 0 then .error (.readerr (feof (b :: num) rest))
    else if atoi num < 1 then .error .fmterr
    else (readArgs (atoi num).toNat rest).map some

/-!
# Loading
-/

inductive Proc where
  | multiCommand
  | execCommand
  | other
deriving DecidableEq

abbrev CommandTable := Sds -> Option Proc

structure FakeClient where
  multi : Option (List (List Sds))
deriving DecidableEq

structure Loader where
  rest : List UInt8
  pos : Nat
  validUpTo : Nat
  validBeforeMulti : Nat
  client : FakeClient
  executed : List (List Sds)

inductive AofExit where
  | readError
  | unexpectedEof
  | badFormat
  | unknownCommand
  /-- the file starts with an RDB preamble, which is not modelled -/
  | preamble
  | fuel
deriving DecidableEq

inductive RetCode where
  | cOk
  | cErr
deriving DecidableEq

structure Loaded where
  ret : RetCode
  executed : List (List Sds)
  file : List UInt8
deriving DecidableEq

def FakeClient.run (c : FakeClient) (executed : List (List Sds)) (cmd : Proc)
    (argv : List Sds) : FakeClient × List (List Sds) :=
  match c.multi, cmd with
  | some queue, .execCommand => (⟨none⟩, executed ++ queue)
  | some queue, _ => (⟨some (queue ++ [argv])⟩, executed)
  | none, .multiCommand => (⟨some []⟩, executed)
  -- EXEC without MULTI is an error reply
  | none, .execCommand => (⟨none⟩, executed)
  | none, .other => (⟨none⟩, executed ++ [argv])

def Loader.step (st : Loader) (cmd : Proc) (argv : List Sds) (rest : List UInt8) : Loader :=
  let pos := st.pos + (st.rest.length - rest.length)
  let ran := st.client.run st.executed cmd argv
  { rest := rest
    pos := pos
    validUpTo := pos
    validBeforeMulti := if cmd = .multiCommand then st.validUpTo else st.validBeforeMulti
    client := ran.1
    executed := ran.2 }

def uxeof (file : List UInt8) (st : Loader) (validUpTo : Nat) : Loaded :=
  { ret := .cOk, executed := st.executed, file := file.take validUpTo }

def loadLoop (table : CommandTable) (file : List UInt8) : Nat -> Loader -> Except AofExit Loaded
  | 0, _ => .error .fuel
  | fuel + 1, st =>
    match readCommand st.rest with
    | .error .fmterr => .error .badFormat
    | .error (.readerr eof) =>
      if eof then .ok (uxeof file st st.validUpTo) else .error .readError
    | .ok none =>
      if st.client.multi.isSome then .ok (uxeof file st st.validBeforeMulti)
      else .ok { ret := .cOk, executed := st.executed, file := file }
    | .ok (some (argv, rest)) =>
      match argv.head?.bind table with
      | none => .error .unknownCommand
      | some cmd => loadLoop table file fuel (st.step cmd argv rest)

def Loader.init (file : List UInt8) : Loader :=
  { rest := file
    pos := 0
    validUpTo := 0
    validBeforeMulti := 0
    client := ⟨none⟩
    executed := [] }

/-- `"REDIS"`. -/
def sig : List UInt8 := [82, 69, 68, 73, 83]

def loadAppendOnlyFile (table : CommandTable) (file : List UInt8) : Except AofExit Loaded :=
  if file = [] then .ok { ret := .cErr, executed := [], file := file }
  else if file.take 5 = sig then .error .preamble
  else loadLoop table file (file.length + 1) (Loader.init file)

end Aof
end Redisoo
