import Redisoo.Commands
import Redisoo.Foundation.Stdio

/-!
# Requests from the network

The reading of requests in `networking.c`: `readQueryFromClient` appends what a read
returns to the query buffer, `processInputBuffer` takes commands from it, and
`processMultibulkBuffer` resumes a request where the bytes ended the last time.  The
client is an ordinary one that is neither blocked nor suspended, and reads are not done
by I/O threads.  A request that is not a multibulk one is not modelled further.
-/

namespace Redisoo

open Foundation.Stdio

namespace Resp

def PROTO_IOBUF_LEN : Nat := 16384

def PROTO_INLINE_MAX_SIZE : Nat := 65536

def PROTO_MBULK_BIG_ARG : Nat := 32768

inductive ReqType where
  | inline
  | multibulk
deriving DecidableEq

structure RespServer where
  protoMaxBulkLen : Nat
  clientMaxQuerybufLen : Nat
  isLongLong : protoMaxBulkLen ≤ Util.LLONG_MAX
  /-- other commands that close their own client: `CLIENT KILL` that matches it, `ACL DELUSER`
  or `ACL LOAD` that drops its user, the end of a debugged script -/
  killsItself : List Sds -> Bool

structure RespClient where
  querybuf : List UInt8
  qbPos : Nat
  reqtype : Option ReqType
  multibulklen : Nat
  bulklen : Int
  argv : List Sds
  /-- `CLIENT_CLOSE_AFTER_REPLY` -/
  closeAfterReply : Bool
  /-- `CLIENT_CLOSE_ASAP` -/
  closeAsap : Bool
  /-- replies of the parser -/
  replies : List String
  /-- the commands given to `processCommand`, in order -/
  executed : List (List Sds)
deriving DecidableEq

inductive RespPanic where
  | assertion
  | inlineRequest
  | fuel
deriving DecidableEq

def createClient : RespClient :=
  { querybuf := [], qbPos := 0, reqtype := none, multibulklen := 0, bulklen := -1, argv := []
    closeAfterReply := false, closeAsap := false, replies := [], executed := [] }

def RespClient.unread (c : RespClient) : List UInt8 :=
  c.querybuf.drop c.qbPos

def RespClient.protocolError (c : RespClient) (reply : String) : RespClient :=
  { c with closeAfterReply := true, replies := c.replies ++ [reply] }

/-!
# One request
-/

inductive LineScan where
  | tooBig
  | incomplete
  | at (newline : Nat)
deriving DecidableEq

def findLine (u : List UInt8) : LineScan :=
  match strchr 13 u with
  | none => if u.length > PROTO_INLINE_MAX_SIZE then .tooBig else .incomplete
  | some newline =>
    if (newline : Int) > (u.length : Int) - 2 then .incomplete else .at newline

inductive BulkLen where
  | failed (c : RespClient)
  | incomplete
  | known (c : RespClient)

def RespClient.makeBoundary (c : RespClient) (ll : Nat) : RespClient :=
  if ll ≥ PROTO_MBULK_BIG_ARG ∧ c.querybuf.length - c.qbPos ≤ ll + 2 then
    { c with querybuf := c.unread, qbPos := 0 }
  else c

def readBulkLen (srv : RespServer) (c : RespClient) : BulkLen :=
  if c.bulklen = -1 then
    match findLine c.unread with
    | .tooBig => .failed (c.protocolError "Protocol error: too big bulk count string")
    | .incomplete => .incomplete
    | .at newline =>
      if c.unread.head? ≠ some 36 then
        .failed (c.protocolError ("Protocol error: expected '$', got '" ++
          toString (Char.ofNat (c.unread.headD 0).toNat) ++ "'"))
      else
        match Util.string2ll ((c.unread.drop 1).take (newline - 1)) with
        | none => .failed (c.protocolError "Protocol error: invalid bulk length")
        | some ll =>
          if ll < 0 ∨ ll > srv.protoMaxBulkLen then
            .failed (c.protocolError "Protocol error: invalid bulk length")
          else
            .known { ({ c with qbPos := c.qbPos + newline + 2 }).makeBoundary ll.toNat with
              bulklen := ll }
  else .known c

/-- Read the bulk argument; `none` if there is not enough data.  A large bulk that is all
of the query buffer becomes the argument without a copy. -/
def readBulkArg (c : RespClient) : Option RespClient :=
  let bulklen := c.bulklen.toNat
  if c.querybuf.length - c.qbPos < bulklen + 2 then none
  else if c.qbPos = 0 ∧ bulklen ≥ PROTO_MBULK_BIG_ARG ∧ c.querybuf.length = bulklen + 2 then
    some { c with
      argv := c.argv ++ [c.querybuf.take (c.querybuf.length - 2)]
      querybuf := []
      bulklen := -1
      multibulklen := c.multibulklen - 1 }
  else
    some { c with
      argv := c.argv ++ [c.unread.take bulklen]
      qbPos := c.qbPos + bulklen + 2
      bulklen := -1
      multibulklen := c.multibulklen - 1 }

def readBulks (srv : RespServer) : Nat -> RespClient -> RespClient × Bool
  | 0, c => (c, true)
  | n + 1, c =>
    match readBulkLen srv c with
    | .failed c => (c, false)
    | .incomplete => (c, false)
    | .known c =>
      match readBulkArg c with
      | none => (c, false)
      | some c => readBulks srv n c

def processMultibulkBuffer (srv : RespServer) (c : RespClient) :
    Except RespPanic (RespClient × Bool) :=
  if c.multibulklen = 0 then
    if c.argv ≠ [] then .error .assertion
    else
      match findLine c.unread with
      | .tooBig => .ok (c.protocolError "Protocol error: too big mbulk count string", false)
      | .incomplete => .ok (c, false)
      | .at newline =>
        if c.unread.head? ≠ some 42 then .error .assertion
        else
          match Util.string2ll ((c.unread.drop 1).take (newline - 1)) with
          | none => .ok (c.protocolError "Protocol error: invalid multibulk length", false)
          | some ll =>
            if ll > 1024 * 1024 then
              .ok (c.protocolError "Protocol error: invalid multibulk length", false)
            else if ll ≤ 0 then .ok ({ c with qbPos := c.qbPos + newline + 2 }, true)
            else
              .ok (readBulks srv ll.toNat { c with
                qbPos := c.qbPos + newline + 2
                multibulklen := ll.toNat })
  else .ok (readBulks srv c.multibulklen c)

/-!
# Commands
-/

def resetClient (c : RespClient) : RespClient :=
  { c with argv := [], reqtype := none, multibulklen := 0, bulklen := -1 }

/-- `QUIT`, which `processCommand` handles before it looks for a command. -/
def isQuit (argv : List Sds) : Bool :=
  strcasecmpEq (argv.headD []) [113, 117, 105, 116]

/-- `POST` and `HOST:`, whose `securityWarningCommand` frees the client asynchronously. -/
def isSecurityWarning (argv : List Sds) : Bool :=
  strcasecmpEq (argv.headD []) [112, 111, 115, 116] ||
    strcasecmpEq (argv.headD []) [104, 111, 115, 116, 58]

def closesClient (srv : RespServer) (argv : List Sds) : Bool :=
  isQuit argv || isSecurityWarning argv || srv.killsItself argv

/-- After `QUIT` the client is not reset; the other commands that close it only set its
flags. -/
def processCommandAndResetClient (srv : RespServer) (c : RespClient) : RespClient :=
  if isQuit c.argv then
    { c with
      executed := c.executed ++ [c.argv]
      replies := c.replies ++ ["OK"]
      closeAfterReply := true }
  else
    resetClient { c with
      executed := c.executed ++ [c.argv]
      closeAsap := c.closeAsap || isSecurityWarning c.argv
      closeAfterReply := c.closeAfterReply || srv.killsItself c.argv }

def RespClient.trim (c : RespClient) : RespClient :=
  if c.qbPos ≠ 0 then { c with querybuf := c.unread, qbPos := 0 } else c

def RespClient.determineReqtype (c : RespClient) : RespClient :=
  match c.reqtype with
  | some _ => c
  | none =>
    { c with reqtype := if c.unread.head? = some 42 then some .multibulk else some .inline }

def processInputBuffer (srv : RespServer) : Nat -> RespClient -> Except RespPanic RespClient
  | 0, _ => .error .fuel
  | fuel + 1, c =>
    if c.qbPos < c.querybuf.length then
      if c.closeAfterReply || c.closeAsap then .ok c.trim
      else if c.determineReqtype.reqtype = some .multibulk then
        match processMultibulkBuffer srv c.determineReqtype with
        | .error e => .error e
        | .ok (c, false) => .ok c.trim
        | .ok (c, true) =>
          if c.argv = [] then processInputBuffer srv fuel (resetClient c)
          else processInputBuffer srv fuel (processCommandAndResetClient srv c)
      else .error .inlineRequest
    else .ok c.trim

def readLen (c : RespClient) : Nat :=
  if c.reqtype = some .multibulk ∧ c.multibulklen ≠ 0 ∧ c.bulklen ≠ -1 ∧
      c.bulklen ≥ PROTO_MBULK_BIG_ARG then
    let remaining := c.bulklen + 2 - c.querybuf.length
    if remaining > 0 ∧ remaining < PROTO_IOBUF_LEN then remaining.toNat else PROTO_IOBUF_LEN
  else PROTO_IOBUF_LEN

/-- `readQueryFromClient` with the bytes the read returns; none if there is nothing to
read.  Every command takes bytes from the buffer, so there are no more rounds than bytes. -/
def readQueryFromClient (srv : RespServer) (c : RespClient) (nread : List UInt8) :
    Except RespPanic RespClient :=
  if nread = [] then .ok c
  else
    let c := { c with querybuf := c.querybuf ++ nread }
    if c.querybuf.length > srv.clientMaxQuerybufLen then .ok { c with closeAsap := true }
    else processInputBuffer srv (c.querybuf.length + 1) c

/-- A read when `n + 1` more bytes may have arrived of those the peer sends.  A client that
is being freed is not read from. -/
def respStep (srv : RespServer) (n : Nat) (st : RespClient × List UInt8) :
    Except RespPanic (RespClient × List UInt8) :=
  let (c, incoming) := st
  if c.closeAsap then .ok (c, incoming)
  else
    let nread := incoming.take (min (n + 1) (readLen c))
    (readQueryFromClient srv c nread).map fun c => (c, incoming.drop nread.length)

end Resp

end Redisoo
