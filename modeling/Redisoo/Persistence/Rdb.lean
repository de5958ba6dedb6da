import Redisoo.Persistence.RdbObject

/-!
# RDB files

`rdbSaveRio` writes a flat stream of opcodes, and `rdbLoadRio` carries what an opcode says
about the next key in its variables.  There are no modules.
-/

namespace Redisoo

open Foundation.Bytes Foundation.Stdio

namespace Rdb

def RDB_VERSION : Nat := 9

def RDB_OPCODE_MODULE_AUX : UInt8 := 247

def RDB_OPCODE_IDLE : UInt8 := 248

def RDB_OPCODE_FREQ : UInt8 := 249

def RDB_OPCODE_AUX : UInt8 := 250

def RDB_OPCODE_RESIZEDB : UInt8 := 251

def RDB_OPCODE_EXPIRETIME_MS : UInt8 := 252

def RDB_OPCODE_EXPIRETIME : UInt8 := 253

def RDB_OPCODE_SELECTDB : UInt8 := 254

def RDB_OPCODE_EOF : UInt8 := 255

/-!
# The dataset
-/

structure RdbEntry (lzf : Lzf) where
  key : Sds
  val : RdbObject
  /-- `estimateObjectIdleTime` -/
  idletime : UInt64
  /-- `LFUDecrAndReturn` -/
  freq : UInt8
  keySize : key.length < 2 ^ 32
  fits : val.Fits lzf

structure RdbDb (lzf : Lzf) where
  dict : List (RdbEntry lzf)
  expires : Sds -> Option Int
  nodup : (dict.map RdbEntry.key).Nodup
  size : dict.length < 2 ^ 63
  expiresKey : forall k t, expires k = some t -> exists e, e ∈ dict ∧ e.key = k
  isLongLong : forall k t, expires k = some t -> SignedIn 8 t

structure RdbDataset (lzf : Lzf) where
  dbs : List (RdbDb lzf)
  dbnum : dbs.length < 2 ^ 31

def RdbDb.getExpire {lzf : Lzf} (db : RdbDb lzf) (key : Sds) : Int :=
  (db.expires key).getD (-1)

structure AuxField where
  key : Sds
  val : Sds
  keySize : key.length < 2 ^ 32
  valSize : val.length < 2 ^ 32

/-!
# Saving
-/

structure SaveConfig where
  savelru : Bool
  savelfu : Bool
  rdbCompression : Bool
  rdbChecksum : Bool
  /-- what `rdbSaveInfoAuxFields` writes -/
  info : List AuxField
  /-- the script cache, if it is saved -/
  lua : List AuxField

/-- What both directions share: the compressor and the checksum of the bytes so far. -/
structure Rio where
  lzf : Lzf
  crc64 : List UInt8 -> UInt64

section Save

variable (rio : Rio) (cfg : SaveConfig)

def saveExpire (expiretime : Int) : List UInt8 :=
  if expiretime ≠ -1 then RDB_OPCODE_EXPIRETIME_MS :: leInt 8 expiretime else []

def saveIdle (idletime : UInt64) : List UInt8 :=
  if cfg.savelru then RDB_OPCODE_IDLE :: rdbSaveLen (idletime.toNat / 1000) else []

def saveFreq (freq : UInt8) : List UInt8 :=
  if cfg.savelfu then [RDB_OPCODE_FREQ, freq] else []

def rdbSaveKeyValuePair (e : RdbEntry rio.lzf) (expiretime : Int) : List UInt8 :=
  saveExpire expiretime ++ (saveIdle cfg e.idletime ++ (saveFreq cfg e.freq ++
    (rdbSaveObjectType e.val :: (rdbSaveRawString rio.lzf cfg.rdbCompression e.key ++
      rdbSaveObject rio.lzf cfg.rdbCompression e.val))))

def rdbSaveAuxField (aux : AuxField) : List UInt8 :=
  RDB_OPCODE_AUX :: (rdbSaveRawString rio.lzf cfg.rdbCompression aux.key ++
    rdbSaveRawString rio.lzf cfg.rdbCompression aux.val)

def saveDb (j : Nat) (db : RdbDb rio.lzf) : List UInt8 :=
  if db.dict = [] then []
  else
    RDB_OPCODE_SELECTDB :: (rdbSaveLen j ++ (RDB_OPCODE_RESIZEDB ::
      (rdbSaveLen db.dict.length ++
        (rdbSaveLen (db.dict.countP fun e => (db.expires e.key).isSome) ++
          db.dict.flatMap fun e => rdbSaveKeyValuePair rio cfg e (db.getExpire e.key)))))

def saveDbs : Nat -> List (RdbDb rio.lzf) -> List UInt8
  | _, [] => []
  | j, db :: dbs => saveDb rio cfg j db ++ saveDbs (j + 1) dbs

/-- `REDIS0009`. -/
def magic : List UInt8 :=
  [82, 69, 68, 73, 83, 48, 48, 48, 57]

def saveBody (ds : RdbDataset rio.lzf) : List UInt8 :=
  magic ++ (cfg.info.flatMap (rdbSaveAuxField rio cfg) ++ (saveDbs rio cfg 0 ds.dbs ++
    (cfg.lua.flatMap (rdbSaveAuxField rio cfg) ++ [RDB_OPCODE_EOF])))

def rdbSaveRio (ds : RdbDataset rio.lzf) : List UInt8 :=
  saveBody rio cfg ds ++
    le 8 (if cfg.rdbChecksum then (rio.crc64 (saveBody rio cfg ds)).toNat else 0)

end Save

/-!
# Loading
-/

structure LoadConfig where
  dbnum : Nat
  iAmMaster : Bool
  /-- `RDBFLAGS_AOF_PREAMBLE` -/
  aofPreamble : Bool
  /-- `RDBFLAGS_ALLOW_DUP` -/
  allowDup : Bool
  rdbChecksum : Bool
  now : Int
  hashLimits : HashLimits

structure LoadedObject where
  val : RdbObject
  lfuFreq : Int
  lruIdle : Int

@[ext]
structure LoadedDb where
  dict : Sds -> Option LoadedObject
  expires : Sds -> Option Int

def LoadedDb.empty : LoadedDb :=
  { dict := fun _ => none, expires := fun _ => none }

structure RdbLoader where
  dbid : Nat
  expiretime : Int
  lfuFreq : Int
  lruIdle : Int
  dbs : Nat -> LoadedDb

section Load

variable (rio : Rio) (cfg : LoadConfig)

def isExpired (expiretime : Int) : Bool :=
  cfg.iAmMaster && !cfg.aofPreamble && expiretime != -1 && decide (expiretime < cfg.now)

def LoadedDb.add (db : LoadedDb) (key : Sds) (o : LoadedObject) (expiretime : Int) :
    LoadedDb where
  dict := fun k => if k = key then some o else db.dict k
  expires := fun k => if k = key ∧ expiretime ≠ -1 then some expiretime else db.expires k

def LoadedDb.delete (db : LoadedDb) (key : Sds) : LoadedDb where
  dict := fun k => if k = key then none else db.dict k
  expires := fun k => if k = key then none else db.expires k

def RdbLoader.setDb (st : RdbLoader) (db : LoadedDb) : RdbLoader :=
  { st with dbs := fun j => if j = st.dbid then db else st.dbs j }

def RdbLoader.addKey (st : RdbLoader) (key : Sds) (val : RdbObject) : Except RdbError RdbLoader :=
  let db := st.dbs st.dbid
  let o : LoadedObject := { val, lfuFreq := st.lfuFreq, lruIdle := st.lruIdle }
  if isExpired cfg st.expiretime then .ok st
  else if (db.dict key).isSome then
    if cfg.allowDup then .ok (st.setDb ((db.delete key).add key o st.expiretime))
    else .error .duplicatedKey
  else .ok (st.setDb (db.add key o st.expiretime))

def RdbLoader.reset (st : RdbLoader) : RdbLoader :=
  { st with expiretime := -1, lfuFreq := -1, lruIdle := -1 }

def loadKeyValue (type : UInt8) (st : RdbLoader) : Reader RdbLoader := fun p => do
  let (key, p) ← rdbGenericLoadStringObject rio.lzf p
  let (val, p) ← rdbLoadObject rio.lzf cfg.hashLimits type p
  let st ← st.addKey cfg key val
  .ok (st.reset, p)

def loadOpcode (type : UInt8) (st : RdbLoader) : Reader RdbLoader := fun p =>
  if type = RDB_OPCODE_EXPIRETIME then do
    let (t, p) ← readInt 4 p
    .ok ({ st with expiretime := t * 1000 }, p)
  else if type = RDB_OPCODE_EXPIRETIME_MS then do
    let (t, p) ← readInt 8 p
    .ok ({ st with expiretime := t }, p)
  else if type = RDB_OPCODE_FREQ then do
    let (byte, p) ← rioRead 1 p
    .ok ({ st with lfuFreq := (byte.headD 0).toNat }, p)
  else if type = RDB_OPCODE_IDLE then do
    let (qword, p) ← rdbLoadLen p
    .ok ({ st with lruIdle := Int.bmod qword (2 ^ 64) }, p)
  else if type = RDB_OPCODE_SELECTDB then do
    let (dbid, p) ← rdbLoadLen p
    if dbid ≥ cfg.dbnum then .error .tooManyDatabases else .ok ({ st with dbid }, p)
  else if type = RDB_OPCODE_RESIZEDB then do
    -- only a hint for the size of the hash tables
    let (_, p) ← rdbLoadLen p
    let (_, p) ← rdbLoadLen p
    .ok (st, p)
  else if type = RDB_OPCODE_AUX then do
    -- no field concerns the keyspace
    let (_, p) ← rdbGenericLoadStringObject rio.lzf p
    let (_, p) ← rdbGenericLoadStringObject rio.lzf p
    .ok (st, p)
  else if type = RDB_OPCODE_MODULE_AUX then .error .module
  else loadKeyValue rio cfg type st p

def loadLoop : Nat -> RdbLoader -> List UInt8 -> Except RdbError (RdbLoader × List UInt8)
  | 0, _, _ => .error .fuel
  | _ + 1, _, [] => .error .shortRead
  | fuel + 1, st, type :: p =>
    if type = RDB_OPCODE_EOF then .ok (st, p)
    else
      match loadOpcode rio cfg type st p with
      | .error e => .error e
      | .ok (st, p) => loadLoop fuel st p

def RdbLoader.start : RdbLoader :=
  { dbid := 0, expiretime := -1, lfuFreq := -1, lruIdle := -1, dbs := fun _ => LoadedDb.empty }

def rdbLoadRio (file : List UInt8) : Except RdbError (Nat -> LoadedDb) := do
  let (buf, p) ← rioRead 9 file
  if buf.take 5 ≠ magic.take 5 then .error .wrongSignature
  else
    let rdbver := strtol (buf.drop 5)
    if rdbver < 1 ∨ rdbver > RDB_VERSION then .error .wrongVersion
    else do
      let (st, p) ← loadLoop rio cfg (p.length + 1) RdbLoader.start p
      if rdbver ≥ 5 then do
        let expected := rio.crc64 (file.take (file.length - p.length))
        let (buf, _) ← rioRead 8 p
        let cksum := ofLe buf
        if cfg.rdbChecksum ∧ cksum ≠ 0 ∧ cksum ≠ expected.toNat then
          .error (.corrupt "RDB CRC error")
        else .ok st.dbs
      else .ok st.dbs

end Load

end Rdb

end Redisoo
