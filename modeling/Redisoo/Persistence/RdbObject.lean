import Redisoo.Persistence.RdbString

/-!
# Values in an RDB file

`rdbSaveObject` writes an object in the encoding it has, and `rdbLoadObject` reads it back.
Ziplists, intsets and listpacks are saved as the bytes they are.  The loader adds what it
reads to an object whose encoding it chooses anew; a loaded value is what that object holds.
There are no modules.
-/

namespace Redisoo

open Foundation.Bytes List

namespace Rdb

/-!
# Loops of reads
-/

section Readers

variable {α β κ : Type} {read : Reader α} {bytes : List UInt8} {a : α}

def andThen (read : Reader α) (next : α -> Reader β) : Reader β := fun p =>
  match read p with
  | .error e => .error e
  | .ok (a, p) => next a p

def done (a : α) : Reader α := fun p => .ok (a, p)

def corrupt (text : String) : Reader α := fun _ => .error (.corrupt text)

/-- A loop that adds what it reads to a container, which may refuse it. -/
def readInto (read : Reader α) (refuse : List α -> α -> Option String) :
    Nat -> List α -> Reader (List α)
  | 0, found => done found
  | n + 1, found => andThen read fun a =>
    match refuse found a with
    | some text => corrupt text
    | none => readInto read refuse n (found ++ [a])

def readCounted (read : Reader α) (refuse : List α -> α -> Option String) : Reader (List α) :=
  andThen rdbLoadLen fun n => readInto read refuse n []

def saveCounted (save : α -> List UInt8) (as : List α) : List UInt8 :=
  rdbSaveLen as.length ++ as.flatMap save

def anything (_ : List α) (_ : α) : Option String := none

def fresh [DecidableEq κ] (key : α -> κ) (text : String) (found : List α) (a : α) :
    Option String :=
  if key a ∈ found.map key then some text else none

theorem ReadsBack.andThen {next : α -> Reader β} {bytes' : List UInt8} {b : β}
    (h : ReadsBack read bytes a) (h' : ReadsBack (next a) bytes' b) :
    ReadsBack (andThen read next) (bytes ++ bytes') b := by
  intro rest
  unfold Rdb.andThen
  rw [append_assoc, h]
  exact h' rest

theorem ReadsBack.last {b : β} {f : α -> β} (h : ReadsBack read bytes a) (hb : f a = b) :
    ReadsBack (Rdb.andThen read fun a => done (f a)) bytes b := by
  intro rest
  unfold Rdb.andThen
  rw [h]
  exact congrArg (fun b => Except.ok (b, rest)) hb

def Accepts (refuse : List α -> α -> Option String) : List α -> List α -> Prop
  | _, [] => True
  | found, a :: as => refuse found a = none ∧ Accepts refuse (found ++ [a]) as

theorem accepts_anything (found as : List α) : Accepts anything found as := by
  induction as generalizing found with
  | nil => trivial
  | cons a as ih => exact ⟨rfl, ih _⟩

theorem accepts_of_nodup {refuse : List α -> α -> Option String} (key : α -> κ)
    {found as : List α} (hnodup : ((found ++ as).map key).Nodup)
    (hrefuse : forall found a, a ∈ as -> ((found ++ [a]).map key).Nodup -> refuse found a = none) :
    Accepts refuse found as := by
  induction as generalizing found with
  | nil => trivial
  | cons a as ih =>
    rw [append_cons] at hnodup
    have hprefix : ((found ++ [a]).map key).Nodup := by
      rw [map_append] at hnodup
      exact hnodup.sublist (sublist_append_left _ _)
    exact ⟨hrefuse found a mem_cons_self hprefix,
      ih hnodup fun found b hb => hrefuse found b (mem_cons_of_mem a hb)⟩

theorem fresh_eq_none [DecidableEq κ] {key : α -> κ} {text : String} {found : List α}
    (hnodup : ((found ++ [a]).map key).Nodup) : fresh key text found a = none := by
  rw [map_append, nodup_append] at hnodup
  exact if_neg fun hin => hnodup.right.right _ hin (key a) (by simp) rfl

theorem accepts_fresh [DecidableEq κ] {key : α -> κ} {text : String} {as : List α}
    (hnodup : (as.map key).Nodup) : Accepts (fresh key text) [] as :=
  accepts_of_nodup key hnodup fun _ _ _ h => fresh_eq_none h

variable {σ : Type} {save : σ -> List UInt8} {val : σ -> α}
  {refuse : List α -> α -> Option String} {xs : List σ}

theorem readInto_save {found : List α}
    (hread : forall x, x ∈ xs -> ReadsBack read (save x) (val x))
    (haccepts : Accepts refuse found (xs.map val)) :
    ReadsBack (readInto read refuse xs.length found) (xs.flatMap save) (found ++ xs.map val) := by
  induction xs generalizing found with
  | nil =>
    rw [map_nil, append_nil]
    exact fun _ => rfl
  | cons x xs ih =>
    rw [map_cons] at haccepts ⊢
    rw [append_cons]
    apply (hread x mem_cons_self).andThen
    rw [haccepts.left]
    exact ih (fun y hy => hread y (mem_cons_of_mem x hy)) haccepts.right

theorem readCounted_save (hlen : xs.length < 2 ^ 63)
    (hread : forall x, x ∈ xs -> ReadsBack read (save x) (val x))
    (haccepts : Accepts refuse [] (xs.map val)) :
    ReadsBack (readCounted read refuse) (saveCounted save xs) (xs.map val) :=
  (rdbLoadLen_save (by unfold RDB_LENERR; lia)).andThen (readInto_save hread haccepts)

variable {save : α -> List UInt8} {as : List α}

theorem readInto_self (hread : forall a, a ∈ as -> ReadsBack read (save a) a)
    (haccepts : Accepts refuse [] as) :
    ReadsBack (readInto read refuse as.length []) (as.flatMap save) as := by
  have h : ReadsBack (readInto read refuse as.length []) (as.flatMap save) ([] ++ as.map id) :=
    readInto_save hread (by rw [map_id]; exact haccepts)
  rw [map_id, nil_append] at h
  exact h

theorem readCounted_self (hlen : as.length < 2 ^ 63)
    (hread : forall a, a ∈ as -> ReadsBack read (save a) a) (haccepts : Accepts refuse [] as) :
    ReadsBack (readCounted read refuse) (saveCounted save as) as :=
  (rdbLoadLen_save (by unfold RDB_LENERR; lia)).andThen (readInto_self hread haccepts)

def readInt (k : Nat) : Reader Int := fun p =>
  match readLeInt k p with
  | none => .error .shortRead
  | some t => .ok (t, p.drop k)

theorem readInt_save {k : Nat} {t : Int} (h : SignedIn k t) :
    ReadsBack (readInt k) (leInt k t) t := by
  intro rest
  unfold readInt
  rw [readLeInt_leInt h, drop_left' (leInt_length k t)]

/-- `rdbLoadLen` whose result is taken whatever it is. -/
def rdbLoadAnyLen : Reader Nat :=
  andThen rdbLoadLenByRef fun len => done len.2

theorem rdbLoadAnyLen_save {len : Nat} (h : len < 2 ^ 64) :
    ReadsBack rdbLoadAnyLen (rdbSaveLen len) len :=
  (rdbLoadLenByRef_save h).last rfl

end Readers

/-!
# Objects
-/

structure RdbNode where
  zl : Sds
  compressed : Option (List UInt8)

structure RdbNack where
  rawid : List UInt8
  deliveryTime : Int
  deliveryCount : Nat

/-- A consumer; the ids of its entries refer to those of the group. -/
structure RdbConsumer where
  name : Sds
  seenTime : Int
  pel : List (List UInt8)

structure RdbGroup where
  name : Sds
  ms : Nat
  seq : Nat
  pel : List RdbNack
  consumers : List RdbConsumer

structure RdbStream where
  /-- the keys of the radix tree with their listpacks -/
  rax : List (Sds × Sds)
  length : Nat
  ms : Nat
  seq : Nat
  cgroups : List RdbGroup

/-- An object in its encoding; the scores of a skip list are the bytes of doubles. -/
inductive RdbObject where
  | string (s : Sds)
  | int (v : Int)
  | list (nodes : List RdbNode)
  | set (members : List Sds)
  | intset (blob : Sds)
  | zset (pairs : List (Sds × List UInt8))
  | zsetZiplist (blob : Sds)
  | hash (pairs : List (Sds × Sds))
  | hashZiplist (blob : Sds)
  | stream (s : RdbStream)

/-- The contents, whatever the encoding of a string and the compression of a list. -/
def RdbObject.value : RdbObject -> RdbObject
  | .int v => .string (Util.ll2string v)
  | .list nodes => .list (nodes.map fun node => ⟨node.zl, none⟩)
  | o => o

/-!
# Saving
-/

section Save

variable (lzf : Lzf) (rdbCompression : Bool)

def saveNode (node : RdbNode) : List UInt8 :=
  match node.compressed with
  | some data => rdbSaveLzfBlob data node.zl.length
  | none => rdbSaveRawString lzf rdbCompression node.zl

def savePair (p : Sds × Sds) : List UInt8 :=
  rdbSaveRawString lzf rdbCompression p.1 ++ rdbSaveRawString lzf rdbCompression p.2

def saveNack (nack : RdbNack) : List UInt8 :=
  nack.rawid ++ (leInt 8 nack.deliveryTime ++ rdbSaveLen nack.deliveryCount)

def saveConsumer (c : RdbConsumer) : List UInt8 :=
  rdbSaveRawString lzf rdbCompression c.name ++ (leInt 8 c.seenTime ++ saveCounted id c.pel)

def saveGroup (cg : RdbGroup) : List UInt8 :=
  rdbSaveRawString lzf rdbCompression cg.name ++ (rdbSaveLen cg.ms ++ (rdbSaveLen cg.seq ++
    (saveCounted saveNack cg.pel ++ saveCounted (saveConsumer lzf rdbCompression) cg.consumers)))

def saveStream (s : RdbStream) : List UInt8 :=
  saveCounted (savePair lzf rdbCompression) s.rax ++ (rdbSaveLen s.length ++ (rdbSaveLen s.ms ++
    (rdbSaveLen s.seq ++ saveCounted (saveGroup lzf rdbCompression) s.cgroups)))

def rdbSaveObject : RdbObject -> List UInt8
  | .string s => rdbSaveRawString lzf rdbCompression s
  | .int v => rdbSaveLongLongAsStringObject v
  | .list nodes => saveCounted (saveNode lzf rdbCompression) nodes
  | .set members => saveCounted (rdbSaveRawString lzf rdbCompression) members
  | .intset blob | .zsetZiplist blob | .hashZiplist blob => rdbSaveRawString lzf rdbCompression blob
  | .zset pairs =>
    -- from the tail of the skip list
    saveCounted (fun p => rdbSaveRawString lzf rdbCompression p.1 ++ p.2) pairs.reverse
  | .hash pairs => saveCounted (savePair lzf rdbCompression) pairs
  | .stream s => saveStream lzf rdbCompression s

end Save

def rdbSaveObjectType : RdbObject -> UInt8
  | .string _ | .int _ => 0
  | .list _ => 14
  | .set _ => 2
  | .intset _ => 11
  | .zset _ => 5
  | .zsetZiplist _ => 12
  | .hash _ => 4
  | .hashZiplist _ => 13
  | .stream _ => 15

/-!
# Loading
-/

/-- `hash_max_ziplist_entries` and `hash_max_ziplist_value`. -/
structure HashLimits where
  entries : Nat
  value : Nat

section Load

variable (lzf : Lzf) (limits : HashLimits)

def str : Reader Sds := rdbGenericLoadStringObject lzf

def readPair : Reader (Sds × Sds) :=
  andThen (str lzf) fun a => andThen (str lzf) fun b => done (a, b)

/-- A table finds a field that it has, and so does the conversion of a ziplist to one. -/
def refuseField (len : Nat) (found : List (Sds × Sds)) (p : Sds × Sds) : Option String :=
  let pairs := found ++ [p]
  let table := decide (len > limits.entries) ||
    pairs.any fun p => p.1.length > limits.value || p.2.length > limits.value
  if table && !decide ((pairs.map Prod.fst).Nodup) then some "Duplicate keys detected" else none

def readSet : Reader (List Sds) :=
  andThen rdbLoadLen fun len =>
    -- an `unsigned int` counts to `len`: the loop goes on to the end of the file
    if len < 2 ^ 32 then readInto (str lzf) anything len [] else fun _ => .error .shortRead

def readNode : Reader (Sds × Sds) :=
  andThen (str lzf) fun key =>
    if key.length ≠ 16 then corrupt "Stream node key entry is not the size of a stream ID"
    else andThen (str lzf) fun lp =>
      if lp.getD 6 255 = 255 then corrupt "Empty listpack inside stream" else done (key, lp)

def readNack : Reader RdbNack :=
  andThen (rioRead 16) fun rawid => andThen (readInt 8) fun time =>
    andThen rdbLoadAnyLen fun count => done ⟨rawid, time, count⟩

def refuseId (pel : List RdbNack) (found : List (List UInt8)) (rawid : List UInt8) :
    Option String :=
  if pel.all fun nack => nack.rawid != rawid then
    some "Consumer entry not found in group global PEL"
  else fresh id "Duplicated consumer PEL entry  loading a stream consumer group" found rawid

def readConsumer (pel : List RdbNack) : Reader RdbConsumer :=
  andThen (str lzf) fun name => andThen (readInt 8) fun seen =>
    andThen (readCounted (rioRead 16) (refuseId pel)) fun ids => done ⟨name, seen, ids⟩

def readGroup : Reader RdbGroup :=
  andThen (str lzf) fun name => andThen rdbLoadAnyLen fun ms => andThen rdbLoadAnyLen fun seq =>
    andThen (readCounted readNack
      (fresh RdbNack.rawid "Duplicated gobal PEL entry loading stream consumer group")) fun pel =>
    andThen (readCounted (readConsumer lzf pel) anything) fun consumers =>
      done ⟨name, ms, seq, pel, consumers⟩

def readStream : Reader RdbStream :=
  andThen (readCounted (readNode lzf) (fresh Prod.fst "Listpack re-added with existing key"))
    fun rax => andThen rdbLoadAnyLen fun length => andThen rdbLoadAnyLen fun ms =>
    andThen rdbLoadAnyLen fun seq =>
    andThen (readCounted (readGroup lzf) (fresh RdbGroup.name "Duplicated consumer group name"))
      fun cgroups => done ⟨rax, length, ms, seq, cgroups⟩

def rdbLoadObject (rdbtype : UInt8) : Reader RdbObject :=
  match rdbtype.toNat with
  | 0 => andThen (str lzf) fun s => done (.string s)
  | 2 => andThen (readSet lzf) fun members => done (.set members)
  | 4 => andThen rdbLoadLen fun len =>
      andThen (readInto (readPair lzf) (refuseField limits len) len [])
        fun pairs => done (.hash pairs)
  | 5 =>
    -- each element is smaller than those before it
    andThen (readCounted (andThen (str lzf) fun e => andThen (rioRead 8) fun d => done (e, d))
      anything) fun pairs => done (.zset pairs.reverse)
  | 11 => andThen (str lzf) fun blob => done (.intset blob)
  | 12 => andThen (str lzf) fun blob => done (.zsetZiplist blob)
  | 13 => andThen (str lzf) fun blob => done (.hashZiplist blob)
  | 14 => andThen (readCounted (andThen (str lzf) fun zl => done ⟨zl, none⟩) anything)
      fun nodes => done (.list nodes)
  | 15 => andThen (readStream lzf) fun s => done (.stream s)
  | _ => fun _ => .error .module

end Load

/-!
# Round trips

An object fits if its strings are shorter than `2 ^ 32` bytes, its numbers are those of the
machine, and its keys are different.
-/

structure RdbNode.Fits (lzf : Lzf) (node : RdbNode) : Prop where
  short : node.zl.length < 2 ^ 32
  packed : forall data, node.compressed = some data ->
    exists room, room < 2 ^ 32 ∧ lzf.compress node.zl room = some data

structure RdbNack.Fits (nack : RdbNack) : Prop where
  rawid : nack.rawid.length = 16
  time : SignedIn 8 nack.deliveryTime
  count : nack.deliveryCount < 2 ^ 64

structure RdbConsumer.Fits (pel : List RdbNack) (c : RdbConsumer) : Prop where
  name : c.name.length < 2 ^ 32
  seen : SignedIn 8 c.seenTime
  size : c.pel.length < 2 ^ 63
  nodup : c.pel.Nodup
  pending : forall rawid, rawid ∈ c.pel -> rawid ∈ pel.map RdbNack.rawid

structure RdbGroup.Fits (cg : RdbGroup) : Prop where
  name : cg.name.length < 2 ^ 32
  ms : cg.ms < 2 ^ 64
  seq : cg.seq < 2 ^ 64
  pelSize : cg.pel.length < 2 ^ 63
  nodup : (cg.pel.map RdbNack.rawid).Nodup
  pel : forall nack, nack ∈ cg.pel -> nack.Fits
  size : cg.consumers.length < 2 ^ 63
  consumers : forall c, c ∈ cg.consumers -> c.Fits cg.pel

structure RdbStream.Fits (s : RdbStream) : Prop where
  raxSize : s.rax.length < 2 ^ 63
  nodup : (s.rax.map Prod.fst).Nodup
  /-- the listpack of a node is not empty -/
  rax : forall node, node ∈ s.rax ->
    node.1.length = 16 ∧ node.2.length < 2 ^ 32 ∧ node.2.getD 6 255 ≠ 255
  length : s.length < 2 ^ 64
  ms : s.ms < 2 ^ 64
  seq : s.seq < 2 ^ 64
  size : s.cgroups.length < 2 ^ 63
  names : (s.cgroups.map RdbGroup.name).Nodup
  cgroups : forall cg, cg ∈ s.cgroups -> cg.Fits

def RdbObject.Fits (lzf : Lzf) : RdbObject -> Prop
  | .string s | .intset s | .zsetZiplist s | .hashZiplist s => s.length < 2 ^ 32
  | .int v => SignedIn 8 v
  | .list nodes => nodes.length < 2 ^ 63 ∧ forall node, node ∈ nodes -> node.Fits lzf
  | .set members => members.length < 2 ^ 32 ∧ forall s, s ∈ members -> s.length < 2 ^ 32
  | .zset pairs => pairs.length < 2 ^ 63 ∧
    forall p, p ∈ pairs -> p.1.length < 2 ^ 32 ∧ p.2.length = 8
  | .hash pairs => pairs.length < 2 ^ 63 ∧ (pairs.map Prod.fst).Nodup ∧
    forall p, p ∈ pairs -> p.1.length < 2 ^ 32 ∧ p.2.length < 2 ^ 32
  | .stream s => s.Fits

section RoundTrip

variable {lzf : Lzf} {limits : HashLimits} {rdbCompression : Bool}

theorem str_save {s : Sds} (h : s.length < 2 ^ 32) :
    ReadsBack (str lzf) (rdbSaveRawString lzf rdbCompression s) s :=
  rdbSaveRawString_load lzf rdbCompression h

theorem rioRead_save {s : List UInt8} {n : Nat} (h : s.length = n) : ReadsBack (rioRead n) s s :=
  h ▸ rioRead_append s

theorem readPair_save {p : Sds × Sds} (h : p.1.length < 2 ^ 32 ∧ p.2.length < 2 ^ 32) :
    ReadsBack (readPair lzf) (savePair lzf rdbCompression p) p :=
  (str_save h.left).andThen ((str_save h.right).last rfl)

theorem saveNode_load {node : RdbNode} (h : node.Fits lzf) :
    ReadsBack (str lzf) (saveNode lzf rdbCompression node) node.zl := by
  unfold saveNode
  split
  · rename_i data hdata
    rcases h.packed data hdata with ⟨room, hroom, hcompress⟩
    exact rdbSaveLzfBlob_load h.short hroom hcompress
  · exact str_save h.short

theorem readNode_save {node : Sds × Sds}
    (h : node.1.length = 16 ∧ node.2.length < 2 ^ 32 ∧ node.2.getD 6 255 ≠ 255) :
    ReadsBack (readNode lzf) (savePair lzf rdbCompression node) node := by
  rcases h with ⟨hkey, hlp, hfirst⟩
  apply (str_save (by lia)).andThen
  rw [if_neg (not_not.mpr hkey)]
  intro rest
  unfold andThen
  rw [str_save hlp]
  dsimp only
  rw [if_neg hfirst]
  rfl

theorem readNack_save {nack : RdbNack} (h : nack.Fits) :
    ReadsBack readNack (saveNack nack) nack :=
  (rioRead_save h.rawid).andThen ((readInt_save h.time).andThen
    ((rdbLoadAnyLen_save h.count).last rfl))

theorem readConsumer_save {pel : List RdbNack} (hpel : forall nack, nack ∈ pel -> nack.Fits)
    {c : RdbConsumer} (h : c.Fits pel) :
    ReadsBack (readConsumer lzf pel) (saveConsumer lzf rdbCompression c) c := by
  have haccepts : Accepts (refuseId pel) [] c.pel := by
    apply accepts_of_nodup id (by rw [map_id]; exact h.nodup)
    intro found rawid hin hnodup
    unfold refuseId
    rcases mem_map.mp (h.pending rawid hin) with ⟨nack, hnack, rfl⟩
    rw [if_neg]
    · exact fresh_eq_none hnodup
    · intro hall
      exact bne_iff_ne.mp (all_eq_true.mp hall nack hnack) rfl
  have hread : forall rawid, rawid ∈ c.pel -> ReadsBack (rioRead 16) (id rawid) rawid := by
    intro rawid hin
    rcases mem_map.mp (h.pending rawid hin) with ⟨nack, hnack, rfl⟩
    exact rioRead_save (hpel nack hnack).rawid
  apply (str_save h.name).andThen
  apply (readInt_save h.seen).andThen
  exact (readCounted_self h.size hread haccepts).last rfl

theorem readGroup_save {cg : RdbGroup} (h : cg.Fits) :
    ReadsBack (readGroup lzf) (saveGroup lzf rdbCompression cg) cg := by
  apply (str_save h.name).andThen
  apply (rdbLoadAnyLen_save h.ms).andThen
  apply (rdbLoadAnyLen_save h.seq).andThen
  apply (readCounted_self h.pelSize (fun nack hin => readNack_save (h.pel nack hin))
    (accepts_fresh h.nodup)).andThen
  exact (readCounted_self h.size (fun c hin => readConsumer_save h.pel (h.consumers c hin))
    (accepts_anything _ _)).last rfl

theorem readStream_save {s : RdbStream} (h : s.Fits) :
    ReadsBack (readStream lzf) (saveStream lzf rdbCompression s) s := by
  apply (readCounted_self h.raxSize (fun node hin => readNode_save (h.rax node hin))
    (accepts_fresh h.nodup)).andThen
  apply (rdbLoadAnyLen_save h.length).andThen
  apply (rdbLoadAnyLen_save h.ms).andThen
  apply (rdbLoadAnyLen_save h.seq).andThen
  exact (readCounted_self h.size (fun cg hin => readGroup_save (h.cgroups cg hin))
    (accepts_fresh h.names)).last rfl

/-- What is read of an object is its value, whatever encodings it had. -/
theorem rdbLoadObject_save {o : RdbObject} (h : o.Fits lzf) :
    ReadsBack (rdbLoadObject lzf limits (rdbSaveObjectType o)) (rdbSaveObject lzf rdbCompression o)
      o.value := by
  cases o with
  | string s | intset s | zsetZiplist s | hashZiplist s => exact (str_save h).last rfl
  | int v => exact (rdbSaveLongLongAsStringObject_load lzf h).last rfl
  | list nodes =>
    exact (readCounted_save h.left (fun node hin => (saveNode_load (h.right node hin)).last rfl)
      (accepts_anything _ _)).last rfl
  | set members =>
    have hset : ReadsBack (readSet lzf)
        (saveCounted (rdbSaveRawString lzf rdbCompression) members) members := by
      have hlen := h.left
      apply (rdbLoadLen_save (by unfold RDB_LENERR; lia)).andThen
      rw [if_pos hlen]
      exact readInto_self (fun s hin => str_save (h.right s hin)) (accepts_anything _ _)
    exact hset.last rfl
  | zset pairs =>
    have hpair : forall p, p ∈ pairs.reverse ->
        ReadsBack (andThen (str lzf) fun e => andThen (rioRead 8) fun d => done (e, d))
          (rdbSaveRawString lzf rdbCompression p.1 ++ p.2) p := by
      intro p hin
      have hp := h.right p (mem_reverse.mp hin)
      exact (str_save hp.left).andThen ((rioRead_save hp.right).last rfl)
    exact (readCounted_self (by rw [length_reverse]; exact h.left) hpair
      (accepts_anything _ _)).last (congrArg RdbObject.zset (reverse_reverse pairs))
  | hash pairs =>
    rcases h with ⟨hlen, hnodup, hpairs⟩
    have haccepts : Accepts (refuseField limits pairs.length) [] pairs := by
      apply accepts_of_nodup Prod.fst hnodup
      intro found p _ hnodup
      unfold refuseField
      dsimp only
      rw [decide_eq_true hnodup, Bool.not_true, Bool.and_false]
      rfl
    apply (rdbLoadLen_save (by unfold RDB_LENERR; lia)).andThen
    exact (readInto_self (fun p hin => readPair_save (hpairs p hin)) haccepts).last rfl
  | stream s => exact (readStream_save h).last rfl

end RoundTrip

end Rdb
end Redisoo
