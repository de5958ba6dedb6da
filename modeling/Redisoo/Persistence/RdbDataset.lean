import Redisoo.Foundation.Fill
import Redisoo.Persistence.Rdb

/-!
# The dataset in an RDB file

The loader follows the records of the writer: the records of a key are applied to this
key, and afterwards the loader has no attributes left.  So a file holds each database as
it was saved, but for an expire time of -1, which the writer takes for none.
-/

namespace Redisoo

open Foundation Foundation.Bytes Foundation.Stdio List

namespace Rdb

section Load

variable (rio : Rio) (cfg : LoadConfig)

def Takes (bytes : List UInt8) (st st' : RdbLoader) : Prop :=
  forall fuel rest, exists more,
    loadLoop rio cfg (fuel + bytes.length) st (bytes ++ rest) =
      loadLoop rio cfg (fuel + more) st' rest

variable {rio cfg}

theorem Takes.nil (st : RdbLoader) : Takes rio cfg [] st st :=
  fun _ _ => ⟨0, rfl⟩

variable {st : RdbLoader} {lzf : Lzf} {es : List (RdbEntry lzf)} {j : Nat} (scfg : SaveConfig)

theorem Takes.append {xs ys : List UInt8} {st' st'' : RdbLoader}
    (h : Takes rio cfg xs st st') (h' : Takes rio cfg ys st' st'') :
    Takes rio cfg (xs ++ ys) st st'' := by
  intro fuel rest
  rcases h (fuel + ys.length) (ys ++ rest) with ⟨more, hxs⟩
  rcases h' (fuel + more) rest with ⟨more', hys⟩
  refine ⟨more + more', ?_⟩
  have hfuel : fuel + (xs ++ ys).length = fuel + ys.length + xs.length := by
    rw [length_append]
    lia
  have hfuel' : fuel + ys.length + more = fuel + more + ys.length := by lia
  rw [hfuel, append_assoc, hxs, hfuel', hys, Nat.add_assoc]

theorem Takes.opcode {type : UInt8} {bytes : List UInt8} {st' : RdbLoader}
    (hne : type ≠ RDB_OPCODE_EOF) (h : ReadsBack (loadOpcode rio cfg type st) bytes st') :
    Takes rio cfg (type :: bytes) st st' := by
  intro fuel rest
  refine ⟨bytes.length, ?_⟩
  rw [length_cons, ← Nat.add_assoc, cons_append, loadLoop, if_neg hne, h rest]

/-!
# Attributes
-/

theorem takes_expire {t : Int} (ht : SignedIn 8 t) (hst : st.expiretime = -1) :
    Takes rio cfg (saveExpire t) st { st with expiretime := t } := by
  unfold saveExpire
  by_cases hne : t ≠ -1
  · rw [if_pos hne]
    apply Takes.opcode (by decide)
    intro rest
    have hread : readInt 8 (leInt 8 t ++ rest) = .ok (t, rest) := by
      unfold readInt
      rw [readLeInt_leInt ht, drop_left' (leInt_length 8 t)]
    unfold loadOpcode
    rw [if_neg (by decide), if_pos rfl]
    simp only [bind, Except.bind, hread]
  · rw [if_neg hne, not_not.mp hne, ← hst]
    exact Takes.nil st

def savedIdle (scfg : SaveConfig) (idletime : UInt64) : Int :=
  if scfg.savelru then (idletime.toNat / 1000 : Nat) else -1

def savedFreq (scfg : SaveConfig) (freq : UInt8) : Int :=
  if scfg.savelfu then freq.toNat else -1

theorem takes_idle (idletime : UInt64) (hst : st.lruIdle = -1) :
    Takes rio cfg (saveIdle scfg idletime) st
      { st with lruIdle := savedIdle scfg idletime } := by
  unfold saveIdle savedIdle
  by_cases hlru : scfg.savelru = true
  · rw [if_pos hlru, if_pos hlru]
    apply Takes.opcode (by decide)
    intro rest
    have hlt : idletime.toNat < 2 ^ 64 := idletime.toNat_lt
    have hread : rdbLoadLen (rdbSaveLen (idletime.toNat / 1000) ++ rest) =
        .ok (idletime.toNat / 1000, rest) :=
      rdbLoadLen_save (by unfold RDB_LENERR; lia) rest
    have hcast : Int.bmod ((idletime.toNat / 1000 : Nat) : Int) (2 ^ 64) =
        (idletime.toNat / 1000 : Nat) :=
      Int.bmod_eq_of_le (by lia) (by lia)
    unfold loadOpcode
    iterate 3 rw [if_neg (by decide)]
    rw [if_pos rfl]
    simp only [bind, Except.bind, hread, hcast]
  · rw [if_neg hlru, if_neg hlru, ← hst]
    exact Takes.nil st

theorem takes_freq (freq : UInt8) (hst : st.lfuFreq = -1) :
    Takes rio cfg (saveFreq scfg freq) st { st with lfuFreq := savedFreq scfg freq } := by
  unfold saveFreq savedFreq
  by_cases hlfu : scfg.savelfu = true
  · rw [if_pos hlfu, if_pos hlfu]
    apply Takes.opcode (by decide)
    intro rest
    have hread : rioRead 1 ([freq] ++ rest) = .ok ([freq], rest) := rioRead_append [freq] rest
    unfold loadOpcode
    rw [if_neg (by decide), if_neg (by decide), if_pos rfl]
    simp only [bind, Except.bind, hread, headD_cons]
  · rw [if_neg hlfu, if_neg hlfu, ← hst]
    exact Takes.nil st

theorem rdbSaveObjectType_lt (o : RdbObject) : (rdbSaveObjectType o).toNat < 247 := by
  cases o <;> exact Nat.lt_of_sub_eq_succ rfl

theorem loadOpcode_type (rio : Rio) (cfg : LoadConfig) {type : UInt8}
    (h : type.toNat < 247) (st : RdbLoader) :
    type ≠ RDB_OPCODE_EOF ∧
      loadOpcode rio cfg type st = loadKeyValue rio cfg type st := by
  have hne : forall op : UInt8, 247 ≤ op.toNat -> type ≠ op := by
    rintro op hop rfl
    lia
  refine ⟨hne _ (by decide), ?_⟩
  funext p
  unfold loadOpcode
  iterate 8 rw [if_neg (hne _ (by decide))]

structure Clear (st : RdbLoader) : Prop where
  expiretime : st.expiretime = -1
  lfuFreq : st.lfuFreq = -1
  lruIdle : st.lruIdle = -1

theorem Clear.reset (h : Clear st) : st.reset = st := by
  rcases st with ⟨dbid, expiretime, lfuFreq, lruIdle, dbs⟩
  rcases h with ⟨rfl, rfl, rfl⟩
  rfl

theorem Clear.setDb (h : Clear st) (db : LoadedDb) : Clear (st.setDb db) :=
  ⟨h.expiretime, h.lfuFreq, h.lruIdle⟩

theorem setDb_same (st : RdbLoader) : st.setDb (st.dbs st.dbid) = st := by
  unfold RdbLoader.setDb
  congr 1
  funext j
  split
  · rename_i hj
    rw [hj]
  · rfl

def loadedObject (scfg : SaveConfig) (e : RdbEntry lzf) : LoadedObject :=
  { val := e.val.value, lfuFreq := savedFreq scfg e.freq, lruIdle := savedIdle scfg e.idletime }

def LoadedDb.place (cfg : LoadConfig) (scfg : SaveConfig) (db : LoadedDb) (e : RdbEntry lzf)
    (t : Int) : LoadedDb :=
  if isExpired cfg t then db else db.add e.key (loadedObject scfg e) t

open LoadedDb

theorem takes_key (e : RdbEntry rio.lzf) {t : Int} (ht : SignedIn 8 t) (hst : Clear st)
    (hnew : (st.dbs st.dbid).dict e.key = none) :
    Takes rio cfg (rdbSaveKeyValuePair rio scfg e t) st
      (st.setDb ((st.dbs st.dbid).place cfg scfg e t)) := by
  let st1 : RdbLoader := { st with expiretime := t }
  let st2 : RdbLoader := { st1 with lruIdle := savedIdle scfg e.idletime }
  let st3 : RdbLoader := { st2 with lfuFreq := savedFreq scfg e.freq }
  have hexpire : Takes rio cfg (saveExpire t) st st1 := takes_expire ht hst.expiretime
  have hidle : Takes rio cfg (saveIdle scfg e.idletime) st1 st2 :=
    takes_idle scfg e.idletime hst.lruIdle
  have hfreq : Takes rio cfg (saveFreq scfg e.freq) st2 st3 :=
    takes_freq scfg e.freq hst.lfuFreq
  have hadd : exists st4, st3.addKey cfg e.key e.val.value = .ok st4 ∧
      st4.reset = st.setDb ((st.dbs st.dbid).place cfg scfg e t) := by
    have hdict : ((st3.dbs st3.dbid).dict e.key).isSome = false := by
      change ((st.dbs st.dbid).dict e.key).isSome = false
      rw [hnew]
      rfl
    unfold RdbLoader.addKey place
    dsimp only
    rw [hdict]
    change exists st4, (if isExpired cfg t then _ else _) = _ ∧ _
    by_cases hexpired : isExpired cfg t = true
    · rw [if_pos hexpired, if_pos hexpired, setDb_same]
      exact ⟨st3, rfl, hst.reset⟩
    rw [if_neg hexpired, if_neg hexpired, if_neg Bool.false_ne_true]
    refine ⟨_, rfl, ?_⟩
    change st.reset.setDb ((st.dbs st.dbid).add e.key (loadedObject scfg e) t) = _
    rw [hst.reset]
  rcases hadd with ⟨st4, hadd, hreset⟩
  have htype := loadOpcode_type rio cfg (rdbSaveObjectType_lt e.val) st3
  have hkey : Takes rio cfg (rdbSaveObjectType e.val ::
      (rdbSaveRawString rio.lzf scfg.rdbCompression e.key ++
        rdbSaveObject rio.lzf scfg.rdbCompression e.val)) st3
      (st.setDb ((st.dbs st.dbid).place cfg scfg e t)) := by
    apply Takes.opcode htype.left
    intro rest
    have hstring := rdbSaveRawString_load rio.lzf scfg.rdbCompression e.keySize
      (rdbSaveObject rio.lzf scfg.rdbCompression e.val ++ rest)
    rw [htype.right, append_assoc]
    simp only [loadKeyValue, bind, Except.bind, hstring, rdbLoadObject_save e.fits rest, hadd,
      hreset]
  exact hexpire.append (hidle.append (hfreq.append hkey))

/-!
# Databases
-/

def LoadedDb.placeAll (cfg : LoadConfig) (scfg : SaveConfig) (expire : Sds -> Int)
    (db : LoadedDb) (es : List (RdbEntry lzf)) : LoadedDb :=
  es.foldl (fun db e => db.place cfg scfg e (expire e.key)) db

variable (cfg)

theorem place_other (scfg : SaveConfig) (db : LoadedDb) {e : RdbEntry lzf} (t : Int) {k : Sds}
    (h : k ≠ e.key) : (db.place cfg scfg e t).dict k = db.dict k ∧
      (db.place cfg scfg e t).expires k = db.expires k := by
  unfold place
  split
  · exact ⟨rfl, rfl⟩
  · constructor
    · exact if_neg h
    · exact if_neg (fun hk => h hk.left)

theorem load_frames (scfg : SaveConfig) (expire : Sds -> Int) :
    Fill.Frames RdbEntry.key
      (fun (db : LoadedDb) (e : RdbEntry lzf) => db.place cfg scfg e (expire e.key))
      fun db k => (db.dict k, db.expires k) := by
  intro db e k h
  rcases place_other cfg scfg db (expire e.key) h with ⟨hdict, hexpires⟩
  exact Prod.ext hdict hexpires

theorem placeAll_other (scfg : SaveConfig) (expire : Sds -> Int) {k : Sds}
    (h : k ∉ es.map RdbEntry.key) (db : LoadedDb) :
    (db.placeAll cfg scfg expire es).dict k = db.dict k ∧
      (db.placeAll cfg scfg expire es).expires k = db.expires k :=
  Prod.mk.inj (Fill.foldl_other (load_frames cfg scfg expire) h db)

theorem placeAll_mem (scfg : SaveConfig) (expire : Sds -> Int)
    (hnodup : (es.map RdbEntry.key).Nodup) {e : RdbEntry lzf} (he : e ∈ es) (db : LoadedDb)
    (hdict : db.dict e.key = none) (hexpires : db.expires e.key = none) :
    (db.placeAll cfg scfg expire es).dict e.key =
        (if isExpired cfg (expire e.key) then none else some (loadedObject scfg e)) ∧
      (db.placeAll cfg scfg expire es).expires e.key =
        (if isExpired cfg (expire e.key) = false ∧ expire e.key ≠ -1 then some (expire e.key)
          else none) := by
  have hput : forall (db : LoadedDb) (e : RdbEntry lzf),
      (db.dict e.key, db.expires e.key) = (none, none) ->
      ((db.place cfg scfg e (expire e.key)).dict e.key,
          (db.place cfg scfg e (expire e.key)).expires e.key) =
        (if isExpired cfg (expire e.key) then none else some (loadedObject scfg e),
          if isExpired cfg (expire e.key) = false ∧ expire e.key ≠ -1 then some (expire e.key)
          else none) := by
    intro db e hblank
    rcases Prod.mk.inj hblank with ⟨hdict, hexpires⟩
    unfold place
    by_cases hexp : isExpired cfg (expire e.key) = true
    · simp [hexp, hdict, hexpires]
    · simp [hexp, hexpires, add]
  exact Prod.mk.inj (Fill.foldl_mem (load_frames cfg scfg expire) hput hnodup he
    (Prod.ext hdict hexpires))

variable {cfg}

theorem setDb_setDb (st : RdbLoader) (db db' : LoadedDb) :
    (st.setDb db).setDb db' = st.setDb db' := by
  unfold RdbLoader.setDb
  congr 1
  funext j
  dsimp only
  split
  · rfl
  · rfl

theorem takes_keys {es : List (RdbEntry rio.lzf)} {expire : Sds -> Int}
    (hexpire : forall e, e ∈ es -> SignedIn 8 (expire e.key))
    (hnodup : (es.map RdbEntry.key).Nodup) (hst : Clear st)
    (hnew : forall e, e ∈ es -> (st.dbs st.dbid).dict e.key = none) :
    Takes rio cfg
      (es.flatMap fun e => rdbSaveKeyValuePair rio scfg e (expire e.key)) st
      (st.setDb ((st.dbs st.dbid).placeAll cfg scfg expire es)) := by
  induction es generalizing st with
  | nil =>
    change Takes rio cfg [] st (st.setDb (st.dbs st.dbid))
    rw [setDb_same]
    exact Takes.nil st
  | cons e es ih =>
    rw [map_cons, nodup_cons] at hnodup
    have hfirst : Takes rio cfg (rdbSaveKeyValuePair rio scfg e (expire e.key)) st
        (st.setDb ((st.dbs st.dbid).place cfg scfg e (expire e.key))) :=
      takes_key scfg e (hexpire e mem_cons_self) hst (hnew e mem_cons_self)
    generalize hdb : (st.dbs st.dbid).place cfg scfg e (expire e.key) = db at hfirst
    have hdbs : (st.setDb db).dbs (st.setDb db).dbid = db := if_pos rfl
    have hnew' : forall e', e' ∈ es -> ((st.setDb db).dbs (st.setDb db).dbid).dict e'.key = none := by
      intro e' he'
      have hne := Fill.name_ne hnodup.left he'
      rw [hdbs, ← hdb, (place_other cfg scfg _ _ hne).left]
      exact hnew e' (mem_cons_of_mem e he')
    have hrest := ih (fun e' he' => hexpire e' (mem_cons_of_mem e he')) hnodup.right
      (hst.setDb db) hnew'
    rw [setDb_setDb, hdbs] at hrest
    have hall : (st.dbs st.dbid).placeAll cfg scfg expire (e :: es) =
        db.placeAll cfg scfg expire es := by
      rw [← hdb]
      rfl
    rw [flatMap_cons, hall]
    exact hfirst.append hrest

theorem takes_select (hj : j < cfg.dbnum) (hint : j < 2 ^ 31) :
    Takes rio cfg (RDB_OPCODE_SELECTDB :: rdbSaveLen j) st { st with dbid := j } := by
  apply Takes.opcode (by decide)
  intro rest
  have hread : rdbLoadLen (rdbSaveLen j ++ rest) = .ok (j, rest) :=
    rdbLoadLen_save (by unfold RDB_LENERR; lia) rest
  unfold loadOpcode
  iterate 4 rw [if_neg (by decide)]
  rw [if_pos rfl]
  simp only [bind, Except.bind, hread]
  rw [if_neg (Nat.not_le_of_lt hj)]

theorem takes_resize {size expires : Nat} (hsize : size < 2 ^ 63) (hexpires : expires < 2 ^ 63) :
    Takes rio cfg (RDB_OPCODE_RESIZEDB :: (rdbSaveLen size ++ rdbSaveLen expires)) st st := by
  apply Takes.opcode (by decide)
  intro rest
  have hread : rdbLoadLen (rdbSaveLen size ++ (rdbSaveLen expires ++ rest)) =
      .ok (size, rdbSaveLen expires ++ rest) :=
    rdbLoadLen_save (by unfold RDB_LENERR; lia) _
  have hread' : rdbLoadLen (rdbSaveLen expires ++ rest) = .ok (expires, rest) :=
    rdbLoadLen_save (by unfold RDB_LENERR; lia) rest
  unfold loadOpcode
  iterate 5 rw [if_neg (by decide)]
  rw [if_pos rfl, append_assoc]
  simp only [bind, Except.bind, hread, hread']

theorem takes_aux (aux : AuxField) : Takes rio cfg (rdbSaveAuxField rio scfg aux) st st := by
  apply Takes.opcode (by decide)
  intro rest
  have hkey := rdbSaveRawString_load rio.lzf scfg.rdbCompression aux.keySize
    (rdbSaveRawString rio.lzf scfg.rdbCompression aux.val ++ rest)
  have hval := rdbSaveRawString_load rio.lzf scfg.rdbCompression aux.valSize rest
  unfold loadOpcode
  iterate 6 rw [if_neg (by decide)]
  rw [if_pos rfl, append_assoc]
  simp only [bind, Except.bind, hkey, hval]

theorem takes_auxs (auxs : List AuxField) :
    Takes rio cfg (auxs.flatMap (rdbSaveAuxField rio scfg)) st st := by
  induction auxs with
  | nil => exact Takes.nil st
  | cons aux auxs ih =>
    rw [flatMap_cons]
    exact (takes_aux scfg aux).append ih

theorem getExpire_signed (db : RdbDb lzf) (k : Sds) : SignedIn 8 (db.getExpire k) := by
  unfold RdbDb.getExpire
  cases hk : db.expires k with
  | none =>
    unfold SignedIn
    decide
  | some t => exact db.isLongLong k t hk

def loadedDb (cfg : LoadConfig) (scfg : SaveConfig) (db : RdbDb lzf) : LoadedDb :=
  LoadedDb.empty.placeAll cfg scfg db.getExpire db.dict

theorem takes_db (db : RdbDb rio.lzf) (hj : j < cfg.dbnum) (hint : j < 2 ^ 31) (hst : Clear st)
    (hempty : st.dbs j = empty) :
    exists st', Takes rio cfg (saveDb rio scfg j db) st st' ∧ Clear st' ∧
      st'.dbs = fun i => if i = j then loadedDb cfg scfg db else st.dbs i := by
  unfold saveDb
  by_cases hnone : db.dict = []
  · rw [if_pos hnone]
    refine ⟨st, Takes.nil st, hst, ?_⟩
    funext i
    split
    · rename_i hi
      unfold loadedDb
      rw [hi, hnone, hempty]
      rfl
    · rfl
  · have hcount : (db.dict.countP fun e => (db.expires e.key).isSome) < 2 ^ 63 :=
      Nat.lt_of_le_of_lt (countP_le_length) db.size
    let st1 : RdbLoader := { st with dbid := j }
    have hst1 : Clear st1 := ⟨hst.expiretime, hst.lfuFreq, hst.lruIdle⟩
    have hdb1 : st1.dbs st1.dbid = empty := hempty
    have hselect : Takes rio cfg (RDB_OPCODE_SELECTDB :: rdbSaveLen j) st st1 :=
      takes_select hj hint
    have hresize : Takes rio cfg (RDB_OPCODE_RESIZEDB :: (rdbSaveLen db.dict.length ++
        rdbSaveLen (db.dict.countP fun e => (db.expires e.key).isSome))) st1 st1 :=
      takes_resize db.size hcount
    have hkeys : Takes rio cfg
        (db.dict.flatMap fun e => rdbSaveKeyValuePair rio scfg e (db.getExpire e.key)) st1
        (st1.setDb ((st1.dbs st1.dbid).placeAll cfg scfg db.getExpire db.dict)) :=
      takes_keys scfg (fun e _ => getExpire_signed db e.key) db.nodup hst1
        (fun e _ => by rw [hdb1]; rfl)
    rw [hdb1] at hkeys
    have hall := hselect.append (hresize.append hkeys)
    simp only [cons_append, append_assoc] at hall
    rw [if_neg hnone]
    exact ⟨_, hall, hst1.setDb _, rfl⟩

theorem takes_dbs {dbs : List (RdbDb rio.lzf)} (hj : j + dbs.length ≤ cfg.dbnum)
    (hint : j + dbs.length < 2 ^ 31) (hst : Clear st)
    (hempty : forall i, j ≤ i -> st.dbs i = empty) :
    exists st', Takes rio cfg (saveDbs rio scfg j dbs) st st' ∧
      (forall i, i < j -> st'.dbs i = st.dbs i) ∧
      forall i, st'.dbs (j + i) = (dbs[i]?.map (loadedDb cfg scfg)).getD empty := by
  induction dbs generalizing st j with
  | nil =>
    refine ⟨st, Takes.nil st, fun _ _ => rfl, ?_⟩
    intro i
    exact hempty (j + i) (Nat.le_add_right j i)
  | cons db dbs ih =>
    rw [length_cons] at hj hint
    have hfirst : exists st', Takes rio cfg (saveDb rio scfg j db) st st' ∧
        Clear st' ∧ st'.dbs = fun i => if i = j then loadedDb cfg scfg db else st.dbs i :=
      takes_db scfg db (by lia) (by lia) hst (hempty j (Nat.le_refl j))
    rcases hfirst with ⟨st1, htakes, hclear, hdbs⟩
    have hempty1 : forall i, j + 1 ≤ i -> st1.dbs i = empty := by
      intro i hi
      rw [hdbs]
      dsimp only
      rw [if_neg (by lia)]
      exact hempty i (by lia)
    rcases ih (by lia) (by lia) hclear hempty1 with ⟨st', hrest, hbefore, hafter⟩
    refine ⟨st', htakes.append hrest, ?_, ?_⟩
    · intro i hi
      rw [hbefore i (by lia), hdbs]
      exact if_neg (by lia)
    intro i
    rcases i with _ | i
    · rw [Nat.add_zero, hbefore j (Nat.lt_succ_self j), hdbs]
      exact if_pos rfl
    · have hi := hafter i
      rw [Nat.add_assoc, Nat.add_comm 1 i] at hi
      rw [hi, List.getElem?_cons_succ]

end Load

/-!
# Files
-/

section Files

variable (rio : Rio) (scfg : SaveConfig) (cfg : LoadConfig)

def loadedDbs {lzf : Lzf} (ds : RdbDataset lzf) (j : Nat) : LoadedDb :=
  (ds.dbs[j]?.map (loadedDb cfg scfg)).getD LoadedDb.empty

def records (ds : RdbDataset rio.lzf) : List UInt8 :=
  scfg.info.flatMap (rdbSaveAuxField rio scfg) ++ (saveDbs rio scfg 0 ds.dbs ++
    scfg.lua.flatMap (rdbSaveAuxField rio scfg))

theorem takes_records {ds : RdbDataset rio.lzf} (hdbnum : ds.dbs.length ≤ cfg.dbnum) :
    exists st, Takes rio cfg (records rio scfg ds) RdbLoader.start st ∧
      st.dbs = loadedDbs scfg cfg ds := by
  have hint := ds.dbnum
  have hclear : Clear (RdbLoader.start : RdbLoader) := ⟨rfl, rfl, rfl⟩
  have hinfo : Takes rio cfg (scfg.info.flatMap (rdbSaveAuxField rio scfg))
      RdbLoader.start RdbLoader.start := takes_auxs scfg scfg.info
  have hdbs : exists st', Takes rio cfg (saveDbs rio scfg 0 ds.dbs)
      RdbLoader.start st' ∧ (forall i, i < 0 -> st'.dbs i = RdbLoader.start.dbs i) ∧
      forall i, st'.dbs (0 + i) = (ds.dbs[i]?.map (loadedDb cfg scfg)).getD LoadedDb.empty :=
    takes_dbs scfg (by lia) (by lia) hclear (fun _ _ => rfl)
  rcases hdbs with ⟨st, htakes, _, hloaded⟩
  have hlua : Takes rio cfg (scfg.lua.flatMap (rdbSaveAuxField rio scfg)) st st :=
    takes_auxs scfg scfg.lua
  refine ⟨st, hinfo.append (htakes.append hlua), ?_⟩
  funext j
  have hj := hloaded j
  rw [Nat.zero_add] at hj
  exact hj

theorem rdbLoadRio_save {ds : RdbDataset rio.lzf} (hdbnum : ds.dbs.length ≤ cfg.dbnum) :
    rdbLoadRio rio cfg (rdbSaveRio rio scfg ds) = .ok (loadedDbs scfg cfg ds) := by
  generalize hcksum : (if scfg.rdbChecksum then (rio.crc64 (saveBody rio scfg ds)).toNat
    else 0) = cksum
  have hlt : cksum < 256 ^ 8 := by
    rw [← hcksum]
    split
    · exact (rio.crc64 (saveBody rio scfg ds)).toNat_lt
    · decide
  have hfile : rdbSaveRio rio scfg ds = saveBody rio scfg ds ++ le 8 cksum := by
    rw [← hcksum]
    rfl
  rcases takes_records rio scfg cfg hdbnum with ⟨st, htakes, hdbs⟩
  generalize hrest : records rio scfg ds ++ (RDB_OPCODE_EOF :: le 8 cksum) = rest
  have hmagic : rioRead 9 (rdbSaveRio rio scfg ds) = .ok (magic, rest) := by
    unfold records at hrest
    simp only [append_assoc] at hrest
    rw [hfile, saveBody]
    simp only [append_assoc, singleton_append, hrest]
    exact rioRead_append magic rest
  have hloop : loadLoop rio cfg (rest.length + 1) RdbLoader.start rest =
      .ok (st, le 8 cksum) := by
    rcases htakes ((le 8 cksum).length + 2) (RDB_OPCODE_EOF :: le 8 cksum) with ⟨more, hrun⟩
    have hfuel : rest.length + 1 =
        (le 8 cksum).length + 2 + (records rio scfg ds).length := by
      rw [← hrest, length_append, length_cons]
      lia
    have hmore : (le 8 cksum).length + 2 + more = (le 8 cksum).length + 1 + more + 1 := by lia
    rw [hfuel, ← hrest, hrun, hmore, loadLoop, if_pos rfl]
  have hexpected : (rdbSaveRio rio scfg ds).take
      ((rdbSaveRio rio scfg ds).length - (le 8 cksum).length) =
        saveBody rio scfg ds := by
    rw [hfile, length_append, Nat.add_sub_cancel, take_left]
  have hread : rioRead 8 (le 8 cksum) = .ok (le 8 cksum, []) := by
    have happend := rioRead_append (le 8 cksum) []
    rw [append_nil, le_length] at happend
    exact happend
  have hcheck : Not (cfg.rdbChecksum = true ∧ cksum ≠ 0 ∧
      cksum ≠ (rio.crc64 (saveBody rio scfg ds)).toNat) := by
    rintro ⟨_, hzero, hne⟩
    rw [← hcksum] at hzero hne
    split at hne
    · exact hne rfl
    · rename_i hoff
      rw [if_neg hoff] at hzero
      exact hzero rfl
  unfold rdbLoadRio
  simp only [bind, Except.bind, hmagic, hloop, hexpected, hread, ofLe_le hlt]
  rw [if_neg (by decide), if_neg (by decide), if_pos (by decide), if_neg hcheck, hdbs]

end Files

/-!
# Databases that are loaded as they were saved
-/

section RoundTrip

variable {lzf : Lzf}

def passed (cfg : LoadConfig) (expire : Option Int) : Bool :=
  cfg.iAmMaster && !cfg.aofPreamble && expire.any fun t => decide (t < cfg.now)

/-- A database after a restart: all but the keys a master drops. -/
def restoredDb (cfg : LoadConfig) (scfg : SaveConfig) (db : RdbDb lzf) : LoadedDb where
  dict := fun k =>
    if passed cfg (db.expires k) then none
    else (db.dict.find? fun e => e.key == k).map (loadedObject scfg)
  expires := fun k => if passed cfg (db.expires k) then none else db.expires k

def restored (cfg : LoadConfig) (scfg : SaveConfig) (ds : RdbDataset lzf) (j : Nat) : LoadedDb :=
  (ds.dbs[j]?.map (restoredDb cfg scfg)).getD LoadedDb.empty

variable {k : Sds}

variable (cfg)

theorem isExpired_getExpire {db : RdbDb lzf} (h : db.expires k ≠ some (-1)) :
    isExpired cfg (db.getExpire k) = passed cfg (db.expires k) := by
  unfold isExpired passed RdbDb.getExpire
  cases hk : db.expires k with
  | none => simp
  | some t =>
    have hne : t ≠ -1 := by
      rintro rfl
      exact h hk
    have hbne : (t != -1) = true := bne_iff_ne.mpr hne
    simp [hbne]

theorem find_key {es : List (RdbEntry lzf)} (hnodup : (es.map RdbEntry.key).Nodup)
    {e : RdbEntry lzf} (he : e ∈ es) : (es.find? fun e' => e'.key == e.key) = some e := by
  induction es with
  | nil => cases he
  | cons e' es ih =>
    rw [map_cons, nodup_cons] at hnodup
    rcases mem_cons.mp he with rfl | hin
    · exact List.find?_cons_of_pos (beq_self_eq_true e.key)
    · have hne := beq_false_of_ne (Fill.name_ne hnodup.left hin).symm
      rw [List.find?_cons_of_neg (by rw [hne]; decide)]
      exact ih hnodup.right hin

theorem find_other {es : List (RdbEntry lzf)} (h : k ∉ es.map RdbEntry.key) :
    (es.find? fun e => e.key == k) = none := by
  apply List.find?_eq_none.mpr
  intro e he heq
  apply h
  rw [← eq_of_beq heq]
  exact mem_map_of_mem he

theorem expires_other {db : RdbDb lzf} (h : k ∉ db.dict.map RdbEntry.key) : db.expires k = none := by
  cases hk : db.expires k with
  | none => rfl
  | some t =>
    rcases db.expiresKey k t hk with ⟨e, he, rfl⟩
    exact absurd (mem_map_of_mem he) h

theorem loadedDb_minus_one (scfg : SaveConfig) {db : RdbDb lzf} (hk : db.expires k = some (-1)) :
    loadedDb cfg scfg db ≠ restoredDb cfg scfg db := by
  intro heq
  rcases db.expiresKey k (-1) hk with ⟨e, he, rfl⟩
  have hplace := placeAll_mem cfg scfg db.getExpire db.nodup he LoadedDb.empty rfl rfl
  have hexpire : db.getExpire e.key = -1 := by
    unfold RdbDb.getExpire
    rw [hk]
    rfl
  have hnot : isExpired cfg (-1) = false := by
    unfold isExpired
    simp
  have hdict : (restoredDb cfg scfg db).dict e.key = some (loadedObject scfg e) := by
    rw [← heq]
    refine hplace.left.trans ?_
    rw [hexpire, hnot, if_neg Bool.false_ne_true]
  have hexpires : (restoredDb cfg scfg db).expires e.key = none := by
    rw [← heq]
    refine hplace.right.trans ?_
    rw [hexpire, if_neg (fun h => h.right rfl)]
  unfold restoredDb at hdict hexpires
  dsimp only at hdict hexpires
  rw [hk] at hdict hexpires
  split at hexpires
  · rename_i hpassed
    rw [if_pos hpassed] at hdict
    cases hdict
  · cases hexpires

def SameAt (k : Sds) (db db' : LoadedDb) : Prop :=
  db.dict k = db'.dict k ∧ db.expires k = db'.expires k

theorem loadedDb_key (scfg : SaveConfig) {db : RdbDb lzf} {e : RdbEntry lzf} (he : e ∈ db.dict)
    (hne : db.expires e.key ≠ some (-1)) :
    SameAt e.key (loadedDb cfg scfg db) (restoredDb cfg scfg db) := by
  have hplace := placeAll_mem cfg scfg db.getExpire db.nodup he LoadedDb.empty rfl rfl
  unfold SameAt restoredDb
  dsimp only
  rw [find_key db.nodup he, Option.map_some, ← isExpired_getExpire cfg hne]
  refine ⟨hplace.left, hplace.right.trans ?_⟩
  by_cases hexp : isExpired cfg (db.getExpire e.key) = true
  · rw [hexp]
    rfl
  rw [Bool.eq_false_of_not_eq_true hexp, if_neg Bool.false_ne_true]
  unfold RdbDb.getExpire
  cases hk : db.expires e.key with
  | none => rfl
  | some t =>
    refine if_pos ⟨rfl, ?_⟩
    rintro rfl
    exact hne hk

theorem loadedDb_other (scfg : SaveConfig) {db : RdbDb lzf} (h : k ∉ db.dict.map RdbEntry.key) :
    SameAt k (loadedDb cfg scfg db) (restoredDb cfg scfg db) := by
  have hplace := placeAll_other cfg scfg db.getExpire h LoadedDb.empty
  unfold SameAt restoredDb
  dsimp only
  rw [find_other h, expires_other h]
  refine ⟨hplace.left.trans ?_, hplace.right.trans ?_⟩
  · split
    · rfl
    · rfl
  · split
    · rfl
    · rfl

theorem loadedDb_eq_iff (scfg : SaveConfig) (db : RdbDb lzf) :
    loadedDb cfg scfg db = restoredDb cfg scfg db <-> forall k, db.expires k ≠ some (-1) := by
  constructor
  · intro heq k hk
    exact loadedDb_minus_one cfg scfg hk heq
  · intro hnone
    have hsame : forall k, SameAt k (loadedDb cfg scfg db) (restoredDb cfg scfg db) := by
      intro k
      by_cases hin : k ∈ db.dict.map RdbEntry.key
      · rcases mem_map.mp hin with ⟨e, he, rfl⟩
        exact loadedDb_key cfg scfg he (hnone e.key)
      · exact loadedDb_other cfg scfg hin
    ext1
    · funext k
      exact (hsame k).left
    · funext k
      exact (hsame k).right

theorem loadedDbs_eq_iff (scfg : SaveConfig) (ds : RdbDataset lzf) :
    loadedDbs scfg cfg ds = restored cfg scfg ds <->
      forall db, db ∈ ds.dbs -> forall k, db.expires k ≠ some (-1) := by
  unfold loadedDbs restored
  constructor
  · intro heq db hdb
    rcases mem_iff_getElem?.mp hdb with ⟨j, hj⟩
    have hat := congrFun heq j
    rw [hj] at hat
    exact (loadedDb_eq_iff cfg scfg db).mp hat
  · intro hall
    funext j
    cases hj : ds.dbs[j]? with
    | none => rfl
    | some db => exact (loadedDb_eq_iff cfg scfg db).mpr (hall db (mem_of_getElem? hj))

variable {cfg}

end RoundTrip

end Rdb

open Rdb

namespace Rdb

def minusOne : RdbDataset Lzf.never where
  dbs :=
    [{ dict := [{ key := [107], val := .string [118], idletime := 0, freq := 0
                  keySize := by decide, fits := (by decide : 1 < 2 ^ 32) }]
       expires := fun k => if k = [107] then some (-1) else none
       nodup := by decide
       size := by decide
       expiresKey := by
         intro k t h
         split at h
         · rename_i hk
           exact ⟨_, List.mem_cons_self, hk.symm⟩
         · cases h
       isLongLong := by
         intro k t h
         split at h
         · injection h with h
           rw [← h]
           unfold SignedIn
           decide
         · cases h }]
  dbnum := by decide

def plainRio : Rio :=
  { lzf := Lzf.never, crc64 := fun _ => 0 }

def plainSave : SaveConfig :=
  { savelru := false, savelfu := false, rdbCompression := false, rdbChecksum := false
    info := [], lua := [] }

def masterLoad : LoadConfig :=
  { dbnum := 1, iAmMaster := true, aofPreamble := false, allowDup := false
    rdbChecksum := false, now := 1000, hashLimits := ⟨512, 64⟩ }

end Rdb

end Redisoo
