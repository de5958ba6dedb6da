import Mathlib.Data.FinEnum
import Redisoo.Foundation.Fill
import Redisoo.Persistence.AofRewrite
import Redisoo.Persistence.AofTruncation

/-!
# A rewritten file is a snapshot

The file that `rewriteAppendOnlyFileRio` writes is a list of well formed commands, and
replaying it on an empty dataset gives the logical values of the dataset.
-/

namespace Redisoo

open Foundation Foundation.Bytes List Util

namespace Aof

/-!
# The logical dataset
-/

section Logical

variable {S : Scores}

def StringObject.text : StringObject -> Sds
  | .sds s => s
  | .int v => Util.ll2string v

def SetObject.isMember : SetObject -> Sds -> Bool
  | .intset is, s =>
    match Util.string2ll s with
    | none => false
    | some v => Intset.intsetFind is v == some true
  | .ht _ keys, s => keys.contains s

def ZsetObject.score : ZsetObject S -> Sds -> Option S.Score
  | .ziplist _ zl, m => (zl.find? fun x => x.1.text = m).map fun x => zzlGetScore S x.2
  | .skiplist _ dict, m => (dict.find? fun x => x.1 = m).map Prod.snd

def HashObject.field : HashObject -> Sds -> Option Sds
  | .ziplist _ zl, f => (zl.find? fun x => x.1.text = f).map fun x => x.2.text
  | .ht _ dict, f => (dict.find? fun x => x.1 = f).map Prod.snd

def Object.typed : Object S -> Typed S
  | .string o => .string o.text
  | .list o => .list (o.nodes.flatten.map ZlEntry.text)
  | .set o => .set o.isMember
  | .zset o => .zset o.score
  | .hash o => .hash o.field

def AofDb.typed (db : AofDb S) : TypedDb S :=
  { dict := fun k => (db.dict.find? fun e => e.key = k).map fun e => e.val.typed
    expires := db.expires }

end Logical

/-!
# The text of a command
-/

theorem rioWriteBulkString_eq (s : Sds) : rioWriteBulkString s = bulk s := by
  unfold rioWriteBulkString rioWriteBulkCount bulk
  simp only [cons_append, append_assoc]

theorem rioWriteZlEntry_eq (e : ZlEntry) : rioWriteZlEntry e = bulk e.text := by
  cases e with
  | str s => exact rioWriteBulkString_eq s
  | int v => exact rioWriteBulkString_eq (ll2string v)

theorem command_text (name : Sds) (args : List Sds) (count : Int)
    (hcount : count = (args.length : Int) + 1) :
    rioWriteBulkCount 42 count ++ rioWriteBulkString name ++ args.flatMap bulk =
      catAppendOnlyGenericCommand (name :: args) := by
  have hlen : (((name :: args).length : Nat) : Int) = count := by
    rw [hcount, length_cons]
    lia
  unfold catAppendOnlyGenericCommand rioWriteBulkCount
  rw [hlen, rioWriteBulkString_eq, flatMap_cons]
  simp only [cons_append, append_assoc]

/-!
# Batches

The loop writes the items in commands of at most 64, each with the right count.
-/

section Batches

variable {item : Type} {name key : Sds} {width : Nat} {emit : item -> List UInt8}
  (name key width) in
theorem rewriteItems_map {item' : Type} (f : item -> item') {emit' : item' -> List UInt8}
    (h : forall x, emit x = emit' (f x)) (xs : List item) (count : Nat) (items : Int) :
    rewriteItems name key width emit count items xs =
      rewriteItems name key width emit' count items (xs.map f) := by
  induction xs generalizing count items with
  | nil => rfl
  | cons x xs ih =>
    rw [map_cons, rewriteItems, rewriteItems, h x, ih]

variable {args : item -> List Sds}

theorem flatMap_args_length (h : forall x, (args x).length = width) (xs : List item) :
    (xs.flatMap args).length = xs.length * width := by
  induction xs with
  | nil => simp
  | cons x xs ih =>
    rw [flatMap_cons, length_append, h x, ih, length_cons]
    lia

theorem rewriteItems_within (emit : item -> List UInt8) (xs : List item) {count : Nat}
    (hpos : 0 < count) (hcount : count < AOF_REWRITE_ITEMS_PER_CMD) :
    rewriteItems name key width emit count xs.length xs =
      (xs.take (AOF_REWRITE_ITEMS_PER_CMD - count)).flatMap emit ++
        rewriteItems name key width emit 0
          (xs.drop (AOF_REWRITE_ITEMS_PER_CMD - count)).length
          (xs.drop (AOF_REWRITE_ITEMS_PER_CMD - count)) := by
  induction xs generalizing count with
  | nil => simp [rewriteItems]
  | cons x xs ih =>
    have hleft : (((x :: xs).length : Nat) : Int) - 1 = (xs.length : Nat) := by
      rw [length_cons]
      lia
    have hroom : AOF_REWRITE_ITEMS_PER_CMD - count =
        AOF_REWRITE_ITEMS_PER_CMD - (count + 1) + 1 := by lia
    rw [rewriteItems, if_neg (Nat.ne_of_gt hpos), hleft, hroom, take_succ_cons,
      drop_succ_cons, flatMap_cons, nil_append]
    by_cases hfull : count + 1 = AOF_REWRITE_ITEMS_PER_CMD
    · rw [if_pos hfull, hfull, Nat.sub_self]
      simp
    · rw [if_neg hfull, ih (Nat.succ_pos count) (by lia), append_assoc]

theorem rewriteItems_command (hemit : forall x, emit x = (args x).flatMap bulk)
    (hwidth : forall x, (args x).length = width) {xs : List item} (hne : xs ≠ []) :
    rewriteItems name key width emit 0 xs.length xs =
      catAppendOnlyGenericCommand
          (name :: key :: (xs.take AOF_REWRITE_ITEMS_PER_CMD).flatMap args) ++
        rewriteItems name key width emit 0 (xs.drop AOF_REWRITE_ITEMS_PER_CMD).length
          (xs.drop AOF_REWRITE_ITEMS_PER_CMD) := by
  cases xs with
  | nil => exact absurd rfl hne
  | cons x xs =>
    have hleft : (((x :: xs).length : Nat) : Int) - 1 = (xs.length : Nat) := by
      rw [length_cons]
      lia
    have hbulk : forall ys : List item, ys.flatMap emit = (ys.flatMap args).flatMap bulk := by
      intro ys
      rw [flatMap_assoc]
      exact congrArg (fun f => ys.flatMap f) (funext hemit)
    have htake : (x :: xs).take AOF_REWRITE_ITEMS_PER_CMD = x :: xs.take 63 := rfl
    have hdrop : (x :: xs).drop AOF_REWRITE_ITEMS_PER_CMD = xs.drop 63 := rfl
    have hmin : (if (((x :: xs).length : Nat) : Int) > AOF_REWRITE_ITEMS_PER_CMD
        then (AOF_REWRITE_ITEMS_PER_CMD : Int) else ((x :: xs).length : Nat)) =
        (((x :: xs.take 63).length : Nat) : Int) := by
      unfold AOF_REWRITE_ITEMS_PER_CMD
      rw [length_cons, length_cons, length_take]
      split <;> lia
    have hcount : 2 + (((x :: xs.take 63).length : Nat) : Int) * width =
        (((key :: (x :: xs.take 63).flatMap args).length : Nat) : Int) + 1 := by
      have hlen : (key :: (x :: xs.take 63).flatMap args).length =
          (x :: xs.take 63).length * width + 1 := by
        rw [length_cons, flatMap_args_length hwidth]
      rw [hlen]
      push_cast
      lia
    have hhead := command_text name (key :: (x :: xs.take 63).flatMap args) _ hcount
    have hnext : (if 0 + 1 = AOF_REWRITE_ITEMS_PER_CMD then 0 else 0 + 1) = 1 := rfl
    have hwithin : rewriteItems name key width emit 1 xs.length xs = (xs.take 63).flatMap emit ++
          rewriteItems name key width emit 0 (xs.drop 63).length (xs.drop 63) :=
      rewriteItems_within emit xs (by decide) (by decide)
    rw [rewriteItems, if_pos rfl, hmin, hleft, hnext, hwithin, htake, hdrop, ← hhead,
      flatMap_cons, rioWriteBulkString_eq key, ← hbulk, flatMap_cons]
    simp only [append_assoc]

variable (name key) in
theorem rewriteItems_batches (hemit : forall x, emit x = (args x).flatMap bulk)
    (hwidth : forall x, (args x).length = width) (xs : List item) :
    exists bs : List (List item), bs.flatten = xs ∧
      (forall b, b ∈ bs -> b ≠ [] ∧ b.length ≤ AOF_REWRITE_ITEMS_PER_CMD) ∧
      rewriteItems name key width emit 0 xs.length xs =
        (bs.map fun b => name :: key :: b.flatMap args).flatMap catAppendOnlyGenericCommand := by
  induction hn : xs.length using Nat.strongRecOn generalizing xs with
  | ind n ih =>
    by_cases hne : xs = []
    · subst hne
      exact ⟨[], rfl, by simp, rfl⟩
    have hshort : (xs.drop AOF_REWRITE_ITEMS_PER_CMD).length < n := by
      have hpos := length_pos_of_ne_nil hne
      rw [length_drop, ← hn]
      unfold AOF_REWRITE_ITEMS_PER_CMD
      lia
    rcases ih _ hshort (xs.drop AOF_REWRITE_ITEMS_PER_CMD) rfl with ⟨bs, hflat, hbs, htext⟩
    refine ⟨xs.take AOF_REWRITE_ITEMS_PER_CMD :: bs, ?_, ?_, ?_⟩
    · rw [flatten_cons, hflat, take_append_drop]
    · intro b hb
      rcases mem_cons.mp hb with rfl | hin
      · constructor
        · intro hnil
          rw [take_eq_nil_iff] at hnil
          exact hnil.elim (by decide) hne
        · exact length_take_le _ _
      · exact hbs b hin
    · rw [← hn, rewriteItems_command hemit hwidth hne, htext, map_cons, flatMap_cons]

end Batches

/-!
# Commands on one key
-/

section Replay

variable {S : Scores} {dbnum : Nat} (st : Replaying S dbnum)

theorem update_congr {f g : TypedDb S -> TypedDb S} (h : f (st.dbs st.db) = g (st.dbs st.db)) :
    st.update f = st.update g := by
  unfold Replaying.update
  congr 1
  funext j
  by_cases hj : j = st.db
  · rw [if_pos hj, if_pos hj, hj, h]
  · rw [if_neg hj, if_neg hj]

theorem update_selected (f : TypedDb S -> TypedDb S) :
    (st.update f).dbs (st.update f).db = f (st.dbs st.db) :=
  if_pos rfl

theorem update_update (f g : TypedDb S -> TypedDb S) :
    (st.update f).update g = st.update fun db => g (f db) := by
  unfold Replaying.update
  congr 1
  funext j
  by_cases hj : j = st.db
  · simp only [if_pos hj]
  · simp only [if_neg hj]

theorem update_id : (st.update fun db => db) = st := by
  unfold Replaying.update
  simp

theorem set_self (db : TypedDb S) (key : Sds) (o : Typed S) : (db.set key o).dict key = some o :=
  if_pos rfl

theorem set_set (db : TypedDb S) (key : Sds) (o o' : Typed S) :
    (db.set key o).set key o' = db.set key o' := by
  unfold TypedDb.set
  congr 1
  funext k
  by_cases hk : k = key
  · simp only [if_pos hk]
  · simp only [if_neg hk]

def growing {item : Type} (build : List item -> Typed S) (acc : List item) : Option (Typed S) :=
  if acc = [] then none else some (build acc)

variable {item : Type} {key : Sds} {build : List item -> Typed S}

theorem growing_cases {acc : List item} {o : Option (Typed S)} (h : o = growing build acc) :
    acc = [] ∧ o = none ∨ o = some (build acc) := by
  by_cases hacc : acc = []
  · exact Or.inl ⟨hacc, h.trans (if_pos hacc)⟩
  · exact Or.inr (h.trans (if_neg hacc))

theorem replay_batches {cmd : List item -> List Sds} {xs : List item}
    (hstep : forall (st : Replaying S dbnum) acc b rest, xs = acc ++ (b ++ rest) -> b ≠ [] ->
      (st.dbs st.db).dict key = growing build acc ->
      replayCommand st (cmd b) = st.update fun db => db.set key (build (acc ++ b)))
    {bs : List (List item)} (hbs : forall b, b ∈ bs -> b ≠ []) (hne : bs ≠ [])
    {st : Replaying S dbnum} {acc : List item} (hxs : xs = acc ++ bs.flatten)
    (hkey : (st.dbs st.db).dict key = growing build acc) :
    (bs.map cmd).foldl replayCommand st = st.update fun db => db.set key (build xs) := by
  induction bs generalizing st acc with
  | nil => exact absurd rfl hne
  | cons b bs ih =>
    have hb := hbs b mem_cons_self
    rw [flatten_cons] at hxs
    rw [map_cons, foldl_cons, hstep st acc b bs.flatten hxs hb hkey]
    by_cases hlast : bs = []
    · subst hlast
      rw [hxs, flatten_nil, append_nil]
      rfl
    have hgrown : growing build (acc ++ b) = some (build (acc ++ b)) :=
      if_neg (fun hnil => hb (append_eq_nil_iff.mp hnil).right)
    have hxs' : xs = (acc ++ b) ++ bs.flatten := by rw [hxs, append_assoc]
    have hkey' : ((st.update fun db => db.set key (build (acc ++ b))).dbs st.db).dict key =
        growing build (acc ++ b) := by
      rw [hgrown]
      exact (congrArg (fun db => TypedDb.dict db key) (update_selected st _)).trans
        (set_self _ key _)
    rw [ih (fun b' hb' => hbs b' (mem_cons_of_mem b hb')) hlast hxs' hkey', update_update]
    simp only [set_set]

/-!
# The four collections
-/

variable {db : TypedDb S} {raw : Type}
  {post post1 post2 : Replaying S dbnum -> Replaying S dbnum -> Prop}
  {xs acc b : List (S.Score × Sds)} {pre mid : Replaying S dbnum -> Prop} {name a key : Sds}

theorem rpush_step {acc b : List Sds} (hb : b ≠ []) (hkey : db.dict key = growing Typed.list acc) :
    rpushCommand db key b = db.set key (.list (acc ++ b)) := by
  unfold rpushCommand
  rcases growing_cases hkey with ⟨rfl, hnone⟩ | hsome
  · rw [hnone]
    exact if_neg hb
  · rw [hsome]

def builtSet (eles : List Sds) : Typed S :=
  .set (eles.foldl setAdd fun _ => false)

theorem sadd_step {acc : List Sds} (b : List Sds) (hkey : db.dict key = growing builtSet acc) :
    saddCommand db key b = db.set key (builtSet (acc ++ b)) := by
  unfold saddCommand builtSet at *
  rw [foldl_append]
  rcases growing_cases hkey with ⟨rfl, hnone⟩ | hsome
  · rw [hnone]
    rfl
  · rw [hsome]

def builtHash (xs : List (Sds × Sds)) : Typed S :=
  .hash (xs.foldl hashSet fun _ => none)

theorem argPairs_flatMap (f g : item -> Sds) (xs : List item) :
    argPairs (xs.flatMap fun x => [f x, g x]) = some (xs.map fun x => (f x, g x)) := by
  induction xs with
  | nil => rfl
  | cons x xs ih =>
    change (argPairs (xs.flatMap fun x => [f x, g x])).map ((f x, g x) :: ·) = _
    rw [ih]
    rfl

theorem hset_step {acc : List (Sds × Sds)} (b : List (Sds × Sds))
    (hkey : db.dict key = growing builtHash acc) :
    hsetCommand db key (b.flatMap fun x => [x.1, x.2]) = db.set key (builtHash (acc ++ b)) := by
  unfold hsetCommand builtHash at *
  rw [argPairs_flatMap, map_id', foldl_append]
  rcases growing_cases hkey with ⟨rfl, hnone⟩ | hsome
  · rw [hnone]
    rfl
  · rw [hsome]

def zsetPut (z : Sds -> Option S.Score) (x : S.Score × Sds) : Sds -> Option S.Score :=
  fun m => if m = x.2 then some x.1 else z m

def builtZset (xs : List (S.Score × Sds)) : Typed S :=
  .zset (xs.foldl zsetPut fun _ => none)

theorem zsetPut_frames :
    @Fill.Frames (Sds -> Option S.Score) (S.Score × Sds) Sds (Option S.Score) Prod.snd zsetPut
      (fun z m => z m) :=
  fun _ _ _ h => if_neg h

theorem zaddOptions_format (score : S.Score) (rest : List Sds) (flags : ZaddFlags) :
    zaddOptions (S.format score :: rest) flags = (flags, S.format score :: rest) := by
  have hno : (strcasecmpEq (S.format score) [110, 120] ||
      strcasecmpEq (S.format score) [120, 120] || strcasecmpEq (S.format score) [99, 104] ||
      strcasecmpEq (S.format score) [105, 110, 99, 114]) = false := by
    apply Bool.eq_false_of_not_eq_true
    intro hoption
    have hnone := S.optionNoScore _ hoption
    rw [S.roundTrip] at hnone
    cases hnone
  simp only [Bool.or_eq_false_iff] at hno
  simp only [zaddOptions, hno, Bool.false_eq_true, if_false]

theorem zaddScores_format (xs : List (S.Score × Sds)) :
    zaddScores S (xs.map fun x => (S.format x.1, x.2)) = some xs := by
  unfold zaddScores
  induction xs with
  | nil => rfl
  | cons x xs ih =>
    rw [map_cons, mapM_cons, ih, S.roundTrip]
    rfl

theorem zaddElements_new (hnodup : (xs.map Prod.snd).Nodup) {z : Sds -> Option S.Score}
    (hnew : forall x, x ∈ xs -> z x.2 = none) :
    zaddElements ZADD_NONE z xs = xs.foldl zsetPut z := by
  induction xs generalizing z with
  | nil => rfl
  | cons x xs ih =>
    rw [map_cons, nodup_cons] at hnodup
    have hadd : zsetAdd ZADD_NONE z x = some (zsetPut z x) := by
      unfold zsetAdd
      rw [hnew x mem_cons_self]
      rfl
    simp only [zaddElements, hadd, foldl_cons]
    apply ih hnodup.right
    intro x' hx'
    have hne : x'.2 ≠ x.2 := by
      intro heq
      exact hnodup.left (heq ▸ mem_map_of_mem hx')
    exact (zsetPut_frames z x x'.2 hne).trans (hnew x' (mem_cons_of_mem x hx'))

theorem zadd_step (hb : b ≠ []) (hnodup : ((acc ++ b).map Prod.snd).Nodup)
    (hkey : db.dict key = growing builtZset acc) :
    zaddCommand db key (b.flatMap fun x => [S.format x.1, x.2]) =
      db.set key (builtZset (acc ++ b)) := by
  have hpairs := argPairs_flatMap (fun x : S.Score × Sds => S.format x.1) Prod.snd b
  have hoptions : zaddOptions (b.flatMap fun x => [S.format x.1, x.2]) ZADD_NONE =
      (ZADD_NONE, b.flatMap fun x => [S.format x.1, x.2]) := by
    cases b with
    | nil => exact absurd rfl hb
    | cons x xs => exact zaddOptions_format x.1 _ ZADD_NONE
  have hscores := zaddScores_format b
  rw [map_append, nodup_append] at hnodup
  have hnew : forall x, x ∈ b -> acc.foldl zsetPut (fun _ => none) x.2 = none := by
    intro x hx
    have hout : x.2 ∉ acc.map Prod.snd := by
      intro hin
      exact hnodup.right.right x.2 hin x.2 (mem_map_of_mem hx) rfl
    exact Fill.foldl_other zsetPut_frames hout (fun _ => none)
  have helements := zaddElements_new hnodup.right.left hnew
  unfold zaddCommand
  simp only [hoptions, hpairs]
  cases b with
  | nil => exact absurd rfl hb
  | cons x xs =>
    simp only [map_cons] at hscores ⊢
    simp only [ZADD_NONE, Bool.false_and, Bool.false_eq_true, if_false, hscores]
    unfold builtZset at *
    rw [foldl_append]
    rcases growing_cases hkey with ⟨rfl, hnone⟩ | hsome
    · rw [hnone]
      exact congrArg (fun z => db.set key (.zset z)) helements
    · rw [hsome]
      exact congrArg (fun z => db.set key (.zset z)) helements

/-!
# The collections that are built
-/

theorem foldl_setAdd (eles : List Sds) (isMember : Sds -> Bool) (s : Sds) :
    eles.foldl setAdd isMember s = (decide (s ∈ eles) || isMember s) := by
  induction eles generalizing isMember with
  | nil => rfl
  | cons e eles ih =>
    rw [foldl_cons, ih]
    unfold setAdd
    by_cases he : s = e
    · simp [he]
    · simp [he]

theorem builtSet_eq (eles : List Sds) :
    (builtSet eles : Typed S) = .set fun s => decide (s ∈ eles) := by
  unfold builtSet
  congr 1
  funext s
  rw [foldl_setAdd, Bool.or_false]

theorem find_map {value : Type} (raws : List raw) (f : raw -> item) (p : item -> Bool)
    (g : item -> value) : (((raws.map f).find? p).map fun x => some (g x)).getD none =
      (raws.find? fun x => p (f x)).map fun x => g (f x) := by
  rw [find?_map]
  change ((raws.find? fun x => p (f x)).map f |>.map _).getD none = _
  cases raws.find? fun x => p (f x) <;> rfl

theorem builtHash_eq {raws : List raw} (f : raw -> Sds × Sds)
    (hnodup : ((raws.map f).map Prod.fst).Nodup) : (builtHash (raws.map f) : Typed S) =
      .hash fun m => (raws.find? fun x => (f x).1 = m).map fun x => (f x).2 := by
  have hframe : @Fill.Frames (Sds -> Option Sds) (Sds × Sds) Sds (Option Sds) Prod.fst hashSet
      (fun field f => field f) := fun _ _ _ h => if_neg h
  unfold builtHash
  congr 1
  funext m
  have hread := Fill.foldl_blank hframe (fun _ _ _ => if_pos rfl) hnodup (fun _ => none)
    (fun _ => rfl) m
  exact hread.trans (find_map raws f _ _)

theorem builtZset_eq {raws : List raw} (f : raw -> S.Score × Sds)
    (hnodup : ((raws.map f).map Prod.snd).Nodup) : builtZset (raws.map f) =
      .zset fun m => (raws.find? fun x => (f x).2 = m).map fun x => (f x).1 := by
  unfold builtZset
  congr 1
  funext m
  have hread := Fill.foldl_blank zsetPut_frames (fun _ _ _ => if_pos rfl) hnodup
    (fun _ => none) (fun _ => rfl) m
  exact hread.trans (find_map raws f _ _)

/-!
# Restoring a key
-/

def Fresh (db : TypedDb S) (key : Sds) : Prop :=
  db.dict key = none ∧ db.expires key = none

def Plays (S : Scores) (dbnum : Nat) (bytes : List UInt8) (pre : Replaying S dbnum -> Prop)
    (post : Replaying S dbnum -> Replaying S dbnum -> Prop) : Prop :=
  exists cmds : List (List Sds), bytes = cmds.flatMap catAppendOnlyGenericCommand ∧
    (forall argv, argv ∈ cmds -> Known rewriteTable .other argv) ∧
    forall st, pre st -> post st (cmds.foldl replayCommand st)

def Restores (S : Scores) (dbnum : Nat) (bytes : List UInt8) (key : Sds) (o : Typed S) : Prop :=
  Plays S dbnum bytes (fun st => Fresh (st.dbs st.db) key)
    (fun st st' => st' = st.update fun db => db.set key o)

theorem Plays.nil (h : forall st, pre st -> post st st) : Plays S dbnum [] pre post :=
  ⟨[], rfl, fun _ hargv => absurd hargv not_mem_nil, h⟩

theorem Plays.append {first second : List UInt8} (h1 : Plays S dbnum first pre post1)
    (h2 : Plays S dbnum second mid post2)
    (hmid : forall st st', pre st -> post1 st st' -> mid st')
    (hpost : forall st st' st'', pre st -> post1 st st' -> post2 st' st'' -> post st st'') :
    Plays S dbnum (first ++ second) pre post := by
  rcases h1 with ⟨cmds1, rfl, hknown1, hrun1⟩
  rcases h2 with ⟨cmds2, rfl, hknown2, hrun2⟩
  refine ⟨cmds1 ++ cmds2, flatMap_append.symm, ?_, ?_⟩
  · intro argv hargv
    rcases mem_append.mp hargv with hin | hin
    · exact hknown1 argv hin
    · exact hknown2 argv hin
  · intro st hst
    have hfirst := hrun1 st hst
    rw [foldl_append]
    exact hpost st _ _ hst hfirst (hrun2 _ (hmid st _ hst hfirst))

theorem known_rewrite {args : List Sds} {cmd : RewriteCommand}
    (hname : lookupRewrite name = some cmd) (hsized : Sized (name :: args))
    (hcount : args.length < 200) : Known rewriteTable .other (name :: args) := by
  refine ⟨⟨cons_ne_nil _ _, ?_, hsized⟩, ?_⟩
  · rw [length_cons]
    lia
  show rewriteTable name = _
  unfold rewriteTable
  rw [hname]
  rfl

theorem restores_items {width : Nat} {f : raw -> item} (args : item -> List Sds)
    {emit : raw -> List UInt8} (cmd : RewriteCommand) {raws : List raw}
    (hemit : forall x, emit x = (args (f x)).flatMap bulk)
    (hwidth : forall x, (args x).length = width) (hsmall : width ≤ 2) (hne : raws ≠ [])
    (hname : lookupRewrite name = some cmd) (hkey : Sized [name, key])
    (hargs : forall x, x ∈ raws -> Sized (args (f x)))
    (hstep : forall (st : Replaying S dbnum) acc b rest, raws.map f = acc ++ (b ++ rest) ->
      b ≠ [] -> (st.dbs st.db).dict key = growing build acc ->
      replayCommand st (name :: key :: b.flatMap args) =
        st.update fun db => db.set key (build (acc ++ b))) :
    Restores S dbnum (rewriteItems name key width emit 0 raws.length raws) key
      (build (raws.map f)) := by
  have hlen : raws.length = (raws.map f).length := by rw [length_map]
  have hmap : rewriteItems name key width emit 0 raws.length raws =
      rewriteItems name key width (fun y => (args y).flatMap bulk) 0 raws.length (raws.map f) :=
    rewriteItems_map name key width f hemit raws 0 raws.length
  rw [hmap, hlen]
  generalize hxs : raws.map f = xs at hstep ⊢
  have hne' : xs ≠ [] := by
    rw [← hxs]
    exact fun hnil => hne (map_eq_nil_iff.mp hnil)
  have hargs' : forall x, x ∈ xs -> Sized (args x) := by
    rw [← hxs]
    intro x hx
    rcases mem_map.mp hx with ⟨y, hy, rfl⟩
    exact hargs y hy
  rcases rewriteItems_batches name key (fun _ => rfl) hwidth xs with ⟨bs, hflat, hbs, htext⟩
  refine ⟨_, htext, ?_, ?_⟩
  · intro argv hargv
    rcases mem_map.mp hargv with ⟨b, hb, rfl⟩
    apply known_rewrite hname
    · intro s hs
      rcases mem_cons.mp hs with rfl | hs
      · exact hkey s mem_cons_self
      rcases mem_cons.mp hs with rfl | hs
      · exact hkey s (mem_cons_of_mem _ mem_cons_self)
      rcases mem_flatMap.mp hs with ⟨x, hx, hs⟩
      have hin : x ∈ xs := by
        rw [← hflat]
        exact mem_flatten.mpr ⟨b, hb, hx⟩
      exact hargs' x hin s hs
    · have hle := (hbs b hb).right
      unfold AOF_REWRITE_ITEMS_PER_CMD at hle
      rw [length_cons, flatMap_args_length hwidth]
      have hmul : b.length * width ≤ 64 * 2 := Nat.mul_le_mul hle hsmall
      lia
  · intro st hfresh
    have hbsne : bs ≠ [] := by
      intro hnil
      subst hnil
      exact hne' hflat.symm
    have hxs' : xs = [] ++ bs.flatten := hflat.symm
    exact replay_batches hstep (fun b hb => (hbs b hb).left) hbsne hxs' hfresh.left

theorem signed_range {v : Int} (h : SignedIn 8 v) : Util.LLONG_MIN ≤ v ∧ v ≤ Util.LLONG_MAX := by
  unfold SignedIn at h
  unfold Util.LLONG_MIN Util.LLONG_MAX
  lia

theorem sized_longLong {v : Int} (h : SignedIn 8 v) : (ll2string v).length < 2 ^ 63 :=
  sized_ll2string v (signed_range h)

theorem sized_text {e : ZlEntry} (h : e.Fits) : e.text.length < 2 ^ 63 := by
  cases e with
  | str s => exact h
  | int v => exact sized_longLong h

theorem sized_one (ha : a.length < 2 ^ 63) : Sized [a] := by
  intro s hs
  rw [mem_singleton.mp hs]
  exact ha

theorem sized_two {a b : Sds} (ha : a.length < 2 ^ 63) (hb : b.length < 2 ^ 63) : Sized [a, b] := by
  intro s hs
  rcases mem_cons.mp hs with rfl | hs
  · exact ha
  · exact sized_one hb s hs

/-!
# Strings and lists
-/

theorem restores_string (hkey : key.length < 2 ^ 63) {o : StringObject} (ho : o.Wf) :
    Restores S dbnum (setCmd ++ rioWriteBulkString key ++ rioWriteBulkObject o) key
      (.string o.text) := by
  have hvalue : rioWriteBulkObject o = bulk o.text ∧ o.text.length < 2 ^ 63 := by
    cases o with
    | sds s => exact ⟨rioWriteBulkString_eq s, ho⟩
    | int v => exact ⟨rioWriteBulkString_eq _, sized_longLong ho⟩
  have hcmd : setCmd = rioWriteBulkCount 42 3 ++ rioWriteBulkString setName := by decide
  refine ⟨[[setName, key, o.text]], ?_, ?_, ?_⟩
  · rw [flatMap_singleton, ← command_text setName [key, o.text] 3 rfl, hcmd, hvalue.left,
      rioWriteBulkString_eq key]
    simp [append_assoc]
  · intro argv hargv
    rw [mem_singleton.mp hargv]
    refine known_rewrite (show lookupRewrite setName = some .set from rfl) ?_ (by simp)
    intro s hs
    rcases mem_cons.mp hs with rfl | hs
    · decide
    · exact sized_two hkey hvalue.right s hs
  · intro st hfresh
    change (st.update fun db => setPlain db key o.text) = _
    refine update_congr st ?_
    unfold setPlain
    apply TypedDb.ext
    · rfl
    funext k
    by_cases hk : k = key
    · rw [hk]
      exact (if_pos rfl).trans hfresh.right.symm
    · exact if_neg hk

theorem restores_list (hkey : key.length < 2 ^ 63) {o : ListObject} (ho : o.Wf) :
    Restores S dbnum (rewriteListObject key o) key (.list (o.nodes.flatten.map ZlEntry.text)) := by
  unfold rewriteListObject
  rw [ho.count]
  apply restores_items (fun s => [s]) .rpush
  · intro e
    rw [rioWriteZlEntry_eq, flatMap_singleton]
  · exact fun _ => rfl
  · decide
  · exact ho.nonempty
  · rfl
  · exact sized_two (by decide) hkey
  · exact fun e he => sized_one (sized_text (ho.fits e he))
  · intro st acc b rest _ hb hdict
    rw [flatMap_singleton']
    change (st.update fun db => rpushCommand db key b) = _
    exact update_congr st (rpush_step hb hdict)

/-!
# Sets
-/

theorem intset_isMember {is : Intset} {xs : List Int} (h : Intset.Holds is xs) (s : Sds) :
    (SetObject.intset is).isMember s = decide (s ∈ xs.map ll2string) := by
  have hparse : forall v, v ∈ xs -> string2ll (ll2string v) = some v :=
    fun v hv => string2ll_ll2string (signed_range (h.isLongLong hv))
  simp only [SetObject.isMember]
  cases hs : string2ll s with
  | none =>
    dsimp only
    refine (decide_eq_false ?_).symm
    intro hmem
    rcases mem_map.mp hmem with ⟨v, hv, rfl⟩
    rw [hparse v hv] at hs
    cases hs
  | some v =>
    have htext := ll2string_string2ll hs
    have hsigned : SignedIn 8 v := by
      have hrange := string2ll_range hs
      unfold Util.LLONG_MIN Util.LLONG_MAX at hrange
      unfold SignedIn
      lia
    have hiff : v ∈ xs <-> s ∈ xs.map ll2string := by
      constructor
      · intro hv
        exact mem_map.mpr ⟨v, hv, htext⟩
      intro hmem
      rcases mem_map.mp hmem with ⟨w, hw, rfl⟩
      rw [hparse w hw, Option.some.injEq] at hs
      rw [← hs]
      exact hw
    dsimp only
    rw [h.find hsigned, decide_eq_decide.mpr hiff]
    cases decide (s ∈ xs.map ll2string) <;> rfl

theorem restores_sadd {emit : raw -> List UInt8} {raws : List raw} (f : raw -> Sds)
    (hkey : key.length < 2 ^ 63) (hemit : forall x, emit x = bulk (f x)) (hne : raws ≠ [])
    (hsized : forall x, x ∈ raws -> (f x).length < 2 ^ 63) :
    Restores S dbnum (rewriteItems saddName key 1 emit 0 raws.length raws) key
      (.set fun s => decide (s ∈ raws.map f)) := by
  rw [← builtSet_eq]
  apply restores_items (fun s => [s]) .sadd
  · intro x
    rw [flatMap_singleton, hemit]
  · exact fun _ => rfl
  · decide
  · exact hne
  · rfl
  · exact sized_two (by decide) hkey
  · exact fun x hx => sized_one (hsized x hx)
  · intro st acc b rest _ hb hdict
    rw [flatMap_singleton']
    cases b with
    | nil => exact absurd rfl hb
    | cons e b =>
      change (st.update fun db => saddCommand db key (e :: b)) = _
      exact update_congr st (sadd_step (e :: b) hdict)

theorem restores_set (hkey : key.length < 2 ^ 63) {o : SetObject} (ho : o.Wf) :
    exists bytes, rewriteSetObject key o = some bytes ∧
      Restores S dbnum bytes key (.set o.isMember) := by
  cases o with
  | intset is =>
    rcases ho with ⟨xs, hxs, hne⟩
    have hlen : Intset.intsetLen is = xs.length := hxs.length
    have hwalk := hxs.walk
    refine ⟨rewriteItems saddName key 1 rioWriteBulkLongLong 0 xs.length xs, ?_, ?_⟩
    · simp only [rewriteSetObject, hlen, hwalk, Option.map_some]
    · rw [funext (intset_isMember hxs)]
      exact restores_sadd ll2string hkey (fun v => rioWriteBulkString_eq _) hne
        (fun v hv => sized_longLong (hxs.isLongLong hv))
  | ht used keys =>
    rcases ho with ⟨rfl, _, hsized, hne⟩
    have hset := @restores_sadd S dbnum _ key _ keys id hkey rioWriteBulkString_eq hne hsized
    rw [map_id, ← funext fun s => contains_eq_mem s keys] at hset
    exact ⟨_, rfl, hset⟩

/-!
# Sorted sets and hashes
-/

theorem restores_zadd {emit : raw -> List UInt8} {raws : List raw} (f : raw -> S.Score × Sds)
    (hkey : key.length < 2 ^ 63)
    (hemit : forall x, emit x = bulk (S.format (f x).1) ++ bulk (f x).2) (hne : raws ≠ [])
    (hnodup : (raws.map fun x => (f x).2).Nodup)
    (hsized : forall x, x ∈ raws -> (f x).2.length < 2 ^ 63) :
    Restores S dbnum (rewriteItems zaddName key 2 emit 0 raws.length raws) key
      (.zset fun m => (raws.find? fun x => (f x).2 = m).map fun x => (f x).1) := by
  have hnodup' : ((raws.map f).map Prod.snd).Nodup := by
    rw [map_map]
    exact hnodup
  rw [← builtZset_eq f hnodup']
  apply restores_items (fun x => [S.format x.1, x.2]) .zadd
  · intro x
    rw [hemit]
    simp
  · exact fun _ => rfl
  · exact Nat.le_refl 2
  · exact hne
  · rfl
  · exact sized_two (by decide) hkey
  · exact fun x hx => sized_two (Nat.lt_trans (S.formatSize _) (by decide)) (hsized x hx)
  · intro st acc b rest hsplit hb hdict
    rw [hsplit, ← append_assoc, map_append] at hnodup'
    change (st.update fun db => zaddCommand db key (b.flatMap fun x => [S.format x.1, x.2])) = _
    exact update_congr st (zadd_step hb hnodup'.of_append_left hdict)

theorem ziplistPairs_eq {zllen : Nat} {zl : List (ZlEntry × ZlEntry)}
    (h : zllen = min (zl.length * 2) 65535) : ziplistPairs zllen zl = zl.length := by
  unfold ziplistPairs
  split
  · lia
  · lia

theorem restores_zset (hkey : key.length < 2 ^ 63) {o : ZsetObject S} (ho : o.Wf) :
    exists bytes, rewriteSortedSetObject S key o = some bytes ∧
      Restores S dbnum bytes key (.zset o.score) := by
  cases o with
  | ziplist zllen zl =>
    rcases ho with ⟨hzllen, hwf⟩
    have hemit : forall x : ZlEntry × ZlEntry,
        rioWriteBulkDouble S (zzlGetScore S x.2) ++ rioWriteZlEntry x.1 =
          bulk (S.format (zzlGetScore S x.2)) ++ bulk x.1.text := by
      intro x
      rw [rioWriteBulkDouble, rioWriteBulkString_eq, rioWriteZlEntry_eq]
    have hzadd := @restores_zadd S dbnum _ key _ zl
      (fun x : ZlEntry × ZlEntry => (zzlGetScore S x.2, x.1.text)) hkey hemit hwf.nonempty
      hwf.nodup (fun x hx => sized_text (hwf.fits x hx))
    rw [← ziplistPairs_eq hzllen] at hzadd
    cases zl with
    | nil => exact absurd rfl hwf.nonempty
    | cons e zl => exact ⟨_, rfl, hzadd⟩
  | skiplist length dict =>
    rcases ho with ⟨rfl, hwf⟩
    have hemit : forall x : Sds × S.Score, rioWriteBulkDouble S x.2 ++ rioWriteBulkString x.1 =
          bulk (S.format x.2) ++ bulk x.1 := by
      intro x
      rw [rioWriteBulkDouble, rioWriteBulkString_eq, rioWriteBulkString_eq]
    exact ⟨_, rfl, restores_zadd (fun x : Sds × S.Score => (x.2, x.1)) hkey hemit hwf.nonempty
      hwf.nodup hwf.fits⟩

theorem restores_hmset {emit : raw -> List UInt8} {raws : List raw} (f : raw -> Sds × Sds)
    (hkey : key.length < 2 ^ 63) (hemit : forall x, emit x = bulk (f x).1 ++ bulk (f x).2)
    (hne : raws ≠ []) (hnodup : (raws.map fun x => (f x).1).Nodup)
    (hsized : forall x, x ∈ raws -> (f x).1.length < 2 ^ 63 ∧ (f x).2.length < 2 ^ 63) :
    Restores S dbnum (rewriteItems hmsetName key 2 emit 0 raws.length raws) key
      (.hash fun m => (raws.find? fun x => (f x).1 = m).map fun x => (f x).2) := by
  have hnodup' : ((raws.map f).map Prod.fst).Nodup := by
    rw [map_map]
    exact hnodup
  rw [← builtHash_eq f hnodup']
  apply restores_items (fun x => [x.1, x.2]) .hmset
  · intro x
    rw [hemit]
    simp
  · exact fun _ => rfl
  · exact Nat.le_refl 2
  · exact hne
  · rfl
  · exact sized_two (by decide) hkey
  · exact fun x hx => sized_two (hsized x hx).left (hsized x hx).right
  · intro st acc b rest _ _ hdict
    change (st.update fun db => hsetCommand db key (b.flatMap fun x => [x.1, x.2])) = _
    exact update_congr st (hset_step b hdict)

theorem restores_hash (hkey : key.length < 2 ^ 63) {o : HashObject} (ho : o.Wf) :
    Restores S dbnum (rewriteHashObject key o) key (.hash o.field) := by
  cases o with
  | ziplist zllen zl =>
    rcases ho with ⟨hzllen, hwf⟩
    have hemit : forall x : ZlEntry × ZlEntry,
        rioWriteZlEntry x.1 ++ rioWriteZlEntry x.2 = bulk x.1.text ++ bulk x.2.text := by
      intro x
      rw [rioWriteZlEntry_eq, rioWriteZlEntry_eq]
    simp only [rewriteHashObject, ziplistPairs_eq hzllen]
    exact restores_hmset (fun x : ZlEntry × ZlEntry => (x.1.text, x.2.text)) hkey hemit
      hwf.nonempty hwf.nodup
      (fun x hx => ⟨sized_text (hwf.fits x hx).left, sized_text (hwf.fits x hx).right⟩)
  | ht used dict =>
    rcases ho with ⟨rfl, hwf⟩
    have hemit : forall x : Sds × Sds,
        rioWriteBulkString x.1 ++ rioWriteBulkString x.2 = bulk x.1 ++ bulk x.2 := by
      intro x
      rw [rioWriteBulkString_eq, rioWriteBulkString_eq]
    exact restores_hmset id hkey hemit hwf.nonempty hwf.nodup hwf.fits

theorem restores_object (hkey : key.length < 2 ^ 63) {o : Object S} (ho : o.Wf) :
    exists bytes, rewriteObject S key o = some bytes ∧ Restores S dbnum bytes key o.typed := by
  cases o with
  | string o => exact ⟨_, rfl, restores_string hkey ho⟩
  | list o => exact ⟨_, rfl, restores_list hkey ho⟩
  | set o => exact restores_set hkey ho
  | zset o => exact restores_zset hkey ho
  | hash o => exact ⟨_, rfl, restores_hash hkey ho⟩

/-!
# The keys of a database
-/

def TypedDb.place (db : TypedDb S) (key : Sds) (o : Typed S) (t : Option Int) : TypedDb S :=
  { dict := fun k => if k = key then some o else db.dict k
    expires := fun k => if k = key then t else db.expires k }

open TypedDb

theorem place_none (o : Typed S) (h : Fresh db key) : db.set key o = db.place key o none := by
  apply TypedDb.ext
  · rfl
  funext k
  by_cases hk : k = key
  · rw [hk]
    exact h.right.trans (if_pos rfl).symm
  · exact (if_neg hk).symm

theorem plays_pexpireat (hkey : key.length < 2 ^ 63) {t : Int} (ht : SignedIn 8 t) (o : Typed S) :
    Plays S dbnum (pexpireatCmd ++ rioWriteBulkString key ++ rioWriteBulkLongLong t)
      (fun st => (st.dbs st.db).dict key = some o)
      (fun st st' => st' = st.update fun db =>
        { db with expires := fun k => if k = key then some t else db.expires k }) := by
  have hcmd : pexpireatCmd = rioWriteBulkCount 42 3 ++ rioWriteBulkString pexpireatName := by decide
  refine ⟨[[pexpireatName, key, ll2string t]], ?_, ?_, ?_⟩
  · rw [flatMap_singleton, ← command_text pexpireatName [key, ll2string t] 3 rfl, hcmd,
      rioWriteBulkLongLong, rioWriteBulkString_eq key, rioWriteBulkString_eq (ll2string t)]
    simp [append_assoc]
  · intro argv hargv
    rw [mem_singleton.mp hargv]
    refine known_rewrite (show lookupRewrite pexpireatName = some .pexpireat from rfl) ?_ (by simp)
    intro s hs
    rcases mem_cons.mp hs with rfl | hs
    · decide
    · exact sized_two hkey (sized_longLong ht) s hs
  · intro st hdict
    change (st.update fun db => pexpireatCommand db key (ll2string t)) = _
    refine update_congr st ?_
    simp only [pexpireatCommand, string2ll_ll2string (signed_range ht), hdict]

variable (dbnum) in
theorem plays_entry {db : AofDb S} (e : AofEntry S)
    (hfuture : forall t, db.expires e.key = some t -> 0 < t) :
    exists bytes, rewriteEntry db e = some bytes ∧
      Plays S dbnum bytes (fun st => Fresh (st.dbs st.db) e.key)
        (fun st st' => st' = st.update fun d =>
          d.place e.key e.val.typed (db.expires e.key)) := by
  rcases @restores_object S dbnum e.key e.keySize e.val e.wf with ⟨bytes, hbytes, hrestores⟩
  refine ⟨_, by rw [rewriteEntry, hbytes]; rfl, ?_⟩
  cases hexpire : db.expires e.key with
  | none =>
    have hget : db.getExpire e.key = -1 := by
      unfold AofDb.getExpire
      rw [hexpire]
      rfl
    rw [hget]
    have hnil : Plays S dbnum [] (fun _ => True) (fun st st' => st' = st) :=
      Plays.nil (fun _ _ => rfl)
    refine hrestores.append hnil (fun _ _ _ _ => trivial) ?_
    intro st st' st'' hfresh hst' hst''
    rw [hst'', hst']
    exact update_congr st (place_none e.val.typed hfresh)
  | some t =>
    have hget : db.getExpire e.key = t := by
      unfold AofDb.getExpire
      rw [hexpire]
      rfl
    have ht := hfuture t hexpire
    rw [hget, rewriteExpire, if_pos (by lia)]
    refine hrestores.append
      (plays_pexpireat e.keySize (db.isLongLong e.key t hexpire) e.val.typed) ?_ ?_
    · intro st st' _ hst'
      rw [hst', update_selected, set_self]
    · intro st st' st'' _ hst' hst''
      rw [hst'', hst', update_update]
      rfl

def placeAll (db : AofDb S) (es : List (AofEntry S)) (d : TypedDb S) : TypedDb S :=
  es.foldl (fun d e => d.place e.key e.val.typed (db.expires e.key)) d

def TypedDb.get (db : TypedDb S) (key : Sds) : Option (Typed S) × Option Int :=
  (db.dict key, db.expires key)

theorem place_frames (db : AofDb S) :
    Fill.Frames AofEntry.key
      (fun (d : TypedDb S) e => d.place e.key e.val.typed (db.expires e.key)) get := by
  intro d e k hk
  exact Prod.ext (if_neg hk) (if_neg hk)

theorem fresh_iff (d : TypedDb S) (key : Sds) : Fresh d key <-> d.get key = (none, none) :=
  Prod.mk_inj.symm

variable (dbnum) in
theorem plays_entries {db : AofDb S} {es : List (AofEntry S)} (hnodup : (es.map AofEntry.key).Nodup)
    (hfuture : forall e t, e ∈ es -> db.expires e.key = some t -> 0 < t) :
    exists bytes, writeAll (es.map (rewriteEntry db)) = some bytes ∧
      Plays S dbnum bytes (fun st => forall e, e ∈ es -> Fresh (st.dbs st.db) e.key)
        (fun st st' => st' = st.update (placeAll db es)) := by
  induction es with
  | nil => exact ⟨[], rfl, Plays.nil (fun st _ => (update_id st).symm)⟩
  | cons e es ih =>
    rw [map_cons, nodup_cons] at hnodup
    rcases ih hnodup.right (fun e' t he' => hfuture e' t (mem_cons_of_mem e he')) with
      ⟨rest, hrest, hplays⟩
    rcases plays_entry dbnum e (fun t => hfuture e t mem_cons_self) with ⟨bytes, hbytes, hentry⟩
    refine ⟨bytes ++ rest, ?_, ?_⟩
    · unfold writeAll at hrest ⊢
      rw [map_cons, foldr_cons, hbytes, hrest]
      rfl
    rcases hentry with ⟨cmds, htext, hknown, hrun⟩
    have hentry' : Plays S dbnum bytes
        (fun st => forall e', e' ∈ e :: es -> Fresh (st.dbs st.db) e'.key)
        (fun st st' => st' = st.update fun d =>
          d.place e.key e.val.typed (db.expires e.key)) :=
      ⟨cmds, htext, hknown, fun st hst => hrun st (hst e mem_cons_self)⟩
    refine hentry'.append hplays ?_ ?_
    · intro st st' hst hst' e' he'
      have hne : e'.key ≠ e.key := by
        intro heq
        exact hnodup.left (heq ▸ mem_map_of_mem he')
      have hfresh := hst e' (mem_cons_of_mem e he')
      rw [hst', update_selected, fresh_iff, place_frames db _ e _ hne, ← fresh_iff]
      exact hfresh
    · intro st st' st'' _ hst' hst''
      rw [hst'', hst', update_update]
      rfl

/-!
# The databases
-/

theorem placeAll_empty (db : AofDb S) : placeAll db db.dict (TypedDb.empty S) = db.typed := by
  have hget : forall k, (placeAll db db.dict (TypedDb.empty S)).get k =
      ((db.dict.find? fun e => e.key = k).map fun e =>
        (some e.val.typed, db.expires e.key)).getD (none, none) := by
    intro k
    refine Fill.foldl_blank (place_frames db) ?_ db.nodup (TypedDb.empty S) (fun _ => rfl) k
    intro d e _
    exact Prod.ext (if_pos rfl) (if_pos rfl)
  have hread : forall k, (placeAll db db.dict (TypedDb.empty S)).get k = db.typed.get k := by
    intro k
    rw [hget k]
    unfold AofDb.typed TypedDb.get
    cases hfind : db.dict.find? fun e => e.key = k with
    | none =>
      have hexpire : db.expires k = none := by
        cases ht : db.expires k with
        | none => rfl
        | some t =>
          rcases db.expiresKey k t ht with ⟨e, he, hk⟩
          exact absurd hk (by simpa using List.find?_eq_none.mp hfind e he)
      simp only [hfind, hexpire, Option.map_none, Option.getD_none]
    | some e =>
      have hk : e.key = k := by simpa using List.find?_some hfind
      simp only [hfind, hk, Option.map_some, Option.getD_some]
  apply TypedDb.ext
  · funext k
    exact congrArg Prod.fst (hread k)
  · funext k
    exact congrArg Prod.snd (hread k)

variable (S) in
theorem plays_select (j : Fin dbnum) (hn : dbnum < 2 ^ 31) :
    Plays S dbnum (selectCmd ++ rioWriteBulkLongLong (j.val : Int)) (fun _ => True)
      (fun st st' => st' = { st with db := j }) := by
  have hj := j.isLt
  have hcmd : selectCmd = rioWriteBulkCount 42 2 ++ rioWriteBulkString selectName := by decide
  refine ⟨[[selectName, ll2string (j.val : Int)]], ?_, ?_, ?_⟩
  · rw [flatMap_singleton,
      ← command_text selectName [ll2string (j.val : Int)] 2 rfl, hcmd, rioWriteBulkLongLong,
      rioWriteBulkString_eq (ll2string (j.val : Int))]
    simp [append_assoc]
  · intro argv hargv
    rw [mem_singleton.mp hargv]
    refine known_rewrite (show lookupRewrite selectName = some .select from rfl) ?_ (by simp)
    exact sized_two (by decide) (sized_longLong (by unfold SignedIn; lia))
  · intro st _
    change ({ st with db := selectDb st.db (ll2string (j.val : Int)) } : Replaying S dbnum) = _
    rw [selectDb_ll2string st.db j hn]

theorem plays_db (ds : AofDataset S dbnum) (j : Fin dbnum) :
    exists bytes, rewriteDb j.val (ds.dbs j) = some bytes ∧
      Plays S dbnum bytes (fun st => st.dbs j = empty S)
        (fun st st' => st'.dbs = fun i => if i = j then (ds.dbs j).typed else st.dbs i) := by
  unfold rewriteDb
  by_cases hempty : (ds.dbs j).dict.length = 0
  · rw [if_pos hempty]
    refine ⟨[], rfl, Plays.nil ?_⟩
    intro st hst
    have htyped : (ds.dbs j).typed = empty S := by
      rw [← placeAll_empty, eq_nil_of_length_eq_zero hempty]
      rfl
    funext i
    by_cases hi : i = j
    · rw [if_pos hi, hi, hst, htyped]
    · rw [if_neg hi]
  · rw [if_neg hempty]
    have hfuture : forall e t, e ∈ (ds.dbs j).dict -> (ds.dbs j).expires e.key = some t -> 0 < t := by
      intro e t _ ht
      have hlater := ds.future j e.key t ht
      lia
    rcases plays_entries dbnum (ds.dbs j).nodup hfuture with ⟨bytes, hbytes, hplays⟩
    rw [hbytes]
    refine ⟨_, rfl, ?_⟩
    rcases plays_select S j ds.isInt with ⟨cmds, htext, hknown, hrun⟩
    have hselect : Plays S dbnum (selectCmd ++ rioWriteBulkLongLong (j.val : Int))
        (fun st => st.dbs j = empty S) (fun st st' => st' = { st with db := j }) :=
      ⟨cmds, htext, hknown, fun st _ => hrun st trivial⟩
    refine hselect.append hplays ?_ ?_
    · intro st st' hst hst' e _
      rw [hst']
      change Fresh (st.dbs j) e.key
      rw [hst]
      exact ⟨rfl, rfl⟩
    · intro st st' st'' hst hst' hst''
      rw [hst'', hst']
      funext i
      change (if i = j then placeAll (ds.dbs j) (ds.dbs j).dict (st.dbs i) else st.dbs i) = _
      by_cases hi : i = j
      · rw [if_pos hi, if_pos hi, hi, hst, placeAll_empty]
      · rw [if_neg hi, if_neg hi]

theorem plays_dbs (ds : AofDataset S dbnum) {js : List (Fin dbnum)} (hnodup : js.Nodup) :
    exists bytes, writeAll (js.map fun j => rewriteDb j.val (ds.dbs j)) = some bytes ∧
      Plays S dbnum bytes (fun st => forall j, j ∈ js -> st.dbs j = empty S)
        (fun st st' => st'.dbs = fun i => if i ∈ js then (ds.dbs i).typed else st.dbs i) := by
  induction js with
  | nil => exact ⟨[], rfl, Plays.nil (fun st _ => by simp)⟩
  | cons j js ih =>
    rw [nodup_cons] at hnodup
    rcases ih hnodup.right with ⟨rest, hrest, hplays⟩
    rcases plays_db ds j with ⟨bytes, hbytes, cmds, htext, hknown, hrun⟩
    refine ⟨bytes ++ rest, ?_, ?_⟩
    · unfold writeAll at hrest ⊢
      rw [map_cons, foldr_cons, hbytes, hrest]
      rfl
    have hdb : Plays S dbnum bytes (fun st => forall j', j' ∈ j :: js -> st.dbs j' = empty S)
        (fun st st' => st'.dbs = fun i => if i = j then (ds.dbs j).typed else st.dbs i) :=
      ⟨cmds, htext, hknown, fun st hst => hrun st (hst j mem_cons_self)⟩
    refine hdb.append hplays ?_ ?_
    · intro st st' hst hst' j' hj'
      have hne : j' ≠ j := fun heq => hnodup.left (heq ▸ hj')
      rw [hst']
      exact (if_neg hne).trans (hst j' (mem_cons_of_mem j hj'))
    · intro st st' st'' _ hst' hst''
      rw [hst'', hst']
      funext i
      by_cases hi : i = j
      · subst hi
        simp [hnodup.left]
      · simp [hi]

end Replay

/-!
# Integer scores
-/

theorem string2ll_of_first {c : UInt8} {s : Sds} (hzero : c ≠ 48) (hminus : c ≠ 45)
    (hdigit : (49 ≤ c.toNat && c.toNat ≤ 57) = false) : string2ll (c :: s) = none := by
  have hnone : string2llUnsigned (c :: s) = none := if_neg (by simp [hdigit])
  unfold string2ll
  rw [if_neg (fun h => hzero (cons.inj h).left)]
  split
  · exact absurd (cons.inj ‹_›).left hminus
  · rw [hnone]

theorem tolower_letter (c : UInt8) (h : tolower c ∈ ([110, 120, 99, 105] : Sds)) :
    c ≠ 48 ∧ c ≠ 45 ∧ (49 ≤ c.toNat && c.toNat ≤ 57) = false := by
  revert c
  decide +kernel

theorem string2ll_of_option {s option : Sds} {l : UInt8} (hl : l ∈ ([110, 120, 99, 105] : Sds))
    (h : strcasecmpEq s (l :: option) = true) : string2ll s = none := by
  have hletters : forall l, l ∈ ([110, 120, 99, 105] : Sds) ->
      (l != 0) = true ∧ tolower l = l := by decide +kernel
  cases s with
  | nil => rfl
  | cons c s =>
    unfold strcasecmpEq at h
    by_cases hc : (c != 0) = true
    · rw [takeWhile_cons_of_pos (p := (· != 0)) hc,
        takeWhile_cons_of_pos (p := (· != 0)) (hletters l hl).left, map_cons, map_cons,
        beq_iff_eq] at h
      have hmem : tolower c ∈ ([110, 120, 99, 105] : Sds) := by
        rw [(cons.inj h).left, (hletters l hl).right]
        exact hl
      rcases tolower_letter c hmem with ⟨hzero, hminus, hdigit⟩
      exact string2ll_of_first hzero hminus hdigit
    · have hzero : c = 0 := by simpa using hc
      subst hzero
      rfl

/-- The scores that are integers of a `long long`. -/
def int64Scores : Scores where
  Score := { v : Int // LLONG_MIN ≤ v ∧ v ≤ LLONG_MAX }
  format x := ll2string x.val
  parse s := (string2ll s).pmap Subtype.mk fun _ => string2ll_range
  strtod s := ⟨wrap64 ((string2ll s).getD 0), wrap64_range _⟩
  ofInt v := ⟨wrap64 v, wrap64_range v⟩
  add x y :=
    if h : LLONG_MIN ≤ x.val + y.val ∧ x.val + y.val ≤ LLONG_MAX then some ⟨_, h⟩ else none
  ne x y := x.val != y.val
  roundTrip x := by
    simp [string2ll_ll2string x.property]
  formatSize x := Nat.lt_of_le_of_lt (ll2string_length x.val x.property) (by decide)
  optionNoScore s h := by
    rw [Option.pmap_eq_none_iff]
    simp only [Bool.or_eq_true, or_assoc] at h
    rcases h with h | h | h | h
    · exact string2ll_of_option (by decide) h
    · exact string2ll_of_option (by decide) h
    · exact string2ll_of_option (by decide) h
    · exact string2ll_of_option (by decide) h

/-!
# The snapshot
-/

def longListAndZset : AofDb int64Scores where
  dict := [
    ⟨[108], .list ⟨70, [(range 40).map fun i => .int (i : Nat),
      (range 30).map fun i => .str [97, UInt8.ofNat i]]⟩,
      by decide, rfl, by decide +kernel, by decide⟩,
    ⟨[122], .zset (.ziplist 140 ((range 70).map fun i => (.int (i : Nat), .int (2 * i : Nat)))),
      by decide, by decide, by decide +kernel, by decide +kernel, by decide⟩]
  expires k := if k = [108] then some 5000 else none
  nodup := by decide
  expiresKey k t h := by
    rw [Option.ite_none_right_eq_some] at h
    exact ⟨_, mem_cons_self, h.left.symm⟩
  isLongLong k t h := by
    rw [Option.ite_none_right_eq_some] at h
    cases h.right
    exact ⟨by decide, by decide⟩

def longDataset : AofDataset int64Scores 1 where
  dbs _ := longListAndZset
  isInt := by decide
  mstime := 1000
  future _ k t h := by
    have h' : (if k = [108] then some (5000 : Int) else none) = some t := h
    rw [Option.ite_none_right_eq_some] at h'
    cases h'.right
    decide

end Aof
end Redisoo
