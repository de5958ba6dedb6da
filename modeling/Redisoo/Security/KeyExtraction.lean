import Redisoo.Commands
import Redisoo.Persistence.AofRead

/-!
# Key extraction

`SORT`, `ZUNIONSTORE`, `ZINTERSTORE` and `STRALGO LCS` have keys at positions that depend on
their options.  Each of them is parsed twice: by the command, and by the procedure that
`getKeysFromCommand` calls for the checks of access control and of the cluster slots.
Arguments are named by their position in `argv`.
-/

namespace Redisoo
namespace KeySpecs

open Foundation Option
open Foundation.Stdio List

/-!
# Words
-/

def spelled {W : Type} (words : List (Sds × W)) (other : W) (arg : Sds) : W :=
  ((words.find? fun word => strcasecmpEq arg word.1).map Prod.snd).getD other

inductive SortWord where
  | asc
  | desc
  | alpha
  | limit
  | store
  | byPattern
  | getPattern
  | other
  deriving DecidableEq

def sortWords : List (Sds × SortWord) :=
  [([97, 115, 99], .asc), ([100, 101, 115, 99], .desc), ([97, 108, 112, 104, 97], .alpha),
    ([108, 105, 109, 105, 116], .limit), ([115, 116, 111, 114, 101], .store),
    ([98, 121], .byPattern), ([103, 101, 116], .getPattern)]

def sortWord (arg : Sds) : SortWord := spelled sortWords .other arg

inductive ZWord where
  | weights
  | aggregate
  | other
  deriving DecidableEq

def zWord (arg : Sds) : ZWord :=
  spelled [([119, 101, 105, 103, 104, 116, 115], .weights),
    ([97, 103, 103, 114, 101, 103, 97, 116, 101], .aggregate)] .other arg

inductive Aggregate where
  | sum
  | min
  | max
  deriving DecidableEq

def aggregateWord (arg : Sds) : Option Aggregate :=
  spelled [([115, 117, 109], some .sum), ([109, 105, 110], some .min),
    ([109, 97, 120], some .max)] none arg

inductive LcsWord where
  | idx
  | len
  | withmatchlen
  | minmatchlen
  | strings
  | keys
  | other
  deriving DecidableEq

def lcsWords : List (Sds × LcsWord) :=
  [([73, 68, 88], .idx), ([76, 69, 78], .len),
    ([87, 73, 84, 72, 77, 65, 84, 67, 72, 76, 69, 78], .withmatchlen),
    ([77, 73, 78, 77, 65, 84, 67, 72, 76, 69, 78], .minmatchlen),
    ([83, 84, 82, 73, 78, 71, 83], .strings), ([75, 69, 89, 83], .keys)]

def lcsWord (arg : Sds) : LcsWord := spelled lcsWords .other arg

/-!
# The extractors
-/

inductive Hit where
  | skip (n : Nat)
  | store
  | nothing

def skiplist : List (SortWord × Nat) :=
  [(.limit, 2), (.getPattern, 1), (.byPattern, 1)]

def skiplistLoop (word : SortWord) (more : Bool) : List (SortWord × Nat) -> Hit
  | [] => .nothing
  | (name, n) :: rest =>
    if word = name then .skip n
    else if word = .store && more then .store
    else skiplistLoop word more rest

def sortKeysLoop : Nat -> Nat -> List Sds -> Option Nat -> Option Nat
  | _, _, [], store => store
  | i, skip + 1, _ :: rest, store => sortKeysLoop (i + 1) skip rest store
  | i, 0, arg :: rest, store =>
    match skiplistLoop (sortWord arg) (!rest.isEmpty) skiplist with
    | .skip n => sortKeysLoop (i + 1) n rest store
    | .store => sortKeysLoop (i + 1) 0 rest (some (i + 1))
    | .nothing => sortKeysLoop (i + 1) 0 rest store

def sortGetKeys (argv : List Sds) : List Nat :=
  1 :: (sortKeysLoop 2 0 (argv.drop 2) none).toList

def zunionInterGetKeys (argv : List Sds) : List Nat :=
  let num := Aof.atoi (argv.getD 2 [])
  if num < 1 ∨ num > argv.length - 3 then []
  else (List.range num.toNat).map (3 + ·) ++ [1]

def lcsKeysLoop : Nat -> List Sds -> List Nat
  | _, [] => []
  | i, arg :: rest =>
    if lcsWord arg = .strings then []
    else if lcsWord arg = .keys && 2 ≤ rest.length then [i + 1, i + 2]
    else lcsKeysLoop (i + 1) rest

def lcsGetKeys (argv : List Sds) : List Nat :=
  lcsKeysLoop 1 (argv.drop 1)

inductive KeyCommand where
  | sort
  | zunionstore
  | zinterstore
  | stralgo
  deriving DecidableEq

/-- The four rows of the command table have a `getkeys_proc` and no module flag. -/
def getKeysFromCommand : KeyCommand -> List Sds -> List Nat
  | .sort, argv => sortGetKeys argv
  | .zunionstore, argv => zunionInterGetKeys argv
  | .zinterstore, argv => zunionInterGetKeys argv
  | .stralgo, argv => lcsGetKeys argv

/-!
# The commands
-/

def syntaxerr : String := "syntax error"

def notInteger : String := "value is not an integer or out of range"

/-- A `long` has the range of a `long long`. -/
def getLongFromObjectOrReply (arg : Sds) : Except String Int :=
  match Util.string2ll arg with
  | some value => .ok value
  | none => .error notInteger

structure SortOptions where
  desc : Bool
  alpha : Bool
  limitStart : Int
  limitCount : Int
  sortby : Option Nat
  dontsort : Bool
  operations : List Nat
  storekey : Option Nat

def sortOptions (clusterEnabled : Bool) :
    Nat -> List Sds -> SortOptions -> Except String SortOptions
  | _, [], o => .ok o
  | j, arg :: rest, o =>
    match sortWord arg, rest with
    | .asc, rest => sortOptions clusterEnabled (j + 1) rest { o with desc := false }
    | .desc, rest => sortOptions clusterEnabled (j + 1) rest { o with desc := true }
    | .alpha, rest => sortOptions clusterEnabled (j + 1) rest { o with alpha := true }
    | .limit, start :: count :: rest => do
        let limitStart <- getLongFromObjectOrReply start
        let limitCount <- getLongFromObjectOrReply count
        sortOptions clusterEnabled (j + 3) rest
          { o with limitStart := limitStart, limitCount := limitCount }
    | .store, _ :: rest =>
      sortOptions clusterEnabled (j + 2) rest { o with storekey := some (j + 1) }
    | .byPattern, pattern :: rest =>
      if strchr 42 pattern = none then
        sortOptions clusterEnabled (j + 2) rest
          { o with sortby := some (j + 1), dontsort := true }
      else if clusterEnabled then .error "BY option of SORT denied in Cluster mode."
      else sortOptions clusterEnabled (j + 2) rest { o with sortby := some (j + 1) }
    | .getPattern, _ :: rest =>
      if clusterEnabled then .error "GET option of SORT denied in Cluster mode."
      else
        sortOptions clusterEnabled (j + 2) rest
          { o with operations := o.operations ++ [j + 1] }
    | _, _ => .error syntaxerr

def sortDefaults : SortOptions :=
  { desc := false, alpha := false, limitStart := 0, limitCount := -1, sortby := none,
    dontsort := false, operations := [], storekey := none }

def sortCommandOptions (clusterEnabled : Bool) (argv : List Sds) : Except String SortOptions :=
  sortOptions clusterEnabled 2 (argv.drop 2) sortDefaults

structure ZOptions (F : Type) where
  weights : List F
  aggregate : Aggregate

variable {F : Type} (getDouble : Sds -> Option F)

/-- The options of `zunionInterGenericCommand`, with the weights still to be read. -/
def zOptions (setnum : Nat) : Nat -> List Sds -> ZOptions F -> Except String (ZOptions F)
  | _, [], o => .ok o
  | left + 1, arg :: rest, o =>
    match getDouble arg with
    | none => .error "weight value is not a float"
    | some weight =>
      zOptions setnum left rest { o with weights := o.weights.set (setnum - (left + 1)) weight }
  | 0, arg :: rest, o =>
    match zWord arg, rest with
    | .weights, rest =>
      if setnum ≤ rest.length then zOptions setnum setnum rest o else .error syntaxerr
    | .aggregate, word :: rest =>
      match aggregateWord word with
      | some aggregate => zOptions setnum 0 rest { o with aggregate := aggregate }
      | none => .error syntaxerr
    | _, _ => .error syntaxerr

def zunionInterArguments (one : F) (argv : List Sds) : Except String (Nat × ZOptions F) :=
  do
    let setnum <- getLongFromObjectOrReply (argv.getD 2 [])
    if setnum < 1 then
      .error "at least 1 input key is needed for ZUNIONSTORE/ZINTERSTORE"
    else if setnum > argv.length - 3 then .error syntaxerr
    else
      let o <- zOptions getDouble setnum.toNat 0 (argv.drop (3 + setnum.toNat))
        { weights := List.replicate setnum.toNat one, aggregate := .sum }
      return (setnum.toNat, o)

inductive LcsSource where
  | strings (i : Nat)
  | keys (i : Nat)

structure LcsOptions where
  minmatchlen : Int
  getlen : Bool
  getidx : Bool
  withmatchlen : Bool
  source : Option LcsSource

def lcsOptions : Nat -> List Sds -> LcsOptions -> Except String LcsOptions
  | _, [], o => .ok o
  | j, arg :: rest, o =>
    match lcsWord arg, rest with
    | .idx, rest => lcsOptions (j + 1) rest { o with getidx := true }
    | .len, rest => lcsOptions (j + 1) rest { o with getlen := true }
    | .withmatchlen, rest => lcsOptions (j + 1) rest { o with withmatchlen := true }
    | .minmatchlen, len :: rest => do
        let minmatchlen <- getLongFromObjectOrReply len
        lcsOptions (j + 2) rest { o with minmatchlen := max minmatchlen 0 }
    | .strings, _ :: _ :: rest =>
      if o.source.isSome then .error "Either use STRINGS or KEYS"
      else lcsOptions (j + 3) rest { o with source := some (.strings (j + 1)) }
    | .keys, _ :: _ :: rest =>
      if o.source.isSome then .error "Either use STRINGS or KEYS"
      else lcsOptions (j + 3) rest { o with source := some (.keys (j + 1)) }
    | _, _ => .error syntaxerr

def lcsDefaults : LcsOptions :=
  { minmatchlen := 0, getlen := false, getidx := false, withmatchlen := false, source := none }

def stralgoArguments (argv : List Sds) : Except String LcsOptions :=
  if strcasecmpEq (argv.getD 1 []) [108, 99, 115] then do
    let o <- lcsOptions 2 (argv.drop 2) lcsDefaults
    if o.source.isNone then
      .error "Please specify two strings: STRINGS or KEYS options are mandatory"
    else if o.getlen && o.getidx then
      .error "If you want both the length and indexes, please just use IDX."
    else .ok o
  else .error syntaxerr

def LcsOptions.keysRead (o : LcsOptions) : List Nat :=
  match o.source with
  | some (.keys i) => [i, i + 1]
  | _ => []

def KeyCommand.minArgc : KeyCommand -> Nat
  | .sort => 2
  | .zunionstore => 4
  | .zinterstore => 4
  | .stralgo => 2

def keysUsed (clusterEnabled : Bool) (one : F) (cmd : KeyCommand) (argv : List Sds) :
    Except String (List Nat) :=
  if argv.length < cmd.minArgc then .error "wrong number of arguments"
  else
    match cmd with
    | .sort => (sortCommandOptions clusterEnabled argv).map fun o => 1 :: o.storekey.toList
    | .zunionstore | .zinterstore =>
      (zunionInterArguments getDouble one argv).map fun z =>
        1 :: (List.range z.1).map (3 + ·)
    | .stralgo => (stralgoArguments argv).map LcsOptions.keysRead

/-!
# A number spells no option
-/

variable {arg s : Sds} {v : Int} {i j p : Nat} {args argv rest : List Sds} {o : LcsOptions}
  {one : F} {z : Nat × ZOptions F}

section

variable (h : Util.string2ll s = some v)
include h

theorem string2ll_head : exists b rest, s = b :: rest ∧ 45 ≤ b.toNat ∧ b.toNat ≤ 57 := by
  rw [← Util.ll2string_string2ll h, Util.ll2string_eq_canonical]
  unfold Util.canonical
  split
  · exact ⟨45, _, rfl, by decide, by decide⟩
  · have hnum := Aof.numeral_decimal v.natAbs
    rcases hnum.head with ⟨b, rest, hcons, _⟩
    have hb := hnum.isDigit b (by rw [hcons]; exact mem_cons_self)
    unfold isDigit at hb
    simp only [Bool.and_eq_true, decide_eq_true_eq] at hb
    exact ⟨b, rest, hcons, by lia, hb.right⟩

theorem strcasecmpEq_number {w : Sds} (hw : 97 ≤ (tolower (byteAt w 0)).toNat) :
    strcasecmpEq s w = false := by
  rcases string2ll_head h with ⟨b, rest, rfl, hlow, hhigh⟩
  have hb : (b != 0) = true := by
    rw [bne_iff_ne]
    rintro rfl
    exact absurd hlow (by decide)
  have hsame : tolower b = b := by
    unfold tolower
    rw [if_neg (by simp only [Bool.and_eq_true, decide_eq_true_eq]; lia)]
  cases w with
  | nil => exact absurd hw (by decide)
  | cons c w =>
    unfold strcasecmpEq
    rw [takeWhile_cons_of_pos (p := (· != 0)) hb, map_cons, hsame]
    by_cases hc : (c != 0) = true
    · rw [takeWhile_cons_of_pos (p := (· != 0)) hc, map_cons, beq_eq_false_iff_ne]
      intro heq
      rw [(List.cons.inj heq).left] at hhigh
      exact absurd hhigh (Nat.not_le.mpr (Nat.lt_of_lt_of_le (by decide) hw))
    · rw [takeWhile_cons_of_neg (p := (· != 0)) hc]
      rfl

theorem spelled_number {W : Type} {words : List (Sds × W)} {other : W}
    (hwords : forall word, word ∈ words -> 97 ≤ (tolower (byteAt word.1 0)).toNat) :
    spelled words other s = other := by
  have hnone : (words.find? fun word => strcasecmpEq s word.1) = none := by
    rw [List.find?_eq_none]
    intro word hword
    rw [strcasecmpEq_number h (hwords word hword)]
    decide
  rw [spelled, hnone]
  rfl

end

theorem getLong_ok (h : getLongFromObjectOrReply s = .ok v) : Util.string2ll s = some v := by
  unfold getLongFromObjectOrReply at h
  split at h
  · cases h
    assumption
  · cases h

theorem bind_ok {A B : Type} {x : Except String A} {f : A -> Except String B} {b : B}
    (h : (x >>= f) = .ok b) : exists a, x = .ok a ∧ f a = .ok b := by
  cases x with
  | error e => cases h
  | ok a => exact ⟨a, rfl, h⟩

theorem map_ok {A B : Type} {x : Except String A} {f : A -> B} {b : B}
    (h : x.map f = .ok b) : exists a, x = .ok a ∧ f a = b := by
  cases x with
  | error e => cases h
  | ok a => exact ⟨a, rfl, Except.ok.inj h⟩

/-!
# The options of SORT
-/

inductive Round (j : Nat) (arg : Sds) (rest : List Sds) (store : Option Nat) :
    Nat -> Option Nat -> Prop
  | flag : sortWord arg = .asc ∨ sortWord arg = .desc ∨ sortWord arg = .alpha ->
      Round j arg rest store 0 store
  | limit {x y : Sds} {tail : List Sds} : sortWord arg = .limit -> rest = x :: y :: tail ->
      Round j arg rest store 2 store
  | pattern {x : Sds} {tail : List Sds} :
      sortWord arg = .byPattern ∨ sortWord arg = .getPattern -> rest = x :: tail ->
      Round j arg rest store 1 store
  | store {x : Sds} {tail : List Sds} : sortWord arg = .store -> rest = x :: tail ->
      Round j arg rest store 1 (some (j + 1))

variable {cluster : Bool} {o' : LcsOptions} {k : Nat}

theorem sortOptions_cons {o o' : SortOptions} (h : sortOptions cluster j (arg :: rest) o = .ok o') :
    exists n o1, sortOptions cluster (j + 1 + n) (rest.drop n) o1 = .ok o' ∧
      Round j arg rest o.storekey n o1.storekey := by
  unfold sortOptions at h
  split at h
  · next hw => exact ⟨0, _, h, .flag (.inl hw)⟩
  · next hw => exact ⟨0, _, h, .flag (.inr (.inl hw))⟩
  · next hw => exact ⟨0, _, h, .flag (.inr (.inr hw))⟩
  · next hw =>
    rcases bind_ok h with ⟨start, _, h⟩
    rcases bind_ok h with ⟨count, _, h⟩
    exact ⟨2, _, h, .limit hw rfl⟩
  · next hw => exact ⟨1, _, h, .store hw rfl⟩
  · next hw =>
    split at h
    · exact ⟨1, _, h, .pattern (.inl hw) rfl⟩
    · split at h
      · cases h
      · exact ⟨1, _, h, .pattern (.inl hw) rfl⟩
  · next hw =>
    split at h
    · cases h
    · exact ⟨1, _, h, .pattern (.inr hw) rfl⟩
  · cases h

theorem words_induction {motive : List Sds -> Prop} (args : List Sds) (nil : motive [])
    (cons : forall arg rest, (forall n, motive (rest.drop n)) -> motive (arg :: rest)) :
    motive args := by
  induction hn : args.length using Nat.strongRecOn generalizing args with
  | ind len ih =>
    cases args with
    | nil => exact nil
    | cons arg rest =>
      refine cons arg rest fun n => ih _ ?_ _ rfl
      rw [← hn, length_drop, length_cons]
      lia

/-!
# The scan of sortGetKeys
-/

def jump : SortWord -> Nat
  | .limit => 2
  | .getPattern => 1
  | .byPattern => 1
  | _ => 0

theorem sortKeysLoop_cons (i : Nat) (arg : Sds) (rest : List Sds) (store : Option Nat) :
    sortKeysLoop i 0 (arg :: rest) store =
      sortKeysLoop (i + 1) (jump (sortWord arg)) rest
        (if (sortWord arg = .store && !rest.isEmpty) = true then some (i + 1) else store) := by
  rw [sortKeysLoop]
  generalize sortWord arg = word
  cases word with
  | store =>
    cases rest with
    | nil => rfl
    | cons x rest => rfl
  | _ => rfl

theorem sortKeysLoop_range {skip q : Nat} {store : Option Nat}
    (h : sortKeysLoop i skip args store = some q) :
    store = some q ∨ (i < q ∧ q < i + args.length) := by
  induction args generalizing i skip store with
  | nil =>
    cases skip with
    | zero => exact .inl h
    | succ skip => exact .inl h
  | cons arg rest ih =>
    rw [length_cons]
    cases skip with
    | succ skip =>
      rcases ih (i := i + 1) h with hsame | hq
      · exact .inl hsame
      · exact .inr (by lia)
    | zero =>
      rw [sortKeysLoop_cons] at h
      rcases ih h with hsame | hq
      · split at hsame
        · next hstore =>
          cases hsame
          cases rest with
          | nil => simp at hstore
          | cons x rest => exact .inr ⟨by lia, by simp⟩
        · exact .inl hsame
      · exact .inr (by lia)

theorem sortGetKeys_range (hargc : 2 ≤ argv.length) (hp : p ∈ sortGetKeys argv) :
    1 ≤ p ∧ p ≤ argv.length - 1 := by
  rcases mem_cons.mp hp with rfl | hp
  · lia
  rcases sortKeysLoop_range (mem_toList.mp hp) with hnone | hq
  · cases hnone
  · rw [length_drop] at hq
    lia

/-- No argument behind one that spells STORE is itself spelled LIMIT, GET, BY or STORE,
unless it is the last one. -/
def PlainDestinations : List Sds -> Prop
  | store :: dst :: next :: rest =>
    (sortWord store = .store -> sortWord dst ∉ [.limit, .getPattern, .byPattern, .store]) ∧
      PlainDestinations (dst :: next :: rest)
  | _ => True

theorem plainDestinations_drop (n : Nat) (h : PlainDestinations args) :
    PlainDestinations (args.drop n) := by
  induction n generalizing args with
  | zero => exact h
  | succ n ih =>
    cases args with
    | nil => trivial
    | cons store args =>
      apply ih
      cases args with
      | nil => trivial
      | cons dst args =>
        cases args with
        | nil => trivial
        | cons next rest => exact h.right

theorem sortKeysLoop_other {x : Sds} {store : Option Nat}
    (h : sortWord x ∉ [.limit, .getPattern, .byPattern, .store]) :
    sortKeysLoop i 0 (x :: rest) store = sortKeysLoop (i + 1) 0 rest store := by
  rw [sortKeysLoop_cons]
  generalize sortWord x = word at h
  cases word with
  | limit | getPattern | byPattern | store => simp at h
  | _ => rfl

/-- The scan comes past every option where the command does, and knows the same
destination. -/
theorem sortKeysLoop_eq {o o' : SortOptions} (hplain : PlainDestinations args)
    (h : sortOptions cluster j args o = .ok o') :
    sortKeysLoop j 0 args o.storekey = o'.storekey := by
  induction args using words_induction generalizing j o with
  | nil =>
    cases h
    rfl
  | cons arg rest ih =>
    rcases sortOptions_cons h with ⟨n, o1, h1, hround⟩
    have hrest := ih n (plainDestinations_drop (n + 1) hplain) h1
    rw [← hrest, sortKeysLoop_cons]
    generalize o1.storekey = after at hround
    cases hround with
    | flag hw =>
      rcases hw with hw | hw | hw
      all_goals rw [hw]; rfl
    | limit hw heq =>
      subst heq
      rw [hw]
      rfl
    | pattern hw heq =>
      subst heq
      rcases hw with hw | hw
      all_goals rw [hw]; rfl
    | @store x tail hw heq =>
      subst heq
      rw [hw]
      change sortKeysLoop (j + 1) 0 (x :: tail) (some (j + 1)) = sortKeysLoop (j + 2) 0 tail _
      cases tail with
      | nil =>
        rw [sortKeysLoop_cons]
        cases jump (sortWord x) with
        | zero => simp [sortKeysLoop]
        | succ skip => simp [sortKeysLoop]
      | cons next tail => exact sortKeysLoop_other (hplain.left hw)

theorem sortGetKeys_eq {o : SortOptions} (hplain : PlainDestinations (argv.drop 2))
    (h : sortCommandOptions cluster argv = .ok o) : sortGetKeys argv = 1 :: o.storekey.toList := by
  unfold sortGetKeys
  rw [← sortKeysLoop_eq hplain h]
  rfl

/-!
# ZUNIONSTORE and ZINTERSTORE
-/

theorem zunionInterArguments_ok (h : zunionInterArguments getDouble one argv = .ok z) :
    Util.string2ll (argv.getD 2 []) = some (z.1 : Int) ∧ 1 ≤ z.1 ∧ z.1 + 3 ≤ argv.length := by
  rcases bind_ok h with ⟨setnum, hnum, h⟩
  split at h
  · cases h
  split at h
  · cases h
  rcases bind_ok h with ⟨o, _, h⟩
  cases h
  have hnat : (setnum.toNat : Int) = setnum := Int.toNat_of_nonneg (by lia)
  refine ⟨?_, by lia, by lia⟩
  rw [hnat]
  exact getLong_ok hnum

section

variable (hargc : argv.length < 2 ^ 31) (h : zunionInterArguments getDouble one argv = .ok z)
include hargc h

theorem zunionInterGetKeys_eq : zunionInterGetKeys argv = (List.range z.1).map (3 + ·) ++ [1] := by
  rcases zunionInterArguments_ok getDouble h with ⟨hnum, hpos, hlen⟩
  unfold zunionInterGetKeys
  rw [Aof.atoi_of_small (Aof.strtol_of_string2ll hnum) (by lia)]
  exact if_neg (by lia)

theorem zunionInterGetKeys_range (hp : p ∈ zunionInterGetKeys argv) :
    1 ≤ p ∧ p ≤ argv.length - 1 := by
  rcases zunionInterArguments_ok getDouble h with ⟨_, _, hlen⟩
  rw [zunionInterGetKeys_eq getDouble hargc h] at hp
  rcases mem_append.mp hp with hp | hp
  · rcases mem_map.mp hp with ⟨i, hi, rfl⟩
    have hlt := mem_range.mp hi
    lia
  · rw [mem_singleton.mp hp]
    lia

theorem zunionInterGetKeys_complete (hp : p ∈ 1 :: (List.range z.1).map (3 + ·)) :
    p ∈ zunionInterGetKeys argv := by
  rw [zunionInterGetKeys_eq getDouble hargc h]
  rcases mem_cons.mp hp with rfl | hp
  · exact mem_append_right _ mem_cons_self
  · exact mem_append_left _ hp

end

/-!
# STRALGO LCS
-/

inductive LcsRound (j : Nat) (arg : Sds) (rest : List Sds) (source : Option LcsSource) :
    Nat -> Option LcsSource -> Prop
  | flag : lcsWord arg ≠ .strings -> lcsWord arg ≠ .keys -> LcsRound j arg rest source 0 source
  | number {len : Sds} {tail : List Sds} : lcsWord arg = .minmatchlen ->
      rest = len :: tail -> lcsWord len = .other -> LcsRound j arg rest source 1 source
  | strings : source = none -> LcsRound j arg rest source 2 (some (.strings (j + 1)))
  | keys : source = none -> lcsWord arg = .keys -> 2 ≤ rest.length ->
      LcsRound j arg rest source 2 (some (.keys (j + 1)))

theorem lcsOptions_cons (h : lcsOptions j (arg :: rest) o = .ok o') :
    exists n o1, lcsOptions (j + 1 + n) (rest.drop n) o1 = .ok o' ∧
      LcsRound j arg rest o.source n o1.source := by
  unfold lcsOptions at h
  split at h
  · next hw => exact ⟨0, _, h, .flag (by rw [hw]; decide) (by rw [hw]; decide)⟩
  · next hw => exact ⟨0, _, h, .flag (by rw [hw]; decide) (by rw [hw]; decide)⟩
  · next hw => exact ⟨0, _, h, .flag (by rw [hw]; decide) (by rw [hw]; decide)⟩
  · next hw =>
    rcases bind_ok h with ⟨minmatchlen, hlen, h⟩
    exact ⟨1, _, h, .number hw rfl (spelled_number (getLong_ok hlen) (by decide))⟩
  · next hw =>
    split at h
    · cases h
    · next hnone => exact ⟨2, _, h, .strings (not_isSome_iff_eq_none.mp hnone)⟩
  · next hw =>
    split at h
    · cases h
    · next hnone =>
      exact ⟨2, _, h, .keys (not_isSome_iff_eq_none.mp hnone) hw (Nat.le_add_left 2 _)⟩
  · cases h

theorem lcsOptions_source {source : LcsSource} (h : lcsOptions j args o = .ok o')
    (hsource : o.source = some source) : o'.source = some source := by
  induction args using words_induction generalizing j o with
  | nil =>
    cases h
    exact hsource
  | cons arg rest ih =>
    rcases lcsOptions_cons h with ⟨n, o1, h1, hround⟩
    refine ih n h1 ?_
    rw [hsource] at hround
    generalize o1.source = after at hround
    cases hround with
    | flag hs hk => rfl
    | number hw heq hlen => rfl
    | strings hnone => cases hnone
    | keys hnone hw hlen => cases hnone

theorem lcsKeysLoop_pass (hs : lcsWord arg ≠ .strings) (hk : lcsWord arg ≠ .keys) :
    lcsKeysLoop i (arg :: rest) = lcsKeysLoop (i + 1) rest := by
  rw [lcsKeysLoop, if_neg hs, decide_eq_false hk]
  rfl

theorem lcsKeysLoop_complete (h : lcsOptions j args o = .ok o') (hnone : o.source = none)
    (hkeys : o'.source = some (.keys i)) : lcsKeysLoop j args = [i, i + 1] := by
  induction args using words_induction generalizing j o with
  | nil =>
    cases h
    rw [hnone] at hkeys
    cases hkeys
  | cons arg rest ih =>
    rcases lcsOptions_cons h with ⟨n, o1, h1, hround⟩
    have hlater := fun hnext => ih n h1 hnext
    have hkept : forall source, o1.source = some source -> o'.source = some source :=
      fun source hnamed => lcsOptions_source h1 hnamed
    rw [hnone] at hround
    generalize o1.source = after at hround hlater hkept
    cases hround with
    | flag hs hk =>
      rw [lcsKeysLoop_pass hs hk]
      exact hlater rfl
    | number hw heq hlen =>
      subst heq
      rw [lcsKeysLoop_pass (by rw [hw]; decide) (by rw [hw]; decide),
        lcsKeysLoop_pass (by rw [hlen]; decide) (by rw [hlen]; decide)]
      exact hlater rfl
    | strings hsame =>
      have hlast := hkept _ rfl
      rw [hkeys] at hlast
      cases hlast
    | keys hsame hw hlen =>
      have hlast := hkept _ rfl
      rw [hkeys] at hlast
      cases hlast
      rw [lcsKeysLoop, if_neg (by rw [hw]; decide), hw, decide_eq_true hlen]
      rfl

theorem lcsKeysLoop_range (hp : p ∈ lcsKeysLoop i args) : i + 1 ≤ p ∧ p < i + args.length := by
  induction args generalizing i with
  | nil => cases hp
  | cons arg rest ih =>
    rw [lcsKeysLoop] at hp
    rw [length_cons]
    split at hp
    · cases hp
    split at hp
    · next hkeys =>
      simp only [Bool.and_eq_true, decide_eq_true_eq] at hkeys
      rcases mem_cons.mp hp with rfl | hp
      · lia
      · rw [mem_singleton.mp hp]
        lia
    · have hrest := ih hp
      lia

theorem lcsGetKeys_range (hp : p ∈ lcsGetKeys argv) : 1 ≤ p ∧ p ≤ argv.length - 1 := by
  have hrange := lcsKeysLoop_range hp
  rw [length_drop] at hrange
  lia

theorem stralgoArguments_ok (h : stralgoArguments argv = .ok o) :
    strcasecmpEq (argv.getD 1 []) [108, 99, 115] = true ∧
      lcsOptions 2 (argv.drop 2) lcsDefaults = .ok o := by
  unfold stralgoArguments at h
  split at h
  · next hlcs =>
    rcases bind_ok h with ⟨o1, h1, h⟩
    split at h
    · cases h
    split at h
    · cases h
    · cases h
      exact ⟨hlcs, h1⟩
  · cases h

theorem lcsWord_lcs (h : strcasecmpEq arg [108, 99, 115] = true) : lcsWord arg = .other := by
  have hsame : forall w, strcasecmpEq arg w = strcasecmpEq [108, 99, 115] w := by
    intro w
    unfold strcasecmpEq at *
    rw [eq_of_beq h]
  unfold lcsWord spelled
  simp only [hsame]
  decide

theorem lcsGetKeys_complete (hargc : 2 ≤ argv.length) (h : stralgoArguments argv = .ok o)
    (hp : p ∈ o.keysRead) : p ∈ lcsGetKeys argv := by
  rcases stralgoArguments_ok h with ⟨hlcs, h⟩
  unfold LcsOptions.keysRead at hp
  split at hp
  · next i hkeys =>
    have htail : argv.drop 1 = argv.getD 1 [] :: argv.drop 2 := by
      rw [drop_eq_getElem_cons (by lia), getD_eq_getElem?_getD, List.getElem?_eq_getElem (by lia)]
      rfl
    unfold lcsGetKeys
    rw [htail, lcsKeysLoop_pass (by rw [lcsWord_lcs hlcs]; decide)
      (by rw [lcsWord_lcs hlcs]; decide), lcsKeysLoop_complete h rfl hkeys]
    exact hp
  · cases hp

/-!
# All four commands
-/

/-- `sort k STORE get STORE dst`. -/
def hiddenStore : List Sds :=
  [[115, 111, 114, 116], [107], [83, 84, 79, 82, 69], [103, 101, 116],
    [83, 84, 79, 82, 69], [100, 115, 116]]

/-- `sort k STORE dst LIMIT 0 1`. -/
def plainStore : List Sds :=
  [[115, 111, 114, 116], [107], [83, 84, 79, 82, 69], [100, 115, 116],
    [76, 73, 77, 73, 84], [48], [49]]

end KeySpecs
end Redisoo
