import Mathlib.Data.List.Induction
import Redisoo.Foundation.Run
import Redisoo.Structures.ListpackEntry

/-!
# Listpacks as lists

A listpack is the packed form of a list of byte strings.  Every call keeps this and
does to the list what it is named for, as long as the sum of `lpEncodeGetType` does not
wrap around.
-/

namespace Redisoo

open Foundation Foundation.Bytes Listpack List

variable (junk : UInt8) {rs xs ys : List Sds} {fuel old new width m n : Nat}

namespace Listpack

def body (es : List Sds) : List UInt8 :=
  es.flatMap entry

def bytes (es : List Sds) : Nat :=
  7 + (body es).length

def headed (total count : Nat) (rest : List UInt8) : List UInt8 :=
  le 4 total ++ (le 2 count ++ rest)

def packed (count : Nat) (es : List Sds) : List UInt8 :=
  headed (bytes es) count (body es ++ [LP_EOF])

def behind (xs : List Sds) : Nat :=
  LP_HDR_SIZE + (body xs).length

def offset (es : List Sds) (i : Nat) : Nat :=
  behind (es.take i)

def place (xs ys : List Sds) : Option Nat :=
  if ys = [] then none else some (behind xs)

theorem place_cons (xs ys : List Sds) (e : Sds) : place xs (e :: ys) = some (behind xs) :=
  if_neg (cons_ne_nil e ys)

def Counts (count n : Nat) : Prop :=
  count ≤ LP_HDR_NUMELE_UNKNOWN ∧ (count = n ∨ count = LP_HDR_NUMELE_UNKNOWN)

def Short (es : List Sds) : Prop :=
  forall e, e ∈ es -> e.length + 5 < 2 ^ 32

structure Packs (es : List Sds) (lp : List UInt8) : Prop where
  fits : bytes es ≤ UINT32_MAX
  short : Short es
  form : exists count, lp = packed count es ∧ Counts count es.length

/-!
# The packed form
-/

@[simp] theorem body_nil : body [] = [] := rfl

@[simp] theorem body_cons (e : Sds) (es : List Sds) : body (e :: es) = entry e ++ body es := rfl

@[simp] theorem body_append (xs ys : List Sds) : body (xs ++ ys) = body xs ++ body ys :=
  flatMap_append

theorem entry_pos (e : Sds) : 0 < (entry e).length := by
  have h := lpEncodeBacklen_pos (encode e).length
  rw [entry_length]
  lia

theorem length_le_body (es : List Sds) : es.length ≤ (body es).length := by
  induction es with
  | nil => exact Nat.le_refl _
  | cons e es ih =>
    have hpos := entry_pos e
    rw [body_cons, length_append, length_cons]
    lia

variable (total count : Nat)

theorem headed_length (rest : List UInt8) :
    (headed total count rest).length = LP_HDR_SIZE + rest.length := by
  unfold headed LP_HDR_SIZE
  rw [length_append, length_append, le_length, le_length]
  lia

theorem headed_append (xs ys : List UInt8) :
    headed total count (xs ++ ys) = headed total count xs ++ ys := by
  unfold headed
  rw [append_assoc, append_assoc]

theorem packed_length (count : Nat) (es : List Sds) : (packed count es).length = bytes es := by
  unfold packed bytes
  rw [headed_length, length_append]
  simp only [LP_HDR_SIZE, length_cons, length_nil]
  lia

theorem packed_split (count : Nat) (xs ys : List Sds) :
    packed count (xs ++ ys) =
      headed (bytes (xs ++ ys)) count (body xs) ++ (body ys ++ [LP_EOF]) := by
  unfold packed
  rw [← headed_append, body_append, append_assoc]

theorem packed_drop (count : Nat) (xs ys : List Sds) :
    (packed count (xs ++ ys)).drop (behind xs) = body ys ++ [LP_EOF] := by
  rw [packed_split]
  exact drop_left' (headed_length _ _ _)

theorem packed_take (count : Nat) (xs ys : List Sds) : (packed count (xs ++ ys)).take (behind xs) =
      headed (bytes (xs ++ ys)) count (body xs) := by
  rw [packed_split]
  exact take_left' (headed_length _ _ _)

theorem behind_snoc (xs : List Sds) (e : Sds) :
    behind (xs ++ [e]) = behind xs + (entry e).length := by
  unfold behind
  rw [body_append, body_cons, body_nil, append_nil, length_append]
  lia

/-!
# The header
-/

theorem getTotalBytes_headed {total : Nat} (h : total ≤ UINT32_MAX) (count : Nat)
    (rest : List UInt8) : lpGetTotalBytes (headed total count rest) = some total := by
  unfold lpGetTotalBytes headed
  apply readLe_le
  unfold UINT32_MAX at h
  lia

theorem drop_headed (rest : List UInt8) : (headed total count rest).drop 4 = le 2 count ++ rest :=
  drop_left' (le_length 4 total)

variable {count n : Nat} {e : Sds} {es xs ys : List Sds} {a r c x : List UInt8}

theorem getNumElements_headed (h : count ≤ LP_HDR_NUMELE_UNKNOWN) (total : Nat) (rest : List UInt8) :
    lpGetNumElements (headed total count rest) = some count := by
  unfold lpGetNumElements
  rw [drop_headed]
  apply readLe_le
  unfold LP_HDR_NUMELE_UNKNOWN at h
  lia

theorem setTotalBytes_headed (total count v : Nat) (rest : List UInt8) :
    lpSetTotalBytes (headed total count rest) v = headed v count rest := by
  unfold lpSetTotalBytes
  rw [drop_headed]
  rfl

theorem setNumElements_headed (total count v : Nat) (rest : List UInt8) :
    lpSetNumElements (headed total count rest) v = headed total v rest := by
  have htake : (headed total count rest).take 4 = le 4 total := take_left' (le_length 4 total)
  have hdrop : (headed total count rest).drop 6 = rest := by
    have hsplit : (headed total count rest).drop 6 = ((headed total count rest).drop 4).drop 2 := by
      rw [drop_drop]
    rw [hsplit, drop_headed]
    exact drop_left' (le_length 2 count)
  unfold lpSetNumElements
  rw [htake, hdrop, append_assoc]
  rfl

/-!
# Navigation
-/

theorem Short.head (h : Short (e :: es)) : e.length + 5 < 2 ^ 32 := h e mem_cons_self

theorem Short.tail (h : Short (e :: es)) : Short es :=
  fun e' he' => h e' (mem_cons_of_mem e he')

theorem Short.append (h : Short (xs ++ ys)) : Short xs ∧ Short ys :=
  ⟨fun e he => h e (mem_append_left ys he), fun e he => h e (mem_append_right xs he)⟩

variable (count)

variable (xs)

theorem size_entry (hlen : e.length + 5 < 2 ^ 32) :
    lpCurrentEncodedSize ((packed count (xs ++ e :: ys)).drop (behind xs)) =
      some (encode e).length := by
  rcases reads_encode hlen with ⟨v, hreads, _⟩
  rw [packed_drop, body_cons, entry, append_assoc, append_assoc]
  exact hreads.size _

theorem lpSkip_entry (hlen : e.length + 5 < 2 ^ 32) :
    lpSkip (packed count (xs ++ e :: ys)) (behind xs) = some (behind (xs ++ [e])) := by
  simp only [lpSkip, bind, Option.bind, size_entry count xs hlen]
  rw [behind_snoc, entry_length]

theorem orEnd_place (hshort : Short ys) :
    orEnd (packed count (xs ++ ys)) (behind xs) = some (place xs ys) := by
  have hget : (packed count (xs ++ ys))[behind xs]? = (body ys ++ [LP_EOF]).head? := by
    rw [← packed_drop count xs ys, List.head?_drop]
  cases ys with
  | nil =>
    simp only [orEnd, bind, Option.bind, hget]
    rfl
  | cons e ys =>
    rcases reads_encode hshort.head with ⟨v, hreads, _⟩
    rcases hreads.head with ⟨b, tail, hb, hne⟩
    have hhead : (body (e :: ys) ++ [LP_EOF]).head? = some b := by
      rw [body_cons, entry, hb]
      rfl
    simp only [orEnd, bind, Option.bind, hget, hhead, if_neg hne]
    rfl

theorem lpNext_entry (hshort : Short (e :: ys)) :
    lpNext (packed count (xs ++ e :: ys)) (behind xs) = some (place (xs ++ [e]) ys) := by
  have hassoc : xs ++ e :: ys = (xs ++ [e]) ++ ys := by simp
  have hend : orEnd (packed count (xs ++ e :: ys)) (behind (xs ++ [e])) =
      some (place (xs ++ [e]) ys) := by
    rw [hassoc]
    exact orEnd_place _ _ hshort.tail
  simp only [lpNext, bind, Option.bind, lpSkip_entry count xs hshort.head, hend]

variable {xs}

variable {count}

theorem lpFirst_place (hshort : Short es) : lpFirst (packed count es) = some (place [] es) :=
  orEnd_place count [] hshort

variable (count)

theorem lpPrev_entry (xs : List Sds) (hlen : e.length + 5 < 2 ^ 32) :
    lpPrev (packed count ((xs ++ [e]) ++ ys)) (behind (xs ++ [e])) = some (some (behind xs)) := by
  have hback : lpDecodeBacklen
      ((packed count ((xs ++ [e]) ++ ys)).take (behind (xs ++ [e]))).reverse =
        some (encode e).length := by
    rw [packed_take, body_append, body_cons, body_nil, append_nil, headed_append, entry,
      ← append_assoc, reverse_append]
    exact lpDecodeBacklen_encode (Nat.lt_trans (encode_length_lt hlen) (by decide)) _
  have hne : behind (xs ++ [e]) ≠ LP_HDR_SIZE := by
    have hpos := entry_pos e
    rw [behind_snoc]
    unfold behind
    lia
  unfold lpPrev
  rw [if_neg hne]
  simp only [bind, Option.bind, hback]
  rw [← entry_length, behind_snoc, Nat.add_sub_cancel]

theorem get_entry (xs ys : List Sds) (hlen : e.length + 5 < 2 ^ 32) :
    exists v, lpGet ((packed count (xs ++ e :: ys)).drop (behind xs)) = some v ∧ v.string = e := by
  rcases reads_encode hlen with ⟨v, hreads, hv⟩
  refine ⟨v, ?_, hv⟩
  rw [packed_drop, body_cons, entry, append_assoc, append_assoc]
  exact hreads.get _

theorem traverse_next (xs : List Sds) (hshort : Short ys) (hfuel : ys.length ≤ fuel) :
    traverse lpNext (packed count (xs ++ ys)) fuel (place xs ys) = some ys := by
  induction ys generalizing xs fuel with
  | nil => simp [place, traverse]
  | cons e ys ih =>
    rcases fuel with _ | fuel
    · simp at hfuel
    rcases get_entry count xs ys hshort.head with ⟨v, hget, hv⟩
    have hrest : traverse lpNext (packed count ((xs ++ [e]) ++ ys)) fuel
        (place (xs ++ [e]) ys) = some ys :=
      ih (xs ++ [e]) hshort.tail (by simpa using hfuel)
    rw [append_assoc, singleton_append] at hrest
    rw [place_cons]
    simp only [traverse, bind, Option.bind, hget, lpNext_entry count xs hshort, hrest, hv]

theorem traverse_prev (ys : List Sds) (hshort : Short xs) (hfuel : xs.length ≤ fuel) :
    (lpPrev (packed count (xs ++ ys)) (behind xs)).bind
      (traverse lpPrev (packed count (xs ++ ys)) fuel) = some xs.reverse := by
  induction xs using List.reverseRecOn generalizing ys fuel with
  | nil =>
    simp [traverse, lpPrev, behind]
  | append_singleton xs e ih =>
    rcases fuel with _ | fuel
    · simp at hfuel
    have hassoc : (xs ++ [e]) ++ ys = xs ++ e :: ys := by simp
    have hlen : e.length + 5 < 2 ^ 32 := hshort e (by simp)
    rcases get_entry count xs ys hlen with ⟨v, hget, hv⟩
    have hrest : (lpPrev (packed count (xs ++ e :: ys)) (behind xs)).bind
        (traverse lpPrev (packed count (xs ++ e :: ys)) fuel) = some xs.reverse :=
      ih (e :: ys) hshort.append.left (by simpa using hfuel)
    rw [lpPrev_entry count xs hlen, Option.bind_some, hassoc]
    cases hprev : lpPrev (packed count (xs ++ e :: ys)) (behind xs) with
    | none =>
      rw [hprev] at hrest
      cases hrest
    | some next =>
      rw [hprev, Option.bind_some] at hrest
      simp only [traverse, bind, Option.bind, hget, hprev, hrest, hv]
      simp

theorem countFrom_place (xs : List Sds) (hshort : Short ys) (hfuel : ys.length ≤ fuel)
    (hn : n + ys.length < 2 ^ 32) :
    countFrom (packed count (xs ++ ys)) fuel n (place xs ys) = some (n + ys.length) := by
  induction ys generalizing xs fuel n with
  | nil => simp [place, countFrom]
  | cons e ys ih =>
    rw [length_cons] at hn
    rcases fuel with _ | fuel
    · simp at hfuel
    have hrest : countFrom (packed count ((xs ++ [e]) ++ ys)) fuel (n + 1)
        (place (xs ++ [e]) ys) = some (n + 1 + ys.length) :=
      ih (xs ++ [e]) hshort.tail (by simpa using hfuel) (by lia)
    rw [append_assoc, singleton_append] at hrest
    rw [place_cons]
    simp only [countFrom, bind, Option.bind, lpNext_entry count xs hshort]
    rw [Nat.mod_eq_of_lt (by lia), hrest, length_cons]
    congr 1
    lia

variable {count}

theorem lpElement_place (hshort : Short es) (i : Nat) :
    lpElement (packed count es) i = some (place (es.take i) (es.drop i)) := by
  induction i with
  | zero => exact lpFirst_place hshort
  | succ i ih =>
    simp only [lpElement, bind, Option.bind, ih]
    cases hdrop : es.drop i with
    | nil =>
      have hnext : es.drop (i + 1) = [] := by
        rw [← drop_drop, hdrop, drop_nil]
      simp [place, hnext]
    | cons e ys =>
      have hnext : es.drop (i + 1) = ys := by
        rw [← drop_drop, hdrop]
        rfl
      have htake : es.take (i + 1) = es.take i ++ [e] := by
        rw [take_add_one, ← List.head?_drop, hdrop]
        rfl
      have hes : es = es.take i ++ e :: ys := by
        rw [← hdrop, take_append_drop]
      have hys : Short (e :: ys) := by
        rw [hes] at hshort
        exact hshort.append.right
      rw [place_cons, hnext, htake]
      dsimp only
      have h := lpNext_entry count (es.take i) hys
      rw [← hes] at h
      exact h

/-!
# Insertion
-/

theorem room_memory (new : Nat) (hold : old = (a ++ r ++ c).length) :
    exists mem extra, (if new > old then realloc junk (a ++ r ++ c) new else a ++ r ++ c) = mem ∧
      mem = a ++ (r ++ (c ++ extra)) ∧ mem.length = max old new := by
  by_cases hgrow : new > old
  · refine ⟨_, List.replicate (new - old) junk, if_pos hgrow, ?_, ?_⟩
    · rw [realloc_grow junk (by lia), hold]
      simp only [append_assoc]
    · rw [realloc_grow junk (by lia), length_append, length_replicate]
      lia
  · refine ⟨_, [], if_neg hgrow, ?_, ?_⟩
    · simp only [append_assoc, append_nil]
    · lia

theorem makeRoom_spec (hold : old = (a ++ r ++ c).length) (hnew : new = old + width - r.length) :
    exists x, x.length = width ∧
      makeRoom junk (a ++ r ++ c) old new a.length width r.length = some (a ++ x ++ c) := by
  rcases room_memory junk new hold with ⟨mem, extra, hif, hmem, hmemlen⟩
  rw [length_append, length_append] at hold
  have hsrc : (mem.drop (a.length + r.length)).take c.length = c := by
    rw [hmem, ← append_assoc, ← length_append, drop_left, take_left]
  have hmove := memmove_spec (a.length + width) hsrc (by lia) (by lia)
  have htake : mem.take (a.length + width) = a ++ (mem.drop a.length).take width := by
    rw [take_add, hmem, take_left]
  have hxlen : ((mem.drop a.length).take width).length = width := by
    rw [length_take, length_drop]
    lia
  have htail : old - a.length - r.length = c.length := by lia
  refine ⟨(mem.drop a.length).take width, hxlen, ?_⟩
  simp only [makeRoom, bind, Option.bind, hif, htail, hmove, htake]
  by_cases hshrink : new < old
  · rw [if_pos hshrink, realloc_left]
    simp only [length_append, hxlen]
    lia
  · have hend : mem.drop (a.length + width + c.length) = [] := drop_of_length_le (by lia)
    rw [if_neg hshrink, hend, append_nil]

theorem storeEntry_spec (hlen : e.length + 5 < 2 ^ 32) (hx : x.length = (entry e).length) :
    storeEntry (a ++ x ++ c) a.length e = some (a ++ entry e ++ c) := by
  have henc : (lpEncodeGetType e).1.stored e = encode e := by
    unfold lpEncodeGetType encode
    cases lpStringToInt64 e with
    | some v => rfl
    | none => rfl
  rw [entry_length] at hx
  have hfirst : memcpy (a ++ x ++ c) a.length (encode e) =
      some ((a ++ encode e) ++ x.drop (encode e).length ++ c) := by
    have hsplit : a ++ x ++ c =
        a ++ x.take (encode e).length ++ (x.drop (encode e).length ++ c) := by
      rw [append_assoc a (x.take _), ← append_assoc (x.take _), take_append_drop, append_assoc]
    rw [hsplit, memcpy_split (by rw [length_take]; lia), ← append_assoc]
  have hsecond : memcpy ((a ++ encode e) ++ x.drop (encode e).length ++ c)
      (a.length + (encode e).length) (lpEncodeBacklen (encode e).length) =
        some (a ++ entry e ++ c) := by
    rw [← length_append, memcpy_split (by rw [length_drop]; lia), entry, append_assoc a]
  simp only [storeEntry, bind, Option.bind, henc, hfirst, lpEncodeGetType_length hlen, hsecond]

theorem replacedLen_spec (hlen : e.length + 5 < 2 ^ 32) (hfits : bytes (xs ++ e :: ys) ≤ UINT32_MAX) :
    replacedLen (packed count (xs ++ e :: ys)) (behind xs) = some (entry e).length := by
  have hlt : (entry e).length < 2 ^ 32 := by
    unfold bytes UINT32_MAX at hfits
    rw [body_append, body_cons, length_append, length_append] at hfits
    lia
  simp only [replacedLen, bind, Option.bind, size_entry count xs hlen]
  rw [← entry_length, Nat.mod_eq_of_lt hlt]

theorem bytes_append_cons (xs ys : List Sds) (e : Sds) :
    bytes (xs ++ e :: ys) = bytes (xs ++ ys) + (entry e).length := by
  unfold bytes
  simp only [body_append, body_cons, length_append]
  lia

theorem adjustCount_spec (total : Nat) (rest : List UInt8) (add : Bool) (hcounts : Counts count n)
    (hm : if add then m = n + 1 else m + 1 = n) :
    exists count', adjustCount (headed total count rest) add = some (headed total count' rest) ∧
      Counts count' m := by
  have hget := getNumElements_headed hcounts.left total rest
  by_cases hne : count ≠ LP_HDR_NUMELE_UNKNOWN
  · refine ⟨if add then count + 1 else count - 1, ?_, ?_⟩
    · simp only [adjustCount, bind, Option.bind, hget, if_pos hne, setNumElements_headed]
    cases add with
    | true =>
      have hm' : m = n + 1 := hm
      unfold Counts at *
      lia
    | false =>
      have hm' : m + 1 = n := hm
      unfold Counts at *
      lia
  · have hunknown : count = LP_HDR_NUMELE_UNKNOWN := by
      by_contra h
      exact hne h
    refine ⟨count, ?_, hcounts.left, Or.inr hunknown⟩
    simp only [adjustCount, bind, Option.bind, hget, if_neg hne]

theorem insertAt_spec (replace : Bool) (hrs : if replace then exists r, rs = [r] else rs = [])
    (hlen : e.length + 5 < 2 ^ 32) (hshort : Short (xs ++ (rs ++ ys)))
    (hfits : bytes (xs ++ (rs ++ ys)) ≤ UINT32_MAX)
    (hcounts : Counts count (xs ++ (rs ++ ys)).length) : (bytes (xs ++ e :: ys) > UINT32_MAX ∧
      insertAt junk (packed count (xs ++ (rs ++ ys))) e (behind xs) replace = some none) ∨
    (bytes (xs ++ e :: ys) ≤ UINT32_MAX ∧ exists count',
      insertAt junk (packed count (xs ++ (rs ++ ys))) e (behind xs) replace =
        some (some (packed count' (xs ++ e :: ys), some (behind xs))) ∧
      Counts count' (xs ++ e :: ys).length) := by
  have hsplit : packed count (xs ++ (rs ++ ys)) =
      headed (bytes (xs ++ (rs ++ ys))) count (body xs) ++ body rs ++ (body ys ++ [LP_EOF]) := by
    rw [packed_split, body_append, append_assoc, append_assoc]
  have hnew : bytes (xs ++ e :: ys) =
      bytes (xs ++ (rs ++ ys)) + (entry e).length - (body rs).length := by
    unfold bytes
    simp only [body_append, body_cons, length_append]
    lia
  have htotal : lpGetTotalBytes (packed count (xs ++ (rs ++ ys))) =
      some (bytes (xs ++ (rs ++ ys))) := getTotalBytes_headed hfits _ _
  have hreplaced : (if replace then replacedLen (packed count (xs ++ (rs ++ ys))) (behind xs)
      else some 0) = some (body rs).length := by
    cases replace with
    | false =>
      have hrs' : rs = [] := hrs
      rw [hrs']
      rfl
    | true =>
      have hrs' : exists r, rs = [r] := hrs
      rcases hrs' with ⟨r, rfl⟩
      rw [if_pos rfl, body_cons, body_nil, append_nil]
      exact replacedLen_spec (hshort r (by simp)) hfits
  have hinsert : insertAt junk (packed count (xs ++ (rs ++ ys))) e (behind xs) replace =
      (if bytes (xs ++ e :: ys) > UINT32_MAX then some none
      else do
        let lp ← makeRoom junk (packed count (xs ++ (rs ++ ys))) (bytes (xs ++ (rs ++ ys)))
          (bytes (xs ++ e :: ys)) (behind xs) (entry e).length (body rs).length
        let lp ← storeEntry lp (behind xs) e
        let lp ← (if replace then some lp else adjustCount lp true)
        some (some (lpSetTotalBytes lp (bytes (xs ++ e :: ys)), some (behind xs)))) := by
    simp only [insertAt, bind, Option.bind, htotal, hreplaced, lpEncodeGetType_length hlen]
    rw [← entry_length, ← hnew]
  rw [hinsert]
  by_cases hbig : bytes (xs ++ e :: ys) > UINT32_MAX
  · exact Or.inl ⟨hbig, if_pos hbig⟩
  apply Or.inr
  refine ⟨Nat.le_of_not_lt hbig, ?_⟩
  have hbehind : (headed (bytes (xs ++ (rs ++ ys))) count (body xs)).length = behind xs :=
    headed_length _ _ _
  have hold : bytes (xs ++ (rs ++ ys)) = (headed (bytes (xs ++ (rs ++ ys))) count (body xs) ++
      body rs ++ (body ys ++ [LP_EOF])).length := by
    rw [← hsplit, packed_length]
  rcases makeRoom_spec junk hold hnew with ⟨x, hx, hroom⟩
  have hstore : storeEntry (headed (bytes (xs ++ (rs ++ ys))) count (body xs) ++ x ++
      (body ys ++ [LP_EOF])) (behind xs) e = some (headed (bytes (xs ++ (rs ++ ys))) count
        (body xs ++ (entry e ++ (body ys ++ [LP_EOF])))) := by
    rw [headed_append, ← hbehind, ← append_assoc (headed _ _ _) (entry e)]
    exact storeEntry_spec hlen hx
  rw [← hsplit, hbehind] at hroom
  rw [if_neg hbig]
  simp only [bind, Option.bind, hroom, hstore]
  have hform : forall count', lpSetTotalBytes (headed (bytes (xs ++ (rs ++ ys))) count'
      (body xs ++ (entry e ++ (body ys ++ [LP_EOF])))) (bytes (xs ++ e :: ys)) =
        packed count' (xs ++ e :: ys) := by
    intro count'
    rw [setTotalBytes_headed, packed, body_append, body_cons, append_assoc, append_assoc]
  cases replace with
  | true =>
    have hrs' : exists r, rs = [r] := hrs
    rcases hrs' with ⟨r, rfl⟩
    refine ⟨count, ?_, ?_⟩
    · simp only [if_true, hform]
    · simpa using hcounts
  | false =>
    have hrs' : rs = [] := hrs
    subst hrs'
    have hm : (xs ++ e :: ys).length = (xs ++ ([] ++ ys)).length + 1 := by
      simp only [length_append, length_cons, nil_append]
      lia
    rcases adjustCount_spec (bytes (xs ++ ([] ++ ys)))
      (body xs ++ (entry e ++ (body ys ++ [LP_EOF]))) true hcounts hm with
      ⟨count', hadjust, hcounts'⟩
    refine ⟨count', ?_, hcounts'⟩
    simp only [Bool.false_eq_true, if_false, hadjust, hform]

theorem deleteAt_spec (hshort : Short (xs ++ e :: ys))
    (hfits : bytes (xs ++ e :: ys) ≤ UINT32_MAX) (hcounts : Counts count (xs ++ e :: ys).length) :
    exists count', deleteAt junk (packed count (xs ++ e :: ys)) (behind xs) =
        some (some (packed count' (xs ++ ys), place xs ys)) ∧
      Counts count' (xs ++ ys).length := by
  have hsplit : packed count (xs ++ e :: ys) =
      headed (bytes (xs ++ e :: ys)) count (body xs) ++ entry e ++ (body ys ++ [LP_EOF]) := by
    rw [packed_split, body_cons, append_assoc, append_assoc]
  have hadd := bytes_append_cons xs ys e
  have hnew : bytes (xs ++ ys) = bytes (xs ++ e :: ys) + 0 - (entry e).length := by lia
  have hold : bytes (xs ++ e :: ys) = (headed (bytes (xs ++ e :: ys)) count (body xs) ++
      entry e ++ (body ys ++ [LP_EOF])).length := by
    rw [← hsplit, packed_length]
  have hbehind : (headed (bytes (xs ++ e :: ys)) count (body xs)).length = behind xs :=
    headed_length _ _ _
  have htotal : lpGetTotalBytes (packed count (xs ++ e :: ys)) = some (bytes (xs ++ e :: ys)) :=
    getTotalBytes_headed hfits _ _
  have hreplaced : replacedLen (packed count (xs ++ e :: ys)) (behind xs) =
      some (entry e).length := replacedLen_spec (hshort e (by simp)) hfits
  rcases makeRoom_spec junk hold hnew with ⟨x, hx, hroom⟩
  rw [length_eq_zero_iff.mp hx, append_nil, ← hsplit, hbehind, ← headed_append] at hroom
  -- the end byte is looked for before the header is written
  have hend : orEnd (headed (bytes (xs ++ e :: ys)) count (body xs ++ (body ys ++ [LP_EOF])))
      (behind xs) = some (place xs ys) := by
    have hget : forall total, (headed total count (body xs ++ (body ys ++ [LP_EOF])))[behind xs]? =
        (body ys ++ [LP_EOF]).head? := by
      intro total
      rw [headed_append, ← List.head?_drop]
      congr 1
      exact drop_left' (headed_length _ _ _)
    have hpacked := orEnd_place count xs (fun e' he' => hshort e' (by simp [he']) : Short ys)
    rw [packed, body_append, append_assoc] at hpacked
    unfold orEnd at hpacked ⊢
    rw [hget] at hpacked ⊢
    exact hpacked
  rcases adjustCount_spec (bytes (xs ++ e :: ys)) (body xs ++ (body ys ++ [LP_EOF])) false hcounts
    (show (xs ++ ys).length + 1 = (xs ++ e :: ys).length by simp; lia) with
    ⟨count', hadjust, hcounts'⟩
  refine ⟨count', ?_, hcounts'⟩
  have hbytes : bytes (xs ++ e :: ys) - (entry e).length = bytes (xs ++ ys) := by lia
  simp only [deleteAt, bind, Option.bind, htotal, hreplaced, hbytes]
  rw [if_neg (by lia)]
  simp only [hroom, hend, hadjust, setTotalBytes_headed]
  rw [packed, body_append, append_assoc]

/-!
# Lists
-/

def lpPointer (es : List Sds) (i : Nat) : Option Nat :=
  if i < es.length then some (offset es i) else none

/-- The list with an element written over those in between, or `NULL` if the listpack
would have more than 2^32-1 bytes. -/
def listWrite (es xs : List Sds) (ele : Sds) (ys : List Sds) (result : LpResult)
    (results : List LpResult) : List Sds × List LpResult :=
  if bytes (xs ++ ele :: ys) > UINT32_MAX then (es, .null :: results)
  else (xs ++ ele :: ys, result :: results)

end Listpack

def lpListStep (op : LpOp) (st : List Sds × List LpResult) : List Sds × List LpResult :=
  let (es, results) := st
  match op with
  | .insert i wh ele =>
    if i < es.length then
      match wh with
      | .before => listWrite es (es.take i) ele (es.drop i)
          (.pointer (some (offset es i))) results
      | .after => listWrite es (es.take (i + 1)) ele (es.drop (i + 1))
          (.pointer (some (offset es (i + 1)))) results
      | .replace => listWrite es (es.take i) ele (es.drop (i + 1))
          (.pointer (some (offset es i))) results
    else (es, .noElement :: results)
  | .append ele => listWrite es es ele [] .done results
  | .delete i =>
    if i < es.length then
      (es.eraseIdx i, .pointer (lpPointer (es.eraseIdx i) i) :: results)
    else (es, .noElement :: results)
  | .length => (es, .number es.length :: results)

/-- The sum of `lpEncodeGetType` has 32 bits. -/
def LpOp.Fits : LpOp -> Prop
  | .insert _ _ ele => ele.length + 5 < 2 ^ 32
  | .append ele => ele.length + 5 < 2 ^ 32
  | _ => True

namespace Listpack

theorem place_eq_pointer (xs ys : List Sds) : place xs ys = lpPointer (xs ++ ys) xs.length := by
  unfold place lpPointer offset
  rw [take_left, length_append]
  cases ys with
  | nil => simp
  | cons e ys => simp

variable {es : List Sds} {lp : List UInt8} {e : Sds}

theorem Packs.element (h : Packs es lp) (i : Nat) : lpElement lp i = some (lpPointer es i) := by
  rcases h.form with ⟨count, rfl, _⟩
  rw [lpElement_place h.short]
  by_cases hi : i < es.length
  · rw [place_eq_pointer, take_append_drop, length_take, Nat.min_eq_left (by lia)]
  · rw [drop_of_length_le (by lia)]
    unfold place lpPointer
    rw [if_pos rfl, if_neg hi]

theorem packs_write (replace : Bool) (hrs : if replace then exists r, rs = [r] else rs = [])
    (hlen : e.length + 5 < 2 ^ 32) (h : Packs (xs ++ (rs ++ ys)) lp) :
    (bytes (xs ++ e :: ys) > UINT32_MAX ∧ insertAt junk lp e (behind xs) replace = some none) ∨
    (Not (bytes (xs ++ e :: ys) > UINT32_MAX) ∧ exists lp',
      insertAt junk lp e (behind xs) replace = some (some (lp', some (behind xs))) ∧
      Packs (xs ++ e :: ys) lp') := by
  rcases h.form with ⟨count, rfl, hcounts⟩
  rcases insertAt_spec junk replace hrs hlen h.short h.fits hcounts with
    hnull | ⟨hfits, count', hrun, hcounts'⟩
  · exact Or.inl hnull
  have hshort : Short (xs ++ e :: ys) := by
    intro e' he'
    rcases mem_append.mp he' with hxs | hcons
    · exact h.short e' (by simp [hxs])
    · rcases mem_cons.mp hcons with rfl | hys
      · exact hlen
      · exact h.short e' (by simp [hys])
  exact Or.inr ⟨Nat.not_lt_of_le hfits, _, hrun, hfits, hshort, count', rfl, hcounts'⟩

section

variable (h : Packs es lp)
include h

theorem finish_write {results : List LpResult} {r : Option (Option (List UInt8 × Option Nat))}
    (hwrite : (bytes (xs ++ e :: ys) > UINT32_MAX ∧ r = some none) ∨
      (Not (bytes (xs ++ e :: ys) > UINT32_MAX) ∧ exists lp',
        r = some (some (lp', some (behind xs))) ∧ Packs (xs ++ e :: ys) lp')) :
    exists lp' es' results', lpFinish lp results r = .ok (lp', results') ∧
      listWrite es xs e ys (.pointer (some (behind xs))) results = (es', results') ∧
      Packs es' lp' := by
  unfold listWrite
  rcases hwrite with ⟨hbig, rfl⟩ | ⟨hfits, lp', rfl, hpacks⟩
  · rw [if_pos hbig]
    exact ⟨lp, es, _, rfl, rfl, h⟩
  · rw [if_neg hfits]
    exact ⟨lp', _, _, rfl, rfl, hpacks⟩

theorem Packs.insert (junk : UInt8) (i : Nat) (wh : LpWhere) (results : List LpResult)
    (hlen : e.length + 5 < 2 ^ 32) :
    exists lp' es' results', lpStep junk (.insert i wh e) (lp, results) = .ok (lp', results') ∧
      lpListStep (.insert i wh e) (es, results) = (es', results') ∧ Packs es' lp' := by
  have helement := h.element i
  by_cases hi : i < es.length
  · have hdrop : es.drop i = es[i] :: es.drop (i + 1) := drop_eq_getElem_cons hi
    have hbefore : es.take i ++ ([] ++ es.drop i) = es := take_append_drop i es
    have hafter : es.take (i + 1) ++ ([] ++ es.drop (i + 1)) = es := take_append_drop (i + 1) es
    have hreplace : es.take i ++ ([es[i]] ++ es.drop (i + 1)) = es := by
      rw [singleton_append, ← hdrop, take_append_drop]
    have hpointer : lpPointer es i = some (behind (es.take i)) := if_pos hi
    rw [hpointer] at helement
    simp only [lpStep, lpAt, helement, lpListStep, if_pos hi]
    cases wh with
    | before =>
      apply finish_write h
      rw [← hbefore] at h
      exact packs_write junk false rfl hlen h
    | after =>
      have hskip : lpSkip lp (behind (es.take i)) = some (behind (es.take (i + 1))) := by
        rcases h.form with ⟨count, hlp, _⟩
        have hlen' : (es[i]).length + 5 < 2 ^ 32 := h.short _ (getElem_mem hi)
        have hskip : lpSkip (packed count (es.take i ++ es[i] :: es.drop (i + 1)))
            (behind (es.take i)) = some (behind (es.take i ++ [es[i]])) :=
          lpSkip_entry count (es.take i) hlen'
        rw [← hdrop, take_append_drop, ← hlp, take_append_getElem hi] at hskip
        exact hskip
      have hcall : lpInsert junk lp (some e) (behind (es.take i)) .after =
          insertAt junk lp e (behind (es.take (i + 1))) false := by
        simp only [lpInsert, bind, Option.bind, hskip]
      rw [hcall]
      apply finish_write h
      rw [← hafter] at h
      exact packs_write junk false rfl hlen h
    | replace =>
      apply finish_write h
      rw [← hreplace] at h
      exact packs_write junk true ⟨_, rfl⟩ hlen h
  · have hpointer : lpPointer es i = none := if_neg hi
    rw [hpointer] at helement
    simp only [lpStep, lpAt, helement, lpListStep, if_neg hi]
    exact ⟨lp, es, _, rfl, rfl, h⟩

theorem Packs.append (junk : UInt8) (results : List LpResult) (hlen : e.length + 5 < 2 ^ 32) :
    exists lp' es' results', lpStep junk (.append e) (lp, results) = .ok (lp', results') ∧
      lpListStep (.append e) (es, results) = (es', results') ∧ Packs es' lp' := by
  have htotal : lpGetTotalBytes lp = some (bytes es) := by
    rcases h.form with ⟨count, rfl, _⟩
    exact getTotalBytes_headed h.fits _ _
  have hend : bytes es - 1 = behind es := by
    unfold bytes behind LP_HDR_SIZE
    lia
  have happend : es ++ ([] ++ []) = es := by simp
  have hwrite := h
  rw [← happend] at hwrite
  simp only [lpStep, lpAppend, bind, Option.bind, htotal, hend, lpInsert, lpListStep, listWrite]
  rcases packs_write junk false rfl hlen hwrite with ⟨hbig, hrun⟩ | ⟨hfits, lp', hrun, hpacks⟩
  · rw [hrun, if_pos hbig]
    exact ⟨lp, es, _, rfl, rfl, h⟩
  · rw [hrun, if_neg hfits]
    exact ⟨lp', _, _, rfl, rfl, hpacks⟩

theorem Packs.delete (junk : UInt8) (i : Nat) (results : List LpResult) :
    exists lp' es' results', lpStep junk (.delete i) (lp, results) = .ok (lp', results') ∧
      lpListStep (.delete i) (es, results) = (es', results') ∧ Packs es' lp' := by
  have helement := h.element i
  by_cases hi : i < es.length
  · have hsplit : es.take i ++ es[i] :: es.drop (i + 1) = es := by
      rw [← drop_eq_getElem_cons hi, take_append_drop]
    have hpointer : lpPointer es i = some (behind (es.take i)) := if_pos hi
    have hplace : place (es.take i) (es.drop (i + 1)) = lpPointer (es.eraseIdx i) i := by
      rw [place_eq_pointer, eraseIdx_eq_take_drop_succ, length_take, Nat.min_eq_left (by lia)]
    rcases h.form with ⟨count, hlp, hcounts⟩
    have hshort := h.short
    have hfits := h.fits
    rw [← hsplit] at hshort hfits hcounts
    rcases deleteAt_spec junk hshort hfits hcounts with ⟨count', hrun, hcounts'⟩
    rw [hsplit, ← hlp, hplace, ← eraseIdx_eq_take_drop_succ] at hrun
    rw [hpointer] at helement
    simp only [lpStep, lpAt, helement, lpDelete, lpInsert, hrun, lpFinish, lpListStep, if_pos hi]
    refine ⟨_, _, _, rfl, rfl, ?_, ?_, count', rfl, ?_⟩
    · have hadd := bytes_append_cons (es.take i) (es.drop (i + 1)) es[i]
      rw [eraseIdx_eq_take_drop_succ]
      lia
    · intro e he
      exact h.short e (mem_of_mem_eraseIdx he)
    · rw [eraseIdx_eq_take_drop_succ]
      exact hcounts'
  · have hpointer : lpPointer es i = none := if_neg hi
    rw [hpointer] at helement
    simp only [lpStep, lpAt, helement, lpListStep, if_neg hi]
    exact ⟨lp, es, _, rfl, rfl, h⟩

theorem Packs.length : exists lp', lpLength lp = some (lp', es.length) ∧ Packs es lp' := by
  rcases h.form with ⟨count, rfl, hcounts⟩
  have hget : lpGetNumElements (packed count es) = some count :=
    getNumElements_headed hcounts.left _ _
  by_cases hne : count ≠ LP_HDR_NUMELE_UNKNOWN
  · refine ⟨packed count es, ?_, h⟩
    have hcount : count = es.length := by
      rcases hcounts.right with hexact | hunknown
      · exact hexact
      · exact absurd hunknown hne
    simp only [lpLength, bind, Option.bind, hget, if_pos hne]
    rw [hcount]
  · have hbody := length_le_body es
    have hfits := h.fits
    have hbytes : (body es).length < bytes es := by
      unfold bytes
      lia
    have hfuel : es.length ≤ (packed count es).length := by
      rw [packed_length]
      lia
    have hlt : 0 + es.length < 2 ^ 32 := by
      unfold UINT32_MAX at hfits
      lia
    have hcount : countFrom (packed count es) (packed count es).length 0 (place [] es) =
        some (0 + es.length) :=
      countFrom_place count [] h.short hfuel hlt
    simp only [Nat.zero_add] at hcount
    simp only [lpLength, bind, Option.bind, hget, if_neg hne, lpFirst_place h.short, hcount]
    refine ⟨_, rfl, h.fits, h.short, ?_⟩
    by_cases hsmall : es.length < LP_HDR_NUMELE_UNKNOWN
    · rw [if_pos hsmall]
      exact ⟨es.length, setNumElements_headed _ _ _ _, Nat.le_of_lt hsmall, Or.inl rfl⟩
    · rw [if_neg hsmall]
      exact ⟨count, rfl, hcounts⟩

theorem Packs.decodes : decode lp = some es ∧ decodeBack lp = some es.reverse := by
  rcases h.form with ⟨count, rfl, _⟩
  have hfuel : es.length ≤ (packed count es).length := by
    have hbody := length_le_body es
    rw [packed_length]
    unfold bytes
    lia
  constructor
  · have hnext : traverse lpNext (packed count es) (packed count es).length (place [] es) =
        some es := traverse_next count [] h.short hfuel
    simp only [decode, bind, Option.bind, lpFirst_place h.short, hnext]
  have hprev := traverse_prev count [] h.short hfuel
  have hend : bytes es - 1 = behind es := by
    unfold bytes behind LP_HDR_SIZE
    lia
  have htotal : lpGetTotalBytes (packed count es) = some (bytes es) :=
    getTotalBytes_headed h.fits _ _
  rw [append_nil] at hprev
  simp only [decodeBack, lpLast, htotal, bind, Option.bind_some, hend]
  exact hprev

end

theorem packs_new : Packs [] lpNew :=
  ⟨by decide, fun _ he => absurd he not_mem_nil, 0, rfl, by decide, Or.inl rfl⟩

structure ReadsAs (es : List Sds) (lp : List UInt8) : Prop where
  forward : decode lp = some es
  backward : decodeBack lp = some es.reverse
  total : lpGetTotalBytes lp = some lp.length
  bytes : lp.length = bytes es
  count : lpGetNumElements lp = some es.length ∨
    lpGetNumElements lp = some LP_HDR_NUMELE_UNKNOWN
  length : exists lp', lpLength lp = some (lp', es.length)
  /-- a pointer designates the element of its number -/
  element : forall i, lpElement lp i = some (lpPointer es i)
  value : forall i e, es[i]? = some e -> exists v,
    lpGet (lp.drop (offset es i)) = some v ∧ v.string = e

theorem Packs.readsAs (h : Packs es lp) : ReadsAs es lp := by
  have hdecodes := h.decodes
  have helement := h.element
  rcases h.length with ⟨lp', hlength, _⟩
  rcases h.form with ⟨count, rfl, hcounts⟩
  refine ⟨hdecodes.left, hdecodes.right, ?_, packed_length count es, ?_, ⟨lp', hlength⟩, helement,
    ?_⟩
  · rw [packed_length]
    exact getTotalBytes_headed h.fits _ _
  · have hget : lpGetNumElements (packed count es) = some count :=
      getNumElements_headed hcounts.left _ _
    rcases hcounts.right with hexact | hunknown
    · rw [hget, hexact]
      exact Or.inl rfl
    · rw [hget, hunknown]
      exact Or.inr rfl
  · intro i e he
    have hi : i < es.length := (List.getElem?_eq_some_iff.mp he).choose
    have hei : es[i] = e := (List.getElem?_eq_some_iff.mp he).choose_spec
    have hsplit : es.take i ++ e :: es.drop (i + 1) = es := by
      rw [← hei, ← drop_eq_getElem_cons hi, take_append_drop]
    have hget := get_entry count (es.take i) (es.drop (i + 1)) (h.short e (hei ▸ getElem_mem hi))
    rw [hsplit] at hget
    exact hget

end Listpack

structure LpAgrees (st : List UInt8 × List LpResult) (a : List Sds × List LpResult) : Prop where
  packs : Packs a.1 st.1
  results : st.2 = a.2

theorem lpStep_agrees {junk : UInt8} {op : LpOp} {st : List UInt8 × List LpResult}
    {a : List Sds × List LpResult} (h : LpAgrees st a) (hop : op.Fits) :
    exists st', lpStep junk op st = .ok st' ∧ LpAgrees st' (lpListStep op a) := by
  rcases st with ⟨lp, results⟩
  rcases a with ⟨es, results'⟩
  rcases h with ⟨hpacks, hresults⟩
  dsimp only at hpacks hresults
  subst hresults
  have hfinish : (exists lp' es' results', lpStep junk op (lp, results) = .ok (lp', results') ∧
      lpListStep op (es, results) = (es', results') ∧ Packs es' lp') ->
      exists st', lpStep junk op (lp, results) = .ok st' ∧
        LpAgrees st' (lpListStep op (es, results)) := by
    rintro ⟨lp', es', results', hrun, hlist, hpacks'⟩
    refine ⟨_, hrun, ?_⟩
    rw [hlist]
    exact ⟨hpacks', rfl⟩
  apply hfinish
  cases op with
  | insert i wh ele => exact hpacks.insert junk i wh results hop
  | append ele => exact hpacks.append junk results hop
  | delete i => exact hpacks.delete junk i results
  | length =>
    rcases hpacks.length with ⟨lp', hlength, hpacks'⟩
    refine ⟨lp', es, _, ?_, rfl, hpacks'⟩
    simp only [lpStep, hlength]

/-- As long as the sum of `lpEncodeGetType` has 32 bits: every sequence of calls
succeeds, returns what the calls on the list of byte strings return, and leaves a listpack
that reads as that list in both directions. -/
theorem listpack_refines_list (junk : UInt8) (ops : List LpOp)
    (hfits : forall op, op ∈ ops -> op.Fits) :
    exists lp es results, runSteps (lpStep junk) ops (lpNew, []) = .ok (lp, results) ∧
      (es, results) = ops.foldl (fun a op => lpListStep op a) ([], []) ∧ ReadsAs es lp := by
  have hstep : forall (op : LpOp) st a, LpAgrees st a -> op.Fits ->
      exists st', lpStep junk op st = .ok st' ∧ LpAgrees st' (lpListStep op a) :=
    fun _ _ _ h hop => lpStep_agrees h hop
  have hall : AllSteps (lpStep junk) (fun op _ => op.Fits) ops (lpNew, []) :=
    allSteps_of_mem hfits
  have hinit : LpAgrees (lpNew, []) ([], []) := ⟨packs_new, rfl⟩
  rcases runSteps_simulates hstep hinit hall with ⟨⟨lp, results⟩, hrun, h⟩
  exact ⟨lp, _, results, hrun, Prod.ext rfl h.results, h.packs.readsAs⟩

theorem listpack_refines_list_integer :
    exists lp, runSteps (lpStep 0) [.append [65], .insert 0 .before [66], .insert 1 .replace [45, 55],
        .delete 0, .length] (lpNew, []) =
        .ok (lp, [.number 1, .pointer (some 6), .pointer (some 9), .pointer (some 6), .done]) ∧
      decode lp = some [[45, 55]] := by
  rcases listpack_refines_list 0 [.append [65], .insert 0 .before [66], .insert 1 .replace [45, 55],
    .delete 0, .length] (by simp [LpOp.Fits]) with ⟨lp, es, results, hrun, hlist, hreads⟩
  have hfold : (es, results) = ([[45, 55]],
      [.number 1, .pointer (some 6), .pointer (some 9), .pointer (some 6), .done]) := by
    rw [hlist]
    decide
  cases hfold
  exact ⟨lp, hrun, hreads.forward⟩

theorem enclen_wraps (hn : n + 5 = 2 ^ 32) :
    lpEncodeGetType (List.replicate n 65) = (.string, 0) := by
  have hstring : lpStringToInt64 (List.replicate n 65) = none := by
    rcases n with _ | n
    · lia
    · cases n with
      | zero => lia
      | succ n => rfl
  simp only [lpEncodeGetType, hstring, length_replicate]
  rw [if_neg (by lia), if_neg (by lia), Nat.add_comm, hn, Nat.mod_self]

theorem append_wraps (hn : n + 5 = 2 ^ 32) :
    lpStep 0 (.append (List.replicate n 65)) (lpNew, []) = .error .outOfBounds ∧
      lpListStep (.append (List.replicate n 65)) ([], []) = ([], [.null]) := by
  have htype := enclen_wraps hn
  have hlen : (lpEncodeString (List.replicate n 65)).length = 5 + n := by
    rw [lpEncodeString_length, length_replicate, if_neg (by lia), if_neg (by lia)]
  have hencode : encode (List.replicate n 65) = lpEncodeString (List.replicate n 65) := by
    unfold encode
    unfold lpEncodeGetType at htype
    cases hint : lpStringToInt64 (List.replicate n 65) with
    | none => rfl
    | some v =>
      rw [hint] at htype
      cases htype
  constructor
  · have htotal : lpGetTotalBytes lpNew = some 7 := rfl
    have hroom : makeRoom 0 lpNew 7 8 6 1 0 = some [7, 0, 0, 0, 0, 0, 255, 255] := by decide
    have hstore : storeEntry [7, 0, 0, 0, 0, 0, 255, 255] 6 (List.replicate n 65) = none := by
      simp only [storeEntry, htype, LpEncoding.stored, memcpy, hlen]
      rw [if_neg (by simp only [length_cons, length_nil]; lia)]
      rfl
    have hback : (lpEncodeBacklen 0).length = 1 := rfl
    simp only [lpStep, lpAppend, bind, Option.bind, htotal, lpInsert, insertAt, htype, hback,
      Bool.false_eq_true, if_false]
    rw [if_neg (by decide)]
    simp only [hroom, hstore]
  · simp only [lpListStep, listWrite, nil_append]
    rw [if_pos]
    unfold bytes UINT32_MAX
    rw [body_cons, body_nil, append_nil, entry_length, hencode, hlen]
    lia

theorem listpack_length_wraps :
    exists ele : Sds, ele.length < 2 ^ 32 ∧
      lpStep 0 (.append ele) (lpNew, []) = .error .outOfBounds ∧
      lpListStep (.append ele) ([], []) = ([], [.null]) := by
  have hn : 2 ^ 32 - 5 + 5 = 2 ^ 32 := rfl
  refine ⟨List.replicate (2 ^ 32 - 5) 65, ?_, append_wraps hn⟩
  rw [length_replicate]
  lia

end Redisoo
