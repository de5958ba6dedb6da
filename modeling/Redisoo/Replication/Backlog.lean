import Redisoo.Foundation.Ring

/-!
# The replication backlog

The backlog is a circular buffer with a write index, a history length and the offset of
its first byte, which the functions keep separately.  Offsets are counted from the start
of the replication stream and do not overflow here.
-/

namespace Redisoo

open Foundation List

structure Backlog where
  replBacklog : Option (Nat -> UInt8)
  replBacklogSize : Nat
  replBacklogHistlen : Nat
  replBacklogIdx : Nat
  replBacklogOff : Int
  masterReplOffset : Int
  masterReplMeaningfulOffset : Int

namespace Backlog

def CONFIG_REPL_BACKLOG_MIN_SIZE : Nat := 1024 * 16

def createReplicationBacklog (s : Backlog) (fresh : Nat -> UInt8) : Backlog :=
  { s with
    replBacklog := some fresh
    replBacklogHistlen := 0
    replBacklogIdx := 0
    replBacklogOff := s.masterReplOffset + 1 }

def resizeReplicationBacklog (s : Backlog) (newsize : Int) (fresh : Nat -> UInt8) : Backlog :=
  let newsize :=
    if newsize < CONFIG_REPL_BACKLOG_MIN_SIZE then CONFIG_REPL_BACKLOG_MIN_SIZE
    else newsize.toNat
  if s.replBacklogSize = newsize then s
  else
    match s.replBacklog with
    | none => { s with replBacklogSize := newsize }
    | some _ =>
      { s with
        replBacklogSize := newsize
        replBacklog := some fresh
        replBacklogHistlen := 0
        replBacklogIdx := 0
        replBacklogOff := s.masterReplOffset + 1 }

def freeReplicationBacklog (s : Backlog) : Backlog :=
  { s with replBacklog := none }

/-- The loop of `feedReplicationBacklog`: the buffer, the index and the history length.
Every round takes a byte at least, so that the rounds are at most the bytes. -/
def feedLoop (size : Nat) :
    Nat -> (Nat -> UInt8) -> Nat -> Nat -> List UInt8 -> (Nat -> UInt8) × Nat × Nat
  | 0, buf, idx, histlen, _ => (buf, idx, histlen)
  | fuel + 1, buf, idx, histlen, p =>
    if p.length = 0 then (buf, idx, histlen)
    else
      let thislen := if size - idx > p.length then p.length else size - idx
      feedLoop size fuel (Ring.memcpy buf idx (p.take thislen))
        (if idx + thislen = size then 0 else idx + thislen) (histlen + thislen)
        (p.drop thislen)

/-- All callers test the buffer for `NULL` before, which is done here. -/
def feedReplicationBacklog (s : Backlog) (p : List UInt8) : Backlog :=
  match s.replBacklog with
  | none => s
  | some buf =>
    let masterReplOffset := s.masterReplOffset + p.length
    let (buf, idx, histlen) :=
      feedLoop s.replBacklogSize p.length buf s.replBacklogIdx s.replBacklogHistlen p
    let histlen := if histlen > s.replBacklogSize then s.replBacklogSize else histlen
    { s with
      replBacklog := some buf
      replBacklogIdx := idx
      replBacklogHistlen := histlen
      replBacklogOff := masterReplOffset - histlen + 1
      masterReplOffset := masterReplOffset
      masterReplMeaningfulOffset := masterReplOffset }

/-- The loop of `addReplyReplicationBacklog`, which goes around the end once at most. -/
def sendLoop (size : Nat) (buf : Nat -> UInt8) : Nat -> Nat -> Nat -> List UInt8
  | 0, _, _ => []
  | fuel + 1, j, len =>
    if len = 0 then []
    else
      let thislen := if size - j < len then size - j else len
      Ring.slice buf j thislen ++ sendLoop size buf fuel 0 (len - thislen)

def addReplyReplicationBacklog (s : Backlog) (offset : Int) : List UInt8 × Int :=
  match s.replBacklog with
  | none => ([], 0)
  | some buf =>
    if s.replBacklogHistlen = 0 then ([], 0)
    else
      let skip := offset - s.replBacklogOff
      let j := (s.replBacklogIdx + (s.replBacklogSize - s.replBacklogHistlen)) %
        s.replBacklogSize
      let j := ((j : Int) + skip).tmod s.replBacklogSize
      let len := (s.replBacklogHistlen : Int) - skip
      (sendLoop s.replBacklogSize buf len.toNat j.toNat len.toNat,
        s.replBacklogHistlen - skip)

/-!
# The stream behind the backlog

`Follows s stream base` says that a backlog is about a stream whose first byte has the
offset `base + 1`.
-/

structure Follows (s : Backlog) (base : Int) (stream : List UInt8) : Prop where
  offset : s.masterReplOffset = base + stream.length
  first : s.replBacklogOff = s.masterReplOffset - s.replBacklogHistlen + 1
  fits : s.replBacklogHistlen ≤ s.replBacklogSize
  known : s.replBacklogHistlen ≤ stream.length
  held : exists buf, s.replBacklog = some buf ∧
    Ring.Holds s.replBacklogSize buf s.replBacklogIdx s.replBacklogHistlen stream.reverse

theorem follows_create (s : Backlog) (hsize : 0 < s.replBacklogSize) (fresh : Nat -> UInt8) :
    (s.createReplicationBacklog fresh).Follows s.masterReplOffset [] where
  offset := by simp [createReplicationBacklog]
  first := by simp [createReplicationBacklog]
  fits := Nat.zero_le _
  known := Nat.zero_le _
  held := ⟨fresh, rfl, Ring.Holds.start fresh hsize _⟩

theorem feedLoop_spec {size fuel idx histlen : Nat} {buf : Nat -> UInt8} {hist p : List UInt8}
    (h : Ring.Holds size buf idx histlen hist) (hfuel : p.length ≤ fuel) :
    exists buf' idx', feedLoop size fuel buf idx histlen p = (buf', idx', histlen + p.length) ∧
      Ring.Holds size buf' idx' (histlen + p.length) (p.reverse ++ hist) := by
  induction fuel generalizing buf idx histlen hist p with
  | zero =>
    have hnil : p = [] := length_eq_zero_iff.mp (Nat.le_zero.mp hfuel)
    subst hnil
    exact ⟨buf, idx, rfl, h⟩
  | succ fuel ih =>
    rw [feedLoop]
    by_cases hempty : p.length = 0
    · have hnil : p = [] := length_eq_zero_iff.mp hempty
      subst hnil
      exact ⟨buf, idx, rfl, h⟩
    rw [if_neg hempty]
    have hbound := h.bound
    generalize hthis : (if size - idx > p.length then p.length else size - idx) = thislen
    have hrange : 0 < thislen ∧ thislen ≤ p.length ∧ idx + thislen ≤ size := by
      split at hthis
      · lia
      · lia
    have hlen : (p.take thislen).length = thislen := by
      rw [length_take]
      lia
    have hwrite := h.write (show idx + (p.take thislen).length ≤ size by
      rw [hlen]; exact hrange.right.right)
    rw [hlen] at hwrite
    have hrest := ih (p := p.drop thislen) hwrite (by rw [length_drop]; lia)
    rcases hrest with ⟨buf', idx', hloop, hholds⟩
    have hcount : histlen + thislen + (p.drop thislen).length = histlen + p.length := by
      rw [length_drop]
      lia
    have hhist : (p.drop thislen).reverse ++ ((p.take thislen).reverse ++ hist) =
        p.reverse ++ hist := by
      rw [← append_assoc, ← reverse_append, take_append_drop]
    rw [hcount] at hloop hholds
    rw [hhist] at hholds
    exact ⟨buf', idx', hloop, hholds⟩

variable {s : Backlog} {base : Int} {stream : List UInt8}

theorem follows_feed (h : s.Follows base stream) (p : List UInt8) :
    (s.feedReplicationBacklog p).Follows base (stream ++ p) := by
  rcases h.held with ⟨buf, hbuf, hholds⟩
  rcases feedLoop_spec hholds (Nat.le_refl p.length) with ⟨buf', idx', hloop, hholds'⟩
  have hoffset := h.offset
  have hknown := h.known
  have hfeed : s.feedReplicationBacklog p =
      { s with
        replBacklog := some buf'
        replBacklogIdx := idx'
        replBacklogHistlen := min (s.replBacklogHistlen + p.length) s.replBacklogSize
        replBacklogOff := s.masterReplOffset + p.length -
          (min (s.replBacklogHistlen + p.length) s.replBacklogSize : Nat) + 1
        masterReplOffset := s.masterReplOffset + p.length
        masterReplMeaningfulOffset := s.masterReplOffset + p.length } := by
    have hmin : (if s.replBacklogHistlen + p.length > s.replBacklogSize then s.replBacklogSize
        else s.replBacklogHistlen + p.length) =
          min (s.replBacklogHistlen + p.length) s.replBacklogSize := by
      split
      · lia
      · lia
    simp only [feedReplicationBacklog, hbuf, hloop, hmin]
  rw [hfeed]
  constructor
  · change s.masterReplOffset + (p.length : Int) = base + ((stream ++ p).length : Nat)
    rw [length_append]
    lia
  · rfl
  · exact Nat.min_le_right _ _
  · change min (s.replBacklogHistlen + p.length) s.replBacklogSize ≤ (stream ++ p).length
    rw [length_append]
    lia
  · refine ⟨buf', rfl, ?_⟩
    rw [reverse_append]
    exact hholds'.mono (Nat.min_le_left _ _)

theorem follows_resize (h : s.Follows base stream) (newsize : Int) (fresh : Nat -> UInt8) :
    (s.resizeReplicationBacklog newsize fresh).Follows base stream := by
  rcases h.held with ⟨buf, hbuf, _⟩
  unfold resizeReplicationBacklog
  generalize hnew : (if newsize < (CONFIG_REPL_BACKLOG_MIN_SIZE : Int) then
    CONFIG_REPL_BACKLOG_MIN_SIZE else newsize.toNat) = size
  have hsize : 0 < size := by
    unfold CONFIG_REPL_BACKLOG_MIN_SIZE at hnew
    split at hnew
    · lia
    · lia
  simp only [hbuf]
  split
  · exact h
  constructor
  · exact h.offset
  · simp
  · exact Nat.zero_le _
  · exact Nat.zero_le _
  · exact ⟨fresh, rfl, Ring.Holds.start fresh hsize _⟩

theorem sendLoop_spec {size j len fuel : Nat} {buf : Nat -> UInt8} (hj : j < size)
    (hlen : len ≤ size) (hfuel : len ≤ fuel) :
    sendLoop size buf fuel j len =
      if size - j < len then Ring.slice buf j (size - j) ++ Ring.slice buf 0 (len - (size - j))
      else Ring.slice buf j len := by
  rcases fuel with _ | fuel
  · have hzero : len = 0 := Nat.le_zero.mp hfuel
    subst hzero
    rw [if_neg (Nat.not_lt_zero _)]
    rfl
  · rw [sendLoop]
    by_cases hempty : len = 0
    · subst hempty
      rw [if_pos rfl, if_neg (Nat.not_lt_zero _)]
      rfl
    rw [if_neg hempty]
    by_cases hwrap : size - j < len
    · rcases fuel with _ | fuel
      · lia
      simp only [if_pos hwrap]
      rw [sendLoop, if_neg (by lia)]
      have hrest : Not (size - 0 < len - (size - j)) := by lia
      simp only [if_neg hrest, Nat.sub_self]
      congr 1
      rcases fuel with _ | fuel
      · exact append_nil _
      · rw [sendLoop, if_pos rfl, append_nil]
    · simp only [if_neg hwrap, Nat.sub_self]
      rcases fuel with _ | fuel
      · exact append_nil _
      · rw [sendLoop, if_pos rfl, append_nil]

theorem follows_send (h : s.Follows base stream) {o : Int} (hlow : s.replBacklogOff ≤ o)
    (hhigh : o ≤ s.masterReplOffset + 1) :
    s.addReplyReplicationBacklog o =
      (stream.drop (o - base - 1).toNat, ((stream.drop (o - base - 1).toNat).length : Int)) := by
  rcases h.held with ⟨buf, hbuf, hholds⟩
  have hoffset := h.offset
  have hfirst := h.first
  have hfits := h.fits
  have hknown := h.known
  have hbound := hholds.bound
  rcases Nat.eq_zero_or_pos s.replBacklogHistlen with hzero | hpos
  · have hend : (o - base - 1).toNat = stream.length := by lia
    simp only [addReplyReplicationBacklog, hbuf, if_pos hzero, hend, drop_length]
    rfl
  have hhist : Not (s.replBacklogHistlen = 0) := by lia
  -- `m` bytes are left behind the ones that are skipped
  obtain ⟨m, hm⟩ : exists m : Nat, (m : Int) = s.masterReplOffset + 1 - o :=
    ⟨(s.masterReplOffset + 1 - o).toNat, by lia⟩
  have hskip : o - s.replBacklogOff = ((s.replBacklogHistlen - m : Nat) : Int) := by lia
  have hleft : ((s.replBacklogHistlen : Int) - ((s.replBacklogHistlen - m : Nat) : Int)) = m := by
    lia
  have hstart : (o - base - 1).toNat = stream.length - m := by lia
  have hstream : stream.drop (stream.length - m) = (stream.reverse.take m).reverse := by
    rw [take_reverse, reverse_reverse]
  have hread := hholds.read (m := m) (by lia) hfits
  simp only [addReplyReplicationBacklog, hbuf, if_neg hhist, hskip, hleft, hstart]
  have hlength : ((stream.drop (stream.length - m)).length : Int) = m := by
    rw [length_drop]
    lia
  rw [hlength, Int.toNat_natCast, hstream, hread]
  have hj : (((s.replBacklogIdx + (s.replBacklogSize - s.replBacklogHistlen)) %
      s.replBacklogSize : Nat) + ((s.replBacklogHistlen - m : Nat) : Int)).tmod
        (s.replBacklogSize : Int) =
      (((s.replBacklogIdx + (s.replBacklogSize - m)) % s.replBacklogSize : Nat) : Int) := by
    rw [← Int.natCast_add, ← Int.ofNat_tmod, Nat.mod_add_mod]
    congr 2
    lia
  rw [hj, Int.toNat_natCast]
  have hmod : (s.replBacklogIdx + (s.replBacklogSize - m)) % s.replBacklogSize =
      if m = 0 then s.replBacklogIdx
      else if m ≤ s.replBacklogIdx then s.replBacklogIdx - m
      else s.replBacklogIdx + s.replBacklogSize - m := by
    split
    · next hzero =>
      rw [hzero, Nat.sub_zero, Nat.add_mod_right, Nat.mod_eq_of_lt hbound]
    split
    · rw [Nat.mod_eq_sub_mod (by lia), Nat.mod_eq_of_lt (by lia)]
      lia
    · rw [Nat.mod_eq_of_lt (by lia)]
      lia
  rw [sendLoop_spec (Nat.mod_lt _ (by lia)) (by lia) (Nat.le_refl m), hmod]
  rcases Nat.eq_zero_or_pos m with hm0 | hm0
  · subst hm0
    rfl
  rw [if_neg (by lia : Not (m = 0))]
  by_cases hle : m ≤ s.replBacklogIdx
  · rw [if_pos hle, if_neg (by lia), if_pos hle]
  rw [if_neg hle, if_neg hle]
  by_cases hwrap : s.replBacklogIdx = 0
  · rw [if_neg (by lia), hwrap, Nat.sub_zero]
    exact congrArg (·, (m : Int)) (append_nil _).symm
  rw [if_pos (by lia)]
  congr 3
  · lia
  · lia

/-!
# Runs
-/

inductive BacklogOp where
  | feed (p : List UInt8)
  | resize (newsize : Int) (fresh : Nat -> UInt8)

def apply (s : Backlog) : BacklogOp -> Backlog
  | .feed p => s.feedReplicationBacklog p
  | .resize newsize fresh => s.resizeReplicationBacklog newsize fresh

def BacklogOp.fed : BacklogOp -> List UInt8
  | .feed p => p
  | .resize _ _ => []

theorem follows_apply (h : s.Follows base stream) (op : BacklogOp) :
    (s.apply op).Follows base (stream ++ op.fed) := by
  cases op with
  | feed p => exact follows_feed h p
  | resize newsize fresh =>
    rw [BacklogOp.fed, append_nil]
    exact follows_resize h newsize fresh

theorem follows_run (h : s.Follows base stream) (ops : List BacklogOp) :
    (ops.foldl apply s).Follows base (stream ++ ops.flatMap BacklogOp.fed) := by
  induction ops generalizing s stream with
  | nil =>
    rw [flatMap_nil, append_nil]
    exact h
  | cons op ops ih =>
    rw [flatMap_cons, ← append_assoc]
    exact ih (follows_apply h op)

/-- The backlog is the end of the stream that was fed since its creation. -/
theorem backlog_is_stream_suffix (s0 : Backlog) (hsize : 0 < s0.replBacklogSize)
    (fresh : Nat -> UInt8) (ops : List BacklogOp) :
    let s := ops.foldl apply (s0.createReplicationBacklog fresh)
    let stream := ops.flatMap BacklogOp.fed
    s.masterReplOffset = s0.masterReplOffset + stream.length ∧
      s.replBacklogOff = s.masterReplOffset - s.replBacklogHistlen + 1 ∧
      forall o, s.replBacklogOff ≤ o -> o ≤ s.masterReplOffset + 1 ->
        s0.masterReplOffset < o ∧
          s.addReplyReplicationBacklog o =
            (stream.drop (o - s0.masterReplOffset - 1).toNat,
              ((stream.drop (o - s0.masterReplOffset - 1).toNat).length : Int)) := by
  intro s stream
  have h : s.Follows s0.masterReplOffset stream := follows_run (follows_create s0 hsize fresh) ops
  refine ⟨h.offset, h.first, ?_⟩
  intro o hlow hhigh
  have hoffset := h.offset
  have hfirst := h.first
  have hknown := h.known
  exact ⟨by lia, follows_send h hlow hhigh⟩

theorem backlog_is_stream_suffix_wrapped :
    let s0 : Backlog :=
      { replBacklog := none, replBacklogSize := 4, replBacklogHistlen := 0, replBacklogIdx := 0,
        replBacklogOff := 0, masterReplOffset := 100, masterReplMeaningfulOffset := 100 }
    let s := [BacklogOp.feed [1, 2, 3], BacklogOp.feed [4, 5, 6]].foldl apply
      (s0.createReplicationBacklog fun _ => 0)
    s.addReplyReplicationBacklog 104 = ([4, 5, 6], 3) := by
  intro s0 s
  have h := (backlog_is_stream_suffix s0 (by decide) (fun _ => 0)
    [.feed [1, 2, 3], .feed [4, 5, 6]]).right.right 104 (by decide) (by decide)
  exact h.right

end Backlog
end Redisoo
