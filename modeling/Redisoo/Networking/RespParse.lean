import Redisoo.Foundation.Run
import Redisoo.Networking.Resp
import Redisoo.Persistence.AofRead

/-!
# Parsing does not depend on the reads

However the bytes of a list of requests are cut into reads, the client executes the
requests.  Between two reads the query buffer and the counters of the client describe
where in the text of the requests it is.
-/

namespace Redisoo

open Foundation Foundation.Stdio Aof Resp List RespClient Util

namespace Resp

def requests (cmds : List (List Sds)) : List UInt8 :=
  cmds.flatMap catAppendOnlyGenericCommand

/-- The limits of the protocol: the number of arguments, the length of an argument, and
what the query buffer must hold to read it. -/
structure WithinLimits (srv : RespServer) (argv : List Sds) : Prop where
  nonempty : argv ≠ []
  count : argv.length ≤ 1024 * 1024
  bulk : forall s, s ∈ argv -> s.length ≤ srv.protoMaxBulkLen
  buffer : forall s, s ∈ argv ->
    s.length + 2 ≤ srv.clientMaxQuerybufLen ∧ 3 * PROTO_IOBUF_LEN ≤ srv.clientMaxQuerybufLen

/-!
# Lines
-/

theorem line_eq (b : UInt8) (v : Nat) : line b v = (b :: decimal v) ++ [13] := rfl

variable {fuel v : Nat} {b : UInt8} {c : RespClient} {cmd : List Sds}

theorem decimal_clean (hb : b ∈ decimal v) : b ≠ 13 ∧ b ≠ 0 := by
  have hdigit := (numeral_decimal v).isDigit b hb
  constructor
  · rintro rfl
    exact absurd hdigit (by decide)
  · rintro rfl
    exact absurd hdigit (by decide)

variable {future : List UInt8} {srv : RespServer} {cmds : List (List Sds)}
  {u rest nread : List UInt8}

theorem findLine_line (hb : b ≠ 13 ∧ b ≠ 0) (hv : v < 2 ^ 63)
    (htext : u ++ future = line b v ++ 10 :: rest) :
    (findLine u = .incomplete ∧ u.length < (line b v).length + 1) ∨
      (findLine u = .at (b :: decimal v).length ∧
        exists u', u = line b v ++ 10 :: u' ∧ u' ++ future = rest) := by
  have hlen := line_length (b := b) hv
  have hclean : forall x, x ∈ b :: decimal v -> x ≠ 13 ∧ x ≠ 0 := by
    intro x hx
    rcases mem_cons.mp hx with rfl | hx
    · exact hb
    · exact decimal_clean hx
  have hlength : (line b v).length = (b :: decimal v).length + 1 := by
    rw [line_eq, length_append, length_singleton]
  unfold findLine
  by_cases hshort : u.length < (line b v).length + 1
  · have hbegin : u = (line b v ++ [10]).take u.length := by
      have htake : (u ++ future).take u.length = u := take_left
      rw [htext, append_cons, take_append_of_le_length] at htake
      · exact htake.symm
      · rw [length_append, length_singleton]
        lia
    left
    refine ⟨?_, hshort⟩
    by_cases hcr : u.length = (line b v).length
    · -- only the newline is missing
      have hu : u = (b :: decimal v) ++ 13 :: [] := by
        rw [hbegin, hcr, take_left]
        rfl
      have hfind : strchr 13 ((b :: decimal v) ++ 13 :: []) =
          some (b :: decimal v).length := strchr_some hclean
      rw [← hu] at hfind
      rw [hfind]
      dsimp only
      rw [if_pos (by lia)]
    · have hnone : strchr 13 u = none := by
        apply strchr_none
        intro x hx
        have hmem : x ∈ (b :: decimal v).take u.length := by
          rw [hbegin, line_eq, append_assoc, take_append_of_le_length (by lia)] at hx
          exact hx
        exact (hclean x (mem_of_mem_take hmem)).left
      rw [hnone]
      dsimp only
      rw [if_neg (by unfold PROTO_INLINE_MAX_SIZE; lia)]
  · right
    have hsplit : u = line b v ++ 10 :: u.drop ((line b v).length + 1) := by
      have htake : (u ++ future).take ((line b v).length + 1) =
          u.take ((line b v).length + 1) := take_append_of_le_length (by lia)
      rw [htext, append_cons, take_left' (by simp)] at htake
      rw [append_cons, htake, take_append_drop]
    have hrest : u.drop ((line b v).length + 1) ++ future = rest := by
      rw [hsplit, append_assoc, cons_append] at htext
      have hcancel := append_cancel_left htext
      injection hcancel
    refine ⟨?_, _, hsplit, hrest⟩
    have hfind : strchr 13 ((b :: decimal v) ++ 13 :: 10 :: u.drop ((line b v).length + 1)) =
        some (b :: decimal v).length := strchr_some hclean
    have hu : (b :: decimal v) ++ 13 :: 10 :: u.drop ((line b v).length + 1) = u := by
      conv_rhs => rw [hsplit, line_eq, append_assoc]
      rfl
    rw [hu] at hfind
    rw [hfind]
    dsimp only
    rw [if_neg (by lia)]

theorem line_number (hv : v ≤ Util.LLONG_MAX) (u : List UInt8) :
    string2ll (((line b v ++ 10 :: u).drop 1).take ((b :: decimal v).length - 1)) =
      some (v : Int) := by
  have htake : ((line b v ++ 10 :: u).drop 1).take ((b :: decimal v).length - 1) = decimal v := by
    rw [line_eq, append_assoc, cons_append, drop_succ_cons, drop_zero,
      length_cons, Nat.add_sub_cancel, take_left]
  have hrange : Util.LLONG_MIN ≤ (v : Int) ∧ (v : Int) ≤ Util.LLONG_MAX := by
    unfold Util.LLONG_MIN
    lia
  have hread := string2ll_ll2string hrange
  rw [ll2string_of_nonneg] at hread
  rw [htake, hread]

theorem line_drop (b : UInt8) (v : Nat) (u : List UInt8) :
    (line b v ++ 10 :: u).drop ((b :: decimal v).length + 2) = u := by
  have hlen : (line b v ++ [10]).length = (b :: decimal v).length + 2 := by
    rw [line_eq, length_append, length_append]
    rfl
  rw [append_cons]
  exact drop_left' hlen

/-!
# Where the client is
-/

structure Open (c : RespClient) : Prop where
  afterReply : c.closeAfterReply = false
  asap : c.closeAsap = false
  replies : c.replies = []

structure Idle (c : RespClient) (future : List UInt8) (cmds : List (List Sds)) : Prop where
  isOpen : Open c
  multibulklen : c.multibulklen = 0
  bulklen : c.bulklen = -1
  argv : c.argv = []
  reqtype : c.reqtype ≠ some .inline
  text : c.unread ++ future = requests cmds

structure AtBulks (c : RespClient) (future : List UInt8) (args : List Sds)
    (cmds : List (List Sds)) : Prop where
  isOpen : Open c
  multibulklen : c.multibulklen = args.length
  bulklen : c.bulklen = -1
  reqtype : c.reqtype = some .multibulk
  text : c.unread ++ future = args.flatMap bulk ++ requests cmds

structure InBulk (c : RespClient) (future : List UInt8) (arg : Sds) (args : List Sds)
    (cmds : List (List Sds)) : Prop where
  isOpen : Open c
  multibulklen : c.multibulklen = args.length + 1
  bulklen : c.bulklen = arg.length
  reqtype : c.reqtype = some .multibulk
  text : c.unread ++ future = arg ++ (crlf ++ (args.flatMap bulk ++ requests cmds))

structure Keeps (c c' : RespClient) : Prop where
  executed : c'.executed = c.executed
  shorter : c'.unread.length < c.unread.length

theorem Keeps.trans {c' c'' : RespClient} (h : Keeps c c') (h' : Keeps c' c'') : Keeps c c'' :=
  ⟨h'.executed.trans h.executed, Nat.lt_trans h'.shorter h.shorter⟩

theorem unread_length (c : RespClient) : c.unread.length = c.querybuf.length - c.qbPos :=
  length_drop

theorem skipLine_eq (ll : Nat) (hu : c.unread = line b v ++ 10 :: u) :
    exists buf pos,
      ({ c with qbPos := c.qbPos + (b :: decimal v).length + 2 } :
        RespClient).makeBoundary ll = { c with querybuf := buf, qbPos := pos } ∧
      buf.drop pos = u := by
  have hunread : c.querybuf.drop (c.qbPos + (b :: decimal v).length + 2) = u := by
    rw [Nat.add_assoc, ← drop_drop]
    change c.unread.drop _ = u
    rw [hu, line_drop]
  unfold makeBoundary
  split
  · exact ⟨_, _, rfl, hunread⟩
  · exact ⟨_, _, rfl, hunread⟩

/-!
# A bulk
-/

variable {arg : Sds} {args : List Sds}

theorem readBulkLen_spec (h : AtBulks c future (arg :: args) cmds)
    (harg : arg.length ≤ srv.protoMaxBulkLen) :
    (readBulkLen srv c = .incomplete ∧ c.unread.length < (line 36 arg.length).length + 1) ∨
      exists c', readBulkLen srv c = .known c' ∧ InBulk c' future arg args cmds ∧
        c'.argv = c.argv ∧ Keeps c c' := by
  have hmax : arg.length ≤ Util.LLONG_MAX := Nat.le_trans harg srv.isLongLong
  have hlt : arg.length < 2 ^ 63 := by
    unfold Util.LLONG_MAX at hmax
    lia
  have htext : c.unread ++ future =
      line 36 arg.length ++ 10 :: (arg ++ (crlf ++ (args.flatMap bulk ++ requests cmds))) := by
    rw [h.text, flatMap_cons, bulk_eq]
    simp only [append_assoc, cons_append]
  unfold readBulkLen
  rw [if_pos h.bulklen]
  rcases findLine_line (by decide) hlt htext with ⟨hscan, hshort⟩ | ⟨hscan, u', hu, hrest⟩
  · rw [hscan]
    exact Or.inl ⟨rfl, hshort⟩
  have hhead : Not (c.unread.head? ≠ some 36) := by
    rw [hu]
    exact not_not_intro rfl
  have hnumber := line_number (b := 36) hmax u'
  rw [← hu] at hnumber
  rw [hscan]
  dsimp only
  rw [if_neg hhead, hnumber]
  dsimp only
  rw [if_neg (by lia), Int.toNat_natCast]
  rcases skipLine_eq arg.length hu with ⟨buf, pos, hbound, hdrop⟩
  right
  rw [hbound]
  refine ⟨_, rfl, ⟨⟨h.isOpen.afterReply, h.isOpen.asap, h.isOpen.replies⟩, h.multibulklen, rfl,
    h.reqtype, ?_⟩, rfl, rfl, ?_⟩
  · change buf.drop pos ++ future = _
    rw [hdrop, hrest]
  · change (buf.drop pos).length < _
    rw [hdrop, hu, length_append, length_cons]
    lia

theorem readBulkArg_spec (h : InBulk c future arg args cmds) :
    (readBulkArg c = none ∧ c.unread.length < arg.length + 2) ∨
      exists c', readBulkArg c = some c' ∧ AtBulks c' future args cmds ∧
        c'.argv = c.argv ++ [arg] ∧ Keeps c c' := by
  have hlen : c.bulklen.toNat = arg.length := by
    rw [h.bulklen, Int.toNat_natCast]
  unfold readBulkArg
  dsimp only
  rw [hlen, ← unread_length]
  by_cases hshort : c.unread.length < arg.length + 2
  · rw [if_pos hshort]
    exact Or.inl ⟨rfl, hshort⟩
  -- the bulk and its end are there
  have hsplit : c.unread = arg ++ (crlf ++ c.unread.drop (arg.length + 2)) := by
    have htake : (c.unread ++ future).take (arg.length + 2) = c.unread.take (arg.length + 2) :=
      take_append_of_le_length (by lia)
    rw [h.text, ← append_assoc, take_left' (by simp [crlf])] at htake
    rw [← append_assoc, htake, take_append_drop]
  have hrest : c.unread.drop (arg.length + 2) ++ future = args.flatMap bulk ++ requests cmds := by
    have htext := h.text
    rw [hsplit, append_assoc, append_assoc] at htext
    exact append_cancel_left (append_cancel_left htext)
  have hcount : c.multibulklen - 1 = args.length := by
    rw [h.multibulklen, Nat.add_sub_cancel]
  right
  rw [if_neg hshort]
  by_cases hwhole : c.qbPos = 0 ∧ arg.length ≥ PROTO_MBULK_BIG_ARG ∧
      c.querybuf.length = arg.length + 2
  · -- the query buffer becomes the argument
    have hbuf : c.unread = c.querybuf := by
      unfold unread
      rw [hwhole.left, drop_zero]
    have hnothing : c.unread.drop (arg.length + 2) = [] :=
      drop_of_length_le (by rw [hbuf, hwhole.right.right])
    have htake : c.querybuf.take (c.querybuf.length - 2) = arg := by
      rw [hwhole.right.right, Nat.add_sub_cancel, ← hbuf, hsplit, take_left]
    rw [if_pos hwhole, htake, hcount]
    refine ⟨_, rfl, ⟨⟨h.isOpen.afterReply, h.isOpen.asap, h.isOpen.replies⟩, rfl, rfl,
      h.reqtype, ?_⟩, rfl, rfl, ?_⟩
    · change [].drop c.qbPos ++ future = _
      rw [← hrest, hnothing, drop_nil]
    · change ([].drop c.qbPos).length < _
      rw [drop_nil, length_nil]
      lia
  · have htake : c.unread.take arg.length = arg := by
      rw [hsplit, take_left]
    have hunread : c.querybuf.drop (c.qbPos + arg.length + 2) = c.unread.drop (arg.length + 2) := by
      rw [Nat.add_assoc, ← drop_drop]
      rfl
    rw [if_neg hwhole, htake, hcount]
    refine ⟨_, rfl, ⟨⟨h.isOpen.afterReply, h.isOpen.asap, h.isOpen.replies⟩, rfl, rfl,
      h.reqtype, ?_⟩, rfl, rfl, ?_⟩
    · change c.querybuf.drop (c.qbPos + arg.length + 2) ++ future = _
      rw [hunread, hrest]
    · change (c.querybuf.drop (c.qbPos + arg.length + 2)).length < _
      rw [hunread, length_drop]
      lia

/-!
# A request
-/

inductive Waits (c : RespClient) (future : List UInt8) : List (List Sds) -> Prop
  | idle {cmds : List (List Sds)} (h : Idle c future cmds)
      (hfresh : c.unread = [] -> c.reqtype = none)
      (hshort : forall cmd rest, cmds = cmd :: rest ->
        c.unread.length < (line 42 cmd.length).length + 1) : Waits c future cmds
  | atBulks {arg : Sds} {args : List Sds} {cmds : List (List Sds)}
      (h : AtBulks c future (arg :: args) cmds)
      (hshort : c.unread.length < (line 36 arg.length).length + 1) :
      Waits c future ((c.argv ++ arg :: args) :: cmds)
  | inBulk {arg : Sds} {args : List Sds} {cmds : List (List Sds)}
      (h : InBulk c future arg args cmds) (hshort : c.unread.length < arg.length + 2) :
      Waits c future ((c.argv ++ arg :: args) :: cmds)

structure Complete (c : RespClient) (future : List UInt8) (cmd : List Sds)
    (cmds : List (List Sds)) : Prop where
  isOpen : Open c
  argv : c.argv = cmd
  text : c.unread ++ future = requests cmds

def Outcome (c c' : RespClient) (future : List UInt8) (done : Bool) (cmd : List Sds)
    (cmds : List (List Sds)) : Prop :=
  if done then Complete c' future cmd cmds ∧ Keeps c c'
  else Waits c' future (cmd :: cmds) ∧ c'.executed = c.executed

section Bulks

variable (srv : RespServer) {future : List UInt8} {cmds : List (List Sds)} {c : RespClient}
  {args : List Sds}

open Waits

theorem readBulks_atBulks {c0 : RespClient} (h : AtBulks c future args cmds)
    (hlimit : forall s, s ∈ args -> s.length ≤ srv.protoMaxBulkLen)
    (hexecuted : c.executed = c0.executed) (hle : c.unread.length ≤ c0.unread.length)
    (hlt : args = [] -> c.unread.length < c0.unread.length) :
    exists c' done, readBulks srv args.length c = (c', done) ∧
      Outcome c0 c' future done (c.argv ++ args) cmds := by
  induction args generalizing c with
  | nil =>
    refine ⟨c, true, rfl, ⟨h.isOpen, (append_nil _).symm, ?_⟩, hexecuted, hlt rfl⟩
    rw [h.text]
    rfl
  | cons arg args ih =>
    have htail : forall s, s ∈ args -> s.length ≤ srv.protoMaxBulkLen :=
      fun s hs => hlimit s (mem_cons_of_mem arg hs)
    rw [length_cons, readBulks]
    rcases readBulkLen_spec h (hlimit arg mem_cons_self) with
      ⟨hincomplete, hshort⟩ | ⟨c1, hknown, hin, hargv1, hkeeps1⟩
    · rw [hincomplete]
      exact ⟨c, false, rfl, atBulks h hshort, hexecuted⟩
    rw [hknown]
    dsimp only
    rcases readBulkArg_spec hin with ⟨hnone, hshort⟩ | ⟨c2, hsome, hat, hargv2, hkeeps2⟩
    · have hwaits := inBulk hin hshort
      rw [hargv1] at hwaits
      rw [hnone]
      exact ⟨c1, false, rfl, hwaits, hkeeps1.executed.trans hexecuted⟩
    · have hkeeps := hkeeps1.trans hkeeps2
      have hshorter : c2.unread.length < c0.unread.length := Nat.lt_of_lt_of_le hkeeps.shorter hle
      have hrest := ih hat htail (hkeeps.executed.trans hexecuted) (Nat.le_of_lt hshorter)
        (fun _ => hshorter)
      rw [hargv2, hargv1, append_assoc, singleton_append] at hrest
      rw [hsome]
      exact hrest

theorem readBulks_inBulk (h : InBulk c future arg args cmds)
    (hlimit : forall s, s ∈ args -> s.length ≤ srv.protoMaxBulkLen) :
    exists c' done, readBulks srv (args.length + 1) c = (c', done) ∧
      Outcome c c' future done (c.argv ++ arg :: args) cmds := by
  rw [readBulks, readBulkLen, if_neg (by rw [h.bulklen]; lia)]
  dsimp only
  rcases readBulkArg_spec h with ⟨hnone, hshort⟩ | ⟨c', hsome, hat, hargv, hkeeps⟩
  · rw [hnone]
    exact ⟨c, false, rfl, inBulk h hshort, rfl⟩
  have hrest := readBulks_atBulks srv hat hlimit hkeeps.executed
    (Nat.le_of_lt hkeeps.shorter) (fun _ => hkeeps.shorter)
  rw [hargv, append_assoc, singleton_append] at hrest
  rw [hsome]
  exact hrest

theorem processMultibulkBuffer_idle (h : Idle c future (cmd :: cmds))
    (hreq : c.reqtype = some .multibulk) (hne : c.unread ≠ []) (hcmd : WithinLimits srv cmd) :
    exists c' done, processMultibulkBuffer srv c = .ok (c', done) ∧
      Outcome c c' future done cmd cmds := by
  have hcount := hcmd.count
  have hpos : 0 < cmd.length := length_pos_of_ne_nil hcmd.nonempty
  have htext : c.unread ++ future =
      line 42 cmd.length ++ 10 :: (cmd.flatMap bulk ++ requests cmds) := by
    rw [h.text, requests, flatMap_cons, command_eq, append_assoc, cons_append]
    rfl
  unfold processMultibulkBuffer
  rw [if_pos h.multibulklen, if_neg (not_not_intro h.argv)]
  rcases findLine_line (by decide) (by lia) htext with ⟨hscan, hshort⟩ | ⟨hscan, u', hu, hrest⟩
  · rw [hscan]
    refine ⟨c, false, rfl, idle h (fun hempty => absurd hempty hne) ?_, rfl⟩
    intro cmd' rest heq
    cases heq
    exact hshort
  · have hhead : Not (c.unread.head? ≠ some 42) := by
      rw [hu]
      exact not_not_intro rfl
    have hmax : cmd.length ≤ Util.LLONG_MAX := by
      unfold Util.LLONG_MAX
      lia
    have hnumber := line_number (b := 42) hmax u'
    rw [← hu] at hnumber
    rw [hscan]
    dsimp only
    rw [if_neg hhead, hnumber]
    dsimp only
    rw [if_neg (by lia), if_neg (by lia), Int.toNat_natCast]
    have hunread : c.querybuf.drop (c.qbPos + (42 :: decimal cmd.length).length + 2) = u' := by
      rw [Nat.add_assoc, ← drop_drop]
      change c.unread.drop _ = u'
      rw [hu, line_drop]
    generalize hstart : ({ c with
      qbPos := c.qbPos + (42 :: decimal cmd.length).length + 2
      multibulklen := cmd.length } : RespClient) = start
    have hstartUnread : start.unread = u' := by
      rw [← hstart]
      exact hunread
    have hat : AtBulks start future cmd cmds := by
      have hargs : start.unread ++ future = cmd.flatMap bulk ++ requests cmds := by
        rw [hstartUnread, hrest]
      subst hstart
      exact ⟨⟨h.isOpen.afterReply, h.isOpen.asap, h.isOpen.replies⟩, rfl, h.bulklen, hreq, hargs⟩
    have hexecuted : start.executed = c.executed := by
      rw [← hstart]
    have hargv : start.argv = [] := by
      rw [← hstart]
      exact h.argv
    have hshorter : start.unread.length < c.unread.length := by
      rw [hstartUnread, hu, length_append, length_cons]
      lia
    rcases readBulks_atBulks srv hat hcmd.bulk hexecuted (Nat.le_of_lt hshorter)
      (fun _ => hshorter) with ⟨c', done, hrun, houtcome⟩
    rw [hargv, nil_append] at houtcome
    rw [hrun]
    exact ⟨c', done, rfl, houtcome⟩

def Parses (c : RespClient) (future : List UInt8) (cmd : List Sds) (cmds : List (List Sds)) :
    Prop :=
  Idle c future (cmd :: cmds) ∨
    (exists args, args ≠ [] ∧ AtBulks c future args cmds ∧ c.argv ++ args = cmd) ∨
    exists arg args, InBulk c future arg args cmds ∧ c.argv ++ arg :: args = cmd

theorem processMultibulkBuffer_spec (h : Parses c future cmd cmds)
    (hreq : c.reqtype = some .multibulk) (hne : c.unread ≠ []) (hcmd : WithinLimits srv cmd) :
    exists c' done, processMultibulkBuffer srv c = .ok (c', done) ∧
      Outcome c c' future done cmd cmds := by
  rcases h with hidle | ⟨args, hargs, hat, rfl⟩ | ⟨arg, args, hin, rfl⟩
  · exact processMultibulkBuffer_idle srv hidle hreq hne hcmd
  · have hpos : c.multibulklen ≠ 0 := by
      have hlen := length_pos_of_ne_nil hargs
      rw [hat.multibulklen]
      lia
    rcases readBulks_atBulks srv hat (fun s hs => hcmd.bulk s (mem_append_right _ hs)) rfl
      (Nat.le_refl _) (fun heq => absurd heq hargs) with ⟨c', done, hrun, houtcome⟩
    unfold processMultibulkBuffer
    rw [if_neg hpos, hat.multibulklen, hrun]
    exact ⟨c', done, rfl, houtcome⟩
  · have hpos : c.multibulklen ≠ 0 := by
      rw [hin.multibulklen]
      lia
    rcases readBulks_inBulk srv hin (fun s hs => hcmd.bulk s (by simp [hs])) with
      ⟨c', done, hrun, houtcome⟩
    unfold processMultibulkBuffer
    rw [if_neg hpos, hin.multibulklen, hrun]
    exact ⟨c', done, rfl, houtcome⟩

end Bulks

/-!
# The query buffer
-/

def Serves (srv : RespServer) (cmd : List Sds) : Prop :=
  WithinLimits srv cmd ∧ closesClient srv cmd = false

theorem trim_eq (c : RespClient) : c.trim = { c with querybuf := c.unread, qbPos := 0 } := by
  unfold trim
  split
  · rfl
  · rename_i hzero
    have hpos : c.qbPos = 0 := not_not.mp hzero
    have hbuf : c.unread = c.querybuf := by
      unfold unread
      rw [hpos, drop_zero]
    rw [hbuf, ← hpos]

theorem Waits.trim (h : Waits c future cmds) : Waits c.trim future cmds := by
  rw [trim_eq]
  cases h with
  | idle h hfresh hshort =>
    exact idle ⟨⟨h.isOpen.afterReply, h.isOpen.asap, h.isOpen.replies⟩, h.multibulklen,
      h.bulklen, h.argv, h.reqtype, h.text⟩ hfresh hshort
  | atBulks h hshort =>
    exact atBulks ⟨⟨h.isOpen.afterReply, h.isOpen.asap, h.isOpen.replies⟩,
      h.multibulklen, h.bulklen, h.reqtype, h.text⟩ hshort
  | inBulk h hshort =>
    exact inBulk ⟨⟨h.isOpen.afterReply, h.isOpen.asap, h.isOpen.replies⟩,
      h.multibulklen, h.bulklen, h.reqtype, h.text⟩ hshort

theorem Parses.isOpen (h : Parses c future cmd cmds) : Open c := by
  rcases h with hidle | ⟨args, _, hat, _⟩ | ⟨arg, args, hin, _⟩
  · exact hidle.isOpen
  · exact hat.isOpen
  · exact hin.isOpen

theorem Parses.determine (h : Parses c future cmd cmds) (hne : c.unread ≠ []) :
    c.determineReqtype = { c with reqtype := some .multibulk } := by
  rcases h with hidle | ⟨args, _, hat, _⟩ | ⟨arg, args, hin, _⟩
  · unfold determineReqtype
    cases hreq : c.reqtype with
    | none =>
      have hhead : c.unread.head? = some 42 := by
        obtain ⟨rest, hrest⟩ : exists rest, requests (cmd :: cmds) = 42 :: rest := ⟨_, rfl⟩
        have htext := hidle.text
        rw [hrest] at htext
        cases hu : c.unread with
        | nil => exact absurd hu hne
        | cons b u =>
          rw [hu, cons_append] at htext
          injection htext with hb
          rw [hb]
          rfl
      dsimp only
      rw [if_pos hhead]
    | some r =>
      cases r with
      | inline => exact absurd hreq hidle.reqtype
      | multibulk =>
        dsimp only
        rw [← hreq]
  · unfold determineReqtype
    rw [hat.reqtype]
    dsimp only
    rw [← hat.reqtype]
  · unfold determineReqtype
    rw [hin.reqtype]
    dsimp only
    rw [← hin.reqtype]

theorem Parses.multibulk (h : Parses c future cmd cmds) :
    Parses { c with reqtype := some .multibulk } future cmd cmds := by
  rcases h with hidle | ⟨args, hargs, hat, hcmd⟩ | ⟨arg, args, hin, hcmd⟩
  · refine Or.inl ⟨⟨hidle.isOpen.afterReply, hidle.isOpen.asap, hidle.isOpen.replies⟩,
      hidle.multibulklen, hidle.bulklen, hidle.argv, ?_, hidle.text⟩
    intro heq
    cases heq
  · exact Or.inr (Or.inl ⟨args, hargs, ⟨⟨hat.isOpen.afterReply, hat.isOpen.asap,
      hat.isOpen.replies⟩, hat.multibulklen, hat.bulklen, rfl, hat.text⟩, hcmd⟩)
  · exact Or.inr (Or.inr ⟨arg, args, ⟨⟨hin.isOpen.afterReply, hin.isOpen.asap,
      hin.isOpen.replies⟩, hin.multibulklen, hin.bulklen, rfl, hin.text⟩, hcmd⟩)

theorem Complete.execute (h : Complete c future cmd cmds) (hopen : closesClient srv cmd = false) :
    Idle (processCommandAndResetClient srv c) future cmds ∧
      (processCommandAndResetClient srv c).executed = c.executed ++ [cmd] ∧
      (processCommandAndResetClient srv c).reqtype = none ∧
      (processCommandAndResetClient srv c).unread = c.unread := by
  simp only [closesClient, Bool.or_eq_false_iff] at hopen
  have hreset : processCommandAndResetClient srv c =
      resetClient { c with executed := c.executed ++ [cmd] } := by
    unfold processCommandAndResetClient
    rw [h.argv, hopen.left.left, hopen.left.right, hopen.right]
    simp
  rw [hreset]
  refine ⟨⟨⟨h.isOpen.afterReply, h.isOpen.asap, h.isOpen.replies⟩, rfl, rfl, rfl, ?_, h.text⟩,
    rfl, rfl, rfl⟩
  intro heq
  cases heq

structure Processed (c c' : RespClient) (future : List UInt8) (cmds : List (List Sds)) : Prop where
  qbPos : c'.qbPos = 0
  executes : exists before after, cmds = before ++ after ∧
    c'.executed = c.executed ++ before ∧ Waits c' future after

variable (srv)

theorem processInputBuffer_stop (h : c.unread = []) (hfuel : 0 < fuel) :
    processInputBuffer srv fuel c = .ok c.trim := by
  have hlen : Not (c.qbPos < c.querybuf.length) := by
    have hzero := unread_length c
    rw [h, length_nil] at hzero
    lia
  rcases fuel with _ | fuel
  · exact absurd hfuel (Nat.lt_irrefl 0)
  · rw [processInputBuffer, if_neg hlen]

theorem processInputBuffer_round (h : Parses c future cmd cmds) (hne : c.unread ≠ [])
    (hcmd : Serves srv cmd) :
    (exists c', processInputBuffer srv (fuel + 1) c = .ok c' ∧
        Processed c c' future (cmd :: cmds)) ∨
      exists c', processInputBuffer srv (fuel + 1) c = processInputBuffer srv fuel c' ∧
        Idle c' future cmds ∧ c'.reqtype = none ∧ c'.executed = c.executed ++ [cmd] ∧
        c'.unread.length < c.unread.length := by
  have hlt : c.qbPos < c.querybuf.length := by
    have hpos := length_pos_of_ne_nil hne
    rw [unread_length] at hpos
    lia
  have hopen := h.isOpen
  rcases processMultibulkBuffer_spec srv h.multibulk rfl hne hcmd.left with
    ⟨c', done, hrun, houtcome⟩
  rw [processInputBuffer, if_pos hlt, hopen.afterReply, hopen.asap, Bool.or_self,
    if_neg Bool.false_ne_true, h.determine hne]
  rw [if_pos rfl, hrun]
  cases done with
  | false =>
    left
    refine ⟨c'.trim, rfl, by rw [trim_eq], [], cmd :: cmds, rfl, ?_, houtcome.left.trim⟩
    rw [trim_eq, append_nil]
    exact houtcome.right
  | true =>
    rcases houtcome with ⟨hcomplete, hkeeps⟩
    rcases hcomplete.execute hcmd.right with ⟨hidle, hexecuted, hreq, hunread⟩
    have hargv : Not (c'.argv = []) := by
      rw [hcomplete.argv]
      exact hcmd.left.nonempty
    right
    refine ⟨processCommandAndResetClient srv c', if_neg hargv, hidle, hreq, ?_, ?_⟩
    · rw [hexecuted, hkeeps.executed]
    · rw [hunread]
      exact hkeeps.shorter

theorem Idle.processed (h : Idle c future cmds) (hreq : c.reqtype = none) (hempty : c.unread = []) :
    Processed c c.trim future cmds := by
  have hwaits : Waits c future cmds := by
    apply Waits.idle h (fun _ => hreq)
    intro cmd rest _
    rw [hempty, length_nil]
    exact Nat.succ_pos _
  refine ⟨by rw [trim_eq], [], cmds, rfl, ?_, hwaits.trim⟩
  rw [trim_eq, append_nil]

theorem processInputBuffer_idle (h : Idle c future cmds) (hreq : c.reqtype = none)
    (hfuel : c.unread.length < fuel) (hcmds : forall cmd, cmd ∈ cmds -> Serves srv cmd) :
    exists c', processInputBuffer srv fuel c = .ok c' ∧ Processed c c' future cmds := by
  induction fuel generalizing c cmds with
  | zero => exact absurd hfuel (Nat.not_lt_zero _)
  | succ fuel ih =>
    by_cases hempty : c.unread = []
    · exact ⟨c.trim, processInputBuffer_stop srv hempty (Nat.succ_pos fuel),
        h.processed hreq hempty⟩
    cases cmds with
    | nil =>
      have htext := h.text
      exact absurd (append_eq_nil_iff.mp htext).left hempty
    | cons cmd cmds =>
      have htail : forall cmd', cmd' ∈ cmds -> Serves srv cmd' :=
        fun cmd' hcmd' => hcmds cmd' (mem_cons_of_mem cmd hcmd')
      rcases processInputBuffer_round srv (Or.inl h) hempty (hcmds cmd mem_cons_self)
        with hdone | ⟨c1, hrun, hidle, hreq1, hexecuted, hshorter⟩
      · exact hdone
      rcases ih hidle hreq1 (by lia) htail with
        ⟨c', hrest, hpos, before, after, rfl, hbefore, hwaits⟩
      refine ⟨c', hrun.trans hrest, hpos, cmd :: before, after, rfl, ?_, hwaits⟩
      rw [hbefore, hexecuted, append_assoc, singleton_append]

theorem processInputBuffer_spec (h : Parses c future cmd cmds) (hne : c.unread ≠ [])
    (hfuel : c.unread.length < fuel) (hcmds : forall cmd', cmd' ∈ cmd :: cmds -> Serves srv cmd') :
    exists c', processInputBuffer srv fuel c = .ok c' ∧ Processed c c' future (cmd :: cmds) := by
  rcases fuel with _ | fuel
  · exact absurd hfuel (Nat.not_lt_zero _)
  rcases processInputBuffer_round srv h hne (hcmds cmd mem_cons_self) with
    hdone | ⟨c1, hrun, hidle, hreq, hexecuted, hshorter⟩
  · exact hdone
  have hfuel1 : c1.unread.length < fuel := by lia
  rcases processInputBuffer_idle srv hidle hreq hfuel1
    (fun cmd' hcmd' => hcmds cmd' (mem_cons_of_mem cmd hcmd')) with
    ⟨c', hrest, hpos, before, after, rfl, hbefore, hwaits⟩
  refine ⟨c', hrun.trans hrest, hpos, cmd :: before, after, rfl, ?_, hwaits⟩
  rw [hbefore, hexecuted, append_assoc, singleton_append]

variable {srv}

/-!
# Reads
-/

theorem Waits.asap (h : Waits c future cmds) : c.closeAsap = false := by
  cases h with
  | idle h _ _ => exact h.isOpen.asap
  | atBulks h _ => exact h.isOpen.asap
  | inBulk h _ => exact h.isOpen.asap

def RespClient.received (c : RespClient) (nread : List UInt8) : RespClient :=
  { c with querybuf := c.querybuf ++ nread }

theorem unread_received (hpos : c.qbPos = 0) (nread : List UInt8) :
    (received c nread).unread = c.unread ++ nread := by
  unfold unread received
  dsimp only
  rw [hpos, drop_zero, drop_zero]

theorem Waits.received (h : Waits c (nread ++ future) cmds) (hpos : c.qbPos = 0)
    (hne : nread ≠ []) :
    exists cmd rest, cmds = cmd :: rest ∧ Parses (received c nread) future cmd rest := by
  have htext := (congrArg (· ++ future) (unread_received hpos nread)).trans (append_assoc ..)
  cases h with
  | idle h hfresh hshort =>
    cases cmds with
    | nil =>
      have hnil := (append_eq_nil_iff.mp h.text).right
      exact absurd (append_eq_nil_iff.mp hnil).left hne
    | cons cmd rest =>
      exact ⟨cmd, rest, rfl, Or.inl ⟨⟨h.isOpen.afterReply, h.isOpen.asap, h.isOpen.replies⟩,
        h.multibulklen, h.bulklen, h.argv, h.reqtype, htext.trans h.text⟩⟩
  | @atBulks arg args rest h hshort =>
    exact ⟨_, rest, rfl, Or.inr (Or.inl ⟨arg :: args, cons_ne_nil arg args,
      ⟨⟨h.isOpen.afterReply, h.isOpen.asap, h.isOpen.replies⟩, h.multibulklen, h.bulklen,
        h.reqtype, htext.trans h.text⟩, rfl⟩)⟩
  | @inBulk arg args rest h hshort =>
    exact ⟨_, rest, rfl, Or.inr (Or.inr ⟨arg, args,
      ⟨⟨h.isOpen.afterReply, h.isOpen.asap, h.isOpen.replies⟩, h.multibulklen, h.bulklen,
        h.reqtype, htext.trans h.text⟩, rfl⟩)⟩

theorem readLen_le (c : RespClient) : readLen c ≤ PROTO_IOBUF_LEN := by
  unfold readLen
  split
  · dsimp only
    split
    · lia
    · exact Nat.le_refl _
  · exact Nat.le_refl _

theorem readLen_pos (c : RespClient) : 0 < readLen c := by
  have hpos : 0 < PROTO_IOBUF_LEN := by decide
  unfold readLen
  split
  · dsimp only
    split
    · lia
    · exact hpos
  · exact hpos

theorem readLen_bulk (h : InBulk c future arg args cmds)
    (hshort : c.querybuf.length < arg.length + 2) (hbig : PROTO_MBULK_BIG_ARG ≤ arg.length) :
    c.querybuf.length + readLen c ≤ arg.length + 2 := by
  have hcond : c.reqtype = some .multibulk ∧ c.multibulklen ≠ 0 ∧ c.bulklen ≠ -1 ∧
      c.bulklen ≥ PROTO_MBULK_BIG_ARG := by
    refine ⟨h.reqtype, ?_, ?_, ?_⟩
    · rw [h.multibulklen]
      exact Nat.succ_ne_zero _
    · rw [h.bulklen]
      lia
    · rw [h.bulklen]
      exact_mod_cast hbig
  unfold readLen
  rw [if_pos hcond, h.bulklen]
  dsimp only
  split
  · lia
  · lia

theorem Waits.buffer (h : Waits c (nread ++ future) cmds) (hpos : c.qbPos = 0) (hne : nread ≠ [])
    (hlen : nread.length ≤ readLen c) (hcmds : forall cmd, cmd ∈ cmds -> Serves srv cmd) :
    (c.querybuf ++ nread).length ≤ srv.clientMaxQuerybufLen := by
  have hbuf : c.unread = c.querybuf := by
    unfold unread
    rw [hpos, drop_zero]
  have hread := readLen_le c
  have hiobuf : PROTO_IOBUF_LEN = 16384 := rfl
  rw [length_append, ← hbuf]
  cases h with
  | idle h hfresh hshort =>
    cases cmds with
    | nil =>
      have hnil := (append_eq_nil_iff.mp h.text).right
      exact absurd (append_eq_nil_iff.mp hnil).left hne
    | cons cmd rest =>
      have hcmd := (hcmds cmd mem_cons_self).left
      have hcount := hcmd.count
      have hline := line_length (b := 42) (v := cmd.length) (by lia)
      rcases exists_mem_of_ne_nil cmd hcmd.nonempty with ⟨arg, harg⟩
      have hroom := (hcmd.buffer arg harg).right
      lia
  | @atBulks arg args rest h hshort =>
    have hcmd := (hcmds _ mem_cons_self).left
    have harg : arg ∈ c.argv ++ arg :: args := mem_append_cons_self
    have hmax : arg.length ≤ Util.LLONG_MAX := Nat.le_trans (hcmd.bulk arg harg) srv.isLongLong
    have hlt : arg.length < 2 ^ 63 := by
      unfold Util.LLONG_MAX at hmax
      lia
    have hline := line_length (b := 36) hlt
    have hroom := (hcmd.buffer arg harg).right
    lia
  | @inBulk arg args rest h hshort =>
    have hcmd := (hcmds _ mem_cons_self).left
    have harg : arg ∈ c.argv ++ arg :: args := mem_append_cons_self
    have hroom := hcmd.buffer arg harg
    by_cases hbig : PROTO_MBULK_BIG_ARG ≤ arg.length
    · rw [hbuf] at hshort ⊢
      have hwithin := readLen_bulk h hshort hbig
      lia
    · unfold PROTO_MBULK_BIG_ARG at hbig
      lia

structure Between (cmds : List (List Sds)) (st : RespClient × List UInt8) : Prop where
  qbPos : st.1.qbPos = 0
  executes : exists after, cmds = st.1.executed ++ after ∧ Waits st.1 st.2 after

theorem between_step (hcmds : forall cmd, cmd ∈ cmds -> Serves srv cmd) (n : Nat)
    {st : RespClient × List UInt8} (h : Between cmds st) :
    exists st', respStep srv n st = .ok st' ∧ Between cmds st' ∧
      st'.2.length ≤ st.2.length - 1 := by
  rcases st with ⟨c, incoming⟩
  rcases h with ⟨hpos, after, hexecuted, hwaits⟩
  dsimp only at hpos hexecuted hwaits
  simp only [respStep, hwaits.asap, Bool.false_eq_true, if_false]
  generalize hnread : incoming.take (min (n + 1) (readLen c)) = nread
  have hsplit : nread ++ incoming.drop nread.length = incoming := by
    have hlen : nread.length = min (min (n + 1) (readLen c)) incoming.length := by
      rw [← hnread, length_take]
    have htake : incoming.take nread.length = nread := by
      rw [hlen, ← hnread, ← take_take, take_length]
    calc
      nread ++ incoming.drop nread.length
          = incoming.take nread.length ++ incoming.drop nread.length := by rw [htake]
      _ = incoming := take_append_drop _ _
  by_cases hempty : nread = []
  · -- there is nothing to read
    have hnone : incoming = [] := by
      have hread := readLen_pos c
      rw [← hnread, take_eq_nil_iff] at hempty
      rcases hempty with hzero | hnil
      · lia
      · exact hnil
    refine ⟨(c, incoming), ?_, ⟨hpos, after, hexecuted, hwaits⟩, ?_⟩
    · simp only [readQueryFromClient, hempty, if_true, Except.map, length_nil, drop_zero]
    · rw [hnone]
      exact Nat.zero_le _
  · have hlen : nread.length ≤ readLen c := by
      rw [← hnread, length_take]
      lia
    have hnonempty := length_pos_of_ne_nil hempty
    have hafter : forall cmd, cmd ∈ after -> Serves srv cmd := by
      intro cmd hcmd
      apply hcmds
      rw [hexecuted]
      exact mem_append_right _ hcmd
    rw [← hsplit] at hwaits
    have hbuffer := hwaits.buffer hpos hempty hlen hafter
    rcases hwaits.received hpos hempty with ⟨cmd, rest, rfl, hparses⟩
    have hunread := unread_received hpos nread
    have hne : (received c nread).unread ≠ [] := by
      rw [hunread]
      exact append_ne_nil_of_right_ne_nil _ hempty
    have hfuel : (received c nread).unread.length < (c.querybuf ++ nread).length + 1 := by
      rw [unread_length]
      exact Nat.lt_succ_of_le (Nat.sub_le _ _)
    rcases processInputBuffer_spec srv hparses hne hfuel hafter with
      ⟨c', hrun, hpos', before, after', hsame, hbefore, hwaits'⟩
    have hread : readQueryFromClient srv c nread = .ok c' := by
      simp only [readQueryFromClient, hempty, if_false]
      rw [if_neg (Nat.not_lt_of_le hbuffer)]
      exact hrun
    refine ⟨(c', incoming.drop nread.length), ?_, ⟨hpos', after', ?_, hwaits'⟩, ?_⟩
    · rw [hread]
      rfl
    · change cmds = c'.executed ++ after'
      rw [hbefore, hexecuted, hsame, ← append_assoc]
      rfl
    · change (incoming.drop nread.length).length ≤ incoming.length - 1
      rw [length_drop]
      lia

theorem foldl_pred (reads : List Nat) (n : Nat) :
    reads.foldl (fun m _ => m - 1) n = n - reads.length := by
  induction reads generalizing n with
  | nil => rfl
  | cons r reads ih =>
    rw [foldl_cons, ih, length_cons]
    lia

theorem between_run (hcmds : forall cmd, cmd ∈ cmds -> Serves srv cmd) (reads : List Nat) :
    exists st, runSteps (respStep srv) reads (createClient, requests cmds) = .ok st ∧
      Between cmds st ∧ st.2.length ≤ (requests cmds).length - reads.length := by
  have hinit : Between cmds (createClient, requests cmds) := by
    refine ⟨rfl, cmds, rfl, Waits.idle ⟨⟨rfl, rfl, rfl⟩, rfl, rfl, rfl, ?_, rfl⟩ (fun _ => rfl) ?_⟩
    · intro heq
      cases heq
    · intro cmd rest _
      exact Nat.succ_pos _
  have hstep : forall (n : Nat) (st : RespClient × List UInt8) (m : Nat),
      (Between cmds st ∧ st.2.length ≤ m) -> True ->
      exists st', respStep srv n st = .ok st' ∧ (Between cmds st' ∧ st'.2.length ≤ m - 1) := by
    rintro n st m ⟨hbetween, hle⟩ _
    rcases between_step hcmds n hbetween with ⟨st', hrun, hbetween', hle'⟩
    exact ⟨st', hrun, hbetween', by lia⟩
  have hall : AllSteps (respStep srv) (fun _ _ => True) reads (createClient, requests cmds) :=
    allSteps_of_mem fun _ _ => trivial
  rcases runSteps_simulates hstep ⟨hinit, Nat.le_refl _⟩ hall with ⟨st, hrun, hbetween, hle⟩
  rw [foldl_pred] at hle
  exact ⟨st, hrun, hbetween, hle⟩

theorem Waits.done (h : Waits c [] cmds) :
    cmds = [] ∧ Idle c [] [] ∧ c.unread = [] ∧ c.reqtype = none := by
  cases h with
  | idle h hfresh hshort =>
    have htext := h.text
    rw [append_nil] at htext
    cases cmds with
    | nil => exact ⟨rfl, h, htext, hfresh htext⟩
    | cons cmd rest =>
      have hless := hshort cmd rest rfl
      rw [htext, requests, flatMap_cons, command_eq, length_append,
        length_append, length_cons] at hless
      lia
  | atBulks h hshort =>
    have htext := h.text
    rw [append_nil] at htext
    rw [htext, flatMap_cons, bulk_eq, length_append, length_append,
      length_append, length_cons] at hshort
    lia
  | inBulk h hshort =>
    have htext := h.text
    rw [append_nil] at htext
    rw [htext, length_append, length_append] at hshort
    simp only [crlf, length_cons, length_nil] at hshort
    lia

end Resp

namespace Resp

def defaultServer : RespServer :=
  { protoMaxBulkLen := 512 * 1024 * 1024
    clientMaxQuerybufLen := 1024 * 1024 * 1024
    isLongLong := by decide
    killsItself := fun _ => false }

def largeSet : List Sds :=
  [[83, 69, 84], [107], List.replicate 40000 7]

theorem largeSet_within : WithinLimits defaultServer largeSet := by
  have hlen : forall s, s ∈ largeSet -> s.length ≤ 40000 := by
    intro s hs
    simp only [largeSet, mem_cons, not_mem_nil, or_false] at hs
    rcases hs with rfl | rfl | rfl
    · decide
    · decide
    · rw [length_replicate]
  have hmax : defaultServer.protoMaxBulkLen = 512 * 1024 * 1024 := rfl
  have hbuffer : defaultServer.clientMaxQuerybufLen = 1024 * 1024 * 1024 := rfl
  have hiobuf : PROTO_IOBUF_LEN = 16384 := rfl
  refine ⟨cons_ne_nil _ _, by decide, ?_, ?_⟩
  · intro s hs
    have hle := hlen s hs
    lia
  · intro s hs
    have hle := hlen s hs
    lia

end Resp

end Redisoo
