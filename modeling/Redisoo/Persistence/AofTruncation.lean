import Redisoo.Foundation.Framing
import Redisoo.Persistence.AofRead

/-!
# Loading a truncated append only file

A file of plain commands and `MULTI`/`EXEC` blocks that is cut anywhere.  The loader gives
back the complete commands and transactions, and cuts the file behind them, unless the
cut falls inside a command that follows `MULTI` in its block: then the file keeps an open
`MULTI`.
-/

namespace Redisoo

open Foundation.Framing List

namespace Aof

inductive AofUnit where
  | command (argv : List Sds)
  | transaction (multi : List Sds) (cmds : List (List Sds)) (exec : List Sds)

def AofUnit.frames : AofUnit -> List (List Sds)
  | .command argv => [argv]
  | .transaction multi cmds exec => multi :: (cmds ++ [exec])

def AofUnit.commands : AofUnit -> List (List Sds)
  | .command argv => [argv]
  | .transaction _ cmds _ => cmds

def AofUnit.text (u : AofUnit) : List UInt8 :=
  u.frames.flatMap catAppendOnlyGenericCommand

def Known (table : CommandTable) (cmd : Proc) (argv : List Sds) : Prop :=
  WellSized argv ∧ argv.head?.bind table = some cmd

def AofUnit.Valid (table : CommandTable) : AofUnit -> Prop
  | .command argv => Known table .other argv
  | .transaction multi cmds exec =>
    Known table .multiCommand multi ∧ (forall argv, argv ∈ cmds -> Known table .other argv) ∧
      Known table .execCommand exec

/-- The cut falls inside a command behind the `MULTI` of its block. -/
def cutInTransaction (us : List AofUnit) (n : Nat) : Bool :=
  match open_ AofUnit.text n us with
  | [] => false
  | u :: _ =>
    let m := left AofUnit.text n us
    !(whole catAppendOnlyGenericCommand m u.frames).isEmpty &&
      0 < left catAppendOnlyGenericCommand m u.frames

/-!
# The loader between units and in a block
-/

variable {cmds fs executed : List (List Sds)}

section Loop

variable {table : CommandTable} (file : List UInt8)

structure Between (st : Loader) (tail : List UInt8) (offset : Nat) (done : List (List Sds)) :
    Prop where
  rest : st.rest = tail
  pos : st.pos = offset
  validUpTo : st.validUpTo = offset
  client : st.client = ⟨none⟩
  executed : st.executed = done

structure Queued (st : Loader) (tail : List UInt8) (offset before : Nat)
    (queue done : List (List Sds)) : Prop where
  rest : st.rest = tail
  pos : st.pos = offset
  validUpTo : st.validUpTo = offset
  validBeforeMulti : st.validBeforeMulti = before
  client : st.client = ⟨some queue⟩
  executed : st.executed = done

variable {st : Loader} {argv : List Sds} {rest : List UInt8} {before pos : Nat}
  {executed queue : List (List Sds)}

open AofUnit

theorem loadLoop_command {cmd : Proc} (hrest : st.rest = catAppendOnlyGenericCommand argv ++ rest)
    (hknown : Known table cmd argv) (fuel : Nat) :
    loadLoop table file (fuel + 1) st = loadLoop table file fuel (st.step cmd argv rest) := by
  rw [loadLoop, hrest, readCommand_command hknown.left]
  dsimp only
  rw [hknown.right]

theorem step_fields {client : FakeClient} (cmd : Proc)
    (hrest : st.rest = catAppendOnlyGenericCommand argv ++ rest) (hpos : st.pos = pos)
    (hclient : st.client = client) (hexecuted : st.executed = executed) :
    (st.step cmd argv rest).pos = pos + (catAppendOnlyGenericCommand argv).length ∧
      (st.step cmd argv rest).client = (client.run executed cmd argv).1 ∧
      (st.step cmd argv rest).executed = (client.run executed cmd argv).2 := by
  subst hpos hclient hexecuted
  refine ⟨?_, rfl, rfl⟩
  show st.pos + (st.rest.length - rest.length) = _
  rw [hrest, length_append, Nat.add_sub_cancel]

theorem Between.command (h : Between st (catAppendOnlyGenericCommand argv ++ rest) pos executed) :
    Between (st.step .other argv rest) rest (pos + (catAppendOnlyGenericCommand argv).length)
      (executed ++ [argv]) := by
  rcases step_fields .other h.rest h.pos h.client h.executed with ⟨hpos, hclient, hexecuted⟩
  exact ⟨rfl, hpos, hpos, hclient, hexecuted⟩

theorem Between.multi (h : Between st (catAppendOnlyGenericCommand argv ++ rest) pos executed) :
    Queued (st.step .multiCommand argv rest) rest
      (pos + (catAppendOnlyGenericCommand argv).length) pos [] executed := by
  rcases step_fields .multiCommand h.rest h.pos h.client h.executed with ⟨hpos, hclient, hexecuted⟩
  exact ⟨rfl, hpos, hpos, h.validUpTo, hclient, hexecuted⟩

theorem Queued.command
    (h : Queued st (catAppendOnlyGenericCommand argv ++ rest) pos before queue executed) :
    Queued (st.step .other argv rest) rest (pos + (catAppendOnlyGenericCommand argv).length)
      before (queue ++ [argv]) executed := by
  rcases step_fields .other h.rest h.pos h.client h.executed with ⟨hpos, hclient, hexecuted⟩
  exact ⟨rfl, hpos, hpos, h.validBeforeMulti, hclient, hexecuted⟩

theorem Queued.exec
    (h : Queued st (catAppendOnlyGenericCommand argv ++ rest) pos before queue executed) :
    Between (st.step .execCommand argv rest) rest
      (pos + (catAppendOnlyGenericCommand argv).length) (executed ++ queue) := by
  rcases step_fields .execCommand h.rest h.pos h.client h.executed with ⟨hpos, hclient, hexecuted⟩
  exact ⟨rfl, hpos, hpos, hclient, hexecuted⟩

theorem loadLoop_queue (hknown : forall argv, argv ∈ cmds -> Known table .other argv)
    (h : Queued st (cmds.flatMap catAppendOnlyGenericCommand ++ rest) pos before queue executed)
    (fuel : Nat) :
    exists st', loadLoop table file (cmds.length + fuel) st = loadLoop table file fuel st' ∧
      Queued st' rest (pos + (cmds.flatMap catAppendOnlyGenericCommand).length) before
        (queue ++ cmds) executed := by
  induction cmds generalizing st pos queue with
  | nil =>
    refine ⟨st, ?_, ?_⟩
    · rw [length_nil, Nat.zero_add]
    · rw [append_nil]
      exact h
  | cons argv cmds ih =>
    rw [flatMap_cons, append_assoc] at h
    rcases ih (fun argv' h' => hknown argv' (mem_cons_of_mem argv h')) h.command with
      ⟨st', hrun, h'⟩
    refine ⟨st', ?_, ?_⟩
    · rw [length_cons, Nat.add_right_comm,
        loadLoop_command file h.rest (hknown argv mem_cons_self), hrun]
    · rw [append_assoc, singleton_append, Nat.add_assoc, ← length_append, ← flatMap_cons] at h'
      exact h'

theorem loadLoop_unit {u : AofUnit} (hvalid : u.Valid table)
    (h : Between st (u.text ++ rest) pos executed) (fuel : Nat) :
    exists st',
      loadLoop table file (u.frames.length + fuel) st = loadLoop table file fuel st' ∧
      Between st' rest (pos + u.text.length) (executed ++ u.commands) := by
  cases u with
  | command argv =>
    have htext : (command argv).text = catAppendOnlyGenericCommand argv := by
      simp [text, frames]
    rw [htext] at h ⊢
    refine ⟨_, ?_, h.command⟩
    rw [← loadLoop_command file h.rest hvalid fuel, Nat.add_comm]
    rfl
  | transaction multi cmds exec =>
    rcases hvalid with ⟨hmulti, hcmds, hexec⟩
    have htext : (transaction multi cmds exec).text = catAppendOnlyGenericCommand multi ++
          (cmds.flatMap catAppendOnlyGenericCommand ++ catAppendOnlyGenericCommand exec) := by
      simp [text, frames]
    rw [htext] at h ⊢
    rw [append_assoc, append_assoc] at h
    rcases loadLoop_queue file hcmds h.multi (1 + fuel) with ⟨st', hrun, hqueued⟩
    refine ⟨st'.step .execCommand exec rest, ?_, ?_⟩
    · have hfuel : (transaction multi cmds exec).frames.length + fuel =
          cmds.length + (1 + fuel) + 1 := by
        simp only [frames, length_cons, length_append, length_nil]
        lia
      rw [hfuel, loadLoop_command file h.rest hmulti, hrun, Nat.add_comm 1 fuel,
        loadLoop_command file hqueued.rest hexec]
    · have hbetween := hqueued.exec
      rw [nil_append] at hbetween
      rw [length_append, length_append]
      rw [Nat.add_assoc, Nat.add_assoc] at hbetween
      exact hbetween

theorem loadLoop_units {us : List AofUnit} (hvalid : forall u, u ∈ us -> u.Valid table)
    (h : Between st (us.flatMap text ++ rest) pos executed) (fuel : Nat) :
    exists st', loadLoop table file ((us.flatMap frames).length + fuel) st =
        loadLoop table file fuel st' ∧
      Between st' rest (pos + (us.flatMap text).length) (executed ++ us.flatMap commands) := by
  induction us generalizing st pos executed with
  | nil =>
    refine ⟨st, ?_, ?_⟩
    · rw [flatMap_nil, length_nil, Nat.zero_add]
    · rw [flatMap_nil, flatMap_nil, append_nil]
      exact h
  | cons u us ih =>
    rw [flatMap_cons, append_assoc] at h
    rcases loadLoop_unit file (hvalid u mem_cons_self) h
      ((us.flatMap frames).length + fuel) with ⟨st1, hrun1, h1⟩
    rcases ih (fun u' hu' => hvalid u' (mem_cons_of_mem u hu')) h1 with ⟨st2, hrun2, h2⟩
    refine ⟨st2, ?_, ?_⟩
    · rw [flatMap_cons, length_append, Nat.add_assoc, hrun1, hrun2]
    · rw [append_assoc, ← flatMap_cons, Nat.add_assoc, ← length_append, ← flatMap_cons] at h2
      exact h2

/-!
# The ends of the loop
-/

theorem loadLoop_end (h : Between st [] pos executed) (fuel : Nat) :
    loadLoop table file (fuel + 1) st = .ok ⟨.cOk, executed, file⟩ := by
  rw [loadLoop, h.rest]
  simp only [readCommand, Foundation.Stdio.fgets]
  rw [h.client, h.executed]
  rfl

theorem loadLoop_endInBlock (h : Queued st [] pos before queue executed) (fuel : Nat) :
    loadLoop table file (fuel + 1) st = .ok ⟨.cOk, executed, file.take before⟩ := by
  rw [loadLoop, h.rest]
  simp only [readCommand, Foundation.Stdio.fgets]
  rw [h.client]
  simp only [Option.isSome_some, if_true, uxeof, h.executed, h.validBeforeMulti]

theorem loadLoop_short {k : Nat} (hsized : WellSized argv)
    (hk : 0 < k ∧ k < (catAppendOnlyGenericCommand argv).length)
    (hrest : st.rest = (catAppendOnlyGenericCommand argv).take k) (fuel : Nat) :
    loadLoop table file (fuel + 1) st = .ok ⟨.cOk, st.executed, file.take st.validUpTo⟩ := by
  rw [loadLoop, hrest, readCommand_cut hsized hk.left hk.right]
  rfl

end Loop

/-!
# A cut file
-/

theorem command_pos (argv : List Sds) : 0 < (catAppendOnlyGenericCommand argv).length := by
  rw [catAppendOnlyGenericCommand, length_cons]
  lia

theorem length_le_commands (fs : List (List Sds)) :
    fs.length ≤ (fs.flatMap catAppendOnlyGenericCommand).length := by
  induction fs with
  | nil => exact Nat.le_refl _
  | cons argv fs ih =>
    have hpos := command_pos argv
    rw [length_cons, flatMap_cons, length_append]
    lia

theorem frames_le_text (us : List AofUnit) :
    (us.flatMap AofUnit.frames).length ≤ (us.flatMap AofUnit.text).length := by
  have hassoc : us.flatMap AofUnit.text =
      (us.flatMap AofUnit.frames).flatMap catAppendOnlyGenericCommand := by
    rw [flatMap_assoc]
    rfl
  rw [hassoc]
  exact length_le_commands _

variable {u : AofUnit} {us : List AofUnit} {table : CommandTable}

theorem cut_first (hvalid : u.Valid table) :
    exists argv rest, u.frames = argv :: rest ∧ WellSized argv := by
  cases u with
  | command argv => exact ⟨argv, [], rfl, hvalid.left⟩
  | transaction multi cmds exec => exact ⟨multi, cmds ++ [exec], rfl, hvalid.left.left⟩

theorem cut_block {m : Nat} {argv : List Sds} (hvalid : u.Valid table) (hm : m < u.text.length)
    (hwhole : whole catAppendOnlyGenericCommand m u.frames = argv :: fs) :
    Known table .multiCommand argv ∧ (forall f, f ∈ fs -> Known table .other f) ∧
      exists next rest, open_ catAppendOnlyGenericCommand m u.frames = next :: rest ∧
        WellSized next := by
  have happend := whole_append_open catAppendOnlyGenericCommand m u.frames
  have hle := whole_length_le catAppendOnlyGenericCommand m u.frames
  rw [hwhole] at happend hle
  cases hopen : open_ catAppendOnlyGenericCommand m u.frames with
  | nil =>
    rw [hopen, append_nil] at happend
    rw [happend] at hle
    exact absurd hle (Nat.not_le_of_lt hm)
  | cons next rest =>
    rw [hopen] at happend
    cases u with
    | command argv' =>
      simp [AofUnit.frames] at happend
    | transaction multi cmds exec =>
      rcases hvalid with ⟨hmulti, hcmds, hexec⟩
      simp only [AofUnit.frames, cons_append, List.cons.injEq] at happend
      rcases happend with ⟨rfl, hframes⟩
      have hlen : fs.length ≤ cmds.length := by
        have h := congrArg List.length hframes
        simp only [length_append, length_cons, length_nil] at h
        lia
      have hfs : fs = cmds.take fs.length := by
        have h := congrArg (List.take fs.length) hframes
        rw [take_left, take_append_of_le_length hlen] at h
        exact h
      refine ⟨hmulti, ?_, next, rest, rfl, ?_⟩
      · intro f hf
        rw [hfs] at hf
        exact hcmds f (mem_of_mem_take hf)
      have hnext : next ∈ cmds ++ [exec] := by
        rw [← hframes]
        simp
      rcases mem_append.mp hnext with hin | hlast
      · exact (hcmds next hin).left
      · rw [mem_singleton.mp hlast]
        exact hexec.left

theorem loadLoop_cut {front : List UInt8} {m fuel : Nat} {st : Loader} (hvalid : u.Valid table)
    (hm : m < u.text.length) (h : Between st (u.text.take m) front.length executed)
    (hfuel : (u.text.take m).length ≤ fuel) :
    exists extra, loadLoop table (front ++ u.text.take m) (fuel + 1) st =
        .ok ⟨.cOk, executed, front ++ extra⟩ ∧
      (extra = [] <-> (!(whole catAppendOnlyGenericCommand m u.frames).isEmpty &&
        decide (0 < left catAppendOnlyGenericCommand m u.frames)) = false) := by
  have hcut : u.text.take m = _ := take_stream catAppendOnlyGenericCommand m u.frames
  cases hwhole : whole catAppendOnlyGenericCommand m u.frames with
  | nil =>
    refine ⟨[], ?_, ?_⟩
    · have happend := whole_append_open catAppendOnlyGenericCommand m u.frames
      rcases cut_first hvalid with ⟨argv, rest, hframes, hsized⟩
      rw [hwhole, nil_append, hframes] at happend
      have hlt := left_lt (by rw [hframes]; exact happend :
        open_ catAppendOnlyGenericCommand m u.frames = argv :: rest)
      rw [hwhole, hframes, happend, flatMap_nil, nil_append, begun, ← hframes] at hcut
      rw [append_nil]
      by_cases hzero : left catAppendOnlyGenericCommand m u.frames = 0
      · rw [hzero, take_zero] at hcut
        rw [hcut] at h ⊢
        rw [loadLoop_end _ h, append_nil]
      · have hrest : st.rest = _ := h.rest.trans hcut
        rw [loadLoop_short _ hsized ⟨Nat.pos_of_ne_zero hzero, hlt⟩ hrest, h.executed,
          h.validUpTo, take_left]
    · simp
  | cons argv fs =>
    rcases cut_block hvalid hm hwhole with ⟨hmulti, hfs, next, rest, hopen, hsized⟩
    have hlt := left_lt hopen
    rw [hwhole, hopen, begun, flatMap_cons] at hcut
    generalize hfile : front ++ u.text.take m = file
    rw [hcut] at h hfuel hfile
    rw [append_assoc] at h hfuel
    have hlen := length_le_commands fs
    have hpos := command_pos argv
    rw [length_append, length_append] at hfuel
    rcases Nat.exists_eq_add_of_le (show 1 + fs.length ≤ fuel by lia) with ⟨more, hmore⟩
    rcases loadLoop_queue file hfs h.multi (more + 1) with ⟨st', hrun, hqueued⟩
    have hfuel' : fuel = fs.length + (more + 1) := by lia
    rw [hfuel', loadLoop_command file h.rest hmulti, hrun]
    by_cases hzero : left catAppendOnlyGenericCommand m u.frames = 0
    · refine ⟨[], ?_, by simp [hzero]⟩
      rw [hzero, take_zero] at hqueued
      rw [loadLoop_endInBlock file hqueued, ← hfile, take_left, append_nil]
    refine ⟨catAppendOnlyGenericCommand argv ++ fs.flatMap catAppendOnlyGenericCommand, ?_, ?_⟩
    · rw [← append_assoc] at hfile
      rw [loadLoop_short file hsized ⟨Nat.pos_of_ne_zero hzero, hlt⟩ hqueued.rest,
        hqueued.executed, hqueued.validUpTo, Nat.add_assoc, ← length_append, ← length_append,
        ← hfile, take_left]
    · have hne : catAppendOnlyGenericCommand argv ++ fs.flatMap catAppendOnlyGenericCommand ≠
          [] := by
        simp [catAppendOnlyGenericCommand]
      simp [hne, Nat.pos_of_ne_zero hzero]

theorem loadLoop_file (hvalid : forall u, u ∈ us -> u.Valid table) (n : Nat) :
    exists extra, loadLoop table ((us.flatMap AofUnit.text).take n)
        (((us.flatMap AofUnit.text).take n).length + 1)
        (Loader.init ((us.flatMap AofUnit.text).take n)) =
        .ok ⟨.cOk, (whole AofUnit.text n us).flatMap AofUnit.commands,
          (whole AofUnit.text n us).flatMap AofUnit.text ++ extra⟩ ∧
      (extra = [] <-> cutInTransaction us n = false) := by
  have hcut := take_stream AofUnit.text n us
  have happend := whole_append_open AofUnit.text n us
  have hframes := frames_le_text (whole AofUnit.text n us)
  have hwhole : forall u, u ∈ whole AofUnit.text n us -> u.Valid table := by
    intro u hu
    apply hvalid
    rw [← happend]
    exact mem_append_left _ hu
  generalize (us.flatMap AofUnit.text).take n = file at hcut ⊢
  have hinit : Between (Loader.init file) _ 0 [] := ⟨hcut, rfl, rfl, rfl, rfl⟩
  rcases Nat.exists_eq_add_of_le hframes with ⟨slack, hslack⟩
  rcases loadLoop_units file hwhole hinit
    (slack + (begun AofUnit.text (left AofUnit.text n us) (open_ AofUnit.text n us)).length + 1)
    with ⟨st, hrun, h⟩
  rw [Nat.zero_add, nil_append] at h
  rw [congrArg length hcut, length_append, hslack, Nat.add_assoc, Nat.add_assoc,
    ← Nat.add_assoc slack, hrun]
  cases hopen : open_ AofUnit.text n us with
  | nil =>
    rw [hopen, begun] at h hcut
    refine ⟨[], ?_, ?_⟩
    · rw [begun, loadLoop_end file h, hcut]
    · simp [cutInTransaction, hopen]
  | cons u rest =>
    have hu : u ∈ us := by
      rw [← happend, hopen]
      simp
    rw [hopen, begun] at h hcut
    rw [begun, hcut]
    have hres := loadLoop_cut (hvalid u hu) (left_lt hopen) h (Nat.le_add_left _ slack)
    unfold cutInTransaction
    rw [hopen]
    exact hres

theorem take_ne_sig (us : List AofUnit) (n : Nat) :
    ((us.flatMap AofUnit.text).take n).take 5 ≠ sig := by
  intro h
  have hhead := congrArg List.head? h
  rw [take_take, List.head?_take] at hhead
  split at hhead
  · cases hhead
  cases us with
  | nil => cases hhead
  | cons u us =>
    cases u with
    | command argv => cases hhead
    | transaction multi cmds exec => cases hhead

theorem load_cut (hvalid : forall u, u ∈ us -> u.Valid table) (n : Nat) :
    exists ret extra, loadAppendOnlyFile table ((us.flatMap AofUnit.text).take n) =
        .ok ⟨ret, (whole AofUnit.text n us).flatMap AofUnit.commands,
          (whole AofUnit.text n us).flatMap AofUnit.text ++ extra⟩ ∧
      (extra = [] <-> cutInTransaction us n = false) := by
  rcases loadLoop_file hvalid n with ⟨extra, hloop, hextra⟩
  unfold loadAppendOnlyFile
  by_cases hempty : (us.flatMap AofUnit.text).take n = []
  · refine ⟨.cErr, extra, ?_, hextra⟩
    rw [if_pos hempty]
    rw [hempty] at hloop ⊢
    have hnil : loadLoop table [] (([] : List UInt8).length + 1) (Loader.init []) =
        .ok ⟨.cOk, [], []⟩ := rfl
    rw [hnil, Except.ok.injEq, Loaded.mk.injEq] at hloop
    rw [← hloop.right.left, ← hloop.right.right]
  · refine ⟨.cOk, extra, ?_, hextra⟩
    rw [if_neg hempty, if_neg (take_ne_sig us n), hloop]

theorem load_all (hvalid : forall u, u ∈ us -> u.Valid table) :
    exists ret, loadAppendOnlyFile table (us.flatMap AofUnit.text) =
      .ok ⟨ret, us.flatMap AofUnit.commands, us.flatMap AofUnit.text⟩ := by
  rcases load_cut hvalid (us.flatMap AofUnit.text).length with ⟨ret, extra, hload, hextra⟩
  have hcut : cutInTransaction us (us.flatMap AofUnit.text).length = false := by
    unfold cutInTransaction open_
    rw [whole_stream, drop_length]
  rw [whole_stream, take_length, hextra.mpr hcut, append_nil] at hload
  exact ⟨ret, hload⟩

theorem load_commands (hcmds : forall argv, argv ∈ cmds -> Known table .other argv) :
    exists ret, loadAppendOnlyFile table (cmds.flatMap catAppendOnlyGenericCommand) =
      .ok ⟨ret, cmds, cmds.flatMap catAppendOnlyGenericCommand⟩ := by
  have hvalid : forall u, u ∈ cmds.map AofUnit.command -> u.Valid table := by
    intro u hu
    rcases mem_map.mp hu with ⟨argv, hargv, rfl⟩
    exact hcmds argv hargv
  have htext : (cmds.map AofUnit.command).flatMap AofUnit.text =
      cmds.flatMap catAppendOnlyGenericCommand := by
    rw [flatMap_map]
    simp [AofUnit.text, AofUnit.frames]
  have hcommands : (cmds.map AofUnit.command).flatMap AofUnit.commands = cmds := by
    rw [flatMap_map]
    simp [AofUnit.commands]
  rcases load_all hvalid with ⟨ret, hload⟩
  rw [htext, hcommands] at hload
  exact ⟨ret, hload⟩

/-!
# Recovery
-/

/-- The load executes the complete commands and transactions before the cut and leaves
exactly their text, so that the next load executes them and all that was appended. -/
def Recovers (table : CommandTable) (us : List AofUnit) (n : Nat) : Prop :=
  exists loaded, loadAppendOnlyFile table ((us.flatMap AofUnit.text).take n) = .ok loaded ∧
    loaded.executed = (whole AofUnit.text n us).flatMap AofUnit.commands ∧
    loaded.file = (whole AofUnit.text n us).flatMap AofUnit.text ∧
    forall later : List AofUnit, (forall u, u ∈ later -> u.Valid table) ->
      exists again,
        loadAppendOnlyFile table (loaded.file ++ later.flatMap AofUnit.text) = .ok again ∧
        again.executed = loaded.executed ++ later.flatMap AofUnit.commands

end Aof

open Aof

/-- A file that was cut is recovered exactly when the cut is not inside a command behind
the `MULTI` of its block. -/
theorem truncated_aof_recovers_iff (table : CommandTable) (us : List AofUnit) (n : Nat)
    (hvalid : forall u, u ∈ us -> u.Valid table) :
    Recovers table us n <-> cutInTransaction us n = false := by
  rcases load_cut hvalid n with ⟨ret, extra, hload, hextra⟩
  constructor
  · rintro ⟨loaded, hloaded, _, hfile, _⟩
    rw [hload] at hloaded
    cases hloaded
    apply hextra.mp
    exact append_right_eq_self.mp hfile
  · intro hcut
    rw [hextra.mpr hcut, append_nil] at hload
    refine ⟨_, hload, rfl, rfl, ?_⟩
    intro later hlater
    have hall : forall u, u ∈ whole AofUnit.text n us ++ later -> u.Valid table := by
      intro u hu
      rcases mem_append.mp hu with hin | hin
      · apply hvalid
        rw [← whole_append_open AofUnit.text n us]
        exact mem_append_left _ hin
      · exact hlater u hin
    rcases load_all hall with ⟨ret', hload'⟩
    rw [flatMap_append, flatMap_append] at hload'
    exact ⟨_, hload', rfl⟩

/-- The names of `MULTI`, `EXEC` and `SET`. -/
def smallTable : CommandTable := fun name =>
  if name = [77, 85, 76, 84, 73] then some .multiCommand
  else if name = [69, 88, 69, 67] then some .execCommand
  else if name = [83, 69, 84] then some .other
  else none

/-- `MULTI`, `SET a b`, `EXEC`. -/
def smallBlock : AofUnit :=
  .transaction [[77, 85, 76, 84, 73]] [[[83, 69, 84], [97], [98]]] [[69, 88, 69, 67]]

theorem smallBlock_valid : forall u, u ∈ [smallBlock] -> u.Valid smallTable := by
  intro u hu
  rw [mem_singleton.mp hu]
  have hsized : forall argv : List Sds, argv ≠ [] -> argv.length ≤ 3 ->
      (forall s, s ∈ argv -> s.length ≤ 5) -> WellSized argv :=
    fun argv hne hlen hall => ⟨hne, by lia, fun s hs => by have h := hall s hs; lia⟩
  refine ⟨⟨hsized _ (by decide) (by decide) (by decide), rfl⟩, ?_,
    ⟨hsized _ (by decide) (by decide) (by decide), rfl⟩⟩
  intro argv hargv
  rw [mem_singleton.mp hargv]
  exact ⟨hsized _ (by decide) (by decide) (by decide), rfl⟩

theorem truncated_aof_recovers_between :
    Recovers smallTable [smallBlock] 15 :=
  (truncated_aof_recovers_iff smallTable [smallBlock] 15 smallBlock_valid).mpr (by decide +kernel)

/-- A cut inside the `SET` of the block: the file keeps the `MULTI`, and a command that is
appended is lost at the next load. -/
theorem truncated_aof_keeps_multi :
    loadAppendOnlyFile smallTable (smallBlock.text.take 20) =
        .ok ⟨.cOk, [], catAppendOnlyGenericCommand [[77, 85, 76, 84, 73]]⟩ ∧
      loadAppendOnlyFile smallTable (catAppendOnlyGenericCommand [[77, 85, 76, 84, 73]] ++
        catAppendOnlyGenericCommand [[83, 69, 84], [99], [100]]) = .ok ⟨.cOk, [], []⟩ := by
  decide +kernel

end Redisoo
