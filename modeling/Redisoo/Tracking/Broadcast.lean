import Redisoo.Backend.Channel
import Redisoo.Foundation.Table

/-!
# Broadcast invalidation

Between two flushes a prefix keeps one writer for each key, the first one.
-/

namespace Redisoo
namespace Broadcast

open Foundation.Table

abbrev Keys := Std.TreeMap Sds (Option ClientId)

structure BcastState where
  clients : ClientId -> Bool
  keys : Keys

abbrev PrefixTable := Sds -> Option BcastState

abbrev Write := Option ClientId × Sds

def remember (pre : Sds) (keys : Keys) (write : Write) : Keys :=
  if pre <+: write.2 then keys.insertIfNew write.2 write.1 else keys

def trackingRememberKeyToBroadcast (t : PrefixTable) (write : Write) : PrefixTable :=
  fun pre => (t pre).map fun bs => { bs with keys := remember pre bs.keys write }

def trackingBuildBroadcastReply (c : Option ClientId) (keys : Keys) : List Sds :=
  (keys.toList.filter fun e => c = none ∨ e.2 ≠ c).map Prod.fst

def message (noloop : ClientId -> Bool) (t : PrefixTable) (pre : Sds) (c : ClientId) : List Sds :=
  match t pre with
  | none => []
  | some bs =>
    if bs.clients c then trackingBuildBroadcastReply (if noloop c then some c else none) bs.keys
    else []

def cycle (t : PrefixTable) (writes : List Write) : PrefixTable :=
  writes.foldl trackingRememberKeyToBroadcast
    fun pre => (t pre).map fun bs => { bs with keys := ∅ }

def firstWriter (writes : List Write) (k : Sds) : Option (Option ClientId) :=
  (writes.find? fun write => write.2 = k).map Prod.fst

def Covered (t : PrefixTable) (c : ClientId) (k : Sds) : Prop :=
  exists pre bs, t pre = some bs ∧ bs.clients c = true ∧ pre <+: k

def Receives (noloop : ClientId -> Bool) (t : PrefixTable) (c : ClientId) (k : Sds) : Prop :=
  exists pre, k ∈ message noloop t pre c

def WrittenFor (noloop : ClientId -> Bool) (writes : List Write) (c : ClientId) (k : Sds) : Prop :=
  exists writer, (writer, k) ∈ writes ∧ (noloop c = false ∨ writer ≠ some c)

variable {noloop : ClientId -> Bool} {t : PrefixTable} {writes : List Write} {c : ClientId}
  {pre k : Sds} {keys : Keys}

theorem foldl_remember : (writes.foldl trackingRememberKeyToBroadcast t) pre =
    (t pre).map fun bs => { bs with keys := writes.foldl (remember pre) bs.keys } := by
  induction writes generalizing t with
  | nil => cases h : t pre <;> simp [h]
  | cons write writes ih =>
    rw [List.foldl_cons, ih, trackingRememberKeyToBroadcast, Option.map_map]
    rfl

theorem get_remember : (writes.foldl (remember pre) keys)[k]? =
    keys[k]?.or (if pre <+: k then firstWriter writes k else none) := by
  induction writes generalizing keys with
  | nil => simp [firstWriter]
  | cons write writes ih =>
    rw [List.foldl_cons, ih]
    unfold remember firstWriter
    by_cases hk : k = write.2
    · subst hk
      by_cases hpre : pre <+: write.2
      · rw [if_pos hpre, get_insertIfNew, if_pos rfl]
        cases keys[write.2]? <;> simp [hpre]
      · simp [hpre]
    · have hget : (keys.insertIfNew write.2 write.1)[k]? = keys[k]? := by
        rw [get_insertIfNew, if_neg hk]
      split <;> simp [Ne.symm hk, hget]

theorem mem_reply {who : Option ClientId} : k ∈ trackingBuildBroadcastReply who keys <->
    exists w, keys[k]? = some w ∧ (who = none ∨ w ≠ who) := by
  simp [trackingBuildBroadcastReply, Std.TreeMap.mem_toList_iff_getElem?_eq_some]

theorem mem_message : k ∈ message noloop (cycle t writes) pre c <->
    pre <+: k ∧ (exists bs, t pre = some bs ∧ bs.clients c = true) ∧
      exists w, firstWriter writes k = some w ∧ (noloop c = false ∨ w ≠ some c) := by
  unfold message cycle
  rw [foldl_remember]
  cases t pre with
  | none => simp
  | some bs =>
    dsimp only [Option.map_some]
    cases hc : bs.clients c <;> cases noloop c <;> simp [mem_reply, get_remember, hc, and_assoc]

/-- A client that asked for NOLOOP misses the keys that it wrote first. -/
theorem broadcast_exact_iff (noloop : ClientId -> Bool) (t : PrefixTable) (writes : List Write)
    (c : ClientId) (k : Sds) :
    ((Receives noloop (cycle t writes) c k <-> Covered t c k ∧ WrittenFor noloop writes c k) <->
      Not (Covered t c k ∧ firstWriter writes k = some (some c) ∧ noloop c = true ∧
        WrittenFor noloop writes c k)) ∧
    forall pre, (message noloop (cycle t writes) pre c).Nodup := by
  constructor
  · have hfirst : forall w, firstWriter writes k = some w -> (w, k) ∈ writes := by
      intro w hw
      rcases Option.map_eq_some_iff.mp hw with ⟨write, hfind, rfl⟩
      have hkey := List.find?_some hfind
      have hmem := List.mem_of_find?_eq_some hfind
      grind
    have hsome : forall w, (w, k) ∈ writes -> firstWriter writes k ≠ none := by
      intro w hw
      simp only [firstWriter, ne_eq, Option.map_eq_none_iff, List.find?_eq_none]
      exact fun h => h _ hw (by simp)
    unfold Receives Covered WrittenFor
    simp only [mem_message]
    cases hw : firstWriter writes k with
    | none => grind
    | some w => grind
  · intro pre
    unfold message
    split
    · exact List.nodup_nil
    split
    · refine List.Nodup.sublist (List.filter_sublist.map _) ?_
      rw [Std.TreeMap.map_fst_toList_eq_keys]
      exact Std.TreeMap.nodup_keys
    · exact List.nodup_nil

/-- Clients 1 and 2 write the key; client 1 asked for NOLOOP and gets nothing. -/
theorem broadcast_first_writer_missed :
    let noloop : ClientId -> Bool := fun c => c == 1
    let t : PrefixTable := fun pre => if pre = [] then some ⟨fun _ => true, ∅⟩ else none
    let writes : List Write := [(some 1, [107]), (some 2, [107])]
    Not (Receives noloop (cycle t writes) 1 [107] <->
      Covered t 1 [107] ∧ WrittenFor noloop writes 1 [107]) := by
  intro noloop t writes heq
  have hcovered : Covered t 1 [107] := ⟨[], _, rfl, rfl, List.nil_prefix⟩
  have hwritten : WrittenFor noloop writes 1 [107] := ⟨some 2, by decide, Or.inr (by decide)⟩
  rcases heq.mpr ⟨hcovered, hwritten⟩ with ⟨pre, hpre⟩
  rcases (mem_message.mp hpre).right.right with ⟨w, hfirst, hw⟩
  cases hfirst
  rcases hw with hnoloop | hne
  · cases hnoloop
  · exact hne rfl

end Broadcast
end Redisoo
