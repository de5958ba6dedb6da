import Redisoo.Streams.GroupReplication

/-!
# Blocked readers of a stream

A blocked reader is served when the last id of the stream is beyond the one it waits for.  The
entries beyond that may be gone by then.
-/

namespace Redisoo
namespace Streams

open Foundation

structure Receiver where
  streamId : StreamID
  group : Option Sds
  count : Nat

def Receiver.gt (r : Receiver) (s : Stream) : Option StreamID :=
  match r.group with
  | none => some r.streamId
  | some group => s.cgroups[group]?.map StreamCG.lastId

/-- The ids sent to a client that `serveClientsBlockedOnStreamKey` unblocks without an error. -/
def Receiver.served (r : Receiver) (s : Stream) : Option (List StreamID) :=
  match r.gt s with
  | none => none
  | some gt =>
    if streamCompareID s.lastId gt = .gt then
      some (limited (if r.count = 0 then XREAD_BLOCKED_DEFAULT_COUNT else r.count)
        (s.idsFrom (streamIncrID gt)))
    else none

/-- `serveBlocked` delivers to a consumer the ids that are sent. -/
theorem serveBlocked_delivers {r : Receiver} {s : Stream} {group : Sds} {cg : StreamCG}
    {ids : List StreamID} (hgroup : r.group = some group) (hcg : s.cgroups[group]? = some cg)
    (hserved : r.served s = some ids) (clock : Nat -> Int) (consumer : Sds) (noack : Bool) :
    serveBlocked clock s group consumer r.count noack cg = (do
      let (c, cg) := streamLookupConsumer cg consumer
      let (cg, sent, newer) <- deliverLoop clock group c noack 0 ids cg
      return (cg, if newer then sent ++ [.xgroupSetid group (some cg.lastId)] else sent)) := by
  unfold Receiver.served Receiver.gt at hserved
  simp only [hgroup, hcg, Option.map_some] at hserved
  unfold serveBlocked
  split at hserved
  · next hnew =>
    cases hserved
    rw [if_pos hnew]
    rfl
  · cases hserved

def Stream.After (s : Stream) (gt id : StreamID) : Prop :=
  id ∈ s.entries.map Prod.fst ∧ streamCompareID id gt = .gt

/-- A reader that is served gets live entries after its id if there are any. -/
theorem blocked_reader_served_iff (r : Receiver) (s : Stream) (gt : StreamID)
    (ids : List StreamID) (hgt : r.gt s = some gt) (hserved : r.served s = some ids) :
    (ids ≠ [] ∧ forall id, id ∈ ids -> s.After gt id) <-> exists id, s.After gt id := by
  unfold Receiver.served at hserved
  rw [hgt] at hserved
  dsimp only at hserved
  split at hserved
  · next hnew =>
    cases hserved
    have hmem : forall id, id ∈ s.idsFrom (streamIncrID gt) <-> s.After gt id :=
      fun id => mem_idsFrom hnew
    constructor
    · rintro ⟨hne, hafter⟩
      rcases List.exists_mem_of_ne_nil _ hne with ⟨id, hid⟩
      exact ⟨id, hafter id hid⟩
    · rintro ⟨id, hid⟩
      refine ⟨limited_ne_nil (List.ne_nil_of_mem ((hmem id).mpr hid)), ?_⟩
      intro id hlimited
      exact (hmem id).mp (mem_limited hlimited)
  · cases hserved

def first : StreamID := ⟨1, 1⟩

def threeEntries : Stream :=
  ⟨[(first, []), (⟨1, 2⟩, []), (⟨2, 1⟩, [])], ⟨2, 1⟩, ∅⟩

theorem blocked_reader_served_entry :
    (Receiver.mk first none 0).served threeEntries = some [⟨1, 2⟩, ⟨2, 1⟩] ∧
      threeEntries.After first ⟨1, 2⟩ ∧ threeEntries.After first ⟨2, 1⟩ := by
  have hids : (Receiver.mk first none 0).served threeEntries = some [⟨1, 2⟩, ⟨2, 1⟩] := rfl
  have hafter := ((blocked_reader_served_iff _ _ first _ rfl hids).mpr
    ⟨⟨2, 1⟩, by decide, rfl⟩).right
  exact ⟨hids, hafter _ (by simp), hafter _ (by simp)⟩

/-- XADD and XDEL in one transaction: the reader is sent an empty list. -/
theorem blocked_reader_served_nothing :
    exists s, runSteps step [(⟨fun _ => 0, 0⟩, .xadd none (some first) []),
        (⟨fun _ => 0, 0⟩, .xdel [first])] streamNew = .ok s ∧
      (Receiver.mk ⟨0, 0⟩ none 0).served s = some [] :=
  ⟨_, rfl, rfl⟩

end Streams
end Redisoo
