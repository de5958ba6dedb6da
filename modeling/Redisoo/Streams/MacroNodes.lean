import Redisoo.Streams.ConsumerGroup

/-!
# Macro nodes

`streamAppendItem` tests twice whether the last node is full.  To the second test a limit of 0
bytes is always reached.
-/

namespace Redisoo
namespace MacroNodes

open Streams

structure Limits where
  maxBytes : Nat
  maxEntries : Nat

structure Node where
  count : Nat
  bytes : Nat

structure Layout where
  lastId : StreamID
  nodes : List Node

def full (l : Limits) (n : Node) : Bool :=
  if l.maxBytes ≠ 0 ∧ n.bytes ≥ l.maxBytes then true
  else if l.maxEntries ≠ 0 then n.count ≥ l.maxEntries
  else false

def starts (l : Limits) : List Node -> Bool
  | [] => true
  | n :: _ => full l n || n.bytes ≥ l.maxBytes

inductive Call where
  | append (id : StreamID) (bytes : Nat)
  | delete (node bytes : Nat)

def step (l : Limits) (s : Layout) : Call -> Layout
  | .append id bytes =>
    if streamCompareID id s.lastId ≠ .gt then s
    else if starts l s.nodes then ⟨id, ⟨1, bytes⟩ :: s.nodes⟩
    else ⟨id, s.nodes.modifyHead fun n => ⟨n.count + 1, bytes⟩⟩
  | .delete i bytes =>
    match s.nodes[i]? with
    | none => s
    | some n =>
      if n.count = 1 then { s with nodes := s.nodes.eraseIdx i }
      else { s with nodes := s.nodes.set i ⟨n.count - 1, bytes⟩ }

def run (l : Limits) (calls : List Call) : Layout :=
  calls.foldl (step l) ⟨⟨0, 0⟩, []⟩

def Reached (l : Limits) : List Node -> Prop
  | [] => True
  | n :: _ => l.maxBytes ≠ 0 ∧ l.maxBytes ≤ n.bytes ∨ l.maxEntries ≠ 0 ∧ l.maxEntries ≤ n.count

def Within (l : Limits) (s : Layout) : Prop :=
  forall n, n ∈ s.nodes -> 1 ≤ n.count ∧ (l.maxEntries ≠ 0 -> n.count ≤ l.maxEntries)

variable {l : Limits} {s : Layout}

theorem step_within (h : Within l s) (call : Call) : Within l (step l s call) := by
  intro m hm
  unfold step at hm
  cases call with
  | append id bytes =>
    dsimp only at hm
    split at hm
    · exact h m hm
    split at hm
    · rcases List.mem_cons.mp hm with rfl | hm
      · exact ⟨Nat.le_refl 1, by lia⟩
      · exact h m hm
    · next hstarts =>
      cases hnodes : s.nodes with
      | nil =>
        rw [hnodes] at hstarts
        exact absurd rfl hstarts
      | cons last rest =>
        rw [hnodes] at hm hstarts
        rcases List.mem_cons.mp hm with rfl | hm
        · unfold starts full at hstarts
          grind
        · exact h m (by rw [hnodes]; exact List.mem_cons_of_mem _ hm)
  | delete i bytes =>
    dsimp only at hm
    split at hm
    · exact h m hm
    next n hn =>
    split at hm
    · exact h m (List.mem_of_mem_eraseIdx hm)
    · rcases List.mem_or_eq_of_mem_set hm with hm | rfl
      · exact h m hm
      · have hlive := h n (List.mem_of_getElem? hn)
        dsimp only
        lia

theorem run_within (h : Within l s) (calls : List Call) : Within l (calls.foldl (step l) s) := by
  induction calls generalizing s with
  | nil => exact h
  | cons call calls ih => exact ih (step_within h call)

/-- The entry limit is kept.  With no limit on bytes a node that is not full is left behind,
unless a node has one entry. -/
theorem macro_nodes_limited_iff (l : Limits) :
    (forall calls n, n ∈ (run l calls).nodes -> l.maxEntries ≠ 0 -> n.count ≤ l.maxEntries) ∧
    ((forall calls, starts l (run l calls).nodes = true -> Reached l (run l calls).nodes) <->
      l.maxBytes ≠ 0 ∨ l.maxEntries = 1) := by
  have hwithin : forall calls, Within l (run l calls) := run_within nofun
  refine ⟨fun calls n hn => (hwithin calls n hn).right, ?_, ?_⟩
  · intro h
    have hsecond : starts l [⟨1, 40⟩] = true -> Reached l [⟨1, 40⟩] := h [.append ⟨1, 1⟩ 40]
    unfold starts full Reached at hsecond
    grind
  · intro hlimits calls hstarts
    have hlive := hwithin calls
    unfold Within at hlive
    cases hnodes : (run l calls).nodes with
    | nil => trivial
    | cons last rest =>
      rw [hnodes] at hstarts hlive
      have hlast := hlive last List.mem_cons_self
      unfold starts full at hstarts
      unfold Reached
      grind

/-- No limit on bytes and 100 entries: each entry gets a node. -/
theorem macro_nodes_unlimited :
    (run ⟨0, 100⟩ [.append ⟨1, 1⟩ 40, .append ⟨1, 2⟩ 40]).nodes = [⟨1, 40⟩, ⟨1, 40⟩] :=
  rfl

end MacroNodes
end Redisoo
