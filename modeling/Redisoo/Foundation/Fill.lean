import Mathlib.Data.List.Nodup

/-!
# Filling a table

A table is filled entry by entry, where an entry touches its own key only.  With distinct
keys the order does not matter: each key reads as its entry says, and the other keys read
as before.
-/

namespace Redisoo.Foundation.Fill

section Fill

variable {state entry key value : Type}

def Frames (name : entry -> key) (put : state -> entry -> state) (get : state -> key -> value) :
    Prop :=
  forall st e k, k ≠ name e -> get (put st e) k = get st k

variable {name : entry -> key} {put : state -> entry -> state} {get : state -> key -> value}
  {es : List entry}

theorem foldl_other (hframe : Frames name put get) {k : key} (h : k ∉ es.map name) (st : state) :
    get (es.foldl put st) k = get st k := by
  induction es generalizing st with
  | nil => rfl
  | cons e es ih =>
    rw [List.map_cons, List.mem_cons, not_or] at h
    exact (ih h.right (put st e)).trans (hframe st e k h.left)

theorem name_ne {e e' : entry} (hout : name e' ∉ es.map name) (he : e ∈ es) : name e ≠ name e' := by
  intro heq
  exact hout (heq ▸ List.mem_map_of_mem he)

theorem foldl_mem (hframe : Frames name put get) {blank : value} {placed : entry -> value}
    (hput : forall st e, get st (name e) = blank -> get (put st e) (name e) = placed e)
    (hnodup : (es.map name).Nodup) {e : entry} (he : e ∈ es) {st : state}
    (hblank : get st (name e) = blank) : get (es.foldl put st) (name e) = placed e := by
  induction es generalizing st with
  | nil => cases he
  | cons e' es ih =>
    rw [List.map_cons, List.nodup_cons] at hnodup
    rcases List.mem_cons.mp he with rfl | hin
    · exact (foldl_other hframe hnodup.left (put st e)).trans (hput st e hblank)
    · have hne := name_ne hnodup.left hin
      exact ih hnodup.right hin ((hframe st e' (name e) hne).trans hblank)

theorem foldl_blank [DecidableEq key] (hframe : Frames name put get) {blank : value}
    {placed : entry -> value}
    (hput : forall st e, get st (name e) = blank -> get (put st e) (name e) = placed e)
    (hnodup : (es.map name).Nodup) (st : state) (hblank : forall k, get st k = blank) (k : key) :
    get (es.foldl put st) k = ((es.find? fun e => name e = k).map placed).getD blank := by
  cases hfind : es.find? (fun e => name e = k) with
  | none =>
    have hout : k ∉ es.map name := by
      intro hmem
      rcases List.mem_map.mp hmem with ⟨e, he, hname⟩
      exact absurd hname (by simpa using List.find?_eq_none.mp hfind e he)
    exact (foldl_other hframe hout st).trans (hblank k)
  | some e =>
    have hname : name e = k := by simpa using List.find?_some hfind
    subst hname
    exact foldl_mem hframe hput hnodup (List.mem_of_find?_eq_some hfind) (hblank (name e))

end Fill

end Redisoo.Foundation.Fill
