import Redisoo.Structures.DictMap

/-!
# Iterating a dictionary

A full iteration visits the buckets of the first table and, while a rehash is going on,
those of the second.  It returns every entry once, and so determines `dictSize`.
-/

namespace Redisoo

open Foundation List Chaining

variable {key val : Type}

namespace Dictht

def entriesFrom (ht : Dictht key val) : Nat -> Nat -> Except DictCrash (List (key × val))
  | 0, _ => .ok []
  | left + 1, i => do
      let chain ← ht.bucket i
      let rest ← ht.entriesFrom left (i + 1)
      .ok (chain ++ rest)

variable {ht : Dictht key val}

theorem entriesFrom_live (h : ht.Live) {left i : Nat} (hi : i + left ≤ ht.size) :
    ht.entriesFrom left i = .ok ((List.range' i left).flatMap ht.table) := by
  induction left generalizing i with
  | zero => rfl
  | succ left ih =>
    simp only [entriesFrom, ok_bind, h.bucket (i := i) (by lia), ih (i := i + 1) (by lia)]
    rw [List.range'_succ, flatMap_cons]

theorem entriesFrom_table (h : ht = reset ∨ ht.Live) :
    ht.entriesFrom ht.size 0 = .ok (entries ht.size ht.table) := by
  rcases h with rfl | hlive
  · rfl
  · rw [entriesFrom_live hlive (by lia), entries, range_eq_range']

variable [DecidableEq key]

theorem Exact.mem_entries {hash : key -> Nat} (h : ht.Exact hash) (hlive : ht = reset ∨ ht.Live)
    (k : key) (v : val) :
    (k, v) ∈ entries ht.size ht.table <-> ht.get hash k = some v := by
  rcases hlive with rfl | hlive
  · constructor
    · intro hin
      cases hin
    · intro hget
      cases hget
  · exact h.placed.mem_entries (hlive.index_lt hash) k v

end Dictht

namespace Dict

def dictEntries (d : Dict key val) : Except DictCrash (List (key × val)) := do
  let first ← d.ht0.entriesFrom d.ht0.size 0
  if d.isRehashing then
    let second ← d.ht1.entriesFrom d.ht1.size 0
    .ok (first ++ second)
  else .ok first

def htNeedsResize (d : Dict key val) : Bool :=
  decide (d.ht0.size + d.ht1.size > DICT_HT_INITIAL_SIZE ∧
    d.dictSize * 100 / (d.ht0.size + d.ht1.size) < 10)

def resizeIfNeeded (d : Dict key val) : Dict key val :=
  if d.htNeedsResize then d.dictResize.1 else d

structure Lists (m : key -> Option val) (es : List (key × val)) : Prop where
  nodup : (es.map Prod.fst).Nodup
  mem_iff : forall k v, (k, v) ∈ es <-> m k = some v

theorem lists_empty : Lists (fun _ => none : key -> Option val) [] :=
  ⟨nodup_nil, fun _ _ => by simp⟩

variable {a b es : List (key × val)}

section Lists

variable {m : key -> Option val} {es : List (key × val)} {k : key} {v : val}

theorem Lists.none_iff (h : Lists m es) : m k = none <-> k ∉ es.map Prod.fst := by
  constructor
  · intro hnone hin
    rcases mem_map.mp hin with ⟨⟨_, w⟩, hmem, rfl⟩
    have hsome := (h.mem_iff _ _).mp hmem
    rw [hnone] at hsome
    cases hsome
  · intro hout
    cases hm : m k with
    | none => rfl
    | some w => exact absurd (mem_map.mpr ⟨(k, w), (h.mem_iff k w).mpr hm, rfl⟩) hout

theorem Lists.split (h : Lists m es) (hk : m k = some v) : exists a b, es = a ++ (k, v) :: b :=
  append_of_mem ((h.mem_iff k v).mpr hk)

theorem Lists.middle (h : Lists m (a ++ (k, v) :: b)) :
    k ∉ a.map Prod.fst ∧ k ∉ b.map Prod.fst := by
  have hnodup := h.nodup
  rw [map_append, map_cons, nodup_append, nodup_cons] at hnodup
  exact ⟨fun hin => hnodup.right.right k hin k mem_cons_self rfl, hnodup.right.left.left⟩

end Lists

variable [DecidableEq key] {hash : key -> Nat} {d : Dict key val}

theorem resizeIfNeeded_keeps (h : d.Inv hash) (hcount : d.dictSize < 2 ^ 59) :
    Keeps hash d d.resizeIfNeeded := by
  unfold resizeIfNeeded
  split
  · exact dictResize_keeps h hcount
  · exact h.keeps_refl

theorem Inv.setCanResize (h : d.Inv hash) (b : Bool) :
    ({ d with canResize := b } : Dict key val).Inv hash :=
  ⟨h.exact0, h.exact1, h.apart, h.idle, h.moving⟩

section Lists

variable {m : key -> Option val} {es : List (key × val)} {k : key} {v : val}

theorem Lists.snoc (h : Lists m es) (hk : m k = none) (v : val) :
    Lists (Function.update m k (some v)) (es ++ [(k, v)]) := by
  have hout := h.none_iff.mp hk
  constructor
  · rw [map_append, map_cons, map_nil, nodup_append]
    refine ⟨h.nodup, nodup_singleton k, ?_⟩
    intro k' hin k'' hk'' heq
    rw [heq, mem_singleton.mp hk''] at hin
    exact hout hin
  · intro k' w
    rw [mem_append, mem_singleton, h.mem_iff, Prod.mk.injEq]
    by_cases hk' : k' = k
    · subst hk'
      simp [hk, eq_comm]
    · simp [hk']

theorem Lists.put (h : Lists m (a ++ (k, v) :: b)) (o : Option val) :
    Lists (Function.update m k o) (a ++ (o.toList.map (k, ·) ++ b)) := by
  rcases h.middle with ⟨hleft, hright⟩
  constructor
  · have hsub : ((o.toList.map (k, ·)).map Prod.fst).Sublist [k] := by
      cases o with
      | none => exact nil_sublist _
      | some v' => exact List.Sublist.refl _
    have hnodup := h.nodup
    rw [map_append, map_cons] at hnodup
    rw [map_append, map_append]
    exact hnodup.sublist ((hsub.append_right _).append_left _)
  · intro k' w
    by_cases hk' : k' = k
    · subst hk'
      have houta : (k', w) ∉ a := fun hin => hleft (mem_map.mpr ⟨_, hin, rfl⟩)
      have houtb : (k', w) ∉ b := fun hin => hright (mem_map.mpr ⟨_, hin, rfl⟩)
      simp [houta, houtb]
    · rw [Function.update_of_ne hk', ← h.mem_iff]
      simp [hk', Ne.symm hk']

end Lists

theorem dictEntries_spec (h : d.Inv hash) :
    exists es, d.dictEntries = .ok es ∧ Lists (d.toMap hash) es ∧ es.length = d.dictSize := by
  have hlive : (d.ht0 = Dictht.reset ∨ d.ht0.Live) ∧ (d.ht1 = Dictht.reset ∨ d.ht1.Live) := by
    cases hidx : d.rehashidx with
    | none => exact ⟨(h.idle hidx).right, Or.inl (h.idle hidx).left⟩
    | some r =>
      rcases h.moving r hidx with ⟨hlive0, hlive1, _, _⟩
      exact ⟨Or.inr hlive0, Or.inr hlive1⟩
  have hmem0 := h.exact0.mem_entries hlive.left
  have hmem1 := h.exact1.mem_entries hlive.right
  have hwalk0 := Dictht.entriesFrom_table hlive.left
  have hwalk1 := Dictht.entriesFrom_table hlive.right
  -- outside a rehash the second table has no entries
  have hrun : d.dictEntries = .ok (entries d.ht0.size d.ht0.table ++
      entries d.ht1.size d.ht1.table) := by
    unfold dictEntries
    cases hrehash : d.isRehashing with
    | true => simp only [ok_bind, hwalk0, hwalk1, if_true]
    | false =>
      have hreset := (h.idle_of_not hrehash).left
      have hnone : entries d.ht1.size d.ht1.table = [] := by
        rw [hreset]
        rfl
      simp only [ok_bind, hwalk0, hnone, append_nil, Bool.false_eq_true, if_false]
  refine ⟨_, hrun, ⟨?_, ?_⟩, ?_⟩
  · rw [map_append, nodup_append]
    refine ⟨h.exact0.placed.entries_nodup _, h.exact1.placed.entries_nodup _, ?_⟩
    intro k hk0 k' hk1 heq
    subst heq
    rcases mem_map.mp hk0 with ⟨⟨_, v0⟩, hin0, rfl⟩
    rcases mem_map.mp hk1 with ⟨⟨k', v1⟩, hin1, hk'⟩
    dsimp only at hk'
    subst hk'
    rw [hmem0] at hin0
    rw [hmem1] at hin1
    rcases h.apart k' with hnone | hnone
    · rw [hnone] at hin0
      cases hin0
    · rw [hnone] at hin1
      cases hin1
  · intro k v
    rw [mem_append, hmem0, hmem1]
    unfold toMap
    rcases h.apart k with hnone | hnone
    · simp [hnone]
    · cases hget : d.ht0.get hash k with
      | none => simp [hnone]
      | some w => simp [hnone]
  · rw [length_append, entries_length, entries_length, ← h.exact0.used, ← h.exact1.used]
    rfl

theorem Inv.dictSize_eq (h : d.Inv hash) (hes : Lists (d.toMap hash) es) :
    d.dictSize = es.length := by
  rcases dictEntries_spec h with ⟨es', _, hes', hlen⟩
  have hperm : es'.Perm es := by
    apply (perm_ext_iff_of_nodup hes'.nodup.of_map hes.nodup.of_map).mpr
    rintro ⟨k, v⟩
    rw [hes'.mem_iff, hes.mem_iff]
  rw [← hlen, hperm.length_eq]

end Dict
end Redisoo
