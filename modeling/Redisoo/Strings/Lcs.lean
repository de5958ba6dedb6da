import Mathlib.Data.List.ProdSigma
import Redisoo.Util.Decimal

/-!
# The table of STRALGO LCS

`stralgoLCS` keeps the lengths of the longest common subsequences of all pairs of
prefixes in one array.  Both the size of the array and the index of a cell are computed
in 32 bits.
-/

namespace Redisoo
namespace Lcs

open List
open Nat (mod_eq_of_lt succ_pos le_of_succ_le lt_succ_of_le)

variable {a b : Sds} {lcs : List UInt32} {i j i' j' : Nat}

def len (s : Sds) : Nat := s.length % 2 ^ 32

/-- The cells `zmalloc` is asked for: a `uint32_t`, which `sizeof` then multiplies as a
`size_t`. -/
def cells (alen blen : Nat) : Nat :=
  (alen + 1) % 2 ^ 32 * ((blen + 1) % 2 ^ 32) % 2 ^ 32

def cell (blen i j : Nat) : Nat :=
  (j + i * ((blen + 1) % 2 ^ 32) % 2 ^ 32) % 2 ^ 32

def write (lcs : List UInt32) (c : Nat) (v : UInt32) : Option (List UInt32) :=
  if c < lcs.length then some (lcs.set c v) else none

def fillCell (a b : Sds) (lcs : List UInt32) : Nat × Nat -> Option (List UInt32)
  | (0, j) => write lcs (cell (len b) 0 j) 0
  | (i, 0) => write lcs (cell (len b) i 0) 0
  | (i + 1, j + 1) =>
    if a[i]? = b[j]? then do
      let v <- lcs[cell (len b) i j]?
      write lcs (cell (len b) (i + 1) (j + 1)) (v + 1)
    else do
      let lcs1 <- lcs[cell (len b) i (j + 1)]?
      let lcs2 <- lcs[cell (len b) (i + 1) j]?
      write lcs (cell (len b) (i + 1) (j + 1)) (if lcs1 > lcs2 then lcs1 else lcs2)

def fill (a b : Sds) (lcs : List UInt32) : Option (List UInt32) :=
  (range (len a + 1) ×ˢ range (len b + 1)).foldlM (fillCell a b) lcs

def backtrack (a b : Sds) (lcs : List UInt32) : Nat -> Nat -> Option (List (Nat × Nat))
  | 0, _ => some []
  | _, 0 => some []
  | i + 1, j + 1 =>
    if a[i]? = b[j]? then (backtrack a b lcs i j).map ((i, j) :: ·)
    else do
      let lcs1 <- lcs[cell (len b) i (j + 1)]?
      let lcs2 <- lcs[cell (len b) (i + 1) j]?
      if lcs1 > lcs2 then backtrack a b lcs i (j + 1) else backtrack a b lcs (i + 1) j
termination_by i j => i + j

def stralgoLCS (junk : UInt32) (a b : Sds) : Option (UInt32 × List (Nat × Nat)) := do
  let lcs <- fill a b (replicate (cells (len a) (len b)) junk)
  let idx <- lcs[cell (len b) (len a) (len b)]?
  let found <- backtrack a b lcs (len a) (len b)
  return (idx, found)

section

variable (hfit : (len a + 1) * (len b + 1) < 2 ^ 32)

include hfit

theorem cells_eq : cells (len a) (len b) = (len a + 1) * (len b + 1) := by
  have ha : len a + 1 ≤ (len a + 1) * (len b + 1) := Nat.le_mul_of_pos_right _ (succ_pos _)
  have hb : len b + 1 ≤ (len a + 1) * (len b + 1) := Nat.le_mul_of_pos_left _ (succ_pos _)
  unfold cells
  rw [mod_eq_of_lt (a := len a + 1) (by lia), mod_eq_of_lt (a := len b + 1) (by lia),
    mod_eq_of_lt hfit]

theorem cell_eq (hi : i ≤ len a) (hj : j ≤ len b) :
    cell (len b) i j = j + i * (len b + 1) ∧ cell (len b) i j < cells (len a) (len b) := by
  have hb : len b + 1 ≤ (len a + 1) * (len b + 1) := Nat.le_mul_of_pos_left _ (succ_pos _)
  have hrow : (i + 1) * (len b + 1) ≤ (len a + 1) * (len b + 1) :=
    Nat.mul_le_mul_right _ (Nat.succ_le_succ hi)
  rw [Nat.succ_mul] at hrow
  have heq : cell (len b) i j = j + i * (len b + 1) := by
    unfold cell
    rw [mod_eq_of_lt (a := len b + 1) (by lia), mod_eq_of_lt (a := i * _) (by lia),
      mod_eq_of_lt (by lia)]
  rw [cells_eq hfit, heq]
  exact ⟨rfl, by lia⟩

theorem cell_injective (hi : i ≤ len a) (hj : j ≤ len b) (hi' : i' ≤ len a) (hj' : j' ≤ len b)
    (h : cell (len b) i j = cell (len b) i' j') : i = i' ∧ j = j' := by
  rw [(cell_eq hfit hi hj).left, (cell_eq hfit hi' hj').left] at h
  have hdiv := congrArg (· / (len b + 1)) h
  have hmod := congrArg (· % (len b + 1)) h
  simp only [Nat.add_mul_div_right _ _ (succ_pos _), Nat.add_mul_mod_self_right,
    Nat.div_eq_of_lt (lt_succ_of_le hj), Nat.div_eq_of_lt (lt_succ_of_le hj'),
    mod_eq_of_lt (lt_succ_of_le hj), mod_eq_of_lt (lt_succ_of_le hj')] at hdiv hmod
  exact ⟨by lia, hmod⟩

variable (hlen : lcs.length = cells (len a) (len b))

include hlen

theorem read_cell (hi : i ≤ len a) (hj : j ≤ len b) : exists v, lcs[cell (len b) i j]? = some v :=
  ⟨_, getElem?_eq_getElem (hlen ▸ (cell_eq hfit hi hj).right)⟩

theorem write_cell (hi : i ≤ len a) (hj : j ≤ len b) (v : UInt32) :
    exists lcs', write lcs (cell (len b) i j) v = some lcs' ∧
      lcs'.length = cells (len a) (len b) := by
  refine ⟨lcs.set (cell (len b) i j) v, if_pos ?_, ?_⟩
  · rw [hlen]
    exact (cell_eq hfit hi hj).right
  · rw [length_set, hlen]

theorem fillCell_total {p : Nat × Nat} (hi : p.1 ≤ len a) (hj : p.2 ≤ len b) :
    exists lcs', fillCell a b lcs p = some lcs' ∧ lcs'.length = cells (len a) (len b) := by
  fun_cases fillCell a b lcs p with
  | case1 j => exact write_cell hfit hlen hi hj 0
  | case2 i => exact write_cell hfit hlen hi hj 0
  | case3 i j hmatch =>
    rcases read_cell hfit hlen (le_of_succ_le hi) (le_of_succ_le hj) with ⟨v, hv⟩
    rw [hv]
    exact write_cell hfit hlen hi hj (v + 1)
  | case4 i j hmatch =>
    rcases read_cell hfit hlen (le_of_succ_le hi) hj with ⟨lcs1, h1⟩
    rcases read_cell hfit hlen hi (le_of_succ_le hj) with ⟨lcs2, h2⟩
    rw [h1, h2]
    exact write_cell hfit hlen hi hj _

omit hlen in
theorem fold_total {ps : List (Nat × Nat)} (hps : forall p, p ∈ ps -> p.1 ≤ len a ∧ p.2 ≤ len b)
    (hlen : lcs.length = cells (len a) (len b)) :
    exists lcs', ps.foldlM (fillCell a b) lcs = some lcs' ∧
      lcs'.length = cells (len a) (len b) := by
  induction ps generalizing lcs with
  | nil => exact ⟨lcs, rfl, hlen⟩
  | cons p ps ih =>
    have hp := hps p mem_cons_self
    rcases fillCell_total hfit hlen hp.left hp.right with ⟨lcs1, hrun, hlen1⟩
    rw [foldlM_cons, hrun]
    exact ih (fun q hq => hps q (mem_cons_of_mem p hq)) hlen1

theorem backtrack_total (hi : i ≤ len a) (hj : j ≤ len b) :
    exists found, backtrack a b lcs i j = some found := by
  fun_induction backtrack a b lcs i j with
  | case1 => exact ⟨_, rfl⟩
  | case2 => exact ⟨_, rfl⟩
  | case3 i j hmatch ih =>
    rcases ih (le_of_succ_le hi) (le_of_succ_le hj) with ⟨found, hfound⟩
    exact ⟨(i, j) :: found, by rw [hfound]; rfl⟩
  | case4 i j hmatch ih1 ih2 =>
    rcases read_cell hfit hlen (le_of_succ_le hi) hj with ⟨lcs1, h1⟩
    rcases read_cell hfit hlen hi (le_of_succ_le hj) with ⟨lcs2, h2⟩
    rw [h1, h2]
    dsimp only [Option.bind_eq_bind, Option.bind_some]
    split
    · exact ih1 (le_of_succ_le hi) hj
    · exact ih2 hi (le_of_succ_le hj)

omit hlen in
theorem stralgoLCS_total (junk : UInt32) : exists r, stralgoLCS junk a b = some r := by
  have hps : forall p, p ∈ range (len a + 1) ×ˢ range (len b + 1) -> p.1 ≤ len a ∧ p.2 ≤ len b := by
    rintro ⟨i, j⟩ hp
    rw [mem_product, mem_range, mem_range] at hp
    exact ⟨Nat.le_of_lt_succ hp.left, Nat.le_of_lt_succ hp.right⟩
  rcases fold_total hfit hps (length_replicate (a := junk)) with ⟨lcs, hfill, hlen⟩
  rcases read_cell hfit hlen le_rfl le_rfl with ⟨idx, hidx⟩
  rcases backtrack_total hfit hlen le_rfl le_rfl with ⟨found, hfound⟩
  refine ⟨(idx, found), ?_⟩
  unfold stralgoLCS fill
  rw [hfill]
  dsimp only [Option.bind_eq_bind, Option.bind_some]
  rw [hidx, hfound]
  rfl

end

/-- The array has a cell for every pair of prefixes, and every access stays inside it, exactly
if the number of pairs is below `2 ^ 32`.  Longer strings are not refused. -/
theorem lcs_table_exact_iff (junk : UInt32) (a b : Sds) (ha : a.length ≤ 512 * 1024 * 1024)
    (hb : b.length ≤ 512 * 1024 * 1024) :
    (cells (len a) (len b) = (a.length + 1) * (b.length + 1) ∧
      (exists r, stralgoLCS junk a b = some r) ∧
      forall i j i' j', i ≤ a.length -> j ≤ b.length -> i' ≤ a.length -> j' ≤ b.length ->
        cell (len b) i j = cell (len b) i' j' -> i = i' ∧ j = j') <->
      (a.length + 1) * (b.length + 1) < 2 ^ 32 := by
  have hlena : len a = a.length := mod_eq_of_lt (by lia)
  have hlenb : len b = b.length := mod_eq_of_lt (by lia)
  rw [← hlena, ← hlenb]
  constructor
  · rintro ⟨hcells, _⟩
    rw [← hcells]
    exact Nat.mod_lt _ (by decide)
  intro hfit
  refine ⟨cells_eq hfit, stralgoLCS_total hfit junk, ?_⟩
  intro i j i' j' hi hj hi' hj' h
  exact cell_injective hfit hi hj hi' hj' h

theorem lcs_table_exact_match :
    cells (len [97, 98, 99, 98]) (len [98, 100, 98]) = 20 ∧
      (exists r, stralgoLCS 0 [97, 98, 99, 98] [98, 100, 98] = some r) ∧
      (fill [97, 98, 99, 98] [98, 100, 98] (replicate 20 0)).map (·[19]?) = some (some 2) := by
  have h := (lcs_table_exact_iff 0 [97, 98, 99, 98] [98, 100, 98] (by decide) (by decide)).mpr
    (by decide)
  exact ⟨h.left, h.right.left, by decide +kernel⟩

/-- Two strings of 65535 bytes: the product is `2 ^ 32`, no cell is allocated, and the first
store is out of bounds. -/
theorem lcs_table_wraps :
    cells (len (replicate 65535 97)) (len (replicate 65535 98)) = 0 ∧
      stralgoLCS 0 (replicate 65535 97) (replicate 65535 98) = none := by
  have hlen (x : UInt8) : len (replicate 65535 x) = 65535 := by
    rw [len, length_replicate, mod_eq_of_lt (by decide)]
  have hcells : cells 65535 65535 = 0 := rfl
  have hfirst (a b : Sds) : fillCell a b [] (0, 0) = none := by simp [fillCell, write]
  unfold stralgoLCS fill
  rw [hlen, hlen, hcells, range_succ_eq_map, product_cons, map_cons,
    cons_append, foldlM_cons, replicate_zero, hfirst]
  exact ⟨rfl, rfl⟩

end Lcs
end Redisoo
