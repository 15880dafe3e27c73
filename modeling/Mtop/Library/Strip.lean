import Mathlib.Data.List.Basic
import Mathlib.Algebra.BigOperators.Group.List.Basic
import Mathlib.Tactic.Ring

/-! A strip of cells that is painted from the left, unit by unit, with `k` units to a cell. A cell
remembers who painted it last and how full it is. -/
namespace Strip
set_option autoImplicit false

variable {α : Type}

structure Cell (α : Type) where
  owner : Option α := none
  filled : ℕ := 0
  deriving DecidableEq

structure State (α : Type) where
  cursor : ℕ
  cells : List (Cell α)

def blank (width : ℕ) : State α := ⟨0, List.replicate width {}⟩

/-- One unit is painted at the cursor. -/
def put (k : ℕ) (owner : α) (s : State α) : State α :=
  ⟨s.cursor + 1, s.cells.set (s.cursor / k) ⟨some owner, min k (s.cursor % k + 1)⟩⟩

/-- The loop over the units of one owner; it ends where the strip is full. -/
def fill (k width : ℕ) (owner : α) : ℕ → State α → State α
  | 0, s => s
  | units + 1, s =>
    if s.cursor < width * k then fill k width owner units (put k owner s) else s

/-! ## The painted strip -/

/-- The cell in which these units stand. -/
def cellAt (k : ℕ) (owners : List α) (i : ℕ) : Cell α :=
  ⟨((owners.drop (i * k)).take k).getLast?, ((owners.drop (i * k)).take k).length⟩

def cellsOf (k width : ℕ) (owners : List α) : List (Cell α) :=
  (List.range width).map (cellAt k owners)

variable {k width : ℕ}

/-- The units behind a cell do not change it, and neither do those before it. -/
theorem cellAt_append (hk : 0 < k) (owners : List α) (owner : α) (i : ℕ) :
    cellAt k (owners ++ [owner]) i =
      if i = owners.length / k then ⟨some owner, min k (owners.length % k + 1)⟩
      else cellAt k owners i := by
  have hdiv := Nat.div_add_mod owners.length k
  have hmod := Nat.mod_lt owners.length hk
  unfold cellAt
  split_ifs with hi
  · subst hi
    have hle : owners.length / k * k ≤ owners.length := Nat.div_mul_le_self _ _
    have hrest : (owners.drop (owners.length / k * k)).length = owners.length % k := by
      rw [List.length_drop, Nat.mul_comm]
      omega
    have hfit : (owners.drop (owners.length / k * k) ++ [owner]).length ≤ k := by
      rw [List.length_append, hrest, List.length_singleton]
      omega
    rw [List.drop_append_of_le_length hle, List.take_of_length_le hfit, List.length_append, hrest,
      List.length_singleton, List.getLast?_concat, min_eq_right (by omega)]
  · rcases Nat.lt_or_gt_of_ne hi with hlt | hgt
    · have hfull : i * k + k ≤ owners.length := by
        have hnext : (i + 1) * k ≤ owners.length / k * k := Nat.mul_le_mul_right k hlt
        have hle := Nat.div_mul_le_self owners.length k
        rw [Nat.succ_mul] at hnext
        omega
      have hdrop : k ≤ (owners.drop (i * k)).length := by
        rw [List.length_drop]
        omega
      rw [List.drop_append_of_le_length (by omega), List.take_append_of_le_length hdrop]
    · have hpast : owners.length + 1 ≤ i * k := by
        have hnext : (owners.length / k + 1) * k ≤ i * k := Nat.mul_le_mul_right k hgt
        rw [Nat.succ_mul, Nat.mul_comm] at hnext
        omega
      rw [List.drop_eq_nil_of_le (by rwa [List.length_append, List.length_singleton]),
        List.drop_eq_nil_of_le (by omega)]

theorem put_cells (hk : 0 < k) (owners : List α) (owner : α) :
    (cellsOf k width owners).set (owners.length / k) ⟨some owner, min k (owners.length % k + 1)⟩ =
      cellsOf k width (owners ++ [owner]) := by
  refine List.ext_getElem ?_ fun i hi hi' => ?_
  · rw [List.length_set, cellsOf, cellsOf, List.length_map, List.length_map]
  · unfold cellsOf at hi hi' ⊢
    rw [List.getElem_set, List.getElem_map, List.getElem_map, List.getElem_range,
      cellAt_append hk]
    by_cases hcell : owners.length / k = i
    · rw [if_pos hcell, if_pos hcell.symm]
    · rw [if_neg hcell, if_neg (Ne.symm hcell)]

theorem cellsOf_nil (k width : ℕ) : cellsOf k width ([] : List α) = List.replicate width {} := by
  refine List.ext_getElem (by simp [cellsOf]) fun i hi hi' => ?_
  simp [cellsOf, cellAt]

/-- The strip after these units, as far as they fit. -/
def painted (k width : ℕ) (owners : List α) : State α :=
  ⟨(owners.take (width * k)).length, cellsOf k width (owners.take (width * k))⟩

theorem painted_nil (k width : ℕ) : painted k width ([] : List α) = blank width := by
  unfold painted blank
  rw [List.take_nil, cellsOf_nil, List.length_nil]

theorem fill_painted (hk : 0 < k) (owner : α) (units : ℕ) (owners : List α) :
    fill k width owner units (painted k width owners) =
      painted k width (owners ++ List.replicate units owner) := by
  induction units generalizing owners with
  | zero => rw [fill, List.replicate_zero, List.append_nil]
  | succ units ih =>
    rw [fill]
    by_cases hfits : owners.length < width * k
    · have htake : owners.take (width * k) = owners := List.take_of_length_le hfits.le
      have htake' : (owners ++ [owner]).take (width * k) = owners ++ [owner] := by
        refine List.take_of_length_le ?_
        rw [List.length_append, List.length_singleton]
        omega
      have hput : put k owner (painted k width owners) = painted k width (owners ++ [owner]) := by
        unfold put painted
        rw [htake, htake', put_cells hk, List.length_append, List.length_singleton]
      have hcursor : (painted k width owners).cursor < width * k := by
        unfold painted
        rwa [htake]
      rw [if_pos hcursor, hput, ih, List.append_assoc, List.singleton_append, ← List.replicate_succ]
    · have hfull : (painted k width owners).cursor = width * k := by
        show (owners.take (width * k)).length = width * k
        rw [List.length_take]
        omega
      rw [if_neg (by omega)]
      unfold painted
      rw [List.take_append_of_le_length (by omega)]

/-- All owners in turn. -/
theorem foldl_fill (width : ℕ) (hk : 0 < k) (parts : List (ℕ × α)) (owners : List α) :
    parts.foldl (fun s part => fill k width part.2 part.1 s) (painted k width owners) =
      painted k width (owners ++ parts.flatMap fun part => List.replicate part.1 part.2) := by
  induction parts generalizing owners with
  | nil => rw [List.foldl_nil, List.flatMap_nil, List.append_nil]
  | cons part parts ih =>
    rw [List.foldl_cons, fill_painted hk, ih, List.flatMap_cons, List.append_assoc]

/-- A cell that is full is not changed by what comes behind it. -/
theorem cellAt_of_full {owners : List α} {i : ℕ} (h : (i + 1) * k ≤ owners.length)
    (more : List α) : cellAt k (owners ++ more) i = cellAt k owners i := by
  rw [Nat.succ_mul] at h
  have hdrop : k ≤ (owners.drop (i * k)).length := by
    rw [List.length_drop]
    omega
  unfold cellAt
  rw [List.drop_append_of_le_length (by omega), List.take_append_of_le_length hdrop]

/-! ## How full it is -/

theorem filled_cellAt (k : ℕ) (owners : List α) (i : ℕ) :
    (cellAt k owners i).filled = min k (owners.length - i * k) := by
  unfold cellAt
  rw [List.length_take, List.length_drop]

/-- Together the cells hold all units. -/
theorem sum_filled {owners : List α} (h : owners.length ≤ width * k) :
    ((cellsOf k width owners).map Cell.filled).sum = owners.length := by
  have hsum : ∀ n, ((List.range n).map fun i => (cellAt k owners i).filled).sum =
      min (n * k) owners.length := by
    intro n
    induction n with
    | zero => simp
    | succ n ih =>
      rw [List.range_succ, List.map_append, List.sum_append, ih, List.map_singleton,
        List.sum_singleton, filled_cellAt, Nat.succ_mul]
      omega
  unfold cellsOf
  rw [List.map_map]
  exact (hsum width).trans (Nat.min_eq_right h)

end Strip
