import Mathlib.Data.Rat.Floor
import Mathlib.Algebra.Order.Floor.Ring
import Mathlib.Tactic.Linarith
import Mathlib.Tactic.NormNum
import Mathlib.Tactic.Positivity

/-! `std::llround` on exact values: to the nearest integer, halves away from zero. -/
namespace Cxx
set_option autoImplicit false

def llround (x : ℚ) : ℤ := if x < 0 then -⌊-x + 1 / 2⌋ else ⌊x + 1 / 2⌋

theorem llround_zero : llround 0 = 0 := by norm_num [llround]

theorem llround_of_nonneg {x : ℚ} (h : 0 ≤ x) : llround x = ⌊x + 1 / 2⌋ := by
  unfold llround
  rw [if_neg (not_lt.mpr h)]

theorem llround_nonneg {x : ℚ} (h : 0 ≤ x) : 0 ≤ llround x := by
  rw [llround_of_nonneg h]
  exact Int.floor_nonneg.mpr (by linarith)

/-- A rounded value is at most a half above a bound exactly when the value stays below the next
half. -/
theorem llround_le_iff {x : ℚ} (h : 0 ≤ x) (y : ℚ) :
    (llround x : ℚ) ≤ y + 1 / 2 ↔ x < ⌊y + 1 / 2⌋ + 1 / 2 := by
  rw [← Int.le_floor, llround_of_nonneg h, ← Int.lt_add_one_iff, Int.floor_lt, Int.cast_add,
    Int.cast_one]
  constructor <;> intro hlt <;> linarith

end Cxx
