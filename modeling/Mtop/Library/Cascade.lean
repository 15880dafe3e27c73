import Mathlib.Order.Basic

/-! Chains of conditions whose verdicts get weaker: a verdict grows with the conditions. -/
namespace Cascade
set_option autoImplicit false

variable {α : Type} [Preorder α] {p p' : Prop} [Decidable p] [Decidable p']

/-- A chain whose branches are all bounded is bounded. -/
theorem ite_le {verdict rest bound : α} (hverdict : verdict ≤ bound) (hrest : rest ≤ bound) :
    (if p then verdict else rest) ≤ bound := by
  split
  · exact hverdict
  · exact hrest

/-- The rest of the chain is only compared where the stronger condition fails. -/
theorem ite_le_ite {verdict rest rest' : α} (hp : p → p') (hbound : rest ≤ verdict)
    (hrest : ¬ p' → rest ≤ rest') :
    (if p then verdict else rest) ≤ (if p' then verdict else rest') := by
  by_cases h' : p'
  · rw [if_pos h']
    exact ite_le (le_refl verdict) hbound
  · rw [if_neg h', if_neg fun h => h' (hp h)]
    exact hrest h'

end Cascade
