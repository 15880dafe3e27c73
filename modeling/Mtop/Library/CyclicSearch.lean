import Mtop.Library.StdSort

/-! Searching a cycle: the indices after a base, once around, and the first hit among them. -/
namespace Cxx
set_option autoImplicit false

/-- The indices after `base`, once around `size` places. -/
def cyclicOrder (base : ℤ) (size : ℕ) : List ℤ :=
  (List.range size).map fun (offset : ℕ) => (base + (offset + 1) + size) % size

/-- How many places an index lies behind the one after the base. -/
def stepsAfter (base : ℤ) (size : ℕ) (index : ℤ) : ℤ :=
  if base < index then index - base - 1 else index - base - 1 + size

section Cycle
variable {base : ℤ} {size : ℕ} (hbase : -1 ≤ base ∧ base < size)
include hbase

/-- Place `offset` of the order lies that many steps after the base. -/
theorem cyclicOrder_place {offset : ℕ} (h : offset < size) :
    (0 ≤ (base + (offset + 1) + size) % size ∧ (base + (offset + 1) + size) % size < size) ∧
      stepsAfter base size ((base + (offset + 1) + size) % size) = offset := by
  rw [Int.add_emod_right]
  unfold stepsAfter
  by_cases hwrap : base + (offset + 1) < size
  · rw [Int.emod_eq_of_lt (by omega) hwrap]
    split <;> omega
  · rw [← Int.sub_emod_right, Int.emod_eq_of_lt (by omega) (by omega)]
    split <;> omega

theorem mem_cyclicOrder {index : ℤ} :
    index ∈ cyclicOrder base size ↔ 0 ≤ index ∧ index < size := by
  unfold cyclicOrder
  rw [List.mem_map]
  constructor
  · rintro ⟨offset, hoffset, rfl⟩
    exact (cyclicOrder_place hbase (List.mem_range.mp hoffset)).1
  · rintro ⟨hlow, hhigh⟩
    have hsteps : 0 ≤ stepsAfter base size index ∧ stepsAfter base size index < size := by
      unfold stepsAfter
      split <;> omega
    obtain ⟨offset, hoffset⟩ := Int.eq_ofNat_of_zero_le hsteps.1
    refine ⟨offset, List.mem_range.mpr (by omega), ?_⟩
    rw [Int.add_emod_right, ← hoffset]
    unfold stepsAfter
    split
    · rw [Int.emod_eq_of_lt (by omega) (by omega)]
      omega
    · rw [← Int.sub_emod_right, Int.emod_eq_of_lt (by omega) (by omega)]
      omega

theorem cyclicOrder_pairwise :
    (cyclicOrder base size).Pairwise fun a b => stepsAfter base size a < stepsAfter base size b := by
  unfold cyclicOrder
  rw [List.pairwise_map]
  refine List.pairwise_lt_range.imp_of_mem fun ha hb hlt => ?_
  rw [(cyclicOrder_place hbase (List.mem_range.mp ha)).2,
    (cyclicOrder_place hbase (List.mem_range.mp hb)).2]
  exact_mod_cast hlt

end Cycle

/-- The first hit strictly after the base, around the end if need be. The base itself comes last. -/
structure NextHit (hit : ℤ → Bool) (base : ℤ) (size : ℕ) (index : ℤ) : Prop where
  inside : 0 ≤ index ∧ index < size
  hits : hit index = true
  /-- No hit lies on the way. -/
  skipped : ∀ other : ℤ, 0 ≤ other → other < size → hit other = true →
    ¬ (if base < index then base < other ∧ other < index else base < other ∨ other < index)

/-- The search comes back to its base only when nothing else hits. -/
theorem NextHit.only {hit : ℤ → Bool} {base : ℤ} {size : ℕ} (h : NextHit hit base size base)
    {other : ℤ} (hlow : 0 ≤ other) (hhigh : other < size) (hother : hit other = true) :
    other = base := by
  have hskipped := h.skipped other hlow hhigh hother
  rw [if_neg (lt_irrefl base)] at hskipped
  omega

theorem find?_cyclicOrder {base : ℤ} {size : ℕ} (hbase : -1 ≤ base ∧ base < size) {hit : ℤ → Bool}
    {index : ℤ} : (cyclicOrder base size).find? hit = some index ↔ NextHit hit base size index := by
  rw [find?_eq_some_iff_least (stepsAfter base size) (cyclicOrder_pairwise hbase),
    mem_cyclicOrder hbase]
  have hless : ∀ other : ℤ, 0 ≤ other → other < size → 0 ≤ index → index < size →
      ((if base < index then base < other ∧ other < index else base < other ∨ other < index) ↔
        stepsAfter base size other < stepsAfter base size index) := by
    intro other hlow hhigh hlow' hhigh'
    unfold stepsAfter
    split <;> split <;> omega
  constructor
  · rintro ⟨hinside, hhit, hleast⟩
    refine ⟨hinside, hhit, fun other hlow hhigh hother => ?_⟩
    rw [hless other hlow hhigh hinside.1 hinside.2, not_lt]
    exact hleast other ((mem_cyclicOrder hbase).mpr ⟨hlow, hhigh⟩) hother
  · rintro ⟨hinside, hhit, hskipped⟩
    refine ⟨hinside, hhit, fun other hother hhit' => ?_⟩
    obtain ⟨hlow, hhigh⟩ := (mem_cyclicOrder hbase).mp hother
    rw [← not_lt, ← hless other hlow hhigh hinside.1 hinside.2]
    exact hskipped other hlow hhigh hhit'

theorem find?_cyclicOrder_eq_none {base : ℤ} {size : ℕ} (hbase : -1 ≤ base ∧ base < size)
    {hit : ℤ → Bool} : (cyclicOrder base size).find? hit = none ↔
      ∀ index : ℤ, 0 ≤ index → index < size → hit index = false := by
  rw [List.find?_eq_none]
  constructor
  · intro h index hlow hhigh
    exact Bool.eq_false_of_not_eq_true (h index ((mem_cyclicOrder hbase).mpr ⟨hlow, hhigh⟩))
  · intro h index hindex
    obtain ⟨hlow, hhigh⟩ := (mem_cyclicOrder hbase).mp hindex
    exact Bool.eq_false_iff.mp (h index hlow hhigh)

end Cxx
