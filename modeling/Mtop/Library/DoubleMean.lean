import Mtop.Library.DoubleRound

/-! Arithmetic on magnitudes far below the largest double: every result is the nearest one to the
exact result, and a mean of many of them stays in range and close to the exact mean. -/
namespace Cxx
namespace Double
set_option autoImplicit false

/-! ## Exact counts -/

theorem nearest_natCast {n : ℕ} (h : n ≤ 2 ^ 53) : nearest n = n := by
  rcases h.lt_or_eq with hlt | rfl
  · have hbits := nearest_of_bits hlt (by norm_num : (-1074 : ℤ) ≤ 0)
    rwa [zpow_zero, mul_one] at hbits
  · have hpow := nearest_two_pow (by norm_num : (-1074 : ℤ) ≤ 53)
    exact_mod_cast hpow

theorem le_two_pow_70 {n : ℕ} (h : n ≤ 2 ^ 53) : (n : ℚ≥0) ≤ 2 ^ 70 := by
  have hle : n ≤ 2 ^ 70 := h.trans (by norm_num)
  exact_mod_cast hle

theorem rounded_ofNat {n : ℕ} (h : n ≤ 2 ^ 53) : (ofNat n).rounded = .finite false n := by
  show roundMagnitude false n = .finite false n
  rw [roundMagnitude_of_le false (le_two_pow_70 h), nearest_natCast h]

theorem mulRounded_natCast {m n : ℕ} (h : m * n ≤ 2 ^ 53) :
    mulRounded (.finite false m) (ofNat n) = .finite false (m * n : ℕ) := by
  show roundMagnitude false (m * n) = .finite false (m * n : ℕ)
  rw [← Nat.cast_mul, roundMagnitude_of_le false (le_two_pow_70 h), nearest_natCast h]

theorem addRounded_of_le {x y : ℚ≥0} (h : x + y ≤ 2 ^ 70) :
    addRounded (.finite false x) (.finite false y) = .finite false (nearest (x + y)) := by
  have hexact : (Double.finite false x + .finite false y) = .finite false (x + y) := by
    show (if x = 0 ∧ y = 0 then _ else _ : Double) = _
    split
    · rename_i hzero
      rw [hzero.1, hzero.2, add_zero]
      rfl
    · have hnonneg : ¬ ((x : ℚ) + (y : ℚ) < 0) := not_lt.mpr (add_nonneg x.2 y.2)
      unfold ofRat
      simp only [value, Bool.false_eq_true, if_false, decide_eq_false hnonneg]
      congr 1
      ext
      push_cast
      exact abs_of_nonneg (not_lt.mp hnonneg)
  unfold addRounded
  rw [hexact]
  exact roundMagnitude_of_le false h

theorem divRounded_of_le {x y : ℚ≥0} (hy : y ≠ 0) (h : x / y ≤ 2 ^ 70) :
    divRounded (.finite false x) (.finite false y) = .finite false (nearest (x / y)) := by
  show (if y = 0 then _ else roundMagnitude false (x / y)) = _
  rw [if_neg hy]
  exact roundMagnitude_of_le false h

/-! ## Sums and means -/

/-- A magnitude up to `bound` moves by its `2⁻⁵³`th part at most. -/
theorem nearest_near_of_le {q bound : ℚ≥0} (h : q ≤ bound) (hbound : 1 ≤ bound) :
    |(nearest q : ℚ) - q| ≤ bound / 2 ^ 53 := by
  by_cases hq : q = 0
  · rw [hq, nearest_zero, sub_self, abs_zero]
    positivity
  have hlast : lastPlaceOf bound = exponentOf bound - 52 := by
    have := normal_of_one_le hbound
    unfold lastPlaceOf
    omega
  have hbelow : (2 : ℚ) ^ exponentOf bound ≤ bound := by
    exact_mod_cast (exponentOf_bounds (one_pos.trans_le hbound).ne').1
  calc |(nearest q : ℚ) - q| ≤ 2 ^ lastPlaceOf q / 2 := nearest_near q
    _ ≤ 2 ^ lastPlaceOf bound / 2 := by
        have hmono := zpow_le_zpow_right₀ (one_le_two (α := ℚ)) (lastPlaceOf_mono hq h)
        linarith
    _ = 2 ^ exponentOf bound / 2 ^ 53 := by
        rw [hlast, zpow_sub₀ two_ne_zero, div_div]
        norm_num
    _ ≤ bound / 2 ^ 53 := div_le_div_of_nonneg_right hbelow (by positivity)

/-- A running sum that is rounded at every step. -/
def sumNearest (xs : List ℚ≥0) : ℚ≥0 := xs.foldl (fun sum x => nearest (sum + x)) 0

section Sum
variable {xs : List ℚ≥0} {bound : ℕ}

theorem sumNearest_append_singleton (xs : List ℚ≥0) (x : ℚ≥0) :
    sumNearest (xs ++ [x]) = nearest (sumNearest xs + x) := by
  unfold sumNearest
  rw [List.foldl_append]
  rfl

/-- Rounding is monotone and leaves counts alone, so it never pushes a sum above its bound. -/
theorem sumNearest_le (h : ∀ x ∈ xs, x ≤ bound) (hlength : bound * xs.length ≤ 2 ^ 53) :
    sumNearest xs ≤ (bound * xs.length : ℕ) := by
  induction xs using List.reverseRecOn with
  | nil => exact zero_le
  | append_singleton xs x ih =>
    rw [List.length_append, List.length_singleton, Nat.mul_add, Nat.mul_one] at hlength ⊢
    have hfront := ih (fun y hy => h y (List.mem_append_left _ hy)) (by omega)
    have hlast := h x (List.mem_append_right _ (List.mem_singleton_self x))
    rw [sumNearest_append_singleton, ← nearest_natCast hlength]
    refine nearest_mono ?_
    push_cast at hfront ⊢
    exact add_le_add hfront hlast

/-- Each step adds the error of one rounding. -/
theorem sumNearest_near (hbound : 1 ≤ bound) (h : ∀ x ∈ xs, x ≤ bound)
    (hlength : bound * xs.length ≤ 2 ^ 53) :
    |(sumNearest xs : ℚ) - xs.sum| ≤ xs.length * (bound * xs.length : ℕ) / 2 ^ 53 := by
  have hsteps : ∀ ys : List ℚ≥0, (∀ y ∈ ys, y ≤ bound) → ys.length ≤ xs.length →
      |(sumNearest ys : ℚ) - ys.sum| ≤ ys.length * (bound * xs.length : ℕ) / 2 ^ 53 := by
    intro ys hys hle
    induction ys using List.reverseRecOn with
    | nil => simp [sumNearest]
    | append_singleton ys y ih =>
      rw [List.length_append, List.length_singleton] at hle
      have hfront := ih (fun z hz => hys z (List.mem_append_left _ hz)) (by omega)
      have hlast := hys y (List.mem_append_right _ (List.mem_singleton_self y))
      have hpartial := sumNearest_le (fun z hz => hys z (List.mem_append_left _ hz))
        ((Nat.mul_le_mul_left bound (by omega)).trans hlength)
      have hsum : sumNearest ys + y ≤ (bound * xs.length : ℕ) := by
        refine (add_le_add hpartial hlast).trans ?_
        have hcount : bound * ys.length + bound ≤ bound * xs.length := by
          rw [← Nat.mul_succ]
          exact Nat.mul_le_mul_left bound hle
        exact_mod_cast hcount
      have hone : 1 ≤ ((bound * xs.length : ℕ) : ℚ≥0) := by
        have hpos : 1 ≤ bound * xs.length := Nat.mul_pos hbound (by omega)
        exact_mod_cast hpos
      have hround := nearest_near_of_le hsum hone
      rw [sumNearest_append_singleton, List.sum_append, List.sum_singleton]
      rw [abs_le] at hfront hround ⊢
      push_cast [List.length_append, List.length_singleton] at hfront hround ⊢
      constructor
      · linarith [hfront.1, hround.1]
      · linarith [hfront.2, hround.2]
  exact hsteps xs h (le_refl _)

/-- The rounded mean stays within the bound. -/
theorem mean_le (hpos : xs ≠ []) (h : ∀ x ∈ xs, x ≤ bound) (hlength : bound * xs.length ≤ 2 ^ 53)
    (hbound : bound ≤ 2 ^ 53) : nearest (sumNearest xs / xs.length) ≤ bound := by
  have hcount : (0 : ℚ≥0) < xs.length := by exact_mod_cast List.length_pos_iff.mpr hpos
  rw [← nearest_natCast hbound]
  refine nearest_mono ?_
  rw [div_le_iff₀ hcount]
  have hsum := sumNearest_le h hlength
  push_cast at hsum
  exact hsum

/-- The rounded mean is close to the exact one. -/
theorem mean_near (hpos : xs ≠ []) (hbound : 1 ≤ bound) (h : ∀ x ∈ xs, x ≤ bound)
    (hlength : bound * xs.length ≤ 2 ^ 53) :
    |(nearest (sumNearest xs / xs.length) : ℚ) - xs.sum / xs.length| ≤
      bound * (xs.length + 1) / 2 ^ 53 := by
  have hlen := List.length_pos_iff.mpr hpos
  have hcount : (0 : ℚ) < xs.length := by exact_mod_cast hlen
  have hcount' : (0 : ℚ≥0) < xs.length := by exact_mod_cast hlen
  have hmean : sumNearest xs / xs.length ≤ (bound : ℚ≥0) := by
    rw [div_le_iff₀ hcount']
    have hsum := sumNearest_le h hlength
    push_cast at hsum
    exact hsum
  have hround := nearest_near_of_le hmean (by exact_mod_cast hbound)
  have hsum := sumNearest_near hbound h hlength
  have hdiv : |(sumNearest xs : ℚ) / xs.length - xs.sum / xs.length| ≤
      bound * xs.length / 2 ^ 53 := by
    rw [← sub_div, abs_div, abs_of_pos hcount, div_le_iff₀ hcount]
    refine hsum.trans (le_of_eq ?_)
    push_cast
    ring
  push_cast at hround
  rw [abs_le] at hround hdiv ⊢
  constructor
  · have := hround.1
    have := hdiv.1
    rw [mul_add, add_div]
    linarith
  · have := hround.2
    have := hdiv.2
    rw [mul_add, add_div]
    linarith

end Sum
end Double
end Cxx
