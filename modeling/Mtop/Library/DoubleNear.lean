import Mtop.Library.DoubleRound

/-! How far a chain of rounded multiplications and divisions can drift from the exact result: every
rounding costs one factor of `1 - 2⁻⁵³`, and the factors add up along the chain. -/
namespace Cxx
namespace Double
set_option autoImplicit false

/-! ## Roundings apart -/

/-- The factor that one rounding costs at most. -/
def slack : ℚ≥0 := (2 ^ 53 - 1 : ℕ) / (2 ^ 53 : ℕ)

/-- Two magnitudes are at most `k` roundings apart. -/
def Within (k : ℕ) (x y : ℚ≥0) : Prop := y * slack ^ k ≤ x ∧ x * slack ^ k ≤ y

theorem slack_pos : 0 < slack := by
  unfold slack
  positivity

namespace Within
variable {j k : ℕ} {x y z w : ℚ≥0}

theorem refl (x : ℚ≥0) : Within 0 x x := by
  unfold Within
  rw [pow_zero, mul_one]
  exact ⟨le_refl x, le_refl x⟩

theorem trans (h : Within j x y) (h' : Within k y z) : Within (j + k) x z := by
  constructor
  · calc z * slack ^ (j + k) = z * slack ^ k * slack ^ j := by ring
      _ ≤ y * slack ^ j := mul_le_mul_of_nonneg_right h'.1 zero_le
      _ ≤ x := h.1
  · calc x * slack ^ (j + k) = x * slack ^ j * slack ^ k := by ring
      _ ≤ y * slack ^ k := mul_le_mul_of_nonneg_right h.2 zero_le
      _ ≤ z := h'.2

theorem mul (h : Within j x y) (h' : Within k z w) : Within (j + k) (x * z) (y * w) := by
  constructor
  · calc y * w * slack ^ (j + k) = y * slack ^ j * (w * slack ^ k) := by ring
      _ ≤ x * z := mul_le_mul' h.1 h'.1
  · calc x * z * slack ^ (j + k) = x * slack ^ j * (z * slack ^ k) := by ring
      _ ≤ y * w := mul_le_mul' h.2 h'.2

theorem eq_zero_iff (h : Within k x y) : x = 0 ↔ y = 0 := by
  have hpow : slack ^ k ≠ 0 := (pow_pos slack_pos k).ne'
  constructor
  · rintro rfl
    exact (mul_eq_zero.mp (nonpos_iff_eq_zero.mp h.1)).resolve_right hpow
  · rintro rfl
    exact (mul_eq_zero.mp (nonpos_iff_eq_zero.mp h.2)).resolve_right hpow

theorem inv (h : Within k x y) : Within k x⁻¹ y⁻¹ := by
  by_cases hx : x = 0
  · rw [h.eq_zero_iff.mp hx, hx, inv_zero]
    exact ⟨by rw [zero_mul], by rw [zero_mul]⟩
  have hy : y ≠ 0 := fun hy => hx (h.eq_zero_iff.mpr hy)
  have hx' := pos_of_ne_zero hx
  have hy' := pos_of_ne_zero hy
  constructor
  · rw [mul_comm, ← div_eq_mul_inv, div_le_iff₀ hy', inv_mul_eq_div, le_div_iff₀ hx', mul_comm]
    exact h.2
  · rw [mul_comm, ← div_eq_mul_inv, div_le_iff₀ hx', inv_mul_eq_div, le_div_iff₀ hy', mul_comm]
    exact h.1

theorem div (h : Within j x y) (h' : Within k z w) : Within (j + k) (x / z) (y / w) := by
  rw [div_eq_mul_inv, div_eq_mul_inv]
  exact h.mul h'.inv

end Within

/-! ## Ranges -/

/-- A magnitude between two powers of two. -/
structure Between (a b : ℤ) (q : ℚ≥0) : Prop where
  low : 2 ^ a ≤ q
  high : q ≤ 2 ^ b

section Between
variable {a b c d : ℤ} {x y q : ℚ≥0}

theorem Between.pos (h : Between a b q) : 0 < q := (zpow_pos two_pos a).trans_le h.1

theorem Between.div (hx : Between a b x) (hy : Between c d y) : Between (a - d) (b - c) (x / y) := by
  have hpos := hy.pos
  have hc : (0 : ℚ≥0) < 2 ^ c := zpow_pos two_pos c
  have hd : (0 : ℚ≥0) < 2 ^ d := zpow_pos two_pos d
  constructor
  · rw [zpow_sub₀ two_ne_zero]
    exact div_le_div₀ zero_le hx.1 hpos hy.2
  · rw [zpow_sub₀ two_ne_zero]
    exact div_le_div₀ zero_le hx.2 hc hy.1

theorem Between.nearest (h : Between a b q) (ha : -1074 ≤ a) : Between a b (nearest q) := by
  have hb : -1074 ≤ b := by
    have hle : (2 : ℚ≥0) ^ a ≤ 2 ^ b := h.1.trans h.2
    exact ha.trans ((zpow_le_zpow_iff_right₀ one_lt_two).mp hle)
  constructor
  · rw [← nearest_two_pow ha]
    exact nearest_mono h.1
  · rw [← nearest_two_pow hb]
    exact nearest_mono h.2

/-- One rounding away from zero of the subnormals. -/
theorem Between.within (h : Between a b q) (ha : -1022 ≤ a) : Within 1 (Double.nearest q) q := by
  have hq := h.pos.ne'
  have hexponent : -1022 ≤ exponentOf q := by
    have hpow : (2 : ℚ≥0) ^ a < 2 ^ (exponentOf q + 1) := h.1.trans_lt (exponentOf_bounds hq).2
    have := (zpow_lt_zpow_iff_right₀ (one_lt_two (α := ℚ≥0))).mp hpow
    omega
  have hnear := abs_le.mp (nearest_relative hexponent hq)
  have hslack : (slack : ℚ) = 1 - 1 / 2 ^ 53 := by
    unfold slack
    push_cast
    norm_num
  have hqpos : (0 : ℚ) < q := by exact_mod_cast h.pos
  constructor
  · have hlow : (q : ℚ) * (slack : ℚ) ≤ Double.nearest q := by
      rw [hslack]
      linarith [hnear.1]
    rw [pow_one]
    exact_mod_cast hlow
  · have hhigh : (Double.nearest q : ℚ) * (slack : ℚ) ≤ q := by
      have hup : (Double.nearest q : ℚ) ≤ q + q / 2 ^ 53 := by linarith [hnear.2]
      have hs : (0 : ℚ) ≤ slack := slack.2
      calc (Double.nearest q : ℚ) * slack ≤ (q + q / 2 ^ 53) * slack :=
            mul_le_mul_of_nonneg_right hup hs
        _ = q * (1 - (1 / 2 ^ 53) ^ 2) := by rw [hslack]; ring
        _ ≤ q := mul_le_of_le_one_right hqpos.le (by norm_num)
    rw [pow_one]
    exact_mod_cast hhigh

theorem Between.rounded (h : Between a b q) (ha : -1022 ≤ a) (hb : b < 1024) (negative : Bool) :
    roundMagnitude negative q = .finite negative (Double.nearest q) := by
  refine roundMagnitude_of_lt negative ((h.nearest (by omega)).2.trans_lt ?_)
  rw [← zpow_natCast]
  exact (zpow_lt_zpow_iff_right₀ one_lt_two).mpr (by exact_mod_cast hb)

/-- A division in range is one rounding. -/
theorem divRounded_between (hx : Between a b x) (hy : Between c d y) (ha : -1022 ≤ a - d)
    (hb : b - c < 1024) :
    divRounded (.finite false x) (.finite false y) = .finite false (Double.nearest (x / y)) := by
  show (if y = 0 then _ else roundMagnitude false (x / y)) = _
  rw [if_neg hy.pos.ne']
  exact (hx.div hy).rounded ha hb false

end Between
end Double
end Cxx
