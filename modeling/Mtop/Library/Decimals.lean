import Mtop.Library.DoubleRead

/-! Numbers rounded to some decimals: the order is kept, also between a rounding to more and one to
fewer decimals with a whole number in between. -/
namespace Cxx
namespace Double
set_option autoImplicit false

/-- A magnitude rounded to this many decimals. -/
def shown (places : ℕ) (q : ℚ≥0) : ℚ≥0 := roundHalfEven (q * (10 ^ places : ℕ)) / (10 ^ places : ℕ)

section Shown
variable {places places' n : ℕ} {p q : ℚ≥0}

theorem pow_cast_pos (places : ℕ) : (0 : ℚ≥0) < (10 ^ places : ℕ) := by positivity

theorem shown_natCast (places n : ℕ) : shown places n = n := by
  unfold shown
  rw [← Nat.cast_mul, roundHalfEven_natCast, Nat.cast_mul,
    mul_div_cancel_right₀ _ (pow_cast_pos places).ne']

theorem shown_mono (h : p ≤ q) : shown places p ≤ shown places q := by
  unfold shown
  refine div_le_div_of_nonneg_right ?_ (pow_cast_pos places).le
  exact_mod_cast roundHalfEven_mono (mul_le_mul_of_nonneg_right h (pow_cast_pos places).le)

theorem shown_le_natCast (h : q ≤ n) : shown places q ≤ n :=
  (shown_mono h).trans_eq (shown_natCast places n)

theorem natCast_le_shown (h : n ≤ q) : n ≤ shown places q :=
  (shown_natCast places n).symm.trans_le (shown_mono h)

/-- The number of decimals may change where a whole number lies in between. -/
theorem shown_le_shown (hp : p ≤ n) (hq : n ≤ q) : shown places p ≤ shown places' q :=
  (shown_le_natCast hp).trans (natCast_le_shown hq)

/-- What is shown is off by half of the last digit at most. -/
theorem shown_near (places : ℕ) (q : ℚ≥0) :
    |(shown places q : ℚ) - q| ≤ 1 / 2 / (10 ^ places : ℕ) := by
  have hpos : (0 : ℚ) < (10 ^ places : ℕ) := by positivity
  have hnear := roundHalfEven_near (q * (10 ^ places : ℕ))
  have hsplit : (shown places q : ℚ) - q =
      ((roundHalfEven (q * (10 ^ places : ℕ)) : ℚ) - (q * (10 ^ places : ℕ) : ℚ≥0)) /
        (10 ^ places : ℕ) := by
    unfold shown
    push_cast at hpos ⊢
    field_simp
  rw [hsplit, abs_div, abs_of_pos hpos]
  exact div_le_div_of_nonneg_right hnear hpos.le

end Shown

/-! ## Reading a decimal -/

/-- The number at the start of a text, the value of its last digit, and what follows. -/
def readDecimal (text : Text) : ℚ≥0 × ℚ≥0 × Text :=
  let (digits, places, rest) := scanMantissa Char.isDigit text
  (digitsValue 10 digits / (10 ^ places : ℕ), 1 / (10 ^ places : ℕ), rest)

/-- A number that is printed with some decimals is read as it is shown. -/
theorem readDecimal_fixedText (places : ℕ) (q : ℚ≥0) {rest : Text} (h : EndsNumber rest) :
    readDecimal (fixedText places (.finite false q) ++ rest) =
      (shown places q, (1 / (10 ^ places : ℕ) : ℚ≥0), rest) := by
  have hcast : ((10 ^ places : ℕ) : ℚ≥0) = 10 ^ places := by rw [Nat.cast_pow, Nat.cast_ofNat]
  unfold readDecimal
  rw [fixedText_eq_decimalText, scanMantissa_decimalText _ _ h]
  dsimp only
  rw [digitsValue_decimal, ← hcast]
  rfl

theorem fixedText_natCast (n : ℕ) : fixedText 0 (.finite false n) = natText n := by
  rw [fixedText_eq_decimalText, pow_zero, mul_one, roundHalfEven_natCast, decimalText, pow_zero,
    Nat.div_one, if_pos rfl, List.append_nil]

end Double
end Cxx
