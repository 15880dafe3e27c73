import Mtop.Library.DoubleText
import Mathlib.Algebra.Order.Field.Power
import Mathlib.Tactic.FieldSimp

/-! What rounding to binary64 does to exact magnitudes: it is monotone, keeps what has 53 bits, moves
nothing by more than half a unit in the last place, and commutes with doubling. -/
namespace Cxx
namespace Double
set_option autoImplicit false

/-! ## To integers -/

theorem floor_le_roundHalfEven (q : ℚ≥0) : ⌊q⌋₊ ≤ roundHalfEven q := by
  unfold roundHalfEven
  dsimp only
  split_ifs <;> omega

theorem roundHalfEven_le_floor (q : ℚ≥0) : roundHalfEven q ≤ ⌊q⌋₊ + 1 := by
  unfold roundHalfEven
  dsimp only
  split_ifs <;> omega

theorem roundHalfEven_of_lt {q : ℚ≥0} (h : q < ⌊q⌋₊ + 1 / 2) : roundHalfEven q = ⌊q⌋₊ := if_pos h

theorem roundHalfEven_of_gt {q : ℚ≥0} (h : (⌊q⌋₊ : ℚ≥0) + 1 / 2 < q) :
    roundHalfEven q = ⌊q⌋₊ + 1 := (if_neg h.asymm).trans (if_pos h)

theorem roundHalfEven_mono {p q : ℚ≥0} (h : p ≤ q) : roundHalfEven p ≤ roundHalfEven q := by
  rcases (Nat.floor_mono h).lt_or_eq with hfloor | hfloor
  · have hnext : ⌊p⌋₊ + 1 ≤ ⌊q⌋₊ := hfloor
    exact (roundHalfEven_le_floor p).trans (hnext.trans (floor_le_roundHalfEven q))
  · -- between the same integers, the middle decides
    rcases lt_trichotomy p (⌊p⌋₊ + 1 / 2) with hp | hp | hp
    · rw [roundHalfEven_of_lt hp, hfloor]
      exact floor_le_roundHalfEven q
    · rcases h.lt_or_eq with hlt | rfl
      · have hq : (⌊q⌋₊ : ℚ≥0) + 1 / 2 < q := by rwa [← hfloor, ← hp]
        rw [roundHalfEven_of_gt hq, ← hfloor]
        exact roundHalfEven_le_floor p
      · exact le_refl _
    · have hq : (⌊q⌋₊ : ℚ≥0) + 1 / 2 < q := by
        rw [← hfloor]
        exact hp.trans_le h
      rw [roundHalfEven_of_gt hq, roundHalfEven_of_gt hp, hfloor]

theorem roundHalfEven_natCast (n : ℕ) : roundHalfEven n = n := by
  unfold roundHalfEven
  rw [Nat.floor_natCast]
  exact if_pos (lt_add_of_pos_right _ (by norm_num))

theorem roundHalfEven_le {q : ℚ≥0} {n : ℕ} (h : q ≤ n) : roundHalfEven q ≤ n :=
  (roundHalfEven_mono h).trans_eq (roundHalfEven_natCast n)

theorem le_roundHalfEven {q : ℚ≥0} {n : ℕ} (h : n ≤ q) : n ≤ roundHalfEven q :=
  (roundHalfEven_natCast n).symm.trans_le (roundHalfEven_mono h)

/-! ## Powers of two -/

theorem scaled_eq (base : ℕ) (q : ℚ≥0) (e : ℤ) : scaled base q e = q * (base : ℚ≥0) ^ e := by
  cases e with
  | ofNat n => rfl
  | negSucc n =>
    show q / (base : ℚ≥0) ^ (n + 1) = _
    rw [zpow_negSucc, div_eq_mul_inv]

/-- The exponent is the one of the power of two at or below. -/
theorem exponentOf_bounds {q : ℚ≥0} (h : q ≠ 0) :
    (2 : ℚ≥0) ^ exponentOf q ≤ q ∧ q < 2 ^ (exponentOf q + 1) := by
  have hnum : q.num ≠ 0 := NNRat.num_ne_zero.mpr h
  have hden : (0 : ℚ≥0) < q.den := by exact_mod_cast q.den_pos
  have hlow : (2 : ℚ≥0) ^ Nat.log2 q.num ≤ q.num := by exact_mod_cast Nat.log2_self_le hnum
  have hhigh : (q.num : ℚ≥0) < 2 ^ (Nat.log2 q.num + 1) := by exact_mod_cast Nat.lt_log2_self
  have hlow' : (2 : ℚ≥0) ^ Nat.log2 q.den ≤ q.den := by exact_mod_cast Nat.log2_self_le q.den_ne_zero
  have hhigh' : (q.den : ℚ≥0) < 2 ^ (Nat.log2 q.den + 1) := by exact_mod_cast Nat.lt_log2_self
  have hq : q * q.den = q.num := NNRat.mul_den_eq_num q
  have habove : q < 2 ^ ((Nat.log2 q.num : ℤ) - Nat.log2 q.den + 1) := by
    rw [← mul_lt_mul_iff_left₀ hden, hq]
    refine hhigh.trans_le ?_
    refine le_trans ?_ (mul_le_mul_of_nonneg_left hlow' (by positivity))
    rw [← zpow_natCast, ← zpow_natCast, ← zpow_add₀ two_ne_zero]
    refine le_of_eq (congrArg _ ?_)
    push_cast
    ring
  have hbelow : (2 : ℚ≥0) ^ ((Nat.log2 q.num : ℤ) - Nat.log2 q.den - 1) ≤ q := by
    rw [← mul_le_mul_iff_left₀ hden, hq]
    refine le_trans (mul_le_mul_of_nonneg_left hhigh'.le (by positivity)) (le_trans ?_ hlow)
    rw [← zpow_natCast, ← zpow_natCast, ← zpow_add₀ two_ne_zero]
    refine le_of_eq (congrArg _ ?_)
    push_cast
    ring
  unfold exponentOf
  dsimp only
  rw [scaled_eq, one_mul, Nat.cast_ofNat]
  split_ifs with hestimate
  · exact ⟨hestimate, habove⟩
  · refine ⟨hbelow, ?_⟩
    rw [sub_add_cancel]
    exact not_le.mp hestimate

theorem exponentOf_mono {p q : ℚ≥0} (hp : p ≠ 0) (h : p ≤ q) : exponentOf p ≤ exponentOf q := by
  have hq : q ≠ 0 := (pos_of_ne_zero hp |>.trans_le h).ne'
  have hlt : (2 : ℚ≥0) ^ exponentOf p < 2 ^ (exponentOf q + 1) :=
    (exponentOf_bounds hp).1.trans_lt (h.trans_lt (exponentOf_bounds hq).2)
  exact Int.lt_add_one_iff.mp ((zpow_lt_zpow_iff_right₀ one_lt_two).mp hlt)

/-! ## To 53 bits -/

/-- The exponent of the last place that is kept. -/
def lastPlaceOf (q : ℚ≥0) : ℤ := max (exponentOf q) (-1022) - 52

/-- The nearest magnitude of 53 bits, with no bound on its exponent above. -/
def nearest (q : ℚ≥0) : ℚ≥0 :=
  roundHalfEven (q * ((2 : ℕ) : ℚ≥0) ^ (-lastPlaceOf q)) * ((2 : ℕ) : ℚ≥0) ^ lastPlaceOf q

theorem nearest_eq (q : ℚ≥0) :
    nearest q = roundHalfEven (q * 2 ^ (-lastPlaceOf q)) * 2 ^ lastPlaceOf q := by
  unfold nearest
  rw [Nat.cast_ofNat]

theorem nearest_zero : nearest 0 = 0 := by
  simp only [nearest_eq]
  rw [zero_mul, ← Nat.cast_zero, roundHalfEven_natCast, Nat.cast_zero, zero_mul]

theorem roundMagnitude_eq (negative : Bool) (q : ℚ≥0) :
    roundMagnitude negative q =
      if 2 ^ 1024 ≤ nearest q then .inf negative else .finite negative (nearest q) := by
  unfold roundMagnitude
  by_cases hq : q = 0
  · rw [if_pos hq, hq, nearest_zero, if_neg (not_le.mpr (by positivity))]
  · rw [if_neg hq]
    dsimp only
    rw [scaled_eq, scaled_eq, scaled_eq, one_mul]
    rfl

theorem lastPlaceOf_mono {p q : ℚ≥0} (hp : p ≠ 0) (h : p ≤ q) : lastPlaceOf p ≤ lastPlaceOf q :=
  Int.sub_le_sub_right (max_le_max (exponentOf_mono hp h) (le_refl _)) 52

theorem lt_lastPlace {q : ℚ≥0} (hq : q ≠ 0) : q < 2 ^ (lastPlaceOf q + 53) := by
  refine (exponentOf_bounds hq).2.trans_le (zpow_le_zpow_right₀ one_le_two ?_)
  unfold lastPlaceOf
  omega

/-- What has 53 bits stays. -/
theorem nearest_of_bits {m : ℕ} {e : ℤ} (hm : m < 2 ^ 53) (he : -1074 ≤ e) :
    nearest (m * 2 ^ e) = m * 2 ^ e := by
  by_cases hzero : m = 0
  · rw [hzero, Nat.cast_zero, zero_mul, nearest_zero]
  have hq : (m * 2 ^ e : ℚ≥0) ≠ 0 :=
    mul_ne_zero (Nat.cast_ne_zero.mpr hzero) (zpow_ne_zero e two_ne_zero)
  have hlast : lastPlaceOf (m * 2 ^ e) ≤ e := by
    have hbelow : (2 : ℚ≥0) ^ exponentOf (m * 2 ^ e) < 2 ^ (e + 53) := by
      refine (exponentOf_bounds hq).1.trans_lt ?_
      have hcast : (m : ℚ≥0) < 2 ^ (53 : ℤ) := by exact_mod_cast hm
      rw [add_comm e, zpow_add₀ two_ne_zero]
      exact mul_lt_mul_of_pos_right hcast (zpow_pos two_pos e)
    have hexponent := (zpow_lt_zpow_iff_right₀ (one_lt_two (α := ℚ≥0))).mp hbelow
    unfold lastPlaceOf
    omega
  obtain ⟨shift, hshift⟩ := Int.eq_ofNat_of_zero_le (Int.sub_nonneg.mpr hlast)
  have hinteger : (m * 2 ^ e * 2 ^ (-lastPlaceOf (m * 2 ^ e)) : ℚ≥0) = (m * 2 ^ shift : ℕ) := by
    rw [mul_assoc, ← zpow_add₀ two_ne_zero, ← sub_eq_add_neg, hshift]
    push_cast
    rw [zpow_natCast]
  have hround := roundHalfEven_natCast (m * 2 ^ shift)
  rw [← hinteger] at hround
  simp only [nearest_eq]
  rw [hround, ← hinteger, mul_assoc, ← zpow_add₀ two_ne_zero, neg_add_cancel, zpow_zero, mul_one]

/-- A power of two above the magnitude is above its rounding, and one below is below. -/
theorem nearest_le_pow {q : ℚ≥0} {e : ℤ} (hlast : lastPlaceOf q ≤ e) (h : q ≤ 2 ^ e) :
    nearest q ≤ 2 ^ e := by
  obtain ⟨shift, hshift⟩ := Int.eq_ofNat_of_zero_le (Int.sub_nonneg.mpr hlast)
  have hpow : (2 : ℚ≥0) ^ e = (2 ^ shift : ℕ) * 2 ^ lastPlaceOf q := by
    push_cast
    rw [← zpow_natCast, ← zpow_add₀ two_ne_zero]
    exact congrArg _ (by omega)
  have hbound : roundHalfEven (q * 2 ^ (-lastPlaceOf q)) ≤ 2 ^ shift := by
    refine roundHalfEven_le ?_
    rw [zpow_neg, ← div_eq_mul_inv, div_le_iff₀ (zpow_pos two_pos _), ← hpow]
    exact h
  simp only [nearest_eq]
  rw [hpow]
  exact mul_le_mul_of_nonneg_right (by exact_mod_cast hbound) (zpow_pos two_pos _).le

theorem pow_le_nearest {q : ℚ≥0} {e : ℤ} (hlast : lastPlaceOf q ≤ e) (h : 2 ^ e ≤ q) :
    2 ^ e ≤ nearest q := by
  obtain ⟨shift, hshift⟩ := Int.eq_ofNat_of_zero_le (Int.sub_nonneg.mpr hlast)
  have hpow : (2 : ℚ≥0) ^ e = (2 ^ shift : ℕ) * 2 ^ lastPlaceOf q := by
    push_cast
    rw [← zpow_natCast, ← zpow_add₀ two_ne_zero]
    exact congrArg _ (by omega)
  have hbound : 2 ^ shift ≤ roundHalfEven (q * 2 ^ (-lastPlaceOf q)) := by
    refine le_roundHalfEven ?_
    rw [zpow_neg, ← div_eq_mul_inv, le_div_iff₀ (zpow_pos two_pos _), ← hpow]
    exact h
  simp only [nearest_eq]
  rw [hpow]
  exact mul_le_mul_of_nonneg_right (by exact_mod_cast hbound) (zpow_pos two_pos _).le

theorem nearest_mono {p q : ℚ≥0} (h : p ≤ q) : nearest p ≤ nearest q := by
  by_cases hp : p = 0
  · rw [hp, nearest_zero]
    exact zero_le
  have hq : q ≠ 0 := ((pos_of_ne_zero hp).trans_le h).ne'
  rcases (lastPlaceOf_mono hp h).lt_or_eq with hlast | hlast
  · -- a power of two lies between
    have hnormal : lastPlaceOf q = exponentOf q - 52 := by
      unfold lastPlaceOf at hlast ⊢
      omega
    have hmiddle : nearest p ≤ 2 ^ exponentOf q := by
      refine nearest_le_pow (by omega) ((lt_lastPlace hp).le.trans ?_)
      exact zpow_le_zpow_right₀ one_le_two (by omega)
    exact hmiddle.trans (pow_le_nearest (by omega) (exponentOf_bounds hq).1)
  · simp only [nearest_eq]
    rw [hlast]
    refine mul_le_mul_of_nonneg_right ?_ (zpow_pos two_pos _).le
    have hinner : p * 2 ^ (-lastPlaceOf q) ≤ q * 2 ^ (-lastPlaceOf q) :=
      mul_le_mul_of_nonneg_right h (zpow_pos two_pos _).le
    exact_mod_cast roundHalfEven_mono hinner

/-- Rounding moves a magnitude by at most half a unit in the last place. -/
theorem nearest_near (q : ℚ≥0) : |(nearest q : ℚ) - q| ≤ 2 ^ lastPlaceOf q / 2 := by
  have hplace : (0 : ℚ) < 2 ^ lastPlaceOf q := zpow_pos two_pos _
  have hnear := roundHalfEven_near (q * 2 ^ (-lastPlaceOf q))
  have hsplit : (nearest q : ℚ) - q =
      ((roundHalfEven (q * 2 ^ (-lastPlaceOf q)) : ℚ) - (q * 2 ^ (-lastPlaceOf q) : ℚ≥0)) *
        2 ^ lastPlaceOf q := by
    simp only [nearest_eq]
    push_cast
    rw [sub_mul, mul_assoc (q : ℚ), ← zpow_add₀ two_ne_zero, neg_add_cancel, zpow_zero, mul_one]
  rw [hsplit, abs_mul, abs_of_pos hplace]
  calc _ ≤ 1 / 2 * (2 : ℚ) ^ lastPlaceOf q := mul_le_mul_of_nonneg_right hnear hplace.le
    _ = 2 ^ lastPlaceOf q / 2 := by ring

/-- A rounding has 53 bits. -/
theorem nearest_bits (q : ℚ≥0) : ∃ (m : ℕ) (e : ℤ), m < 2 ^ 53 ∧ -1074 ≤ e ∧ nearest q = m * 2 ^ e := by
  have hlast : -1074 ≤ lastPlaceOf q := by
    unfold lastPlaceOf
    omega
  by_cases hq : q = 0
  · exact ⟨0, 0, by norm_num, by norm_num, by rw [hq, nearest_zero, Nat.cast_zero, zero_mul]⟩
  have hinner : q * 2 ^ (-lastPlaceOf q) ≤ (2 ^ 53 : ℕ) := by
    rw [zpow_neg, ← div_eq_mul_inv, div_le_iff₀ (zpow_pos two_pos _)]
    refine (lt_lastPlace hq).le.trans_eq ?_
    rw [zpow_add₀ two_ne_zero, mul_comm]
    norm_num
  rcases (roundHalfEven_le hinner).lt_or_eq with hlt | heq
  · exact ⟨_, _, hlt, hlast, rfl⟩
  · refine ⟨1, lastPlaceOf q + 53, by norm_num, by omega, ?_⟩
    simp only [nearest_eq]
    rw [heq, zpow_add₀ two_ne_zero, Nat.cast_one, one_mul, mul_comm]
    norm_num

/-- Doubling a rounding needs no rounding. -/
theorem nearest_nearest_scale (q : ℚ≥0) (shift : ℕ) :
    nearest (nearest q * 2 ^ shift) = nearest q * 2 ^ shift := by
  obtain ⟨m, e, hm, he, hbits⟩ := nearest_bits q
  have hpow : nearest q * 2 ^ shift = m * 2 ^ (e + shift) := by
    rw [hbits, zpow_add₀ two_ne_zero, zpow_natCast, mul_assoc]
  rw [hpow]
  exact nearest_of_bits hm (by omega)

theorem exponentOf_eq {q : ℚ≥0} {e : ℤ} (hlow : 2 ^ e ≤ q) (hhigh : q < 2 ^ (e + 1)) :
    exponentOf q = e := by
  have hq : q ≠ 0 := ((zpow_pos two_pos e).trans_le hlow).ne'
  have hbelow := (exponentOf_bounds hq).1.trans_lt hhigh
  have habove := hlow.trans_lt (exponentOf_bounds hq).2
  rw [zpow_lt_zpow_iff_right₀ one_lt_two] at hbelow habove
  omega

/-- A normal magnitude is moved by its 2⁻⁵³th part at most. -/
theorem nearest_relative {q : ℚ≥0} (h : -1022 ≤ exponentOf q) (hq : q ≠ 0) :
    |(nearest q : ℚ) - q| ≤ q / 2 ^ 53 := by
  have hlast : lastPlaceOf q = exponentOf q - 52 := by
    unfold lastPlaceOf
    omega
  have hlow : (2 : ℚ) ^ exponentOf q ≤ q := by exact_mod_cast (exponentOf_bounds hq).1
  refine (nearest_near q).trans ?_
  rw [hlast, zpow_sub₀ two_ne_zero, div_div]
  calc (2 : ℚ) ^ exponentOf q / (2 ^ (52 : ℤ) * 2) = 2 ^ exponentOf q / 2 ^ 53 := by norm_num
    _ ≤ q / 2 ^ 53 := div_le_div_of_nonneg_right hlow (by positivity)

/-- Doubling a normal magnitude doubles its rounding. -/
theorem nearest_scale {q : ℚ≥0} (h : -1022 ≤ exponentOf q) (hq : q ≠ 0) (shift : ℕ) :
    nearest (q * 2 ^ shift) = nearest q * 2 ^ shift := by
  have hbounds := exponentOf_bounds hq
  have hpow : (0 : ℚ≥0) < 2 ^ (shift : ℤ) := zpow_pos two_pos _
  have hexponent : exponentOf (q * 2 ^ shift) = exponentOf q + shift := by
    rw [← zpow_natCast]
    refine exponentOf_eq ?_ ?_
    · rw [zpow_add₀ two_ne_zero]
      exact mul_le_mul_of_nonneg_right hbounds.1 hpow.le
    · rw [add_right_comm, zpow_add₀ two_ne_zero (exponentOf q + 1)]
      exact mul_lt_mul_of_pos_right hbounds.2 hpow
  have hlast : lastPlaceOf (q * 2 ^ shift) = lastPlaceOf q + shift := by
    unfold lastPlaceOf
    omega
  have hinner : q * 2 ^ shift * 2 ^ (-(lastPlaceOf q + shift)) = q * 2 ^ (-lastPlaceOf q) := by
    rw [← zpow_natCast, mul_assoc, ← zpow_add₀ two_ne_zero]
    exact congrArg _ (congrArg _ (by ring))
  simp only [nearest_eq]
  rw [hlast, hinner, zpow_add₀ two_ne_zero, zpow_natCast, mul_assoc]

/-! ## Rounded doubles -/

theorem roundMagnitude_ne_nan (negative : Bool) (q : ℚ≥0) : roundMagnitude negative q ≠ .nan := by
  rw [roundMagnitude_eq]
  split_ifs <;> exact fun h => by cases h

/-- Below the largest binary64 value a magnitude stays finite. -/
theorem roundMagnitude_of_lt {q : ℚ≥0} (negative : Bool) (h : nearest q < 2 ^ 1024) :
    roundMagnitude negative q = .finite negative (nearest q) := by
  rw [roundMagnitude_eq, if_neg (not_le.mpr h)]

theorem nearest_two_pow {e : ℤ} (he : -1074 ≤ e) : nearest (2 ^ e) = 2 ^ e := by
  have hbits := nearest_of_bits (by norm_num : 1 < 2 ^ 53) he
  rwa [Nat.cast_one, one_mul] at hbits

theorem normal_of_one_le {q : ℚ≥0} (h : 1 ≤ q) : -1022 ≤ exponentOf q := by
  have hmono := exponentOf_mono one_ne_zero h
  have hone : exponentOf 1 = 0 := exponentOf_eq (by norm_num) (by norm_num)
  omega

/-- No magnitude that occurs as a count comes near the largest binary64 value. -/
theorem roundMagnitude_of_le {q : ℚ≥0} (negative : Bool) (h : q ≤ 2 ^ 70) :
    roundMagnitude negative q = .finite negative (nearest q) := by
  have hbits : nearest (2 ^ 70) = 2 ^ 70 := by
    have hpow := nearest_two_pow (by norm_num : (-1074 : ℤ) ≤ 70)
    exact_mod_cast hpow
  refine roundMagnitude_of_lt negative (((nearest_mono h).trans_eq hbits).trans_lt ?_)
  exact pow_lt_pow_right₀ (by norm_num) (by norm_num)

theorem divRounded_ne_nan {a b : Double} (ha : a ≠ .nan) (hb : b.isFinite = true)
    (hzero : b.value ≠ 0) : divRounded a b ≠ .nan := by
  cases b with
  | finite t y =>
    have hy : y ≠ 0 := by
      rintro rfl
      cases t <;> exact hzero (by simp [value])
    cases a with
    | nan => exact absurd rfl ha
    | inf s => exact fun h => by cases h
    | finite s x =>
      have hdiv : divRounded (.finite s x) (.finite t y) = roundMagnitude (s != t) (x / y) :=
        if_neg hy
      rw [hdiv]
      exact roundMagnitude_ne_nan _ _
  | _ => cases hb

end Double
end Cxx
