import Mtop.Platform.RootMetricsParser
import Mtop.Library.DoubleRead
import Mtop.Model.ProcessSort
import Mathlib.Tactic.IntervalCases

/-! The IO column between its two ends: the text that the parser makes of a total, and the score that
the sort reads off that text. -/
namespace Mtop
open Cxx
set_option autoImplicit false

/-! ## The text of a total -/

section Total
variable (v : ℚ≥0)

/-- How often a total is divided by 1024. -/
def ioUnit : ℕ := (scaleUnits 4 0 (.finite false v)).1

def ioScaled : ℚ≥0 := v / (1024 ^ ioUnit v : ℕ)

def ioPlaces : ℕ := if ioUnit v = 0 ∨ ((10 : ℕ) : ℚ≥0) ≤ ioScaled v then 0 else 1

/-- The digits that are shown. -/
def ioCount : ℕ := Double.roundHalfEven (ioScaled v * (10 ^ ioPlaces v : ℕ))

/-- The number that is shown, in bytes. -/
def shownBytes : ℚ≥0 := ioCount v / (10 ^ ioPlaces v : ℕ) * (1024 ^ ioUnit v : ℕ)

theorem ioScaled_eq : ioScaled v = v / 1024 ^ ioUnit v := by
  simp [ioScaled]

theorem ioPlaces_eq : ioPlaces v = if ioUnit v = 0 ∨ 10 ≤ ioScaled v then 0 else 1 := by
  simp [ioPlaces]

theorem ioCount_eq : ioCount v = Double.roundHalfEven (ioScaled v * 10 ^ ioPlaces v) := by
  simp [ioCount]

theorem shownBytes_eq : shownBytes v = ioCount v / 10 ^ ioPlaces v * 1024 ^ ioUnit v := by
  simp [shownBytes]

end Total

theorem le_finite (a b : ℚ≥0) :
    Double.le (.finite false a) (.finite false b) = decide (a ≤ b) := by
  have hvalue : Double.lt (.finite false b) (.finite false a) = decide (b < a) := by
    rw [Double.lt_eq_value rfl rfl]
    refine decide_eq_decide.mpr ?_
    show (b : ℚ) < a ↔ b < a
    exact NNRat.coe_lt_coe
  rw [Double.le_eq_not_lt rfl rfl, hvalue, ← decide_not, decide_eq_decide, not_lt]

theorem scaleUnits_finite (left unit : ℕ) (x : ℚ≥0) :
    ∃ k ≤ left, scaleUnits left unit (.finite false x) = (unit + k, .finite false (x / 1024 ^ k)) ∧
      (k < left → x / 1024 ^ k < 1024) ∧ (0 < k → 1 ≤ x / 1024 ^ k) := by
  induction left generalizing unit x with
  | zero => exact ⟨0, le_refl 0, by rw [pow_zero, div_one]; rfl, fun h => absurd h (by decide),
      fun h => absurd h (by decide)⟩
  | succ left ih =>
    have hle : Double.le 1024 (fabs (.finite false x)) = decide (1024 ≤ x) := le_finite 1024 x
    unfold scaleUnits
    rw [hle]
    by_cases hx : 1024 ≤ x
    · obtain ⟨k, hk, hscaled, hbelow, habove⟩ := ih (unit + 1) (x / 1024)
      have hpow : x / 1024 / 1024 ^ k = x / 1024 ^ (k + 1) := by
        rw [div_div, pow_succ']
      rw [hpow] at hscaled hbelow habove
      refine ⟨k + 1, Nat.succ_le_succ hk, ?_, fun h => hbelow (Nat.lt_of_succ_lt_succ h), fun _ => ?_⟩
      · rw [if_pos (decide_eq_true hx)]
        refine hscaled.trans ?_
        rw [Nat.add_right_comm, Nat.add_assoc]
      · cases k with
        | zero =>
          rw [pow_one, le_div_iff₀ (by norm_num), one_mul]
          exact hx
        | succ k => exact habove (Nat.succ_pos k)
    · refine ⟨0, Nat.zero_le _, ?_, fun _ => ?_, fun h => absurd h (by decide)⟩
      · rw [if_neg (by rw [decide_eq_true_eq]; exact hx), pow_zero, div_one]
        rfl
      · rw [pow_zero, div_one]
        exact not_le.mp hx

/-- The unit is the largest one that leaves at least 1. -/
theorem ioUnit_spec (v : ℚ≥0) :
    scaleUnits 4 0 (.finite false v) = (ioUnit v, .finite false (ioScaled v)) ∧ ioUnit v ≤ 4 ∧
      (ioUnit v < 4 → ioScaled v < 1024) ∧ (0 < ioUnit v → 1 ≤ ioScaled v) := by
  obtain ⟨k, hk, hscaled, hbelow, habove⟩ := scaleUnits_finite 4 0 v
  rw [Nat.zero_add] at hscaled
  have hunit : ioUnit v = k := congrArg Prod.fst hscaled
  simp only [ioScaled_eq]
  rw [hunit]
  exact ⟨hscaled, hk, hbelow, habove⟩

theorem scaled_mul (v : ℚ≥0) : ioScaled v * 1024 ^ ioUnit v = v := by
  rw [ioScaled_eq]
  exact div_mul_cancel₀ v (by positivity)

theorem ioUnit_mono {v w : ℚ≥0} (h : v ≤ w) : ioUnit v ≤ ioUnit w := by
  by_contra hlt
  have hv := ioUnit_spec v
  have hw := ioUnit_spec w
  have hsmall := hw.2.2.1 (by omega)
  have hlarge := hv.2.2.2 (by omega)
  have hnext : (1024 : ℚ≥0) ^ (ioUnit w + 1) ≤ v := by
    calc (1024 : ℚ≥0) ^ (ioUnit w + 1) ≤ 1024 ^ ioUnit v :=
          pow_le_pow_right₀ (by norm_num) (by omega)
      _ ≤ ioScaled v * 1024 ^ ioUnit v := le_mul_of_one_le_left (by positivity) hlarge
      _ = v := scaled_mul v
  have hbelow : w < 1024 ^ (ioUnit w + 1) := by
    calc w = ioScaled w * 1024 ^ ioUnit w := (scaled_mul w).symm
      _ < 1024 * 1024 ^ ioUnit w := mul_lt_mul_of_pos_right hsmall (by positivity)
      _ = 1024 ^ (ioUnit w + 1) := (pow_succ' _ _).symm
  exact absurd (hnext.trans h) (not_le.mpr hbelow)

/-! ## The number that is shown -/

/-- From 10 on, rounding moves a number by its 21st part at most. -/
theorem roundHalfEven_relative {y : ℚ≥0} (h : 10 ≤ y) :
    |(Double.roundHalfEven y : ℚ) - y| ≤ y / 21 := by
  have hy : (10 : ℚ) ≤ y := by exact_mod_cast h
  by_cases hsmall : y < 10 + 1 / 2
  · have hfloor : ⌊y⌋₊ = 10 := by
      rw [Nat.floor_eq_iff (zero_le)]
      exact ⟨by exact_mod_cast h, hsmall.trans (by norm_num)⟩
    have hround : Double.roundHalfEven y = 10 := by
      rw [Double.roundHalfEven_of_lt (by rw [hfloor]; exact_mod_cast hsmall), hfloor]
    have hsmall' : (y : ℚ) < 10 + 1 / 2 := by exact_mod_cast hsmall
    rw [hround, abs_le]
    constructor <;> push_cast <;> linarith
  · have hlarge : (10 + 1 / 2 : ℚ) ≤ y := by exact_mod_cast not_lt.mp hsmall
    refine (Double.roundHalfEven_near y).trans ?_
    linarith

section Total
variable {v w : ℚ≥0}

theorem ioUnit_eq_zero (h : v < 1024) : ioUnit v = 0 := by
  by_contra hunit
  have hlarge := (ioUnit_spec v).2.2.2 (Nat.pos_of_ne_zero hunit)
  have hpow : (1024 : ℚ≥0) ≤ 1024 ^ ioUnit v := le_self_pow₀ (by norm_num) hunit
  have hle : (1024 : ℚ≥0) ≤ v := by
    calc (1024 : ℚ≥0) ≤ 1024 ^ ioUnit v := hpow
      _ ≤ ioScaled v * 1024 ^ ioUnit v := le_mul_of_one_le_left (by positivity) hlarge
      _ = v := scaled_mul v
  exact absurd hle (not_le.mpr h)

theorem ioUnit_pos (h : 1024 ≤ v) : 0 < ioUnit v := by
  by_contra hunit
  have hzero : ioUnit v = 0 := Nat.eq_zero_of_not_pos hunit
  have hsmall := (ioUnit_spec v).2.2.1 (by omega)
  have hscaled : ioScaled v = v := by
    have := scaled_mul v
    rwa [hzero, pow_zero, mul_one] at this
  rw [hscaled] at hsmall
  exact absurd h (not_le.mpr hsmall)

/-- Wherever a unit is used, two digits at least are shown. -/
theorem ten_le_scaled (h : 0 < ioUnit v) : 10 ≤ ioScaled v * 10 ^ ioPlaces v := by
  simp only [ioPlaces_eq]
  split_ifs with hplaces
  · rw [pow_zero, mul_one]
    exact hplaces.resolve_left h.ne'
  · have hone := (ioUnit_spec v).2.2.2 h
    rw [pow_one]
    exact le_mul_of_one_le_left (by norm_num) hone

theorem shown_le (h : ioUnit v < 4) : (ioCount v : ℚ≥0) / 10 ^ ioPlaces v ≤ 1024 := by
  have hsmall := (ioUnit_spec v).2.2.1 h
  have hcount : ioCount v ≤ 1024 * 10 ^ ioPlaces v := by
    refine Double.roundHalfEven_le ?_
    push_cast
    exact mul_le_mul_of_nonneg_right hsmall.le (by positivity)
  rw [div_le_iff₀ (by positivity)]
  exact_mod_cast hcount

theorem one_le_shown (h : 0 < ioUnit v) : 1 ≤ (ioCount v : ℚ≥0) / 10 ^ ioPlaces v := by
  have hone := (ioUnit_spec v).2.2.2 h
  have hcount : 10 ^ ioPlaces v ≤ ioCount v := by
    refine Double.le_roundHalfEven ?_
    push_cast
    exact le_mul_of_one_le_left (by positivity) hone
  rw [le_div_iff₀ (by positivity), one_mul]
  exact_mod_cast hcount

theorem ioPlaces_cases (v : ℚ≥0) :
    (ioPlaces v = 0 ∧ (ioUnit v = 0 ∨ 10 ≤ ioScaled v)) ∨
      (ioPlaces v = 1 ∧ ioUnit v ≠ 0 ∧ ioScaled v < 10) := by
  simp only [ioPlaces_eq]
  split_ifs with h
  · exact .inl ⟨rfl, h⟩
  · exact .inr ⟨rfl, fun hunit => h (.inl hunit), not_le.mp fun hle => h (.inr hle)⟩

/-- A larger total never shows a smaller number of bytes. -/
theorem shownBytes_mono (h : v ≤ w) : shownBytes v ≤ shownBytes w := by
  simp only [shownBytes_eq]
  rcases (ioUnit_mono h).lt_or_eq with hunit | hunit
  · have hlast := (ioUnit_spec w).2.1
    calc (ioCount v : ℚ≥0) / 10 ^ ioPlaces v * 1024 ^ ioUnit v ≤ 1024 * 1024 ^ ioUnit v :=
          mul_le_mul_of_nonneg_right (shown_le (by omega)) (by positivity)
      _ = 1024 ^ (ioUnit v + 1) := (pow_succ' _ _).symm
      _ ≤ 1024 ^ ioUnit w := pow_le_pow_right₀ (by norm_num) hunit
      _ ≤ (ioCount w : ℚ≥0) / 10 ^ ioPlaces w * 1024 ^ ioUnit w :=
          le_mul_of_one_le_left (by positivity) (one_le_shown (by omega))
  · have hscaled : ioScaled v ≤ ioScaled w := by
      simp only [ioScaled_eq]
      rw [hunit]
      exact div_le_div_of_nonneg_right h (by positivity)
    rw [hunit]
    refine mul_le_mul_of_nonneg_right ?_ (by positivity)
    have hsame : ioPlaces v = ioPlaces w →
        (ioCount v : ℚ≥0) / 10 ^ ioPlaces v ≤ ioCount w / 10 ^ ioPlaces w := by
      intro hplaces
      have hcount : ioCount v ≤ ioCount w := by
        refine Double.roundHalfEven_mono ?_
        rw [hplaces]
        exact mul_le_mul_of_nonneg_right hscaled (by positivity)
      rw [hplaces]
      exact div_le_div_of_nonneg_right (by exact_mod_cast hcount) (by positivity)
    rcases ioPlaces_cases v with ⟨hv, hv'⟩ | ⟨hv, hunit', hv'⟩ <;>
      rcases ioPlaces_cases w with ⟨hw, hw'⟩ | ⟨hw, hunit'', hw'⟩
    · exact hsame (hv.trans hw.symm)
    · have hlarge := hv'.resolve_left (hunit ▸ hunit'')
      exact absurd (hlarge.trans hscaled) (not_le.mpr hw')
    · -- one decimal below 10, none from there on
      have hlarge := hw'.resolve_left (hunit ▸ hunit')
      have hcount : ioCount v ≤ 100 := by
        rw [ioCount_eq, hv, pow_one]
        refine Double.roundHalfEven_le ?_
        calc ioScaled v * 10 ≤ 10 * 10 := mul_le_mul_of_nonneg_right hv'.le (by norm_num)
          _ = (100 : ℕ) := by norm_num
      have hcount' : 10 ≤ ioCount w := by
        rw [ioCount_eq, hw, pow_zero, mul_one]
        refine Double.le_roundHalfEven ?_
        exact_mod_cast hlarge
      rw [hv, hw, pow_one, pow_zero, div_one, div_le_iff₀ (by norm_num)]
      exact_mod_cast (by omega : ioCount v ≤ ioCount w * 10)
    · exact hsame (hv.trans hw.symm)

theorem shownBytes_near_small (h : v < 1024) :
    shownBytes v = Double.roundHalfEven v ∧ |(shownBytes v : ℚ) - v| ≤ 1 / 2 := by
  have hunit := ioUnit_eq_zero h
  have hplaces : ioPlaces v = 0 := if_pos (.inl hunit)
  have hscaled : ioScaled v = v := by
    simp only [ioScaled_eq]
    rw [hunit, pow_zero, div_one]
  have hshown : shownBytes v = Double.roundHalfEven v := by
    simp only [shownBytes_eq, ioCount_eq]
    rw [hplaces, hunit, hscaled, pow_zero, div_one, pow_zero, mul_one, mul_one]
  rw [hshown]
  exact ⟨rfl, Double.roundHalfEven_near v⟩

theorem shownBytes_near_large (h : 1024 ≤ v) : |(shownBytes v : ℚ) - v| ≤ v / 21 := by
  have hpos := ioUnit_pos h
  have hnear := roundHalfEven_relative (ten_le_scaled hpos)
  have hpow : (0 : ℚ) < 1024 ^ ioUnit v / 10 ^ ioPlaces v := by positivity
  have hv : (v : ℚ) = (ioScaled v * 10 ^ ioPlaces v : ℚ≥0) * (1024 ^ ioUnit v / 10 ^ ioPlaces v) := by
    have hmul := congrArg (fun q : ℚ≥0 => (q : ℚ)) (scaled_mul v)
    push_cast at hmul ⊢
    rw [← hmul]
    field_simp
  have hshown : (shownBytes v : ℚ) = ioCount v * (1024 ^ ioUnit v / 10 ^ ioPlaces v) := by
    simp only [shownBytes_eq]
    push_cast
    ring
  have hcount : |(ioCount v : ℚ) - (ioScaled v * 10 ^ ioPlaces v : ℚ≥0)| ≤
      (ioScaled v * 10 ^ ioPlaces v : ℚ≥0) / 21 := by
    rw [ioCount_eq]
    exact hnear
  rw [hshown, hv, ← sub_mul, abs_mul, abs_of_pos hpow]
  calc _ ≤ ((ioScaled v * 10 ^ ioPlaces v : ℚ≥0) : ℚ) / 21 * (1024 ^ ioUnit v / 10 ^ ioPlaces v) :=
        mul_le_mul_of_nonneg_right hcount hpow.le
    _ = _ := by ring

theorem shownBytes_lt (h : v < 2 ^ 64) : shownBytes v < 2 ^ 65 := by
  have hv : (v : ℚ) < 2 ^ 64 := by exact_mod_cast h
  have hlimit : (2 : ℚ) ^ 65 = 2 * 2 ^ 64 ∧ (2000 : ℚ) < 2 * 2 ^ 64 := by norm_num
  have hrat : (shownBytes v : ℚ) < 2 ^ 65 := by
    rw [hlimit.1]
    by_cases hsmall : v < 1024
    · have hnear := (abs_le.mp (shownBytes_near_small hsmall).2).2
      have hsmall' : (v : ℚ) < 1024 := by exact_mod_cast hsmall
      linarith [hlimit.2]
    · have hnear := (abs_le.mp (shownBytes_near_large (not_lt.mp hsmall))).2
      linarith
  exact_mod_cast hrat

end Total

/-! ## Writing and reading -/

/-- The number at the start of a text as it is written, and what follows it. -/
def exactDecimal (text : Text) : ℚ≥0 × Text :=
  let (digits, places, rest) := scanMantissa Char.isDigit text
  (digitsValue 10 digits / (10 ^ places : ℕ), rest)

/-- `parse_scaled_number` without any rounding. -/
def exactScaled (text : Text) : ℚ :=
  (exactDecimal text).1 *
    (match (exactDecimal text).2 with
      | suffix :: _ => (scaleOf suffix).value
      | [] => 1)

/-- `io_score` of two totals without any rounding. -/
def exactIoScore (text : Text) : ℚ :=
  exactScaled (text.takeWhile (· ≠ '/')) + exactScaled ((text.dropWhile (· ≠ '/')).drop 1)

def unitName (unit : ℕ) : Char := unitNames.getD unit 'T'

theorem unitName_spec {unit : ℕ} (h : unit ≤ 4) :
    scaleOf (unitName unit) = Double.ofNat (1024 ^ unit) ∧ EndsNumber [unitName unit] ∧
      unitName unit ≠ '/' := by
  have hends : ∀ c : Char, c.isDigit = false ∧ c ≠ '.' ∧ c.toLower ≠ 'e' ∧ c.toLower ≠ 'x' →
      EndsNumber [c] := by
    intro c hc d hd
    obtain rfl : c = d := Option.some.inj hd
    exact hc
  interval_cases unit
  · exact ⟨rfl, hends 'B' (by decide), by decide⟩
  · exact ⟨rfl, hends 'K' (by decide), by decide⟩
  · exact ⟨rfl, hends 'M' (by decide), by decide⟩
  · exact ⟨rfl, hends 'G' (by decide), by decide⟩
  · exact ⟨rfl, hends 'T' (by decide), by decide⟩

section Total
variable {v : ℚ≥0}

theorem ioScaled_le (h : v < 2 ^ 64) : ioScaled v ≤ 2 ^ 24 := by
  obtain ⟨-, hlast, hsmall, -⟩ := ioUnit_spec v
  rcases hlast.lt_or_eq with hunit | hunit
  · exact (hsmall hunit).le.trans (by norm_num)
  · simp only [ioScaled_eq]
    rw [hunit, div_le_iff₀ (by positivity)]
    exact h.le.trans (by norm_num)

/-- The text of a total: the digits that are shown, and the unit. -/
theorem compactIoBytes_eq (h : v < 2 ^ 64) :
    compactIoBytes (.finite false v) =
      decimalText (ioPlaces v) (ioCount v) ++ [unitName (ioUnit v)] := by
  have hplaces : (if ioUnit v = 0 || Double.le 10 (fabs (.finite false (ioScaled v))) then 0 else 1) =
      ioPlaces v := by
    have hle : Double.le 10 (fabs (.finite false (ioScaled v))) = decide (10 ≤ ioScaled v) :=
      le_finite 10 (ioScaled v)
    simp only [ioPlaces_eq]
    rw [hle, ← Bool.decide_or]
    simp only [decide_eq_true_eq]
  have hwhole : ioCount v / 10 ^ ioPlaces v < 10 ^ 8 := by
    have hcount : ioCount v ≤ 2 ^ 24 * 10 ^ ioPlaces v := by
      refine Double.roundHalfEven_le ?_
      push_cast
      exact mul_le_mul_of_nonneg_right (ioScaled_le h) (by positivity)
    have hdiv := Nat.div_le_of_le_mul (Nat.mul_comm (2 ^ 24) _ ▸ hcount)
    omega
  have hlength : (decimalText (ioPlaces v) (ioCount v) ++ [unitName (ioUnit v)]).length ≤ 15 := by
    have hdigits : (natText (ioCount v / 10 ^ ioPlaces v)).length ≤ 8 :=
      (Nat.length_toDigits_le_iff (by decide) (by decide)).mpr hwhole
    unfold decimalText
    rcases ioPlaces_cases v with ⟨hzero, -⟩ | ⟨hone, -⟩
    · rw [hzero] at hdigits ⊢
      simp only [if_true, List.append_nil, List.length_append, List.length_singleton]
      omega
    · rw [hone] at hdigits ⊢
      simp only [one_ne_zero, if_false, List.length_append, List.length_cons, List.length_nil,
        Rfc8259.padded_length]
      omega
  unfold compactIoBytes
  rw [(ioUnit_spec v).1]
  dsimp only
  rw [hplaces, fixedText_eq_decimalText, ← ioCount_eq]
  exact List.take_of_length_le hlength

theorem exactScaled_compact (h : v < 2 ^ 64) :
    exactScaled (compactIoBytes (.finite false v)) = shownBytes v := by
  obtain ⟨hscale, hends, -⟩ := unitName_spec (ioUnit_spec v).2.1
  have hdecimal : exactDecimal (compactIoBytes (.finite false v)) =
      ((ioCount v : ℚ≥0) / 10 ^ ioPlaces v, [unitName (ioUnit v)]) := by
    unfold exactDecimal
    rw [compactIoBytes_eq h, scanMantissa_decimalText _ _ hends]
    dsimp only
    rw [digitsValue_decimal, Nat.cast_pow, Nat.cast_ofNat]
  unfold exactScaled
  rw [hdecimal]
  dsimp only
  rw [hscale, Double.value_ofNat]
  simp only [shownBytes_eq]
  push_cast
  rfl

/-- What is shown is rounded as if the unit were not there. -/
theorem nearest_shown (v : ℚ≥0) :
    Double.nearest ((ioCount v : ℚ≥0) / 10 ^ ioPlaces v) * 1024 ^ ioUnit v =
      Double.nearest (shownBytes v) := by
  have hpow : (1024 : ℚ≥0) ^ ioUnit v = 2 ^ (10 * ioUnit v) := by
    rw [pow_mul]
    norm_num
  simp only [shownBytes_eq]
  rw [hpow]
  by_cases hzero : ioCount v = 0
  · rw [hzero, Nat.cast_zero, zero_div, Double.nearest_zero, zero_mul, Double.nearest_zero]
  have hone : 1 ≤ (ioCount v : ℚ≥0) / 10 ^ ioPlaces v := by
    by_cases hunit : ioUnit v = 0
    · have hplaces : ioPlaces v = 0 := if_pos (.inl hunit)
      rw [hplaces, pow_zero, div_one]
      exact_mod_cast Nat.one_le_iff_ne_zero.mpr hzero
    · exact one_le_shown (Nat.pos_of_ne_zero hunit)
  have hne : (ioCount v : ℚ≥0) / 10 ^ ioPlaces v ≠ 0 := (zero_lt_one.trans_le hone).ne'
  exact (Double.nearest_scale (Double.normal_of_one_le hone) hne _).symm

/-- The sort reads the number that is shown, rounded to binary64. -/
theorem parseScaledNumber_compact (h : v < 2 ^ 64) :
    parseScaledNumber (compactIoBytes (.finite false v)) =
      .finite false (Double.nearest (shownBytes v)) := by
  obtain ⟨hscale, hends, -⟩ := unitName_spec (ioUnit_spec v).2.1
  have hbytes : shownBytes v ≤ 2 ^ 70 := (shownBytes_lt h).le.trans (by norm_num)
  have hcount : (ioCount v : ℚ≥0) / 10 ^ ioPlaces v ≤ 2 ^ 70 := by
    rw [shownBytes_eq] at hbytes
    refine le_trans (le_mul_of_one_le_right (by positivity) ?_) hbytes
    exact one_le_pow₀ (by norm_num)
  have hpow : (1024 : ℚ≥0) ^ ioUnit v = 2 ^ (10 * ioUnit v) := by
    rw [pow_mul]
    norm_num
  have hsame : Double.nearest (Double.nearest ((ioCount v : ℚ≥0) / 10 ^ ioPlaces v) *
      (1024 ^ ioUnit v : ℕ)) = Double.nearest (shownBytes v) := by
    rw [← nearest_shown, Nat.cast_pow, Nat.cast_ofNat, hpow]
    exact Double.nearest_nearest_scale _ _
  have hne : decimalText (ioPlaces v) (ioCount v) ++ [unitName (ioUnit v)] ≠ [] :=
    List.append_ne_nil_of_right_ne_nil _ (List.cons_ne_nil _ _)
  unfold parseScaledNumber
  rw [compactIoBytes_eq h, if_neg hne, strtod_decimalText _ _ hends]
  dsimp only
  rw [Double.roundMagnitude_of_le false hcount, hscale]
  show Double.roundMagnitude (false != false)
    (Double.nearest ((ioCount v : ℚ≥0) / 10 ^ ioPlaces v) * (1024 ^ ioUnit v : ℕ)) = _
  rw [Double.roundMagnitude_eq, hsame]
  exact (Double.roundMagnitude_eq false _).symm.trans (Double.roundMagnitude_of_le false hbytes)

/-! ## Two totals -/

/-- The column of two totals. -/
def ioColumn (read written : ℚ≥0) : Text := ioText (.finite false read) (.finite false written)

theorem compact_head (h : v < 2 ^ 64) :
    ∃ c rest, compactIoBytes (.finite false v) = c :: rest ∧ c.isDigit = true ∧
      ∀ d ∈ c :: rest, d ≠ '/' := by
  obtain ⟨c, digits, hcons, hc⟩ := natText_cons (ioCount v / 10 ^ ioPlaces v)
  have hunit := (unitName_spec (ioUnit_spec v).2.1).2.2
  have hdigit : ∀ d : Char, d.isDigit = true → d ≠ '/' := fun d hd heq => by
    rw [heq] at hd
    cases hd
  have hall : ∀ d ∈ compactIoBytes (.finite false v), d ≠ '/' := by
    intro d hd
    rw [compactIoBytes_eq h, decimalText, List.mem_append, List.mem_append, List.mem_singleton] at hd
    rcases hd with (hd | hd) | rfl
    · exact hdigit d (natText_isDigit _ d hd)
    · split at hd
      · exact absurd hd List.not_mem_nil
      · rcases List.mem_cons.mp hd with rfl | hd
        · decide
        · exact hdigit d (Rfc8259.padded_isDigit _ _ d hd)
    · exact hunit
  have htext : compactIoBytes (.finite false v) = c :: (digits ++
      ((if ioPlaces v = 0 then [] else '.' :: Double.padded (ioPlaces v) (ioCount v)) ++
        [unitName (ioUnit v)])) := by
    rw [compactIoBytes_eq h, decimalText, hcons]
    simp
  rw [htext] at hall
  exact ⟨c, _, htext, hc, hall⟩

theorem compact_length (value : Double) : (compactIoBytes value).length ≤ 15 :=
  List.length_take_le _ _

end Total

theorem isMissingValue_digit {c : Char} (hc : c.isDigit = true) (rest : Text) :
    isMissingValue (c :: rest) = false := by
  have hother : ∀ (d : Char) (word : Text), d.isDigit = false → c :: rest ≠ d :: word := by
    intro d word hd heq
    rw [(List.cons.inj heq).1, hd] at hc
    cases hc
  unfold isMissingValue
  simp only [str_eq, Bool.or_eq_false_iff, decide_eq_false_iff_not]
  exact ⟨⟨⟨⟨⟨⟨⟨List.cons_ne_nil c rest, hother '-' _ rfl⟩, hother 'r' _ rfl⟩, hother 'w' _ rfl⟩,
    hother 's' _ rfl⟩, hother 'p' _ rfl⟩, hother 'd' _ rfl⟩, hother 'n' _ rfl⟩

section Pair
variable {read written : ℚ≥0}

/-- The column splits at its slash into the two texts. -/
theorem ioColumn_split (hread : read < 2 ^ 64) (written : ℚ≥0) :
    (ioColumn read written).takeWhile (· ≠ '/') = compactIoBytes (.finite false read) ∧
      (ioColumn read written).dropWhile (· ≠ '/') = '/' :: compactIoBytes (.finite false written) ∧
      isMissingValue (ioColumn read written) = false := by
  have hcolumn : ioColumn read written =
      compactIoBytes (.finite false read) ++ '/' :: compactIoBytes (.finite false written) := by
    refine List.take_of_length_le ?_
    have hlength := compact_length (.finite false read)
    have hlength' := compact_length (.finite false written)
    rw [List.length_append, List.length_cons]
    omega
  obtain ⟨c, rest, htext, hc, hslash⟩ := compact_head hread
  have hpos : ∀ d ∈ compactIoBytes (.finite false read), decide (d ≠ '/') = true :=
    fun d hd => decide_eq_true (hslash d (htext ▸ hd))
  rw [hcolumn]
  refine ⟨?_, ?_, ?_⟩
  · rw [List.takeWhile_append_of_pos hpos, List.takeWhile_cons_of_neg (by decide), List.append_nil]
  · rw [List.dropWhile_append_of_pos hpos, List.dropWhile_cons_of_neg (by decide)]
  · rw [htext]
    exact isMissingValue_digit hc _

theorem addRounded_finite (a b : ℚ≥0) :
    Double.addRounded (.finite false a) (.finite false b) = Double.roundMagnitude false (a + b) := by
  by_cases hzero : a = 0 ∧ b = 0
  · obtain ⟨rfl, rfl⟩ := hzero
    rw [add_zero]
    rfl
  · have hsum : (Double.finite false a) + (Double.finite false b) = Double.ofRat (a + b) :=
      if_neg hzero
    have hpos : ¬ ((a : ℚ) + b < 0) := not_lt.mpr (by positivity)
    have habs : (⟨|(a : ℚ) + b|, abs_nonneg _⟩ : ℚ≥0) = a + b :=
      NNRat.ext (abs_of_nonneg (by positivity))
    unfold Double.addRounded
    rw [hsum, Double.ofRat, decide_eq_false hpos]
    exact congrArg (Double.roundMagnitude false) habs

/-- The score of a column: both numbers as they are shown, their sum rounded. -/
theorem ioScore_column (hread : read < 2 ^ 64) (hwritten : written < 2 ^ 64) (direction : ℤ) :
    ioScore (ioColumn read written) direction =
      .finite false (Double.nearest (Double.nearest (shownBytes read) +
        Double.nearest (shownBytes written))) := by
  obtain ⟨hfirst, hrest, hpresent⟩ := ioColumn_split hread written
  have hbound : ∀ {v : ℚ≥0}, v < 2 ^ 64 → Double.nearest (shownBytes v) ≤ 2 ^ 65 := by
    intro v h
    have hbits : Double.nearest (2 ^ 65) = 2 ^ 65 := by
      have hpow := Double.nearest_two_pow (by norm_num : (-1074 : ℤ) ≤ 65)
      exact_mod_cast hpow
    exact (Double.nearest_mono (shownBytes_lt h).le).trans_eq hbits
  have hsum : Double.nearest (shownBytes read) + Double.nearest (shownBytes written) ≤ 2 ^ 70 :=
    (add_le_add (hbound hread) (hbound hwritten)).trans (by norm_num)
  unfold ioScore
  rw [hpresent, if_neg Bool.false_ne_true, hrest]
  dsimp only
  rw [hfirst, parseScaledNumber_compact hread, parseScaledNumber_compact hwritten,
    addRounded_finite, Double.roundMagnitude_of_le false hsum]
  rfl

theorem exactIoScore_column (hread : read < 2 ^ 64) (hwritten : written < 2 ^ 64) :
    exactIoScore (ioColumn read written) = shownBytes read + shownBytes written := by
  obtain ⟨hfirst, hrest, -⟩ := ioColumn_split hread written
  unfold exactIoScore
  rw [hfirst, hrest, List.drop_one, List.tail_cons, exactScaled_compact hread,
    exactScaled_compact hwritten]

end Pair

/-- Below a kibibyte the whole number shown is a `double`. -/
theorem nearest_shownBytes_small {v : ℚ≥0} (hv : v < 1024) :
    Double.nearest (shownBytes v) = shownBytes v := by
  have hcount : Double.roundHalfEven v < 2 ^ 53 := by
    have hle : Double.roundHalfEven v ≤ 1024 := Double.roundHalfEven_le hv.le
    omega
  have hbits := Double.nearest_of_bits hcount (by norm_num : (-1074 : ℤ) ≤ 0)
  rw [zpow_zero, mul_one] at hbits
  rw [(shownBytes_near_small hv).1, hbits]

/-- From a kibibyte on, the error of the `double` is absorbed by that of the decimal shown. -/
theorem nearest_shownBytes_large {v : ℚ≥0} (hv : 1024 ≤ v) :
    |((Double.nearest (shownBytes v) : ℚ≥0) : ℚ) - v| ≤ v / 20 := by
  have hnear := shownBytes_near_large hv
  have hv' : (1024 : ℚ) ≤ v := by exact_mod_cast hv
  have hlarge : (1 : ℚ) ≤ shownBytes v := by
    have := (abs_le.mp hnear).1
    linarith
  have hone : 1 ≤ shownBytes v := by exact_mod_cast hlarge
  have hround := Double.nearest_relative (Double.normal_of_one_le hone)
    (zero_lt_one.trans_le hone).ne'
  have hthousand : (shownBytes v : ℚ) / 2 ^ 53 ≤ shownBytes v / 1000 :=
    div_le_div_of_nonneg_left (zero_le_one.trans hlarge) (by norm_num) (by norm_num)
  have hfar := (abs_le.mp hnear).2
  calc |((Double.nearest (shownBytes v) : ℚ≥0) : ℚ) - v|
      ≤ |((Double.nearest (shownBytes v) : ℚ≥0) : ℚ) - shownBytes v| + |(shownBytes v : ℚ) - v| :=
        abs_sub_le _ _ _
    _ ≤ shownBytes v / 1000 + v / 21 := add_le_add (hround.trans hthousand) hnear
    _ ≤ v / 20 := by linarith

/-- The score of the IO column follows the totals, and a total is read back to within a half below
1023.5 and to within a twentieth from 1024 on; all of this for the text as it is written and for what
`strtod` and the arithmetic of `double` make of it. -/
theorem io_column_agrees :
    (∀ read read' written written' : ℚ≥0, read ≤ read' → written ≤ written' →
      read' < 2 ^ 64 → written' < 2 ^ 64 →
        exactIoScore (ioColumn read written) ≤ exactIoScore (ioColumn read' written') ∧
        ∀ direction, Double.le (ioScore (ioColumn read written) direction)
          (ioScore (ioColumn read' written') direction) = true) ∧
    (∀ v : ℚ≥0, v < 1023.5 →
      |exactScaled (compactIoBytes (.finite false v)) - v| ≤ 1 / 2 ∧
      |(parseScaledNumber (compactIoBytes (.finite false v))).value - v| ≤ 1 / 2) ∧
    ∀ v : ℚ≥0, 1024 ≤ v → v < 2 ^ 64 →
      |exactScaled (compactIoBytes (.finite false v)) - v| ≤ v / 20 ∧
      |(parseScaledNumber (compactIoBytes (.finite false v))).value - v| ≤ v / 20 := by
  refine ⟨fun read read' written written' hr hw hread hwritten => ⟨?_, fun direction => ?_⟩,
    fun v hv => ?_, fun v hv hlimit => ?_⟩
  · rw [exactIoScore_column (hr.trans_lt hread) (hw.trans_lt hwritten),
      exactIoScore_column hread hwritten]
    have hr' : (shownBytes read : ℚ) ≤ shownBytes read' := by exact_mod_cast shownBytes_mono hr
    have hw' : (shownBytes written : ℚ) ≤ shownBytes written' := by
      exact_mod_cast shownBytes_mono hw
    exact add_le_add hr' hw'
  · rw [ioScore_column (hr.trans_lt hread) (hw.trans_lt hwritten), ioScore_column hread hwritten]
    have hmono := Double.nearest_mono (add_le_add (Double.nearest_mono (shownBytes_mono hr))
      (Double.nearest_mono (shownBytes_mono hw)))
    rw [le_finite]
    exact decide_eq_true hmono
  · have hbelow : (1023.5 : ℚ≥0) ≤ 1024 := by
      norm_num [div_le_iff₀]
    have hsmall : v < 1024 := hv.trans_le hbelow
    have hlimit : v < 2 ^ 64 := hsmall.trans (by norm_num)
    have hnear := (shownBytes_near_small hsmall).2
    rw [exactScaled_compact hlimit, parseScaledNumber_compact hlimit,
      nearest_shownBytes_small hsmall]
    exact ⟨hnear, hnear⟩
  · have hnear := shownBytes_near_large hv
    have hv' : (1024 : ℚ) ≤ v := by exact_mod_cast hv
    rw [exactScaled_compact hlimit, parseScaledNumber_compact hlimit]
    exact ⟨hnear.trans (by linarith), nearest_shownBytes_large hv⟩

end Mtop
