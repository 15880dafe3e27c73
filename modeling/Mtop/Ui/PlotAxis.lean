import Mathlib.Tactic.FieldSimp
import Mathlib.Tactic.Positivity
import Mtop.Ui.PlotData

/-! The time axis under a plot. It is labelled for one sample a bucket, but a minute of samples is
squeezed into the buckets: the two agree only for some widths and refresh intervals. -/
namespace Mtop
open Cxx
set_option autoImplicit false

/-! ## The axis -/

/-- Where the axis has an age in milliseconds, in columns from the left: the seconds of the label at the
left edge, 0 at the right one. -/
def axisColumn (cols seconds age : ℤ) : ℚ := cols * (1 - age / (1000 * seconds))

/-- The sample of this age, in refresh intervals, is averaged into the bucket. -/
def InBucket (count parts age bucket : ℕ) : Prop :=
  bucket < parts ∧ cut count parts bucket ≤ count - 1 - age ∧
    count - 1 - age < cut count parts (bucket + 1)

/-- The column lies in the bucket at this place from the left, or in one next to it. -/
def NearBucket (place : ℤ) (column : ℚ) : Prop := 2 * place - 2 ≤ column ∧ column ≤ 2 * place + 4

/-- Every plotted sample stands, up to one bucket, where the axis has its age. -/
def AxisTruthful (refreshMs cols seconds : ℤ) (count parts : ℕ) : Prop :=
  ∀ age < count, ∃ bucket, InBucket count parts age bucket ∧
    NearBucket (cols / 2 - parts + bucket) (axisColumn cols seconds (age * refreshMs))

/-- The samples in a minute. -/
def minuteSamples (refreshMs : ℤ) : ℤ := max 1 (60000 / refreshMs)

/-- Some number of seconds is long enough for the oldest sample of a minute, give or take a bucket, and
no more than the time that the buckets span at one sample each, within a second to a minute. -/
def AxisFits (refreshMs cols : ℤ) : Prop :=
  ∃ seconds, 1 ≤ seconds ∧ seconds ≤ 60 ∧
    1000 * seconds ≤ max 1000 (toInt32 (cols / 2 * refreshMs)) ∧
    cols * ((minuteSamples refreshMs - 1) * refreshMs) ≤
      1000 * seconds * (cols + 2 + 2 * min (cols / 2) (minuteSamples refreshMs) - 2 * (cols / 2))

theorem labelSeconds_pos (refreshMs cols : ℤ) : 0 < labelSeconds refreshMs cols := by
  unfold labelSeconds
  omega

theorem le_labelSeconds_iff {refreshMs cols seconds : ℤ} (h : 1 ≤ seconds) :
    seconds ≤ labelSeconds refreshMs cols ↔
      seconds ≤ 60 ∧ 1000 * seconds ≤ max 1000 (toInt32 (cols / 2 * refreshMs)) := by
  unfold labelSeconds
  by_cases hnonneg : 0 ≤ toInt32 (cols / 2 * refreshMs)
  · rw [Int.tdiv_eq_ediv_of_nonneg hnonneg]
    omega
  · have hnonpos : (toInt32 (cols / 2 * refreshMs)).tdiv 1000 ≤ 0 := by
      have hneg := Int.tdiv_nonneg (by omega : 0 ≤ -toInt32 (cols / 2 * refreshMs))
        (by decide : (0 : ℤ) ≤ 1000)
      rw [Int.neg_tdiv] at hneg
      omega
    omega

/-- The label is the longest such number. -/
theorem axisFits_iff_label {refreshMs cols : ℤ} (hcols : 0 ≤ cols) :
    AxisFits refreshMs cols ↔
      cols * ((minuteSamples refreshMs - 1) * refreshMs) ≤
        1000 * labelSeconds refreshMs cols *
          (cols + 2 + 2 * min (cols / 2) (minuteSamples refreshMs) - 2 * (cols / 2)) := by
  have hminute : 1 ≤ minuteSamples refreshMs := le_max_left _ _
  have hlabel := labelSeconds_pos refreshMs cols
  constructor
  · rintro ⟨seconds, hone, hlong, hspan, hfits⟩
    have hle : seconds ≤ labelSeconds refreshMs cols := (le_labelSeconds_iff hone).mpr ⟨hlong, hspan⟩
    refine hfits.trans (mul_le_mul_of_nonneg_right (by omega) (by omega))
  · intro hfits
    obtain ⟨hlong, hspan⟩ := (le_labelSeconds_iff hlabel).mp (le_refl (labelSeconds refreshMs cols))
    exact ⟨labelSeconds refreshMs cols, hlabel, hlong, hspan, hfits⟩

section Near
variable {cols seconds age place : ℤ}

/-- The same in whole numbers. -/
theorem nearBucket_iff (hseconds : 0 < seconds) :
    NearBucket place (axisColumn cols seconds age) ↔
      (2 * place - 2) * (1000 * seconds) ≤ cols * (1000 * seconds - age) ∧
        cols * (1000 * seconds - age) ≤ (2 * place + 4) * (1000 * seconds) := by
  have hpos : (0 : ℚ) < 1000 * seconds := by exact_mod_cast (by omega : 0 < 1000 * seconds)
  have hcolumn : axisColumn cols seconds age =
      ((cols * (1000 * seconds - age) : ℤ) : ℚ) / (1000 * seconds) := by
    unfold axisColumn
    push_cast
    field_simp
  unfold NearBucket
  rw [hcolumn, le_div_iff₀ hpos, div_le_iff₀ hpos]
  constructor
  · rintro ⟨hlow, hhigh⟩
    exact ⟨by exact_mod_cast hlow, by exact_mod_cast hhigh⟩
  · rintro ⟨hlow, hhigh⟩
    exact ⟨by exact_mod_cast hlow, by exact_mod_cast hhigh⟩

end Near

/-! ## The oldest sample decides -/

section Oldest
variable {refreshMs cols seconds : ℤ} {count parts : ℕ}

/-- One sample on, the bucket moves by one at most. -/
theorem InBucket.bounds (hle : parts ≤ count) {age bucket : ℕ} (h : InBucket count parts age bucket) :
    bucket ≤ count - 1 - age ∧ parts ≤ bucket + 1 + age := by
  obtain ⟨hbucket, hlow, hhigh⟩ := h
  have hfirst := le_cut (by omega) hle bucket
  have hlast : cut count parts (bucket + 1) + (parts - (bucket + 1)) ≤ count := cut_add_le hle hbucket
  omega

theorem exists_inBucket (hpos : 0 < parts) {age : ℕ} (hage : age < count) :
    ∃ bucket, InBucket count parts age bucket := by
  have hlast : count - 1 - age < cut count parts parts := by
    rw [cut_self hpos]
    omega
  obtain ⟨bucket, hbucket, hin⟩ := exists_slice hlast
  exact ⟨bucket, hbucket, hin⟩

/-- The oldest sample, in the first bucket, does not stand right of its age by more than a bucket. -/
def OldestFits (refreshMs cols seconds : ℤ) (count parts : ℕ) : Prop :=
  (2 * (cols / 2 - parts) - 2) * (1000 * seconds) ≤
    cols * (1000 * seconds - (count - 1) * refreshMs)

theorem oldestFits_of_axisTruthful (hseconds : 0 < seconds) (hcount : 0 < count)
    (hle : parts ≤ count) (h : AxisTruthful refreshMs cols seconds count parts) :
    OldestFits refreshMs cols seconds count parts := by
  obtain ⟨bucket, hin, hnear⟩ := h (count - 1) (by omega)
  have hfirst : bucket = 0 := by
    have hbounds := hin.bounds hle
    omega
  subst hfirst
  rw [nearBucket_iff hseconds] at hnear
  have hage : ((count - 1 : ℕ) : ℤ) = (count : ℤ) - 1 := by omega
  have hlow := hnear.1
  rw [hage, Nat.cast_zero, add_zero] at hlow
  exact hlow

/-- If the axis gives an interval at least the width of a bucket, younger samples are less off. -/
theorem axisTruthful_of_oldestFits (hseconds : 0 < seconds) (hpos : 0 < parts) (hle : parts ≤ count)
    (hsteps : 2000 * seconds ≤ cols * refreshMs)
    (h : OldestFits refreshMs cols seconds count parts) :
    AxisTruthful refreshMs cols seconds count parts := by
  intro age hage
  obtain ⟨bucket, hin⟩ := exists_inBucket hpos hage
  obtain ⟨hfirst, hlast⟩ := hin.bounds hle
  have hfirst' : (bucket : ℤ) ≤ count - 1 - age := by omega
  have hlast' : (parts : ℤ) ≤ bucket + 1 + age := by omega
  have hcols : cols ≤ 2 * (cols / 2) + 1 := by omega
  refine ⟨bucket, hin, (nearBucket_iff hseconds).mpr ⟨?_, ?_⟩⟩
  · have hyounger : 2000 * seconds * (count - 1 - age) ≤ cols * refreshMs * (count - 1 - age) :=
      mul_le_mul_of_nonneg_right hsteps (by omega)
    have hplace : 2000 * seconds * bucket ≤ 2000 * seconds * (count - 1 - age) :=
      mul_le_mul_of_nonneg_left hfirst' (by omega)
    unfold OldestFits at h
    calc (2 * (cols / 2 - parts + bucket) - 2) * (1000 * seconds)
        = (2 * (cols / 2 - parts) - 2) * (1000 * seconds) + 2000 * seconds * bucket := by ring
      _ ≤ cols * (1000 * seconds - (count - 1) * refreshMs) +
          cols * refreshMs * (count - 1 - age) := by linarith
      _ = cols * (1000 * seconds - age * refreshMs) := by ring
  · have holder : 2000 * seconds * age ≤ cols * refreshMs * age :=
      mul_le_mul_of_nonneg_right hsteps (by omega)
    have hwidth : cols * (1000 * seconds) ≤ (2 * (cols / 2) + 1) * (1000 * seconds) :=
      mul_le_mul_of_nonneg_right hcols (by omega)
    have hplace : 2000 * seconds * (parts - 1) ≤ 2000 * seconds * (bucket + age) :=
      mul_le_mul_of_nonneg_left (by omega) (by omega)
    calc cols * (1000 * seconds - age * refreshMs)
        = cols * (1000 * seconds) - cols * refreshMs * age := by ring
      _ ≤ (2 * (cols / 2) + 1) * (1000 * seconds) - 2000 * seconds * age := by linarith
      _ ≤ (2 * (cols / 2 - parts + bucket) + 4) * (1000 * seconds) := by linarith

end Oldest

/-! ## Widths and intervals -/

section Widths
variable {refreshMs cols : ℤ} (hrefresh : 100 ≤ refreshMs ∧ refreshMs ≤ 60000) (hcols : 8 ≤ cols)
include hrefresh hcols

/-- Where the oldest sample fits, the label is no longer than the buckets. -/
theorem AxisFits.steps (h : AxisFits refreshMs cols) :
    2000 * labelSeconds refreshMs cols ≤ cols * refreshMs := by
  have hproduct : 2 * (cols / 2 * refreshMs) ≤ cols * refreshMs := by
    have hhalf : 2 * (cols / 2) ≤ cols := by omega
    calc 2 * (cols / 2 * refreshMs) = 2 * (cols / 2) * refreshMs := by ring
      _ ≤ cols * refreshMs := mul_le_mul_of_nonneg_right hhalf (by omega)
  by_cases hlong : 1000 ≤ cols / 2 * refreshMs
  · have hlabel : 1000 * labelSeconds refreshMs cols ≤ cols / 2 * refreshMs := by
      unfold labelSeconds
      by_cases hfits : cols / 2 * refreshMs < 2 ^ 31
      · rw [toInt32_eq_self (by omega) hfits, Int.tdiv_eq_ediv_of_nonneg (by omega)]
        omega
      · omega
    linarith
  · -- Under a second of buckets the label says a second, and the oldest sample is far off.
    exfalso
    have hone : labelSeconds refreshMs cols = 1 := by
      unfold labelSeconds
      have hnonneg : 0 ≤ cols / 2 * refreshMs := mul_nonneg (by omega) (by omega)
      rw [toInt32_eq_self (by omega) (by omega), Int.tdiv_eq_ediv_of_nonneg hnonneg]
      omega
    have hsmall : refreshMs < 250 := by
      by_contra hlarge
      have hfour : 4 * 250 ≤ cols / 2 * refreshMs :=
        mul_le_mul (by omega) (by omega) (by omega) (by omega)
      omega
    have hspan : 60000 - refreshMs < minuteSamples refreshMs * refreshMs := by
      have hdiv := Int.lt_ediv_add_one_mul_self 60000 (by omega : 0 < refreshMs)
      have hle : 60000 / refreshMs ≤ minuteSamples refreshMs := le_max_right _ _
      have hmul := mul_le_mul_of_nonneg_right hle (by omega : 0 ≤ refreshMs)
      linarith
    have hmin : min (cols / 2) (minuteSamples refreshMs) ≤ cols / 2 := min_le_left _ _
    rw [axisFits_iff_label (by omega), hone] at h
    have hage : 59500 ≤ (minuteSamples refreshMs - 1) * refreshMs := by
      rw [sub_mul, one_mul]
      omega
    have hleft : cols * 59500 ≤ cols * ((minuteSamples refreshMs - 1) * refreshMs) :=
      mul_le_mul_of_nonneg_left hage (by omega)
    omega

theorem axisFits_iff {count parts : ℕ} (hcount : (count : ℤ) = minuteSamples refreshMs)
    (hparts : (parts : ℤ) = min (cols / 2) (minuteSamples refreshMs)) :
    AxisTruthful refreshMs cols (labelSeconds refreshMs cols) count parts ↔
      AxisFits refreshMs cols := by
  have hseconds := labelSeconds_pos refreshMs cols
  have hminute : 1 ≤ minuteSamples refreshMs := le_max_left _ _
  have holdest : OldestFits refreshMs cols (labelSeconds refreshMs cols) count parts ↔
      AxisFits refreshMs cols := by
    rw [axisFits_iff_label (by omega), ← hparts, ← hcount]
    unfold OldestFits
    constructor <;> intro h <;> linarith
  rw [← holdest]
  constructor
  · exact oldestFits_of_axisTruthful hseconds (by omega) (by omega)
  · intro h
    exact axisTruthful_of_oldestFits hseconds (by omega) (by omega)
      (AxisFits.steps hrefresh hcols (holdest.mp h)) h

/-- With a minute of samples the plot data holds the means of their buckets, and every sample stands
where the axis has its age exactly when the oldest one does. -/
theorem axis_truthful_iff (gpuHistory secondaryHistory : History)
    (hgpu : minuteSamples refreshMs ≤ gpuHistory.size)
    (hsecondary : minuteSamples refreshMs ≤ secondaryHistory.size) :
    ∃ data, ∃ count parts : ℕ,
      populateNvtopPlotData gpuHistory secondaryHistory refreshMs cols = some data ∧
      (count : ℤ) = minuteSamples refreshMs ∧ parts = min (cols.toNat / 2) count ∧
      (∀ bucket < parts,
        data.values[2 * (cols.toNat / 2 - parts + bucket)]? =
            some (mean (slice (newest count gpuHistory) parts bucket)) ∧
          data.values[2 * (cols.toNat / 2 - parts + bucket) + 1]? =
            some (mean (slice (newest count secondaryHistory) parts bucket))) ∧
      (AxisTruthful refreshMs cols data.visibleSeconds count parts ↔ AxisFits refreshMs cols) := by
  have hminute : 1 ≤ minuteSamples refreshMs := le_max_left _ _
  lift cols to ℕ using by omega
  have hraw : ((rawSamples gpuHistory secondaryHistory refreshMs : ℕ) : ℤ) =
      minuteSamples refreshMs := by
    have hlarge : max 100 refreshMs = refreshMs := max_eq_right hrefresh.1
    unfold Samples.size at hgpu hsecondary
    unfold rawSamples
    rw [hlarge, ← minuteSamples]
    omega
  have hdata := populateNvtopPlotData_eq gpuHistory secondaryHistory refreshMs
    (by omega : 2 ≤ cols) rfl rfl
  rw [Int.toNat_natCast]
  refine ⟨_, _, _, hdata, hraw, rfl, fun bucket hbucket => ?_, ?_⟩
  · exact getElem?_columns gpuHistory secondaryHistory hbucket _
  · exact axisFits_iff hrefresh hcols hraw (by omega)

end Widths

/-! ## A label that is off -/

def minuteOfZeros : History :=
  ⟨List.replicate 600 0, List.length_replicate.trans_lt (by decide)⟩

theorem minuteOfZeros_size : minuteSamples 100 ≤ minuteOfZeros.size := by
  unfold Samples.size minuteOfZeros
  rw [List.length_replicate]
  decide

/-- 100 columns at ten samples a second: the left edge says five seconds and shows a minute. -/
theorem axis_says_five_seconds :
    (populateNvtopPlotData minuteOfZeros minuteOfZeros 100 100).map (·.visibleSeconds) = some 5 ∧
      rawSamples minuteOfZeros minuteOfZeros 100 = 600 ∧ ¬ AxisTruthful 100 100 5 600 50 := by
  have hfits : ¬ AxisFits 100 100 := by
    rw [axisFits_iff_label (by decide)]
    decide
  have hlabel : labelSeconds 100 100 = 5 := by decide
  have hdata := populateNvtopPlotData_eq minuteOfZeros minuteOfZeros 100 (by decide : 2 ≤ 100) rfl rfl
  have hlength : minuteOfZeros.values.length = 600 := List.length_replicate
  rw [Nat.cast_ofNat] at hdata
  rw [hdata, Option.map_some, hlabel]
  refine ⟨rfl, ?_, ?_⟩
  · unfold rawSamples
    rw [hlength]
    decide
  · rw [← hlabel]
    exact fun h => hfits ((axisFits_iff (by decide) (by decide) (by decide) (by decide)).mp h)

theorem axis_truthful_iff_minuteOfZeros :
    ∃ data, ∃ count parts : ℕ,
      populateNvtopPlotData minuteOfZeros minuteOfZeros 100 100 = some data ∧
      (count : ℤ) = minuteSamples 100 ∧ parts = min ((100 : ℤ).toNat / 2) count ∧
      (∀ bucket < parts,
        data.values[2 * ((100 : ℤ).toNat / 2 - parts + bucket)]? =
            some (mean (slice (newest count minuteOfZeros) parts bucket)) ∧
          data.values[2 * ((100 : ℤ).toNat / 2 - parts + bucket) + 1]? =
            some (mean (slice (newest count minuteOfZeros) parts bucket))) ∧
      (AxisTruthful 100 100 data.visibleSeconds count parts ↔ AxisFits 100 100) :=
  axis_truthful_iff ⟨le_refl 100, by decide⟩ (by decide) minuteOfZeros minuteOfZeros
    minuteOfZeros_size minuteOfZeros_size

end Mtop
