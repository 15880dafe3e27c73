import Mtop.Model.MemoryPressure
import Mtop.Model.RiskVerdict
import Mtop.Library.Cascade

/-! A snapshot under more memory pressure than another has no lower risk level. -/
namespace Mtop
open Cascade
set_option autoImplicit false

/-! ## Counters that do not wrap -/

theorem toNat_add_of_lt {x y : UInt64} (h : x.toNat + y.toNat < 2 ^ 64) :
    (x + y).toNat = x.toNat + y.toNat := by
  rw [UInt64.toNat_add, Nat.mod_eq_of_lt h]

theorem toNat_min (x y : UInt64) : (min x y).toNat = min x.toNat y.toNat := by
  show (if x ≤ y then x else y).toNat = _
  split
  · rename_i hle
    exact (Nat.min_eq_left (UInt64.le_iff_toNat_le.mp hle)).symm
  · rename_i hle
    exact (Nat.min_eq_right (Nat.le_of_not_le fun h => hle (UInt64.le_iff_toNat_le.mpr h))).symm

theorem workloadRssTotal_foldl (workloads : List WorkloadSnapshot) (total : UInt64)
    (h : total.toNat + (workloads.map (·.residentBytes.toNat)).sum < 2 ^ 64) :
    (workloads.foldl (fun total workload => total + workload.residentBytes) total).toNat =
      total.toNat + (workloads.map (·.residentBytes.toNat)).sum := by
  induction workloads generalizing total with
  | nil => rfl
  | cons workload workloads ih =>
    rw [List.map_cons, List.sum_cons] at h ⊢
    have hadd : (total + workload.residentBytes).toNat =
        total.toNat + workload.residentBytes.toNat := toNat_add_of_lt (by omega)
    rw [List.foldl_cons, ih (total + workload.residentBytes) (by omega), hadd, Nat.add_assoc]

theorem toNat_workloadRssTotal {workloads : List WorkloadSnapshot}
    (h : (workloads.map (·.residentBytes.toNat)).sum < 2 ^ 64) :
    (workloadRssTotal workloads).toNat = (workloads.map (·.residentBytes.toNat)).sum := by
  unfold workloadRssTotal
  rw [workloadRssTotal_foldl workloads 0 (by simpa using h)]
  exact Nat.zero_add _

/-- The order of the levels. -/
def MemoryRiskLevel.rank : MemoryRiskLevel → ℕ
  | .unknown => 0
  | .ok => 1
  | .watch => 2
  | .warn => 3
  | .critical => 4

/-- None of the 64-bit sums overflows. -/
structure NoOverflow (s : SystemSnapshot) (workloads : List WorkloadSnapshot) : Prop where
  reclaimable : s.memoryInactiveBytes.toNat + s.memorySpeculativeBytes.toNat +
    s.memoryPurgeableBytes.toNat < 2 ^ 64
  used : s.memoryWiredBytes.toNat + s.memoryActiveBytes.toNat + s.memoryCompressedBytes.toNat <
    2 ^ 64
  swapRate : s.swapinsBytesPerSec.toNat + s.swapoutsBytesPerSec.toNat < 2 ^ 64
  headroom : s.memoryTotalBytes.toNat - (strictUsed s).toNat +
    (reclaimCredit s).toNat < 2 ^ 64
  workloads : (workloads.map (·.residentBytes.toNat)).sum < 2 ^ 64

/-- `b` uses at least the memory that `a` uses and can reclaim at most as much. -/
structure Heavier (a b : SystemSnapshot) (wa wb : List WorkloadSnapshot) : Prop where
  total : a.memoryTotalBytes = b.memoryTotalBytes
  wired : a.memoryWiredBytes ≤ b.memoryWiredBytes
  active : a.memoryActiveBytes ≤ b.memoryActiveBytes
  compressed : a.memoryCompressedBytes ≤ b.memoryCompressedBytes
  swapUsed : a.swapUsedBytes ≤ b.swapUsedBytes
  swapins : a.swapinsBytesPerSec ≤ b.swapinsBytesPerSec
  swapouts : a.swapoutsBytesPerSec ≤ b.swapoutsBytesPerSec
  inactive : b.memoryInactiveBytes ≤ a.memoryInactiveBytes
  speculative : b.memorySpeculativeBytes ≤ a.memorySpeculativeBytes
  purgeable : b.memoryPurgeableBytes ≤ a.memoryPurgeableBytes
  rss : (wa.map (·.residentBytes.toNat)).sum ≤ (wb.map (·.residentBytes.toNat)).sum

/-! ## The figures -/

theorem add_le_add_of_lt {x x' y y' : UInt64} (hx : x ≤ x') (hy : y ≤ y')
    (h : x'.toNat + y'.toNat < 2 ^ 64) : x + y ≤ x' + y' := by
  rw [UInt64.le_iff_toNat_le] at hx hy ⊢
  rw [toNat_add_of_lt h, toNat_add_of_lt (by omega)]
  exact Nat.add_le_add hx hy

variable {a b : SystemSnapshot} {wa wb : List WorkloadSnapshot}

theorem Heavier.strictUsed (h : Heavier a b wa wb) (hb : NoOverflow b wb) :
    strictUsed a ≤ strictUsed b := by
  have hsum := hb.used
  have hfirst : (b.memoryWiredBytes + b.memoryActiveBytes).toNat =
      b.memoryWiredBytes.toNat + b.memoryActiveBytes.toNat := toNat_add_of_lt (by omega)
  refine add_le_add_of_lt (add_le_add_of_lt h.wired h.active (by omega)) h.compressed ?_
  rw [hfirst]
  exact hsum

theorem Heavier.reclaimableBytes (h : Heavier a b wa wb) (ha : NoOverflow a wa) :
    reclaimableBytes b ≤ reclaimableBytes a := by
  have hsum := ha.reclaimable
  have hfirst : (a.memoryInactiveBytes + a.memorySpeculativeBytes).toNat =
      a.memoryInactiveBytes.toNat + a.memorySpeculativeBytes.toNat := toNat_add_of_lt (by omega)
  refine add_le_add_of_lt (add_le_add_of_lt h.inactive h.speculative (by omega)) h.purgeable ?_
  rw [hfirst]
  exact hsum

theorem Heavier.reclaimCredit (h : Heavier a b wa wb) (ha : NoOverflow a wa) :
    reclaimCredit b ≤ reclaimCredit a := by
  have hle := UInt64.le_iff_toNat_le.mp (h.reclaimableBytes ha)
  unfold Mtop.reclaimCredit
  rw [UInt64.le_iff_toNat_le, toNat_min, toNat_min, h.total]
  omega

/-- The headroom as a natural number, without the branch of the code. -/
theorem toNat_estimatedHeadroom (ha : NoOverflow a wa) :
    (estimatedHeadroom a).toNat =
      (a.memoryTotalBytes.toNat - (strictUsed a).toNat) + (reclaimCredit a).toNat := by
  have hsum := ha.headroom
  unfold estimatedHeadroom
  split
  · rename_i hless
    have hsub : (a.memoryTotalBytes - Mtop.strictUsed a).toNat =
        a.memoryTotalBytes.toNat - (Mtop.strictUsed a).toNat :=
      UInt64.toNat_sub_of_le _ _ (UInt64.le_of_lt hless)
    rw [← hsub] at hsum ⊢
    exact toNat_add_of_lt hsum
  · rename_i hless
    have hle : a.memoryTotalBytes.toNat ≤ (Mtop.strictUsed a).toNat :=
      UInt64.le_iff_toNat_le.mp (UInt64.not_lt.mp hless)
    rw [Nat.sub_eq_zero_of_le hle, Nat.zero_add]

theorem Heavier.headroom (h : Heavier a b wa wb) (ha : NoOverflow a wa) (hb : NoOverflow b wb) :
    estimatedHeadroom b ≤ estimatedHeadroom a := by
  have hused := UInt64.le_iff_toNat_le.mp (h.strictUsed hb)
  have hcredit := UInt64.le_iff_toNat_le.mp (h.reclaimCredit ha)
  rw [UInt64.le_iff_toNat_le, toNat_estimatedHeadroom ha, toNat_estimatedHeadroom hb, h.total]
  omega

theorem Heavier.swapRate (h : Heavier a b wa wb) (hb : NoOverflow b wb) :
    swapRate a ≤ swapRate b := add_le_add_of_lt h.swapins h.swapouts hb.swapRate

theorem Heavier.workloadRssTotal (h : Heavier a b wa wb) (ha : NoOverflow a wa)
    (hb : NoOverflow b wb) : workloadRssTotal wa ≤ workloadRssTotal wb := by
  rw [UInt64.le_iff_toNat_le, toNat_workloadRssTotal ha.workloads,
    toNat_workloadRssTotal hb.workloads]
  exact h.rss

theorem Heavier.compressedRising (h : Heavier a b wa wb) {history : List SystemSnapshot}
    (hrising : compressedRising a history = true) : compressedRising b history = true := by
  cases history with
  | nil =>
    simp only [Mtop.compressedRising, decide_eq_true_eq] at hrising ⊢
    exact UInt64.lt_of_lt_of_le hrising h.compressed
  | cons first rest =>
    simp only [Mtop.compressedRising, decide_eq_true_eq] at hrising ⊢
    exact UInt64.lt_of_lt_of_le hrising h.compressed

theorem Heavier.swapUsedIncreasing (h : Heavier a b wa wb) {history : List SystemSnapshot}
    (hrising : swapUsedIncreasing a history = true) : swapUsedIncreasing b history = true := by
  cases history with
  | nil =>
    simp only [Mtop.swapUsedIncreasing, decide_eq_true_eq] at hrising ⊢
    exact UInt64.lt_of_lt_of_le hrising h.swapUsed
  | cons first rest =>
    simp only [Mtop.swapUsedIncreasing, decide_eq_true_eq] at hrising ⊢
    exact UInt64.lt_of_lt_of_le hrising h.swapUsed

/-! ## The two levels -/

theorem fraction_mono {x y total : UInt64} (h : x ≤ y) :
    fractionOfTotal x total ≤ fractionOfTotal y total := by
  unfold fractionOfTotal
  split
  · exact le_refl 0
  · have hxy : (x.toNat : ℚ) ≤ (y.toNat : ℚ) := Nat.cast_le.mpr (UInt64.le_iff_toNat_le.mp h)
    exact div_le_div_of_nonneg_right hxy (Nat.cast_nonneg _)

theorem Heavier.compression (h : Heavier a b wa wb) (ha : NoOverflow a wa) (hb : NoOverflow b wb)
    {compressed reclaimable active : ℚ}
    (hcompression : compression a compressed reclaimable active = true) :
    compression b compressed reclaimable active = true := by
  have hactive : a.memoryActiveBytes + a.memoryWiredBytes ≤
      b.memoryActiveBytes + b.memoryWiredBytes :=
    add_le_add_of_lt h.active h.wired (by have := hb.used; omega)
  simp only [Mtop.compression, Bool.and_eq_true, decide_eq_true_eq, h.total] at hcompression ⊢
  obtain ⟨⟨hcompressed, hreclaimable⟩, hused⟩ := hcompression
  exact ⟨⟨hcompressed.trans (fraction_mono h.compressed),
    (fraction_mono (h.reclaimableBytes ha)).trans hreclaimable⟩,
    hused.trans (fraction_mono hactive)⟩

theorem Heavier.severeSwap (h : Heavier a b wa wb) (hswap : severeSwap a = true) :
    severeSwap b = true := by
  simp only [Mtop.severeSwap, decide_eq_true_eq, h.total] at hswap ⊢
  exact UInt64.le_trans hswap h.swapUsed

theorem Heavier.moderateSwap (h : Heavier a b wa wb) (hswap : moderateSwap a = true) :
    moderateSwap b = true := by
  simp only [Mtop.moderateSwap, decide_eq_true_eq, h.total] at hswap ⊢
  exact UInt64.le_trans hswap h.swapUsed

theorem rank_pressure (s : SystemSnapshot) :
    (deriveMemoryPressure s).rank =
      if s.memoryTotalBytes = 0 then 0
      else if (severeSwap s || severeCompression s) = true then 3
      else if (moderateSwap s || moderateCompression s) = true then 2
      else 1 := by
  unfold deriveMemoryPressure
  simp only [apply_ite MemoryPressureLevel.rank]
  rfl

theorem Heavier.pressure (h : Heavier a b wa wb) (ha : NoOverflow a wa) (hb : NoOverflow b wb) :
    (deriveMemoryPressure a).rank ≤ (deriveMemoryPressure b).rank := by
  rw [rank_pressure, rank_pressure, h.total]
  split
  · exact Nat.le_refl 0
  · refine ite_le_ite (fun hsevere => ?_) (ite_le (Nat.le_succ 2) (Nat.le_add_right 1 2)) fun _ =>
      ite_le_ite (fun hmoderate => ?_) (Nat.le_succ 1) fun _ => Nat.le_refl 1
    · rw [Bool.or_eq_true] at hsevere ⊢
      exact hsevere.imp h.severeSwap (h.compression ha hb)
    · rw [Bool.or_eq_true] at hmoderate ⊢
      exact hmoderate.imp h.moderateSwap (h.compression ha hb)

theorem rank_chain (s : SystemSnapshot) (rising increasing large : Prop) [Decidable rising]
    [Decidable increasing] [Decidable large] :
    (chain s rising increasing large).1.rank =
      if s.memoryPressure = .critical then 4
      else if highSwapout s = true then 4
      else if estimatedHeadroom s < percentOf s.memoryTotalBytes 5 ∧ rising then 4
      else if s.memoryPressure = .warn then 3
      else if increasing ∧ swapRate s > 0 then 3
      else if estimatedHeadroom s < percentOf s.memoryTotalBytes 10 then 3
      else if s.memoryCompressedBytes > percentOf s.memoryTotalBytes 10 then 2
      else if large then 2
      else if estimatedHeadroom s < percentOf s.memoryTotalBytes 20 then 2
      else 1 := by
  unfold chain
  simp only [apply_ite Prod.fst, apply_ite MemoryRiskLevel.rank]
  rfl

theorem eq_critical_of_rank_le {x y : MemoryPressureLevel} (h : x.rank ≤ y.rank)
    (hx : x = .critical) : y = .critical := by
  subst hx
  cases y with
  | critical => rfl
  | unknown => exact absurd h (by decide)
  | normal => exact absurd h (by decide)
  | warn => exact absurd h (by decide)

theorem eq_warn_of_rank_le {x y : MemoryPressureLevel} (h : x.rank ≤ y.rank) (hx : x = .warn)
    (hy : y ≠ .critical) : y = .warn := by
  subst hx
  cases y with
  | warn => rfl
  | critical => exact absurd rfl hy
  | unknown => exact absurd h (by decide)
  | normal => exact absurd h (by decide)

/-- The chain is walked for both snapshots at once: where the heavier one fails a condition, the
lighter one fails it too. -/
theorem Heavier.chain (h : Heavier a b wa wb) (ha : NoOverflow a wa) (hb : NoOverflow b wb)
    (hpressure : a.memoryPressure.rank ≤ b.memoryPressure.rank) (history : List SystemSnapshot) :
    (chain a (Mtop.compressedRising a history = true) (Mtop.swapUsedIncreasing a history = true)
        (Mtop.workloadRssTotal wa > a.memoryTotalBytes / 2)).1.rank ≤
      (Mtop.chain b (Mtop.compressedRising b history = true)
        (Mtop.swapUsedIncreasing b history = true)
        (Mtop.workloadRssTotal wb > b.memoryTotalBytes / 2)).1.rank := by
  have hless : ∀ {bound : UInt64}, estimatedHeadroom a < bound → estimatedHeadroom b < bound :=
    fun hlt => UInt64.lt_of_le_of_lt (h.headroom ha hb) hlt
  rw [rank_chain, rank_chain, h.total]
  refine ite_le_ite (eq_critical_of_rank_le hpressure) ?_ fun hcritical => ?_
  · repeat refine ite_le (by decide) ?_
    decide
  refine ite_le_ite (fun hswapout => ?_) ?_ fun _ => ?_
  · simp only [highSwapout, decide_eq_true_eq] at hswapout ⊢
    exact UInt64.le_trans hswapout h.swapouts
  · repeat refine ite_le (by decide) ?_
    decide
  refine ite_le_ite (fun hrising => ⟨hless hrising.1, h.compressedRising hrising.2⟩) ?_ fun _ => ?_
  · repeat refine ite_le (by decide) ?_
    decide
  refine ite_le_ite (fun hwarn => eq_warn_of_rank_le hpressure hwarn hcritical) ?_ fun _ => ?_
  · repeat refine ite_le (by decide) ?_
    decide
  refine ite_le_ite (fun hswap => ⟨h.swapUsedIncreasing hswap.1,
    UInt64.lt_of_lt_of_le hswap.2 (h.swapRate hb)⟩) ?_ fun _ => ?_
  · repeat refine ite_le (by decide) ?_
    decide
  refine ite_le_ite hless ?_ fun _ => ?_
  · repeat refine ite_le (by decide) ?_
    decide
  refine ite_le_ite (fun hcompressed => UInt64.lt_of_lt_of_le hcompressed h.compressed) ?_
    fun _ => ?_
  · repeat refine ite_le (by decide) ?_
    decide
  refine ite_le_ite (fun hrss => UInt64.lt_of_lt_of_le hrss (h.workloadRssTotal ha hb)) ?_
    fun _ => ?_
  · repeat refine ite_le (by decide) ?_
    decide
  exact ite_le_ite hless (Nat.le_succ 1) fun _ => Nat.le_refl 1

theorem not_totalsUnavailable {s : SystemSnapshot} {history : List SystemSnapshot}
    {workloads : List WorkloadSnapshot}
    (h : (deriveMemoryRisk s history workloads).level ≠ .unknown) : ¬ TotalsUnavailable s := by
  intro hunavailable
  rw [deriveMemoryRisk_level] at h
  unfold verdict at h
  rw [if_pos hunavailable] at h
  exact h rfl

/-- Pressure and risk are both monotone in the memory that is used. -/
theorem memory_risk_monotone {history : List SystemSnapshot} (h : Heavier a b wa wb)
    (ha : NoOverflow a wa) (hb : NoOverflow b wb)
    (hpa : a.memoryPressure = deriveMemoryPressure a)
    (hpb : b.memoryPressure = deriveMemoryPressure b)
    (hka : (deriveMemoryRisk a history wa).level ≠ .unknown)
    (hkb : (deriveMemoryRisk b history wb).level ≠ .unknown) :
    (deriveMemoryPressure a).rank ≤ (deriveMemoryPressure b).rank ∧
      (deriveMemoryRisk a history wa).level.rank ≤ (deriveMemoryRisk b history wb).level.rank := by
  have hpressure := h.pressure ha hb
  refine ⟨hpressure, ?_⟩
  rw [← hpa, ← hpb] at hpressure
  rw [deriveMemoryRisk_level, deriveMemoryRisk_level,
    verdict_eq_chain (not_totalsUnavailable hka), verdict_eq_chain (not_totalsUnavailable hkb)]
  exact h.chain ha hb hpressure history

def lightSample : SystemSnapshot :=
  { memoryTotalBytes := 16000, memoryWiredBytes := 2000, memoryActiveBytes := 4000,
    memoryInactiveBytes := 5000, memoryCompressedBytes := 1000, memoryPressure := .normal }

def heavySample : SystemSnapshot :=
  { memoryTotalBytes := 16000, memoryWiredBytes := 4000, memoryActiveBytes := 6000,
    memoryInactiveBytes := 1000, memoryCompressedBytes := 4000, memoryPressure := .critical }

theorem memory_risk_monotone_sample :
    (deriveMemoryPressure lightSample).rank ≤ (deriveMemoryPressure heavySample).rank ∧
      (deriveMemoryRisk lightSample [{}] []).level.rank ≤
        (deriveMemoryRisk heavySample [{}] []).level.rank :=
  memory_risk_monotone
    ⟨rfl, by decide, by decide, by decide, by decide, by decide, by decide, by decide, by decide,
      by decide, by decide⟩
    ⟨by decide, by decide, by decide, by decide, by decide⟩
    ⟨by decide, by decide, by decide, by decide, by decide⟩
    (by decide +kernel) (by decide +kernel) (by decide +kernel) (by decide +kernel)

end Mtop
