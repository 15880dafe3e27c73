import Mtop.Platform.Placeholders
import Mtop.Library.DoubleRound
import Mtop.Ui.RowOrder

/-! The process table of a sample is one that can be sorted: its percentages are numbers, and its pids
are distinct if the kernel lists none twice. -/
namespace Mtop
open Cxx Std
set_option autoImplicit false

theorem rounded_ofNat (n : UInt64) :
    (Double.ofNat n.toNat).rounded = .finite false (Double.nearest n.toNat) := by
  refine Double.roundMagnitude_of_le false ?_
  have hlimit : n.toNat ≤ 2 ^ 70 := n.toNat_lt.le.trans (by norm_num)
  exact_mod_cast hlimit

theorem cpuPercent_ne_nan (times : TreeMap ℤ UInt64) (seconds : Double)
    (reading : ProcessReading) : cpuPercent times seconds reading ≠ .nan := by
  unfold cpuPercent
  split
  · exact fun h => by cases h
  · next previous _ =>
    split
    · next hguard =>
      obtain ⟨hseconds, -⟩ := Bool.and_eq_true_iff.mp hguard
      have hmillion : (10000000 : Double).value ≠ 0 := by decide
      refine Double.divRounded_ne_nan ?_ rfl hmillion
      rw [rounded_ofNat]
      cases seconds with
      | nan => cases hseconds
      | inf negative => exact fun h => by cases h
      | finite negative magnitude =>
        refine Double.divRounded_ne_nan (fun h => by cases h) rfl fun hzero => ?_
        rw [Double.lt_eq_value rfl rfl, hzero] at hseconds
        exact absurd hseconds (by decide)
    · exact fun h => by cases h

theorem memoryPercent_ne_nan (snapshot : SystemSnapshot) (residentSize : UInt64) :
    memoryPercent snapshot residentSize ≠ .nan := by
  unfold memoryPercent
  split
  · next htotal =>
    have hone : 1 ≤ snapshot.memoryTotalBytes.toNat := UInt64.lt_iff_toNat_lt.mp htotal
    have hnearest : 1 ≤ Double.nearest (snapshot.memoryTotalBytes.toNat : ℚ≥0) := by
      have hbits := Double.nearest_two_pow (by norm_num : (-1074 : ℤ) ≤ 0)
      rw [zpow_zero] at hbits
      exact hbits.symm.trans_le (Double.nearest_mono (by exact_mod_cast hone))
    have hvalue : (Double.finite false
        (Double.nearest (snapshot.memoryTotalBytes.toNat : ℚ≥0))).value ≠ 0 :=
      fun hzero => (zero_lt_one.trans_le hnearest).ne' (NNRat.coe_eq_zero.mp hzero)
    rw [rounded_ofNat, rounded_ofNat]
    exact Double.divRounded_ne_nan (Double.roundMagnitude_ne_nan _ _) rfl hvalue
  · exact fun h => by cases h

theorem processSnapshots_numeric (s : Sampler) (gpuActivePids : List ℤ) (seconds : Double)
    (times : TreeMap ℤ UInt64) (readings : List ProcessReading) :
    ∀ process ∈ (processSnapshots s gpuActivePids seconds times readings).1, process.Numeric := by
  induction readings generalizing times with
  | nil => exact fun process h => absurd h List.not_mem_nil
  | cons reading readings ih =>
    intro process h
    rcases List.mem_cons.mp h with rfl | hrest
    · exact ⟨cpuPercent_ne_nan _ _ _, memoryPercent_ne_nan _ _⟩
    · exact ih _ process hrest

/-- Every sample lists processes that the table can order. -/
theorem sample_listed (σ : StdSort) (shared : RootMetrics) (input : SampleInput) (s : Sampler)
    (hpids : (input.listed.map (·.pid)).Nodup) : (sample σ shared input s).snapshot.Listed := by
  refine ⟨sampleProcesses_pids.nodup_iff.mpr hpids, ?_⟩
  show ∀ process ∈ (sampleProcesses σ input (beforeProcessStage shared input s)).snapshot.processes,
    process.Numeric
  unfold sampleProcesses
  cases input.processes with
  | none => exact fun process h => absurd h List.not_mem_nil
  | some readings =>
    intro process h
    exact processSnapshots_numeric _ _ _ _ _ process ((σ.perm _ _).mem_iff.mp h)

/-- Sorted by any column, the GPU view of a sample is the flat table without the other rows. -/
theorem sample_gpuRows (σ σ' σ'' : StdSort) (shared : RootMetrics) (input : SampleInput) (s : Sampler)
    (state : UiState) (hpids : (input.listed.map (·.pid)).Nodup) :
    buildGpuActiveRows σ' (sample σ shared input s).snapshot state =
      (buildProcessRows σ'' (sample σ shared input s).snapshot
        { state with treeMode := false }).filter (·.process.gpuActive) := by
  have hlisted := sample_listed σ shared input s hpids
  exact gpuActiveRows_eq σ' σ'' hlisted.pids fun process hprocess =>
    (hlisted.numeric process (filteredProcesses_subset process hprocess)).inMode _

end Mtop
