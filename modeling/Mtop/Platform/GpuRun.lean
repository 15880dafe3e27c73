import Mtop.Platform.CpuSampler

/-! What a sample says about the GPU, over whole runs: flags, statuses and rows agree with the probe of
the same sample, while the power is that of the latest sample whose probe was available. -/
namespace Mtop
open Cxx
set_option autoImplicit false

/-! ## What a call leaves alone -/

/-- The power fields with what they are filled from. -/
def Sampler.powered (s : Sampler) : Double × Double × RootMetrics × Bool :=
  (s.snapshot.gpuPowerWatts, s.snapshot.systemPowerWatts, s.cachedRootMetrics,
    s.snapshot.capabilities.rootMode)

/-- What the process stage is told about the GPU. -/
def Sampler.gpuFields (s : Sampler) : List ℤ × Bool × Bool × MetricStatus × MetricStatus :=
  (s.snapshot.gpuActivePids, s.snapshot.capabilities.gpuTotalAvailable,
    s.snapshot.capabilities.gpuPerProcessAvailable, s.snapshot.capabilities.gpuTotalStatus,
    s.snapshot.capabilities.gpuPerProcessStatus)

section Parts
variable (σ : StdSort) (shared : RootMetrics) (input : SampleInput) (s : Sampler)

theorem sampleMemory_powered : (sampleMemory input s).powered = s.powered := by
  unfold sampleMemory publishSwap
  dsimp only
  repeat' split
  all_goals rfl

theorem sampleSystemIo_powered : (sampleSystemIo input s).powered = s.powered := by
  unfold sampleSystemIo sampleNetwork sampleDisk samplePaging
  dsimp only
  repeat' split
  all_goals rfl

theorem sampleCpu_powered (host : HostInput) (s : DarwinSampler) :
    (sampleCpu σ host s).sampler.powered = s.sampler.powered := by
  unfold sampleCpu
  split <;> rfl

theorem sampleProcesses_powered : (sampleProcesses σ input s).powered = s.powered := by
  unfold sampleProcesses
  dsimp only
  split <;> rfl

theorem sampleProcesses_gpuFields : (sampleProcesses σ input s).gpuFields = s.gpuFields := by
  unfold sampleProcesses
  dsimp only
  split <;> rfl

/-- Only root takes over what the background thread has published. -/
theorem sampleRootMetrics_powered :
    (sampleRootMetrics shared input s).powered =
      (s.snapshot.gpuPowerWatts, s.snapshot.systemPowerWatts,
        if s.snapshot.capabilities.rootMode then shared else s.cachedRootMetrics,
        s.snapshot.capabilities.rootMode) := by
  unfold sampleRootMetrics applyRootMetrics
  split
  · split <;> rfl
  · rfl

theorem sampleGpu_powered (probe : AppleGpuProbeResult) :
    (sampleGpu probe s).powered =
      if probe.available then
        (s.cachedRootMetrics.gpuPowerWatts, s.cachedRootMetrics.totalPowerWatts,
          s.cachedRootMetrics, s.snapshot.capabilities.rootMode)
      else s.powered := by
  unfold sampleGpu
  dsimp only
  split <;> rfl

theorem processSnapshots_gpuActive (pids : List ℤ) (seconds : Double)
    (times : Std.TreeMap ℤ UInt64) (readings : List ProcessReading) :
    ∀ process ∈ (processSnapshots s pids seconds times readings).1,
      process.gpuActive = pids.contains process.pid := by
  induction readings generalizing times with
  | nil => exact fun process h => absurd h List.not_mem_nil
  | cons reading readings ih =>
    intro process h
    rcases List.mem_cons.mp h with rfl | hrest
    · rfl
    · exact ih _ process hrest

theorem sampleProcesses_gpuActive :
    ∀ process ∈ (sampleProcesses σ input s).snapshot.processes,
      process.gpuActive = input.gpuActivePids.contains process.pid := by
  unfold sampleProcesses
  cases input.processes with
  | none => exact fun process h => absurd h List.not_mem_nil
  | some readings =>
    intro process h
    exact processSnapshots_gpuActive _ _ _ _ _ process ((σ.perm _ _).mem_iff.mp h)

end Parts

/-! ## Whole runs -/

/-- An availability says what its flag says. -/
def Says (flag : Bool) (status : MetricStatus) : Prop :=
  status.availability = if flag then .available else .unavailable

/-- What the probe of a sample decides. -/
structure ShowsProbe (probe : AppleGpuProbeResult) (snapshot : SystemSnapshot) : Prop where
  pids : snapshot.gpuActivePids = probe.activePids
  rows : ∀ process ∈ snapshot.processes, process.gpuActive = true ↔ process.pid ∈ probe.activePids
  total : snapshot.capabilities.gpuTotalAvailable = probe.available
  totalStatus : Says snapshot.capabilities.gpuTotalAvailable snapshot.capabilities.gpuTotalStatus
  perProcess : snapshot.capabilities.gpuPerProcessAvailable = true ↔ snapshot.gpuActivePids ≠ []
  perProcessStatus :
    Says snapshot.capabilities.gpuPerProcessAvailable snapshot.capabilities.gpuPerProcessStatus

/-- The root metrics of the latest sample whose probe was available, if root could read them. -/
def heldMetrics (rootMode : Bool) (samples : List (RootMetrics × HostInput)) : RootMetrics :=
  if rootMode then
    ((samples.reverse.find? fun sample => sample.2.gpu.available).map (·.1)).getD {}
  else {}

section Runs
variable (σ : StdSort)

theorem sampleGpu_fields (probe : AppleGpuProbeResult) (s : Sampler) :
    (sampleGpu probe s).gpuFields =
      (probe.activePids, probe.available, !probe.activePids.isEmpty,
        if probe.available then metricStatus .available (str "Apple GPU user-mode counters")
        else metricStatus .unavailable (str "Apple GPU counters unavailable"),
        if probe.activePids.isEmpty then
          metricStatus .unavailable (str "no active GPU PID list in current sample")
        else metricStatus .available (str "active PID list from Apple GPU counters")) := by
  unfold sampleGpu
  dsimp only
  split <;> rfl

theorem sampleHost_showsProbe (shared : RootMetrics) (host : HostInput) (s : DarwinSampler) :
    ShowsProbe host.gpu (sampleHost σ shared host s).sampler.snapshot := by
  have hfields : (sampleHost σ shared host s).sampler.gpuFields = _ :=
    (sampleProcesses_gpuFields σ _ _).trans (sampleGpu_fields host.gpu _)
  simp only [Sampler.gpuFields, Prod.mk.injEq] at hfields
  obtain ⟨hpids, htotal, hper, htotalStatus, hperStatus⟩ := hfields
  refine ⟨hpids, fun process hprocess => ?_, htotal, ?_, ?_, ?_⟩
  · rw [sampleProcesses_gpuActive σ _ _ process hprocess]
    exact List.contains_iff_mem
  · unfold Says
    rw [htotal, htotalStatus]
    split <;> rfl
  · rw [hper, hpids]
    simp
  · unfold Says
    rw [hper, hperStatus]
    cases host.gpu.activePids.isEmpty <;> rfl

/-- The stages of a sample after the processor. -/
theorem sampleHost_stages (shared : RootMetrics) (host : HostInput) (s : DarwinSampler) :
    ∃ before, before.powered = s.sampler.powered ∧
      (sampleHost σ shared host s).sampler =
        sampleProcesses σ { host.input with gpuActivePids := host.gpu.activePids }
          (sampleGpu host.gpu (sampleRootMetrics shared
            { host.input with gpuActivePids := host.gpu.activePids } before)) := by
  refine ⟨_, ?_, rfl⟩
  rw [sampleCpu_powered, sampleSystemIo_powered, sampleMemory_powered]
  rfl

/-- One sample of the power fields. -/
theorem sampleHost_powered (shared : RootMetrics) (host : HostInput) {s : DarwinSampler}
    {gpu system : Double} {cached : RootMetrics} {rootMode : Bool}
    (h : s.sampler.powered = (gpu, system, cached, rootMode)) :
    (sampleHost σ shared host s).sampler.powered =
      if host.gpu.available then
        ((if rootMode then shared else cached).gpuPowerWatts,
          (if rootMode then shared else cached).totalPowerWatts,
          if rootMode then shared else cached, rootMode)
      else (gpu, system, if rootMode then shared else cached, rootMode) := by
  obtain ⟨before, hbefore, hsample⟩ := sampleHost_stages σ shared host s
  have hfields := hbefore.trans h
  simp only [Sampler.powered, Prod.mk.injEq] at hfields
  obtain ⟨hgpu, hsystem, hcached, hmode⟩ := hfields
  have hroot := sampleRootMetrics_powered shared
    { host.input with gpuActivePids := host.gpu.activePids } before
  rw [hgpu, hsystem, hcached, hmode] at hroot
  rw [hsample, sampleProcesses_powered, sampleGpu_powered]
  have hrootFields := hroot
  simp only [Sampler.powered, Prod.mk.injEq] at hrootFields
  obtain ⟨-, -, hmetrics, hroot'⟩ := hrootFields
  rw [hmetrics, hroot', hroot]

/-- What the power fields hold after a run. -/
theorem runHost_powered (rootMode : Bool) (levels : List PerfLevelInfo)
    (samples : List (RootMetrics × HostInput)) :
    ∃ cached, (rootMode = false → cached = {}) ∧
      (runHost σ samples (newDarwinSampler σ rootMode levels)).sampler.powered =
        ((heldMetrics rootMode samples).gpuPowerWatts, (heldMetrics rootMode samples).totalPowerWatts,
          cached, rootMode) := by
  induction samples using List.reverseRecOn with
  | nil => exact ⟨{}, fun _ => rfl, by cases rootMode <;> rfl⟩
  | append_singleton samples sample ih =>
    obtain ⟨cached, hcached, hpowered⟩ := ih
    rw [runHost_append, sampleHost_powered σ sample.1 sample.2 hpowered]
    refine ⟨if rootMode then sample.1 else cached, ?_, ?_⟩
    · rintro rfl
      exact hcached rfl
    · have hheld : heldMetrics rootMode (samples ++ [sample]) =
          if rootMode && sample.2.gpu.available then sample.1 else heldMetrics rootMode samples := by
        unfold heldMetrics
        rw [List.reverse_append, List.reverse_singleton, List.singleton_append, List.find?_cons]
        cases rootMode <;> cases sample.2.gpu.available <;> rfl
      rw [hheld]
      cases rootMode with
      | true => cases sample.2.gpu.available <;> rfl
      | false =>
        rw [hcached rfl]
        cases sample.2.gpu.available <;> rfl

/-- In every run a sample shows its own probe in all places that speak of it, and the power held since
the latest sample whose probe was available. -/
theorem gpu_of_run (rootMode : Bool) (levels : List PerfLevelInfo)
    (samples : List (RootMetrics × HostInput)) (sample : RootMetrics × HostInput) :
    ShowsProbe sample.2.gpu (runHost σ (samples ++ [sample])
        (newDarwinSampler σ rootMode levels)).sampler.snapshot ∧
      (runHost σ (samples ++ [sample])
        (newDarwinSampler σ rootMode levels)).sampler.snapshot.gpuPowerWatts =
          (heldMetrics rootMode (samples ++ [sample])).gpuPowerWatts ∧
      (runHost σ (samples ++ [sample])
        (newDarwinSampler σ rootMode levels)).sampler.snapshot.systemPowerWatts =
          (heldMetrics rootMode (samples ++ [sample])).totalPowerWatts := by
  obtain ⟨cached, -, hpowered⟩ := runHost_powered σ rootMode levels (samples ++ [sample])
  simp only [Sampler.powered, Prod.mk.injEq] at hpowered
  refine ⟨?_, hpowered.1, hpowered.2.1⟩
  rw [runHost_append]
  exact sampleHost_showsProbe σ sample.1 sample.2 _

end Runs
end Mtop
