import Mtop.Platform.CpuSampler

/-! The processor and the GPU do not disturb the rest of a sample: over whole runs, the sampler with
them agrees with the sampler without them on everything else. -/
namespace Mtop
open Cxx Std
set_option autoImplicit false

/-- A sampler without what the processor and the GPU have written. -/
def Sampler.unprobed (s : Sampler) : Sampler :=
  { s with
    snapshot :=
      { s.snapshot with
        cpuCores := []
        cpuClusters := []
        gpuUtilizationPercent := 0
        gpuPowerWatts := 0
        systemPowerWatts := 0
        gpuMemoryUsedBytes := 0
        gpuMemoryTotalBytes := 0
        gpuActivePids := []
        capabilities :=
          { s.snapshot.capabilities with
            gpuTotalAvailable := false
            gpuPerProcessAvailable := false
            gpuTotalStatus := {}
            gpuPerProcessStatus := {} } } }

section Parts
variable (σ : StdSort) (shared : RootMetrics) (input : SampleInput) (s : Sampler)

theorem stampSample_unprobed : (stampSample input s).unprobed = stampSample input s.unprobed := rfl

theorem sampleMemory_unprobed : (sampleMemory input s).unprobed = sampleMemory input s.unprobed := by
  unfold sampleMemory publishSwap
  cases input.memoryVm with
  | none => cases input.swapUsage <;> rfl
  | some vmStat =>
    cases input.swapUsage
    all_goals
      dsimp only [Sampler.unprobed]
      cases counterRates (elapsedSeconds s.lastMemorySampleTime input.memoryTime) s.previousSwap
        (vmStat.swapTraffic input.bytesPerPage) <;> rfl

theorem samplePaging_unprobed (seconds : ℚ) :
    (samplePaging seconds input s).unprobed = samplePaging seconds input s.unprobed := by
  unfold samplePaging
  cases input.ioVm <;> rfl

theorem sampleNetwork_unprobed (seconds : ℚ) :
    (sampleNetwork seconds input s).unprobed = sampleNetwork seconds input s.unprobed := by
  unfold sampleNetwork
  cases sampleHostNetworkCounters input.interfaces <;> rfl

theorem sampleSystemIo_unprobed :
    (sampleSystemIo input s).unprobed = sampleSystemIo input s.unprobed := by
  unfold sampleSystemIo
  rw [sampleNetwork_unprobed]
  refine congrArg (sampleNetwork _ input) ?_
  show sampleDisk _ input (Sampler.unprobed _) = _
  rw [samplePaging_unprobed]
  rfl

theorem sampleCpu_unprobed (host : HostInput) (s : DarwinSampler) :
    (sampleCpu σ host s).sampler.unprobed = s.sampler.unprobed := by
  unfold sampleCpu
  split <;> rfl

theorem sampleGpu_unprobed (probe : AppleGpuProbeResult) :
    (sampleGpu probe s).unprobed = s.unprobed := by
  unfold sampleGpu
  dsimp only
  split <;> rfl

theorem sampleRootMetrics_unprobed :
    (sampleRootMetrics shared input s).unprobed = sampleRootMetrics shared input s.unprobed := by
  unfold sampleRootMetrics
  show _ = if s.snapshot.capabilities.rootMode then _ else _
  split
  · unfold applyRootMetrics
    dsimp only [Sampler.unprobed]
    split <;> rfl
  · rfl

theorem processSnapshots_unprobed (pids : List ℤ) (seconds : Double) (times : TreeMap ℤ UInt64)
    (readings : List ProcessReading) :
    processSnapshots s.unprobed pids seconds times readings =
      processSnapshots s pids seconds times readings := by
  induction readings generalizing times with
  | nil => rfl
  | cons reading readings ih =>
    rw [processSnapshots, processSnapshots, ih]
    rfl

theorem sampleProcesses_unprobed :
    (sampleProcesses σ input s).unprobed = sampleProcesses σ input s.unprobed := by
  unfold sampleProcesses
  cases input.processes with
  | none => rfl
  | some readings =>
    have hrows := processSnapshots_unprobed { s with lastProcessSampleTime := input.processTime }
      input.gpuActivePids (if s.lastProcessSampleTime = 0 then 0 else Double.divRounded (Double.ofRat
        ((input.processTime : ℚ) - (s.lastProcessSampleTime : ℚ))).rounded 1000000000)
      s.previousProcessTimes (readings.filter fun reading => 0 < reading.pid)
    unfold Sampler.unprobed at hrows ⊢
    dsimp only at hrows ⊢
    rw [hrows]

end Parts

/-! ## Whole runs -/

section Runs
variable (σ : StdSort)

theorem sampleHost_unprobed (shared : RootMetrics) (host : HostInput) (s : DarwinSampler) :
    (sampleHost σ shared host s).sampler.unprobed =
      sample σ shared { host.input with gpuActivePids := host.gpu.activePids } s.sampler.unprobed := by
  unfold sampleHost sample
  dsimp only
  rw [sampleProcesses_unprobed, sampleGpu_unprobed, sampleRootMetrics_unprobed, sampleCpu_unprobed,
    sampleSystemIo_unprobed, sampleMemory_unprobed, stampSample_unprobed]

/-- Whatever the processor and the GPU answer in a run, everything else that is sampled, published and
remembered is what the sampler without them has. -/
theorem runHost_unprobed (rootMode : Bool) (levels : List PerfLevelInfo)
    (samples : List (RootMetrics × HostInput)) :
    (runHost σ samples (newDarwinSampler σ rootMode levels)).sampler.unprobed =
      samples.foldl (fun s reading => sample σ reading.1
        { reading.2.input with gpuActivePids := reading.2.gpu.activePids } s)
        (darwinSampler rootMode) := by
  induction samples using List.reverseRecOn with
  | nil => rfl
  | append_singleton samples last ih =>
    rw [runHost_append, sampleHost_unprobed, ih, List.foldl_append]
    rfl

end Runs
end Mtop
