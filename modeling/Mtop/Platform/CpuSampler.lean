import Mtop.Platform.Sampler

/-! The processor and GPU parts of `sample()` in `darwin_sampler.cpp`, and the whole of it. The tick
counters of a processor are 32 bits wide and wrap. -/
namespace Mtop
open Cxx
set_option autoImplicit false

/-! ## Topology -/

structure PerfLevelInfo where
  name : Text
  logicalcpu : ℤ
  deriving DecidableEq

def perfLevelOrder (name : Text) : ℕ :=
  if name = str "Super" then 0 else if name = str "Performance" then 1
  else if name = str "Efficiency" then 2 else 3

/-- `perf_levels`, from what `sysctlbyname` answers for one level after the other. -/
def perfLevels (σ : StdSort) (levels : List PerfLevelInfo) : List PerfLevelInfo :=
  σ.sort (fun lhs rhs => perfLevelOrder lhs.name < perfLevelOrder rhs.name) levels

def clusterLabel (name : Text) : Char :=
  if name = str "Super" then 'S' else if name = str "Performance" then 'P'
  else if name = str "Efficiency" then 'E' else 'C'

/-- The cores of one level, the first of them with the id `globalCpu`. -/
def levelCores (globalCpu : ℕ) (level : PerfLevelInfo) : List CpuCoreSnapshot :=
  (List.range level.logicalcpu.toNat).map fun index : ℕ =>
    { cpuId := (globalCpu : ℤ) + (index : ℤ)
      clusterType := level.name
      label := clusterLabel level.name :: natText index }

def coresFrom : ℕ → List PerfLevelInfo → List CpuCoreSnapshot
  | _, [] => []
  | globalCpu, level :: levels =>
    levelCores globalCpu level ++ coresFrom (globalCpu + level.logicalcpu.toNat) levels

def buildCoreTopology (levels : List PerfLevelInfo) : List CpuCoreSnapshot := coresFrom 0 levels

def coresOf (name : Text) (cores : List CpuCoreSnapshot) : List CpuCoreSnapshot :=
  cores.filter fun core => core.clusterType = name

def rebuildCpuClusters (levels : List PerfLevelInfo) (cores : List CpuCoreSnapshot) :
    List CpuClusterSnapshot :=
  levels.map fun level =>
    { name := level.name
      label := clusterLabel level.name
      coreCount := (coresOf level.name cores).length }

/-! ## Utilisation -/

/-- `cpu_ticks` of one processor. -/
structure CpuTicks where
  user : UInt32 := 0
  system : UInt32 := 0
  idle : UInt32 := 0
  nice : UInt32 := 0
  deriving DecidableEq

/-- The differences are taken in 32 bits and added in 64. -/
def busyDelta (current previous : CpuTicks) : UInt64 :=
  (current.user - previous.user).toUInt64 + (current.system - previous.system).toUInt64 +
    (current.nice - previous.nice).toUInt64

def totalDelta (current previous : CpuTicks) : UInt64 :=
  busyDelta current previous + (current.idle - previous.idle).toUInt64

def corePercent (current : CpuTicks) : Option CpuTicks → Double
  | none => 0
  | some previous =>
    if totalDelta current previous > 0 then
      Double.divRounded
        (Double.mulRounded (Double.ofNat (busyDelta current previous).toNat).rounded 100)
        (Double.ofNat (totalDelta current previous).toNat).rounded
    else 0

/-- Readings of another number of processors are not compared. -/
def sampleCores (previous : Option (List CpuTicks)) (current : List CpuTicks)
    (cores : List CpuCoreSnapshot) : List CpuCoreSnapshot :=
  let previous := previous.filter fun ticks => ticks.length = current.length
  cores.mapIdx fun cpu core =>
    match current[cpu]? with
    | some ticks => { core with utilizationPercent := corePercent ticks (previous.bind (·[cpu]?)) }
    | none => core

def refreshCpuCluster (cores : List CpuCoreSnapshot) (cluster : CpuClusterSnapshot) :
    CpuClusterSnapshot :=
  let counted := coresOf cluster.name cores
  let totalUtil := counted.foldl (fun total core => Double.addRounded total core.utilizationPercent) 0
  { cluster with
    coreCount := counted.length
    utilizationPercent :=
      if counted.length > 0 then
        Double.divRounded totalUtil (Double.ofNat counted.length).rounded
      else 0
    frequencyAvailable := false
    frequencyMhz := 0
    powerAvailable := false
    powerWatts := 0 }

def refreshCpuClusters (levels : List PerfLevelInfo) (cores : List CpuCoreSnapshot)
    (clusters : List CpuClusterSnapshot) : List CpuClusterSnapshot :=
  let clusters := if clusters = [] then rebuildCpuClusters levels cores else clusters
  clusters.map (refreshCpuCluster cores)

/-! ## The whole sampler -/

/-- What `sample_apple_gpu` returns. -/
structure AppleGpuProbeResult where
  available : Bool := false
  utilizationPercent : Double := 0
  usedMemoryBytes : UInt64 := 0
  totalMemoryBytes : UInt64 := 0
  activePids : List ℤ := []

/-- What the system answers during one whole call of `sample()`; the pids of the GPU come from the
probe. -/
structure HostInput where
  input : SampleInput := {}
  perfLevels : List PerfLevelInfo := []
  cpuLoad : Option (List CpuTicks) := none
  gpu : AppleGpuProbeResult := {}

structure DarwinSampler where
  sampler : Sampler
  previousCpuInfo : Option (List CpuTicks) := none

section Host
variable (σ : StdSort)

/-- The constructor. -/
def newDarwinSampler (rootMode : Bool) (levels : List PerfLevelInfo) : DarwinSampler :=
  let cores := buildCoreTopology (perfLevels σ levels)
  { sampler :=
      { darwinSampler rootMode with
        snapshot :=
          { capabilities := { rootMode }
            cpuCores := cores
            cpuClusters := rebuildCpuClusters (perfLevels σ levels) cores } } }

/-- A failed `host_processor_info` leaves everything as it was. -/
def sampleCpu (host : HostInput) (s : DarwinSampler) : DarwinSampler :=
  match host.cpuLoad with
  | none => s
  | some current =>
    let snapshot := s.sampler.snapshot
    let cores := sampleCores s.previousCpuInfo current snapshot.cpuCores
    { sampler :=
        { s.sampler with
          snapshot :=
            { snapshot with
              cpuCores := cores
              cpuClusters :=
                refreshCpuClusters (perfLevels σ host.perfLevels) cores snapshot.cpuClusters } }
      previousCpuInfo := some current }

end Host

def sampleGpu (probe : AppleGpuProbeResult) (s : Sampler) : Sampler :=
  let snapshot :=
    { s.snapshot with
      capabilities :=
        { s.snapshot.capabilities with
          gpuTotalAvailable := probe.available
          gpuPerProcessAvailable := !probe.activePids.isEmpty
          gpuTotalStatus :=
            if probe.available then metricStatus .available (str "Apple GPU user-mode counters")
            else metricStatus .unavailable (str "Apple GPU counters unavailable")
          gpuPerProcessStatus :=
            if probe.activePids.isEmpty then
              metricStatus .unavailable (str "no active GPU PID list in current sample")
            else metricStatus .available (str "active PID list from Apple GPU counters") }
      gpuUtilizationPercent := probe.utilizationPercent
      gpuMemoryUsedBytes := probe.usedMemoryBytes
      gpuMemoryTotalBytes := probe.totalMemoryBytes
      gpuActivePids := probe.activePids }
  if probe.available then
    { s with
      snapshot :=
        { snapshot with
          gpuPowerWatts := s.cachedRootMetrics.gpuPowerWatts
          systemPowerWatts := s.cachedRootMetrics.totalPowerWatts } }
  else { s with snapshot }

/-- `sample()` with all its parts, in the order of the calls. -/
def sampleHost (σ : StdSort) (shared : RootMetrics) (host : HostInput) (s : DarwinSampler) :
    DarwinSampler :=
  let input := { host.input with gpuActivePids := host.gpu.activePids }
  let s := { s with sampler := sampleSystemIo input (sampleMemory input (stampSample input s.sampler)) }
  let s := sampleCpu σ host s
  { s with
    sampler :=
      sampleProcesses σ input (sampleGpu host.gpu (sampleRootMetrics shared input s.sampler)) }

/-- A whole run, with the root metrics that each sample finds. -/
def runHost (σ : StdSort) (samples : List (RootMetrics × HostInput)) (s : DarwinSampler) :
    DarwinSampler := samples.foldl (fun s sample => sampleHost σ sample.1 sample.2 s) s

theorem runHost_append (σ : StdSort) (samples : List (RootMetrics × HostInput)) (sample : RootMetrics × HostInput)
    (s : DarwinSampler) :
    runHost σ (samples ++ [sample]) s = sampleHost σ sample.1 sample.2 (runHost σ samples s) := by
  unfold runHost
  rw [List.foldl_append]
  rfl

end Mtop
