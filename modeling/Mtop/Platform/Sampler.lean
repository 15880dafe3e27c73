import Mtop.Platform.Counters
import Mtop.Model.MemoryPressure
import Mtop.Library.StdSort
import Mtop.Library.DoubleText
import Std.Data.TreeMap.Lemmas

/-! The foreground half of `darwin_sampler.cpp`: one call of `sample()`. What the kernel and the
clock answer during a call is its input; the published snapshot is part of the state and keeps
every field that a call does not write. -/
namespace Mtop
open Cxx Std
set_option autoImplicit false

/-! ## State and input -/

structure RootMetrics where
  sampled : Bool := false
  available : Bool := false
  aneAvailable : Bool := false
  stale : Bool := false
  failureReason : Text := []
  sampleTime : ℕ := 0
  thermal : Text := str "N/A"
  ane : Text := str "N/A"
  cpuPowerWatts : Double := 0
  gpuPowerWatts : Double := 0
  totalPowerWatts : Double := 0
  gpuFrequencyMhz : ℤ := 0
  processCoreMix : TreeMap ℤ Text := ∅
  processIo : TreeMap ℤ Text := ∅
  processPower : TreeMap ℤ Text := ∅

/-- The counters of the previous sample are remembered in pairs. -/
structure Sampler where
  snapshot : SystemSnapshot := {}
  lastSampleTime : ℕ := 0
  lastMemorySampleTime : ℕ := 0
  lastIoSampleTime : ℕ := 0
  lastProcessSampleTime : ℕ := 0
  previousSwap : Option Traffic := none
  previousPages : Option Traffic := none
  previousDisk : Option Traffic := none
  previousNetwork : Option Traffic := none
  previousProcessTimes : TreeMap ℤ UInt64 := ∅
  cachedRootMetrics : RootMetrics := {}

/-- What the constructor leaves to the first sample. -/
def darwinSampler (rootMode : Bool) : Sampler :=
  { snapshot := { capabilities := { rootMode } } }

/-- A process that `proc_pidinfo` describes in full. -/
structure ProcessReading where
  pid : ℤ
  parentPid : ℤ := 0
  name : Text := []
  command : Text := []
  user : Text := []
  totalTime : UInt64 := 0
  residentSize : UInt64 := 0
  virtualSize : UInt64 := 0
  state : Char := '?'

structure SampleInput where
  unixTimeMs : UInt64 := 0
  now : ℕ := 0
  memoryTime : ℕ := 0
  ioTime : ℕ := 0
  rootTime : ℕ := 0
  processTime : ℕ := 0
  pageSize : Option UInt64 := none
  memsize : Option UInt64 := none
  memoryVm : Option VmStatistics := none
  swapUsage : Option (UInt64 × UInt64) := none
  ioVm : Option VmStatistics := none
  drivers : DriverListing := .matchingFailed
  interfaces : Option (List Interface) := none
  gpuActivePids : List ℤ := []
  processes : Option (List ProcessReading) := none

def metricStatus (availability : MetricAvailability) (reason : Text) : MetricStatus :=
  { availability, reason }

def SampleInput.bytesPerPage (input : SampleInput) : UInt64 := input.pageSize.getD 16384

/-! ## Memory -/

/-- The page counts of a successful `host_statistics64`. -/
def memoryPages (vmStat : VmStatistics) (pageSize total : UInt64) (snapshot : SystemSnapshot) :
    SystemSnapshot :=
  let freePages := (vmStat.freeCount + vmStat.inactiveCount + vmStat.speculativeCount).toUInt64
  let freeBytes := freePages * pageSize
  { snapshot with
    memoryTotalBytes := total
    memoryUsedBytes := if total > freeBytes then total - freeBytes else 0
    memoryWiredBytes := vmStat.wireCount.toUInt64 * pageSize
    memorySpeculativeBytes := vmStat.speculativeCount.toUInt64 * pageSize
    memoryActiveBytes := vmStat.activeCount.toUInt64 * pageSize
    memoryPurgeableBytes := vmStat.purgeableCount.toUInt64 * pageSize
    memoryCompressedBytes := vmStat.compressorPageCount.toUInt64 * pageSize
    memoryInactiveBytes := vmStat.inactiveCount.toUInt64 * pageSize }

/-- Without new rates the published ones stay. -/
def publishSwap (rates : Option Traffic) (snapshot : SystemSnapshot) : SystemSnapshot :=
  match rates with
  | none => snapshot
  | some rates =>
    { snapshot with
      swapinsBytesPerSec := rates.inBytes
      swapoutsBytesPerSec := rates.outBytes }

def sampleMemory (input : SampleInput) (s : Sampler) : Sampler :=
  let seconds := elapsedSeconds s.lastMemorySampleTime input.memoryTime
  let s := { s with lastMemorySampleTime := input.memoryTime }
  let s :=
    match input.memoryVm with
    | none => s
    | some vmStat =>
      let cumulative := vmStat.swapTraffic input.bytesPerPage
      { s with
        snapshot := publishSwap (counterRates seconds s.previousSwap cumulative)
          (memoryPages vmStat input.bytesPerPage (input.memsize.getD 0) s.snapshot)
        previousSwap := some cumulative }
  let snapshot :=
    match input.swapUsage with
    | none => s.snapshot
    | some (total, used) => { s.snapshot with swapTotalBytes := total, swapUsedBytes := used }
  { s with
    snapshot :=
      { snapshot with
        memoryPressure := deriveMemoryPressure snapshot
        memoryPressureStatus := metricStatus .available
          (str "derived from VM compression, reclaimable memory, and swap") } }

/-! ## System I/O -/

def samplePaging (seconds : ℚ) (input : SampleInput) (s : Sampler) : Sampler :=
  let waiting : PagingIoSnapshot :=
    { swapinsBytesPerSec := s.snapshot.swapinsBytesPerSec
      swapoutsBytesPerSec := s.snapshot.swapoutsBytesPerSec
      status := metricStatus .waiting (str "waiting for second VM sample") }
  match input.ioVm with
  | none =>
    { s with
      snapshot.pagingIo :=
        { waiting with status := metricStatus .unavailable (str "host_statistics64 failed") } }
  | some vmStat =>
    let cumulative := vmStat.pageTraffic input.bytesPerPage
    { s with
      snapshot.pagingIo :=
        match counterRates seconds s.previousPages cumulative with
        | none => waiting
        | some rates =>
          { waiting with
            available := true
            pageinsBytesPerSec := rates.inBytes
            pageoutsBytesPerSec := rates.outBytes
            status := metricStatus .available
              (str "VM page activity, not block device throughput") }
      previousPages := some cumulative }

def sampleDisk (seconds : ℚ) (input : SampleInput) (s : Sampler) : Sampler :=
  let counters := sampleHostDiskCounters input.drivers
  let rates :=
    if counters.available then counterRates seconds s.previousDisk counters.traffic else none
  { s with
    snapshot.diskIo :=
      match rates with
      | some rates =>
        { available := true
          readBytesPerSec := rates.inBytes
          writeBytesPerSec := rates.outBytes
          status := metricStatus .available (str "IOKit block storage counters") }
      | none =>
        { status :=
            if counters.available then
              metricStatus .waiting (str "waiting for second block storage sample")
            else metricStatus .unavailable counters.failureReason }
    previousDisk := some counters.traffic }

def sampleNetwork (seconds : ℚ) (input : SampleInput) (s : Sampler) : Sampler :=
  match sampleHostNetworkCounters input.interfaces with
  | none =>
    { s with
      snapshot.networkIo :=
        { status := metricStatus .unavailable (str "no active network interface counters") } }
  | some counters =>
    { s with
      snapshot.networkIo :=
        match counterRates seconds s.previousNetwork counters.traffic with
        | none => { status := metricStatus .waiting (str "waiting for second network sample") }
        | some rates =>
          { available := true
            rxBytesPerSec := rates.inBytes
            txBytesPerSec := rates.outBytes
            status := metricStatus .available (str "interface byte counters") }
      previousNetwork := some counters.traffic }

/-- The three sources share one clock, which every sample moves on. -/
def sampleSystemIo (input : SampleInput) (s : Sampler) : Sampler :=
  let seconds := elapsedSeconds s.lastIoSampleTime input.ioTime
  sampleNetwork seconds input <| sampleDisk seconds input <| samplePaging seconds input
    { s with lastIoSampleTime := input.ioTime }

/-! ## Root metrics -/

/-- `steady_age_ms` at the time `now`. -/
def steadyAgeMs (sampleTime now : ℕ) : UInt64 :=
  if sampleTime = 0 then 0 else UInt64.ofNat ((now - sampleTime) / 1000000)

def applyAvailable (metrics : RootMetrics) (now : ℕ) (snapshot : SystemSnapshot) :
    SystemSnapshot :=
  let availability : MetricAvailability := if metrics.stale then .stale else .available
  let ageMs := steadyAgeMs metrics.sampleTime now
  let status (sampler : Text) : MetricStatus :=
    { metricStatus availability (if metrics.stale then metrics.failureReason else sampler) with
      ageMs }
  { snapshot with
    thermal := metrics.thermal
    ane := if metrics.aneAvailable then metrics.ane else str "N/A"
    capabilities :=
      { snapshot.capabilities with
        thermalAvailable := true
        aneAvailable := metrics.aneAvailable
        thermalStatus := status (str "powermetrics thermal sampler")
        aneStatus :=
          if metrics.aneAvailable then status (str "powermetrics ANE sampler")
          else
            { metricStatus .unavailable (str "ANE field missing from powermetrics") with ageMs }
        rootProcessStatus := status (str "powermetrics task sampler") } }

def applyUnavailable (metrics : RootMetrics) (snapshot : SystemSnapshot) : SystemSnapshot :=
  let availability : MetricAvailability :=
    if metrics.sampled then
      if contains metrics.failureReason (str "permission") then .permissionDenied
      else if contains metrics.failureReason (str "parse") then .parseFailed
      else .unavailable
    else .waiting
  let reason :=
    if metrics.sampled then metrics.failureReason
    else str "waiting for first powermetrics sample"
  { snapshot with
    thermal := str "N/A"
    ane := str "N/A"
    capabilities :=
      { snapshot.capabilities with
        thermalAvailable := false
        aneAvailable := false
        thermalStatus := metricStatus availability reason
        aneStatus := metricStatus availability reason
        rootProcessStatus := metricStatus availability reason } }

def applyRootMetrics (metrics : RootMetrics) (now : ℕ) (snapshot : SystemSnapshot) :
    SystemSnapshot :=
  if metrics.available then applyAvailable metrics now snapshot
  else applyUnavailable metrics snapshot

/-- `shared` is the cell that the background thread writes, read once under the lock. -/
def sampleRootMetrics (shared : RootMetrics) (input : SampleInput) (s : Sampler) : Sampler :=
  if s.snapshot.capabilities.rootMode then
    { s with
      cachedRootMetrics := shared
      snapshot := applyRootMetrics shared input.rootTime s.snapshot }
  else
    let requiresRoot := metricStatus .requiresRoot (str "powermetrics requires root")
    { s with
      snapshot :=
        { s.snapshot with
          thermal := str "N/A"
          ane := str "N/A without root"
          capabilities :=
            { s.snapshot.capabilities with
              thermalAvailable := false
              aneAvailable := false
              thermalStatus := requiresRoot
              aneStatus := requiresRoot
              rootProcessStatus := requiresRoot } } }

/-! ## Processes -/

/-- A column that only root can fill. -/
def rootDetail (values : TreeMap ℤ Text) (missingRootDetail : Text) (stale : Bool) (pid : ℤ) :
    Text :=
  match values[pid]? with
  | some value => value
  | none => if stale then str "stale" else missingRootDetail

def missingRootDetail (s : Sampler) : Text :=
  if !s.snapshot.capabilities.rootMode then str "root"
  else if !s.cachedRootMetrics.sampled then str "wait"
  else str "n/a"

def cpuPercent (times : TreeMap ℤ UInt64) (seconds : Double) (reading : ProcessReading) : Double :=
  match times[reading.pid]? with
  | none => 0
  | some previous =>
    if Double.lt 0 seconds && reading.totalTime ≥ previous then
      let deltaNs := (Double.ofNat (reading.totalTime - previous).toNat).rounded
      Double.divRounded (Double.divRounded deltaNs seconds) 10000000
    else 0

def memoryPercent (snapshot : SystemSnapshot) (residentSize : UInt64) : Double :=
  if snapshot.memoryTotalBytes > 0 then
    Double.divRounded
      (Double.mulRounded (Double.ofNat residentSize.toNat).rounded 100)
      (Double.ofNat snapshot.memoryTotalBytes.toNat).rounded
  else 0

/-- The body of the loop over the pids. -/
def processSnapshot (s : Sampler) (gpuActivePids : List ℤ) (times : TreeMap ℤ UInt64)
    (seconds : Double) (reading : ProcessReading) : ProcessSnapshot :=
  let metrics := s.cachedRootMetrics
  let missing := missingRootDetail s
  let stale := s.snapshot.capabilities.rootProcessStatus.availability == .stale
  { pid := reading.pid
    parentPid := reading.parentPid
    name := reading.name
    command := reading.command
    user := reading.user
    cpuPercent := cpuPercent times seconds reading
    memoryPercent := memoryPercent s.snapshot reading.residentSize
    residentBytes := reading.residentSize
    virtualBytes := reading.virtualSize
    totalCpuTimeNs := reading.totalTime
    state := reading.state
    gpuActive := gpuActivePids.contains reading.pid
    coreMix := rootDetail metrics.processCoreMix missing stale reading.pid
    io := rootDetail metrics.processIo missing stale reading.pid
    power := rootDetail metrics.processPower missing stale reading.pid }

/-- The loop; `times` is what it has remembered so far. -/
def processSnapshots (s : Sampler) (gpuActivePids : List ℤ) (seconds : Double) :
    TreeMap ℤ UInt64 → List ProcessReading → List ProcessSnapshot × TreeMap ℤ UInt64
  | times, [] => ([], times)
  | times, reading :: readings =>
    let process := processSnapshot s gpuActivePids times seconds reading
    let (processes, times) :=
      processSnapshots s gpuActivePids seconds (times.insert reading.pid reading.totalTime) readings
    (process :: processes, times)

section Sample
variable (σ : StdSort)

/-- `proc_listpids` failing is `none`; pids that are not positive are skipped. -/
def sampleProcesses (input : SampleInput) (s : Sampler) : Sampler :=
  let seconds : Double :=
    if s.lastProcessSampleTime = 0 then 0
    else
      Double.divRounded
        (Double.ofRat ((input.processTime : ℚ) - (s.lastProcessSampleTime : ℚ))).rounded 1000000000
  let s := { s with lastProcessSampleTime := input.processTime }
  match input.processes with
  | none => { s with snapshot.processes := [] }
  | some readings =>
    let live := readings.filter fun reading => 0 < reading.pid
    let (processes, times) :=
      processSnapshots s input.gpuActivePids seconds s.previousProcessTimes live
    { s with
      previousProcessTimes :=
        times.filter fun pid _ => live.any fun reading => reading.pid == pid
      snapshot.processes :=
        σ.sort (fun lhs rhs => Double.lt rhs.cpuPercent lhs.cpuPercent) processes }

def stampSample (input : SampleInput) (s : Sampler) : Sampler :=
  { s with
    lastSampleTime := input.now
    snapshot.timestampUnixMs := input.unixTimeMs
    snapshot.sampleIntervalMs :=
      if s.lastSampleTime = 0 then s.snapshot.sampleIntervalMs
      else UInt64.ofNat ((input.now - s.lastSampleTime) / 1000000) }

/-- `sample()`; the snapshot it returns is the one in the state. -/
def sample (shared : RootMetrics) (input : SampleInput) (s : Sampler) : Sampler :=
  sampleProcesses σ input <| sampleRootMetrics shared input <| sampleSystemIo input <|
    sampleMemory input <| stampSample input s

end Sample
end Mtop
