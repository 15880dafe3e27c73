import Mtop.Output.JsonWriter
import Mtop.Model.MemoryRisk
import Mtop.Ui.Labels

/-! `snapshot_to_json`: the writer calls as `snapshot_json.cpp` makes them. -/
namespace Mtop
open Cxx
set_option autoImplicit false

structure SnapshotJsonOptions where
  viewProfile : ViewProfile := .alpha
  includeV2Models : Bool := true
  workloads : List WorkloadSnapshot := []
  memoryRisk : MemoryRiskSnapshot := {}

/-! ## The writers -/

def writeStatus (json : JsonWriter) (status : MetricStatus) : JsonWriter :=
  json.beginObject
    |>.key "availability" |>.stringValue (metricAvailabilityLabel status.availability)
    |>.key "reason" |>.stringValue status.reason
    |>.key "age_ms" |>.uintValue status.ageMs
    |>.endObject

/-- The body of the loop over the cores. -/
def writeCore (json : JsonWriter) (core : CpuCoreSnapshot) : JsonWriter :=
  json.beginObject
    |>.key "cpu_id" |>.intValue core.cpuId
    |>.key "cluster_type" |>.stringValue core.clusterType
    |>.key "label" |>.stringValue core.label
    |>.key "utilization_percent" |>.doubleValue core.utilizationPercent
    |>.endObject

/-- The body of the loop over the clusters. -/
def writeCluster (json : JsonWriter) (cluster : CpuClusterSnapshot) : JsonWriter :=
  json.beginObject
    |>.key "name" |>.stringValue cluster.name
    |>.key "label" |>.stringValue [cluster.label]
    |>.key "core_count" |>.intValue cluster.coreCount
    |>.key "utilization_percent" |>.doubleValue cluster.utilizationPercent
    |>.key "frequency_mhz" |>.intValue cluster.frequencyMhz
    |>.key "frequency_available" |>.boolValue cluster.frequencyAvailable
    |>.key "power_watts" |>.doubleValue cluster.powerWatts
    |>.key "power_available" |>.boolValue cluster.powerAvailable
    |>.endObject

def writeCpu (json : JsonWriter) (snapshot : SystemSnapshot) : JsonWriter :=
  let json := json.key "cpu" |>.beginObject
  let json := json.key "per_core_utilization" |>.beginArray
  let json := snapshot.cpuCores.foldl writeCore json
  let json := json.endArray
  let json := json.key "cluster_summary" |>.beginArray
  let json := snapshot.cpuClusters.foldl writeCluster json
  json.endArray |>.endObject

def writeMemory (json : JsonWriter) (snapshot : SystemSnapshot) : JsonWriter :=
  let json := json.key "memory" |>.beginObject
    |>.key "total_bytes" |>.uintValue snapshot.memoryTotalBytes
    |>.key "used_bytes" |>.uintValue snapshot.memoryUsedBytes
    |>.key "wired_bytes" |>.uintValue snapshot.memoryWiredBytes
    |>.key "active_bytes" |>.uintValue snapshot.memoryActiveBytes
    |>.key "inactive_bytes" |>.uintValue snapshot.memoryInactiveBytes
    |>.key "compressed_bytes" |>.uintValue snapshot.memoryCompressedBytes
    |>.key "purgeable_bytes" |>.uintValue snapshot.memoryPurgeableBytes
    |>.key "speculative_bytes" |>.uintValue snapshot.memorySpeculativeBytes
    |>.key "swap_total_bytes" |>.uintValue snapshot.swapTotalBytes
    |>.key "swap_used_bytes" |>.uintValue snapshot.swapUsedBytes
    |>.key "swapins_bytes_per_sec" |>.uintValue snapshot.swapinsBytesPerSec
    |>.key "swapouts_bytes_per_sec" |>.uintValue snapshot.swapoutsBytesPerSec
    |>.key "pressure_level" |>.stringValue (memoryPressureLabel snapshot.memoryPressure)
    |>.key "pressure_status"
  writeStatus json snapshot.memoryPressureStatus |>.endObject

def writeGpu (json : JsonWriter) (snapshot : SystemSnapshot) : JsonWriter :=
  let json := json.key "gpu" |>.beginObject
    |>.key "utilization_percent" |>.doubleValue snapshot.gpuUtilizationPercent
    |>.key "memory_used_bytes" |>.uintValue snapshot.gpuMemoryUsedBytes
    |>.key "memory_total_bytes" |>.uintValue snapshot.gpuMemoryTotalBytes
    |>.key "power_watts" |>.doubleValue snapshot.gpuPowerWatts
    |>.key "frequency_mhz" |>.intValue snapshot.gpuFrequencyMhz
    |>.key "active_pids" |>.beginArray
  let json := snapshot.gpuActivePids.foldl JsonWriter.intValue json
  let json := json.endArray |>.key "status"
  writeStatus json snapshot.capabilities.gpuTotalStatus |>.endObject

def writeIo (json : JsonWriter) (snapshot : SystemSnapshot) : JsonWriter :=
  let json := json.key "io" |>.beginObject
  let json := json.key "disk" |>.beginObject
    |>.key "read_bytes_per_sec" |>.uintValue snapshot.diskIo.readBytesPerSec
    |>.key "write_bytes_per_sec" |>.uintValue snapshot.diskIo.writeBytesPerSec
    |>.key "status"
  let json := writeStatus json snapshot.diskIo.status |>.endObject
  let json := json.key "paging" |>.beginObject
    |>.key "pageins_bytes_per_sec" |>.uintValue snapshot.pagingIo.pageinsBytesPerSec
    |>.key "pageouts_bytes_per_sec" |>.uintValue snapshot.pagingIo.pageoutsBytesPerSec
    |>.key "swapins_bytes_per_sec" |>.uintValue snapshot.pagingIo.swapinsBytesPerSec
    |>.key "swapouts_bytes_per_sec" |>.uintValue snapshot.pagingIo.swapoutsBytesPerSec
    |>.key "status"
  let json := writeStatus json snapshot.pagingIo.status |>.endObject
  let json := json.key "network" |>.beginObject
    |>.key "rx_bytes_per_sec" |>.uintValue snapshot.networkIo.rxBytesPerSec
    |>.key "tx_bytes_per_sec" |>.uintValue snapshot.networkIo.txBytesPerSec
    |>.key "status"
  let json := writeStatus json snapshot.networkIo.status |>.endObject
  json.endObject

def writeMemoryRisk (json : JsonWriter) (risk : MemoryRiskSnapshot) : JsonWriter :=
  json.key "memory_risk" |>.beginObject
    |>.key "level" |>.stringValue (memoryRiskName risk.level)
    |>.key "reason" |>.stringValue risk.reason
    |>.key "estimated_headroom_bytes" |>.uintValue risk.estimatedHeadroomBytes
    |>.key "reclaimable_bytes" |>.uintValue risk.reclaimableBytes
    |>.key "compressed_bytes" |>.uintValue risk.compressedBytes
    |>.key "swap_used_bytes" |>.uintValue risk.swapUsedBytes
    |>.key "swap_rate_bytes_per_sec" |>.uintValue risk.swapRateBytesPerSec
    |>.endObject

/-- The body of the loop over the processes of a workload. -/
def writeProcessRef (json : JsonWriter) (process : WorkloadProcessRef) : JsonWriter :=
  json.beginObject
    |>.key "pid" |>.intValue process.pid
    |>.key "ppid" |>.intValue process.parentPid
    |>.key "role" |>.stringValue (workloadRoleName process.role)
    |>.key "detection_confidence" |>.doubleValue process.detectionConfidence
    |>.key "command" |>.stringValue process.command
    |>.endObject

/-- The body of the loop over the workloads. -/
def writeWorkload (json : JsonWriter) (workload : WorkloadSnapshot) : JsonWriter :=
  let json := json.beginObject
    |>.key "id" |>.stringValue workload.id
    |>.key "name" |>.stringValue workload.name
    |>.key "kind" |>.stringValue (workloadKindName workload.kind)
    |>.key "kind_label" |>.stringValue (workloadKindLabel workload.kind)
    |>.key "model_hint" |>.stringValue workload.modelHint
    |>.key "cpu_percent" |>.doubleValue workload.cpuPercent
    |>.key "memory_percent" |>.doubleValue workload.memoryPercent
    |>.key "resident_bytes" |>.uintValue workload.residentBytes
    |>.key "virtual_bytes" |>.uintValue workload.virtualBytes
    |>.key "gpu_active" |>.boolValue workload.gpuActive
    |>.key "core_mix" |>.stringValue workload.coreMix
    |>.key "io" |>.stringValue workload.io
    |>.key "power" |>.stringValue workload.power
    |>.key "detection_status"
  let json := writeStatus json workload.detectionStatus
  let json := json.key "processes" |>.beginArray
  let json := workload.processes.foldl writeProcessRef json
  json.endArray |>.endObject

def writeWorkloads (json : JsonWriter) (workloads : List WorkloadSnapshot) : JsonWriter :=
  let json := json.key "workloads" |>.beginArray
  let json := workloads.foldl writeWorkload json
  json.endArray

/-- The body of the loop over the processes. -/
def writeProcess (json : JsonWriter) (process : ProcessSnapshot) : JsonWriter :=
  json.beginObject
    |>.key "pid" |>.intValue process.pid
    |>.key "ppid" |>.intValue process.parentPid
    |>.key "name" |>.stringValue process.name
    |>.key "command" |>.stringValue process.command
    |>.key "user" |>.stringValue process.user
    |>.key "state" |>.stringValue [process.state]
    |>.key "cpu_percent" |>.doubleValue process.cpuPercent
    |>.key "memory_percent" |>.doubleValue process.memoryPercent
    |>.key "resident_bytes" |>.uintValue process.residentBytes
    |>.key "virtual_bytes" |>.uintValue process.virtualBytes
    |>.key "gpu_active" |>.boolValue process.gpuActive
    |>.key "core_mix" |>.stringValue process.coreMix
    |>.key "io" |>.stringValue process.io
    |>.key "power" |>.stringValue process.power
    |>.endObject

/-- `snapshot_to_json` before the final `str()`. -/
def writeSnapshot (snapshot : SystemSnapshot) (options : SnapshotJsonOptions) : JsonWriter :=
  let json : JsonWriter := {}
  let json := json.beginObject
    |>.key "schema_version" |>.intValue (if options.includeV2Models then 2 else 1)
  let json := if options.includeV2Models then
      json.key "view_profile" |>.stringValue (viewProfileName options.viewProfile)
    else json
  let json := json.key "timestamp_unix_ms" |>.uintValue snapshot.timestampUnixMs
    |>.key "sample_interval_ms" |>.uintValue snapshot.sampleIntervalMs
  let json := json.key "host" |>.beginObject
    |>.key "macos_version" |>.stringValue snapshot.macosVersion
    |>.key "soc_name" |>.stringValue snapshot.socName
    |>.key "cpu_core_count" |>.intValue snapshot.cpuCoreCount
    |>.key "gpu_core_count" |>.intValue snapshot.gpuCoreCount
    |>.key "memory_total_bytes" |>.uintValue snapshot.memoryTotalBytes
    |>.endObject
  let json := json.key "capabilities" |>.beginObject
    |>.key "root_mode" |>.boolValue snapshot.capabilities.rootMode
  let json := writeStatus (json.key "gpu_total_status") snapshot.capabilities.gpuTotalStatus
  let json := writeStatus (json.key "gpu_process_status") snapshot.capabilities.gpuPerProcessStatus
  let json := writeStatus (json.key "thermal_status") snapshot.capabilities.thermalStatus
  let json := writeStatus (json.key "ane_status") snapshot.capabilities.aneStatus
  let json := writeStatus (json.key "root_process_status") snapshot.capabilities.rootProcessStatus
  let json := json.endObject
  let json := writeCpu json snapshot
  let json := writeMemory json snapshot
  let json := writeGpu json snapshot
  let json := json.key "ane" |>.beginObject
    |>.key "summary" |>.stringValue snapshot.ane
  let json := writeStatus (json.key "status") snapshot.capabilities.aneStatus |>.endObject
  let json := writeIo json snapshot
  let json := json.key "processes" |>.beginArray
  let json := snapshot.processes.foldl writeProcess json
  let json := json.endArray
  let json := if options.includeV2Models then
      writeMemoryRisk (writeWorkloads json options.workloads) options.memoryRisk
    else json
  json.endObject

def snapshotToJson (snapshot : SystemSnapshot) (options : SnapshotJsonOptions) : Text :=
  (writeSnapshot snapshot options).out

end Mtop
