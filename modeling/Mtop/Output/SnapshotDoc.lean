import Mtop.Output.SnapshotJson

/-! The document that each writer of `snapshot_to_json` stands for, the proof that its calls write
that document, and what an RFC 8259 reader makes of the text. -/
namespace Mtop
open Cxx Rfc8259
set_option autoImplicit false

/-! ## The documents -/

def statusDoc (status : MetricStatus) : Doc :=
  .obj [(str "availability", .str (metricAvailabilityLabel status.availability)),
    (str "reason", .str status.reason),
    (str "age_ms", uintDoc status.ageMs)]

def coreDoc (core : CpuCoreSnapshot) : Doc :=
  .obj [(str "cpu_id", intDoc core.cpuId),
    (str "cluster_type", .str core.clusterType),
    (str "label", .str core.label),
    (str "utilization_percent", doubleDoc core.utilizationPercent)]

def clusterDoc (cluster : CpuClusterSnapshot) : Doc :=
  .obj [(str "name", .str cluster.name),
    (str "label", .str [cluster.label]),
    (str "core_count", intDoc cluster.coreCount),
    (str "utilization_percent", doubleDoc cluster.utilizationPercent),
    (str "frequency_mhz", intDoc cluster.frequencyMhz),
    (str "frequency_available", .bool cluster.frequencyAvailable),
    (str "power_watts", doubleDoc cluster.powerWatts),
    (str "power_available", .bool cluster.powerAvailable)]

def cpuDoc (snapshot : SystemSnapshot) : Doc :=
  .obj [(str "per_core_utilization", .arr (snapshot.cpuCores.map coreDoc)),
    (str "cluster_summary", .arr (snapshot.cpuClusters.map clusterDoc))]

def memoryDoc (snapshot : SystemSnapshot) : Doc :=
  .obj [(str "total_bytes", uintDoc snapshot.memoryTotalBytes),
    (str "used_bytes", uintDoc snapshot.memoryUsedBytes),
    (str "wired_bytes", uintDoc snapshot.memoryWiredBytes),
    (str "active_bytes", uintDoc snapshot.memoryActiveBytes),
    (str "inactive_bytes", uintDoc snapshot.memoryInactiveBytes),
    (str "compressed_bytes", uintDoc snapshot.memoryCompressedBytes),
    (str "purgeable_bytes", uintDoc snapshot.memoryPurgeableBytes),
    (str "speculative_bytes", uintDoc snapshot.memorySpeculativeBytes),
    (str "swap_total_bytes", uintDoc snapshot.swapTotalBytes),
    (str "swap_used_bytes", uintDoc snapshot.swapUsedBytes),
    (str "swapins_bytes_per_sec", uintDoc snapshot.swapinsBytesPerSec),
    (str "swapouts_bytes_per_sec", uintDoc snapshot.swapoutsBytesPerSec),
    (str "pressure_level", .str (memoryPressureLabel snapshot.memoryPressure)),
    (str "pressure_status", statusDoc snapshot.memoryPressureStatus)]

def gpuDoc (snapshot : SystemSnapshot) : Doc :=
  .obj [(str "utilization_percent", doubleDoc snapshot.gpuUtilizationPercent),
    (str "memory_used_bytes", uintDoc snapshot.gpuMemoryUsedBytes),
    (str "memory_total_bytes", uintDoc snapshot.gpuMemoryTotalBytes),
    (str "power_watts", doubleDoc snapshot.gpuPowerWatts),
    (str "frequency_mhz", intDoc snapshot.gpuFrequencyMhz),
    (str "active_pids", .arr (snapshot.gpuActivePids.map intDoc)),
    (str "status", statusDoc snapshot.capabilities.gpuTotalStatus)]

def ioDoc (snapshot : SystemSnapshot) : Doc :=
  .obj [(str "disk", .obj [(str "read_bytes_per_sec", uintDoc snapshot.diskIo.readBytesPerSec),
      (str "write_bytes_per_sec", uintDoc snapshot.diskIo.writeBytesPerSec),
      (str "status", statusDoc snapshot.diskIo.status)]),
    (str "paging", .obj [(str "pageins_bytes_per_sec", uintDoc snapshot.pagingIo.pageinsBytesPerSec),
      (str "pageouts_bytes_per_sec", uintDoc snapshot.pagingIo.pageoutsBytesPerSec),
      (str "swapins_bytes_per_sec", uintDoc snapshot.pagingIo.swapinsBytesPerSec),
      (str "swapouts_bytes_per_sec", uintDoc snapshot.pagingIo.swapoutsBytesPerSec),
      (str "status", statusDoc snapshot.pagingIo.status)]),
    (str "network", .obj [(str "rx_bytes_per_sec", uintDoc snapshot.networkIo.rxBytesPerSec),
      (str "tx_bytes_per_sec", uintDoc snapshot.networkIo.txBytesPerSec),
      (str "status", statusDoc snapshot.networkIo.status)])]

def memoryRiskDoc (risk : MemoryRiskSnapshot) : Doc :=
  .obj [(str "level", .str (memoryRiskName risk.level)),
    (str "reason", .str risk.reason),
    (str "estimated_headroom_bytes", uintDoc risk.estimatedHeadroomBytes),
    (str "reclaimable_bytes", uintDoc risk.reclaimableBytes),
    (str "compressed_bytes", uintDoc risk.compressedBytes),
    (str "swap_used_bytes", uintDoc risk.swapUsedBytes),
    (str "swap_rate_bytes_per_sec", uintDoc risk.swapRateBytesPerSec)]

def processRefDoc (process : WorkloadProcessRef) : Doc :=
  .obj [(str "pid", intDoc process.pid),
    (str "ppid", intDoc process.parentPid),
    (str "role", .str (workloadRoleName process.role)),
    (str "detection_confidence", doubleDoc process.detectionConfidence),
    (str "command", .str process.command)]

def workloadDoc (workload : WorkloadSnapshot) : Doc :=
  .obj [(str "id", .str workload.id),
    (str "name", .str workload.name),
    (str "kind", .str (workloadKindName workload.kind)),
    (str "kind_label", .str (workloadKindLabel workload.kind)),
    (str "model_hint", .str workload.modelHint),
    (str "cpu_percent", doubleDoc workload.cpuPercent),
    (str "memory_percent", doubleDoc workload.memoryPercent),
    (str "resident_bytes", uintDoc workload.residentBytes),
    (str "virtual_bytes", uintDoc workload.virtualBytes),
    (str "gpu_active", .bool workload.gpuActive),
    (str "core_mix", .str workload.coreMix),
    (str "io", .str workload.io),
    (str "power", .str workload.power),
    (str "detection_status", statusDoc workload.detectionStatus),
    (str "processes", .arr (workload.processes.map processRefDoc))]

def processDoc (process : ProcessSnapshot) : Doc :=
  .obj [(str "pid", intDoc process.pid),
    (str "ppid", intDoc process.parentPid),
    (str "name", .str process.name),
    (str "command", .str process.command),
    (str "user", .str process.user),
    (str "state", .str [process.state]),
    (str "cpu_percent", doubleDoc process.cpuPercent),
    (str "memory_percent", doubleDoc process.memoryPercent),
    (str "resident_bytes", uintDoc process.residentBytes),
    (str "virtual_bytes", uintDoc process.virtualBytes),
    (str "gpu_active", .bool process.gpuActive),
    (str "core_mix", .str process.coreMix),
    (str "io", .str process.io),
    (str "power", .str process.power)]

def hostDoc (snapshot : SystemSnapshot) : Doc :=
  .obj [(str "macos_version", .str snapshot.macosVersion),
    (str "soc_name", .str snapshot.socName),
    (str "cpu_core_count", intDoc snapshot.cpuCoreCount),
    (str "gpu_core_count", intDoc snapshot.gpuCoreCount),
    (str "memory_total_bytes", uintDoc snapshot.memoryTotalBytes)]

def capabilitiesDoc (capabilities : CapabilitySnapshot) : Doc :=
  .obj [(str "root_mode", .bool capabilities.rootMode),
    (str "gpu_total_status", statusDoc capabilities.gpuTotalStatus),
    (str "gpu_process_status", statusDoc capabilities.gpuPerProcessStatus),
    (str "thermal_status", statusDoc capabilities.thermalStatus),
    (str "ane_status", statusDoc capabilities.aneStatus),
    (str "root_process_status", statusDoc capabilities.rootProcessStatus)]

def aneDoc (snapshot : SystemSnapshot) : Doc :=
  .obj [(str "summary", .str snapshot.ane),
    (str "status", statusDoc snapshot.capabilities.aneStatus)]

/-- The members that only the second schema version has, at the front and at the back. -/
def modelMembers (options : SnapshotJsonOptions) (members : List (Text × Doc)) : List (Text × Doc) :=
  if options.includeV2Models then members else []

/-- The intended document. -/
def snapshotDoc (snapshot : SystemSnapshot) (options : SnapshotJsonOptions) : Doc :=
  .obj ([(str "schema_version", intDoc (if options.includeV2Models then 2 else 1))] ++
    modelMembers options [(str "view_profile", .str (viewProfileName options.viewProfile))] ++
    [(str "timestamp_unix_ms", uintDoc snapshot.timestampUnixMs),
      (str "sample_interval_ms", uintDoc snapshot.sampleIntervalMs),
      (str "host", hostDoc snapshot),
      (str "capabilities", capabilitiesDoc snapshot.capabilities),
      (str "cpu", cpuDoc snapshot),
      (str "memory", memoryDoc snapshot),
      (str "gpu", gpuDoc snapshot),
      (str "ane", aneDoc snapshot),
      (str "io", ioDoc snapshot),
      (str "processes", .arr (snapshot.processes.map processDoc))] ++
    modelMembers options [(str "workloads", .arr (options.workloads.map workloadDoc)),
      (str "memory_risk", memoryRiskDoc options.memoryRisk)])

/-! ## The calls write the documents -/

@[simp] theorem writeStatus_eq (json : JsonWriter) (status : MetricStatus) :
    writeStatus json status = json.emit (statusDoc status) := by
  simp [writeStatus, statusDoc, -str_eq]

theorem writeCore_eq (json : JsonWriter) (core : CpuCoreSnapshot) :
    writeCore json core = json.emit (coreDoc core) := by
  simp [writeCore, coreDoc, -str_eq]

theorem writeCluster_eq (json : JsonWriter) (cluster : CpuClusterSnapshot) :
    writeCluster json cluster = json.emit (clusterDoc cluster) := by
  simp [writeCluster, clusterDoc, -str_eq]

theorem writeProcessRef_eq (json : JsonWriter) (process : WorkloadProcessRef) :
    writeProcessRef json process = json.emit (processRefDoc process) := by
  simp [writeProcessRef, processRefDoc, -str_eq]

theorem writeWorkload_eq (json : JsonWriter) (workload : WorkloadSnapshot) :
    writeWorkload json workload = json.emit (workloadDoc workload) := by
  simp [writeWorkload, workloadDoc, JsonWriter.foldl_inArray _ writeProcessRef_eq, -str_eq]

theorem writeProcess_eq (json : JsonWriter) (process : ProcessSnapshot) :
    writeProcess json process = json.emit (processDoc process) := by
  simp [writeProcess, processDoc, -str_eq]

section Members
variable (json : JsonWriter) (ms : List (Text × Doc)) (snapshot : SystemSnapshot)

theorem writeCpu_eq : writeCpu (json.inObject ms) snapshot =
    json.inObject (ms ++ [(str "cpu", cpuDoc snapshot)]) := by
  simp [writeCpu, cpuDoc, JsonWriter.foldl_inArray _ writeCore_eq,
    JsonWriter.foldl_inArray _ writeCluster_eq, -str_eq]

theorem writeMemory_eq : writeMemory (json.inObject ms) snapshot =
    json.inObject (ms ++ [(str "memory", memoryDoc snapshot)]) := by
  simp [writeMemory, memoryDoc, -str_eq]

theorem writeGpu_eq : writeGpu (json.inObject ms) snapshot =
    json.inObject (ms ++ [(str "gpu", gpuDoc snapshot)]) := by
  simp [writeGpu, gpuDoc, JsonWriter.foldl_inArray _ JsonWriter.intValue_eq, -str_eq]

theorem writeIo_eq : writeIo (json.inObject ms) snapshot =
    json.inObject (ms ++ [(str "io", ioDoc snapshot)]) := by
  simp [writeIo, ioDoc, -str_eq]

theorem writeMemoryRisk_eq (risk : MemoryRiskSnapshot) : writeMemoryRisk (json.inObject ms) risk =
    json.inObject (ms ++ [(str "memory_risk", memoryRiskDoc risk)]) := by
  simp [writeMemoryRisk, memoryRiskDoc, -str_eq]

theorem writeWorkloads_eq (workloads : List WorkloadSnapshot) :
    writeWorkloads (json.inObject ms) workloads =
      json.inObject (ms ++ [(str "workloads", .arr (workloads.map workloadDoc))]) := by
  simp [writeWorkloads, JsonWriter.foldl_inArray _ writeWorkload_eq, -str_eq]

end Members

/-- The calls of `snapshot_to_json` write the intended document. -/
theorem writeSnapshot_eq (snapshot : SystemSnapshot) (options : SnapshotJsonOptions) :
    writeSnapshot snapshot options = ({} : JsonWriter).emit (snapshotDoc snapshot options) := by
  cases h : options.includeV2Models <;>
    simp [writeSnapshot, snapshotDoc, modelMembers, hostDoc, capabilitiesDoc, aneDoc, h, writeCpu_eq,
      writeMemory_eq, writeGpu_eq, writeIo_eq, writeMemoryRisk_eq, writeWorkloads_eq,
      JsonWriter.foldl_inArray _ writeProcess_eq, -str_eq]

theorem snapshotToJson_eq (snapshot : SystemSnapshot) (options : SnapshotJsonOptions) :
    snapshotToJson snapshot options = (snapshotDoc snapshot options).render escapeByte := by
  rw [snapshotToJson, writeSnapshot_eq]
  rfl

/-! ## The keys -/

@[simp] theorem statusDoc_keysOnce (status : MetricStatus) : (statusDoc status).value.KeysOnce :=
  Doc.keysOnce_obj (by simp [str_inj, -str_eq]) (by simp)

theorem coreDoc_keysOnce (core : CpuCoreSnapshot) : (coreDoc core).value.KeysOnce :=
  Doc.keysOnce_obj (by simp [str_inj, -str_eq]) (by simp)

theorem clusterDoc_keysOnce (cluster : CpuClusterSnapshot) : (clusterDoc cluster).value.KeysOnce :=
  Doc.keysOnce_obj (by simp [str_inj, -str_eq]) (by simp)

theorem processRefDoc_keysOnce (process : WorkloadProcessRef) :
    (processRefDoc process).value.KeysOnce :=
  Doc.keysOnce_obj (by simp [str_inj, -str_eq]) (by simp)

theorem workloadDoc_keysOnce (workload : WorkloadSnapshot) : (workloadDoc workload).value.KeysOnce :=
  Doc.keysOnce_obj (by simp [str_inj, -str_eq]) (by simp [Doc.keysOnce_map processRefDoc_keysOnce])

theorem processDoc_keysOnce (process : ProcessSnapshot) : (processDoc process).value.KeysOnce :=
  Doc.keysOnce_obj (by simp [str_inj, -str_eq]) (by simp)

section Keys
variable (snapshot : SystemSnapshot)

theorem cpuDoc_keysOnce : (cpuDoc snapshot).value.KeysOnce :=
  Doc.keysOnce_obj (by simp [str_inj, -str_eq])
    (by simp [Doc.keysOnce_map coreDoc_keysOnce, Doc.keysOnce_map clusterDoc_keysOnce])

theorem memoryDoc_keysOnce : (memoryDoc snapshot).value.KeysOnce :=
  Doc.keysOnce_obj (by simp [str_inj, -str_eq]) (by simp)

theorem gpuDoc_keysOnce : (gpuDoc snapshot).value.KeysOnce :=
  Doc.keysOnce_obj (by simp [str_inj, -str_eq]) (by simp [Doc.keysOnce_map (f := intDoc) fun n => .num n])

theorem ioDoc_keysOnce : (ioDoc snapshot).value.KeysOnce := by
  refine Doc.keysOnce_obj (by simp [str_inj, -str_eq]) ?_
  simp only [List.forall_mem_cons, List.not_mem_nil, IsEmpty.forall_iff, implies_true, and_true]
  refine ⟨?_, ?_, ?_⟩
  all_goals exact Doc.keysOnce_obj (by simp [str_inj, -str_eq]) (by simp)

theorem hostDoc_keysOnce : (hostDoc snapshot).value.KeysOnce :=
  Doc.keysOnce_obj (by simp [str_inj, -str_eq]) (by simp)

theorem aneDoc_keysOnce : (aneDoc snapshot).value.KeysOnce :=
  Doc.keysOnce_obj (by simp [str_inj, -str_eq]) (by simp)

theorem capabilitiesDoc_keysOnce (capabilities : CapabilitySnapshot) :
    (capabilitiesDoc capabilities).value.KeysOnce :=
  Doc.keysOnce_obj (by simp [str_inj, -str_eq]) (by simp)

theorem memoryRiskDoc_keysOnce (risk : MemoryRiskSnapshot) : (memoryRiskDoc risk).value.KeysOnce :=
  Doc.keysOnce_obj (by simp [str_inj, -str_eq]) (by simp)

theorem snapshotDoc_keysOnce (options : SnapshotJsonOptions) :
    (snapshotDoc snapshot options).value.KeysOnce := by
  have hworkloads := Doc.keysOnce_map workloadDoc_keysOnce options.workloads
  have hprocesses := Doc.keysOnce_map processDoc_keysOnce snapshot.processes
  unfold snapshotDoc modelMembers
  cases options.includeV2Models <;>
    exact Doc.keysOnce_obj (by simp [str_inj, -str_eq])
      (by simp [hworkloads, hprocesses, cpuDoc_keysOnce, memoryDoc_keysOnce, gpuDoc_keysOnce,
        ioDoc_keysOnce, hostDoc_keysOnce, aneDoc_keysOnce, capabilitiesDoc_keysOnce,
        memoryRiskDoc_keysOnce])

end Keys

/-! ## The text -/

/-- An RFC 8259 reader accepts the text as one object, with the intended tree. -/
theorem parse_snapshotToJson (snapshot : SystemSnapshot) (options : SnapshotJsonOptions) :
    parse (snapshotToJson snapshot options) = some (snapshotDoc snapshot options).value ∧
      (∃ members, (snapshotDoc snapshot options).value = .obj members) ∧
      (snapshotDoc snapshot options).value.KeysOnce := by
  refine ⟨?_, ⟨_, rfl⟩, snapshotDoc_keysOnce snapshot options⟩
  rw [snapshotToJson_eq]
  exact parse_render escapeByte_escaping _

end Mtop
