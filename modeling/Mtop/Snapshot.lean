import Mtop.Library.Double

/-! One sample of the system, as `snapshot.hpp` lays it out. Counters are 64-bit, ids are ints,
percentages and watts are doubles. -/
namespace Mtop
open Cxx
set_option autoImplicit false

inductive MemoryPressureLevel where
  | unknown | normal | warn | critical
  deriving DecidableEq, Inhabited

inductive MetricAvailability where
  | available | requiresRoot | unsupportedHardware | unsupportedOS | permissionDenied
  | waiting | stale | parseFailed | unavailable
  deriving DecidableEq, Inhabited

structure MetricStatus where
  availability : MetricAvailability := .unavailable
  reason : Text := []
  ageMs : UInt64 := 0
  deriving DecidableEq, Inhabited

structure CpuClusterSnapshot where
  name : Text := str "Unknown"
  label : Char := 'C'
  coreCount : ℤ := 0
  utilizationPercent : Double := 0
  frequencyMhz : ℤ := 0
  powerWatts : Double := 0
  frequencyAvailable : Bool := false
  powerAvailable : Bool := false
  deriving DecidableEq, Inhabited

structure DiskIoSnapshot where
  available : Bool := false
  readBytesPerSec : UInt64 := 0
  writeBytesPerSec : UInt64 := 0
  status : MetricStatus := {}
  deriving DecidableEq, Inhabited

structure PagingIoSnapshot where
  available : Bool := false
  pageinsBytesPerSec : UInt64 := 0
  pageoutsBytesPerSec : UInt64 := 0
  swapinsBytesPerSec : UInt64 := 0
  swapoutsBytesPerSec : UInt64 := 0
  status : MetricStatus := {}
  deriving DecidableEq, Inhabited

structure NetworkIoSnapshot where
  available : Bool := false
  rxBytesPerSec : UInt64 := 0
  txBytesPerSec : UInt64 := 0
  status : MetricStatus := {}
  deriving DecidableEq, Inhabited

structure CpuCoreSnapshot where
  cpuId : ℤ := -1
  clusterType : Text := str "Unknown"
  label : Text := str "C?"
  utilizationPercent : Double := 0
  deriving DecidableEq, Inhabited

structure ProcessSnapshot where
  pid : ℤ := -1
  parentPid : ℤ := -1
  name : Text := str "unknown"
  command : Text := str "unknown"
  user : Text := str "unknown"
  cpuPercent : Double := 0
  memoryPercent : Double := 0
  residentBytes : UInt64 := 0
  virtualBytes : UInt64 := 0
  totalCpuTimeNs : UInt64 := 0
  state : Char := '?'
  gpuActive : Bool := false
  coreMix : Text := str "-"
  io : Text := str "-"
  power : Text := str "-"
  deriving DecidableEq, Inhabited

structure CapabilitySnapshot where
  gpuTotalAvailable : Bool := false
  gpuPerProcessAvailable : Bool := false
  thermalAvailable : Bool := false
  aneAvailable : Bool := false
  rootMode : Bool := false
  gpuTotalStatus : MetricStatus := {}
  gpuPerProcessStatus : MetricStatus := {}
  thermalStatus : MetricStatus := {}
  aneStatus : MetricStatus := {}
  rootProcessStatus : MetricStatus := {}
  deriving DecidableEq, Inhabited

structure SystemSnapshot where
  timestampUnixMs : UInt64 := 0
  sampleIntervalMs : UInt64 := 0
  macosVersion : Text := str "macOS"
  socName : Text := str "Apple Silicon"
  cpuCoreCount : ℤ := 0
  gpuCoreCount : ℤ := 0
  memoryUsedBytes : UInt64 := 0
  memoryTotalBytes : UInt64 := 0
  memoryWiredBytes : UInt64 := 0
  memorySpeculativeBytes : UInt64 := 0
  memoryActiveBytes : UInt64 := 0
  memoryPurgeableBytes : UInt64 := 0
  memoryCompressedBytes : UInt64 := 0
  memoryInactiveBytes : UInt64 := 0
  memoryPressure : MemoryPressureLevel := .unknown
  memoryPressureStatus : MetricStatus := {}
  swapUsedBytes : UInt64 := 0
  swapTotalBytes : UInt64 := 0
  swapinsBytesPerSec : UInt64 := 0
  swapoutsBytesPerSec : UInt64 := 0
  capabilities : CapabilitySnapshot := {}
  thermal : Text := str "N/A"
  ane : Text := str "N/A"
  gpuUtilizationPercent : Double := 0
  gpuPowerWatts : Double := 0
  systemPowerWatts : Double := 0
  gpuFrequencyMhz : ℤ := 0
  gpuMemoryUsedBytes : UInt64 := 0
  gpuMemoryTotalBytes : UInt64 := 0
  gpuActivePids : List ℤ := []
  diskIo : DiskIoSnapshot := {}
  pagingIo : PagingIoSnapshot := {}
  networkIo : NetworkIoSnapshot := {}
  cpuCores : List CpuCoreSnapshot := []
  cpuClusters : List CpuClusterSnapshot := []
  processes : List ProcessSnapshot := []
  deriving DecidableEq, Inhabited

end Mtop
