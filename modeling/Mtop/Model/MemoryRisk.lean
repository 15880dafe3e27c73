import Mtop.Model.Workload

/-! `memory_risk_model.cpp`: a risk level from one snapshot, the recent ones and the workloads.
All byte counts wrap at 64 bits. -/
namespace Mtop
open Cxx
set_option autoImplicit false

inductive MemoryRiskLevel where
  | unknown | ok | watch | warn | critical
  deriving DecidableEq, Inhabited

structure MemoryRiskSnapshot where
  level : MemoryRiskLevel := .unknown
  reason : Text := []
  estimatedHeadroomBytes : UInt64 := 0
  reclaimableBytes : UInt64 := 0
  compressedBytes : UInt64 := 0
  swapUsedBytes : UInt64 := 0
  swapRateBytesPerSec : UInt64 := 0
  deriving DecidableEq, Inhabited

def memoryRiskName : MemoryRiskLevel → Text
  | .unknown => str "unknown"
  | .ok => str "ok"
  | .watch => str "watch"
  | .warn => str "warn"
  | .critical => str "critical"

def memoryPressureLabel : MemoryPressureLevel → Text
  | .unknown => str "Unknown"
  | .normal => str "Normal"
  | .warn => str "Warn"
  | .critical => str "Critical"

def percentOf (value percent : UInt64) : UInt64 := value / 100 * percent

def workloadRssTotal (workloads : List WorkloadSnapshot) : UInt64 :=
  workloads.foldl (fun total workload => total + workload.residentBytes) 0

def compressedRising (snapshot : SystemSnapshot) : List SystemSnapshot → Bool
  | [] => snapshot.memoryCompressedBytes > 0
  | first :: _ => snapshot.memoryCompressedBytes > first.memoryCompressedBytes

def swapUsedIncreasing (snapshot : SystemSnapshot) : List SystemSnapshot → Bool
  | [] => snapshot.swapUsedBytes > 0
  | first :: _ => snapshot.swapUsedBytes > first.swapUsedBytes

/-- The chain of conditions once the headroom is known. -/
def riskLevel (snapshot : SystemSnapshot) (recentHistory : List SystemSnapshot)
    (workloads : List WorkloadSnapshot) (risk : MemoryRiskSnapshot) : MemoryRiskLevel × Text :=
  let headroom5 := percentOf snapshot.memoryTotalBytes 5
  let headroom10 := percentOf snapshot.memoryTotalBytes 10
  let headroom20 := percentOf snapshot.memoryTotalBytes 20
  let highSwapout := decide (snapshot.swapoutsBytesPerSec ≥ (16 : UInt64) <<< 20)
  let anySwapRate := decide (risk.swapRateBytesPerSec > 0)
  if snapshot.memoryPressure = .critical then (.critical, str "memory pressure critical")
  else if highSwapout then (.critical, str "swapout rate rising")
  else if risk.estimatedHeadroomBytes < headroom5 ∧ compressedRising snapshot recentHistory = true then
    (.critical, str "estimated headroom below 5% with compression rising")
  else if snapshot.memoryPressure = .warn then (.warn, str "memory pressure warn")
  else if swapUsedIncreasing snapshot recentHistory = true ∧ anySwapRate = true then
    (.warn, str "swap used increasing with active paging")
  else if risk.estimatedHeadroomBytes < headroom10 then
    (.warn, str "estimated headroom below 10%")
  else if risk.compressedBytes > headroom10 then (.watch, str "compressed memory above 10%")
  else if workloadRssTotal workloads > snapshot.memoryTotalBytes / 2 then
    (.watch, str "workload RSS above 50% of memory")
  else if risk.estimatedHeadroomBytes < headroom20 then
    (.watch, str "estimated headroom below 20%")
  else (.ok, str "memory headroom healthy")

def deriveMemoryRisk (snapshot : SystemSnapshot) (recentHistory : List SystemSnapshot)
    (workloads : List WorkloadSnapshot) : MemoryRiskSnapshot :=
  let risk : MemoryRiskSnapshot :=
    { reclaimableBytes := snapshot.memoryInactiveBytes + snapshot.memorySpeculativeBytes +
        snapshot.memoryPurgeableBytes
      compressedBytes := snapshot.memoryCompressedBytes
      swapUsedBytes := snapshot.swapUsedBytes
      swapRateBytesPerSec := snapshot.swapinsBytesPerSec + snapshot.swapoutsBytesPerSec }
  if snapshot.memoryTotalBytes = 0 ∨
      (snapshot.memoryWiredBytes = 0 ∧ snapshot.memoryActiveBytes = 0 ∧
        snapshot.memoryUsedBytes = 0) then
    { risk with level := .unknown, reason := str "memory totals unavailable" }
  else
    let reclaimCredit := min risk.reclaimableBytes (percentOf snapshot.memoryTotalBytes 20)
    let strictUsed := snapshot.memoryWiredBytes + snapshot.memoryActiveBytes +
      snapshot.memoryCompressedBytes
    let risk :=
      { risk with
        estimatedHeadroomBytes :=
          if snapshot.memoryTotalBytes > strictUsed then
            snapshot.memoryTotalBytes - strictUsed + reclaimCredit
          else reclaimCredit }
    let verdict := riskLevel snapshot recentHistory workloads risk
    { risk with level := verdict.1, reason := verdict.2 }

end Mtop
