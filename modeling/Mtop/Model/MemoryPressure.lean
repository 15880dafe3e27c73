import Mtop.Snapshot
import Mathlib.Data.Rat.Floor

/-! `derive_memory_pressure` of `metrics.cpp`, with the ratios as exact rationals. -/
namespace Mtop
set_option autoImplicit false

def kMiB : UInt64 := 1024 * 1024
def kGiB : UInt64 := 1024 * 1024 * 1024

def fractionOfTotal (bytes total : UInt64) : ℚ :=
  if total = 0 then 0 else (bytes.toNat : ℚ) / (total.toNat : ℚ)

def severeSwap (snapshot : SystemSnapshot) : Bool :=
  snapshot.swapUsedBytes ≥ max (2 * kGiB) (snapshot.memoryTotalBytes / 20)

def moderateSwap (snapshot : SystemSnapshot) : Bool :=
  snapshot.swapUsedBytes ≥ max (512 * kMiB) (snapshot.memoryTotalBytes / 100)

/-- Much is compressed, little can be reclaimed, and much is in use; the bounds are in percent. -/
def compression (snapshot : SystemSnapshot) (compressed reclaimable active : ℚ) : Bool :=
  let total := snapshot.memoryTotalBytes
  let reclaimableBytes := snapshot.memoryInactiveBytes + snapshot.memorySpeculativeBytes +
    snapshot.memoryPurgeableBytes
  compressed / 100 ≤ fractionOfTotal snapshot.memoryCompressedBytes total &&
    fractionOfTotal reclaimableBytes total ≤ reclaimable / 100 &&
    active / 100 ≤ fractionOfTotal (snapshot.memoryActiveBytes + snapshot.memoryWiredBytes) total

def severeCompression (snapshot : SystemSnapshot) : Bool := compression snapshot 20 8 50

def moderateCompression (snapshot : SystemSnapshot) : Bool := compression snapshot 10 16 45

def deriveMemoryPressure (snapshot : SystemSnapshot) : MemoryPressureLevel :=
  if snapshot.memoryTotalBytes = 0 then .unknown
  else if severeSwap snapshot || severeCompression snapshot then .critical
  else if moderateSwap snapshot || moderateCompression snapshot then .warn
  else .normal

/-- The order of the levels. -/
def MemoryPressureLevel.rank : MemoryPressureLevel → ℕ
  | .unknown => 0
  | .normal => 1
  | .warn => 2
  | .critical => 3

end Mtop
