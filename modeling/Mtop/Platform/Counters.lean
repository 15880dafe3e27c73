import Mtop.Library.CxxString
import Mtop.Library.CxxRound

/-! The cumulative counters that the Darwin sampler reads, and the rate between two readings. Time
is the steady clock in nanoseconds; 0 is the time point that was never set. -/
namespace Mtop
open Cxx
set_option autoImplicit false

/-- A pair of counters or rates: in and out, read and written, or received and sent. -/
structure Traffic where
  inBytes : UInt64 := 0
  outBytes : UInt64 := 0
  deriving DecidableEq

/-! ## Virtual memory -/

/-- The fields of `vm_statistics64` that the sampler reads, in pages. -/
structure VmStatistics where
  freeCount : UInt32 := 0
  activeCount : UInt32 := 0
  inactiveCount : UInt32 := 0
  wireCount : UInt32 := 0
  speculativeCount : UInt32 := 0
  purgeableCount : UInt32 := 0
  compressorPageCount : UInt32 := 0
  pageins : UInt64 := 0
  pageouts : UInt64 := 0
  swapins : UInt64 := 0
  swapouts : UInt64 := 0

def VmStatistics.swapTraffic (vmStat : VmStatistics) (pageSize : UInt64) : Traffic :=
  ⟨vmStat.swapins * pageSize, vmStat.swapouts * pageSize⟩

def VmStatistics.pageTraffic (vmStat : VmStatistics) (pageSize : UInt64) : Traffic :=
  ⟨vmStat.pageins * pageSize, vmStat.pageouts * pageSize⟩

/-! ## Block storage -/

/-- The two numbers in a driver's statistics; an absent one counts as 0. -/
structure DriverStatistics where
  bytesRead : Option UInt64
  bytesWritten : Option UInt64

/-- What the registry answers: an entry without a statistics dictionary is `none`. -/
inductive DriverListing where
  | matchingFailed
  | servicesFailed
  | found (drivers : List (Option DriverStatistics))

structure HostDiskCounters where
  readBytes : UInt64 := 0
  writeBytes : UInt64 := 0
  available : Bool := false
  failureReason : Text := []

def addDriver (counters : HostDiskCounters) : Option DriverStatistics → HostDiskCounters
  | none => counters
  | some stats =>
    let read := stats.bytesRead.getD 0
    let written := stats.bytesWritten.getD 0
    if read > 0 ∨ written > 0 then
      { counters with
        readBytes := counters.readBytes + read
        writeBytes := counters.writeBytes + written
        available := true }
    else counters

/-- There is always a value; a failed reading is all zeros. -/
def sampleHostDiskCounters : DriverListing → HostDiskCounters
  | .matchingFailed => { failureReason := str "IOServiceMatching failed" }
  | .servicesFailed => { failureReason := str "IOServiceGetMatchingServices failed" }
  | .found drivers =>
    let counters := drivers.foldl addDriver {}
    if counters.available then counters
    else { counters with failureReason := str "no block storage counters" }

def HostDiskCounters.traffic (counters : HostDiskCounters) : Traffic :=
  ⟨counters.readBytes, counters.writeBytes⟩

/-! ## Network -/

/-- An entry of `getifaddrs`. -/
structure Interface where
  name : Option Text
  data : Option Traffic
  up : Bool
  loopback : Bool

def Interface.counted (current : Interface) : Bool :=
  current.name.isSome && current.data.isSome && current.up && !current.loopback

structure HostNetworkCounters where
  rxBytes : UInt64 := 0
  txBytes : UInt64 := 0
  available : Bool := false

def addInterface (counters : HostNetworkCounters) (current : Interface) : HostNetworkCounters :=
  match current.data with
  | none => counters
  | some data =>
    if current.counted then
      { rxBytes := counters.rxBytes + data.inBytes
        txBytes := counters.txBytes + data.outBytes
        available := true }
    else counters

def sampleHostNetworkCounters (interfaces : Option (List Interface)) :
    Option HostNetworkCounters :=
  match interfaces with
  | none => none
  | some interfaces =>
    let counters := interfaces.foldl addInterface {}
    if counters.available then some counters else none

def HostNetworkCounters.traffic (counters : HostNetworkCounters) : Traffic :=
  ⟨counters.rxBytes, counters.txBytes⟩

/-! ## Rates -/

def elapsedSeconds (last now : ℕ) : ℚ :=
  if last = 0 then 0 else ((now : ℚ) - (last : ℚ)) / 1000000000

/-- `static_cast<std::uint64_t>(std::llround(static_cast<double>(bytes) / seconds))`. -/
def ratePerSecond (bytes : ℚ) (seconds : ℚ) : UInt64 := UInt64.ofInt (llround (bytes / seconds))

/-- The rates since the remembered counters: none without them, without time in between, or when a
counter went back. -/
def counterRates (seconds : ℚ) (previous : Option Traffic) (counters : Traffic) :
    Option Traffic :=
  match previous with
  | none => none
  | some previous =>
    if seconds > 0 ∧ counters.inBytes ≥ previous.inBytes ∧ counters.outBytes ≥ previous.outBytes then
      some
        ⟨ratePerSecond (counters.inBytes - previous.inBytes).toNat seconds,
          ratePerSecond (counters.outBytes - previous.outBytes).toNat seconds⟩
    else none

end Mtop
