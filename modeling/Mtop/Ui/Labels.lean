import Mtop.Snapshot

/-! `view_profile.cpp` and the labels of `ui_support.cpp`. -/
namespace Mtop
open Cxx
set_option autoImplicit false

inductive ViewProfile where
  | alpha | beta
  deriving DecidableEq, Inhabited

inductive ViewMode where
  | overview | systemIo | gpuActive
  deriving DecidableEq, Inhabited

def viewProfileName : ViewProfile → Text
  | .alpha => str "alpha"
  | .beta => str "beta"

def viewModeLabel : ViewMode → Text
  | .overview => str "Overview"
  | .systemIo => str "System I/O"
  | .gpuActive => str "GPU Active"

def metricAvailabilityLabel : MetricAvailability → Text
  | .available => str "ok"
  | .requiresRoot => str "root"
  | .unsupportedHardware => str "hw"
  | .unsupportedOS => str "os"
  | .permissionDenied => str "denied"
  | .waiting => str "wait"
  | .stale => str "stale"
  | .parseFailed => str "parse"
  | .unavailable => str "n/a"

def viewModes : List ViewMode := [.overview, .systemIo, .gpuActive]

/-- `kModes[(index + delta) mod 3]`, with the sign of C++ `%` repaired. -/
def cycleViewMode (mode : ViewMode) (delta : ℤ) : ViewMode :=
  let index := Int.tmod (viewModes.idxOf mode + delta) viewModes.length
  let index := if index < 0 then index + viewModes.length else index
  viewModes[index.toNat]?.getD .overview

end Mtop
