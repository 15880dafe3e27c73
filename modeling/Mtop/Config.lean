import Mtop.Ui.Labels

/-! The settings of `config.hpp`, with their defaults. -/
namespace Mtop
open Cxx
set_option autoImplicit false

inductive SortMode where
  | pid | cpu | mem | time | name | gpuActive | io | power
  deriving DecidableEq, Inhabited

structure AppConfig where
  theme : Text := str "apple"
  refreshMs : ℤ := 1000
  processLimit : ℤ := 12
  demoMode : Bool := false
  rootSampleMs : ℤ := 1000
  snapshotIntervalMs : ℤ := 1000
  showCachedMemory : Bool := false
  defaultView : ViewMode := .overview
  sort : SortMode := .cpu
  sortDirection : ℤ := -1
  viewProfile : ViewProfile := .alpha
  deriving DecidableEq

end Mtop
