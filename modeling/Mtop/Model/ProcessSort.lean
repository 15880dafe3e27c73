import Mtop.Config
import Mtop.Library.DoubleText

/-! `process_sort.cpp`: the comparator of the process table. -/
namespace Mtop
open Cxx
set_option autoImplicit false

/-- The placeholders of the extension columns. -/
def isMissingValue (value : Text) : Bool :=
  value = [] || value = str "-" || value = str "root" || value = str "wait" ||
    value = str "stale" || value = str "parse" || value = str "denied" || value = str "n/a"

def scaleOf (suffix : Char) : Double :=
  if suffix.toLower = 'k' then Double.ofNat 1024
  else if suffix.toLower = 'm' then Double.ofNat (1024 ^ 2)
  else if suffix.toLower = 'g' then Double.ofNat (1024 ^ 3)
  else if suffix.toLower = 't' then Double.ofNat (1024 ^ 4)
  else 1

def parseScaledNumber (text : Text) : Double :=
  if text = [] then 0
  else
    let (value, rest) := strtod text
    value.mulRounded (match rest with
      | suffix :: _ => scaleOf suffix
      | [] => 1)

/-- Missing values go last in either direction. -/
def missingSortScore (direction : ℤ) : Double := .inf (direction ≤ 0)

def finiteScore (score : Double) (direction : ℤ) : Double :=
  if score.isFinite then score else missingSortScore direction

def ioScore (value : Text) (direction : ℤ) : Double :=
  if isMissingValue value then missingSortScore direction
  else match value.dropWhile (· ≠ '/') with
    | [] => finiteScore (parseScaledNumber value) direction
    | _ :: written =>
      finiteScore ((parseScaledNumber (value.takeWhile (· ≠ '/'))).addRounded
        (parseScaledNumber written)) direction

def powerScore (value : Text) (direction : ℤ) : Double :=
  if isMissingValue value then missingSortScore direction
  else finiteScore (parseScaledNumber value) direction

/-- `if (lhs != rhs) return compare_value(lhs, rhs, direction);`, else what follows. -/
def compareOr {α : Type} (eq less : α → α → Bool) (lhs rhs : α) (direction : ℤ)
    (otherwise : Bool) : Bool :=
  if eq lhs rhs then otherwise
  else if direction > 0 then less lhs rhs else less rhs lhs

def processSortLess (lhs rhs : ProcessSnapshot) (mode : SortMode) (direction : ℤ) : Bool :=
  let byPid := decide (lhs.pid < rhs.pid)
  match mode with
  | .pid => compareOr (· == ·) (· < ·) lhs.pid rhs.pid direction byPid
  | .cpu => compareOr Double.eq Double.lt lhs.cpuPercent rhs.cpuPercent direction byPid
  | .mem => compareOr Double.eq Double.lt lhs.memoryPercent rhs.memoryPercent direction byPid
  | .time => compareOr (· == ·) (· < ·) lhs.totalCpuTimeNs rhs.totalCpuTimeNs direction byPid
  | .name => compareOr (· == ·) (· < ·) lhs.command rhs.command direction byPid
  | .gpuActive => compareOr (· == ·) (fun a b => !a && b) lhs.gpuActive rhs.gpuActive direction byPid
  | .io => compareOr Double.eq Double.lt (ioScore lhs.io direction) (ioScore rhs.io direction)
      direction byPid
  | .power => compareOr Double.eq Double.lt (powerScore lhs.power direction)
      (powerScore rhs.power direction) direction byPid

end Mtop
