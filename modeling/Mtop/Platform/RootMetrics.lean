import Mtop.Platform.Capture
import Mtop.Platform.Sampler

/-! The background half of `darwin_sampler.cpp`: one round of `root_metrics_loop`. What the property
list library and the task parser make of a text is a parameter; what the three commands answered
is the input. -/
namespace Mtop
open Cxx Std Capture
set_option autoImplicit false

/-! ## Input -/

/-- The numbers of the `processor` dictionary, in milliwatts. -/
structure PowerProcessor where
  cpuEnergy : Option Double := none
  aneEnergy : Option Double := none
  gpuEnergy : Option Double := none

/-- A property list whose root is a dictionary: the keys that are read. -/
structure PowerPlist where
  thermalPressure : Option Text := none
  processor : Option PowerProcessor := none
  gpuFreqHz : Option Double := none

structure AmpData where
  coreMix : TreeMap ℤ Text := ∅
  io : TreeMap ℤ Text := ∅
  power : TreeMap ℤ Text := ∅

def AmpData.isEmpty (amp : AmpData) : Bool :=
  amp.coreMix.isEmpty && amp.io.isEmpty && amp.power.isEmpty

/-- What one round of commands answers; `tempFile` is `mkstemp`, `plistBytes` the file afterwards. -/
structure RootCommands where
  sampleTime : ℕ := 0
  tempFile : Bool := true
  plistResult : CommandResult := {}
  plistBytes : Text := []
  ampResult : CommandResult := {}
  fallbackResult : CommandResult := {}

def reasonOr (result : CommandResult) (otherwise : Text) : Text :=
  if result.reason = [] then otherwise else result.reason

/-! ## The property list -/

/-- The non-empty stretches between NUL bytes. -/
def plistSegments (bytes : Text) : List Text :=
  (bytes.splitOn (Char.ofNat 0)).filter fun segment => !segment.isEmpty

/-- `CFStringGetCString` into a buffer of this size. -/
def cfStringGetCString (text : Text) (size : ℕ) : Option Text :=
  if text.length < size then some text else none

def aneText (aneMw : Double) : Text :=
  if Double.le aneMw 1 then str "idle"
  else
    let percent := Double.mulRounded (Double.divRounded aneMw 8000) 100
    let shown := if Double.lt percent 100 then percent else 100
    let watts := Double.divRounded aneMw 1000
    (Double.fixedText 0 shown ++ str "% @ " ++ Double.fixedText 1 watts ++ str "W").take 127

def readProcessor (processor : PowerProcessor) (metrics : RootMetrics) : RootMetrics :=
  let cpuMw := processor.cpuEnergy.getD 0
  let gpuMw := processor.gpuEnergy.getD 0
  let metrics :=
    { metrics with
      cpuPowerWatts := Double.divRounded cpuMw 1000
      gpuPowerWatts := Double.divRounded gpuMw 1000
      totalPowerWatts := Double.divRounded (Double.addRounded cpuMw gpuMw) 1000 }
  match processor.aneEnergy with
  | none => metrics
  | some aneMw =>
    { metrics with
      aneAvailable := true
      ane := aneText aneMw
      totalPowerWatts := Double.addRounded metrics.totalPowerWatts (Double.divRounded aneMw 1000) }

/-- `static_cast<int>` of a double in range. -/
def truncated (d : Double) : ℤ := if d.value < 0 then -⌊-d.value⌋ else ⌊d.value⌋

def readPlist (plist : PowerPlist) (metrics : RootMetrics) : RootMetrics :=
  let metrics :=
    match plist.thermalPressure.bind (cfStringGetCString · 128) with
    | none => metrics
    | some thermal => { metrics with thermal }
  let metrics :=
    match plist.processor with
    | none => metrics
    | some processor => readProcessor processor metrics
  let metrics :=
    match plist.gpuFreqHz with
    | none => metrics
    | some freq =>
      { metrics with
        gpuFrequencyMhz :=
          if Double.lt 100000 freq then truncated (Double.divRounded freq 1000000)
          else truncated freq }
  { metrics with available := true }

section Collect
variable (decode : Text → Option PowerPlist) (parseAmpData : Text → AmpData)

/-- The first stretch that is a dictionary. -/
def decodePlist (bytes : Text) : Option PowerPlist := (plistSegments bytes).findSome? decode

def collectPlist (commands : RootCommands) (metrics : RootMetrics) : RootMetrics :=
  if commands.tempFile then
    if commands.plistResult.ok then
      match decodePlist decode commands.plistBytes with
      | none => metrics
      | some plist => readPlist plist metrics
    else
      { metrics with
        failureReason := reasonOr commands.plistResult (str "powermetrics plist failed") }
  else { metrics with failureReason := str "temporary file failed" }

/-- The first reason stays. -/
def noteFailure (result : CommandResult) (otherwise : Text) (metrics : RootMetrics) : RootMetrics :=
  if result.ok = false ∧ metrics.failureReason = [] then
    { metrics with failureReason := reasonOr result otherwise }
  else metrics

/-- The output is parsed whether the command succeeded or not. -/
def collectTasks (commands : RootCommands) (metrics : RootMetrics) : RootMetrics :=
  let metrics := noteFailure commands.ampResult (str "powermetrics task sampler failed") metrics
  let amp := parseAmpData commands.ampResult.output
  if amp.isEmpty then
    let fallback := parseAmpData commands.fallbackResult.output
    { noteFailure commands.fallbackResult (str "powermetrics task fallback failed") metrics with
      processCoreMix := if amp.coreMix.isEmpty then fallback.coreMix else amp.coreMix
      processIo := amp.io
      processPower := if amp.power.isEmpty then fallback.power else amp.power }
  else
    { metrics with
      processCoreMix := amp.coreMix
      processIo := amp.io
      processPower := amp.power }

def collectRootMetrics (commands : RootCommands) : RootMetrics :=
  let metrics : RootMetrics := { sampled := true, sampleTime := commands.sampleTime }
  let metrics := collectTasks parseAmpData commands (collectPlist decode commands metrics)
  if metrics.available = false ∧ metrics.failureReason = [] then
    { metrics with failureReason := str "parse failed" }
  else metrics

end Collect

/-! ## The loop -/

/-- `last_success` after a round. -/
def nextSuccess (metrics lastSuccess : RootMetrics) : RootMetrics :=
  if metrics.available then metrics else lastSuccess

/-- What a round puts into the shared cell. -/
def toPublish (metrics lastSuccess : RootMetrics) : RootMetrics :=
  if metrics.available then metrics
  else if lastSuccess.available then
    { lastSuccess with
      sampled := true
      stale := true
      failureReason :=
        if metrics.failureReason = [] then str "powermetrics sample failed"
        else metrics.failureReason }
  else metrics

end Mtop
