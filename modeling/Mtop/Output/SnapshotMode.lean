import Mtop.Output.Session
import Mtop.Config

/-! `run_snapshot_mode`. The sampler, the clock and the signal that sets the interrupt flag are the
environment: the `i`-th sample, the `i`-th reading of the clock, and the reading of the flag from
which on it is set. -/
namespace Mtop
open Cxx
set_option autoImplicit false

structure RuntimeOptions where
  snapshotLoop : Bool := false
  session : Bool := false
  outputPath : Text := []
  sessionLabel : Text := []
  snapshotFormat : Text := []
  snapshotIntervalMs : Option ℤ := none
  count : Option ℤ := none

structure SnapshotEnv where
  samples : ℕ → SystemSnapshot
  clock : ℕ → UInt64
  interruptAt : Option ℕ
  outputOpens : Bool

/-- `g_snapshot_interrupted` at one of its readings. -/
def SnapshotEnv.interrupted (env : SnapshotEnv) (reading : ℕ) : Bool :=
  match env.interruptAt with
  | none => false
  | some first => first ≤ reading

structure SnapshotRun where
  out : Text := []
  flagReads : ℕ := 0
  clockReads : ℕ := 0
  emitted : ℕ := 0

def prepareSnapshotMetadata (snapshot : SystemSnapshot) (intervalMs : ℤ) (now : UInt64) :
    SystemSnapshot :=
  { snapshot with
    timestampUnixMs := now
    sampleIntervalMs := UInt64.ofNat (max 0 intervalMs).toNat }

section SnapshotMode
variable (σ : StdSort) (options : RuntimeOptions) (config : AppConfig) (env : SnapshotEnv)

/-- `std::clamp(.., 100, 60000)`. -/
def snapshotInterval : ℤ :=
  let ms := options.snapshotIntervalMs.getD config.snapshotIntervalMs
  if ms < 100 then 100 else if 60000 < ms then 60000 else ms

def loopForever : Bool := options.snapshotLoop && options.count.isNone

def snapshotCount : ℤ :=
  match options.count with
  | some count => max 1 count
  | none => 1

def jsonOptions (snapshot : SystemSnapshot) : SnapshotJsonOptions :=
  let workloads := buildWorkloads σ snapshot
  { viewProfile := config.viewProfile
    workloads
    memoryRisk := deriveMemoryRisk snapshot [] workloads }

/-- The loop body up to `++emitted`. -/
def emitSample (run : SnapshotRun) : SnapshotRun :=
  let snapshot := prepareSnapshotMetadata (env.samples run.emitted)
    (snapshotInterval options config) (env.clock run.clockReads)
  let snapshotJson := snapshotToJson snapshot (jsonOptions σ config snapshot)
  let line := if options.session then sessionSnapshotJson snapshotJson else snapshotJson
  { run with
    out := run.out ++ line ++ ['\n']
    clockReads := run.clockReads + 1
    emitted := run.emitted + 1 }

def readFlag (run : SnapshotRun) : SnapshotRun := { run with flagReads := run.flagReads + 1 }

/-- The `while` loop; sleeping has no effect on the output. -/
def snapshotLoop : ℕ → SnapshotRun → Option SnapshotRun
  | 0, _ => none
  | fuel + 1, run =>
    if !env.interrupted run.flagReads &&
        (loopForever options || run.emitted < snapshotCount options) then
      let run := emitSample σ options config env (readFlag run)
      if env.interrupted run.flagReads || (!options.snapshotLoop && options.count.isNone) then
        some (readFlag run)
      else if !loopForever options && run.emitted ≥ snapshotCount options then some (readFlag run)
      else snapshotLoop fuel (readFlag run)
    else some (readFlag run)

def sessionInfo : SnapshotSessionInfo :=
  let startedUnixMs := env.clock 0
  { startedUnixMs, sessionId := makeSessionId startedUnixMs, label := options.sessionLabel }

def startSession : SnapshotRun :=
  if options.session then
    { out := sessionStartJson (sessionInfo options env) ++ ['\n'], clockReads := 1 }
  else {}

def endSession (run : SnapshotRun) : SnapshotRun :=
  if options.session then
    { run with
      out := run.out ++ sessionEndJson (sessionInfo options env) (env.clock run.clockReads) ++ ['\n']
      clockReads := run.clockReads + 1 }
  else run

/-- What was written, and the exit code. -/
def runSnapshotMode (fuel : ℕ) : Option (SnapshotRun × ℤ) :=
  if options.snapshotFormat ≠ str "json" then some ({}, 2)
  else if options.outputPath ≠ [] ∧ env.outputOpens = false then some ({}, 1)
  else
    (snapshotLoop σ options config env fuel (startSession options env)).map fun run =>
      let run := endSession options env run
      (run, if env.interrupted run.flagReads then 130 else 0)

end SnapshotMode
end Mtop
