import Mtop.Model.Detector
import Mtop.Library.GroupFold
import Mtop.Library.StdSort

/-! `workload_model.cpp`: detected processes grouped into workloads, and the row list that marks
every process as AI or not. -/
namespace Mtop
open Cxx Std
set_option autoImplicit false

structure WorkloadProcessRef where
  pid : ℤ := -1
  parentPid : ℤ := -1
  role : WorkloadRole := .unknown
  detectionConfidence : Double := 0
  command : Text := []
  deriving DecidableEq, Inhabited

structure WorkloadSnapshot where
  id : Text := []
  name : Text := []
  kind : WorkloadKind := .unknown
  modelHint : Text := []
  processes : List WorkloadProcessRef := []
  cpuPercent : Double := 0
  memoryPercent : Double := 0
  residentBytes : UInt64 := 0
  virtualBytes : UInt64 := 0
  gpuActive : Bool := false
  coreMix : Text := str "-"
  io : Text := str "-"
  power : Text := str "-"
  detectionStatus : MetricStatus := {}
  deriving DecidableEq, Inhabited

structure AiProcessRow where
  process : ProcessSnapshot
  detection : WorkloadDetection
  isAi : Bool
  deriving DecidableEq, Inhabited

structure DetectedProcess where
  process : ProcessSnapshot
  detection : WorkloadDetection
  deriving DecidableEq, Inhabited

/-! ## Grouping -/

def detectedProcesses (snapshot : SystemSnapshot) : List DetectedProcess :=
  snapshot.processes.filterMap fun process =>
    let detection := detectWorkloadProcess process
    if Double.lt detection.confidence 0.60 then none else some ⟨process, detection⟩

/-- `detected_by_pid`; the last process of a pid stays. -/
def detectedByPid (detected : List DetectedProcess) : TreeMap ℤ DetectedProcess :=
  TreeMap.ofList (detected.map fun item => (item.process.pid, item))

def isOllamaManager (item : DetectedProcess) : Bool :=
  item.detection.kind = .ollama && item.detection.role = .manager

/-- The first Ollama manager, in pid order, that is the process itself or its parent. -/
def owningManager (item : DetectedProcess) (byPid : TreeMap ℤ DetectedProcess) :
    Option DetectedProcess :=
  (byPid.toList.map Prod.snd).find? fun parent =>
    isOllamaManager parent &&
      (item.process.parentPid = parent.process.pid || item.process.pid = parent.process.pid)

def groupingKey (item : DetectedProcess) (byPid : TreeMap ℤ DetectedProcess) : Text :=
  let kindName := workloadKindName item.detection.kind
  let manager := if item.detection.kind = .ollama then owningManager item byPid else none
  match manager with
  | some parent => kindName ++ str ":manager:" ++ intText parent.process.pid
  | none =>
    let parent := byPid[item.process.parentPid]?.filter fun parent =>
      parent.detection.kind = item.detection.kind
    match parent with
    | some parent => kindName ++ str ":parent:" ++ intText parent.process.pid
    | none =>
      if item.detection.modelHint ≠ [] then
        kindName ++ str ":model:" ++ item.detection.modelHint
      else kindName ++ str ":pid:" ++ intText item.process.pid

def betterRepresentative (candidate : DetectedProcess) : Option DetectedProcess → Bool
  | none => true
  | some current =>
    if candidate.detection.role = .manager && current.detection.role ≠ .manager then true
    else if candidate.detection.role = .server && current.detection.role ≠ .manager &&
        current.detection.role ≠ .server then true
    else Double.lt current.detection.confidence candidate.detection.confidence

def firstAvailableSignal (current next : Text) : Text :=
  if current ∈ ([] :: ["-", "n/a", "root", "wait", "stale", "parse", "denied"].map str) then
    if next = [] then current else next
  else current

def makeId (workload : WorkloadSnapshot) : Text :=
  workloadKindName workload.kind ++ str ":" ++
    if workload.modelHint ≠ [] then workload.modelHint
    else match workload.processes with
      | first :: _ => intText first.pid
      | [] => str "unknown"

/-! ## Accumulating one workload -/

/-- The entries of `grouped` and `representative` under one key. -/
structure Group where
  workload : WorkloadSnapshot := {}
  representative : Option DetectedProcess := none
  deriving Inhabited

/-- `item.detection.label.empty() ? process.name : item.detection.label`. -/
def displayName (item : DetectedProcess) : Text :=
  if item.detection.label = [] then item.process.name else item.detection.label

/-- The branch taken by the first member of a group. -/
def seedWorkload (item : DetectedProcess) (workload : WorkloadSnapshot) : WorkloadSnapshot :=
  { workload with
    kind := item.detection.kind
    modelHint := item.detection.modelHint
    name := displayName item
    coreMix := item.process.coreMix
    io := item.process.io
    power := item.process.power
    detectionStatus :=
      { workload.detectionStatus with availability := .available, reason := item.detection.reason } }

/-- The branch taken by every later member. -/
def mergeWorkload (item : DetectedProcess) (workload : WorkloadSnapshot) : WorkloadSnapshot :=
  let reason := workload.detectionStatus.reason
  { workload with
    modelHint := if workload.modelHint = [] then item.detection.modelHint else workload.modelHint
    io := firstAvailableSignal workload.io item.process.io
    power := firstAvailableSignal workload.power item.process.power
    coreMix := if workload.coreMix = [] ∨ workload.coreMix = str "-" then item.process.coreMix
      else workload.coreMix
    detectionStatus :=
      { workload.detectionStatus with
        reason := if contains reason item.detection.reason then reason
          else reason ++ str "; " ++ item.detection.reason } }

def processRef (item : DetectedProcess) : WorkloadProcessRef :=
  ⟨item.process.pid, item.process.parentPid, item.detection.role, item.detection.confidence,
    item.process.command⟩

def addProcess (item : DetectedProcess) (workload : WorkloadSnapshot) : WorkloadSnapshot :=
  { workload with
    processes := workload.processes ++ [processRef item]
    cpuPercent := workload.cpuPercent + item.process.cpuPercent
    memoryPercent := workload.memoryPercent + item.process.memoryPercent
    residentBytes := workload.residentBytes + item.process.residentBytes
    virtualBytes := workload.virtualBytes + item.process.virtualBytes
    gpuActive := workload.gpuActive || item.process.gpuActive }

def representWorkload (item : DetectedProcess) (workload : WorkloadSnapshot) : WorkloadSnapshot :=
  { workload with
    name := displayName item
    modelHint := if item.detection.modelHint ≠ [] then item.detection.modelHint else workload.modelHint
    detectionStatus := { workload.detectionStatus with reason := item.detection.reason } }

/-- The body of the grouping loop, on the entries under the item's key. -/
def accumulate (group : Option Group) (item : DetectedProcess) : Group :=
  let group := group.getD {}
  let workload := if group.workload.processes = [] then seedWorkload item group.workload
    else mergeWorkload item group.workload
  let workload := addProcess item workload
  if betterRepresentative item group.representative then
    { workload := representWorkload item workload, representative := some item }
  else { group with workload := workload }

/-! ## The two builders -/

def refLess (lhs rhs : WorkloadProcessRef) : Bool := lhs.pid < rhs.pid

def workloadLess (lhs rhs : WorkloadSnapshot) : Bool :=
  if lhs.residentBytes ≠ rhs.residentBytes then lhs.residentBytes > rhs.residentBytes
  else lhs.name < rhs.name

def aiRowLess (lhs rhs : AiProcessRow) : Bool :=
  if lhs.isAi ≠ rhs.isAi then lhs.isAi && !rhs.isAi
  else if lhs.isAi && rhs.isAi && lhs.process.residentBytes ≠ rhs.process.residentBytes then
    lhs.process.residentBytes > rhs.process.residentBytes
  else if !Double.eq lhs.process.cpuPercent rhs.process.cpuPercent then
    Double.lt rhs.process.cpuPercent lhs.process.cpuPercent
  else lhs.process.pid < rhs.process.pid

section Builders
variable (σ : StdSort)

def finishWorkload (workload : WorkloadSnapshot) : WorkloadSnapshot :=
  let sorted := { workload with processes := σ.sort refLess workload.processes }
  { sorted with id := makeId sorted }

def buildWorkloads (snapshot : SystemSnapshot) : List WorkloadSnapshot :=
  let detected := detectedProcesses snapshot
  let byPid := detectedByPid detected
  let grouped := groupFold (fun item => groupingKey item byPid) accumulate detected
  σ.sort workloadLess (grouped.toList.map fun entry => finishWorkload σ entry.2.workload)

def aiProcessRow (process : ProcessSnapshot) : AiProcessRow :=
  let detection := detectWorkloadProcess process
  let isAi := Double.le 0.60 detection.confidence
  if isAi then ⟨process, detection, isAi⟩
  else
    ⟨process, ⟨.unknown, .unknown, process.name, [], str "no AI workload signal", 0⟩, isAi⟩

def buildAiProcessRows (snapshot : SystemSnapshot) : List AiProcessRow :=
  σ.sort aiRowLess (snapshot.processes.map aiProcessRow)

end Builders
end Mtop
