import Mtop.Platform.Sampler

/-! What a sample in root mode shows of the shared cell: the statuses that it derives from it, and
three columns of every process. -/
namespace Mtop
open Cxx Std
set_option autoImplicit false

/-! ## Columns -/

/-- The three root columns of a process, from the maps of a round. -/
structure RootColumns (metrics : RootMetrics) (missing : Text) (stale : Bool)
    (process : ProcessSnapshot) : Prop where
  coreMix : process.coreMix = rootDetail metrics.processCoreMix missing stale process.pid
  io : process.io = rootDetail metrics.processIo missing stale process.pid
  power : process.power = rootDetail metrics.processPower missing stale process.pid

/-- The columns as the process stage of a sample fills them. -/
def Sampler.FillsColumns (s : Sampler) (process : ProcessSnapshot) : Prop :=
  RootColumns s.cachedRootMetrics (missingRootDetail s)
    (s.snapshot.capabilities.rootProcessStatus.availability == .stale) process

theorem processSnapshots_columns (s : Sampler) (gpuActivePids : List ℤ) (seconds : Double)
    (times : TreeMap ℤ UInt64) (readings : List ProcessReading) :
    ∀ process ∈ (processSnapshots s gpuActivePids seconds times readings).1,
      s.FillsColumns process := by
  induction readings generalizing times with
  | nil => exact fun process h => absurd h List.not_mem_nil
  | cons reading readings ih =>
    intro process h
    rcases List.mem_cons.mp h with rfl | hrest
    · exact ⟨rfl, rfl, rfl⟩
    · exact ih _ process hrest

theorem processSnapshots_pids (s : Sampler) (gpuActivePids : List ℤ) (seconds : Double)
    (times : TreeMap ℤ UInt64) (readings : List ProcessReading) :
    (processSnapshots s gpuActivePids seconds times readings).1.map (·.pid) =
      readings.map (·.pid) := by
  induction readings generalizing times with
  | nil => rfl
  | cons reading readings ih => exact congrArg (reading.pid :: ·) (ih _)

/-- The processes that a sample lists. -/
def SampleInput.listed (input : SampleInput) : List ProcessReading :=
  (input.processes.getD []).filter fun reading => 0 < reading.pid

variable {σ : StdSort} {shared : RootMetrics} {input : SampleInput} {s : Sampler}

theorem sampleProcesses_columns :
    ∀ process ∈ (sampleProcesses σ input s).snapshot.processes, s.FillsColumns process := by
  unfold sampleProcesses
  cases input.processes with
  | none => exact fun process h => absurd h List.not_mem_nil
  | some readings =>
    intro process h
    exact processSnapshots_columns { s with lastProcessSampleTime := input.processTime } _ _ _ _
      process ((σ.perm _ _).mem_iff.mp h)

/-- The table lists exactly the processes that were read. -/
theorem sampleProcesses_pids :
    ((sampleProcesses σ input s).snapshot.processes.map (·.pid)).Perm
      (input.listed.map (·.pid)) := by
  unfold sampleProcesses SampleInput.listed
  cases input.processes with
  | none => exact .nil
  | some readings =>
    refine ((σ.perm _ _).map _).trans ?_
    rw [processSnapshots_pids]
    rfl

theorem sampleProcesses_snapshot :
    (sampleProcesses σ input s).snapshot =
      { s.snapshot with processes := (sampleProcesses σ input s).snapshot.processes } := by
  unfold sampleProcesses
  cases input.processes <;> rfl

/-! ## Root mode -/

theorem publishSwap_capabilities (rates : Option Traffic) (snapshot : SystemSnapshot) :
    (publishSwap rates snapshot).capabilities = snapshot.capabilities := by
  cases rates <;> rfl

theorem sampleMemory_capabilities :
    (sampleMemory input s).snapshot.capabilities = s.snapshot.capabilities := by
  unfold sampleMemory
  cases input.memoryVm with
  | none => cases input.swapUsage <;> rfl
  | some vmStat => cases input.swapUsage <;> exact publishSwap_capabilities _ _

theorem sampleSystemIo_capabilities :
    (sampleSystemIo input s).snapshot.capabilities = s.snapshot.capabilities := by
  unfold sampleSystemIo sampleNetwork sampleDisk samplePaging
  cases sampleHostNetworkCounters input.interfaces <;> cases input.ioVm <;> rfl

theorem applyRootMetrics_rootMode (metrics : RootMetrics) (now : ℕ) (snapshot : SystemSnapshot) :
    (applyRootMetrics metrics now snapshot).capabilities.rootMode =
      snapshot.capabilities.rootMode := by
  unfold applyRootMetrics
  split <;> rfl

theorem sampleRootMetrics_rootMode :
    (sampleRootMetrics shared input s).snapshot.capabilities.rootMode =
      s.snapshot.capabilities.rootMode := by
  unfold sampleRootMetrics
  split
  · exact applyRootMetrics_rootMode _ _ _
  · rfl

/-- The state in which the root stage of a sample starts. -/
def beforeRootStage (input : SampleInput) (s : Sampler) : Sampler :=
  sampleSystemIo input (sampleMemory input (stampSample input s))

theorem beforeRootStage_capabilities :
    (beforeRootStage input s).snapshot.capabilities = s.snapshot.capabilities :=
  sampleSystemIo_capabilities.trans sampleMemory_capabilities

theorem sample_rootMode :
    (sample σ shared input s).snapshot.capabilities.rootMode =
      s.snapshot.capabilities.rootMode := by
  unfold sample
  rw [sampleProcesses_snapshot]
  refine sampleRootMetrics_rootMode.trans ?_
  exact congrArg CapabilitySnapshot.rootMode beforeRootStage_capabilities

/-! ## The whole sample -/

/-- The snapshot shows this cell: its statuses, and its maps in the columns. -/
structure ShowsRoot (shared : RootMetrics) (now : ℕ) (snapshot : SystemSnapshot) : Prop where
  applied : ∃ before, snapshot =
    { applyRootMetrics shared now before with processes := snapshot.processes }
  columns : ∀ process ∈ snapshot.processes,
    RootColumns shared (if shared.sampled then str "n/a" else str "wait")
      (snapshot.capabilities.rootProcessStatus.availability == .stale) process

theorem sample_showsRoot (h : s.snapshot.capabilities.rootMode = true) :
    ShowsRoot shared input.rootTime (sample σ shared input s).snapshot := by
  have hmode : (beforeRootStage input s).snapshot.capabilities.rootMode = true := by
    rw [beforeRootStage_capabilities]
    exact h
  have hroot : sampleRootMetrics shared input (beforeRootStage input s) =
      { beforeRootStage input s with
        cachedRootMetrics := shared
        snapshot := applyRootMetrics shared input.rootTime (beforeRootStage input s).snapshot } :=
    if_pos hmode
  have hsample : sample σ shared input s =
      sampleProcesses σ input (sampleRootMetrics shared input (beforeRootStage input s)) := rfl
  rw [hsample, hroot]
  refine ⟨⟨_, sampleProcesses_snapshot⟩, fun process hprocess => ?_⟩
  have hcolumns := sampleProcesses_columns process hprocess
  rw [sampleProcesses_snapshot]
  unfold Sampler.FillsColumns missingRootDetail at hcolumns
  dsimp only at hcolumns
  rw [applyRootMetrics_rootMode, hmode] at hcolumns
  cases hsampled : shared.sampled <;> simpa [hsampled] using hcolumns

end Mtop
