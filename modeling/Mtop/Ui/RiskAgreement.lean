import Mtop.Ui.MainLoop
import Mtop.Output.SnapshotLines
import Mtop.Model.RiskVerdict
import Mathlib.Data.List.DropRight

/-! The memory risk that the terminal shows, against the one in the JSON snapshots and against the
one shown under another filter. -/
namespace Mtop
open Cxx Machine
set_option autoImplicit false

/-! ## The risk of a frame -/

section Frame
variable (σ : StdSort) (snapshot : SystemSnapshot) (priorHistory : List SystemSnapshot)

/-- The workloads that a filter leaves. -/
def filteredWorkloads (filter : Text) : List WorkloadSnapshot :=
  if filter = [] then buildWorkloads σ snapshot
  else (buildWorkloads σ snapshot).filter (workloadMatchesQuery · filter)

/-- Sorting the workloads again does not matter to the risk. -/
theorem buildAlphaModel_risk (state : UiState) :
    (buildAlphaModel σ snapshot priorHistory state).risk =
      deriveMemoryRisk snapshot priorHistory (filteredWorkloads σ snapshot state.filter) := by
  apply deriveMemoryRisk_congr
  unfold filteredWorkloads
  by_cases hdirection : state.sortDirection > 0
  · rw [if_pos hdirection]
    exact workloadRssTotal_perm (σ.perm _ _)
  · rw [if_neg hdirection]

theorem frameAlpha_risk (now : ℕ) {state : UiState} (halpha : state.viewProfile = .alpha) :
    (frameAlpha σ snapshot priorHistory now state).1.risk =
      deriveMemoryRisk snapshot priorHistory (filteredWorkloads σ snapshot state.filter) := by
  unfold frameAlpha
  rw [halpha]
  exact buildAlphaModel_risk σ snapshot priorHistory state

end Frame

/-! ## The filter -/

section Filter
variable (σ : StdSort) (snapshot : SystemSnapshot) (priorHistory : List SystemSnapshot) (now : ℕ)
  (state : UiState)

/-- The risk that the main loop stores in Alpha under a filter. -/
def shownRisk (filter : Text) : MemoryRiskSnapshot :=
  (frameAlpha σ snapshot priorHistory now
    { state with viewProfile := .alpha, filter := filter }).1.risk

/-- Two filters show the same risk exactly where the rule on the workload total is not reached or
decides alike for the workloads that they leave. -/
theorem shownRisk_filter_iff (filter filter' : Text) :
    shownRisk σ snapshot priorHistory now state filter =
        shownRisk σ snapshot priorHistory now state filter' ↔
      SameTotalRule snapshot priorHistory (filteredWorkloads σ snapshot filter)
        (filteredWorkloads σ snapshot filter') := by
  unfold shownRisk
  rw [frameAlpha_risk σ snapshot priorHistory now rfl,
    frameAlpha_risk σ snapshot priorHistory now rfl, ← verdict_workloads_iff,
    deriveMemoryRisk_eq, deriveMemoryRisk_eq]
  constructor
  · intro h
    exact Prod.ext (congrArg MemoryRiskSnapshot.level h) (congrArg MemoryRiskSnapshot.reason h)
  · intro h
    rw [h]

/-- One Ollama server with 600 of 1000 bytes. -/
def loadedSample : SystemSnapshot :=
  { memoryTotalBytes := 1000, memoryWiredBytes := 100, memoryActiveBytes := 500,
    memoryUsedBytes := 600, memoryPressure := .normal,
    processes :=
      [{ pid := 10, name := str "ollama", command := str "ollama serve", residentBytes := 600 }] }

theorem shownRisk_depends_on_filter :
    ¬ ∀ (σ : StdSort) (snapshot : SystemSnapshot) (priorHistory : List SystemSnapshot) (now : ℕ)
        (state : UiState) (filter filter' : Text),
      shownRisk σ snapshot priorHistory now state filter =
        shownRisk σ snapshot priorHistory now state filter' := by
  intro h
  have hreason := congrArg MemoryRiskSnapshot.reason
    (h .insertion loadedSample [] 0 {} [] (str "llama.cpp"))
  exact absurd hreason (by decide +kernel)

end Filter

/-! ## The history of the main loop -/

/-- The samples that the frames of a run were drawn from. -/
def frameSamples (moves : List Move) : List SystemSnapshot :=
  moves.filterMap fun
    | .frame snapshot _ _ _ => some snapshot
    | .input _ _ => none

/-- Pushing to a window and cutting it is cutting the longer list. -/
theorem rtake_push {α : Type} (n : ℕ) (l : List α) (x : α) :
    (l.rtake n ++ [x]).rtake n = (l ++ [x]).rtake n := by
  cases n with
  | zero => simp
  | succ n =>
    rw [List.rtake_concat_succ, List.rtake_concat_succ]
    simp only [List.rtake_eq_reverse_take_reverse, List.reverse_reverse, List.take_take,
      Nat.min_eq_left (Nat.le_succ n)]

variable {σ : StdSort}

/-- What a frame step does to the history, and where the model of the frame comes from. -/
theorem frame_step {snapshot : SystemSnapshot} {rows cols : ℤ} {now : ℕ} {ui ui' : Ui}
    (h : step σ (.frame snapshot rows cols now) ui = some ui') :
    ui'.snapshotHistory = (ui.snapshotHistory ++ [snapshot]).rtake 8 ∧
      ∃ frame, ui'.frame = some frame ∧
        frame.alpha = (frameAlpha σ snapshot ui.snapshotHistory now ui.state).1 := by
  simp only [step, Option.ite_none_right_eq_some, Option.some.injEq] at h
  obtain ⟨-, rfl⟩ := h
  exact ⟨rfl, _, rfl, rfl⟩

theorem input_step {event : InputEvent} {env : InputEnv} {ui ui' : Ui}
    (h : step σ (.input event env) ui = some ui') :
    ui'.snapshotHistory = ui.snapshotHistory := by
  simp only [step] at h
  split at h
  · simp only [Option.ite_none_right_eq_some, Option.some.injEq] at h
    obtain ⟨-, rfl⟩ := h
    rfl
  · cases h

/-- The history of a run is the last eight of its samples. -/
theorem run_history {moves : List Move} {samples : List SystemSnapshot} {ui ui' : Ui}
    (hhistory : ui.snapshotHistory = samples.rtake 8) (h : run (step σ) moves ui = some ui') :
    ui'.snapshotHistory = (samples ++ frameSamples moves).rtake 8 := by
  induction moves generalizing ui samples with
  | nil =>
    cases h
    rw [hhistory]
    exact (congrArg (List.rtake · 8) (List.append_nil samples)).symm
  | cons move moves ih =>
    obtain ⟨next, hstep, hrest⟩ := run_cons h
    cases move with
    | frame snapshot rows cols now =>
      have hnext : next.snapshotHistory = (samples ++ [snapshot]).rtake 8 := by
        rw [(frame_step hstep).1, hhistory, rtake_push]
      rw [ih hnext hrest, List.append_assoc]
      rfl
    | input event env => exact ih ((input_step hstep).trans hhistory) hrest

/-! ## The two front ends -/

section FrontEnds
variable (σ) (options : RuntimeOptions) (config : AppConfig) (env : SnapshotEnv)

/-- The risk in the `i`-th snapshot line. -/
def lineRisk (i : ℕ) : MemoryRiskSnapshot :=
  (jsonOptions σ config (sampleAt options config env i)).memoryRisk

/-- It is what the line carries under `memory_risk`. -/
theorem lineRisk_mem (i : ℕ) :
    ∃ members, sampleDoc σ options config env i = .obj members ∧
      (str "memory_risk", memoryRiskDoc (lineRisk σ options config env i)) ∈ members :=
  ⟨_, rfl, List.mem_append_right _ (List.mem_cons_of_mem _ List.mem_cons_self)⟩

/-- The metadata of a line has no part in its risk. -/
theorem lineRisk_eq (i : ℕ) :
    lineRisk σ options config env i =
      deriveMemoryRisk (env.samples i) [] (buildWorkloads σ (env.samples i)) := rfl

/-- The samples before the `i`-th that the main loop still remembers. -/
def priorHistory (i : ℕ) : List SystemSnapshot := ((List.range i).map env.samples).rtake 8

variable {σ options config env}

/-- After the same samples, the risk that an unfiltered Alpha frame shows. -/
theorem frame_risk {moves : List Move} {uiConfig : AppConfig} {ui ui' : Ui} {i : ℕ}
    {rows cols : ℤ} {now : ℕ} (hrun : run (step σ) moves (start uiConfig) = some ui)
    (hsamples : frameSamples moves = (List.range i).map env.samples)
    (halpha : ui.state.viewProfile = .alpha) (hfilter : ui.state.filter = [])
    (hframe : step σ (.frame (env.samples i) rows cols now) ui = some ui') :
    ∃ frame, ui'.frame = some frame ∧
      frame.alpha.risk =
        deriveMemoryRisk (env.samples i) (priorHistory env i) (buildWorkloads σ (env.samples i)) := by
  have hhistory : ui.snapshotHistory = priorHistory env i := by
    have hstart : (start uiConfig).snapshotHistory = ([] : List SystemSnapshot).rtake 8 := rfl
    rw [run_history hstart hrun, hsamples]
    rfl
  obtain ⟨-, frame, hsome, halphaModel⟩ := frame_step hframe
  refine ⟨frame, hsome, ?_⟩
  rw [halphaModel, frameAlpha_risk σ _ _ now halpha, hhistory, hfilter]
  rfl

/-- Snapshot mode and the terminal give the same level and reason for a sample exactly where the
chain puts to the empty history only questions that the prior samples answer alike. -/
theorem front_ends_agree_iff {moves : List Move} {uiConfig : AppConfig} {ui ui' : Ui} {i : ℕ}
    {rows cols : ℤ} {now : ℕ} (hrun : run (step σ) moves (start uiConfig) = some ui)
    (hsamples : frameSamples moves = (List.range i).map env.samples)
    (halpha : ui.state.viewProfile = .alpha) (hfilter : ui.state.filter = [])
    (hframe : step σ (.frame (env.samples i) rows cols now) ui = some ui') :
    ∃ members frame, sampleDoc σ options config env i = .obj members ∧
      (str "memory_risk", memoryRiskDoc (lineRisk σ options config env i)) ∈ members ∧
      ui'.frame = some frame ∧
      (((lineRisk σ options config env i).level = frame.alpha.risk.level ∧
          (lineRisk σ options config env i).reason = frame.alpha.risk.reason) ↔
        SameAnswers (env.samples i) [] (priorHistory env i)) := by
  obtain ⟨members, hdoc, hmem⟩ := lineRisk_mem σ options config env i
  obtain ⟨frame, hsome, hrisk⟩ := frame_risk hrun hsamples halpha hfilter hframe
  refine ⟨members, frame, hdoc, hmem, hsome, ?_⟩
  rw [lineRisk_eq, hrisk, deriveMemoryRisk_level, deriveMemoryRisk_level, deriveMemoryRisk_reason,
    deriveMemoryRisk_reason, ← Prod.ext_iff, verdict_history_iff]

end FrontEnds

/-- Steady swap and a little paging. -/
def steadySample : SystemSnapshot :=
  { memoryTotalBytes := 1000, memoryWiredBytes := 100, memoryActiveBytes := 300,
    memoryUsedBytes := 400, memoryPressure := .normal, swapUsedBytes := 50,
    swapinsBytesPerSec := 1 }

def steadyEnv : SnapshotEnv :=
  { samples := fun _ => steadySample, clock := UInt64.ofNat, interruptAt := none,
    outputOpens := true }

/-- More swap in every sample. -/
def growingEnv : SnapshotEnv :=
  { steadyEnv with samples := fun i => { steadySample with swapUsedBytes := 50 + UInt64.ofNat i } }

/-- One frame and the inputs that nobody makes. -/
def oneFrame : List Move :=
  .frame steadySample 40 120 0 :: List.replicate 20 (.input {} {})

/-- The state before the second frame. -/
theorem oneFrame_run : ∃ ui, run (step .insertion) oneFrame (start {}) = some ui ∧
    ui.state.viewProfile = .alpha ∧ ui.state.filter = [] ∧ ui.running = true ∧ ui.polls = 20 := by
  have hrun : ((run (step .insertion) oneFrame (start {})).map fun ui =>
      (ui.state.viewProfile, ui.state.filter, ui.running, ui.polls)) =
        some (.alpha, [], true, 20) := by decide
  obtain ⟨ui, hui, heq⟩ := Option.map_eq_some_iff.mp hrun
  simp only [Prod.mk.injEq] at heq
  exact ⟨ui, hui, heq⟩

theorem front_ends_agree_second :
    ∃ ui members frame, run (step .insertion) oneFrame (start {}) = some ui ∧
      sampleDoc .insertion {} {} growingEnv 1 = .obj members ∧
      (str "memory_risk", memoryRiskDoc (lineRisk .insertion {} {} growingEnv 1)) ∈ members ∧
      (drawFrame .insertion ui (growingEnv.samples 1) 40 120 1000).frame = some frame ∧
      (lineRisk .insertion {} {} growingEnv 1).level = frame.alpha.risk.level ∧
      (lineRisk .insertion {} {} growingEnv 1).reason = frame.alpha.risk.reason := by
  obtain ⟨ui, hui, halpha, hfilter, hrunning, hpolls⟩ := oneFrame_run
  have hstep : step .insertion (.frame (growingEnv.samples 1) 40 120 1000) ui =
      some (drawFrame .insertion ui (growingEnv.samples 1) 40 120 1000) :=
    if_pos ⟨hrunning, .inr hpolls⟩
  have hsamples : frameSamples oneFrame = (List.range 1).map growingEnv.samples := rfl
  obtain ⟨members, frame, hdoc, hmem, hframe, hagree⟩ :=
    front_ends_agree_iff hui hsamples halpha hfilter hstep
  -- with and without the first sample the swap has grown
  have hanswers : SameAnswers (growingEnv.samples 1) [] (priorHistory growingEnv 1) :=
    .inr (.inr (.inr ⟨by decide, .inr (.inr (.inr (by decide)))⟩))
  exact ⟨ui, members, frame, hui, hdoc, hmem, hframe, hagree.mpr hanswers⟩

theorem front_ends_disagree :
    ¬ ∀ (σ : StdSort) (options : RuntimeOptions) (config uiConfig : AppConfig) (env : SnapshotEnv)
        (moves : List Move) (ui ui' : Ui) (frame : Frame) (i : ℕ) (rows cols : ℤ) (now : ℕ),
      run (step σ) moves (start uiConfig) = some ui →
        frameSamples moves = (List.range i).map env.samples → ui.state.viewProfile = .alpha →
        ui.state.filter = [] → step σ (.frame (env.samples i) rows cols now) ui = some ui' →
        ui'.frame = some frame →
        (lineRisk σ options config env i).level = frame.alpha.risk.level ∧
          (lineRisk σ options config env i).reason = frame.alpha.risk.reason := by
  intro h
  obtain ⟨ui, hui, halpha, hfilter, hrunning, hpolls⟩ := oneFrame_run
  have hstep : step .insertion (.frame steadySample 40 120 1000) ui =
      some (drawFrame .insertion ui steadySample 40 120 1000) :=
    if_pos ⟨hrunning, .inr hpolls⟩
  have hsamples : frameSamples oneFrame = (List.range 1).map steadyEnv.samples := rfl
  obtain ⟨frame, hframe, hrisk⟩ := frame_risk hui hsamples halpha hfilter hstep
  have hreason := (h .insertion {} {} {} steadyEnv oneFrame ui _ frame 1 40 120 1000 hui hsamples
    halpha hfilter hstep hframe).2
  rw [hrisk] at hreason
  exact absurd hreason (by decide +kernel)

end Mtop
