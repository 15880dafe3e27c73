import Mtop.Platform.RootColumns
import Mtop.Platform.RootTruth
import Mtop.Library.Run

/-! The background loop and the foreground sampler over every interleaving of the two. The loop
collects and publishes in two steps; the foreground reads the shared cell in one. Which outcomes
have been published by then is kept beside the state. -/
namespace Mtop
open Cxx Std Machine Capture
set_option autoImplicit false

/-! ## Outcomes -/

/-- What a round hands to the loop: a success with data, or a failure with a reason. -/
structure RootOutcome where
  metrics : RootMetrics
  sampled : metrics.sampled = true
  fresh : metrics.stale = false
  explained : metrics.available = false → metrics.failureReason ≠ []

/-- Every round of the three commands is an outcome. -/
def collectOutcome (decode : Text → Option PowerPlist) (parseAmpData : Text → AmpData)
    (commands : RootCommands) : RootOutcome where
  metrics := collectRootMetrics decode parseAmpData commands
  sampled := congrArg RootFlags.sampled (collectRootMetrics_flags commands)
  fresh := congrArg RootFlags.stale (collectRootMetrics_flags commands)
  explained := collectRootMetrics_reason commands

/-! ## The two loops -/

/-- The foreground state, `last_success`, the cell, and between its two steps the outcome of the
loop with what it is about to publish. `published` is the history, newest first. -/
structure RootRun where
  sampler : Sampler
  lastSuccess : RootMetrics := {}
  shared : RootMetrics := {}
  pending : Option (RootOutcome × RootMetrics) := none
  published : List RootOutcome := []

inductive RootMove where
  | collect (outcome : RootOutcome)
  | publish
  | sample (input : SampleInput)

section Runs
variable (σ : StdSort)

def rootStep : RootMove → RootRun → Option RootRun
  | .collect outcome, s =>
    if s.pending.isSome then none
    else
      some
        { s with
          lastSuccess := nextSuccess outcome.metrics s.lastSuccess
          pending := some (outcome, toPublish outcome.metrics s.lastSuccess) }
  | .publish, s =>
    match s.pending with
    | none => none
    | some (outcome, metrics) =>
      some
        { s with
          shared := metrics
          pending := none
          published := outcome :: s.published }
  | .sample input, s => some { s with sampler := Mtop.sample σ s.shared input s.sampler }

/-! ## What a snapshot owes the history -/

def latestSuccess (published : List RootOutcome) : Option RootOutcome :=
  published.find? (·.metrics.available)

/-- Available exactly when the latest outcome was a success, otherwise stale with its reason. -/
def TellsLatest (latest : RootOutcome) (status : MetricStatus) : Prop :=
  (status.availability = .available ↔ latest.metrics.available = true) ∧
    (latest.metrics.available = false →
      status.availability = .stale ∧ status.reason = latest.metrics.failureReason)

/-- The value of the success, or else the placeholder for the latest outcome. -/
def Column (values : TreeMap ℤ Text) (latest : RootOutcome) (pid : ℤ) (shown : Text) : Prop :=
  shown = values[pid]?.getD (if latest.metrics.available then str "n/a" else str "stale")

/-- The data of one success, under statuses that tell the latest outcome. -/
structure Carries (success latest : RootOutcome) (snapshot : SystemSnapshot) : Prop where
  thermal : snapshot.thermal = success.metrics.thermal
  ane : snapshot.ane = if success.metrics.aneAvailable then success.metrics.ane else str "N/A"
  thermalStatus : TellsLatest latest snapshot.capabilities.thermalStatus
  aneStatus : success.metrics.aneAvailable = true →
    TellsLatest latest snapshot.capabilities.aneStatus
  aneMissing : success.metrics.aneAvailable = false →
    snapshot.capabilities.aneStatus.availability = .unavailable
  rootProcessStatus : TellsLatest latest snapshot.capabilities.rootProcessStatus
  coreMix : ∀ process ∈ snapshot.processes,
    Column success.metrics.processCoreMix latest process.pid process.coreMix
  io : ∀ process ∈ snapshot.processes,
    Column success.metrics.processIo latest process.pid process.io
  power : ∀ process ∈ snapshot.processes,
    Column success.metrics.processPower latest process.pid process.power

/-- Before any success: waiting exactly as long as nothing is published. -/
structure Waits (published : List RootOutcome) (capabilities : CapabilitySnapshot) : Prop where
  thermal : capabilities.thermalStatus.availability = .waiting ↔ published = []
  ane : capabilities.aneStatus.availability = .waiting ↔ published = []
  rootProcess : capabilities.rootProcessStatus.availability = .waiting ↔ published = []

/-- The snapshot of a sample: the table lists exactly the processes that were sampled, and all of it
reports the outcomes. -/
structure RootReport (published : List RootOutcome) (input : SampleInput)
    (snapshot : SystemSnapshot) : Prop where
  lists : (snapshot.processes.map (·.pid)).Perm (input.listed.map (·.pid))
  carries : ∀ success latest earlier, latestSuccess published = some success →
    published = latest :: earlier → Carries success latest snapshot
  waits : latestSuccess published = none → Waits published snapshot.capabilities

/-- The snapshot of every sample reports the outcomes published so far. -/
def TruthfulRoot (s : RootRun) : RootMove → Prop
  | .sample input => RootReport s.published input (Mtop.sample σ s.shared input s.sampler).snapshot
  | _ => True

/-! ## The cell -/

def successMetrics (published : List RootOutcome) : RootMetrics :=
  match latestSuccess published with
  | none => {}
  | some success => success.metrics

/-- What the shared cell holds after these publications. -/
def cell : List RootOutcome → RootMetrics
  | [] => {}
  | outcome :: earlier => toPublish outcome.metrics (successMetrics earlier)

/-- The outcomes that the loop knows of. -/
def RootRun.known (s : RootRun) : List RootOutcome :=
  match s.pending with
  | none => s.published
  | some (outcome, _) => outcome :: s.published

structure RootRun.Linked (s : RootRun) : Prop where
  rootMode : s.sampler.snapshot.capabilities.rootMode = true
  shared : s.shared = cell s.published
  lastSuccess : s.lastSuccess = successMetrics s.known
  pending : ∀ outcome metrics, s.pending = some (outcome, metrics) →
    metrics = cell (outcome :: s.published)

theorem latestSuccess_cons (outcome : RootOutcome) (earlier : List RootOutcome) :
    latestSuccess (outcome :: earlier) =
      if outcome.metrics.available then some outcome else latestSuccess earlier := by
  unfold latestSuccess
  rw [List.find?_cons]
  cases outcome.metrics.available <;> rfl

theorem latestSuccess_available {published : List RootOutcome} {success : RootOutcome}
    (h : latestSuccess published = some success) : success.metrics.available = true :=
  List.find?_some (p := fun outcome : RootOutcome => outcome.metrics.available) h

theorem successMetrics_cons (outcome : RootOutcome) (earlier : List RootOutcome) :
    successMetrics (outcome :: earlier) =
      nextSuccess outcome.metrics (successMetrics earlier) := by
  unfold successMetrics nextSuccess
  rw [latestSuccess_cons]
  cases outcome.metrics.available <;> rfl

variable {σ}

theorem rootStep_linked {s s' : RootRun} {m : RootMove} (hs : s.Linked)
    (h : rootStep σ m s = some s') : s'.Linked := by
  cases m with
  | collect outcome =>
    obtain ⟨hpending, hs'⟩ := Option.ite_none_left_eq_some.mp h
    cases hs'
    have hnone : s.pending = none := Option.not_isSome_iff_eq_none.mp hpending
    have hlast : s.lastSuccess = successMetrics s.published := by
      have := hs.lastSuccess
      unfold RootRun.known at this
      rwa [hnone] at this
    refine ⟨hs.rootMode, hs.shared, ?_, fun outcome' metrics hsome => ?_⟩
    · dsimp only
      rw [hlast, ← successMetrics_cons]
      rfl
    · cases hsome
      rw [hlast]
      rfl
  | publish =>
    dsimp only [rootStep] at h
    cases hpending : s.pending with
    | none =>
      rw [hpending] at h
      cases h
    | some pending =>
      obtain ⟨outcome, metrics⟩ := pending
      rw [hpending] at h
      cases h
      refine ⟨hs.rootMode, hs.pending outcome metrics hpending, ?_, fun _ _ hsome => ?_⟩
      · have := hs.lastSuccess
        unfold RootRun.known at this
        rwa [hpending] at this
      · cases hsome
  | sample input =>
    cases h
    exact ⟨sample_rootMode.trans hs.rootMode, hs.shared, hs.lastSuccess, hs.pending⟩

/-! ## From the cell to the snapshot -/

/-- The cell holds the data of the success, marked with the latest outcome. -/
structure Holds (success latest : RootOutcome) (metrics : RootMetrics) : Prop where
  available : metrics.available = true
  sampled : metrics.sampled = true
  stale : metrics.stale = !latest.metrics.available
  reason : latest.metrics.available = false → metrics.failureReason = latest.metrics.failureReason
  thermal : metrics.thermal = success.metrics.thermal
  aneAvailable : metrics.aneAvailable = success.metrics.aneAvailable
  ane : metrics.ane = success.metrics.ane
  coreMix : metrics.processCoreMix = success.metrics.processCoreMix
  io : metrics.processIo = success.metrics.processIo
  power : metrics.processPower = success.metrics.processPower

theorem cell_holds {success latest : RootOutcome} {earlier : List RootOutcome}
    (h : latestSuccess (latest :: earlier) = some success) :
    Holds success latest (cell (latest :: earlier)) := by
  rw [latestSuccess_cons] at h
  cases havail : latest.metrics.available with
  | true =>
    rw [if_pos havail] at h
    obtain rfl := Option.some.inj h
    have hcell : cell (latest :: earlier) = latest.metrics := toPublish_of_available havail _
    rw [hcell]
    exact ⟨havail, latest.sampled, by rw [latest.fresh, havail]; rfl,
      fun hfail => absurd (havail.symm.trans hfail) (by decide), rfl, rfl, rfl, rfl, rfl, rfl⟩
  | false =>
    rw [if_neg (by rw [havail]; decide)] at h
    have hsuccess : successMetrics earlier = success.metrics := by
      unfold successMetrics
      rw [h]
    have hold : success.metrics.available = true := latestSuccess_available h
    have hcell := toPublish_of_stale havail hold
    rw [if_neg (latest.explained havail), ← hsuccess] at hcell
    have hcell : cell (latest :: earlier) = _ := hcell
    rw [hcell, hsuccess]
    exact ⟨hold, rfl, by rw [havail]; rfl, fun _ => rfl, rfl, rfl, rfl, rfl, rfl, rfl⟩

theorem cell_waits {published : List RootOutcome} (h : latestSuccess published = none) :
    (cell published).available = false ∧ ((cell published).sampled = false ↔ published = []) := by
  cases published with
  | nil => exact ⟨rfl, iff_of_true rfl rfl⟩
  | cons latest earlier =>
    rw [latestSuccess_cons] at h
    cases havail : latest.metrics.available with
    | true =>
      rw [if_pos havail] at h
      cases h
    | false =>
      rw [if_neg (by rw [havail]; decide)] at h
      have hnone : successMetrics earlier = {} := by
        unfold successMetrics
        rw [h]
      have hcell : cell (latest :: earlier) = latest.metrics := by
        rw [cell, hnone]
        exact toPublish_of_failed havail rfl
      rw [hcell, latest.sampled]
      exact ⟨havail, iff_of_false (by decide) (List.cons_ne_nil _ _)⟩

/-- A fresh or stale status tells the latest outcome. -/
theorem Holds.tellsLatest {success latest : RootOutcome} {metrics : RootMetrics}
    (h : Holds success latest metrics) (sampler : Text) (ageMs : UInt64) :
    TellsLatest latest
      { metricStatus (if metrics.stale then .stale else .available)
          (if metrics.stale then metrics.failureReason else sampler) with ageMs } := by
  unfold TellsLatest metricStatus
  rw [h.stale]
  cases havail : latest.metrics.available with
  | true => exact ⟨iff_of_true rfl rfl, fun hfail => by cases hfail⟩
  | false =>
    refine ⟨iff_of_false (fun hstatus => ?_) (by decide), fun _ => ⟨rfl, h.reason havail⟩⟩
    cases hstatus

theorem rootDetail_column {values : TreeMap ℤ Text} {latest : RootOutcome} {stale : Bool}
    (hstale : stale = !latest.metrics.available) (pid : ℤ) :
    Column values latest pid (rootDetail values (str "n/a") stale pid) := by
  unfold Column rootDetail
  subst hstale
  cases values[pid]? with
  | some value => rfl
  | none => cases latest.metrics.available <;> rfl

theorem applyAvailable_aneStatus {metrics : RootMetrics} {now : ℕ} {snapshot : SystemSnapshot}
    (h : metrics.aneAvailable = true) :
    (applyAvailable metrics now snapshot).capabilities.aneStatus =
      { metricStatus (if metrics.stale then .stale else .available)
          (if metrics.stale then metrics.failureReason else str "powermetrics ANE sampler") with
        ageMs := steadyAgeMs metrics.sampleTime now } := if_pos h

theorem applyAvailable_aneMissing {metrics : RootMetrics} {now : ℕ} {snapshot : SystemSnapshot}
    (h : metrics.aneAvailable = false) :
    (applyAvailable metrics now snapshot).capabilities.aneStatus =
      { metricStatus .unavailable (str "ANE field missing from powermetrics") with
        ageMs := steadyAgeMs metrics.sampleTime now } := if_neg (by rw [h]; decide)

theorem carries_of_showsRoot {success latest : RootOutcome} {metrics : RootMetrics} {now : ℕ}
    {snapshot : SystemSnapshot} (h : Holds success latest metrics)
    (hshows : ShowsRoot metrics now snapshot) : Carries success latest snapshot := by
  obtain ⟨⟨before, happlied⟩, hcolumns⟩ := hshows
  rw [applyRootMetrics_of_available h.available] at happlied
  rw [h.sampled] at hcolumns
  have hstatus : snapshot.capabilities.rootProcessStatus =
      { metricStatus (if metrics.stale then .stale else .available)
          (if metrics.stale then metrics.failureReason else str "powermetrics task sampler") with
        ageMs := steadyAgeMs metrics.sampleTime now } := by
    rw [happlied]
    rfl
  have hstale : (snapshot.capabilities.rootProcessStatus.availability == .stale) =
      !latest.metrics.available := by
    rw [hstatus, h.stale]
    cases latest.metrics.available <;> rfl
  refine ⟨?_, ?_, ?_, ?_, ?_, ?_, ?_, ?_, ?_⟩
  · rw [happlied]
    exact h.thermal
  · rw [happlied, ← h.aneAvailable, ← h.ane]
    rfl
  · rw [happlied]
    exact h.tellsLatest _ _
  · intro hane
    rw [happlied, applyAvailable_aneStatus (h.aneAvailable.trans hane)]
    exact h.tellsLatest _ _
  · intro hane
    rw [happlied, applyAvailable_aneMissing (h.aneAvailable.trans hane)]
    rfl
  · rw [hstatus]
    exact h.tellsLatest _ _
  · intro process hprocess
    rw [(hcolumns process hprocess).coreMix, h.coreMix]
    exact rootDetail_column hstale process.pid
  · intro process hprocess
    rw [(hcolumns process hprocess).io, h.io]
    exact rootDetail_column hstale process.pid
  · intro process hprocess
    rw [(hcolumns process hprocess).power, h.power]
    exact rootDetail_column hstale process.pid

theorem applyUnavailable_waiting (metrics : RootMetrics) (snapshot : SystemSnapshot) :
    (applyUnavailable metrics snapshot).capabilities.thermalStatus.availability = .waiting ↔
      metrics.sampled = false := by
  unfold applyUnavailable metricStatus
  cases metrics.sampled with
  | false => exact iff_of_true rfl rfl
  | true =>
    dsimp only
    split_ifs <;> simp_all

theorem rootReport_of_showsRoot {published : List RootOutcome} {input : SampleInput} {now : ℕ}
    {snapshot : SystemSnapshot} (h : ShowsRoot (cell published) now snapshot)
    (hlists : (snapshot.processes.map (·.pid)).Perm (input.listed.map (·.pid))) :
    RootReport published input snapshot := by
  refine ⟨hlists, fun success latest earlier hsuccess hpublished => ?_, fun hnone => ?_⟩
  · subst hpublished
    exact carries_of_showsRoot (cell_holds hsuccess) h
  · obtain ⟨havail, hsampled⟩ := cell_waits hnone
    obtain ⟨before, happlied⟩ := h.applied
    rw [applyRootMetrics_of_unavailable havail] at happlied
    have hwaits := applyUnavailable_waiting (cell published) before
    rw [happlied]
    exact ⟨hwaits.trans hsampled, hwaits.trans hsampled, hwaits.trans hsampled⟩

/-- In every interleaving of the background loop with samples, every snapshot reports the outcomes
published so far: the data of the latest success under the latest outcome's status. -/
theorem root_snapshots_truthful (σ : StdSort) (moves : List RootMove) :
    Always (rootStep σ) (TruthfulRoot σ) moves { sampler := darwinSampler true } := by
  have hstart : RootRun.Linked { sampler := darwinSampler true } :=
    ⟨rfl, rfl, rfl, fun _ _ h => by cases h⟩
  refine always_of_inv (fun s m s' hs h => rootStep_linked hs h) (fun s m hs => ?_) moves hstart
  cases m with
  | collect outcome => trivial
  | publish => trivial
  | sample input =>
    have hshows : ShowsRoot (cell s.published) input.rootTime
        (Mtop.sample σ s.shared input s.sampler).snapshot :=
      hs.shared ▸ sample_showsRoot hs.rootMode
    exact rootReport_of_showsRoot hshows sampleProcesses_pids

end Runs
end Mtop
