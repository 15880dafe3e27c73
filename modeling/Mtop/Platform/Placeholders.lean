import Mtop.Platform.RootRun

/-! The placeholders in the root columns. A column without a value says which of four things is the
reason; over every interleaving of the two loops, one of them is told of failures as well. -/
namespace Mtop
open Cxx Std Machine
set_option autoImplicit false

/-! ## What a placeholder says -/

/-- Whether the root sample delivered last has succeeded. -/
def latestSucceeded (published : List RootOutcome) : Option Bool :=
  published.head?.map (·.metrics.available)

/-- The meaning of the four placeholders. -/
structure Explained (rootMode : Bool) (published : List RootOutcome) (shown : Text) : Prop where
  root : shown = str "root" ↔ rootMode = false
  wait : shown = str "wait" ↔ rootMode = true ∧ published = []
  stale : shown = str "stale" ↔
    rootMode = true ∧ latestSucceeded published = some false ∧ (latestSuccess published).isSome
  missing : shown = str "n/a" → latestSucceeded published = some true

/-- Every column without a value is explained. -/
structure ExplainedColumns (metrics : RootMetrics) (rootMode : Bool)
    (published : List RootOutcome) (process : ProcessSnapshot) : Prop where
  coreMix : metrics.processCoreMix[process.pid]? = none →
    Explained rootMode published process.coreMix
  io : metrics.processIo[process.pid]? = none → Explained rootMode published process.io
  power : metrics.processPower[process.pid]? = none → Explained rootMode published process.power

/-- A value for each of the three columns. -/
structure RootMetrics.Complete (metrics : RootMetrics) (pid : ℤ) : Prop where
  coreMix : metrics.processCoreMix[pid]? ≠ none
  io : metrics.processIo[pid]? ≠ none
  power : metrics.processPower[pid]? ≠ none

section Runs
variable (σ : StdSort) (rootMode : Bool)

/-- The table of every sample explains its placeholders. -/
def ExplainsPlaceholders (s : RootRun) : RootMove → Prop
  | .sample input =>
    ∀ process ∈ (Mtop.sample σ s.shared input s.sampler).snapshot.processes,
      ExplainedColumns (Mtop.sample σ s.shared input s.sampler).cachedRootMetrics rootMode
        s.published process
  | _ => True

/-- While root samples have only failed, no listed process lacks a value. -/
def LacksNothing (s : RootRun) : RootMove → Prop
  | .sample input =>
    rootMode = true → s.published ≠ [] → latestSuccess s.published = none →
      ∀ reading ∈ input.listed, s.shared.Complete reading.pid
  | _ => True

end Runs

/-! ## The table of one sample -/

section Sample
variable {σ : StdSort} {shared : RootMetrics} {input : SampleInput} {s : Sampler}

theorem sampleProcesses_cached :
    (sampleProcesses σ input s).cachedRootMetrics = s.cachedRootMetrics := by
  unfold sampleProcesses
  cases input.processes <;> rfl

/-- The state in which the process stage of a sample starts. -/
def beforeProcessStage (shared : RootMetrics) (input : SampleInput) (s : Sampler) : Sampler :=
  sampleRootMetrics shared input (beforeRootStage input s)

theorem sample_columns :
    ∀ process ∈ (sample σ shared input s).snapshot.processes,
      (beforeProcessStage shared input s).FillsColumns process := sampleProcesses_columns

theorem sample_cached (h : s.snapshot.capabilities.rootMode = true) :
    (sample σ shared input s).cachedRootMetrics = shared := by
  have hmode : (beforeRootStage input s).snapshot.capabilities.rootMode = true := by
    rw [beforeRootStage_capabilities]
    exact h
  refine sampleProcesses_cached.trans ?_
  exact congrArg Sampler.cachedRootMetrics (if_pos hmode)

/-- Without a value the column shows the placeholder. -/
theorem rootDetail_none {values : TreeMap ℤ Text} {missing : Text} {stale : Bool} {pid : ℤ}
    (h : values[pid]? = none) :
    rootDetail values missing stale pid = if stale then str "stale" else missing := by
  unfold rootDetail
  rw [h]

/-! ## Without root -/

theorem explained_root (published : List RootOutcome) : Explained false published (str "root") := by
  refine ⟨iff_of_true rfl rfl, iff_of_false ?_ ?_, iff_of_false ?_ ?_, fun h => ?_⟩
  · rw [str_inj]
    decide
  · exact fun h => Bool.noConfusion h.1
  · rw [str_inj]
    decide
  · exact fun h => Bool.noConfusion h.1
  · rw [str_inj] at h
    exact absurd h (by decide)

theorem rootless_explained (h : s.snapshot.capabilities.rootMode = false)
    (published : List RootOutcome) :
    ∀ process ∈ (sample σ shared input s).snapshot.processes,
      ExplainedColumns (sample σ shared input s).cachedRootMetrics false published process := by
  intro process hprocess
  have hmode : (beforeRootStage input s).snapshot.capabilities.rootMode = false := by
    rw [beforeRootStage_capabilities]
    exact h
  have hstatus : (beforeProcessStage shared input s).snapshot.capabilities.rootProcessStatus =
      metricStatus .requiresRoot (str "powermetrics requires root") := by
    unfold beforeProcessStage sampleRootMetrics
    rw [hmode]
    rfl
  have hmode' : (beforeProcessStage shared input s).snapshot.capabilities.rootMode = false :=
    sampleRootMetrics_rootMode.trans hmode
  have hcached : (sample σ shared input s).cachedRootMetrics =
      (beforeProcessStage shared input s).cachedRootMetrics := sampleProcesses_cached
  have hcolumns := sample_columns process hprocess
  unfold Sampler.FillsColumns missingRootDetail at hcolumns
  rw [hstatus, hmode'] at hcolumns
  rw [hcached]
  have hshown : ∀ values : TreeMap ℤ Text, values[process.pid]? = none →
      Explained false published (rootDetail values (str "root") false process.pid) := by
    intro values hnone
    rw [rootDetail_none hnone]
    exact explained_root published
  refine ⟨fun hnone => ?_, fun hnone => ?_, fun hnone => ?_⟩
  · rw [hcolumns.coreMix]
    exact hshown _ hnone
  · rw [hcolumns.io]
    exact hshown _ hnone
  · rw [hcolumns.power]
    exact hshown _ hnone

/-! ## With root -/

theorem explained_wait : Explained true [] (str "wait") := by
  refine ⟨?_, iff_of_true rfl ⟨rfl, rfl⟩, ?_, fun h => ?_⟩
  · simp only [str_inj, String.reduceEq, Bool.true_eq_false]
  · exact iff_of_false (by rw [str_inj]; decide) fun h => by cases h.2.1
  · rw [str_inj] at h
    exact absurd h (by decide)

theorem explained_stale {published : List RootOutcome}
    (hfailed : latestSucceeded published = some false) (h : (latestSuccess published).isSome) :
    Explained true published (str "stale") := by
  refine ⟨?_, ?_, iff_of_true rfl ⟨rfl, hfailed, h⟩, fun h => ?_⟩
  · simp only [str_inj, String.reduceEq, Bool.true_eq_false]
  · refine iff_of_false (by rw [str_inj]; decide) fun hwait => ?_
    rw [hwait.2] at h
    cases h
  · rw [str_inj] at h
    exact absurd h (by decide)

theorem explained_missing {published : List RootOutcome}
    (h : latestSucceeded published = some true) : Explained true published (str "n/a") := by
  refine ⟨?_, ?_, ?_, fun _ => h⟩
  · simp only [str_inj, String.reduceEq, Bool.true_eq_false]
  · refine iff_of_false (by rw [str_inj]; decide) fun hwait => ?_
    rw [hwait.2] at h
    cases h
  · refine iff_of_false (by rw [str_inj]; decide) fun hstale => ?_
    rw [hstale.2.1] at h
    cases h

/-- The placeholder that the cell of these publications gives. -/
def placeholder (published : List RootOutcome) : Text :=
  match published with
  | [] => str "wait"
  | latest :: _ =>
    if latest.metrics.available then str "n/a"
    else if (latestSuccess published).isSome then str "stale" else str "n/a"

theorem placeholder_cons (latest : RootOutcome) (earlier : List RootOutcome) :
    placeholder (latest :: earlier) =
      if latest.metrics.available then str "n/a"
      else if (latestSuccess (latest :: earlier)).isSome then str "stale" else str "n/a" := rfl

/-- The placeholder is wrong exactly after failures alone. -/
theorem explained_placeholder (published : List RootOutcome) :
    Explained true published (placeholder published) ↔
      (published ≠ [] → latestSuccess published ≠ none) := by
  cases published with
  | nil => exact iff_of_true explained_wait fun h => absurd rfl h
  | cons latest earlier =>
    rw [placeholder_cons]
    cases havail : latest.metrics.available with
    | true =>
      have hlatest : latestSucceeded (latest :: earlier) = some true := congrArg some havail
      rw [if_pos rfl]
      refine iff_of_true (explained_missing hlatest) fun _ => ?_
      rw [latestSuccess_cons, havail]
      exact Option.some_ne_none latest
    | false =>
      have hlatest : latestSucceeded (latest :: earlier) = some false := congrArg some havail
      rw [if_neg Bool.false_ne_true]
      cases hsuccess : latestSuccess (latest :: earlier) with
      | none =>
        refine iff_of_false (fun h => ?_) fun h => h (List.cons_ne_nil _ _) rfl
        have hmissing := h.missing rfl
        rw [hlatest] at hmissing
        cases hmissing
      | some success =>
        have hsome : (latestSuccess (latest :: earlier)).isSome = true := by
          rw [hsuccess]
          rfl
        exact iff_of_true (explained_stale hlatest hsome) fun _ => Option.some_ne_none success

/-- The columns of a cell, with the placeholder where the cell has no value. -/
theorem placeholder_shown {published : List RootOutcome} {now : ℕ} {snapshot : SystemSnapshot}
    (h : ShowsRoot (cell published) now snapshot) {process : ProcessSnapshot}
    (hprocess : process ∈ snapshot.processes) :
    RootColumns (cell published) (placeholder published) false process := by
  cases hsuccess : latestSuccess published with
  | some success =>
    cases published with
    | nil => cases hsuccess
    | cons latest earlier =>
      have hholds := cell_holds hsuccess
      have hcarries := carries_of_showsRoot hholds h
      have hplaceholder : placeholder (latest :: earlier) =
          if latest.metrics.available then str "n/a" else str "stale" := by
        rw [placeholder_cons, hsuccess]
        rfl
      have hshown : ∀ (values : TreeMap ℤ Text) (shown : Text),
          Column values latest process.pid shown →
            shown = rootDetail values (placeholder (latest :: earlier)) false process.pid := by
        intro values shown hcolumn
        rw [hcolumn, hplaceholder]
        unfold rootDetail
        cases values[process.pid]? <;> rfl
      refine ⟨?_, ?_, ?_⟩
      · exact hshown _ _ (hholds.coreMix ▸ hcarries.coreMix process hprocess)
      · exact hshown _ _ (hholds.io ▸ hcarries.io process hprocess)
      · exact hshown _ _ (hholds.power ▸ hcarries.power process hprocess)
  | none =>
    obtain ⟨havail, hsampled⟩ := cell_waits hsuccess
    obtain ⟨before, happlied⟩ := h.applied
    rw [applyRootMetrics_of_unavailable havail] at happlied
    have hstale : (snapshot.capabilities.rootProcessStatus.availability == .stale) = false := by
      rw [happlied]
      unfold applyUnavailable metricStatus
      dsimp only
      split_ifs <;> rfl
    have hplaceholder : placeholder published =
        if (cell published).sampled then str "n/a" else str "wait" := by
      cases published with
      | nil => rfl
      | cons latest earlier =>
        have htrue : (cell (latest :: earlier)).sampled = true := by
          by_contra hfalse
          exact List.cons_ne_nil _ _ (hsampled.mp (Bool.eq_false_of_not_eq_true hfalse))
        rw [placeholder_cons, htrue, hsuccess]
        exact ite_self _
    rw [hplaceholder, ← hstale]
    exact h.columns process hprocess

end Sample

section Runs
variable {σ : StdSort}

theorem rootStep_rootMode {s s' : RootRun} {m : RootMove} (h : rootStep σ m s = some s') :
    s'.sampler.snapshot.capabilities.rootMode = s.sampler.snapshot.capabilities.rootMode := by
  cases m with
  | collect outcome =>
    obtain ⟨-, hs'⟩ := Option.ite_none_left_eq_some.mp h
    cases hs'
    rfl
  | publish =>
    dsimp only [rootStep] at h
    cases hpending : s.pending with
    | none =>
      rw [hpending] at h
      cases h
    | some pending =>
      rw [hpending] at h
      cases h
      rfl
  | sample input =>
    cases h
    exact sample_rootMode

/-- A sample in root mode explains its placeholders exactly if it is not one that lacks a value after
failures alone. -/
theorem rooted_explained_iff {s : RootRun} (hs : s.Linked) (m : RootMove) :
    ExplainsPlaceholders σ true s m ↔ LacksNothing true s m := by
  cases m with
  | collect outcome => exact Iff.rfl
  | publish => exact Iff.rfl
  | sample input =>
    have hshows : ShowsRoot (cell s.published) input.rootTime
        (Mtop.sample σ s.shared input s.sampler).snapshot :=
      hs.shared ▸ sample_showsRoot hs.rootMode
    have hcached : (Mtop.sample σ s.shared input s.sampler).cachedRootMetrics = cell s.published :=
      (sample_cached hs.rootMode).trans hs.shared
    have hpids : ((Mtop.sample σ s.shared input s.sampler).snapshot.processes.map (·.pid)).Perm
        (input.listed.map (·.pid)) := sampleProcesses_pids
    have hnone : ∀ (values : TreeMap ℤ Text) (pid : ℤ), values[pid]? = none →
        rootDetail values (placeholder s.published) false pid = placeholder s.published :=
      fun values pid h => rootDetail_none h
    unfold ExplainsPlaceholders LacksNothing
    dsimp only
    rw [hcached]
    constructor
    · intro h _ hpublished hfailed reading hreading
      have hwrong : ¬ Explained true s.published (placeholder s.published) := fun hexplained =>
        (explained_placeholder _).mp hexplained hpublished hfailed
      obtain ⟨process, hprocess, hpid⟩ :=
        List.mem_map.mp (hpids.mem_iff.mpr (List.mem_map_of_mem hreading))
      have hshown := placeholder_shown hshows hprocess
      have hcolumns := h process hprocess
      rw [← hpid, hs.shared]
      refine ⟨fun hmissing => hwrong ?_, fun hmissing => hwrong ?_, fun hmissing => hwrong ?_⟩
      · have hexplained := hcolumns.coreMix hmissing
        rwa [hshown.coreMix, hnone _ _ hmissing] at hexplained
      · have hexplained := hcolumns.io hmissing
        rwa [hshown.io, hnone _ _ hmissing] at hexplained
      · have hexplained := hcolumns.power hmissing
        rwa [hshown.power, hnone _ _ hmissing] at hexplained
    · intro h process hprocess
      have hshown := placeholder_shown hshows hprocess
      obtain ⟨reading, hreading, hpid⟩ :=
        List.mem_map.mp (hpids.mem_iff.mp (List.mem_map_of_mem hprocess))
      by_cases hright : s.published ≠ [] → latestSuccess s.published ≠ none
      · have hexplained := (explained_placeholder s.published).mpr hright
        refine ⟨fun hmissing => ?_, fun hmissing => ?_, fun hmissing => ?_⟩
        · rwa [hshown.coreMix, hnone _ _ hmissing]
        · rwa [hshown.io, hnone _ _ hmissing]
        · rwa [hshown.power, hnone _ _ hmissing]
      · obtain ⟨hpublished, hfailed⟩ := Classical.not_imp.mp hright
        have hcomplete := h rfl hpublished (not_not.mp hfailed) reading hreading
        rw [hpid, hs.shared] at hcomplete
        exact ⟨fun hmissing => absurd hmissing hcomplete.coreMix,
          fun hmissing => absurd hmissing hcomplete.io,
          fun hmissing => absurd hmissing hcomplete.power⟩

/-- In every run, with root or without, the placeholders have their meaning in all tables exactly if
no sample after failures alone lists a process that lacks a value. -/
theorem placeholders_explained_iff (σ : StdSort) (rootMode : Bool) (moves : List RootMove) :
    Always (rootStep σ) (ExplainsPlaceholders σ rootMode) moves
        { sampler := darwinSampler rootMode } ↔
      Always (rootStep σ) (LacksNothing rootMode) moves { sampler := darwinSampler rootMode } := by
  cases rootMode with
  | true =>
    have hstart : RootRun.Linked { sampler := darwinSampler true } :=
      ⟨rfl, rfl, rfl, fun _ _ h => by cases h⟩
    exact always_congr (fun s m s' hs h => rootStep_linked hs h)
      (fun s m hs => rooted_explained_iff hs m) moves hstart
  | false =>
    have hstart : (darwinSampler false).snapshot.capabilities.rootMode = false := rfl
    have hkeep : ∀ s m s', s.sampler.snapshot.capabilities.rootMode = false →
        rootStep σ m s = some s' → s'.sampler.snapshot.capabilities.rootMode = false :=
      fun s m s' hs h => (rootStep_rootMode h).trans hs
    refine always_congr hkeep (fun s m hs => ?_) moves hstart
    cases m with
    | collect outcome => exact Iff.rfl
    | publish => exact Iff.rfl
    | sample input =>
      exact iff_of_true (rootless_explained hs s.published) fun h => Bool.noConfusion h

end Runs
/-- No command could be started. -/
def failedRound : RootOutcome := collectOutcome (fun _ => none) (fun _ => {}) { tempFile := false }

/-- After a failed first root sample the table shows `n/a`, as if it had succeeded. -/
theorem placeholders_not_explained :
    ¬ Always (rootStep .insertion) (ExplainsPlaceholders .insertion true)
      [.collect failedRound, .publish, .sample { processes := some [{ pid := 1 }] }]
      { sampler := darwinSampler true } := by
  intro h
  have hfailed : failedRound.metrics.available = false := by decide +kernel
  have hempty : failedRound.metrics.processCoreMix[(1 : ℤ)]? = none := by decide +kernel
  let final : RootRun :=
    { sampler := darwinSampler true
      lastSuccess := nextSuccess failedRound.metrics {}
      shared := toPublish failedRound.metrics {}
      published := [failedRound] }
  have hrun : run (rootStep .insertion) [.collect failedRound, .publish]
      { sampler := darwinSampler true } = some final := rfl
  have hlinked : final.Linked :=
    run_keeps (fun s m s' hs hstep => rootStep_linked hs hstep)
      ⟨rfl, rfl, rfl, fun _ _ hpending => by cases hpending⟩ hrun
  have hlast : ExplainsPlaceholders .insertion true final
      (.sample { processes := some [{ pid := 1 }] }) := Always.last h hrun
  have hnone : latestSuccess final.published = none := by
    show latestSuccess [failedRound] = none
    rw [latestSuccess_cons, hfailed]
    rfl
  have hcomplete := (rooted_explained_iff hlinked _).mp hlast rfl (List.cons_ne_nil _ _) hnone
    { pid := 1 } List.mem_cons_self
  have hshared : final.shared = failedRound.metrics := toPublish_of_failed hfailed rfl
  rw [hshared] at hcomplete
  exact hcomplete.coreMix hempty

end Mtop
