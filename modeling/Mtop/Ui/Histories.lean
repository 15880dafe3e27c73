import Mtop.Ui.LoopSteps
import Mtop.Ui.PlotData
import Mtop.Ui.RiskAgreement

/-! The histories of the main loop over whole runs: each of the eight series is a window on the same
stream of samples, so the two lines of a plot show the same moments. -/
namespace Mtop
open Cxx Machine
set_option autoImplicit false

/-! ## The loop with its histories -/

structure PlotHistories where
  gpu : Samples Double := ⟨[], by decide⟩
  power : Samples Double := ⟨[], by decide⟩
  io : IoHistory := ⟨⟨[], by decide⟩, ⟨[], by decide⟩, ⟨[], by decide⟩, ⟨[], by decide⟩,
    ⟨[], by decide⟩, ⟨[], by decide⟩⟩

/-- What a frame does before it draws. -/
def PlotHistories.push (h : PlotHistories) (refreshMs : ℤ) (snapshot : SystemSnapshot) :
    PlotHistories where
  gpu := h.gpu.push refreshMs snapshot.gpuUtilizationPercent
  power := h.power.push refreshMs snapshot.systemPowerWatts
  io := appendIoHistory h.io snapshot refreshMs

structure Monitor where
  ui : Ui
  histories : PlotHistories := {}

def startMonitor (config : AppConfig) : Monitor := { ui := start config }

/-- A move of the loop; a frame pushes its sample with the refresh interval of the moment. -/
def monitorStep (σ : StdSort) (move : Move) (m : Monitor) : Option Monitor :=
  (step σ move m.ui).map fun ui =>
    { ui
      histories :=
        match move with
        | .frame snapshot _ _ _ => m.histories.push m.ui.config.refreshMs snapshot
        | .input _ _ => m.histories }

/-- The sample of a frame and how many samples the frame keeps. -/
def frameLog (m : Monitor) : Move → List (SystemSnapshot × ℕ)
  | .frame snapshot _ _ _ => [(snapshot, maxHistory m.ui.config.refreshMs)]
  | .input _ _ => []

/-! ## Windows on a stream -/

/-- How many samples are left after frames that keep so many. -/
def keptAfter (limits : List ℕ) : ℕ := limits.foldl (fun kept limit => min (kept + 1) limit) 0

theorem keptAfter_concat (limits : List ℕ) (limit : ℕ) :
    keptAfter (limits ++ [limit]) = min (keptAfter limits + 1) limit := by
  rw [keptAfter, List.foldl_append]
  rfl

theorem keptAfter_le_length (limits : List ℕ) : keptAfter limits ≤ limits.length := by
  induction limits using List.reverseRecOn with
  | nil => exact le_refl 0
  | append_singleton limits limit ih =>
    rw [keptAfter_concat, List.length_append, List.length_singleton]
    omega

/-- Frames that keep sixty samples at least and six hundred at most. -/
theorem keptAfter_bounds {limits : List ℕ} (h : ∀ limit ∈ limits, 60 ≤ limit ∧ limit ≤ 600) :
    min limits.length 60 ≤ keptAfter limits ∧ keptAfter limits ≤ 600 := by
  induction limits using List.reverseRecOn with
  | nil => exact ⟨le_refl 0, Nat.zero_le _⟩
  | append_singleton limits limit ih =>
    obtain ⟨hlow, hhigh⟩ := ih fun limit hl => h limit (List.mem_append_left _ hl)
    have hlimit := h limit (List.mem_append_right _ List.mem_cons_self)
    rw [keptAfter_concat, List.length_append, List.length_singleton]
    omega

theorem le_maxHistory (refreshMs : ℤ) : 60 ≤ maxHistory refreshMs := by
  unfold maxHistory
  omega

section Push
variable {α : Type}

/-- Pushing to a window and cutting it moves the window on. -/
theorem rtake_push_rtake {l : List α} {n : ℕ} (hn : n ≤ l.length) (m : ℕ) (x : α) :
    (l.rtake n ++ [x]).rtake m = (l ++ [x]).rtake (min (n + 1) m) := by
  unfold List.rtake
  rw [List.length_append, List.length_append, List.length_drop, List.length_singleton,
    ← List.drop_append_of_le_length (by omega : l.length - n ≤ l.length), List.drop_drop]
  congr 1
  omega

theorem Samples.push_rtake {history : Samples α} {l : List α} {limits : List ℕ}
    (hl : limits.length = l.length) (h : history.values = l.rtake (keptAfter limits))
    (refreshMs : ℤ) (x : α) :
    (history.push refreshMs x).values =
      (l ++ [x]).rtake (keptAfter (limits ++ [maxHistory refreshMs])) := by
  show (history.values ++ [x]).rtake (maxHistory refreshMs) = _
  rw [h, keptAfter_concat, rtake_push_rtake ((keptAfter_le_length limits).trans_eq hl)]

end Push

/-! ## The eight series -/

/-- Each series with what it records of a sample. -/
structure Series where
  read : SystemSnapshot → ℚ
  history : History

def PlotHistories.series (h : PlotHistories) : List Series :=
  [⟨fun s => s.gpuUtilizationPercent.value, h.gpu.map Double.value⟩,
    ⟨fun s => s.systemPowerWatts.value, h.power.map Double.value⟩,
    ⟨fun s => s.diskIo.readBytesPerSec.toNat, h.io.diskRead.history⟩,
    ⟨fun s => s.diskIo.writeBytesPerSec.toNat, h.io.diskWrite.history⟩,
    ⟨fun s => s.pagingIo.pageinsBytesPerSec.toNat, h.io.pagingIn.history⟩,
    ⟨fun s => s.pagingIo.pageoutsBytesPerSec.toNat, h.io.pagingOut.history⟩,
    ⟨fun s => s.networkIo.rxBytesPerSec.toNat, h.io.netRx.history⟩,
    ⟨fun s => s.networkIo.txBytesPerSec.toNat, h.io.netTx.history⟩]

/-- A series holds the newest samples of a log, as many as its frames have left. -/
def Series.Holds (log : List (SystemSnapshot × ℕ)) (series : Series) : Prop :=
  series.history.values =
    (log.map fun entry => series.read entry.1).rtake (keptAfter (log.map Prod.snd))

theorem Series.holds_push {α : Type} {log : List (SystemSnapshot × ℕ)} {history : Samples α}
    {f : α → ℚ} {get : SystemSnapshot → α}
    (h : Series.Holds log ⟨fun s => f (get s), history.map f⟩) (refreshMs : ℤ)
    (snapshot : SystemSnapshot) :
    Series.Holds (log ++ [(snapshot, maxHistory refreshMs)])
      ⟨fun s => f (get s), (history.push refreshMs (get snapshot)).map f⟩ := by
  have hmap : ((history.push refreshMs (get snapshot)).map f).values =
      ((history.map f).push refreshMs (f (get snapshot))).values := by
    show (List.drop _ _).map f = List.drop _ _
    rw [List.map_drop, List.map_append, List.length_append, List.length_append]
    show _ = List.drop ((history.values.map f).length + _ - _) _
    rw [List.length_map]
    rfl
  unfold Series.Holds
  rw [hmap, Samples.push_rtake (by rw [List.length_map, List.length_map]) h, List.map_append,
    List.map_append]
  rfl

def PlotHistories.Hold (log : List (SystemSnapshot × ℕ)) (h : PlotHistories) : Prop :=
  ∀ series ∈ h.series, series.Holds log

theorem PlotHistories.hold_push {log : List (SystemSnapshot × ℕ)} {h : PlotHistories}
    (hold : h.Hold log) (refreshMs : ℤ) (snapshot : SystemSnapshot) :
    (h.push refreshMs snapshot).Hold (log ++ [(snapshot, maxHistory refreshMs)]) := by
  unfold PlotHistories.Hold PlotHistories.series at hold ⊢
  simp only [List.forall_mem_cons, List.not_mem_nil, false_imp_iff, implies_true, and_true]
    at hold ⊢
  obtain ⟨hgpu, hpower, hread, hwrite, hin, hout, hrx, htx⟩ := hold
  exact ⟨Series.holds_push hgpu refreshMs snapshot, Series.holds_push hpower refreshMs snapshot,
    Series.holds_push hread refreshMs snapshot, Series.holds_push hwrite refreshMs snapshot,
    Series.holds_push hin refreshMs snapshot, Series.holds_push hout refreshMs snapshot,
    Series.holds_push hrx refreshMs snapshot, Series.holds_push htx refreshMs snapshot⟩

/-! ## Runs -/

section Run
variable {σ : StdSort}

/-- What a log says of the loop after it: the series hold it, and its limits are those of frames. -/
structure Monitor.After (log : List (SystemSnapshot × ℕ)) (m : Monitor) : Prop where
  hold : m.histories.Hold log
  limits : ∀ limit ∈ log.map Prod.snd, 60 ≤ limit ∧ limit ≤ 600

theorem monitorStep_after {log : List (SystemSnapshot × ℕ)} {m m' : Monitor} {move : Move}
    (h : m.After log) (hstep : monitorStep σ move m = some m') :
    m'.After (log ++ frameLog m move) := by
  obtain ⟨ui, -, rfl⟩ := Option.map_eq_some_iff.mp hstep
  cases move with
  | frame snapshot rows cols now =>
    refine ⟨PlotHistories.hold_push h.hold m.ui.config.refreshMs snapshot, fun limit hlimit => ?_⟩
    rw [List.map_append, List.mem_append] at hlimit
    rcases hlimit with hlimit | hlimit
    · exact h.limits limit hlimit
    · rw [List.mem_singleton.mp hlimit]
      exact ⟨le_maxHistory _, maxHistory_le _⟩
  | input event env =>
    rw [show frameLog m (.input event env) = [] from rfl, List.append_nil]
    exact ⟨h.hold, h.limits⟩

theorem run_after {moves : List Move} {log : List (SystemSnapshot × ℕ)} {m m' : Monitor}
    (h : m.After log) (hrun : run (monitorStep σ) moves m = some m') :
    m'.After (log ++ trace (monitorStep σ) frameLog moves m) := by
  induction moves generalizing m log with
  | nil =>
    cases hrun
    rw [trace, List.append_nil]
    exact h
  | cons move moves ih =>
    obtain ⟨next, hnext, hrest⟩ := run_cons hrun
    rw [trace_cons _ _ hnext, ← List.append_assoc]
    exact ih (monitorStep_after h hnext) hrest

theorem startMonitor_after (config : AppConfig) : (startMonitor config).After [] where
  hold := by
    unfold PlotHistories.Hold PlotHistories.series
    simp only [List.forall_mem_cons, List.not_mem_nil, false_imp_iff, implies_true, and_true]
    exact ⟨rfl, rfl, rfl, rfl, rfl, rfl, rfl, rfl⟩
  limits := nofun

end Run

/-- How many samples a plot over kept samples shows. -/
def visibleSamples (kept : ℕ) (refreshMs : ℤ) : ℕ := min kept (max 1 (60000 / max 100 refreshMs)).toNat

/-- A plot of two series shows, in its last pairs of columns, the means of consecutive slices of their
newest samples, the slices of both cut at the same moments; the second series may be scaled. All other
columns are zeros: the pairs before them, and the column that an odd width leaves over. -/
def PlotsSameMoments (log : List (SystemSnapshot × ℕ)) (first second : Series) : Prop :=
  ∀ (scale : ℚ → ℚ) (refreshMs : ℤ) (cols : ℕ), 2 ≤ cols →
    ∃ pieces pieces' : List (List ℚ),
    populateNvtopPlotData first.history (second.history.map scale) refreshMs cols =
      some ⟨List.replicate (2 * (cols / 2 - pieces.length)) 0 ++
          interleave (pieces.map mean) (pieces'.map mean) ++ List.replicate (cols - 2 * (cols / 2)) 0,
        labelSeconds refreshMs cols, cols⟩ ∧
    pieces.map List.length = pieces'.map List.length ∧
    (∀ piece ∈ pieces, piece ≠ []) ∧
    pieces.flatten = (log.map fun entry => first.read entry.1).rtake
      (visibleSamples (keptAfter (log.map Prod.snd)) refreshMs) ∧
    pieces'.flatten = ((log.map fun entry => second.read entry.1).rtake
      (visibleSamples (keptAfter (log.map Prod.snd)) refreshMs)).map scale

/-- The newest of the newest. -/
theorem rtake_rtake_of_le {α : Type} {l : List α} {n m : ℕ} (h : m ≤ n) (hn : n ≤ l.length) :
    (l.rtake n).rtake m = l.rtake m := by
  unfold List.rtake
  rw [List.length_drop, List.drop_drop]
  congr 1
  omega

theorem plots_same_moments {log : List (SystemSnapshot × ℕ)} {first second : Series}
    (hfirst : first.Holds log) (hsecond : second.Holds log) : PlotsSameMoments log first second := by
  intro scale refreshMs cols hcols
  have hkept : keptAfter (log.map Prod.snd) ≤ log.length :=
    (keptAfter_le_length _).trans_eq (List.length_map _)
  have hlength : first.history.values.length = keptAfter (log.map Prod.snd) := by
    rw [hfirst, List.rtake, List.length_drop, List.length_map]
    omega
  have hlength' : (second.history.map scale).values.length = keptAfter (log.map Prod.snd) := by
    show (second.history.values.map scale).length = _
    rw [List.length_map, hsecond, List.rtake, List.length_drop, List.length_map]
    omega
  have hraw : rawSamples first.history (second.history.map scale) refreshMs =
      visibleSamples (keptAfter (log.map Prod.snd)) refreshMs := by
    unfold rawSamples visibleSamples
    rw [hlength, hlength', min_self]
  have hnewest : ∀ {series : Series}, series.Holds log → ∀ count ≤ keptAfter (log.map Prod.snd),
      newest count series.history = (log.map fun entry => series.read entry.1).rtake count := by
    intro series h count hcount
    show series.history.values.rtake count = _
    rw [h, rtake_rtake_of_le hcount (hkept.trans_eq (List.length_map _).symm)]
  have hscaled : ∀ count, newest count (second.history.map scale) =
      (newest count second.history).map scale := by
    intro count
    show (second.history.values.map scale).drop _ = (second.history.values.drop _).map scale
    rw [List.map_drop]
    show List.drop ((second.history.values.map scale).length - count) _ = _
    rw [List.length_map]
  obtain ⟨hle, hle'⟩ := rawSamples_le first.history (second.history.map scale) refreshMs
  have hdata := populateNvtopPlotData_eq first.history (second.history.map scale) refreshMs hcols
    rfl rfl
  rw [hraw] at hle hle' hdata
  let count := visibleSamples (keptAfter (log.map Prod.snd)) refreshMs
  have hcount : count ≤ keptAfter (log.map Prod.snd) := min_le_left _ _
  have hempty : min (cols / 2) count = 0 → count = 0 := by omega
  have hcovers := historySlices_covers (min_le_right (cols / 2) count) hempty hle
  have hcovers' := historySlices_covers (min_le_right (cols / 2) count) hempty hle'
  refine ⟨_, _, ?_, historySlices_lengths hle hle', hcovers.nonempty, ?_, ?_⟩
  · rw [hcovers.parts]
    exact hdata
  · rw [hcovers.covered, hnewest hfirst count hcount]
  · rw [hcovers'.covered, hscaled, hnewest hsecond count hcount]

/-- What the histories promise after the frames of a log. -/
structure Monitor.FollowsSamples (log : List (SystemSnapshot × ℕ)) (m : Monitor) : Prop where
  minute : min log.length 60 ≤ keptAfter (log.map Prod.snd)
  bounded : keptAfter (log.map Prod.snd) ≤ 600
  plots : ∀ first ∈ m.histories.series, ∀ second ∈ m.histories.series,
    PlotsSameMoments log first second

/-- The histories change nothing in the loop. -/
theorem monitor_run {σ : StdSort} {moves : List Move} {m m' : Monitor}
    (hrun : run (monitorStep σ) moves m = some m') : run (step σ) moves m.ui = some m'.ui := by
  induction moves generalizing m with
  | nil =>
    cases hrun
    rfl
  | cons move moves ih =>
    obtain ⟨next, hnext, hrest⟩ := run_cons hrun
    obtain ⟨ui, hstep, rfl⟩ := Option.map_eq_some_iff.mp hnext
    rw [run, hstep]
    exact ih hrest

/-- In every run of the loop, with any changes of the refresh interval on the way, the eight histories
are windows of one length on the stream of samples: at least the newest sixty, or all if there are
fewer, and at most 600. So any two of them are plotted from the same samples: the last pairs of columns
hold the means of slices of them, the others zeros. -/
theorem plots_follow_samples (σ : StdSort) (config : AppConfig) {moves : List Move} {m : Monitor}
    (hrun : run (monitorStep σ) moves (startMonitor config) = some m) :
    run (step σ) moves (start config) = some m.ui ∧
      m.FollowsSamples (trace (monitorStep σ) frameLog moves (startMonitor config)) := by
  have h := run_after (startMonitor_after config) hrun
  rw [List.nil_append] at h
  obtain ⟨hlow, hhigh⟩ := keptAfter_bounds h.limits
  rw [List.length_map] at hlow
  exact ⟨monitor_run hrun, hlow, hhigh, fun first hfirst second hsecond =>
    plots_same_moments (h.hold first hfirst) (h.hold second hsecond)⟩

/-- A frame, and a change of the refresh interval after it. -/
def refreshRun : List Move :=
  [.frame { gpuUtilizationPercent := 40 } 30 80 0, .input { key := keyF 2 } {},
    .input { key := keyDown } {}, .input { key := keyDown } {}, .input { key := keyRight } {}]

theorem plots_follow_samples_refreshRun :
    ∃ m, run (monitorStep .insertion) refreshRun (startMonitor { viewProfile := .beta }) = some m ∧
      m.ui.config.refreshMs = 1250 ∧
      m.FollowsSamples (trace (monitorStep .insertion) frameLog refreshRun
        (startMonitor { viewProfile := .beta })) := by
  have hsome : ((run (monitorStep .insertion) refreshRun
      (startMonitor { viewProfile := .beta })).map (·.ui.config.refreshMs)) = some 1250 := by
    decide
  obtain ⟨m, hrun, hrefresh⟩ := Option.map_eq_some_iff.mp hsome
  exact ⟨m, hrun, hrefresh, (plots_follow_samples .insertion _ hrun).2⟩

end Mtop
