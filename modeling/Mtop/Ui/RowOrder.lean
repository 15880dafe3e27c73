import Mtop.Model.ProcessOrder
import Mtop.Ui.ProcessRows

/-! The order of the flat process table: what `process_sort_less` promises to `std::sort`, and that
the table does not depend on the order in which the processes were listed. -/
namespace Mtop
open Cxx
set_option autoImplicit false

/-- A listing that the table can order: no pid twice, and percentages that are numbers. -/
structure SystemSnapshot.Listed (snapshot : SystemSnapshot) : Prop where
  pids : (snapshot.processes.map (·.pid)).Nodup
  numeric : ∀ process ∈ snapshot.processes, process.Numeric

section Rows
variable {snapshot : SystemSnapshot} {state : UiState}

theorem filteredProcesses_subset :
    ∀ process ∈ filteredProcesses snapshot state, process ∈ snapshot.processes :=
  fun _ h => List.mem_of_mem_filter h

theorem eq_of_pid (h : (snapshot.processes.map (·.pid)).Nodup) {a b : ProcessSnapshot}
    (ha : a ∈ snapshot.processes) (hb : b ∈ snapshot.processes) (hpid : a.pid = b.pid) : a = b :=
  List.inj_on_of_nodup_map h ha hb hpid

theorem rowLess_strictWeakOn {processes : List ProcessSnapshot}
    (h : ∀ process ∈ processes, process.NumericIn state.sort) :
    StrictWeakOn (rowLess state) (· ∈ processes) :=
  (processSortLess_strictWeakOn state.sort state.sortDirection).mono h

/-- The comparator tells any two listed processes apart. -/
theorem rowLess_separates (hpids : (snapshot.processes.map (·.pid)).Nodup)
    (h : ∀ process ∈ filteredProcesses snapshot state, process.NumericIn state.sort) :
    ∀ a ∈ filteredProcesses snapshot state, ∀ b ∈ filteredProcesses snapshot state,
      rowLess state a b = false → rowLess state b a = false → a = b := by
  intro a ha b hb hab hba
  by_contra hne
  have hpid : a.pid ≠ b.pid := fun hpid =>
    hne (eq_of_pid hpids (filteredProcesses_subset a ha) (filteredProcesses_subset b hb) hpid)
  rcases processSortLess_total state.sort state.sortDirection (h a ha) (h b hb) hpid
    with hless | hless
  · exact Bool.noConfusion (hab.symm.trans hless)
  · exact Bool.noConfusion (hba.symm.trans hless)

/-- Flat rows of one set of processes are one table, however it was listed and sorted. -/
theorem flatRows_eq (σ σ' : StdSort) {snapshot' : SystemSnapshot} (hflat : state.treeMode = false)
    (h : snapshot.Listed) (hperm : snapshot.processes.Perm snapshot'.processes) :
    buildProcessRows σ snapshot state = buildProcessRows σ' snapshot' state := by
  unfold buildProcessRows
  rw [hflat]
  have hnumeric : ∀ process ∈ filteredProcesses snapshot state, process.NumericIn state.sort :=
    fun process hp => (h.numeric process (filteredProcesses_subset _ hp)).inMode _
  exact congrArg _ (σ.sort_eq_of_perm σ' (rowLess_strictWeakOn hnumeric) (hperm.filter _)
    (rowLess_separates h.pids hnumeric))

/-- The rows of the GPU view are the flat rows of the processes that use the GPU. -/
theorem gpuActiveRows_eq (σ σ' : StdSort) (hpids : (snapshot.processes.map (·.pid)).Nodup)
    (h : ∀ process ∈ filteredProcesses snapshot state, process.NumericIn state.sort) :
    buildGpuActiveRows σ snapshot state =
      (buildProcessRows σ' snapshot { state with treeMode := false }).filter
        (·.process.gpuActive) := by
  have hsort := σ'.filter_sort σ (rowLess_strictWeakOn h) (rowLess_separates hpids h) (·.gpuActive)
  have hfilter : (snapshot.processes.filter fun process =>
      process.gpuActive && processMatchesQuery process state.filter) =
        (filteredProcesses snapshot state).filter (·.gpuActive) := by
    unfold filteredProcesses
    rw [List.filter_filter]
  have hflat : buildProcessRows σ' snapshot { state with treeMode := false } =
      (σ'.sort (rowLess state) (filteredProcesses snapshot state)).map fun process => { process } :=
    rfl
  unfold buildGpuActiveRows
  dsimp only
  rw [hfilter, ← hsort, hflat, List.filter_map]
  rfl

end Rows

/-- Where the column the table is sorted by holds numbers, the GPU view shows the rows of the flat
table that use the GPU, in the order of that table, whatever the two sorts do. -/
theorem gpu_rows_restrict_flat_rows (σ σ' : StdSort) (snapshot : SystemSnapshot) (state : UiState)
    (hpids : (snapshot.processes.map (·.pid)).Nodup)
    (hnumeric : ∀ process ∈ filteredProcesses snapshot state, process.NumericIn state.sort) :
    buildGpuActiveRows σ snapshot state =
      (buildProcessRows σ' snapshot { state with treeMode := false }).filter
        (·.process.gpuActive) :=
  gpuActiveRows_eq σ σ' hpids hnumeric

/-- Two processes on the GPU, listed against their order, around one that is not. -/
def gpuSnapshot (between : Double) : SystemSnapshot :=
  { processes :=
      [{ pid := 1, cpuPercent := Double.ofNat 1, gpuActive := true },
        { pid := 2, cpuPercent := between },
        { pid := 3, cpuPercent := Double.ofNat 2, gpuActive := true }] }

theorem gpuSnapshot_numeric {between : Double} (h : between ≠ .nan) (state : UiState) :
    ∀ process ∈ filteredProcesses (gpuSnapshot between) state, process.NumericIn state.sort := by
  intro process hfiltered
  have hprocess := filteredProcesses_subset process hfiltered
  refine ProcessSnapshot.Numeric.inMode ?_ _
  simp only [gpuSnapshot, List.mem_cons, List.not_mem_nil, or_false] at hprocess
  rcases hprocess with rfl | rfl | rfl
  · exact ⟨nofun, nofun⟩
  · exact ⟨h, nofun⟩
  · exact ⟨nofun, nofun⟩

theorem gpu_rows_restrict_flat_rows_gpuSnapshot :
    (buildGpuActiveRows .insertion (gpuSnapshot 0) {}).map (·.process.pid) = [3, 1] ∧
      buildGpuActiveRows .insertion (gpuSnapshot 0) {} =
        (buildProcessRows .insertion (gpuSnapshot 0) {}).filter (·.process.gpuActive) :=
  ⟨by decide, gpu_rows_restrict_flat_rows .insertion .insertion (gpuSnapshot 0) {}
    (by decide) (gpuSnapshot_numeric Double.noConfusion {})⟩

/-- A percentage that is not a number is equivalent to both of its neighbours, and a sort may leave
all three where they are. -/
theorem nan_row_splits_the_order :
    ¬ ∀ (snapshot : SystemSnapshot) (state : UiState),
      (snapshot.processes.map (·.pid)).Nodup →
        buildGpuActiveRows .insertion snapshot state =
          (buildProcessRows .insertion snapshot { state with treeMode := false }).filter
            (·.process.gpuActive) := by
  intro h
  have hrows := congrArg (List.map (·.process.pid)) (h (gpuSnapshot .nan) {} (by decide))
  revert hrows
  decide

end Mtop
