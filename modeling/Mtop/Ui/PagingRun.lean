import Mtop.Ui.Search

/-! The paging of the process table over any run of moves, resizes and new row lists. -/
namespace Mtop
open Cxx
set_option autoImplicit false

/-! ## Pages -/

/-- A page that starts before the end is counted. -/
theorem page_lt_count {size n page : ℤ} (hn : 0 < n) (hstart : page * n < size) :
    page < max 1 (Int.tdiv (size + n - 1) n) := by
  by_cases hpage : page < 1
  · exact lt_max_of_lt_left hpage
  · have hfirst : 1 * n ≤ page * n := Int.mul_le_mul_of_nonneg_right (by omega) hn.le
    obtain ⟨-, -, hlast⟩ := tdiv_page (show 0 ≤ size + n - 1 by omega) hn
    refine lt_max_of_lt_right (lt_of_mul_lt_mul_right ?_ hn.le)
    omega

theorem page_unique {n page page' index : ℤ} (hn : 0 < n)
    (h : page * n ≤ index ∧ index < (page + 1) * n)
    (h' : page' * n ≤ index ∧ index < (page' + 1) * n) : page = page' := by
  have hle : page < page' + 1 := lt_of_mul_lt_mul_right (h.1.trans_lt h'.2) hn.le
  have hle' : page' < page + 1 := lt_of_mul_lt_mul_right (h'.1.trans_lt h.2) hn.le
  omega

/-- The pages cover every index exactly once. -/
theorem pages_cover {size n index : ℤ} (hn : 0 < n) (h0 : 0 ≤ index) (hlt : index < size) :
    ∃! page : ℤ, (0 ≤ page ∧ page < max 1 (Int.tdiv (size + n - 1) n)) ∧
      page * n ≤ index ∧ index < (page + 1) * n := by
  obtain ⟨hpage, hle, hnext⟩ := tdiv_page h0 hn
  have hnext' : index < (Int.tdiv index n + 1) * n := by
    rw [add_mul, one_mul]
    exact hnext
  exact ⟨Int.tdiv index n, ⟨⟨hpage, page_lt_count hn (hle.trans_lt hlt)⟩, hle, hnext'⟩,
    fun page h => page_unique hn h.2 ⟨hle, hnext'⟩⟩

/-- The page number is valid, the pages cover every row exactly once, and the row of the selected
pid is on the page. -/
structure Paged (rows : List ProcessRow) (metrics : ProcessViewMetrics) (state : UiState) :
    Prop where
  page : 0 ≤ state.tablePage ∧ state.tablePage < metrics.pageCount
  covers : ∀ index : ℤ, 0 ≤ index → index < rows.length →
    ∃! page : ℤ, (0 ≤ page ∧ page < metrics.pageCount) ∧
      page * metrics.pageRows ≤ index ∧ index < (page + 1) * metrics.pageRows
  shows : ∀ pid ∈ rowPids rows, state.selectedPid = some pid →
    pidAt rows metrics.selectedIndex = some pid ∧
      state.tablePage * metrics.pageRows ≤ metrics.selectedIndex ∧
        metrics.selectedIndex < (state.tablePage + 1) * metrics.pageRows

theorem calculateProcessMetrics_pageCount {rows : List ProcessRow} (hrows : rows ≠ [])
    (state : UiState) (height : ℤ) :
    (calculateProcessMetrics rows state height).1.pageCount =
      max 1 (Int.tdiv (rows.length + pageRowsOf height - 1) (pageRowsOf height)) := by
  unfold calculateProcessMetrics
  rw [if_neg hrows]

/-- Whatever page and pid are remembered, the paging is put right. -/
theorem calculateProcessMetrics_paged (rows : List ProcessRow) (state : UiState) (height : ℤ) :
    Paged rows (calculateProcessMetrics rows state height).1
      (calculateProcessMetrics rows state height).2 := by
  have hn := pageRowsOf_pos height
  have hpage := calculateProcessMetrics_pageOk rows state height
  have hindex := calculateProcessMetrics_index rows state height
  have hsize := calculateProcessMetrics_pageRows rows state height
  by_cases hrows : rows = []
  · subst hrows
    exact ⟨⟨le_rfl, Int.one_pos⟩, fun index h0 hlt => absurd (h0.trans_lt hlt) (lt_irrefl 0),
      fun pid hpid => absurd hpid List.not_mem_nil⟩
  · have hcount := calculateProcessMetrics_pageCount hrows state height
    have hstart := hpage.start_lt hrows
    rw [hsize] at hstart
    refine ⟨⟨hpage.nonneg, ?_⟩, fun index h0 hlt => ?_, fun pid hpid hselected => ?_⟩
    · rw [hcount]
      exact page_lt_count hn hstart
    · rw [hcount, hsize]
      exact pages_cover hn h0 hlt
    · have hrow : pidAt rows (calculateProcessMetrics rows state height).1.selectedIndex =
          some pid := by
        rw [hindex]
        exact pidAt_selectedProcessIndex.mpr ⟨hselected, hpid⟩
      obtain ⟨hle, hlt⟩ := hpage.shows (pidAt_lt hrow).1
      refine ⟨hrow, hle, ?_⟩
      rw [add_mul, one_mul]
      exact hlt

/-! ## Moving the selection -/

section Moving
variable {rows : List ProcessRow} {state : UiState}

theorem ne_nil_of_visible (hvisible : 0 ≤ selectedProcessIndex rows state.selectedPid) :
    rows ≠ [] := by
  rintro rfl
  have := selectedProcessIndex_lt [] state.selectedPid
  simp only [List.length_nil, Nat.cast_zero] at this
  omega

/-- From a visible selection the pid moves to that of the row `delta` places on, inside the list. -/
theorem moveSelection_pid (hvisible : 0 ≤ selectedProcessIndex rows state.selectedPid) (delta : ℤ) :
    (state.moveSelection rows delta).selectedPid =
      pidAt rows (clamp (selectedProcessIndex rows state.selectedPid + delta) 0
        (rows.length - 1)) := by
  unfold UiState.moveSelection
  rw [if_neg (ne_nil_of_visible hvisible)]
  dsimp only
  rw [if_neg (by omega)]

/-- Where no pid occurs twice, the index moves by exactly `delta`, inside the list. -/
theorem moveSelection_index (hpids : (rowPids rows).Nodup)
    (hvisible : 0 ≤ selectedProcessIndex rows state.selectedPid) (delta : ℤ) :
    selectedProcessIndex rows (state.moveSelection rows delta).selectedPid =
      clamp (selectedProcessIndex rows state.selectedPid + delta) 0 (rows.length - 1) := by
  have hlt := selectedProcessIndex_lt rows state.selectedPid
  obtain ⟨hlow, hhigh⟩ := clamp_mem (show (0 : ℤ) ≤ rows.length - 1 by omega)
    (selectedProcessIndex rows state.selectedPid + delta)
  rw [moveSelection_pid hvisible]
  generalize clamp _ _ _ = index at hlow hhigh ⊢
  cases hpid : pidAt rows index with
  | none =>
    rcases pidAt_eq_none_iff.mp hpid with h | h
    · omega
    · omega
  | some pid => exact selectedProcessIndex_of_pidAt hpids hpid

/-- The index that the next paging calculates is the one the selection moved to. -/
theorem moveSelection_metrics (hvisible : 0 ≤ selectedProcessIndex rows state.selectedPid)
    (delta height : ℤ) :
    (calculateProcessMetrics rows (state.moveSelection rows delta) height).1.selectedIndex =
      selectedProcessIndex rows (state.moveSelection rows delta).selectedPid :=
  (calculateProcessMetrics_selected (ne_nil_of_visible hvisible) _ height).1

end Moving

/-! ## Runs -/

/-- A process table as it was last paged. -/
structure TableView where
  rows : List ProcessRow
  height : ℤ
  state : UiState
  metrics : ProcessViewMetrics

inductive TableMove where
  /-- Up, down, or any other delta. -/
  | select (delta : ℤ)
  /-- A page down or up, by the rows of the page last calculated. -/
  | page (down : Bool)
  | resize (height : ℤ)
  | refresh (rows : List ProcessRow)

namespace TableView

def paged (rows : List ProcessRow) (height : ℤ) (state : UiState) : TableView :=
  let (metrics, state) := calculateProcessMetrics rows state height
  { rows, height, state, metrics }

/-- One move and the paging after it. -/
def step (view : TableView) : TableMove → TableView
  | .select delta => paged view.rows view.height (view.state.moveSelection view.rows delta)
  | .page down => paged view.rows view.height
      (view.state.moveSelection view.rows
        (if down then view.metrics.pageRows else -view.metrics.pageRows))
  | .resize height => paged view.rows height view.state
  | .refresh rows => paged rows view.height view.state

def Paged (view : TableView) : Prop := Mtop.Paged view.rows view.metrics view.state

theorem paged_paged (rows : List ProcessRow) (height : ℤ) (state : UiState) :
    (paged rows height state).Paged := calculateProcessMetrics_paged rows state height

theorem step_paged (view : TableView) (move : TableMove) : (view.step move).Paged := by
  cases move with
  | select delta => exact paged_paged _ _ _
  | page down => exact paged_paged _ _ _
  | resize height => exact paged_paged _ _ _
  | refresh rows => exact paged_paged _ _ _

theorem run_paged {view : TableView} (h : view.Paged) (moves : List TableMove) :
    (moves.foldl step view).Paged := by
  induction moves generalizing view with
  | nil => exact h
  | cons move moves ih => exact ih (step_paged view move)

end TableView

/-- However the table was left, every run of moves, resizes and new rows keeps the page valid, the
rows covered once and the selected row on the page; a visible selection moves to the row `delta`
places on, inside the list, which is the selected row again where no pid occurs twice. -/
theorem paging_follows_selection :
    (∀ (rows : List ProcessRow) (height : ℤ) (state : UiState) (moves : List TableMove),
      (moves.foldl TableView.step (TableView.paged rows height state)).Paged) ∧
    ∀ (rows : List ProcessRow) (state : UiState) (delta : ℤ),
      0 ≤ selectedProcessIndex rows state.selectedPid →
        (state.moveSelection rows delta).selectedPid =
          pidAt rows (clamp (selectedProcessIndex rows state.selectedPid + delta) 0
            (rows.length - 1)) ∧
        ((rowPids rows).Nodup → ∀ height,
          selectedProcessIndex rows (state.moveSelection rows delta).selectedPid =
              clamp (selectedProcessIndex rows state.selectedPid + delta) 0 (rows.length - 1) ∧
            (calculateProcessMetrics rows (state.moveSelection rows delta) height).1.selectedIndex =
              clamp (selectedProcessIndex rows state.selectedPid + delta) 0
                (rows.length - 1)) := by
  refine ⟨fun rows height state moves => ?_, fun rows state delta hvisible => ?_⟩
  · exact TableView.run_paged (TableView.paged_paged rows height state) moves
  · refine ⟨moveSelection_pid hvisible delta, fun hpids height => ?_⟩
    have hindex := moveSelection_index hpids hvisible delta
    exact ⟨hindex, (moveSelection_metrics hvisible delta height).trans hindex⟩

/-- Pages of one row each, with the last of three rows selected and one row up from it. -/
theorem paging_follows_selection_trainRows :
    (TableView.paged trainRows 4 trainState).state.tablePage = 2 ∧
      (TableView.paged trainRows 4 trainState).Paged ∧
        selectedProcessIndex trainRows (trainState.moveSelection trainRows (-1)).selectedPid = 1 :=
  ⟨by decide, paging_follows_selection.1 trainRows 4 trainState [],
    ((paging_follows_selection.2 trainRows trainState (-1) (by decide)).2 (by decide)
      4).1.trans (by decide)⟩

/-- With two rows of one pid, the row after the first cannot be selected. -/
theorem twin_row_is_never_selected :
    ¬ ∀ (rows : List ProcessRow) (state : UiState) (delta : ℤ),
      0 ≤ selectedProcessIndex rows state.selectedPid →
        selectedProcessIndex rows (state.moveSelection rows delta).selectedPid =
          clamp (selectedProcessIndex rows state.selectedPid + delta) 0 (rows.length - 1) := by
  intro h
  have hmoved := h [{ process := { pid := 1 } }, { process := { pid := 1 } }]
    { selectedPid := some 1 } 1 (by decide)
  revert hmoved
  decide

end Mtop
