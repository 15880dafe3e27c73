import Mtop.Ui.MainLoop

/-! What paging and drawing put on the screen, line by line. -/
namespace Mtop
open Cxx
set_option autoImplicit false

/-! ## Rows by index -/

theorem rowAt_map {α β : Type} (f : α → β) (rows : List α) (index : ℤ) :
    rowAt (rows.map f) index = (rowAt rows index).map f := by
  unfold rowAt
  split
  · exact List.getElem?_map
  · rfl

theorem rowAt_rowPids (rows : List ProcessRow) (index : ℤ) :
    rowAt (rowPids rows) index = pidAt rows index := rowAt_map _ rows index

theorem pidAt_eq_none_iff {rows : List ProcessRow} {index : ℤ} :
    pidAt rows index = none ↔ index < 0 ∨ (rows.length : ℤ) ≤ index := by
  unfold pidAt
  rw [Option.map_eq_none_iff, rowAt_eq_none_iff]

theorem pidAt_lt {rows : List ProcessRow} {index pid : ℤ} (h : pidAt rows index = some pid) :
    0 ≤ index ∧ index < rows.length := by
  have hne : pidAt rows index ≠ none := by
    rw [h]
    exact Option.some_ne_none pid
  rw [Ne, pidAt_eq_none_iff] at hne
  omega

/-! ## The drawing loop -/

theorem mem_drawRows {firstLine start finish selectedIndex : ℤ} {pids : List ℤ} {row : DrawnRow} :
    row ∈ drawRows firstLine pids start finish selectedIndex ↔
      ∃ offset : ℕ, start + offset < finish ∧ rowAt pids (start + offset) = some row.pid ∧
        row.line = firstLine + offset ∧ row.selected = decide (start + offset = selectedIndex) := by
  simp only [drawRows, List.mem_filterMap, List.mem_range, Option.map_eq_some_iff]
  constructor
  · rintro ⟨offset, hlt, pid, hpid, rfl⟩
    exact ⟨offset, by omega, hpid, rfl, rfl⟩
  · rintro ⟨offset, hlt, hpid, hline, hselected⟩
    refine ⟨offset, by omega, row.pid, hpid, ?_⟩
    cases row
    simp only at hline hselected
    rw [hline, hselected]

theorem mem_drawPage {firstLine : ℤ} {rows : List ProcessRow} {state : UiState}
    {metrics : ProcessViewMetrics} {row : DrawnRow} :
    row ∈ drawPage firstLine rows state metrics ↔
      ∃ offset : ℕ, offset < metrics.pageRows ∧
        pidAt rows (state.tablePage * metrics.pageRows + offset) = some row.pid ∧
        row.line = firstLine + offset ∧
        row.selected =
          decide (state.tablePage * metrics.pageRows + offset = metrics.selectedIndex) := by
  simp only [drawPage, mem_drawRows, rowAt_rowPids]
  refine exists_congr fun offset => ?_
  constructor
  · rintro ⟨hlt, hrest⟩
    exact ⟨by omega, hrest⟩
  · rintro ⟨hlt, hpid, hrest⟩
    have := pidAt_lt hpid
    exact ⟨by omega, hpid, hrest⟩

/-- The row drawn as selected is the one at the selected index, when that is on the page. -/
theorem selected_drawRows (firstLine start finish selectedIndex : ℤ) (pids : List ℤ) :
    ((drawRows firstLine pids start finish selectedIndex).find? (·.selected)).map (·.pid) =
      if start ≤ selectedIndex ∧ selectedIndex < finish then rowAt pids selectedIndex else none := by
  cases hfind : (drawRows firstLine pids start finish selectedIndex).find? (·.selected) with
  | some row =>
    obtain ⟨offset, hlt, hpid, -, hselected⟩ := mem_drawRows.mp (List.mem_of_find?_eq_some hfind)
    have hsel : row.selected = true := List.find?_some hfind
    have hindex : start + offset = selectedIndex :=
      of_decide_eq_true (hselected.symm.trans hsel)
    rw [if_pos (by omega), ← hindex, hpid]
    rfl
  | none =>
    split
    · rename_i hrange
      cases hpid : rowAt pids selectedIndex with
      | none => rfl
      | some pid =>
        have hoffset : start + (selectedIndex - start).toNat = selectedIndex := by omega
        have hmem : (⟨firstLine + (selectedIndex - start).toNat, pid, true⟩ : DrawnRow) ∈
            drawRows firstLine pids start finish selectedIndex :=
          mem_drawRows.mpr ⟨(selectedIndex - start).toNat, by omega, by rw [hoffset]; exact hpid,
            rfl, (decide_eq_true hoffset).symm⟩
        exact absurd rfl (List.find?_eq_none.mp hfind _ hmem)
    · rfl

theorem drawPage_nil (firstLine : ℤ) (state : UiState) (metrics : ProcessViewMetrics) :
    drawPage firstLine [] state metrics = [] := by
  apply List.eq_nil_iff_forall_not_mem.mpr
  intro row hrow
  obtain ⟨offset, -, hpid, -⟩ := mem_drawPage.mp hrow
  have := pidAt_lt hpid
  simp only [List.length_nil, Nat.cast_zero] at this
  omega

theorem drawProcesses_eq_drawPage (rows : List ProcessRow) (state : UiState)
    (metrics : ProcessViewMetrics) :
    drawProcesses rows state metrics = drawPage 2 rows state metrics := by
  unfold drawProcesses
  split
  · next h => rw [h, drawPage_nil]
  · rfl

theorem drawGpuActiveView_eq_drawPage (rows : List ProcessRow) (state : UiState)
    (metrics : ProcessViewMetrics) :
    drawGpuActiveView rows state metrics = drawPage 3 rows state metrics := by
  unfold drawGpuActiveView
  split
  · next h => rw [h, drawPage_nil]
  · rfl

/-! ## Paging -/

theorem pageRowsOf_pos (height : ℤ) : 0 < pageRowsOf height := by
  unfold pageRowsOf
  omega

/-- The index is that of a row with the pid, or -1 when there is none. -/
theorem selectedProcessIndex_cases (rows : List ProcessRow) (pid : ℤ) :
    (selectedProcessIndex rows (some pid) = -1 ∧ pid ∉ rowPids rows) ∨
      (pidAt rows (selectedProcessIndex rows (some pid)) = some pid ∧ pid ∈ rowPids rows) := by
  unfold selectedProcessIndex
  dsimp only
  split
  · rename_i index hindex
    obtain ⟨hlt, hhit, -⟩ := List.findIdx?_eq_some_iff_getElem.mp hindex
    have hpid : rows[index].process.pid = pid := of_decide_eq_true hhit
    refine .inr ⟨?_, List.mem_map.mpr ⟨_, List.getElem_mem hlt, hpid⟩⟩
    unfold pidAt
    rw [rowAt_natCast, List.getElem?_eq_getElem hlt]
    exact congrArg some hpid
  · rename_i hnone
    refine .inl ⟨rfl, fun hmem => ?_⟩
    obtain ⟨row, hrow, hpid⟩ := List.mem_map.mp hmem
    exact of_decide_eq_false (List.findIdx?_eq_none_iff.mp hnone row hrow) hpid

theorem selectedProcessIndex_lt (rows : List ProcessRow) (selectedPid : Option ℤ) :
    selectedProcessIndex rows selectedPid < rows.length := by
  cases selectedPid with
  | none => exact (show (-1 : ℤ) < 0 by decide).trans_le (Int.natCast_nonneg _)
  | some pid =>
    rcases selectedProcessIndex_cases rows pid with ⟨hindex, -⟩ | ⟨hindex, -⟩
    · omega
    · exact (pidAt_lt hindex).2

theorem pidAt_selectedProcessIndex {rows : List ProcessRow} {selectedPid : Option ℤ} {pid : ℤ} :
    pidAt rows (selectedProcessIndex rows selectedPid) = some pid ↔
      selectedPid = some pid ∧ pid ∈ rowPids rows := by
  cases selectedPid with
  | none =>
    have hnone : pidAt rows (selectedProcessIndex rows none) = none :=
      pidAt_eq_none_iff.mpr (.inl (show (-1 : ℤ) < 0 by decide))
    rw [hnone]
    exact ⟨nofun, fun h => nomatch h.1⟩
  | some p =>
    rcases selectedProcessIndex_cases rows p with ⟨hindex, hmem⟩ | ⟨hindex, hmem⟩
    · have hnone : pidAt rows (selectedProcessIndex rows (some p)) = none :=
        pidAt_eq_none_iff.mpr (.inl (by omega))
      rw [hnone]
      refine ⟨nofun, fun h => absurd h.2 ?_⟩
      rw [← Option.some.inj h.1]
      exact hmem
    · rw [hindex, Option.some_inj]
      exact ⟨fun h => ⟨h, h ▸ hmem⟩, fun h => h.1⟩

/-- The page starts inside the rows and holds the selected row. -/
structure PageOk (rows : List ProcessRow) (metrics : ProcessViewMetrics) (tablePage : ℤ) :
    Prop where
  nonneg : 0 ≤ tablePage
  start_lt : rows ≠ [] → tablePage * metrics.pageRows < rows.length
  shows : 0 ≤ metrics.selectedIndex → tablePage * metrics.pageRows ≤ metrics.selectedIndex ∧
    metrics.selectedIndex < tablePage * metrics.pageRows + metrics.pageRows

/-- The page of an index. -/
theorem tdiv_page {index n : ℤ} (hindex : 0 ≤ index) (hn : 0 < n) :
    0 ≤ Int.tdiv index n ∧ Int.tdiv index n * n ≤ index ∧ index < Int.tdiv index n * n + n := by
  rw [Int.tdiv_eq_ediv_of_nonneg hindex]
  refine ⟨Int.ediv_nonneg hindex hn.le, Int.ediv_mul_le index hn.ne', ?_⟩
  have := Int.lt_ediv_add_one_mul_self index hn
  rw [add_mul, one_mul] at this
  exact this

/-- The last page still has a row. -/
theorem lastPage_lt {size n page : ℤ} (hsize : 0 < size) (hn : 0 < n)
    (hpage : page ≤ max 1 (Int.tdiv (size + n - 1) n) - 1) (h0 : 0 ≤ page) : page * n < size := by
  obtain ⟨-, hle, -⟩ := tdiv_page (show 0 ≤ size + n - 1 by omega) hn
  by_cases hzero : page = 0
  · rw [hzero, zero_mul]
    exact hsize
  · have hstep : (page + 1) * n ≤ Int.tdiv (size + n - 1) n * n :=
      Int.mul_le_mul_of_nonneg_right (by omega) hn.le
    rw [add_mul, one_mul] at hstep
    omega

theorem calculateProcessMetrics_pageRows (rows : List ProcessRow) (state : UiState) (height : ℤ) :
    (calculateProcessMetrics rows state height).1.pageRows = pageRowsOf height := by
  unfold calculateProcessMetrics
  split <;> rfl

theorem calculateProcessMetrics_selected {rows : List ProcessRow} (hrows : rows ≠ [])
    (state : UiState) (height : ℤ) :
    (calculateProcessMetrics rows state height).1.selectedIndex =
        selectedProcessIndex rows state.selectedPid ∧
      (calculateProcessMetrics rows state height).2.selectedPid = state.selectedPid := by
  unfold calculateProcessMetrics
  rw [if_neg hrows]
  exact ⟨rfl, rfl⟩

/-- Either way the index is that of the remembered pid afterwards. -/
theorem calculateProcessMetrics_index (rows : List ProcessRow) (state : UiState) (height : ℤ) :
    (calculateProcessMetrics rows state height).1.selectedIndex =
      selectedProcessIndex rows (calculateProcessMetrics rows state height).2.selectedPid := by
  by_cases hrows : rows = []
  · unfold calculateProcessMetrics
    rw [if_pos hrows]
    rfl
  · obtain ⟨hindex, hpid⟩ := calculateProcessMetrics_selected hrows state height
    rw [hindex, hpid]

theorem calculateProcessMetrics_pageOk (rows : List ProcessRow) (state : UiState) (height : ℤ) :
    PageOk rows (calculateProcessMetrics rows state height).1
      (calculateProcessMetrics rows state height).2.tablePage := by
  have hn := pageRowsOf_pos height
  unfold calculateProcessMetrics
  by_cases hrows : rows = []
  · rw [if_pos hrows]
    exact ⟨le_rfl, fun h => absurd hrows h, fun h => absurd h (show ¬ (0 : ℤ) ≤ -1 by decide)⟩
  · rw [if_neg hrows]
    have hsize : 0 < (rows.length : ℤ) := by
      have := List.length_pos_iff.mpr hrows
      omega
    dsimp only
    generalize hpage : clamp state.tablePage 0
      (max 1 (Int.tdiv ((rows.length : ℤ) + pageRowsOf height - 1) (pageRowsOf height)) - 1) = page
    have hlast : 0 ≤
        max 1 (Int.tdiv ((rows.length : ℤ) + pageRowsOf height - 1) (pageRowsOf height)) - 1 := by
      omega
    obtain ⟨hp0, hp1⟩ := hpage ▸ clamp_mem hlast state.tablePage
    have hstart := lastPage_lt hsize hn hp1 hp0
    have hindex := selectedProcessIndex_lt rows state.selectedPid
    generalize selectedProcessIndex rows state.selectedPid = index at hindex ⊢
    split
    · rename_i hmove
      obtain ⟨h0, hle, hlt⟩ := tdiv_page hmove.1 hn
      exact ⟨h0, fun _ => hle.trans_lt hindex, fun _ => ⟨hle, hlt⟩⟩
    · rename_i hstay
      refine ⟨hp0, fun _ => hstart, fun h0 => ?_⟩
      rw [add_mul, one_mul] at hstay
      dsimp only at h0 ⊢
      omega

/-! ## The Alpha page -/

/-- The page of the Alpha view holds its selected row. -/
theorem alphaPage_start {size n index : ℤ} (hn : 0 < n) (h0 : 0 ≤ index) (hlt : index < size) :
    clamp (Int.tdiv index n * n) 0 (max 0 (size - 1)) = Int.tdiv index n * n ∧
      Int.tdiv index n * n ≤ index ∧ index < Int.tdiv index n * n + n := by
  obtain ⟨hpage, hle, hlt'⟩ := tdiv_page h0 hn
  have hstart : 0 ≤ Int.tdiv index n * n := Int.mul_nonneg hpage hn.le
  exact ⟨clamp_eq_self hstart (by omega), hle, hlt'⟩

/-! ## What a frame shows -/

section Shown
variable (layout : WindowLayout) (alpha : AlphaModel) (rows : List ProcessRow) (state : UiState)

/-- Drawing changes the state in the Alpha view only, and there only the index of the selected
row. -/
theorem drawProcessWindow_state (paged : UiState) (metrics : ProcessViewMetrics) :
    (drawProcessWindow layout paged alpha rows metrics).1 =
      { paged with
        workloadIndex :=
          (drawProcessWindow layout paged alpha rows metrics).1.workloadIndex } := by
  unfold drawProcessWindow
  split
  · unfold drawAlphaWorkloadsView
    split
    · rfl
    · split <;> rfl
  · split <;> rfl

theorem showRows_shown :
    (showRows layout alpha rows state).shown =
      { (calculateProcessMetrics rows state layout.processHeight).2 with
        workloadIndex := (showRows layout alpha rows state).shown.workloadIndex } :=
  drawProcessWindow_state layout alpha rows _ _

theorem showRows_pageOk :
    PageOk rows (showRows layout alpha rows state).metrics
      (showRows layout alpha rows state).shown.tablePage := by
  rw [showRows_shown]
  exact calculateProcessMetrics_pageOk rows state layout.processHeight

theorem showRows_selectedIndex :
    (showRows layout alpha rows state).metrics.selectedIndex =
      selectedProcessIndex rows (showRows layout alpha rows state).shown.selectedPid := by
  rw [showRows_shown]
  exact calculateProcessMetrics_index rows state layout.processHeight

theorem showRows_pageRows :
    (showRows layout alpha rows state).metrics.pageRows = pageRowsOf layout.processHeight :=
  calculateProcessMetrics_pageRows rows state layout.processHeight

/-- In Beta the table is drawn from line 2 in the Overview and from line 3 in GPU Active. -/
theorem showRows_drawn_beta
    (h : (showRows layout alpha rows state).shown.viewProfile = .beta) :
    (showRows layout alpha rows state).drawn =
      match (showRows layout alpha rows state).shown.viewMode with
      | .systemIo => []
      | .gpuActive => drawPage 3 rows (showRows layout alpha rows state).shown
          (showRows layout alpha rows state).metrics
      | .overview => drawPage 2 rows (showRows layout alpha rows state).shown
          (showRows layout alpha rows state).metrics := by
  have hprofile : (calculateProcessMetrics rows state layout.processHeight).2.viewProfile = .beta := by
    rw [showRows_shown] at h
    exact h
  unfold showRows drawProcessWindow
  dsimp only
  rw [hprofile]
  dsimp only
  cases hview : (calculateProcessMetrics rows state layout.processHeight).2.viewMode with
  | systemIo => simp only [hview]
  | gpuActive =>
    simp only [hview]
    exact drawGpuActiveView_eq_drawPage _ _ _
  | overview =>
    simp only [hview]
    exact drawProcesses_eq_drawPage _ _ _

/-- In Alpha either no row is drawn, or the page of the selected row is, from line 5. -/
theorem showRows_drawn_alpha
    (h : (showRows layout alpha rows state).shown.viewProfile = .alpha) :
    ((layout.processHeight < 8 ∨ alpha.processRows = []) ∧
        (showRows layout alpha rows state).drawn = []) ∨
      (8 ≤ layout.processHeight ∧ alpha.processRows ≠ [] ∧ ∃ start finish,
        (showRows layout alpha rows state).drawn = drawRows 5 (alphaPids alpha) start finish
          (showRows layout alpha rows state).shown.workloadIndex ∧
        0 ≤ start ∧ start ≤ (showRows layout alpha rows state).shown.workloadIndex ∧
        (showRows layout alpha rows state).shown.workloadIndex < finish ∧
        finish ≤ alpha.processRows.length) := by
  have hprofile : (calculateProcessMetrics rows state layout.processHeight).2.viewProfile = .alpha := by
    rw [showRows_shown] at h
    exact h
  unfold showRows drawProcessWindow
  dsimp only
  rw [hprofile]
  dsimp only
  unfold drawAlphaWorkloadsView
  by_cases hheight : layout.processHeight < 8
  · rw [if_pos hheight]
    exact .inl ⟨.inl hheight, rfl⟩
  · rw [if_neg hheight]
    by_cases hempty : alpha.processRows = []
    · rw [if_pos hempty]
      exact .inl ⟨.inr hempty, rfl⟩
    · rw [if_neg hempty]
      have hsize : 0 < (alpha.processRows.length : ℤ) := by
        have := List.length_pos_iff.mpr hempty
        omega
      have hlast : 0 ≤ (alpha.processRows.length : ℤ) - 1 := by omega
      obtain ⟨h0, h1⟩ := clamp_mem hlast (calculateProcessMetrics rows state
        layout.processHeight).2.workloadIndex
      have hpage : 0 < max 1 (layout.processHeight - 6) := by omega
      obtain ⟨hstart, hle, hlt⟩ := alphaPage_start hpage h0 (Int.lt_of_le_sub_one h1)
      refine .inr ⟨by omega, hempty, _, _, rfl, ?_, ?_, ?_, min_le_right _ _⟩
      · exact (clamp_mem (by omega) _).1
      · dsimp only
        rw [hstart]
        exact hle
      · dsimp only
        rw [hstart]
        exact lt_min hlt (by omega)

/-! ## The highlighted row -/

theorem highlighted_beta (h : (showRows layout alpha rows state).shown.viewProfile = .beta) :
    (showRows layout alpha rows state).highlighted =
      if (showRows layout alpha rows state).shown.viewMode = .systemIo then none
      else pidAt rows (showRows layout alpha rows state).metrics.selectedIndex := by
  have hpage := showRows_pageOk layout alpha rows state
  unfold Frame.highlighted
  rw [showRows_drawn_beta layout alpha rows state h]
  have hrows : ∀ firstLine,
      ((drawPage firstLine rows (showRows layout alpha rows state).shown
        (showRows layout alpha rows state).metrics).find? (·.selected)).map (·.pid) =
        pidAt rows (showRows layout alpha rows state).metrics.selectedIndex := by
    intro firstLine
    unfold drawPage
    dsimp only
    rw [selected_drawRows, rowAt_rowPids]
    split
    · rfl
    · rename_i hout
      by_cases hindex : 0 ≤ (showRows layout alpha rows state).metrics.selectedIndex
      · have := hpage.shows hindex
        exact (pidAt_eq_none_iff.mpr (.inr (by omega))).symm
      · exact (pidAt_eq_none_iff.mpr (.inl (by omega))).symm
  cases hview : (showRows layout alpha rows state).shown.viewMode with
  | systemIo =>
    rw [if_pos rfl]
    rfl
  | gpuActive =>
    rw [if_neg (by decide)]
    exact hrows 3
  | overview =>
    rw [if_neg (by decide)]
    exact hrows 2

theorem highlighted_alpha (h : (showRows layout alpha rows state).shown.viewProfile = .alpha) :
    (showRows layout alpha rows state).highlighted =
      if layout.processHeight < 8 then none
      else (rowAt alpha.processRows (showRows layout alpha rows state).shown.workloadIndex).map
        (·.process.pid) := by
  unfold Frame.highlighted
  rcases showRows_drawn_alpha layout alpha rows state h with
    ⟨hnone, hdrawn⟩ | ⟨hheight, -, start, finish, hdrawn, -, hle, hlt, -⟩
  · rw [hdrawn]
    rcases hnone with hheight | hempty
    · rw [if_pos hheight]
      rfl
    · rw [hempty, rowAt_eq_none_iff.mpr (by simp only [List.length_nil, Nat.cast_zero]; omega)]
      split <;> rfl
  · rw [hdrawn, selected_drawRows, if_pos ⟨hle, hlt⟩, if_neg (by omega)]
    exact rowAt_map _ _ _

end Shown
end Mtop
