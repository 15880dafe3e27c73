import Mtop.Ui.Paging

/-! Clicks against what the frame drew: which lines a click turns into a selection, and where the
rows of each view really are. The click arithmetic is that of the Overview. -/
namespace Mtop
open Cxx
set_option autoImplicit false

/-! ## A click -/

section Mouse
variable (layout : WindowLayout) (now : ℕ) (state : UiState) (rows : List ProcessRow)
  (metrics : ProcessViewMetrics) (event : MouseEvent)

theorem clickHeader_below (h : layout.processY + 2 ≤ event.y) :
    clickHeader layout now state event = (state, false) := by
  unfold clickHeader
  exact if_neg (by omega)

/-- The header leaves the selection alone or, when it sorts, clears it. -/
theorem clickHeader_selectedPid :
    (clickHeader layout now state event).1.selectedPid = state.selectedPid ∨
      (clickHeader layout now state event).1.selectedPid = none := by
  unfold clickHeader
  split
  · split
    · exact .inl rfl
    · split
      · dsimp only
        split
        · exact .inl rfl
        · exact .inr rfl
      · exact .inl rfl
  · exact .inl rfl

theorem clickedRow_below {row : ProcessRow}
    (h : clickedRow layout state rows metrics event.y = some row) :
    layout.processY + 2 ≤ event.y := by
  unfold clickedRow at h
  dsimp only at h
  split at h
  · rename_i hline
    exact hline.1
  · cases h

theorem synthesize_of_clickedRow {row : ProcessRow}
    (h : clickedRow layout state rows metrics event.y = some row) :
    synthesizeMouseEvent layout now state rows metrics event =
      ({ state with selectedPid := some row.process.pid }, err) := by
  unfold synthesizeMouseEvent
  rw [clickHeader_below layout now state event (clickedRow_below layout state rows metrics event h)]
  dsimp only
  rw [h]

theorem clickedRow_above (h : event.y < layout.processY + 2) :
    clickedRow layout state rows metrics event.y = none := by
  unfold clickedRow
  exact if_neg (by omega)

/-- A click on no row selects nothing. -/
theorem synthesize_selectedPid (h : clickedRow layout state rows metrics event.y = none) :
    (synthesizeMouseEvent layout now state rows metrics event).1.selectedPid = state.selectedPid ∨
      (synthesizeMouseEvent layout now state rows metrics event).1.selectedPid = none := by
  unfold synthesizeMouseEvent
  by_cases hline : layout.processY + 2 ≤ event.y
  · rw [clickHeader_below layout now state event hline]
    dsimp only
    rw [h]
    exact .inl rfl
  · have hheader := clickHeader_selectedPid layout now state event
    rcases hclick : clickHeader layout now state event with ⟨after, ends⟩
    rw [hclick] at hheader
    cases ends with
    | true => exact hheader
    | false =>
      dsimp only
      rw [clickedRow_above layout after rows metrics event (by omega)]
      exact hheader

end Mouse

/-! ## Agreement with the screen -/

/-- The event is on a line of the process window. -/
def Frame.Inside (frame : Frame) (event : MouseEvent) : Prop :=
  frame.layout.processY ≤ event.y ∧ event.y < frame.layout.processY + frame.layout.processHeight

/-- On a line with a process row the click selects the pid drawn there; elsewhere it selects
none. -/
def SelectsAsDrawn (frame : Frame) (now : ℕ) (state : UiState) (event : MouseEvent) : Prop :=
  let after :=
    (synthesizeMouseEvent frame.layout now state frame.rows frame.metrics event).1.selectedPid
  (∀ row ∈ frame.drawn, event.y = frame.layout.processY + row.line → after = some row.pid) ∧
    ((∀ row ∈ frame.drawn, event.y ≠ frame.layout.processY + row.line) →
      after = state.selectedPid ∨ after = none)

/-- Clicks agree with the frame, whatever is selected before. -/
def ClicksAgree (frame : Frame) (state : UiState) : Prop :=
  ∀ now selectedPid event, frame.Inside event → event.primary = true →
    SelectsAsDrawn frame now { state with selectedPid } event

/-- What the click arithmetic finds on a line of the window. -/
def Frame.clickedPid (frame : Frame) (state : UiState) (line : ℤ) : Option ℤ :=
  (clickedRow frame.layout state frame.rows frame.metrics (frame.layout.processY + line)).map
    (·.process.pid)

theorem clickedPid_eq_some {frame : Frame} {state : UiState} {line pid : ℤ} :
    frame.clickedPid state line = some pid ↔
      ∃ offset : ℕ, offset < frame.metrics.pageRows ∧ line = 2 + offset ∧
        pidAt frame.rows (state.tablePage * frame.metrics.pageRows + offset) = some pid := by
  unfold Frame.clickedPid clickedRow
  dsimp only
  split
  · rename_i hline
    have hoffset : frame.layout.processY + line - (frame.layout.processY + 2) =
        ((line - 2).toNat : ℤ) := by omega
    rw [hoffset]
    constructor
    · exact fun h => ⟨(line - 2).toNat, by omega, by omega, h⟩
    · rintro ⟨offset, hlt, hline', h⟩
      rw [show (line - 2).toNat = offset by omega]
      exact h
  · rename_i hline
    constructor
    · exact nofun
    · rintro ⟨offset, hlt, hline', -⟩
      omega

section Selected
variable (frame : Frame) (state : UiState) (event : MouseEvent)

/-- The remembered pid after a click. -/
def Frame.selectedAfter (frame : Frame) (now : ℕ) (state : UiState) (event : MouseEvent) :
    Option ℤ :=
  (synthesizeMouseEvent frame.layout now state frame.rows frame.metrics event).1.selectedPid

theorem selectedAfter_clicked (now : ℕ) (selectedPid : Option ℤ) {pid : ℤ}
    (h : frame.clickedPid state (event.y - frame.layout.processY) = some pid) :
    frame.selectedAfter now { state with selectedPid } event = some pid := by
  unfold Frame.clickedPid at h
  rw [add_sub_cancel] at h
  obtain ⟨row, hrow, rfl⟩ := Option.map_eq_some_iff.mp h
  unfold Frame.selectedAfter
  rw [synthesize_of_clickedRow frame.layout now { state with selectedPid } frame.rows
    frame.metrics event hrow]

theorem selectedAfter_missed (now : ℕ) (selectedPid : Option ℤ)
    (h : frame.clickedPid state (event.y - frame.layout.processY) = none) :
    frame.selectedAfter now { state with selectedPid } event = selectedPid ∨
      frame.selectedAfter now { state with selectedPid } event = none := by
  unfold Frame.clickedPid at h
  rw [add_sub_cancel] at h
  exact synthesize_selectedPid frame.layout now { state with selectedPid } frame.rows
    frame.metrics event (Option.map_eq_none_iff.mp h)

end Selected

/-- The click arithmetic and the drawing put the same pids on the lines of the window. -/
def LinesAgree (frame : Frame) (state : UiState) : Prop :=
  ∀ line, 0 ≤ line → line < frame.layout.processHeight → ∀ pid,
    frame.clickedPid state line = some pid ↔ ∃ row ∈ frame.drawn, row.line = line ∧ row.pid = pid

theorem ClicksAgree.lines {frame : Frame} {state : UiState} (hagree : ClicksAgree frame state) :
    LinesAgree frame state := by
  intro line h0 hlt
  -- a click on that line with nothing selected
  let event : MouseEvent := ⟨0, frame.layout.processY + line, true⟩
  have hevent : event.y - frame.layout.processY = line := add_sub_cancel_left _ _
  have hinside : frame.Inside event :=
    ⟨Int.le_add_of_nonneg_right h0, Int.add_lt_add_left hlt _⟩
  obtain ⟨hdrawn, hnone⟩ := hagree 0 none event hinside rfl
  have hclicked := fun pid => @selectedAfter_clicked frame state event 0 none pid
  have hmissed := selectedAfter_missed frame state event 0 none
  rw [hevent] at hclicked hmissed
  intro pid
  constructor
  · intro h
    by_contra hno
    have hblank : ∀ row ∈ frame.drawn, event.y ≠ frame.layout.processY + row.line := by
      intro row hrow heq
      have hpid : some pid = some row.pid := (hclicked pid h).symm.trans (hdrawn row hrow heq)
      exact hno ⟨row, hrow, by omega, (Option.some.inj hpid).symm⟩
    rcases hnone hblank with hafter | hafter
    · exact nomatch (hclicked pid h).symm.trans hafter
    · exact nomatch (hclicked pid h).symm.trans hafter
  · rintro ⟨row, hrow, rfl, rfl⟩
    have hafter := hdrawn row hrow rfl
    cases hline : frame.clickedPid state row.line with
    | some pid => exact (hclicked pid hline).symm.trans hafter
    | none =>
      rcases hmissed hline with h | h
      · exact nomatch h.symm.trans hafter
      · exact nomatch h.symm.trans hafter

theorem LinesAgree.clicks {frame : Frame} {state : UiState} (hlines : LinesAgree frame state) :
    ClicksAgree frame state := by
  intro now selectedPid event hinside _
  have hline := hlines (event.y - frame.layout.processY) (Int.sub_nonneg.mpr hinside.1)
    (by have := hinside.2; omega)
  constructor
  · intro row hrow heq
    exact selectedAfter_clicked frame state event now selectedPid
      ((hline row.pid).mpr ⟨row, hrow, by omega, rfl⟩)
  · intro hblank
    refine selectedAfter_missed frame state event now selectedPid
      (Option.eq_none_iff_forall_ne_some.mpr ?_)
    intro pid h
    obtain ⟨row, hrow, heq, -⟩ := (hline pid).mp h
    exact hblank row hrow (by omega)

/-- Agreement is agreement of the two row placements, line by line. -/
theorem clicksAgree_iff_lines (frame : Frame) (state : UiState) :
    ClicksAgree frame state ↔ LinesAgree frame state :=
  ⟨ClicksAgree.lines, LinesAgree.clicks⟩

/-! ## View by view -/

/-- The page of the table that the click arithmetic uses holds no row. -/
def Unclickable (frame : Frame) (state : UiState) : Prop :=
  pidAt frame.rows (state.tablePage * frame.metrics.pageRows) = none

/-- The page of the state lists the pids of the page on the screen. -/
def PageKept (frame : Frame) (state : UiState) : Prop :=
  ∀ offset : ℕ, offset < frame.metrics.pageRows →
    pidAt frame.rows (state.tablePage * frame.metrics.pageRows + offset) =
      pidAt frame.rows (frame.shown.tablePage * frame.metrics.pageRows + offset)

/-- When clicks and screen agree: in the Overview as long as the page is kept; in the other views
only with nothing to click and nothing drawn. -/
def ClickHolds (frame : Frame) (state : UiState) : Prop :=
  match frame.shown.viewProfile with
  | .alpha =>
    Unclickable frame state ∧ (frame.layout.processHeight < 8 ∨ frame.alpha.processRows = [])
  | .beta =>
    match frame.shown.viewMode with
    | .overview => PageKept frame state
    | .gpuActive => frame.rows = []
    | .systemIo => Unclickable frame state

theorem Unclickable.clickedPid {frame : Frame} {state : UiState} (h : Unclickable frame state)
    (line : ℤ) : frame.clickedPid state line = none := by
  apply Option.eq_none_iff_forall_ne_some.mpr
  intro pid hpid
  obtain ⟨offset, hlt, -, hoffset⟩ := clickedPid_eq_some.mp hpid
  have hrange := pidAt_lt hoffset
  rcases pidAt_eq_none_iff.mp h with hneg | hend
  · -- a page before the first one ends before the first row
    have hpage : state.tablePage ≤ -1 := by
      by_contra hnot
      have := Int.mul_nonneg (show 0 ≤ state.tablePage by omega)
        (show 0 ≤ frame.metrics.pageRows by omega)
      omega
    have := Int.mul_le_mul_of_nonneg_right hpage (show 0 ≤ frame.metrics.pageRows by omega)
    omega
  · omega

theorem clickedPid_line (frame : Frame) (state : UiState) {offset : ℕ}
    (h : offset < frame.metrics.pageRows) :
    frame.clickedPid state (2 + offset) =
      pidAt frame.rows (state.tablePage * frame.metrics.pageRows + offset) := by
  apply Option.ext
  intro pid
  rw [clickedPid_eq_some]
  constructor
  · rintro ⟨other, -, heq, hpid⟩
    rw [show offset = other by omega]
    exact hpid
  · exact fun hpid => ⟨offset, h, rfl, hpid⟩

/-- A view without a row on line 2 agrees with clicks only when there is nothing to click and
nothing drawn. -/
theorem clicksAgree_iff_nothing {frame : Frame} {state : UiState}
    (hpage : 0 < frame.metrics.pageRows) (hheight : 2 < frame.layout.processHeight)
    (hline : ∀ row ∈ frame.drawn, row.line ≠ 2) :
    ClicksAgree frame state ↔ Unclickable frame state ∧
      ∀ row ∈ frame.drawn, ¬ (0 ≤ row.line ∧ row.line < frame.layout.processHeight) := by
  rw [clicksAgree_iff_lines]
  constructor
  · intro hagree
    have hfirst : Unclickable frame state := by
      have hclicked := clickedPid_line frame state (show ((0 : ℕ) : ℤ) < _ by omega)
      have hnone : frame.clickedPid state 2 = none := by
        apply Option.eq_none_iff_forall_ne_some.mpr
        intro pid hpid
        obtain ⟨row, hrow, hrowLine, -⟩ := (hagree 2 (by decide) hheight pid).mp hpid
        exact hline row hrow hrowLine
      rw [Nat.cast_zero, add_zero, add_zero, hnone] at hclicked
      exact hclicked.symm
    refine ⟨hfirst, fun row hrow hin => ?_⟩
    have hpid := (hagree row.line hin.1 hin.2 row.pid).mpr ⟨row, hrow, rfl, rfl⟩
    rw [hfirst.clickedPid] at hpid
    cases hpid
  · rintro ⟨hfirst, hnone⟩ line h0 hlt pid
    rw [hfirst.clickedPid]
    constructor
    · exact nofun
    · rintro ⟨row, hrow, rfl, -⟩
      exact absurd ⟨h0, hlt⟩ (hnone row hrow)

section Views
variable (layout : WindowLayout) (alpha : AlphaModel) (rows : List ProcessRow)
  (before state : UiState)

theorem pageRows_of_height (hheight : 6 ≤ layout.processHeight) :
    (showRows layout alpha rows before).metrics.pageRows = layout.processHeight - 3 := by
  rw [showRows_pageRows]
  unfold pageRowsOf
  omega

/-- A drawn page, by line. -/
theorem exists_drawPage_iff (firstLine : ℤ) {line pid : ℤ} {metrics : ProcessViewMetrics} :
    (∃ row ∈ drawPage firstLine rows state metrics, row.line = line ∧ row.pid = pid) ↔
      ∃ offset : ℕ, offset < metrics.pageRows ∧ line = firstLine + offset ∧
        pidAt rows (state.tablePage * metrics.pageRows + offset) = some pid := by
  constructor
  · rintro ⟨row, hrow, rfl, rfl⟩
    obtain ⟨offset, hlt, hpid, hline, -⟩ := mem_drawPage.mp hrow
    exact ⟨offset, hlt, hline, hpid⟩
  · rintro ⟨offset, hlt, rfl, hpid⟩
    exact ⟨⟨_, pid, _⟩, mem_drawPage.mpr ⟨offset, hlt, hpid, rfl, rfl⟩, rfl, rfl⟩

theorem overview_iff (hheight : 6 ≤ layout.processHeight)
    (hdrawn : (showRows layout alpha rows before).drawn = drawPage 2 rows
      (showRows layout alpha rows before).shown (showRows layout alpha rows before).metrics) :
    ClicksAgree (showRows layout alpha rows before) state ↔
      PageKept (showRows layout alpha rows before) state := by
  have hpage := pageRows_of_height layout alpha rows before hheight
  rw [clicksAgree_iff_lines]
  unfold LinesAgree
  rw [hdrawn]
  constructor
  · intro hagree offset hlt
    rw [← clickedPid_line _ state hlt]
    apply Option.ext
    intro pid
    rw [hagree (2 + offset) (by omega) (show _ < layout.processHeight by omega) pid,
      exists_drawPage_iff]
    constructor
    · rintro ⟨other, -, heq, hpid⟩
      rw [show offset = other by omega]
      exact hpid
    · exact fun hpid => ⟨offset, hlt, rfl, hpid⟩
  · intro hkept line _ _ pid
    rw [clickedPid_eq_some, exists_drawPage_iff]
    refine exists_congr fun offset => and_congr_right fun hlt => and_congr_right fun _ => ?_
    rw [hkept offset hlt]
    rfl

theorem gpuActive_iff (hheight : 6 ≤ layout.processHeight)
    (hdrawn : (showRows layout alpha rows before).drawn = drawPage 3 rows
      (showRows layout alpha rows before).shown (showRows layout alpha rows before).metrics) :
    ClicksAgree (showRows layout alpha rows before) state ↔ rows = [] := by
  have hpage := pageRows_of_height layout alpha rows before hheight
  have hlines : ∀ row ∈ (showRows layout alpha rows before).drawn,
      3 ≤ row.line ∧ row.line < layout.processHeight := by
    rw [hdrawn]
    intro row hrow
    obtain ⟨offset, hlt, -, hline, -⟩ := mem_drawPage.mp hrow
    omega
  rw [clicksAgree_iff_nothing (by omega) (show 2 < layout.processHeight by omega)
    fun row hrow => by have := hlines row hrow; omega]
  constructor
  · rintro ⟨-, hnone⟩
    by_contra hrows
    have hok := showRows_pageOk layout alpha rows before
    have hstart := hok.start_lt hrows
    have hstart0 := Int.mul_nonneg hok.nonneg
      (show 0 ≤ (showRows layout alpha rows before).metrics.pageRows by omega)
    -- the first row of the page is drawn on line 3
    cases hpid : pidAt rows ((showRows layout alpha rows before).shown.tablePage *
        (showRows layout alpha rows before).metrics.pageRows) with
    | none =>
      rcases pidAt_eq_none_iff.mp hpid with h | h <;> omega
    | some pid =>
      obtain ⟨row, hrow, hline, -⟩ := (exists_drawPage_iff rows _ 3).mpr
        ⟨0, by omega, rfl, (congrArg (pidAt rows) (add_zero _)).trans hpid⟩
      rw [← hdrawn] at hrow
      exact hnone row hrow ⟨by omega, by have := hlines row hrow; exact this.2⟩
  · rintro rfl
    refine ⟨pidAt_eq_none_iff.mpr ?_, ?_⟩
    · show _ ∨ ((0 : ℕ) : ℤ) ≤ _
      omega
    · rw [hdrawn, drawPage_nil]
      exact nofun

theorem systemIo_iff (hheight : 6 ≤ layout.processHeight)
    (hdrawn : (showRows layout alpha rows before).drawn = []) :
    ClicksAgree (showRows layout alpha rows before) state ↔
      Unclickable (showRows layout alpha rows before) state := by
  have hpage := pageRows_of_height layout alpha rows before hheight
  rw [clicksAgree_iff_nothing (by omega) (show 2 < layout.processHeight by omega)
    (by rw [hdrawn]; exact nofun), hdrawn]
  exact and_iff_left nofun

theorem alpha_iff (hheight : 6 ≤ layout.processHeight)
    (hprofile : (showRows layout alpha rows before).shown.viewProfile = .alpha) :
    ClicksAgree (showRows layout alpha rows before) state ↔
      Unclickable (showRows layout alpha rows before) state ∧
        (layout.processHeight < 8 ∨ alpha.processRows = []) := by
  rcases showRows_drawn_alpha layout alpha rows before hprofile with
    ⟨hnone, hdrawn⟩ | ⟨htall, hrows, start, finish, hdrawn, h0, hle, hlt, hend⟩
  · rw [systemIo_iff layout alpha rows before state hheight hdrawn]
    exact (and_iff_left hnone).symm
  · have hpage := pageRows_of_height layout alpha rows before hheight
    have hlines : ∀ row ∈ (showRows layout alpha rows before).drawn, row.line ≠ 2 := by
      rw [hdrawn]
      intro row hrow
      obtain ⟨offset, -, -, hline, -⟩ := mem_drawRows.mp hrow
      omega
    rw [clicksAgree_iff_nothing (by omega) (show 2 < layout.processHeight by omega) hlines]
    refine and_congr_right fun _ => iff_of_false (fun hnone => ?_) (by
      rintro (h | h)
      · omega
      · exact hrows h)
    -- the first row of the page is drawn on line 5
    cases hpid : rowAt (alphaPids alpha) start with
    | none =>
      have hlength : (alphaPids alpha).length = alpha.processRows.length := List.length_map _
      rcases rowAt_eq_none_iff.mp hpid with h | h <;> omega
    | some pid =>
      have hrow : (⟨5, pid, decide (start =
          (showRows layout alpha rows before).shown.workloadIndex)⟩ : DrawnRow) ∈
          (showRows layout alpha rows before).drawn := by
        rw [hdrawn, mem_drawRows]
        refine ⟨0, by omega, ?_, rfl, ?_⟩
        · rw [Nat.cast_zero, add_zero]
          exact hpid
        · rw [Nat.cast_zero, add_zero]
      exact hnone _ hrow ⟨show (0 : ℤ) ≤ 5 by decide, show 5 < layout.processHeight by omega⟩

end Views

/-- Over every terminal, profile, view, row list, page and selection, and whatever the inputs since
the frame have made of the state, clicks select what is drawn exactly when `ClickHolds`. -/
theorem clicksAgree_iff (terminalRows terminalCols : ℤ) (alpha : AlphaModel)
    (rows : List ProcessRow) (before state : UiState) :
    ClicksAgree (showRows (createWindows terminalRows terminalCols) alpha rows before) state ↔
      ClickHolds (showRows (createWindows terminalRows terminalCols) alpha rows before) state := by
  have hheight := createWindows_height terminalRows terminalCols
  generalize createWindows terminalRows terminalCols = layout at hheight ⊢
  unfold ClickHolds
  cases hprofile : (showRows layout alpha rows before).shown.viewProfile with
  | alpha => exact alpha_iff layout alpha rows before state hheight hprofile
  | beta =>
    have hdrawn := showRows_drawn_beta layout alpha rows before hprofile
    cases hview : (showRows layout alpha rows before).shown.viewMode with
    | overview =>
      rw [hview] at hdrawn
      exact overview_iff layout alpha rows before state hheight hdrawn
    | gpuActive =>
      rw [hview] at hdrawn
      exact gpuActive_iff layout alpha rows before state hheight hdrawn
    | systemIo =>
      rw [hview] at hdrawn
      exact systemIo_iff layout alpha rows before state hheight hdrawn

/-! ## A failing click -/

def gpuProcess (pid : ℤ) : ProcessSnapshot := { pid, gpuActive := true }

/-- GPU Active with two processes, on a terminal of 40 lines. -/
def gpuFrame : Frame :=
  showRows (createWindows 40 120) {} [{ process := gpuProcess 10 }, { process := gpuProcess 20 }]
    { viewProfile := .beta, viewMode := .gpuActive }

/-- A click on the line of the first process selects the second. -/
theorem gpuFrame_click :
    gpuFrame.drawn = [⟨3, 10, false⟩, ⟨4, 20, false⟩] ∧
      gpuFrame.selectedAfter 0 gpuFrame.shown ⟨5, gpuFrame.layout.processY + 3, true⟩ = some 20 ∧
      ¬ ClicksAgree gpuFrame gpuFrame.shown := by
  have hselected : gpuFrame.selectedAfter 0 gpuFrame.shown
      ⟨5, gpuFrame.layout.processY + 3, true⟩ = some 20 := by decide
  have hdrawn : gpuFrame.drawn = [⟨3, 10, false⟩, ⟨4, 20, false⟩] := by decide
  refine ⟨hdrawn, hselected, fun hagree => ?_⟩
  have hrow := (hagree 0 none ⟨5, gpuFrame.layout.processY + 3, true⟩
    (by unfold Frame.Inside; decide) rfl).1 ⟨3, 10, false⟩
    (by rw [hdrawn]; exact List.mem_cons_self) rfl
  exact absurd (hselected.symm.trans hrow) (by decide)

end Mtop
