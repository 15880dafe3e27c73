import Mtop.Ui.Selection

/-! Where a frame puts the process rows and the function keys. Lines and columns are relative to
the window, as the drawing code has them. -/
namespace Mtop
open Cxx
set_option autoImplicit false

/-! ## Windows -/

structure WindowLayout where
  rows : ℤ
  cols : ℤ
  processY : ℤ
  processHeight : ℤ
  footerY : ℤ
  deriving DecidableEq, Inhabited

def createWindows (rows cols : ℤ) : WindowLayout :=
  let infoHeight := 1
  let footerHeight := 2
  let memoryHeight := 5
  let remaining := max 16 (rows - infoHeight - memoryHeight - footerHeight)
  let topHeight := max 10 (min 18 (remaining - 6))
  let memoryY := infoHeight + topHeight
  { rows, cols
    processY := memoryY + memoryHeight
    processHeight := max 6 (remaining - topHeight)
    footerY := rows - footerHeight }

theorem createWindows_height (rows cols : ℤ) : 6 ≤ (createWindows rows cols).processHeight :=
  le_max_left _ _

/-! ## Columns -/

structure ProcessColumn where
  title : Text
  width : ℤ
  sortMode : SortMode
  sortable : Bool

def processColumns : List ProcessColumn :=
  [⟨str "PID", 5, .pid, true⟩, ⟨str "USER", 10, .name, false⟩, ⟨str "S", 1, .pid, false⟩,
    ⟨str "CPU%", 5, .cpu, true⟩, ⟨str "MIX", 12, .pid, false⟩, ⟨str "MEM%", 10, .mem, true⟩,
    ⟨str "GPU", 3, .gpuActive, true⟩, ⟨str "IO", 11, .io, true⟩, ⟨str "PWR", 5, .power, true⟩]

def processColumnOffset (column : ℕ) : ℤ :=
  1 + ((processColumns.take column).map fun c => c.width + 1).sum

/-- The columns whose title covers the position, from left to right. -/
def columnsAt (localX : ℤ) : List ProcessColumn :=
  (processColumns.zipIdx.filter fun (c, i) =>
    processColumnOffset i ≤ localX && localX ≤ processColumnOffset i + c.width - 1).map (·.1)

def processColumnFromHeaderX (localX : ℤ) : Option ProcessColumn := (columnsAt localX).head?

def processSortFromHeaderX (localX : ℤ) : Option SortMode :=
  ((columnsAt localX).find? (·.sortable)).map (·.sortMode)

/-! ## Process rows -/

/-- A process row on the screen. -/
structure DrawnRow where
  line : ℤ
  pid : ℤ
  selected : Bool
  deriving DecidableEq, Inhabited

/-- The loop all three views share, from index `start` to `finish`. -/
def drawRows (firstLine : ℤ) (pids : List ℤ) (start finish selectedIndex : ℤ) : List DrawnRow :=
  (List.range (finish - start).toNat).filterMap fun (offset : ℕ) =>
    (rowAt pids (start + offset)).map fun pid =>
      ⟨firstLine + offset, pid, start + offset = selectedIndex⟩

def rowPids (rows : List ProcessRow) : List ℤ := rows.map (·.process.pid)

def alphaPids (alpha : AlphaModel) : List ℤ := alpha.processRows.map (·.process.pid)

/-- One page of the process table, with its first row on `firstLine`. -/
def drawPage (firstLine : ℤ) (rows : List ProcessRow) (state : UiState)
    (metrics : ProcessViewMetrics) : List DrawnRow :=
  let start := state.tablePage * metrics.pageRows
  drawRows firstLine (rowPids rows) start (min (start + metrics.pageRows) rows.length)
    metrics.selectedIndex

def drawProcesses (rows : List ProcessRow) (state : UiState) (metrics : ProcessViewMetrics) :
    List DrawnRow :=
  if rows = [] then [] else drawPage 2 rows state metrics

/-- Line 2 holds the column titles here. -/
def drawGpuActiveView (rows : List ProcessRow) (state : UiState) (metrics : ProcessViewMetrics) :
    List DrawnRow :=
  if rows = [] then [] else drawPage 3 rows state metrics

def drawAlphaWorkloadsView (maxY : ℤ) (state : UiState) (alpha : AlphaModel) :
    UiState × List DrawnRow :=
  if maxY < 8 then (state, [])
  else if alpha.processRows = [] then ({ state with workloadIndex := 0 }, [])
  else
    let size : ℤ := alpha.processRows.length
    let index := clamp state.workloadIndex 0 (size - 1)
    let pageRows := max 1 (maxY - 6)
    let start := clamp (Int.tdiv index pageRows * pageRows) 0 (max 0 (size - 1))
    ({ state with workloadIndex := index },
      drawRows 5 (alphaPids alpha) start (min (start + pageRows) size) index)

/-- The process window of a frame. -/
def drawProcessWindow (layout : WindowLayout) (state : UiState) (alpha : AlphaModel)
    (rows : List ProcessRow) (metrics : ProcessViewMetrics) : UiState × List DrawnRow :=
  match state.viewProfile with
  | .alpha => drawAlphaWorkloadsView layout.processHeight state alpha
  | .beta =>
    match state.viewMode with
    | .systemIo => (state, [])
    | .gpuActive => (state, drawGpuActiveView rows state metrics)
    | .overview => (state, drawProcesses rows state metrics)

/-! ## Footer and popups -/

def keyLabels : List (Text × Text × ℤ) :=
  [(str "F1", str "Help", keyF 1), (str "F2", str "Setup", keyF 2),
    (str "F3", str "Search", keyF 3), (str "F4", str "Filter", keyF 4),
    (str "F5", str "Tree", keyF 5), (str "F6", str "SortBy", keyF 6),
    (str "F7", str "View-", keyF 7), (str "F8", str "View+", keyF 8),
    (str "F9", str "Kill", keyF 9), (str "F10", str "Quit", keyF 10)]

/-- `draw_key_label`: the next column and the bounds of the label, untouched when it does not
fit. -/
def drawKeyLabel (width col : ℤ) (label : Text × Text × ℤ) (bounds : ButtonBounds) :
    ℤ × ButtonBounds :=
  if col ≥ width - 4 then (col, bounds)
  else
    let stop := col + label.1.length
    let stop := if stop < width - 1 then stop + label.2.1.length else stop
    let stop := if stop < width - 1 then stop + 1 else stop
    (stop, ⟨col, stop - 1, label.2.2⟩)

def drawKeyLabels (width : ℤ) : ℤ → List (Text × Text × ℤ) → List ButtonBounds → List ButtonBounds
  | col, label :: labels, bounds :: buttons =>
    let drawn := drawKeyLabel width col label bounds
    drawn.2 :: drawKeyLabels width drawn.1 labels buttons
  | _, _, buttons => buttons

def drawFooter (layout : WindowLayout) (state : UiState) : UiState :=
  { state with footerButtons := drawKeyLabels layout.cols 0 keyLabels state.footerButtons }

/-- A detail popup closes when it has lost its process. -/
def drawPopups (state : UiState) (alpha : AlphaModel) (rows : List ProcessRow) : UiState :=
  if state.showHelp || state.showSetup then state
  else if state.showWorkloadDetail then
    if alpha.processRows = [] then { state with showWorkloadDetail := false }
    else
      { state with
        workloadIndex := clamp state.workloadIndex 0 (alpha.processRows.length - 1) }
  else if state.showProcessDetail then
    match selectedProcess rows state.selectedPid with
    | some _ => state
    | none => { state with showProcessDetail := false }
  else state

end Mtop
