import Mtop.Ui.Input
import Mtop.Library.Run

/-! The main loop: a frame is built and drawn from one sample, then up to twenty inputs are handled
with the rows of that frame before the next sample is taken. -/
namespace Mtop
open Cxx
set_option autoImplicit false

/-! ## Frames -/

/-- What a frame drew and what the inputs after it are handled with. -/
structure Frame where
  layout : WindowLayout
  /-- the state as the process window was drawn -/
  shown : UiState
  alpha : AlphaModel
  rows : List ProcessRow
  metrics : ProcessViewMetrics
  drawn : List DrawnRow

/-- The pid of the row drawn as selected. -/
def Frame.highlighted (frame : Frame) : Option ℤ := (frame.drawn.find? (·.selected)).map (·.pid)

section Build
variable (σ : StdSort)

/-- The ascending order of the Alpha rows. -/
def alphaRowLess (lhs rhs : AiProcessRow) : Bool :=
  if lhs.isAi ≠ rhs.isAi then lhs.isAi && !rhs.isAi
  else if lhs.process.residentBytes ≠ rhs.process.residentBytes then
    lhs.process.residentBytes < rhs.process.residentBytes
  else lhs.process.pid < rhs.process.pid

def buildAlphaModel (snapshot : SystemSnapshot) (priorHistory : List SystemSnapshot)
    (state : UiState) : AlphaModel :=
  let workloads := buildWorkloads σ snapshot
  let processRows := buildAiProcessRows σ snapshot
  let workloads :=
    if state.filter = [] then workloads else workloads.filter (workloadMatchesQuery · state.filter)
  let processRows :=
    if state.filter = [] then processRows
    else processRows.filter (aiProcessMatchesQuery · state.filter)
  let workloads :=
    if state.sortDirection > 0 then
      σ.sort (fun lhs rhs => lhs.residentBytes < rhs.residentBytes) workloads
    else workloads
  let processRows :=
    if state.sortDirection > 0 then σ.sort alphaRowLess processRows else processRows
  ⟨workloads, processRows, deriveMemoryRisk snapshot priorHistory workloads⟩

/-- The models of the frame, and the state after the pending search. -/
def frameAlpha (snapshot : SystemSnapshot) (priorHistory : List SystemSnapshot) (now : ℕ)
    (state : UiState) : AlphaModel × UiState :=
  match state.viewProfile with
  | .beta => ({}, state)
  | .alpha =>
    let alpha := buildAlphaModel σ snapshot priorHistory state
    (alpha, state.applyAlphaSearchRequest now alpha)

def frameRows (snapshot : SystemSnapshot) (state : UiState) : List ProcessRow :=
  if state.viewProfile = .beta ∧ state.viewMode = .gpuActive then
    buildGpuActiveRows σ snapshot state
  else buildProcessRows σ snapshot state

/-- Paging and drawing of the rows. -/
def showRows (layout : WindowLayout) (alpha : AlphaModel) (rows : List ProcessRow)
    (state : UiState) : Frame :=
  let paged := calculateProcessMetrics rows state layout.processHeight
  let window := drawProcessWindow layout paged.2 alpha rows paged.1
  ⟨layout, window.1, alpha, rows, paged.1, window.2⟩

/-- The frame, and the state that the inputs after it start from. -/
def buildFrame (layout : WindowLayout) (snapshot : SystemSnapshot)
    (priorHistory : List SystemSnapshot) (now : ℕ) (state : UiState) : Frame × UiState :=
  let (alpha, state) := frameAlpha σ snapshot priorHistory now state
  let rows := frameRows σ snapshot state
  let frame := showRows layout alpha rows (state.applySearchRequest now rows)
  (frame, drawPopups (drawFooter layout frame.shown) alpha rows)

end Build

/-! ## The machine -/

structure Ui where
  config : AppConfig
  state : UiState
  snapshotHistory : List SystemSnapshot := []
  frame : Option Frame := none
  polls : ℕ := 0
  running : Bool := true

def start (config : AppConfig) : Ui where
  config := config
  state :=
    { viewProfile := config.viewProfile
      showCachedMemory := config.showCachedMemory
      viewMode := config.defaultView
      sort := config.sort
      sortDirection := config.sortDirection }

/-- What `read_input_event` and `getmouse` deliver. -/
structure InputEvent where
  key : ℤ := err
  mouse : Option MouseEvent := none

inductive Move where
  | frame (snapshot : SystemSnapshot) (rows cols : ℤ) (now : ℕ)
  | input (event : InputEvent) (env : InputEnv)

def inputsPerFrame : ℕ := 20

/-- The key an event stands for, and the state a mouse click leaves. -/
def translateEvent (frame : Frame) (now : ℕ) (state : UiState) (event : InputEvent) :
    UiState × ℤ :=
  if event.key = keyMouse then
    match event.mouse.filter (·.primary) with
    | some mouse =>
      synthesizeMouseEvent frame.layout now state frame.rows frame.metrics mouse
    | none => (state, err)
  else (state, event.key)

/-- One turn of the input loop. -/
def processInput (ui : Ui) (frame : Frame) (event : InputEvent) (env : InputEnv) : InputResult :=
  let (state, ch) := translateEvent frame env.now ui.state event
  if ch = err then result ui.config state
  else handleInput env ui.config state frame.alpha frame.rows frame.metrics ch

/-- The calls on other processes that a move makes. -/
def actions (ui : Ui) : Move → List Action
  | .frame .. => []
  | .input event env =>
    match ui.frame with
    | some frame => (processInput ui frame event env).actions
    | none => []

variable (σ : StdSort)

def drawFrame (ui : Ui) (snapshot : SystemSnapshot) (rows cols : ℤ) (now : ℕ) : Ui :=
  let (frame, state) :=
    buildFrame σ (createWindows rows cols) snapshot ui.snapshotHistory now ui.state
  let history := ui.snapshotHistory ++ [snapshot]
  { ui with
    state
    frame := some frame
    polls := 0
    snapshotHistory := history.drop (history.length - 8) }

def step : Move → Ui → Option Ui
  | .frame snapshot rows cols now, ui =>
    if ui.running ∧ (ui.frame.isNone ∨ ui.polls = inputsPerFrame) then
      some (drawFrame σ ui snapshot rows cols now)
    else none
  | .input event env, ui =>
    match ui.frame with
    | some frame =>
      if ui.running ∧ ui.polls < inputsPerFrame then
        let r := processInput ui frame event env
        some { ui with
          config := r.config, state := r.state, polls := ui.polls + 1, running := r.running }
      else none
    | none => none

end Mtop
