import Mtop.Ui.Draw

/-! `synthesize_mouse_event` and `handle_input`. The clock and what the system calls answer are
part of an input; the calls that act on another process are part of the result. -/
namespace Mtop
open Cxx
set_option autoImplicit false

/-- A system call on another process. -/
inductive Action where
  | kill (pid signal : ℤ)
  | setpriority (pid nice : ℤ)
  deriving DecidableEq

def Action.pid : Action → ℤ
  | .kill pid _ => pid
  | .setpriority pid _ => pid

/-- The answers of `getpriority`, `setpriority` and `kill`, errors as their `strerror` text. -/
structure OsReply where
  getpriority : Except Text ℤ := .ok 0
  setpriority : Option Text := none
  kill : Option Text := none

/-- When the input is handled and what the system answers. -/
structure InputEnv where
  now : ℕ := 0
  reply : OsReply := {}

structure InputResult where
  config : AppConfig
  state : UiState
  actions : List Action := []
  running : Bool := true

/-! ## Mouse -/

structure MouseEvent where
  x : ℤ
  y : ℤ
  /-- `is_primary_mouse_activation` -/
  primary : Bool
  deriving DecidableEq

/-- The row that a click on a line of the screen falls on. -/
def clickedRow (layout : WindowLayout) (state : UiState) (rows : List ProcessRow)
    (metrics : ProcessViewMetrics) (y : ℤ) : Option ProcessRow :=
  let rowStart := layout.processY + 2
  let rowEnd := rowStart + metrics.pageRows - 1
  if rowStart ≤ y ∧ y ≤ rowEnd then
    rowAt rows (state.tablePage * metrics.pageRows + (y - rowStart))
  else none

/-- A click on the header of the Overview: the state it leaves, and whether the event ends there. -/
def clickHeader (layout : WindowLayout) (now : ℕ) (state : UiState) (event : MouseEvent) :
    UiState × Bool :=
  if state.viewMode = .overview ∧ layout.processY ≤ event.y ∧ event.y ≤ layout.processY + 1 then
    match (processColumnFromHeaderX event.x).filter fun column => !column.sortable with
    | some column =>
      (state.setStatus now (str "Header hit: " ++ column.title ++ str " (not sortable)") 1500, true)
    | none =>
      match processSortFromHeaderX event.x with
      | some sort =>
        let state :=
          if state.sort = sort then { state with sortDirection := -state.sortDirection }
          else state.setSortMode sort
        (state.saySort now, true)
      | none => (state.setStatus now (str "Header miss x=" ++ intText event.x) 1200, false)
  else (state, false)

def clickFooter (layout : WindowLayout) (state : UiState) (event : MouseEvent) : ℤ :=
  if event.y = layout.footerY + 1 then
    match state.footerButtons.find? fun button => button.x0 ≤ event.x && event.x ≤ button.x1 with
    | some button => button.event
    | none => err
  else err

/-- The state after the click and the key it stands for. -/
def synthesizeMouseEvent (layout : WindowLayout) (now : ℕ) (state : UiState)
    (rows : List ProcessRow) (metrics : ProcessViewMetrics) (event : MouseEvent) : UiState × ℤ :=
  match clickHeader layout now state event with
  | (state, true) => (state, err)
  | (state, false) =>
    match clickedRow layout state rows metrics event.y with
    | some row => ({ state with selectedPid := some row.process.pid }, err)
    | none => (state, clickFooter layout state event)

/-! ## Acting on the selected process -/

section Handle
variable (env : InputEnv) (config : AppConfig) (state : UiState)

def result (state : UiState) : InputResult := { config, state }

def reniceSelectedProcess (delta : ℤ) : InputResult :=
  match state.selectedPid with
  | none => result config (state.say env.now (str "No selected process"))
  | some pid =>
    match env.reply.getpriority with
    | .error reason => result config (state.say env.now (str "renice failed: " ++ reason))
    | .ok nice =>
      let message := match env.reply.setpriority with
        | some reason => str "renice failed: " ++ reason
        | none => str "Updated nice for pid " ++ intText pid
      { config
        state := state.say env.now message
        actions := [.setpriority pid (nice + delta)] }

def sendSignalToSelectedProcess (signal : ℤ) : InputResult :=
  match state.selectedPid with
  | none => result config (state.say env.now (str "No selected process"))
  | some pid =>
    let message := match env.reply.kill with
      | some reason => str "signal failed: " ++ reason
      | none => str "Sent signal " ++ intText signal ++ str " to pid " ++ intText pid
    { config, state := state.say env.now message, actions := [.kill pid signal] }

def sigterm : ℤ := 15

/-! ## Popups and prompts -/

def nextTheme (theme : Text) : Text :=
  if theme = str "apple" then str "green" else if theme = str "green" then str "mono"
  else str "apple"

def handleSetup (ch : ℤ) : InputResult :=
  if ch = keyEscape ∨ ch = keyF 2 then result config { state with showSetup := false }
  else if ch = keyUp ∧ state.setupField ≠ .theme then
    result config { state with setupField := ⟨state.setupField.number - 1⟩ }
  else if ch = keyDown ∧ state.setupField ≠ .done then
    result config { state with setupField := ⟨state.setupField.number + 1⟩ }
  else if isEnter ch then
    result config (if state.setupField = .done then { state with showSetup := false } else state)
  else if ch = keyLeft ∨ ch = keyRight then
    if state.setupField = .theme then
      result { config with theme := nextTheme config.theme } state
    else if state.setupField = .cachedMemory then
      result config { state with showCachedMemory := !state.showCachedMemory }
    else if state.setupField = .refresh then
      let delta := if ch = keyRight then 250 else -250
      result { config with refreshMs := clamp (config.refreshMs + delta) 250 5000 } state
    else result config state
  else result config state

/-- The keys of the sort menu. -/
def sortPromptKey (ch : ℤ) : UiState :=
  let lower := if key 'A' ≤ ch ∧ ch ≤ key 'Z' then ch + 32 else ch
  if lower = key 'n' then state.setSortMode .pid
  else if lower = key 'p' then state.setSortMode .cpu
  else if lower = key 'm' then state.setSortMode .mem
  else if lower = key 't' then state.setSortMode .time
  else if lower = key 'a' then state.setSortMode .name
  else if lower = key 'g' then state.setSortMode .gpuActive
  else if lower = key 'o' then state.setSortMode .io
  else if lower = key 'w' then state.setSortMode .power
  else if lower = key 'i' then { state with sortDirection := -state.sortDirection }
  else state

theorem sortPromptKey_cases {P : UiState → Prop} (hsort : ∀ mode, P (state.setSortMode mode))
    (hinvert : P { state with sortDirection := -state.sortDirection }) (hstay : P state) (ch : ℤ) :
    P (sortPromptKey state ch) := by
  have hmenu : ∀ {c : Prop} [Decidable c] {mode : SortMode} {rest : UiState}, P rest →
      P (if c then state.setSortMode mode else rest) := by
    intro c _ mode rest hrest
    split
    · exact hsort mode
    · exact hrest
  unfold sortPromptKey
  generalize (if key 'A' ≤ ch ∧ ch ≤ key 'Z' then ch + 32 else ch) = lower
  dsimp only
  -- One key after the other, the inversion last.
  refine hmenu (hmenu (hmenu (hmenu (hmenu (hmenu (hmenu (hmenu ?_)))))))
  split
  · exact hinvert
  · exact hstay

def escapePrompt : UiState :=
  let state := match state.promptMode with
    | .filter => { state with filter := [], tablePage := 0, selectedPid := none }
    | .search => { state with search := [] }
    | _ => state
  { state with promptMode := .none, promptBuffer := [] }

def confirmPrompt : InputResult :=
  match state.promptMode with
  | .search =>
    result config { state with
      search := state.promptBuffer, searchPending := true, promptMode := .none }
  | .filter =>
    result config { state with
      filter := state.promptBuffer, tablePage := 0, selectedPid := none, promptMode := .none }
  | .signal =>
    let signal := if state.promptBuffer = [] then sigterm else atoi state.promptBuffer
    sendSignalToSelectedProcess env config { state with promptMode := .none, promptBuffer := [] }
      (max 1 signal)
  | _ => result config { state with promptMode := .none }

variable (rows : List ProcessRow)

def handlePrompt (ch : ℤ) : InputResult :=
  if ch = keyEscape then result config (escapePrompt state)
  else if isEnter ch then confirmPrompt env config state
  else if ch = keyBackspace ∨ ch = 127 then
    let state := { state with promptBuffer := state.promptBuffer.dropLast }
    result config (state.updateLivePrompt rows)
  else if state.promptMode = .sort then
    let state := { sortPromptKey state ch with promptMode := .none }
    result config (state.saySort env.now)
  else if 32 ≤ ch ∧ ch ≤ 126 then
    let state := { state with promptBuffer := state.promptBuffer ++ [Char.ofNat ch.toNat] }
    result config (state.updateLivePrompt rows)
  else result config state

end Handle

/-! ## The main switch -/

/-- The groups of case labels of the switch. -/
inductive Command where
  | quit | up | down | pageUp | pageDown | home | end
  | sortBy (mode : SortMode) | invertSort | nextView | previousView | cycleSort
  | openSearch | openFilter | openSort | toggleTree
  | renice (delta : ℤ) | openSignal | openHelp | openSetup | openDetail
  | expandNode | collapseNode | toggleNodes | clear | other
  deriving DecidableEq

def commandKeys : List (List ℤ × Command) :=
  [([key 'q', key 'Q', keyF 10], .quit), ([keyUp], .up), ([keyDown], .down),
    ([keyPPage, keyLeft], .pageUp), ([keyNPage, keyRight], .pageDown), ([keyHome], .home),
    ([keyEnd], .end), ([key 'n', key 'N'], .sortBy .pid),
    ([key 'c', key 'p', key 'P'], .sortBy .cpu), ([key 'm', key 'M'], .sortBy .mem),
    ([key 'T'], .sortBy .time), ([key 'a', key 'A'], .sortBy .name),
    ([key 'g', key 'G'], .sortBy .gpuActive), ([key 'o', key 'O'], .sortBy .io),
    ([key 'w', key 'W'], .sortBy .power), ([key 'i', key 'I'], .invertSort),
    ([key '\t'], .nextView), ([keyBTab], .previousView), ([key 's', key 'S'], .cycleSort),
    ([key '/', keyF 3], .openSearch), ([key '\\', keyF 4], .openFilter),
    ([keyF 6, key '>', key '.'], .openSort), ([keyF 5, key 't'], .toggleTree),
    ([keyF 7, key '\x7b'], .previousView), ([key ']'], .renice (-1)),
    ([keyF 8, key '\x7d'], .nextView), ([key '['], .renice 1), ([keyF 9, key 'k'], .openSignal),
    ([keyF 1], .openHelp), ([keyF 2], .openSetup), ([key 'd', key 'D'], .openDetail),
    ([key '+'], .expandNode), ([key '-'], .collapseNode), ([key '*'], .toggleNodes),
    ([key 'x'], .clear)]

def command (ch : ℤ) : Command :=
  match commandKeys.find? fun entry => entry.1.contains ch with
  | some entry => entry.2
  | none => .other

section Switch
variable (env : InputEnv) (config : AppConfig) (state : UiState) (alpha : AlphaModel)
  (rows : List ProcessRow) (metrics : ProcessViewMetrics)

def isAlpha : Bool := state.viewProfile = .alpha

/-- Beta in a view that lists processes. -/
def processViewActive : Bool :=
  state.viewProfile = .beta && (state.viewMode = .overview || state.viewMode = .gpuActive)

def cycleView (delta : ℤ) : UiState :=
  if isAlpha state then state.say env.now (str "Alpha profile: AI Workloads")
  else
    let state := state.setViewMode (cycleViewMode state.viewMode delta)
    state.say env.now (str "View: " ++ viewModeLabel state.viewMode)

def moveKey (alphaDelta betaDelta : ℤ) (inactive : UiState) : UiState :=
  if isAlpha state then state.moveWorkloadSelection alpha alphaDelta
  else if processViewActive state then state.moveSelection rows betaDelta
  else inactive

def homeKey : UiState :=
  if isAlpha state then { state with workloadIndex := 0 }
  else if processViewActive state && rows ≠ [] then { state with selectedPid := pidAt rows 0 }
  else state

def endKey : UiState :=
  if isAlpha state then
    if alpha.processRows = [] then state
    else { state with workloadIndex := alpha.processRows.length - 1 }
  else if processViewActive state && rows ≠ [] then
    { state with selectedPid := pidAt rows (rows.length - 1) }
  else state

def cycleSortKey : UiState :=
  if isAlpha state then
    let state := { state with sortDirection := -state.sortDirection }
    state.say env.now (str "Sort: rss " ++ if state.sortDirection > 0 then str "asc" else str "desc")
  else (state.setSortMode (cycleSort state.sort)).saySort env.now

def openPrompt (mode : PromptMode) (text : Text) : UiState :=
  { state with promptMode := mode, promptBuffer := text, promptSaved := text }

def detailKey : UiState :=
  if isAlpha state then
    if alpha.processRows = [] then state.say env.now (str "No selected process")
    else { state with showWorkloadDetail := true }
  else if state.selectedPid.isSome then { state with showProcessDetail := true }
  else state.say env.now (str "No selected process")

/-- The tree keys work in the Overview only and switch the tree on. -/
def treeKey (edit : UiState → UiState) (message : UiState → Text) : UiState :=
  if state.viewMode ≠ .overview then state
  else
    let state := edit { state with treeMode := true }
    state.say env.now (message state)

def toggleTree : UiState :=
  if state.viewMode ≠ .overview then state
  else
    let state := { state with treeMode := !state.treeMode, tablePage := 0 }
    state.say env.now (str "Tree mode " ++ if state.treeMode then str "enabled" else str "disabled")

def clearKey : UiState :=
  ({ state with filter := [], search := [], tablePage := 0, selectedPid := none }).say env.now
    (str "Cleared filter and search")

/-- The low byte of any other key may be a digit. -/
def otherKey (ch : ℤ) : UiState :=
  let c := Char.ofNat (ch % 256).toNat
  if processViewActive state && c.isDigit then state.applyPidSearch env.now rows c else state

/-- The commands that touch nothing but the state. -/
def commandState (ch : ℤ) : Command → UiState
  | .up => moveKey state alpha rows (-1) (-1) state
  | .down => moveKey state alpha rows 1 1 state
  | .pageUp => moveKey state alpha rows (-5) (-metrics.pageRows) (cycleView env state (-1))
  | .pageDown => moveKey state alpha rows 5 metrics.pageRows (cycleView env state 1)
  | .home => homeKey state rows
  | .end => endKey state alpha rows
  | .sortBy mode => state.setSortMode mode
  | .invertSort => ({ state with sortDirection := -state.sortDirection }).saySort env.now
  | .nextView => cycleView env state 1
  | .previousView => cycleView env state (-1)
  | .cycleSort => cycleSortKey env state
  | .openSearch => openPrompt state .search state.search
  | .openFilter => openPrompt state .filter state.filter
  | .openSort => { state with promptMode := .sort }
  | .toggleTree => toggleTree env state
  | .openSignal => { state with promptMode := .signal, promptBuffer := str "15" }
  | .openHelp => { state with showHelp := true }
  | .openSetup => { state with showSetup := true }
  | .openDetail => detailKey env state alpha
  | .expandNode =>
    treeKey env state UiState.expandSelected fun _ => str "Expanded selected tree node"
  | .collapseNode =>
    treeKey env state (·.collapseSelected rows) fun _ => str "Collapsed selected tree node"
  | .toggleNodes =>
    treeKey env state (·.toggleAllTreeNodes rows) fun state =>
      if state.collapsedPids = ∅ then str "Expanded all tree nodes"
      else str "Collapsed all tree nodes"
  | .clear => clearKey env state
  | .other => otherKey env state rows ch
  | .quit => state
  | .renice _ => state

def runCommand (ch : ℤ) : InputResult :=
  match command ch with
  | .quit => { config, state, running := false }
  | .renice delta => reniceSelectedProcess env config state delta
  | cmd => result config (commandState env state alpha rows metrics ch cmd)

def handleInput (ch : ℤ) : InputResult :=
  if state.showHelp then
    result config
      (if closesPopup ch || ch = keyF 1 then { state with showHelp := false } else state)
  else if state.showProcessDetail then
    result config
      (if closesPopup ch || ch = key 'd' || ch = key 'D' then { state with showProcessDetail := false }
        else state)
  else if state.showWorkloadDetail then
    result config
      (if closesPopup ch || ch = key 'd' || ch = key 'D' then { state with showWorkloadDetail := false }
        else state)
  else if state.showSetup then handleSetup config state ch
  else if state.promptMode ≠ .none then handlePrompt env config state rows ch
  else runCommand env config state alpha rows metrics ch

end Switch
end Mtop
