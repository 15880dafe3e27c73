import Mtop.Config
import Mtop.Library.CxxInt
import Mathlib.Data.Finset.Insert
import Mathlib.Data.Finset.Erase
import Mathlib.Data.Finset.Dedup

/-! The state of the terminal interface and its small setters (`main.cpp`, `input_logic.cpp`).
Time is the steady clock in milliseconds. -/
namespace Mtop
open Cxx
set_option autoImplicit false

inductive PromptMode where
  | none | search | filter | sort | signal
  deriving DecidableEq, Inhabited

/-- An enumeration over `int`, to which any number can be cast. -/
structure SetupField where
  number : ℤ
  deriving DecidableEq, Inhabited

namespace SetupField

def theme : SetupField := ⟨0⟩
def cachedMemory : SetupField := ⟨1⟩
def refresh : SetupField := ⟨2⟩
def done : SetupField := ⟨3⟩

end SetupField

/-! ## Key codes -/

def err : ℤ := -1

def key (c : Char) : ℤ := c.toNat

def keyEscape : ℤ := 27
def keyDown : ℤ := 258
def keyUp : ℤ := 259
def keyLeft : ℤ := 260
def keyRight : ℤ := 261
def keyHome : ℤ := 262
def keyBackspace : ℤ := 263
def keyF (n : ℕ) : ℤ := 264 + n
def keyNPage : ℤ := 338
def keyPPage : ℤ := 339
def keyEnter : ℤ := 343
def keyBTab : ℤ := 353
def keyEnd : ℤ := 360
def keyMouse : ℤ := 409

/-- `'\n'` or the keypad's Enter. -/
def isEnter (ch : ℤ) : Bool := ch = key '\n' || ch = keyEnter

/-- Escape or Enter, which close a popup. -/
def closesPopup (ch : ℤ) : Bool := ch = keyEscape || isEnter ch

/-! ## State -/

structure ButtonBounds where
  x0 : ℤ := -1
  x1 : ℤ := -1
  event : ℤ := err
  deriving DecidableEq, Inhabited

def functionKeyCount : ℕ := 10

structure UiState where
  sort : SortMode := .cpu
  viewProfile : ViewProfile := .alpha
  treeMode : Bool := false
  tablePage : ℤ := 0
  workloadIndex : ℤ := 0
  selectedPid : Option ℤ := none
  promptMode : PromptMode := .none
  viewMode : ViewMode := .overview
  filter : Text := []
  search : Text := []
  promptBuffer : Text := []
  promptSaved : Text := []
  pidSearch : Text := []
  pidSearchDeadline : ℕ := 0
  statusMessage : Text := []
  statusDeadline : ℕ := 0
  searchPending : Bool := false
  sortDirection : ℤ := -1
  showHelp : Bool := false
  showSetup : Bool := false
  showProcessDetail : Bool := false
  showWorkloadDetail : Bool := false
  showCachedMemory : Bool := false
  setupField : SetupField := .theme
  footerButtons : List ButtonBounds := List.replicate functionKeyCount {}
  collapsedPids : Finset ℤ := ∅
  deriving DecidableEq, Inhabited

/-! ## Sort modes -/

def cycleSort : SortMode → SortMode
  | .pid => .cpu
  | .cpu => .mem
  | .mem => .time
  | .time => .name
  | .name => .gpuActive
  | .gpuActive => .io
  | .io => .power
  | .power => .pid

def defaultSortDirection : SortMode → ℤ
  | .pid => 1
  | .name => 1
  | _ => -1

def sortModeName : SortMode → Text
  | .pid => str "pid"
  | .cpu => str "cpu"
  | .mem => str "mem"
  | .time => str "time"
  | .name => str "name"
  | .gpuActive => str "gpu"
  | .io => str "io"
  | .power => str "power"

/-! ## Setters -/

namespace UiState

def setStatus (state : UiState) (now : ℕ) (message : Text) (durationMs : ℕ) : UiState :=
  { state with statusMessage := message, statusDeadline := now + durationMs }

/-- The status with the default duration. -/
def say (state : UiState) (now : ℕ) (message : Text) : UiState := state.setStatus now message 3000

def setSortMode (state : UiState) (mode : SortMode) : UiState :=
  { state with
    sort := mode
    sortDirection := defaultSortDirection mode
    tablePage := 0
    selectedPid := none }

def setViewMode (state : UiState) (mode : ViewMode) : UiState :=
  { state with viewMode := mode, tablePage := 0, selectedPid := none, showProcessDetail := false }

def directionText (state : UiState) : Text :=
  if state.sortDirection > 0 then str " asc" else str " desc"

/-- `"Sort: <mode> <direction>"`. -/
def saySort (state : UiState) (now : ℕ) : UiState :=
  state.say now (str "Sort: " ++ sortModeName state.sort ++ state.directionText)

def expandSelected (state : UiState) : UiState :=
  match state.selectedPid with
  | some pid => { state with collapsedPids := state.collapsedPids.erase pid }
  | none => state

end UiState
end Mtop
