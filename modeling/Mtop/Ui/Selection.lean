import Mtop.Ui.ProcessRows
import Mtop.Model.MemoryRisk

/-! Selection, search and paging over the rows of a frame. -/
namespace Mtop
open Cxx
set_option autoImplicit false

structure AlphaModel where
  workloads : List WorkloadSnapshot := []
  processRows : List AiProcessRow := []
  risk : MemoryRiskSnapshot := {}
  deriving DecidableEq, Inhabited

structure ProcessViewMetrics where
  pageRows : ℤ := 1
  rowCount : ℤ := 0
  pageCount : ℤ := 1
  selectedIndex : ℤ := -1
  deriving DecidableEq, Inhabited

def pidAt (rows : List ProcessRow) (index : ℤ) : Option ℤ := (rowAt rows index).map (·.process.pid)

/-- The first row of the remembered pid, or -1. -/
def selectedProcessIndex (rows : List ProcessRow) (selectedPid : Option ℤ) : ℤ :=
  match selectedPid with
  | none => -1
  | some pid =>
    match rows.findIdx? (·.process.pid = pid) with
    | some index => index
    | none => -1

def selectedProcess (rows : List ProcessRow) (selectedPid : Option ℤ) : Option ProcessSnapshot :=
  match selectedPid with
  | none => none
  | some pid => (rows.find? (·.process.pid = pid)).map (·.process)

/-! ## Search -/

/-- The indices after `base`, once around `size` rows. -/
def cyclicIndices (base : ℤ) (size : ℕ) : List ℤ :=
  (List.range size).map fun (offset : ℕ) => (base + (offset + 1) + size) % size

namespace UiState
variable (state : UiState)

def applySearchRequest (now : ℕ) (rows : List ProcessRow) : UiState :=
  if !state.searchPending then state
  else
    let state := { state with searchPending := false }
    if state.search = [] || rows = [] then state
    else
      match (cyclicIndices (selectedProcessIndex rows state.selectedPid) rows.length).find? fun index =>
        (rowAt rows index).any fun row => processMatchesQuery row.process state.search with
      | some index => { state with selectedPid := pidAt rows index }
      | none => state.say now (str "No search match: " ++ state.search)

def applyAlphaSearchRequest (now : ℕ) (alpha : AlphaModel) : UiState :=
  if !state.searchPending then state
  else
    let state := { state with searchPending := false }
    if state.search = [] || alpha.processRows = [] then state
    else
      let base := clamp state.workloadIndex (-1) (alpha.processRows.length - 1)
      match (cyclicIndices base alpha.processRows.length).find? fun index =>
        (rowAt alpha.processRows index).any fun row => aiProcessMatchesQuery row state.search with
      | some index => { state with workloadIndex := index }
      | none => state.say now (str "No process search match: " ++ state.search)

/-- `apply_pid_search`; `ch` is a digit. -/
def applyPidSearch (now : ℕ) (rows : List ProcessRow) (ch : Char) : UiState :=
  let typed := if now > state.pidSearchDeadline then [] else state.pidSearch
  let state := { state with pidSearch := typed ++ [ch] }
  if state.pidSearch.length > 8 then
    ({ state with pidSearch := [] }).setStatus now (str "Cleared stale numeric input") 1200
  else
    let state := { state with pidSearchDeadline := now + 1500 }
    match rows.find? fun row => startsWith (intText row.process.pid) state.pidSearch with
    | some row => { state with selectedPid := some row.process.pid }
    | none => state.setStatus now (str "No PID match: " ++ state.pidSearch) 1200

/-! ## Moving -/

def moveSelection (rows : List ProcessRow) (delta : ℤ) : UiState :=
  if rows = [] then { state with selectedPid := none }
  else
    let index := selectedProcessIndex rows state.selectedPid
    let index :=
      if index < 0 then (if delta ≥ 0 then 0 else (rows.length : ℤ) - 1)
      else clamp (index + delta) 0 (rows.length - 1)
    { state with selectedPid := pidAt rows index }

def moveWorkloadSelection (alpha : AlphaModel) (delta : ℤ) : UiState :=
  if alpha.processRows = [] then { state with workloadIndex := 0 }
  else
    { state with
      workloadIndex := clamp (state.workloadIndex + delta) 0 (alpha.processRows.length - 1) }

def collapseSelected (rows : List ProcessRow) : UiState :=
  match state.selectedPid with
  | none => state
  | some pid =>
    if rows.any fun row => row.process.pid = pid && row.hasChildren then
      { state with collapsedPids := insert pid state.collapsedPids }
    else state

def toggleAllTreeNodes (rows : List ProcessRow) : UiState :=
  { state with
    collapsedPids :=
      if state.collapsedPids = ∅ then
        ((rows.filter (·.hasChildren)).map (·.process.pid)).toFinset
      else ∅ }

/-- The filter and the search follow the prompt while it is typed. -/
def updateLivePrompt (rows : List ProcessRow) : UiState :=
  match state.promptMode with
  | .filter =>
    let state := { state with filter := state.promptBuffer }
    if rows.any fun row => state.selectedPid = some row.process.pid then state
    else { state with selectedPid := none }
  | .search => { state with search := state.promptBuffer, searchPending := true }
  | _ => state

end UiState

/-! ## Paging -/

def pageRowsOf (windowHeight : ℤ) : ℤ := max 1 (windowHeight - 3)

/-- `calculate_process_metrics`: the paging of the rows, and the state with its page put right. -/
def calculateProcessMetrics (rows : List ProcessRow) (state : UiState) (windowHeight : ℤ) :
    ProcessViewMetrics × UiState :=
  let pageRows := pageRowsOf windowHeight
  if rows = [] then ({ pageRows }, { state with tablePage := 0, selectedPid := none })
  else
    let rowCount : ℤ := rows.length
    let selectedIndex := selectedProcessIndex rows state.selectedPid
    let pageCount := max 1 (Int.tdiv (rowCount + pageRows - 1) pageRows)
    let tablePage := clamp state.tablePage 0 (pageCount - 1)
    let tablePage :=
      if selectedIndex ≥ 0 ∧
          (selectedIndex < tablePage * pageRows ∨ selectedIndex ≥ (tablePage + 1) * pageRows) then
        Int.tdiv selectedIndex pageRows
      else tablePage
    (⟨pageRows, rowCount, pageCount, selectedIndex⟩, { state with tablePage })

end Mtop
