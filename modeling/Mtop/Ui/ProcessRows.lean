import Mtop.Model.ProcessSort
import Mtop.Model.Workload
import Mtop.Ui.State

/-! The rows of the process table (`build_process_rows`, `build_gpu_active_rows`) and the text
queries that filter and search them. -/
namespace Mtop
open Cxx
set_option autoImplicit false

structure ProcessRow where
  process : ProcessSnapshot
  depth : ℕ := 0
  hasChildren : Bool := false
  collapsed : Bool := false
  deriving DecidableEq, Inhabited

/-! ## Queries -/

def containsFold (haystack needle : Text) : Bool := contains (lowercase haystack) (lowercase needle)

def processMatchesQuery (process : ProcessSnapshot) (query : Text) : Bool :=
  query = [] || containsFold process.user query || containsFold process.name query ||
    containsFold process.command query

def workloadMatchesQuery (workload : WorkloadSnapshot) (query : Text) : Bool :=
  query = [] || containsFold workload.name query ||
    containsFold (workloadKindLabel workload.kind) query || containsFold workload.modelHint query ||
    workload.processes.any fun process => containsFold process.command query

def aiProcessMatchesQuery (row : AiProcessRow) (query : Text) : Bool :=
  processMatchesQuery row.process query || query = [] ||
    containsFold (workloadKindLabel row.detection.kind) query ||
    containsFold row.detection.modelHint query || containsFold row.detection.label query

/-! ## Rows -/

section Rows
variable (σ : StdSort) (snapshot : SystemSnapshot) (state : UiState)

def rowLess (lhs rhs : ProcessSnapshot) : Bool :=
  processSortLess lhs rhs state.sort state.sortDirection

def filteredProcesses : List ProcessSnapshot :=
  snapshot.processes.filter fun process => processMatchesQuery process state.filter

/-- What the depth-first walk has visited and emitted. -/
structure TreeWalk where
  visited : Finset ℤ := ∅
  rows : List ProcessRow := []

/-- The children of `pid` in the order of the table. -/
def childrenOf (filtered : List ProcessSnapshot) (pid : ℤ) : List ProcessSnapshot :=
  σ.sort (rowLess state) (filtered.filter fun process => process.parentPid = pid)

/-- The recursive lambda `dfs`. Each level visits a new pid, so `fuel` is the number of pids left. -/
def dfs (children : ℤ → List ProcessSnapshot) (collapsedPids : Finset ℤ) :
    ℕ → ProcessSnapshot → ℕ → TreeWalk → TreeWalk
  | 0, _, _, walk => walk
  | fuel + 1, process, depth, walk =>
    if process.pid ∈ walk.visited then walk
    else
      let hasChildren := decide (children process.pid ≠ [])
      let collapsed := hasChildren && decide (process.pid ∈ collapsedPids)
      let walk := { visited := insert process.pid walk.visited
                    rows := walk.rows ++ [⟨process, depth, hasChildren, collapsed⟩] }
      if collapsed then walk
      else (children process.pid).foldl
        (fun walk child => dfs children collapsedPids fuel child (depth + 1) walk) walk

def treeRoots (filtered : List ProcessSnapshot) : List ProcessSnapshot :=
  σ.sort (rowLess state) (filtered.filter fun process =>
    process.parentPid ≤ 0 || process.parentPid = process.pid ||
      filtered.all fun other => other.pid ≠ process.parentPid)

def buildProcessRows : List ProcessRow :=
  let filtered := filteredProcesses snapshot state
  if state.treeMode then
    let visit := fun walk process =>
      dfs (childrenOf σ state filtered) state.collapsedPids (filtered.length + 1) process 0 walk
    (filtered.foldl visit ((treeRoots σ state filtered).foldl visit {})).rows
  else (σ.sort (rowLess state) filtered).map fun process => { process }

def buildGpuActiveRows : List ProcessRow :=
  let filtered := snapshot.processes.filter fun process =>
    process.gpuActive && processMatchesQuery process state.filter
  (σ.sort (rowLess state) filtered).map fun process => { process }

end Rows
end Mtop
